import ContentDecryption.Caps
import Mathlib.Data.List.Infix

/-!
# The fields of a capability text

A capability text is not divided into its fields. The value of a field is found by a search for
its tag, for the next closing parenthesis and for the next comma, so a tag or a parenthesis that
stands elsewhere could lead to the wrong value. Where each tag stands at one place alone, the
search comes to the right field, wherever that is and whatever stands beside it.

Main definitions:

* `Caps.places`: at how many places of a text a tag stands;
* `Caps.Field`: a field, with the spaces around its value;
* `Caps.IsNumeral`: the decimal numerals of a number.

Main results:

* `Caps.find?_of_places`: the search for a tag comes to its one place;
* `Caps.value?_of_places`: the value of a field is found, with its spaces;
* `Caps.dimension_of_isNumeral`, `Caps.classify_spaced`: what a value says, with spaces around it;
* `CapsParser.parse_fields`: what a text with the three fields comes to.
-/

namespace ContentDecryption

namespace Caps

/-! ## The search for a tag -/

/-- At how many places of a text a tag stands. -/
def places (tag text : List Char) : Nat := text.tails.countP tag.isPrefixOf

theorem places_cons (tag : List Char) (c : Char) (cs : List Char) :
    places tag (c :: cs) = places tag cs + if tag.isPrefixOf (c :: cs) then 1 else 0 := by
  unfold places
  rw [List.tails_cons, List.countP_cons]

theorem find?_of_isPrefixOf {tag text : List Char} (h : tag.isPrefixOf text = true) :
    find? tag text = some text := by
  cases text with
  | nil =>
    rw [List.isPrefixOf_iff_prefix, List.prefix_nil] at h
    subst h
    rfl
  | cons c cs => rw [find?, if_pos h]

theorem places_pos (tag before after : List Char) : 0 < places tag (before ++ (tag ++ after)) := by
  unfold places
  rw [List.countP_pos_iff]
  refine ⟨tag ++ after, ?_, ?_⟩
  · rw [List.mem_tails]
    exact List.suffix_append before (tag ++ after)
  · rw [List.isPrefixOf_iff_prefix]
    exact List.prefix_append tag after

/-- A tag that stands at one place is found there. -/
theorem find?_of_places {tag before after : List Char}
    (h : places tag (before ++ (tag ++ after)) = 1) :
    find? tag (before ++ (tag ++ after)) = some (tag ++ after) := by
  induction before with
  | nil =>
    apply find?_of_isPrefixOf
    rw [List.isPrefixOf_iff_prefix]
    exact List.prefix_append tag after
  | cons c before ih =>
    rw [List.cons_append, places_cons] at h
    have hpos := places_pos tag before after
    -- A place here would be a second one.
    have hnot : ¬ tag.isPrefixOf (c :: (before ++ (tag ++ after))) = true := by
      intro hhere
      rw [if_pos hhere] at h
      omega
    rw [if_neg hnot] at h
    rw [List.cons_append, find?, if_neg hnot]
    exact ih h

theorem isSome_find?_iff (tag text : List Char) :
    (find? tag text).isSome = true ↔ tag <:+: text := by
  induction text with
  | nil => cases tag <;> simp [find?]
  | cons c cs ih =>
    rw [find?, List.infix_cons_iff, ← List.isPrefixOf_iff_prefix]
    by_cases h : tag.isPrefixOf (c :: cs) = true
    · simp [h]
    · simp only [h, Bool.false_eq_true, if_false, false_or]
      exact ih

/-! ## Fields -/

/-- A field as it stands in a text: `tag=(kind)value`, with spaces around the value. -/
structure Field where
  /-- What stands before the tag. -/
  indent : List Char := []
  kind : List Char
  left : List Char := []
  value : List Char
  right : List Char := []

namespace Field

/-- The value with the spaces around it. -/
def spaced (f : Field) : List Char := f.left ++ f.value ++ f.right

/-- The text of the field with this tag. -/
def text (tag : String) (f : Field) : List Char :=
  f.indent ++ (tag.toList ++ (['=', '('] ++ f.kind ++ [')'] ++ f.spaced))

/-- The kind and the value do not hold what ends them, and around the value there are blanks. -/
structure Plain (f : Field) : Prop where
  kind : ')' ∉ f.kind
  value : ',' ∉ f.value
  left : ∀ c ∈ f.left, Text.isBlank c = true
  right : ∀ c ∈ f.right, Text.isBlank c = true

theorem Plain.not_mem_spaced {f : Field} (h : f.Plain) : ',' ∉ f.spaced := by
  have hcomma : Text.isBlank ',' = false := by decide
  unfold spaced
  simp only [List.mem_append, not_or]
  refine ⟨⟨fun hmem => ?_, h.value⟩, fun hmem => ?_⟩
  · have hblank := h.left ',' hmem
    rw [hcomma] at hblank
    cases hblank
  · have hblank := h.right ',' hmem
    rw [hcomma] at hblank
    cases hblank

end Field

/-- A part of a joined text stands in it up to the end or to a comma. -/
theorem exists_intercalate_eq {parts : List (List Char)} {part : List Char} (h : part ∈ parts) :
    ∃ before after, [','].intercalate parts = before ++ (part ++ after) ∧ after.head?.all (· = ',') := by
  induction parts with
  | nil => cases h
  | cons first rest ih =>
    cases rest with
    | nil =>
      rw [List.mem_singleton] at h
      exact ⟨[], [], by simp [h], rfl⟩
    | cons second rest =>
      rw [List.intercalate_cons_cons]
      rcases List.mem_cons.1 h with rfl | h
      · exact ⟨[], [','] ++ [','].intercalate (second :: rest), by simp, rfl⟩
      · obtain ⟨before, after, htext, hafter⟩ := ih h
        exact ⟨first ++ [','] ++ before, after, by simp [htext], hafter⟩

theorem dropWhile_close {front : List Char} (h : ')' ∉ front) (rest : List Char) :
    (front ++ ')' :: rest).dropWhile (fun c => c != ')') = ')' :: rest := by
  rw [List.dropWhile_append_of_pos]
  · rfl
  · intro c hc
    rw [bne_iff_ne]
    rintro rfl
    exact h hc

theorem takeWhile_comma {value after : List Char} (hvalue : ',' ∉ value)
    (hafter : after.head?.all (· = ',')) :
    (value ++ after).takeWhile (fun c => c != ',') = value := by
  rw [List.takeWhile_append_of_pos]
  · cases after with
    | nil => simp
    | cons c after =>
      have hcomma : c = ',' := by simpa using hafter
      simp [hcomma]
  · intro c hc
    rw [bne_iff_ne]
    rintro rfl
    exact hvalue hc

/-- The value of a field that stands in a text is found if its tag stands nowhere else. -/
theorem value?_of_places {tag : String} {parts : List (List Char)} {f : Field}
    (htag : ')' ∉ tag.toList) (hplain : f.Plain) (hmem : f.text tag ∈ parts)
    (honce : places tag.toList ([','].intercalate parts) = 1) :
    value? tag ([','].intercalate parts) = some f.spaced := by
  obtain ⟨before, after, htext, hafter⟩ := exists_intercalate_eq hmem
  have hplace : [','].intercalate parts = (before ++ f.indent) ++
      (tag.toList ++ (['=', '('] ++ f.kind ++ ')' :: (f.spaced ++ after))) := by
    simp [htext, Field.text]
  rw [hplace] at honce ⊢
  have hfront : ')' ∉ tag.toList ++ (['=', '('] ++ f.kind) := by
    simp [htag, hplain.kind]
  have hclose := dropWhile_close hfront (f.spaced ++ after)
  simp only [List.append_assoc] at hclose
  rw [value?, find?_of_places honce]
  dsimp only
  rw [List.append_assoc, hclose]
  exact congrArg some (takeWhile_comma hplain.not_mem_spaced hafter)

/-! ## Values -/

/-- The decimal numerals of `n`, with zeros in front or not. -/
structure IsNumeral (cs : List Char) (n : Nat) : Prop where
  ne_nil : cs ≠ []
  digits : ∀ c ∈ cs, c.isDigit = true
  value : Nat.ofDigitChars 10 cs 0 = n

theorem isBlank_of_isDigit {c : Char} (h : c.isDigit = true) : Text.isBlank c = false := by
  rw [Char.isDigit_iff_toNat] at h
  have hlow : 48 ≤ c.toNat := h.1
  have hhigh : c.toNat ≤ 57 := h.2
  simp only [Text.isBlank, Bool.or_eq_false_iff, Bool.and_eq_false_iff, decide_eq_false_iff_not,
    beq_eq_false_iff_ne]
  omega

theorem le_ofDigitChars (cs : List Char) (n : Nat) : n ≤ Nat.ofDigitChars 10 cs n := by
  induction cs generalizing n with
  | nil => rw [Nat.ofDigitChars_nil]
  | cons c cs ih =>
    rw [Nat.ofDigitChars_cons]
    have hrest := ih (10 * n + (c.toNat - '0'.toNat))
    omega

theorem foldlM_appendDigit {cs : List Char} {n : Nat} (hdigits : ∀ c ∈ cs, c.isDigit = true)
    (hsmall : Nat.ofDigitChars 10 cs n < 4294967296) :
    cs.foldlM appendDigit n = some (Nat.ofDigitChars 10 cs n) := by
  induction cs generalizing n with
  | nil => rfl
  | cons c cs ih =>
    rw [Nat.ofDigitChars_cons] at hsmall ⊢
    have hle := le_ofDigitChars cs (10 * n + (c.toNat - '0'.toNat))
    have hstep : appendDigit n c = some (10 * n + (c.toNat - '0'.toNat)) := by
      have hc := hdigits c List.mem_cons_self
      have hlt : 10 * n + (c.toNat - 48) < 4294967296 := Nat.lt_of_le_of_lt hle hsmall
      simp [appendDigit, hc, hlt]
    rw [List.foldlM_cons, hstep]
    exact ih (fun c hc => hdigits c (List.mem_cons_of_mem _ hc)) hsmall

theorem word?_of_isNumeral {cs : List Char} {w : UInt32} (h : IsNumeral cs w.toNat) :
    word? cs = some w := by
  have hdecimal : decimal? cs = some w.toNat := by
    have hempty : cs.isEmpty = false := by simp [h.ne_nil]
    have hsmall : Nat.ofDigitChars 10 cs 0 < 4294967296 := by
      rw [h.value]
      exact w.toNat_lt
    rw [decimal?, hempty, if_neg Bool.false_ne_true, foldlM_appendDigit h.digits hsmall, h.value]
  have hsign : word? cs = (decimal? cs).map UInt32.ofNat := by
    unfold word?
    split
    · next rest =>
      have hplus : ('+').isDigit = true := h.digits '+' List.mem_cons_self
      exact absurd hplus (by decide)
    · rfl
  rw [hsign, hdecimal, Option.map_some, UInt32.ofNat_toNat]

theorem dropWhile_blank {blank cs : List Char} (hblank : ∀ c ∈ blank, Text.isBlank c = true)
    (hcs : ∀ c ∈ cs.head?, Text.isBlank c = false) :
    (blank ++ cs).dropWhile Text.isBlank = cs := by
  rw [List.dropWhile_append_of_pos hblank]
  cases cs with
  | nil => rfl
  | cons c cs =>
    rw [List.dropWhile_cons, hcs c rfl]
    rfl

/-- The blanks around a value without blanks are taken off. -/
theorem trim_spaced {f : Field} (hplain : f.Plain) (hne : f.value ≠ [])
    (hvalue : ∀ c ∈ f.value, Text.isBlank c = false) : Text.trim f.spaced = f.value := by
  have hleft : f.spaced.dropWhile Text.isBlank = f.value ++ f.right := by
    rw [Field.spaced, List.append_assoc]
    apply dropWhile_blank hplain.left
    intro c hc
    rw [List.head?_append_of_ne_nil _ hne] at hc
    exact hvalue c (List.mem_of_mem_head? hc)
  have hright : (f.value ++ f.right).reverse.dropWhile Text.isBlank = f.value.reverse := by
    rw [List.reverse_append]
    apply dropWhile_blank
    · intro c hc
      exact hplain.right c (List.mem_reverse.1 hc)
    · intro c hc
      exact hvalue c (List.mem_reverse.1 (List.mem_of_mem_head? hc))
  rw [Text.trim, hleft, hright, List.reverse_reverse]

/-- A width or height is read from its numeral, whatever blanks are around that. -/
theorem dimension_of_isNumeral {f : Field} {w : UInt32} (hplain : f.Plain)
    (h : IsNumeral f.value w.toNat) : dimension f.spaced = w := by
  have htrim := trim_spaced hplain h.ne_nil fun c hc => isBlank_of_isDigit (h.digits c hc)
  rw [dimension, htrim, word?_of_isNumeral h]
  rfl

/-- A text without blanks does not begin in blanks. -/
theorem infix_blank_append_iff {cs blank rest : List Char} (hne : cs ≠ [])
    (hcs : ∀ c ∈ cs, Text.isBlank c = false) (hblank : ∀ c ∈ blank, Text.isBlank c = true) :
    cs <:+: blank ++ rest ↔ cs <:+: rest := by
  have hapart : ∀ c ∈ cs, c ∉ blank := by
    intro c hc hmem
    have hboth := hblank c hmem
    rw [hcs c hc] at hboth
    cases hboth
  rw [List.infix_append_iff]
  constructor
  · rintro (hin | hin | ⟨front, back, rfl, hfront, hback⟩)
    · obtain ⟨c, hc⟩ := List.exists_mem_of_ne_nil cs hne
      exact absurd (hin.subset hc) (hapart c hc)
    · exact hin
    · have hnil : front = [] := by
        rw [List.eq_nil_iff_forall_not_mem]
        intro c hc
        exact hapart c (List.mem_append_left back hc) (hfront.subset hc)
      subst hnil
      exact hback.isInfix
  · intro hin
    exact .inr (.inl hin)

/-- What has no blanks stands in a value with blanks around it exactly if it stands in the value. -/
theorem infix_spaced_iff {f : Field} {cs : List Char} (hplain : f.Plain) (hne : cs ≠ [])
    (hcs : ∀ c ∈ cs, Text.isBlank c = false) : cs <:+: f.spaced ↔ cs <:+: f.value := by
  rw [Field.spaced, List.append_assoc, infix_blank_append_iff hne hcs hplain.left,
    ← List.reverse_infix, List.reverse_append, infix_blank_append_iff, List.reverse_infix]
  · simpa using hne
  · intro c hc
    exact hcs c (List.mem_reverse.1 hc)
  · intro c hc
    exact hplain.right c (List.mem_reverse.1 hc)

/-- The media type that a value names, whatever blanks are around it. -/
theorem classify_spaced {f : Field} (hplain : f.Plain) : classify f.spaced =
    if "video".toList <:+: f.value then .video
    else if "audio".toList <:+: f.value then .audio
    else .unknown := by
  have hvideo : "video".toList <:+: f.spaced ↔ "video".toList <:+: f.value :=
    infix_spaced_iff hplain (by decide) (by simp [Text.isBlank])
  have haudio : "audio".toList <:+: f.spaced ↔ "audio".toList <:+: f.value :=
    infix_spaced_iff hplain (by decide) (by simp [Text.isBlank])
  rw [← isSome_find?_iff] at hvideo haudio
  simp only [classify, hvideo, haudio]

end Caps

namespace CapsParser

open Caps

/-- A text that is the first one and not empty is read. -/
theorem parse_empty {caps : String} (h : caps.toList ≠ []) : empty.parse caps =
    { empty.read caps with lastDigest := some (Digest.ofText caps) } := by
  have hempty : caps.isEmpty = false := by
    rw [Bool.eq_false_iff, Ne, String.isEmpty_iff]
    rintro rfl
    exact h rfl
  rw [parse, hempty]
  rfl

/-- **The media properties are read off the fields, wherever they stand.** In a text of parts that
are joined by commas, let one part be the field for the width, one that for the height and one that
for the media type, in any order and among any others, and let each of the three tags stand at one
place of the text. If the kinds hold no closing parenthesis, the values no comma, and width and
height are decimal numerals below 2^32, with blanks around the values or not, then the text comes to
the size and the type video for a value that has `video` in it, and to no size for any other: to the
type audio if the value has `audio` in it, and to an unknown one if not. -/
theorem parse_fields {parts : List (List Char)} {w h m : Field} {width height : UInt32}
    (hw : w.text widthTag ∈ parts) (hh : h.text heightTag ∈ parts) (hm : m.text mediaTag ∈ parts)
    (hplain : ∀ f ∈ [w, h, m], f.Plain)
    (hwidth : IsNumeral w.value width.toNat) (hheight : IsNumeral h.value height.toNat)
    (honce : ∀ tag ∈ [widthTag, heightTag, mediaTag],
      places tag.toList ([','].intercalate parts) = 1) :
    (empty.parse (String.ofList ([','].intercalate parts))).mediaProperties =
      if "video".toList <:+: m.value then ⟨height, width, .video⟩
      else if "audio".toList <:+: m.value then ⟨0, 0, .audio⟩
      else ⟨0, 0, .unknown⟩ := by
  have hwplain := hplain w (by simp)
  have hhplain := hplain h (by simp)
  have hmplain := hplain m (by simp)
  have hwvalue := value?_of_places (by decide) hwplain hw (honce _ (by simp))
  have hhvalue := value?_of_places (by decide) hhplain hh (honce _ (by simp))
  have hmvalue := value?_of_places (by decide) hmplain hm (honce _ (by simp))
  have hne : (String.ofList ([','].intercalate parts)).toList ≠ [] := by
    rw [String.toList_ofList]
    intro hnil
    rw [hnil] at hwvalue
    cases hwvalue
  rw [parse_empty hne]
  simp only [mediaProperties, read, String.toList_ofList, hwvalue, hhvalue, hmvalue,
    classify_spaced hmplain, Option.map_some, Option.getD_some,
    dimension_of_isNumeral hwplain hwidth, dimension_of_isNumeral hhplain hheight]
  by_cases hvideo : "video".toList <:+: m.value
  · simp only [if_pos hvideo]
    rfl
  · simp only [if_neg hvideo]
    by_cases haudio : "audio".toList <:+: m.value
    · simp only [if_pos haudio]
      rfl
    · simp only [if_neg haudio]
      rfl

/-- The fields in another order, with blanks of several kinds, and with a part that has a
parenthesis beside them. -/
theorem parse_fields_shuffled :
    (empty.parse ("a (b)),original-media-type=(string) an audio/video mix,, height=(int)\t01080," ++
      "level=(string)4,width=(u(nt) 1920 ")).mediaProperties = ⟨1080, 1920, .video⟩ := by
  let w : Field := { kind := "u(nt".toList, left := [' '], value := "1920".toList, right := [' '] }
  let h : Field :=
    { indent := [' '], kind := "int".toList, left := ['\t'], value := "01080".toList }
  let m : Field :=
    { kind := "string".toList, left := [' '], value := "an audio/video mix".toList }
  let parts := ["a (b))".toList, m.text mediaTag, [], h.text heightTag, "level=(string)4".toList,
    w.text widthTag]
  have htext : String.ofList ([','].intercalate parts) = "a (b)),original-media-type=(string) " ++
    "an audio/video mix,, height=(int)\t01080,level=(string)4,width=(u(nt) 1920 " := by decide
  have hplain : ∀ f ∈ [w, h, m], f.Plain := by
    simp only [List.forall_mem_cons]
    refine ⟨?_, ?_, ?_, by simp⟩ <;>
      exact ⟨by decide, by decide, List.all_eq_true.1 (by decide), List.all_eq_true.1 (by decide)⟩
  have hw : w.text widthTag ∈ parts := by simp [parts]
  have hh : h.text heightTag ∈ parts := by simp [parts]
  have hm : m.text mediaTag ∈ parts := by simp [parts]
  have hwidth : IsNumeral w.value (1920 : UInt32).toNat :=
    ⟨by decide, List.all_eq_true.1 (by decide), by decide⟩
  have hheight : IsNumeral h.value (1080 : UInt32).toNat :=
    ⟨by decide, List.all_eq_true.1 (by decide), by decide⟩
  have hproperties := parse_fields hw hh hm hplain hwidth hheight (by decide +kernel)
  rw [htext, if_pos (by decide)] at hproperties
  exact hproperties

end CapsParser

end ContentDecryption
