import ContentDecryption.Client.Playback
import ContentDecryption.Proofs.Client.Exec
import Mathlib.Data.List.Chain
import Mathlib.Data.List.Induction

/-!
# What a sequence of capability texts comes to

A stream is described again and again, mostly in the words of the last time. A parser skips a text
with the digest of the one before it, and otherwise takes the media type from the text if that
carries one, but the size in any case. Skipping is right because a text that is read twice in a row
comes to what it came to at first.

Digests are taken to tell apart texts that follow on one another. Empty texts do not count here:
they have no digest, and the texts around one follow on one another.

Main definitions:

* `Caps.spoken`: the texts that say something;
* `CapsParser.reparse`: a parser that reads a text whatever the one before it was;
* `CapsParser.ofTexts`: what texts come to, in terms of the last of them.

Main results:

* `CapsParser.read_read`: reading a text twice is reading it once;
* `CapsParser.foldl_reparse`, `CapsParser.foldl_parse_of_chain`: with and without skipping, texts
  come to what they come to;
* `CapsParser.foldl_parse`: the state after any texts;
* `Client.mediaPropertiesFromCaps_foldl`: a session has one parser for all the texts that it is given.
-/

namespace ContentDecryption

namespace Caps

/-- The texts that say something. -/
def spoken (texts : List String) : List String := texts.filter fun t => !t.isEmpty

/-- The media type of the last text that carries one. -/
def mediaTypeOf (texts : List String) : MediaType :=
  (((spoken texts).filterMap fun t => value? mediaTag t.toList).getLast?.map classify).getD .unknown

/-- The width or height in the last text. There is none unless the texts come to video. -/
def dimensionOf (tag : String) (texts : List String) : UInt32 :=
  if mediaTypeOf texts = .video then
    (((spoken texts).getLast?.bind fun t => value? tag t.toList).map dimension).getD 0
  else 0

theorem spoken_concat_of_empty {t : String} (h : t.isEmpty = true) (texts : List String) :
    spoken (texts ++ [t]) = spoken texts := by
  simp [spoken, h]

theorem spoken_concat {t : String} (h : t.isEmpty = false) (texts : List String) :
    spoken (texts ++ [t]) = spoken texts ++ [t] := by
  simp [spoken, h]

theorem spoken_spoken (texts : List String) : spoken (spoken texts) = spoken texts := by
  simp [spoken]

theorem mediaTypeOf_concat {t : String} (h : t.isEmpty = false) (texts : List String) :
    mediaTypeOf (texts ++ [t]) = match value? mediaTag t.toList with
      | some value => classify value
      | none => mediaTypeOf texts := by
  unfold mediaTypeOf
  rw [spoken_concat h, List.filterMap_append]
  cases hvalue : value? mediaTag t.toList with
  | none => simp [hvalue]
  | some value => simp [hvalue]

theorem dimensionOf_concat {t : String} (h : t.isEmpty = false) (tag : String) (texts : List String) :
    dimensionOf tag (texts ++ [t]) = if mediaTypeOf (texts ++ [t]) = .video then
      ((value? tag t.toList).map dimension).getD 0 else 0 := by
  rw [dimensionOf, spoken_concat h, List.getLast?_concat]
  rfl

end Caps

namespace CapsParser

open Caps

/-- Takes in the next text, also if it has the digest of the last. -/
def reparse (p : CapsParser) (caps : String) : CapsParser :=
  if caps.isEmpty then p
  else { p.read caps with lastDigest := some (Digest.ofText caps) }

/-- What texts come to. -/
def ofTexts (texts : List String) : CapsParser where
  lastDigest := (spoken texts).getLast?.map Digest.ofText
  mediaType := mediaTypeOf texts
  width := dimensionOf widthTag texts
  height := dimensionOf heightTag texts

/-! ## One text more -/

/-- The media type that a text leaves is the one that it starts from when it comes again. -/
theorem read_read (p : CapsParser) (caps : String) : (p.read caps).read caps = p.read caps := by
  cases h : value? mediaTag caps.toList with
  | none => simp only [read, h]
  | some value => simp only [read, h]

theorem ofTexts_congr {texts others : List String} (h : spoken texts = spoken others) :
    ofTexts texts = ofTexts others := by
  unfold ofTexts dimensionOf mediaTypeOf
  rw [h]

theorem ofTexts_concat_of_empty {t : String} (h : t.isEmpty = true) (texts : List String) :
    ofTexts (texts ++ [t]) = ofTexts texts :=
  ofTexts_congr (spoken_concat_of_empty h texts)

theorem ofTexts_concat {t : String} (h : t.isEmpty = false) (texts : List String) :
    ofTexts (texts ++ [t]) =
      { (ofTexts texts).read t with lastDigest := some (Digest.ofText t) } := by
  simp only [ofTexts, dimensionOf_concat h, mediaTypeOf_concat h, spoken_concat h, List.getLast?_concat,
    Option.map_some, read]
  cases value? mediaTag t.toList <;> rfl

/-- The last text changes nothing when it comes again. -/
theorem ofTexts_again {t : String} {texts : List String} (h : (spoken texts).getLast? = some t) :
    ofTexts (texts ++ [t]) = ofTexts texts := by
  obtain ⟨before, hspoken⟩ := List.getLast?_eq_some_iff.1 h
  have ht : t.isEmpty = false := by
    have hmem : t ∈ spoken texts := List.mem_of_getLast? h
    simpa [spoken] using (List.mem_filter.1 hmem).2
  have hlast : ofTexts texts =
      { (ofTexts before).read t with lastDigest := some (Digest.ofText t) } := by
    rw [← ofTexts_concat ht, ← hspoken]
    exact ofTexts_congr (spoken_spoken texts).symm
  calc ofTexts (texts ++ [t])
      = { (ofTexts texts).read t with lastDigest := some (Digest.ofText t) } := ofTexts_concat ht texts
    _ = { ((ofTexts before).read t).read t with lastDigest := some (Digest.ofText t) } := by
        rw [hlast]
        rfl
    _ = ofTexts texts := by rw [read_read, hlast]

/-! ## All texts -/

/-- Without skipping, texts come to what the last of them say. -/
theorem foldl_reparse (texts : List String) : texts.foldl reparse empty = ofTexts texts := by
  induction texts using List.reverseRecOn with
  | nil => rfl
  | append_singleton texts t ih =>
    rw [List.foldl_append, ih, List.foldl_cons, List.foldl_nil, reparse]
    by_cases h : t.isEmpty = true
    · rw [if_pos h, ofTexts_concat_of_empty h]
    · rw [if_neg h, ofTexts_concat (Bool.eq_false_iff.2 h)]

theorem parse_of_empty {caps : String} (h : caps.isEmpty = true) (p : CapsParser) :
    p.parse caps = p := if_pos h

/-- Skipping is right if a text with the digest of the last one is that text. -/
theorem parse_ofTexts {texts : List String} {t : String} (ht : t.isEmpty = false)
    (hdigest : ∀ last ∈ (spoken texts).getLast?, Digest.ofText last = Digest.ofText t → last = t) :
    (ofTexts texts).parse t = ofTexts (texts ++ [t]) := by
  rw [parse, ht]
  by_cases hsame : (ofTexts texts).lastDigest = some (Digest.ofText t)
  · obtain ⟨last, hlast, heq⟩ := Option.map_eq_some_iff.1 hsame
    have hagain := hdigest last hlast heq
    subst hagain
    exact (if_pos hsame).trans (ofTexts_again hlast).symm
  · exact (if_neg hsame).trans (ofTexts_concat ht texts).symm

/-- With skipping, too, if texts that follow on one another have digests of their own. -/
theorem foldl_parse_of_chain {texts : List String}
    (h : (spoken texts).IsChain fun s t => Digest.ofText s = Digest.ofText t → s = t) :
    texts.foldl parse empty = ofTexts texts := by
  induction texts using List.reverseRecOn with
  | nil => rfl
  | append_singleton texts t ih =>
    rw [List.foldl_append, List.foldl_cons, List.foldl_nil]
    by_cases ht : t.isEmpty = true
    · rw [spoken_concat_of_empty ht] at h
      rw [ih h, parse_of_empty ht, ofTexts_concat_of_empty ht]
    · rw [Bool.not_eq_true] at ht
      rw [spoken_concat ht] at h
      obtain ⟨hbefore, -, hlast⟩ := List.isChain_append.1 h
      rw [ih hbefore]
      exact parse_ofTexts ht fun last hmem => hlast last hmem t rfl

theorem foldl_parse_spoken (texts : List String) (p : CapsParser) :
    (spoken texts).foldl parse p = texts.foldl parse p := by
  rw [spoken, List.foldl_filter]
  congr 1
  funext p t
  by_cases ht : t.isEmpty = true
  · simp [ht, parse_of_empty]
  · simp [ht]

/-- **Skipping cannot be seen, and the last texts count.** For every sequence of texts, if no two of
them that differ and follow on one another, but for empty ones, have the same digest:

* a new parser comes to the state of one that reads every text that is not empty;
* its media type is that of the last text that carries one, and unknown if none does;
* its width and height are those in the last text if the media type is video, and zero if not.

Empty texts change nothing, in any state. -/
theorem foldl_parse {texts : List String}
    (hdigest : (spoken texts).IsChain fun s t => Digest.ofText s = Digest.ofText t → s = t) :
    let p := texts.foldl parse empty
    p = texts.foldl reparse empty ∧
    p.mediaType = (((spoken texts).filterMap fun t => value? mediaTag t.toList).getLast?.map
      classify).getD .unknown ∧
    (p.mediaType = .video →
      p.width = (((spoken texts).getLast?.bind fun t => value? widthTag t.toList).map
        dimension).getD 0 ∧
      p.height = (((spoken texts).getLast?.bind fun t => value? heightTag t.toList).map
        dimension).getD 0) ∧
    (p.mediaType ≠ .video → p.width = 0 ∧ p.height = 0) ∧
    ∀ q : CapsParser, texts.foldl parse q = (spoken texts).foldl parse q := by
  intro p
  have hp : p = ofTexts texts := foldl_parse_of_chain hdigest
  refine ⟨hp.trans (foldl_reparse texts).symm, ?_, ?_, ?_, fun q => (foldl_parse_spoken texts q).symm⟩
  · rw [hp]
    rfl
  · rw [hp]
    intro hvideo
    exact ⟨if_pos hvideo, if_pos hvideo⟩
  · rw [hp]
    intro hvideo
    exact ⟨if_neg hvideo, if_neg hvideo⟩

/-- A text that comes again at once, and once more after an empty one, is skipped; one without a
media type keeps that of the text before it, and loses the height. -/
theorem foldl_parse_repeated :
    let texts :=
      ["width=()1,height=()2,original-media-type=()video", "", "width=()3", "", "width=()3"]
    let p := texts.foldl parse empty
    p.mediaType = .video ∧ p.width = 3 ∧ p.height = 0 := by
  intro texts p
  have hdigest : (spoken texts).IsChain fun s t => Digest.ofText s = Digest.ofText t → s = t := by
    decide +kernel
  obtain ⟨-, htype, hsize, -⟩ := foldl_parse hdigest
  have hvideo : p.mediaType = .video := htype.trans (by decide +kernel)
  obtain ⟨hwidth, hheight⟩ := hsize hvideo
  exact ⟨hvideo, hwidth.trans (by decide +kernel), hheight.trans (by decide +kernel)⟩

end CapsParser

/-! ## Sessions -/

namespace Client

/-- A session has one parser for all the texts that it is given, and answers each with what they
come to so far. -/
theorem mediaPropertiesFromCaps_foldl {σ : Type} {w : World σ} {i : SessionRef} {s : Session}
    (h : w.sessions[i]? = some s) (texts : List String) (t : String) :
    let after := texts.foldl (fun w t => ((Action.mediaPropertiesFromCaps i t).exec w).2) w
    ((Action.mediaPropertiesFromCaps i t).exec after).1 =
      .ok ((texts ++ [t]).foldl CapsParser.parse s.caps).mediaProperties := by
  intro after
  have hafter : after.sessions[i]? = some { s with caps := texts.foldl CapsParser.parse s.caps } := by
    induction texts using List.reverseRecOn with
    | nil => exact h
    | append_singleton texts t ih =>
      simp only [after, List.foldl_append, List.foldl_cons, List.foldl_nil]
      show (List.modify _ _ _)[i]? = _
      rw [List.getElem?_modify_eq, ih]
      rfl
  have hanswer : ((after.setSession i fun s => { s with caps := s.caps.parse t }).session i).caps =
      (texts.foldl CapsParser.parse s.caps).parse t := by
    rw [World.session, World.setSession, List.getD_eq_getElem?_getD, List.getElem?_modify_eq, hafter]
    rfl
  rw [List.foldl_append]
  exact congrArg (fun p : CapsParser => Except.ok p.mediaProperties) hanswer

end Client

end ContentDecryption
