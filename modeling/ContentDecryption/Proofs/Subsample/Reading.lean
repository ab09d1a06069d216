import ContentDecryption.Subsample.Map

/-!
# The entries of a packed map

A packed map is one entry after the other, and at the end what is too short for another
one. Every law about reading it follows this shape: it holds of a map that is too short
for an entry, and of a map with one more entry in front.

Main definitions:

* `entries`: the whole entries of a map, in order;
* `scan`: as many of the first entries as there are, and where reading them ends.

Main results:

* `map_induction`: induction on the entries of a map;
* `entries_encode`, `encode_take_entries`: packing and reading are inverse, up to what is left over;
* `scan_of_le`, `scan_of_lt`: what a scan reads are the first of the whole entries.
-/

namespace ContentDecryption

namespace Bytes

/-- The bytes of a half word that was read are those it was read from. -/
theorem ofHalfBE_toHalfBE (a b : UInt8) : ofHalfBE (toHalfBE a b) = [a, b] := by
  have ha := a.toNat_lt
  have hb := b.toNat_lt
  have hword : (toHalfBE a b).toNat = 256 * a.toNat + b.toNat := by
    rw [toHalfBE, UInt16.toNat_ofNat']
    omega
  simp only [ofHalfBE, hword, List.cons.injEq, and_true, ← UInt8.toNat_inj, UInt8.toNat_ofNat']
  omega

/-- The bytes of a word that was read are those it was read from. -/
theorem ofWordBE_toWordBE (a b c d : UInt8) : ofWordBE (toWordBE a b c d) = [a, b, c, d] := by
  have ha := a.toNat_lt
  have hb := b.toNat_lt
  have hc := c.toNat_lt
  have hd := d.toNat_lt
  have hword : (toWordBE a b c d).toNat =
      16777216 * a.toNat + 65536 * b.toNat + 256 * c.toNat + d.toNat := by
    rw [toWordBE, UInt32.toNat_ofNat']
    omega
  simp only [ofWordBE, hword, List.cons.injEq, and_true, ← UInt8.toNat_inj, UInt8.toNat_ofNat']
  omega

end Bytes

namespace Subsample

/-! ## The shape of a map -/

/-- Six bytes are an entry. -/
theorem exists_encodeEntry {m : Bytes} (h : entrySize ≤ m.length) :
    ∃ s rest, m = encodeEntry s ++ rest := by
  match m, h with
  | a :: b :: c :: d :: e :: f :: rest, _ =>
    refine ⟨⟨Bytes.toHalfBE a b, Bytes.toWordBE c d e f⟩, rest, ?_⟩
    rw [encodeEntry, Bytes.ofHalfBE_toHalfBE, Bytes.ofWordBE_toWordBE]
    rfl

/-- Induction on the entries of a map: it is too short for one, or it has one more in front. -/
theorem map_induction {P : Bytes → Prop} (short : ∀ m : Bytes, m.length < entrySize → P m)
    (cons : ∀ (s : SubSample) (rest : Bytes), P rest → P (encodeEntry s ++ rest)) (m : Bytes) :
    P m := by
  by_cases h : m.length < entrySize
  · exact short m h
  · obtain ⟨s, rest, rfl⟩ := exists_encodeEntry (Nat.le_of_not_lt h)
    exact cons s rest (map_induction short cons rest)
termination_by m.length
decreasing_by
  subst_vars
  rw [List.length_append, length_encodeEntry, entrySize]
  omega

/-- The whole entries of a map, in order. -/
def entries : Bytes → List SubSample
  | a :: b :: c :: d :: e :: f :: rest =>
    ⟨Bytes.toHalfBE a b, Bytes.toWordBE c d e f⟩ :: entries rest
  | _ => []

/-- What reading entries from the start of a map gives. -/
structure Scan where
  /-- The entries that were read. -/
  entries : List SubSample
  /-- Whether these are all that were asked for. -/
  complete : Bool
  /-- Where the cursor stands after the last read, be it whole or in half. -/
  stop : Nat
  deriving Repr, DecidableEq

/-- Reads `count` entries from the start of a map, or as many as it has. -/
def scan : Nat → Bytes → Scan
  | 0, _ => ⟨[], true, 0⟩
  | count + 1, a :: b :: c :: d :: e :: f :: rest =>
    let s := scan count rest
    ⟨⟨Bytes.toHalfBE a b, Bytes.toWordBE c d e f⟩ :: s.entries, s.complete, entrySize + s.stop⟩
  | _ + 1, _ :: _ :: _ => ⟨[], false, 2⟩
  | _ + 1, _ => ⟨[], false, 0⟩

section

variable (s : SubSample) (rest : Bytes)

theorem encode_cons (l : List SubSample) : encode (s :: l) = encodeEntry s ++ encode l := rfl

theorem entries_encodeEntry : entries (encodeEntry s ++ rest) = s :: entries rest := by
  obtain ⟨a, b, hab, hs⟩ := Bytes.exists_ofHalfBE s.clearBytes
  obtain ⟨c, d, e, f, hcf, hw⟩ := Bytes.exists_ofWordBE s.encryptedBytes
  rw [encodeEntry, hab, hcf]
  simp only [List.cons_append, List.nil_append, entries, hs, hw]

theorem scan_encodeEntry (count : Nat) :
    scan (count + 1) (encodeEntry s ++ rest) =
      ⟨s :: (scan count rest).entries, (scan count rest).complete,
        entrySize + (scan count rest).stop⟩ := by
  obtain ⟨a, b, hab, hs⟩ := Bytes.exists_ofHalfBE s.clearBytes
  obtain ⟨c, d, e, f, hcf, hw⟩ := Bytes.exists_ofWordBE s.encryptedBytes
  rw [encodeEntry, hab, hcf]
  simp only [List.cons_append, List.nil_append, scan, hs, hw]

end

section

variable {m : Bytes} (h : m.length < entrySize)

include h

theorem entries_of_short : entries m = [] := by
  unfold entries
  split
  · simp only [List.length_cons, entrySize] at h
    omega
  · rfl

theorem scan_of_short (count : Nat) :
    scan (count + 1) m = ⟨[], false, if m.length < 2 then 0 else 2⟩ := by
  unfold entrySize at h
  match m, h with
  | [], _ | [_], _ | [_, _], _ | [_, _, _], _ | [_, _, _, _], _ | [_, _, _, _, _], _ => rfl
  | _ :: _ :: _ :: _ :: _ :: _ :: _, h =>
    simp only [List.length_cons] at h
    omega

theorem front_of_short : front m = (none, if m.length < 2 then 0 else 2) := by
  unfold entrySize at h
  match m, h with
  | [], _ | [_], _ | [_, _], _ | [_, _, _], _ | [_, _, _, _], _ | [_, _, _, _, _], _ => rfl
  | _ :: _ :: _ :: _ :: _ :: _ :: _, h =>
    simp only [List.length_cons] at h
    omega

theorem Reader.next_of_short {r : Reader} (hr : r.map.drop r.pos = m) :
    r.next = (.error .invalidDecryptBuffer,
      { r with pos := r.pos + if m.length < 2 then 0 else 2 }) := by
  rw [next, hr, front_of_short h]

end

/-! ## Packing and reading -/

@[simp] theorem length_entries (m : Bytes) : (entries m).length = m.length / entrySize := by
  induction m using map_induction with
  | short m h => rw [entries_of_short h, Nat.div_eq_of_lt h, List.length_nil]
  | cons s rest ih =>
    rw [entries_encodeEntry, List.length_cons, ih, List.length_append, length_encodeEntry,
      Nat.add_div_left _ (by decide)]

/-- A map has room for as many whole entries as it has. -/
theorem le_length_entries_iff {m : Bytes} {count : Nat} :
    count ≤ (entries m).length ↔ entrySize * count ≤ m.length := by
  rw [length_entries, Nat.le_div_iff_mul_le (by decide), Nat.mul_comm]

theorem entries_encode (l : List SubSample) : entries (encode l) = l := by
  induction l with
  | nil => rfl
  | cons s l ih => rw [encode_cons, entries_encodeEntry, ih]

/-- Packing the first entries again gives the bytes that they were read from. -/
theorem encode_take_entries {m : Bytes} {count : Nat} (h : entrySize * count ≤ m.length) :
    encode ((entries m).take count) = m.take (entrySize * count) := by
  induction m using map_induction generalizing count with
  | short m hm =>
    obtain rfl : count = 0 := by
      unfold entrySize at *
      omega
    rfl
  | cons s rest ih =>
    cases count with
    | zero => rfl
    | succ count =>
      rw [List.length_append, length_encodeEntry, Nat.mul_succ] at h
      rw [entries_encodeEntry, List.take_succ_cons, encode_cons, ih (by omega), Nat.mul_succ,
        Nat.add_comm, ← length_encodeEntry s, List.take_length_add_append]

/-! ## What a scan reads -/

/-- A scan that finds all entries it is asked for. -/
theorem scan_of_le {m : Bytes} {count : Nat} (h : count ≤ (entries m).length) :
    scan count m = ⟨(entries m).take count, true, entrySize * count⟩ := by
  induction m using map_induction generalizing count with
  | short m hm =>
    rw [entries_of_short hm] at h ⊢
    obtain rfl := Nat.le_zero.1 h
    rfl
  | cons s rest ih =>
    rw [entries_encodeEntry] at h ⊢
    cases count with
    | zero => rfl
    | succ count =>
      rw [scan_encodeEntry, ih (Nat.le_of_succ_le_succ h), List.take_succ_cons, Nat.mul_succ,
        Nat.add_comm]

theorem scan_encode (runs : List SubSample) (rest : Bytes) :
    scan runs.length (encode runs ++ rest) = ⟨runs, true, entrySize * runs.length⟩ := by
  induction runs with
  | nil => rfl
  | cons s runs ih =>
    rw [encode_cons, List.append_assoc, List.length_cons, scan_encodeEntry, ih, Nat.mul_succ,
      Nat.add_comm]

/-- A scan that is asked for more entries than there are. -/
theorem scan_of_lt {m : Bytes} {count : Nat} (h : (entries m).length < count) :
    (scan count m).entries = entries m ∧ (scan count m).complete = false := by
  induction m using map_induction generalizing count with
  | short m hm =>
    obtain ⟨count, rfl⟩ := Nat.exists_eq_succ_of_ne_zero (Nat.ne_zero_of_lt h)
    rw [scan_of_short hm, entries_of_short hm]
    exact ⟨rfl, rfl⟩
  | cons s rest ih =>
    rw [entries_encodeEntry] at h ⊢
    obtain ⟨count, rfl⟩ := Nat.exists_eq_succ_of_ne_zero (Nat.ne_zero_of_lt h)
    obtain ⟨hentries, hcomplete⟩ := ih (Nat.lt_of_succ_lt_succ h)
    rw [scan_encodeEntry]
    exact ⟨congrArg (s :: ·) hentries, hcomplete⟩

end Subsample

end ContentDecryption
