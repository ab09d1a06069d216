/-!
# Byte strings

Samples, keys, key IDs, licenses and the contents of shared memory are all
lists of bytes. This module holds what the wire formats need of them: words in
both byte orders, a field of fixed width, and hexadecimal text.

Main statements:

* `Bytes.toWord_ofWord`, `Bytes.exists_ofWordBE`, `Bytes.exists_ofHalfBE`: reading a
  word back gives the word that was written;
* `Bytes.length_fit`: a field has its width, whatever it is filled with;
* `Bytes.split?_eq_some_iff`, `Bytes.split?_eq_none_iff`: what is cut in two is what is put
  together again, and cutting fails exactly where there is too little;
* `Bytes.length_overwrite`: writing in place never changes a length.
-/

namespace ContentDecryption

/-- A string of bytes. -/
abbrev Bytes := List UInt8

namespace Bytes

/-- `n` zero bytes. -/
def zeros (n : Nat) : Bytes := List.replicate n 0

/-- A field of exactly `n` bytes: the start of `b`, filled up with zeros. -/
def fit (n : Nat) (b : Bytes) : Bytes :=
  let start := b.take n
  start ++ zeros (n - start.length)

/-- `b` with the bytes from `start` on replaced by `new`, as far as `b` reaches. -/
def overwrite (b : Bytes) (start : Nat) (new : Bytes) : Bytes :=
  b.take start ++ new.take (b.length - start) ++ b.drop (start + new.length)

/-- The first `n` bytes of `b` and those after them, if `b` has that many. -/
def split? (b : Bytes) (n : Nat) : Option (Bytes × Bytes) :=
  let start := b.take n
  if start.length = n then some (start, b.drop n) else none

/-! ## Words -/

/-- Four bytes, lowest first. -/
def ofWord (w : UInt32) : Bytes :=
  let n := w.toNat
  [UInt8.ofNat n, UInt8.ofNat (n / 256), UInt8.ofNat (n / 65536), UInt8.ofNat (n / 16777216)]

/-- The word whose four bytes, lowest first, start `b`; bytes that are missing count as zero. -/
def toWord (b : Bytes) : UInt32 :=
  UInt32.ofNat ((b.getD 0 0).toNat + 256 * (b.getD 1 0).toNat + 65536 * (b.getD 2 0).toNat
    + 16777216 * (b.getD 3 0).toNat)

/-- Four bytes, highest first. -/
def ofWordBE (w : UInt32) : Bytes :=
  let n := w.toNat
  [UInt8.ofNat (n / 16777216), UInt8.ofNat (n / 65536), UInt8.ofNat (n / 256), UInt8.ofNat n]

/-- The word with these four bytes, highest first. -/
def toWordBE (a b c d : UInt8) : UInt32 :=
  UInt32.ofNat (16777216 * a.toNat + 65536 * b.toNat + 256 * c.toNat + d.toNat)

/-- Two bytes, highest first. -/
def ofHalfBE (h : UInt16) : Bytes := [UInt8.ofNat (h.toNat / 256), UInt8.ofNat h.toNat]

/-- The half word with these two bytes, highest first. -/
def toHalfBE (a b : UInt8) : UInt16 := UInt16.ofNat (256 * a.toNat + b.toNat)

/-- Eight bytes, highest first. -/
def ofLongBE (w : UInt64) : Bytes :=
  ofWordBE (UInt32.ofNat (w.toNat / 4294967296)) ++ ofWordBE (UInt32.ofNat w.toNat)

/-! ## Hexadecimal text -/

/-- The lower-case hexadecimal digit of `n % 16`. -/
def hexDigit (n : Nat) : Char :=
  let d := n % 16
  if d < 10 then Char.ofNat (48 + d) else Char.ofNat (87 + d)

/-- Two lower-case digits a byte. -/
def hexChars (b : Bytes) : List Char :=
  b.flatMap fun x => [hexDigit (x.toNat / 16), hexDigit x.toNat]

/-- Two lower-case digits a byte. -/
def hex (b : Bytes) : String := String.ofList (hexChars b)

/-- The UTF-8 form of a text. -/
def ofText (s : String) : Bytes := s.toUTF8.toList

/-! ## Laws -/

@[simp] theorem length_zeros (n : Nat) : (zeros n).length = n := List.length_replicate

@[simp] theorem length_fit (n : Nat) (b : Bytes) : (fit n b).length = n := by
  rw [fit, List.length_append, length_zeros, List.length_take]
  omega

theorem fit_length (b : Bytes) : fit b.length b = b := by simp [fit, zeros]

@[simp] theorem length_overwrite (b : Bytes) (start : Nat) (new : Bytes) :
    (overwrite b start new).length = b.length := by
  simp [overwrite]; omega

theorem split?_eq_some_iff {b start rest : Bytes} {n : Nat} :
    b.split? n = some (start, rest) ↔ b = start ++ rest ∧ start.length = n := by
  simp only [split?, List.length_take]
  constructor
  · intro h
    split at h
    · next hn =>
      cases h
      exact ⟨(List.take_append_drop n b).symm, by rw [List.length_take, hn]⟩
    · cases h
  · rintro ⟨rfl, rfl⟩
    simp

theorem split?_eq_none_iff {b : Bytes} {n : Nat} : b.split? n = none ↔ b.length < n := by
  simp only [split?, List.length_take]
  split
  · exact iff_of_false (fun h => nomatch h) (by omega)
  · exact iff_of_true rfl (by omega)

@[simp] theorem length_ofWord (w : UInt32) : (ofWord w).length = 4 := rfl

theorem toWord_ofWord_append (w : UInt32) (rest : Bytes) : toWord (ofWord w ++ rest) = w := by
  have h := w.toNat_lt
  apply UInt32.toNat_inj.mp
  simp only [toWord, ofWord, List.cons_append, List.nil_append, List.getD_cons_zero,
    List.getD_cons_succ, UInt32.toNat_ofNat', UInt8.toNat_ofNat']
  omega

@[simp] theorem toWord_ofWord (w : UInt32) : toWord (ofWord w) = w := by
  simpa using toWord_ofWord_append w []

theorem exists_ofWordBE (w : UInt32) :
    ∃ a b c d, ofWordBE w = [a, b, c, d] ∧ toWordBE a b c d = w := by
  refine ⟨_, _, _, _, rfl, ?_⟩
  have h := w.toNat_lt
  apply UInt32.toNat_inj.mp
  simp only [toWordBE, UInt32.toNat_ofNat', UInt8.toNat_ofNat']
  omega

theorem exists_ofHalfBE (h : UInt16) : ∃ a b, ofHalfBE h = [a, b] ∧ toHalfBE a b = h := by
  refine ⟨_, _, rfl, ?_⟩
  have := h.toNat_lt
  apply UInt16.toNat_inj.mp
  simp only [toHalfBE, UInt16.toNat_ofNat', UInt8.toNat_ofNat']
  omega

end Bytes

end ContentDecryption
