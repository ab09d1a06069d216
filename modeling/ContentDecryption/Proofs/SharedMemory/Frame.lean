import ContentDecryption.SharedMemory.Object
import Mathlib.Data.List.GetD

/-!
# Reads after writes

What a read of a shared memory object gives after a write to it. A write shows in the
bytes it covers and nowhere else, so a read elsewhere gives what it gave before.

Main results:

* `SharedObject.read_write_self`, `SharedObject.word_writeWord_self`: what was written is read
  back;
* `SharedObject.read_write_of_disjoint`, `SharedObject.word_write_of_disjoint`: a read outside the
  bytes written is not changed by the write;
* `SharedObject.read_write_start`: a read that starts where a write starts gives the bytes before
  the write, overwritten;
* `SharedObject.read_new`, `SharedObject.word_new`: a new object holds zeros.
-/

namespace ContentDecryption

/-- What does not fit is not written. -/
theorem Bytes.overwrite_take (b new : Bytes) :
    overwrite b 0 (new.take b.length) = overwrite b 0 new := by
  unfold overwrite
  rw [Nat.sub_zero, List.take_take, Nat.min_self, List.length_take, Nat.zero_add, Nat.zero_add]
  congr 1
  by_cases h : new.length ≤ b.length
  · rw [Nat.min_eq_right h]
  · rw [List.drop_of_length_le (by omega), List.drop_of_length_le (by omega)]

namespace SharedObject

/-- The bytes of a read are those of the object. -/
theorem getElem_read (o : SharedObject) {start length k : Nat}
    (h : k < (o.read start length).length) : (o.read start length)[k] = o.byte (start + k) := by
  have hlength := length_read o start length
  rw [← getD_read o (show k < length by omega) (by omega), List.getD_eq_getElem _ _ h]

/-- A read depends on the bytes it covers alone. -/
theorem read_congr {o o' : SharedObject} {start length : Nat} (hsize : o.size = o'.size)
    (hbyte : ∀ k, start ≤ k → k < start + length → o.byte k = o'.byte k) :
    o.read start length = o'.read start length := by
  apply List.ext_getElem
  · rw [length_read, length_read, hsize]
  · intro k hk hk'
    rw [getElem_read o hk, getElem_read o' hk']
    rw [length_read] at hk
    exact hbyte (start + k) (by omega) (by omega)

theorem read_write_of_disjoint (o : SharedObject) {start length offset : Nat} {new : Bytes}
    (h : start + length ≤ offset ∨ offset + new.length ≤ start) :
    (o.write offset new).read start length = o.read start length := by
  apply read_congr (size_write o offset new)
  intro k h1 h2
  rw [byte_write, if_neg (by omega)]

theorem word_write_of_disjoint (o : SharedObject) {start offset : Nat} {new : Bytes}
    (h : start + 4 ≤ offset ∨ offset + new.length ≤ start) :
    (o.write offset new).word start = o.word start := by
  unfold word
  rw [read_write_of_disjoint o h]

/-- What a write leaves of a longer run of bytes: the new ones, then the rest of the old. -/
theorem read_write_start (o : SharedObject) {start length : Nat} {new : Bytes}
    (hnew : new.length ≤ length) (hsize : start + length ≤ o.size) :
    (o.write start new).read start length = Bytes.overwrite (o.read start length) 0 new := by
  apply List.ext_getElem
  · rw [length_read, Bytes.length_overwrite, length_read, size_write]
  · intro k hk hk'
    rw [length_read, size_write] at hk
    have htake : new.take ((o.read start length).length - 0) = new := by
      rw [length_read]
      exact List.take_of_length_le (by omega)
    rw [getElem_read, byte_write]
    simp only [Bytes.overwrite, List.take_zero, List.nil_append, htake, Nat.zero_add]
    by_cases hlt : k < new.length
    · rw [if_pos ⟨by omega, by omega, by omega⟩, List.getElem_append_left hlt,
        List.getD_eq_getElem _ _ (by omega)]
      congr 1
      omega
    · rw [if_neg (by omega), List.getElem_append_right (by omega), List.getElem_drop, getElem_read]
      congr 1
      omega

/-- To read as many bytes as there are is to read them all. -/
theorem read_length_read (o : SharedObject) (start length : Nat) :
    o.read start (o.read start length).length = o.read start length := by
  rw [length_read, read, read]
  have hreach : min (min length (o.size - start)) (o.size - start) =
      min length (o.size - start) := by omega
  rw [hreach]

theorem read_write_self (o : SharedObject) {start : Nat} {new : Bytes}
    (h : start + new.length ≤ o.size) : (o.write start new).read start new.length = new := by
  rw [read_write_start o (Nat.le_refl _) h, Bytes.overwrite, length_read]
  simp only [List.take_zero, List.nil_append, Nat.zero_add]
  rw [List.drop_of_length_le (by rw [length_read]; omega), List.append_nil]
  exact List.take_of_length_le (by omega)

theorem word_writeWord_self (o : SharedObject) {start : Nat} {w : UInt32}
    (h : start + 4 ≤ o.size) : (o.writeWord start w).word start = w := by
  have hread :
      (o.write start (Bytes.ofWord w)).read start (Bytes.ofWord w).length = Bytes.ofWord w :=
    read_write_self o (by rw [Bytes.length_ofWord]; exact h)
  rw [Bytes.length_ofWord] at hread
  unfold word writeWord
  rw [hread, Bytes.toWord_ofWord]

/-! ## New objects -/

theorem read_new (size start length : Nat) :
    (⟨size, []⟩ : SharedObject).read start length = Bytes.zeros (min length (size - start)) := by
  unfold read
  rw [Extent.contents_fitList, Extent.contents_dropList, Extent.contents_nil, List.drop_nil]
  simp only [Bytes.fit, List.take_nil, List.nil_append, List.length_nil, Nat.sub_zero]

theorem word_new (size start : Nat) : (⟨size, []⟩ : SharedObject).word start = 0 := by
  have hzero (n k : Nat) : (Bytes.zeros n).getD k 0 = 0 := by
    unfold Bytes.zeros
    rw [List.getD_eq_getElem?_getD, List.getElem?_replicate]
    split <;> rfl
  unfold word
  rw [read_new, Bytes.toWord]
  simp only [hzero]
  rfl

end SharedObject

end ContentDecryption
