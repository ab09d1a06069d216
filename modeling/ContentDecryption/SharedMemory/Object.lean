import ContentDecryption.SharedMemory.Extent

/-!
# Shared memory objects

An object of shared memory has a fixed size and starts out as zeros. What has been written
is stored as extents, and all else is zero, so a large object costs no more than
the bytes written to it.

Reads and writes stay inside the object: what lies past its end is neither read nor
written.

Main statements:

* `SharedObject.length_read`: a read gives the bytes asked for, as far as the object reaches;
* `SharedObject.size_write`: a write never changes the size;
* `SharedObject.getD_read`: a read gives the bytes that are there;
* `SharedObject.byte_write`: a write changes the bytes it is given and no others.
-/

namespace ContentDecryption

/-- The contents of one object. -/
structure SharedObject where
  size : Nat
  /-- What reaches up to the last byte ever written. -/
  stored : List Extent := []
  deriving Repr, DecidableEq

namespace SharedObject

/-- The byte at an offset inside the object. -/
def byte (o : SharedObject) (i : Nat) : UInt8 := (Extent.contents o.stored).getD i 0

/-- Up to `length` bytes from `start` on. -/
def read (o : SharedObject) (start length : Nat) : Bytes :=
  let reach := min length (o.size - start)
  Extent.contents (Extent.fitList reach (Extent.dropList start o.stored))

/-- Writes `new` from `start` on, as far as the object reaches. -/
def write (o : SharedObject) (start : Nat) (new : Bytes) : SharedObject :=
  if start < o.size then
    let kept := new.take (o.size - start)
    let rest := Extent.dropList (start + kept.length) o.stored
    { o with stored := Extent.fitList start o.stored ++ Extent.data kept :: rest }
  else o

/-- The word at an offset. -/
def word (o : SharedObject) (start : Nat) : UInt32 := Bytes.toWord (o.read start 4)

/-- Writes a word. -/
def writeWord (o : SharedObject) (start : Nat) (w : UInt32) : SharedObject :=
  o.write start (Bytes.ofWord w)

/-! ## Laws -/

@[simp] theorem length_read (o : SharedObject) (start length : Nat) :
    (o.read start length).length = min length (o.size - start) := by
  simp [read, Extent.contents_fitList]

@[simp] theorem size_write (o : SharedObject) (start : Nat) (new : Bytes) :
    (o.write start new).size = o.size := by
  unfold write
  split <;> rfl

@[simp] theorem size_writeWord (o : SharedObject) (start : Nat) (w : UInt32) :
    (o.writeWord start w).size = o.size := size_write ..

theorem getD_fit {n i : Nat} (b : Bytes) (h : i < n) : (Bytes.fit n b).getD i 0 = b.getD i 0 := by
  simp only [Bytes.fit, Bytes.zeros, List.getD_eq_getElem?_getD]
  by_cases hb : i < b.length
  · rw [List.getElem?_append_left (by simp; omega), List.getElem?_take, if_pos h]
  · rw [List.getElem?_append_right (by simp; omega)]
    simp only [List.getElem?_replicate]
    rw [List.getElem?_eq_none (by omega : b.length ≤ i)]
    split <;> rfl

theorem getD_read (o : SharedObject) {start length i : Nat} (h : i < length)
    (hs : start + i < o.size) : (o.read start length).getD i 0 = o.byte (start + i) := by
  unfold read byte
  rw [Extent.contents_fitList, getD_fit _ (by omega), Extent.contents_dropList]
  simp only [List.getD_eq_getElem?_getD, List.getElem?_drop]

/-- What is stored after a write, byte by byte. -/
theorem contents_write (o : SharedObject) {start : Nat} (new : Bytes) (h : start < o.size) :
    Extent.contents (o.write start new).stored =
      Bytes.fit start (Extent.contents o.stored) ++ new.take (o.size - start) ++
        (Extent.contents o.stored).drop (start + (new.take (o.size - start)).length) := by
  unfold write
  rw [if_pos h]
  simp [Extent.contents_fitList, Extent.contents_dropList, Extent.toBytes]

theorem byte_write (o : SharedObject) (start : Nat) (new : Bytes) (i : Nat) :
    (o.write start new).byte i =
      if start ≤ i ∧ i < start + new.length ∧ i < o.size then new.getD (i - start) 0
      else o.byte i := by
  unfold byte
  by_cases hs : start < o.size
  · rw [contents_write o new hs, List.append_assoc]
    generalize Extent.contents o.stored = stored
    by_cases h1 : i < start
    · rw [if_neg (by omega)]
      rw [← getD_fit stored h1, List.getD_eq_getElem?_getD, List.getD_eq_getElem?_getD,
        List.getElem?_append_left (by simpa using h1)]
    · rw [List.getD_eq_getElem?_getD, List.getElem?_append_right (by simp; omega),
        Bytes.length_fit]
      by_cases h2 : i < start + new.length ∧ i < o.size
      · rw [if_pos ⟨by omega, h2⟩, List.getElem?_append_left (by simp; omega), List.getElem?_take,
          if_pos (by omega), ← List.getD_eq_getElem?_getD]
      · rw [if_neg (by omega), List.getElem?_append_right (by simp; omega), List.getElem?_drop,
          ← List.getD_eq_getElem?_getD]
        congr 1
        simp
        omega
  · unfold write
    rw [if_neg hs, if_neg (by omega)]

end SharedObject

end ContentDecryption
