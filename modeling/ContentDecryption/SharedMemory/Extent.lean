import ContentDecryption.Bytes

/-!
# Extents

A long string of bytes that is mostly zeros is kept as a list of extents: holes, which
only have a length, and data. Cutting such a list costs no more than its extents do, so
a hole is never spelled out.

Main statements, all through the bytes that the extents stand for:

* `Extent.contents_takeList`, `Extent.contents_dropList`: a list of extents is cut where its
  bytes are cut;
* `Extent.lengthOf_eq`: the length of a list of extents is the length of its bytes.
-/

namespace ContentDecryption

/-- A run of bytes: a number of zeros, or the bytes themselves. -/
inductive Extent where
  | hole (length : Nat)
  | data (bytes : Bytes)
  deriving Repr, DecidableEq

namespace Extent

/-- The bytes that an extent stands for. -/
def toBytes : Extent → Bytes
  | hole n => Bytes.zeros n
  | data b => b

/-- How many bytes an extent stands for. -/
def length : Extent → Nat
  | hole n => n
  | data b => b.length

/-- The first `n` bytes. -/
def take (n : Nat) : Extent → Extent
  | hole m => hole (min n m)
  | data b => data (b.take n)

/-- What follows the first `n` bytes. -/
def drop (n : Nat) : Extent → Extent
  | hole m => hole (m - n)
  | data b => data (b.drop n)

/-- The bytes that a list of extents stands for, one extent after the other. -/
def contents (extents : List Extent) : Bytes := extents.flatMap toBytes

/-- How many bytes a list of extents stands for. -/
def lengthOf (extents : List Extent) : Nat := extents.foldr (·.length + ·) 0

/-- The extents of the first `n` bytes. -/
def takeList : Nat → List Extent → List Extent
  | _, [] => []
  | n, e :: rest =>
    if n = 0 then []
    else if n < e.length then [e.take n]
    else e :: takeList (n - e.length) rest

/-- The extents of what follows the first `n` bytes. -/
def dropList : Nat → List Extent → List Extent
  | _, [] => []
  | n, e :: rest =>
    if n = 0 then e :: rest
    else if n < e.length then e.drop n :: rest
    else dropList (n - e.length) rest

/-- The extents of exactly `n` bytes: the first ones, and a hole where there are too few. -/
def fitList (n : Nat) (extents : List Extent) : List Extent :=
  let start := takeList n extents
  let missing := n - lengthOf start
  if missing = 0 then start else start ++ [hole missing]

/-! ## Laws -/

@[simp] theorem contents_nil : contents [] = [] := rfl

@[simp] theorem contents_cons (e : Extent) (rest : List Extent) :
    contents (e :: rest) = e.toBytes ++ contents rest := by
  simp [contents]

@[simp] theorem contents_append (l r : List Extent) :
    contents (l ++ r) = contents l ++ contents r := by
  simp [contents]

@[simp] theorem length_toBytes (e : Extent) : e.toBytes.length = e.length := by
  cases e <;> simp [toBytes, length]

@[simp] theorem toBytes_take (n : Nat) (e : Extent) : (e.take n).toBytes = e.toBytes.take n := by
  cases e <;> simp [take, toBytes, Bytes.zeros]

@[simp] theorem toBytes_drop (n : Nat) (e : Extent) : (e.drop n).toBytes = e.toBytes.drop n := by
  cases e <;> simp [drop, toBytes, Bytes.zeros]

theorem lengthOf_eq (extents : List Extent) : lengthOf extents = (contents extents).length := by
  induction extents with
  | nil => rfl
  | cons e rest ih => simpa [lengthOf] using ih

theorem contents_takeList (n : Nat) (extents : List Extent) :
    contents (takeList n extents) = (contents extents).take n := by
  fun_induction takeList n extents with
  | case1 => simp
  | case2 => simp_all
  | case3 n e rest _ h => simp [List.take_append_of_le_length, Nat.le_of_lt h]
  | case4 n e rest _ h ih => simp [ih, List.take_append, List.take_of_length_le, Nat.not_lt.mp h]

theorem contents_dropList (n : Nat) (extents : List Extent) :
    contents (dropList n extents) = (contents extents).drop n := by
  fun_induction dropList n extents with
  | case1 => simp
  | case2 => simp_all
  | case3 n e rest _ h => simp [List.drop_append_of_le_length, Nat.le_of_lt h]
  | case4 n e rest _ h ih => simp [ih, List.drop_append, List.drop_of_length_le, Nat.not_lt.mp h]

theorem contents_fitList (n : Nat) (extents : List Extent) :
    contents (fitList n extents) = Bytes.fit n (contents extents) := by
  simp only [fitList, lengthOf_eq, contents_takeList, Bytes.fit]
  split
  · next h => rw [h]; simp [contents_takeList, Bytes.zeros]
  · simp [contents_takeList, toBytes]

end Extent

end ContentDecryption
