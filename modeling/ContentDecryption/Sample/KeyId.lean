import ContentDecryption.Bytes

/-!
# Key IDs

A key ID of sixteen bytes is a GUID, and the same GUID is written in two byte
orders: with its first three groups highest byte first, or lowest byte first. Two
key IDs name the same key when they are equal or one is the other in the second
order.

Main statements:

* `KeyId.length_swapped`: swapping keeps the length;
* `KeyId.swapped_swapped`: swapping twice changes nothing;
* `KeyId.agrees_iff`, `KeyId.agrees_comm`, `KeyId.agrees_congr`: what it means to name the same
  key, and that this is an equivalence;
* `KeyId.agrees_swapped`: the byte order of an ID does not matter.
-/

namespace ContentDecryption

/-- The name of a content key (`KeyId`). -/
abbrev KeyId := Bytes

namespace KeyId

/-- The length of a GUID (`GUID_LENGTH`). -/
def guidLength : Nat := 16

/-- The same GUID in the other byte order (`swapped_guid`). IDs of another length have only one
order. -/
def swapped (id : KeyId) : KeyId :=
  if id.length = guidLength then
    (id.take 4).reverse ++ ((id.drop 4).take 2).reverse ++ ((id.drop 6).take 2).reverse ++ id.drop 8
  else id

/-- Whether `id` is one of two spellings of a key ID. -/
def isEither (first second : Bytes) (id : KeyId) : Bool := id == first || id == second

/-- Whether `id` and `other` name the same key (`matches`). -/
def agrees (id : KeyId) (other : Bytes) : Bool := isEither other (swapped other) id

/-- Hexadecimal digits in groups of 8, 4, 4, 4 and 12. -/
def groupedHex (b : Bytes) : String :=
  let h := Bytes.hexChars b
  String.ofList (h.take 8 ++ ['-'] ++ (h.drop 8).take 4 ++ ['-'] ++ (h.drop 12).take 4 ++ ['-']
    ++ (h.drop 16).take 4 ++ ['-'] ++ h.drop 20)

/-- How a key ID is shown: a GUID in groups, any other in plain digits. -/
def text (id : KeyId) : String :=
  if id.length = guidLength then groupedHex id else Bytes.hex id

/-- How a key ID is shown among other values. -/
def debugText (id : KeyId) : String := "KeyId(" ++ text id ++ ")"

@[simp] theorem length_swapped (id : KeyId) : (swapped id).length = id.length := by
  unfold swapped guidLength
  split
  · simp; omega
  · rfl

theorem swapped_of_length_ne {id : KeyId} (h : id.length ≠ guidLength) : swapped id = id :=
  if_neg h

theorem swapped_swapped (id : KeyId) : swapped (swapped id) = id := by
  by_cases h : id.length = guidLength
  · match id, h with
    | [_, _, _, _, _, _, _, _, _, _, _, _, _, _, _, _], _ => rfl
  · rw [swapped_of_length_ne h, swapped_of_length_ne h]

theorem agrees_iff {id other : KeyId} :
    id.agrees other = true ↔ id = other ∨ id = swapped other := by
  simp [agrees, isEither]

theorem agrees_comm (id other : KeyId) : id.agrees other = other.agrees id := by
  rw [Bool.eq_iff_iff, agrees_iff, agrees_iff]
  constructor <;> rintro (h | h)
  · exact .inl h.symm
  · exact .inr (by rw [h, swapped_swapped])
  · exact .inl h.symm
  · exact .inr (by rw [h, swapped_swapped])

theorem agrees_self (id : KeyId) : id.agrees id = true := agrees_iff.2 (.inl rfl)

/-- The byte order of a key ID does not matter. -/
theorem agrees_swapped (id other : KeyId) : id.agrees (swapped other) = id.agrees other := by
  rw [Bool.eq_iff_iff, agrees_iff, agrees_iff, swapped_swapped, or_comm]

/-- Two key IDs that name the same key agree with the same key IDs. -/
theorem agrees_congr {id other : KeyId} (h : id.agrees other = true) (k : KeyId) :
    id.agrees k = other.agrees k := by
  rcases agrees_iff.1 h with rfl | rfl
  · rfl
  · rw [agrees_comm, agrees_swapped, agrees_comm]

end KeyId

end ContentDecryption
