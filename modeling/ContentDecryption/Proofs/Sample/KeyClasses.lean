import ContentDecryption.Loopback.Cipher
import ContentDecryption.Client.KeyLedger
import Mathlib.Data.Set.Card
import Mathlib.Data.Setoid.Partition

/-!
# Key IDs that name one key

Tables of keys are searched for the first entry whose ID names the key that is asked for. The
test swaps the byte order of one side alone, and no search looks for a second entry. That such a
table answers for keys, and not for spellings, rests on the test being an equivalence.

Main definitions:

* `KeyId.sameKey`: key IDs up to the byte order of GUIDs;
* `KeyId.place?`: the place of the entry that a search comes to.

Main results:

* `KeyId.agrees_iff_guid`: the test, as a comparison and a second one of GUIDs alone;
* `KeyId.place?_eq_some_iff`: the IDs that are found where another is found are its spellings;
* `KeyLedger.find?_eq_place?`, `Loopback.findKey?_eq_place?`: the two tables answer from that place;
* `KeyId.partition_by_key`: all of this together.
-/

namespace ContentDecryption

namespace KeyId

/-! ## The test -/

/-- The first three groups of a GUID are turned around, the rest stays. -/
theorem swapped_guid (a0 a1 a2 a3 b0 b1 c0 c1 d0 d1 d2 d3 d4 d5 d6 d7 : UInt8) :
    swapped [a0, a1, a2, a3, b0, b1, c0, c1, d0, d1, d2, d3, d4, d5, d6, d7] =
      [a3, a2, a1, a0, b1, b0, c1, c0, d0, d1, d2, d3, d4, d5, d6, d7] := rfl

/-- The IDs are equal, or both are GUIDs and the first is the second once it is swapped. -/
theorem agrees_iff_guid (a b : KeyId) : a.agrees b = true ↔
    a = b ∨ (a.length = guidLength ∧ b.length = guidLength ∧ swapped a = b) := by
  rw [agrees_iff]
  constructor
  · rintro (rfl | rfl)
    · exact .inl rfl
    · by_cases hlength : b.length = guidLength
      · refine .inr ⟨?_, hlength, swapped_swapped b⟩
        rw [length_swapped]
        exact hlength
      · exact .inl (swapped_of_length_ne hlength)
  · rintro (rfl | ⟨-, -, rfl⟩)
    · exact .inl rfl
    · exact .inr (swapped_swapped a).symm

theorem agrees_trans {a b c : KeyId} (hab : a.agrees b = true) (hbc : b.agrees c = true) :
    a.agrees c = true := by
  rw [agrees_congr hab]
  exact hbc

theorem equivalence_agrees : Equivalence fun a b : KeyId => a.agrees b = true where
  refl := agrees_self
  symm := by
    intro a b hab
    rw [agrees_comm]
    exact hab
  trans := agrees_trans

/-! ## Classes -/

/-- Key IDs up to the byte order of GUIDs. -/
def sameKey : Setoid KeyId := ⟨fun a b => a.agrees b = true, equivalence_agrees⟩

/-- The IDs that name the same key as `a` are its two spellings. -/
theorem setOf_agrees (a : KeyId) : {b : KeyId | a.agrees b = true} = {a, swapped a} := by
  ext b
  show a.agrees b = true ↔ b = a ∨ b = swapped a
  rw [agrees_comm, agrees_iff]

theorem eq_spellings_of_mem_classes {s : Set KeyId} (h : s ∈ sameKey.classes) :
    ∃ a : KeyId, s = {a, swapped a} := by
  obtain ⟨a, rfl⟩ := h
  refine ⟨a, ?_⟩
  rw [← setOf_agrees]
  ext b
  exact ⟨sameKey.symm, sameKey.symm⟩

theorem encard_le_two_of_mem_classes {s : Set KeyId} (h : s ∈ sameKey.classes) :
    s.encard ≤ 2 := by
  obtain ⟨a, rfl⟩ := eq_spellings_of_mem_classes h
  have hinsert := Set.encard_insert_le {swapped a} a
  rw [Set.encard_singleton] at hinsert
  exact hinsert

/-! ## Tables -/

section Place

variable {α : Type}

/-- The place of the entry that a search under an ID comes to, the first one for the key. -/
def place? (table : List (KeyId × α)) (id : KeyId) : Option Nat :=
  table.findIdx? fun entry => entry.1.agrees id

/-- What a search under an ID comes to. -/
theorem find?_eq_place? (table : List (KeyId × α)) (id : KeyId) :
    table.find? (fun entry => entry.1.agrees id) = (place? table id).bind fun j => table[j]? :=
  List.find?_eq_bind_findIdx?_getElem? ..

theorem place?_congr (table : List (KeyId × α)) {a b : KeyId} (h : a.agrees b = true) :
    place? table a = place? table b := by
  have htest (entry : KeyId × α) : entry.1.agrees a = entry.1.agrees b := by
    rw [agrees_comm, agrees_congr h, agrees_comm]
  unfold place?
  simp only [htest]

theorem agrees_of_place? {table : List (KeyId × α)} {a b : KeyId} {j : Nat}
    (ha : place? table a = some j) (hb : place? table b = some j) : a.agrees b = true := by
  obtain ⟨_, hentry, -⟩ := List.findIdx?_eq_some_iff_getElem.1 ha
  obtain ⟨_, hother, -⟩ := List.findIdx?_eq_some_iff_getElem.1 hb
  rw [agrees_comm] at hentry
  exact agrees_trans hentry hother

/-- An ID is found where another was found exactly if it names the same key. -/
theorem place?_eq_some_iff {table : List (KeyId × α)} {a : KeyId} {j : Nat}
    (h : place? table a = some j) (b : KeyId) :
    place? table b = some j ↔ b = a ∨ b = swapped a := by
  rw [← agrees_iff]
  constructor
  · intro hb
    exact agrees_of_place? hb h
  · intro hb
    rw [place?_congr table hb]
    exact h

end Place

end KeyId

/-- A ledger answers with the status at the place that the search comes to. -/
theorem KeyLedger.find?_eq_place? (l : KeyLedger) (id : KeyId) :
    l.find? id = ((KeyId.place? l id).bind fun j => l[j]?).map Prod.snd := by
  rw [← KeyId.find?_eq_place?]
  rfl

/-- An engine decrypts with the key at the place that the search comes to. -/
theorem Loopback.findKey?_eq_place? (keys : List (KeyId × Bytes)) (id : KeyId) :
    findKey? keys id = ((KeyId.place? keys id).bind fun j => keys[j]?).map Prod.snd := by
  rw [← KeyId.find?_eq_place?]
  rfl

namespace KeyId

/-- **Key IDs are divided into keys, and tables of keys respect that.**

* The test is the comparison of the two IDs, or of two GUIDs the first of which is swapped.
* It is an equivalence.
* Swapping turns the first three groups of a GUID around and leaves any other ID alone. Swapping
  twice changes nothing, and swapping keeps the length.
* The IDs that name the key of `a` are `a` and its swapped form, so the keys are a partition of all
  IDs into classes of at most two.
* In every table the IDs that are found where `a` is found are `a` and its swapped form. Both
  tables, the statuses of a client and the keys of an engine, answer from that place, and a report
  is found under the IDs of its key and changes nothing under another.
-/
theorem partition_by_key :
    (∀ a b : KeyId, a.agrees b = true ↔
      a = b ∨ (a.length = guidLength ∧ b.length = guidLength ∧ swapped a = b)) ∧
    (∀ a : KeyId, a.agrees a = true) ∧
    (∀ a b : KeyId, a.agrees b = true ↔ b.agrees a = true) ∧
    (∀ a b c : KeyId, a.agrees b = true → b.agrees c = true → a.agrees c = true) ∧
    (∀ a0 a1 a2 a3 b0 b1 c0 c1 d0 d1 d2 d3 d4 d5 d6 d7 : UInt8,
      swapped [a0, a1, a2, a3, b0, b1, c0, c1, d0, d1, d2, d3, d4, d5, d6, d7] =
        [a3, a2, a1, a0, b1, b0, c1, c0, d0, d1, d2, d3, d4, d5, d6, d7]) ∧
    (∀ a : KeyId, swapped (swapped a) = a ∧ (swapped a).length = a.length ∧
      (a.length ≠ guidLength → swapped a = a)) ∧
    (∀ a : KeyId, {b : KeyId | a.agrees b = true} = {a, swapped a}) ∧
    Setoid.IsPartition sameKey.classes ∧ (∀ s ∈ sameKey.classes, s.encard ≤ 2) ∧
    (∀ {α : Type} (table : List (KeyId × α)) (a : KeyId) (j : Nat), place? table a = some j →
      {b : KeyId | place? table b = some j} = {a, swapped a}) ∧
    (∀ (l : KeyLedger) (id : KeyId),
      l.find? id = ((place? l id).bind fun j => l[j]?).map Prod.snd) ∧
    (∀ (keys : List (KeyId × Bytes)) (id : KeyId),
      Loopback.findKey? keys id = ((place? keys id).bind fun j => keys[j]?).map Prod.snd) ∧
    ∀ (l : KeyLedger) (id : KeyId) (status : KeyStatus) (k : KeyId),
      (l.report id status).find? k = if id.agrees k then some status else l.find? k := by
  refine ⟨agrees_iff_guid, agrees_self, ?_, fun a b c => agrees_trans, swapped_guid, ?_,
    setOf_agrees, Setoid.isPartition_classes sameKey, fun s => encard_le_two_of_mem_classes, ?_,
    KeyLedger.find?_eq_place?, Loopback.findKey?_eq_place?, KeyLedger.find?_report_eq⟩
  · intro a b
    rw [agrees_comm]
  · intro a
    exact ⟨swapped_swapped a, length_swapped a, swapped_of_length_ne⟩
  · intro α table a j h
    ext b
    exact place?_eq_some_iff h b

/-- Of a table with two entries for one GUID, both spellings find the first, and no other ID does.
An ID of another length has only one spelling. -/
theorem partition_by_key_respelt :
    let guid : KeyId := [0, 1, 2, 3, 4, 5, 6, 7, 8, 9, 10, 11, 12, 13, 14, 15]
    let table : List (KeyId × Bytes) := [([7], [1]), (swapped guid, [2]), (guid, [3])]
    {b : KeyId | place? table b = some 1} = {guid, swapped guid} ∧ swapped [7] = [7] ∧
      guid.agrees guid = true := by
  intro guid table
  obtain ⟨-, -, hsymm, htrans, -, hswapped, -, -, -, hplace, -⟩ := partition_by_key
  have hother : guid.agrees (swapped guid) = true := by decide
  refine ⟨hplace table guid 1 (by decide), (hswapped [7]).2.2 (by decide), ?_⟩
  exact htrans guid (swapped guid) guid hother ((hsymm guid (swapped guid)).1 hother)

end KeyId

end ContentDecryption
