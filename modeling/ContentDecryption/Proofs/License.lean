import ContentDecryption.License

/-!
# The license format

A license is read record by record, and a field may break off at any byte. What is read
is exactly what follows the grammar, and writing it again gives the same bytes: there is
one way only to spell a list of records.

A length byte counts to 255. Longer fields can be written, but what is written is then
something else.

Main definitions:

* `License.Fits`: a record that can be written;
* `License.IsLicense`: the grammar.

Main results:

* `License.field?_eq_some_iff`: what is read as a field;
* `License.decode?_eq_some_iff`: what is read as a license;
* `License.decode?_encode_iff`, `License.isSome_decode?_iff`: which lists survive being written,
  and which bytes are read.
-/

namespace ContentDecryption

namespace License

/-- Whether the length bytes of a record can hold its lengths. There is no empty key. -/
def Fits (r : KeyRecord) : Prop := r.1.length ≤ 255 ∧ 1 ≤ r.2.length ∧ r.2.length ≤ 255

/-- The grammar: any number of records, each `n` and `n` bytes, then `m` and `m` bytes, where `m` is
at least one. -/
inductive IsLicense : Bytes → Prop
  | nil : IsLicense []
  | record {n m : UInt8} {id key rest : Bytes} (idLength : id.length = n.toNat)
      (keyLength : key.length = m.toNat) (keyed : 1 ≤ m.toNat) (further : IsLicense rest) :
      IsLicense (n :: (id ++ (m :: (key ++ rest))))

/-! ## Fields -/

/-- A field is read where one was written whose length its length byte can hold. -/
theorem field?_eq_some_iff {b f rest : Bytes} :
    field? b = some (f, rest) ↔ b = encodeField f ++ rest ∧ f.length ≤ 255 := by
  constructor
  · intro h
    cases b with
    | nil => cases h
    | cons n tail =>
      obtain ⟨rfl, hlength⟩ := Bytes.split?_eq_some_iff.1 h
      have hn := n.toNat_lt
      refine ⟨?_, by omega⟩
      rw [encodeField, hlength, UInt8.ofNat_toNat, List.cons_append]
  · rintro ⟨rfl, hlength⟩
    refine Bytes.split?_eq_some_iff.2 ⟨rfl, ?_⟩
    rw [UInt8.toNat_ofNat']
    omega

/-! ## Licenses -/

/-- A license begins with the bytes of its first record. -/
theorem encode_cons (r : KeyRecord) (records : List KeyRecord) :
    encode (r :: records) = UInt8.ofNat r.1.length ::
      (r.1 ++ UInt8.ofNat r.2.length :: (r.2 ++ encode records)) := by
  simp [encode, encodeRecord, encodeField]

@[simp] theorem decode?_nil : decode? [] = some [] := by
  rw [decode?]
  rfl

/-- Two fields are read, then the rest. -/
theorem decode?_of_ne_nil {b : Bytes} (h : b ≠ []) :
    decode? b = (field? b).bind fun first => (field? first.2).bind fun second =>
      if second.1.isEmpty then none
      else (decode? second.2).map fun records => (first.1, second.1) :: records := by
  rw [decode?, if_neg (by rwa [List.isEmpty_iff])]
  split
  · next hid => rw [hid, Option.bind_none]
  · next hid =>
    rw [hid, Option.bind_some]
    split
    · next hkey => rw [hkey, Option.bind_none]
    · next hkey => rw [hkey, Option.bind_some]

/-- The first record is read where one was written that fits, and the others are those of the
rest. -/
theorem decode?_eq_cons_iff {b : Bytes} {r : KeyRecord} {records : List KeyRecord} :
    decode? b = some (r :: records) ↔
      ∃ rest, b = encodeRecord r ++ rest ∧ Fits r ∧ decode? rest = some records := by
  constructor
  · intro h
    have hb : b ≠ [] := by
      rintro rfl
      rw [decode?_nil] at h
      cases h
    rw [decode?_of_ne_nil hb] at h
    obtain ⟨⟨id, afterId⟩, hid, h⟩ := Option.bind_eq_some_iff.1 h
    obtain ⟨⟨key, rest⟩, hkey, h⟩ := Option.bind_eq_some_iff.1 h
    dsimp only at hkey h
    split at h
    · cases h
    · next hempty =>
      obtain ⟨others, hothers, heq⟩ := Option.map_eq_some_iff.1 h
      cases heq
      obtain ⟨rfl, hidLength⟩ := field?_eq_some_iff.1 hid
      obtain ⟨rfl, hkeyLength⟩ := field?_eq_some_iff.1 hkey
      rw [List.isEmpty_iff] at hempty
      exact ⟨rest, (List.append_assoc ..).symm,
        ⟨hidLength, List.length_pos_iff.2 hempty, hkeyLength⟩, hothers⟩
  · rintro ⟨rest, rfl, ⟨hid, hkeyed, hkey⟩, hrest⟩
    have hfirst : field? (encodeRecord r ++ rest) = some (r.1, encodeField r.2 ++ rest) :=
      field?_eq_some_iff.2 ⟨List.append_assoc .., hid⟩
    have hsecond : field? (encodeField r.2 ++ rest) = some (r.2, rest) :=
      field?_eq_some_iff.2 ⟨rfl, hkey⟩
    have hkeyed : ¬ r.2.isEmpty = true := by
      rw [List.isEmpty_iff]
      exact List.length_pos_iff.1 hkeyed
    have hsome : encodeRecord r ++ rest ≠ [] := List.cons_ne_nil _ _
    rw [decode?_of_ne_nil hsome, hfirst, Option.bind_some, hsecond,
      Option.bind_some, if_neg hkeyed, hrest]
    rfl

/-- What is read is what was written, if the records fit. -/
theorem decode?_eq_some_iff {b : Bytes} {records : List KeyRecord} :
    decode? b = some records ↔ encode records = b ∧ ∀ r ∈ records, Fits r := by
  induction records generalizing b with
  | nil =>
    refine ⟨fun h => ⟨?_, fun r hr => nomatch hr⟩, ?_⟩
    · by_cases hb : b = []
      · exact hb.symm
      · rw [decode?_of_ne_nil hb] at h
        obtain ⟨first, -, h⟩ := Option.bind_eq_some_iff.1 h
        obtain ⟨second, -, h⟩ := Option.bind_eq_some_iff.1 h
        split at h
        · cases h
        · obtain ⟨others, -, h⟩ := Option.map_eq_some_iff.1 h
          cases h
    · rintro ⟨rfl, -⟩
      exact decode?_nil
  | cons r records ih =>
    rw [decode?_eq_cons_iff, List.forall_mem_cons]
    constructor
    · rintro ⟨rest, rfl, hr, hrest⟩
      obtain ⟨rfl, hrecords⟩ := ih.1 hrest
      exact ⟨List.flatMap_cons, hr, hrecords⟩
    · rintro ⟨rfl, hr, hrecords⟩
      exact ⟨encode records, List.flatMap_cons, hr, ih.2 ⟨rfl, hrecords⟩⟩

/-- A list is read back exactly if all of its records fit. -/
theorem decode?_encode_iff (records : List KeyRecord) :
    decode? (encode records) = some records ↔ ∀ r ∈ records, Fits r := by
  rw [decode?_eq_some_iff, and_iff_right rfl]

/-- What the grammar allows is what can be written. -/
theorem isLicense_iff {b : Bytes} :
    IsLicense b ↔ ∃ records, encode records = b ∧ ∀ r ∈ records, Fits r := by
  constructor
  · intro h
    induction h with
    | nil => exact ⟨[], rfl, fun r hr => nomatch hr⟩
    | @record n m id key rest hid hkey hkeyed _ ih =>
      obtain ⟨records, rfl, hrecords⟩ := ih
      have hn := n.toNat_lt
      have hm := m.toNat_lt
      refine ⟨(id, key) :: records, ?_, List.forall_mem_cons.2 ⟨⟨?_, ?_, ?_⟩, hrecords⟩⟩
      · rw [encode_cons, hid, hkey, UInt8.ofNat_toNat, UInt8.ofNat_toNat]
      all_goals
        dsimp only
        omega
  · rintro ⟨records, rfl, hrecords⟩
    induction records with
    | nil => exact .nil
    | cons r records ih =>
      obtain ⟨⟨hid, hkeyed, hkey⟩, hrest⟩ := List.forall_mem_cons.1 hrecords
      rw [encode_cons]
      refine .record ?_ ?_ ?_ (ih hrest)
      all_goals
        rw [UInt8.toNat_ofNat']
        omega

/-- A license is read exactly if it follows the grammar. -/
theorem isSome_decode?_iff (b : Bytes) : (decode? b).isSome = true ↔ IsLicense b := by
  rw [isLicense_iff, Option.isSome_iff_exists]
  exact exists_congr fun _ => decode?_eq_some_iff

end License

end ContentDecryption
