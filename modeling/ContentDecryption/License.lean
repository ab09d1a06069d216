import ContentDecryption.Sample.KeyId

/-!
# Licenses

A license is a sequence of records, each a key ID and a key. Both are fields: one
byte for the length, then the bytes. A key has at least one byte.

Main statements:

* `License.length_field?`: a field that is read leaves a shorter rest.
-/

namespace ContentDecryption

/-- A key ID and its key. -/
abbrev KeyRecord := KeyId × Bytes

namespace License

/-! ## Writing -/

/-- A field. Its length byte holds the length modulo 256. -/
def encodeField (b : Bytes) : Bytes := UInt8.ofNat b.length :: b

/-- A record: the key ID, then the key. -/
def encodeRecord (r : KeyRecord) : Bytes := encodeField r.1 ++ encodeField r.2

/-- The license with these records (`encode_license`). -/
def encode (records : List KeyRecord) : Bytes := records.flatMap encodeRecord

/-! ## Reading -/

/-- The field at the start of `b`, and what follows it (`split_record`). -/
def field? : Bytes → Option (Bytes × Bytes)
  | [] => none
  | n :: rest => Bytes.split? rest n.toNat

theorem length_field? {b f rest : Bytes} (h : field? b = some (f, rest)) :
    rest.length < b.length := by
  cases b with
  | nil => cases h
  | cons n tail =>
    obtain ⟨rfl, -⟩ := Bytes.split?_eq_some_iff.1 h
    rw [List.length_cons, List.length_append]
    omega

/-- The records of a license, if it is one (`decode_license`). -/
def decode? (b : Bytes) : Option (List KeyRecord) :=
  if b.isEmpty then some []
  else
    match _hid : field? b with
    | none => none
    | some (id, afterId) =>
      match _hkey : field? afterId with
      | none => none
      | some (key, rest) =>
        if key.isEmpty then none else (decode? rest).map fun records => (id, key) :: records
termination_by b.length
decreasing_by
  have := length_field? _hid
  have := length_field? _hkey
  omega

end License

end ContentDecryption
