import ContentDecryption.Channel.Handshake

/-!
# The loopback cipher

The loopback engine decrypts by exclusive or: the key is repeated over the encrypted
bytes of a sample, and runs on from one encrypted run to the next. Keys are looked
up by key ID in either byte order, the first record wins.

A run that ends past the sample is a failure. The runs before it stay decrypted.
-/

namespace ContentDecryption

namespace Loopback

/-- Applies a key to bytes, from position `index` of the repeated key on (`xor_with`). -/
def applyKey (key : Bytes) (index : Nat) (data : Bytes) : Bytes :=
  let table := key.toArray
  data.mapIdx fun i b => b ^^^ table.getD ((index + i) % table.size) 0

/-- Decrypts the encrypted runs of a sample; `index` bytes were decrypted before it. -/
def decryptRuns (key : Bytes) : List SubSample → Nat → Bytes → Status × Bytes
  | [], _, data => (Status.none, data)
  | s :: runs, index, data =>
    match data.split? s.length with
    | none => (Status.invalidDecryptBuffer, data)
    | some (start, rest) =>
      let (status, rest') := decryptRuns key runs (index + s.encrypted) rest
      (status, start.take s.clear ++ applyKey key index (start.drop s.clear) ++ rest')

/-- The key under a key ID (the table `KeyTable`). -/
def findKey? (keys : List (KeyId × Bytes)) (id : KeyId) : Option Bytes :=
  (keys.find? fun k => KeyId.agrees k.1 id).map Prod.snd

/-- What the loopback engine does with a sample, given the keys of the session (`serve_request`). -/
def decryptSample (keys : List (KeyId × Bytes)) : Channel.Handler := fun d =>
  if d.info.scheme = .clear then (Status.none, d.data)
  else
    match findKey? keys d.info.keyId with
    | none => (Status.serverInternalError, d.data)
    | some key =>
      if d.info.subsamples.isEmpty then (Status.none, applyKey key 0 d.data)
      else decryptRuns key d.info.subsamples 0 d.data

/-! ## Laws -/

@[simp] theorem length_applyKey (key : Bytes) (index : Nat) (data : Bytes) :
    (applyKey key index data).length = data.length := by
  simp [applyKey]

theorem length_decryptRuns (key : Bytes) (runs : List SubSample) (index : Nat) (data : Bytes) :
    (decryptRuns key runs index data).2.length = data.length := by
  induction runs generalizing index data with
  | nil => rfl
  | cons s runs ih =>
    simp only [decryptRuns]
    split
    · rfl
    · next start rest h =>
      obtain ⟨rfl, -⟩ := Bytes.split?_eq_some_iff.1 h
      simp only [List.length_append, List.length_take, length_applyKey, List.length_drop, ih]
      omega

theorem length_decryptSample (keys : List (KeyId × Bytes)) (d : Channel.Delivery) :
    (decryptSample keys d).2.length = d.data.length := by
  unfold decryptSample
  split
  · rfl
  · split
    · rfl
    · split
      · exact length_applyKey ..
      · exact length_decryptRuns ..

end Loopback

end ContentDecryption
