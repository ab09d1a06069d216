import ContentDecryption.Error
import ContentDecryption.Sample.KeyId
import ContentDecryption.Sample.Media
import ContentDecryption.Sample.Scheme

/-!
# Sample descriptions

How one sample is encrypted: scheme, pattern, IV, key ID and the map of its
sub-samples, each a run of clear bytes followed by a run of encrypted ones. An
empty map means that the sample is not divided.
-/

namespace ContentDecryption

/-- A run of clear bytes, then a run of encrypted bytes (`SubSample`). -/
structure SubSample where
  clearBytes : UInt16
  encryptedBytes : UInt32
  deriving Repr, DecidableEq

namespace SubSample

/-- The length of the clear run. -/
def clear (s : SubSample) : Nat := s.clearBytes.toNat

/-- The length of the encrypted run. -/
def encrypted (s : SubSample) : Nat := s.encryptedBytes.toNat

/-- The length of both runs (`len`). -/
def length (s : SubSample) : Nat := s.clear + s.encrypted

def isEmpty (s : SubSample) : Bool := s.length == 0

/-- The bytes in the encrypted runs of a map. -/
def totalEncrypted (map : List SubSample) : Nat :=
  map.foldr (fun s total => s.encrypted + total) 0

/-- The bytes that a map covers. -/
def totalLength (map : List SubSample) : Nat :=
  map.foldr (fun s total => s.length + total) 0

theorem length_eq (s : SubSample) : s.length = s.clear + s.encrypted := rfl

end SubSample

/-- How a sample is encrypted (`SampleInfo`). -/
structure SampleInfo where
  scheme : EncryptionScheme := .aesCtrCenc
  pattern : EncryptionPattern := ⟨0, 0⟩
  iv : Bytes := []
  keyId : KeyId := []
  subsamples : List SubSample := []
  deriving Repr, DecidableEq

namespace SampleInfo

/-- Whether the description names nothing to decrypt with (`is_clear_passthrough`). -/
def isClearPassthrough (i : SampleInfo) : Bool :=
  i.iv.isEmpty && i.keyId.isEmpty && i.subsamples.isEmpty

/-- The bytes in the encrypted runs (`encrypted_len`). -/
def encryptedLength (i : SampleInfo) : Nat := SubSample.totalEncrypted i.subsamples

/-- The bytes that the map covers. -/
def coveredLength (i : SampleInfo) : Nat := SubSample.totalLength i.subsamples

/-- A map has to cover the sample exactly (`validate`). -/
def validate (i : SampleInfo) (sampleLength : Nat) : Except Error Unit :=
  if i.subsamples.isEmpty ∨ i.coveredLength = sampleLength then .ok ()
  else .error (.other ("Sub-sample map covers " ++ toString i.coveredLength
    ++ " bytes, sample has " ++ toString sampleLength ++ "."))

end SampleInfo

end ContentDecryption
