/-!
# Encryption schemes and patterns

How the encrypted bytes of a sample were produced: the scheme of Common
Encryption and, for the two patterned schemes, how many blocks are encrypted and
skipped in turn. Both travel as plain words.
-/

namespace ContentDecryption

/-- The schemes of Common Encryption, and no encryption at all (`EncryptionScheme`). -/
inductive EncryptionScheme
  | clear
  | aesCtrCenc
  | aesCbcCbc1
  | aesCtrCens
  | aesCbcCbcs
  deriving Repr, DecidableEq

namespace EncryptionScheme

/-- The word that stands for the scheme. -/
def raw : EncryptionScheme → UInt32
  | clear => 0
  | aesCtrCenc => 1
  | aesCbcCbc1 => 2
  | aesCtrCens => 3
  | aesCbcCbcs => 4

/-- The scheme that a word stands for (`from_raw`). -/
def ofRaw? (w : UInt32) : Option EncryptionScheme :=
  [clear, aesCtrCenc, aesCbcCbc1, aesCtrCens, aesCbcCbcs].find? fun s => s.raw == w

/-- The scheme with this four-letter code; there is none for clear samples (`from_cipher_mode`). -/
def ofMode? (mode : String) : Option EncryptionScheme :=
  if mode = "cenc" then some aesCtrCenc
  else if mode = "cbc1" then some aesCbcCbc1
  else if mode = "cens" then some aesCtrCens
  else if mode = "cbcs" then some aesCbcCbcs
  else none

/-- Whether only some blocks of an encrypted run are encrypted (`is_patterned`). -/
def isPatterned : EncryptionScheme → Bool
  | aesCtrCens => true
  | aesCbcCbcs => true
  | _ => false

theorem ofRaw?_raw (s : EncryptionScheme) : ofRaw? s.raw = some s := by
  cases s <;> decide

theorem raw_of_ofRaw? {w : UInt32} {s : EncryptionScheme} (h : ofRaw? w = some s) : s.raw = w := by
  simpa using List.find?_some h

end EncryptionScheme

/-- Blocks encrypted and blocks left clear, in turn (`EncryptionPattern`). -/
structure EncryptionPattern where
  encryptedBlocks : UInt32 := 0
  clearBlocks : UInt32 := 0
  deriving Repr, DecidableEq

end ContentDecryption
