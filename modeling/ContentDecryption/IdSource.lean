import ContentDecryption.Sample.KeyId

/-!
# Sources of identifiers

Channels, secure stops and key systems in use are named by identifiers that a process
draws from outside. Each has the length of a GUID and is written like one; nothing else
is known of them, not even that no two are the same.
-/

namespace ContentDecryption

/-- A source of identifiers (`Uuid`). -/
structure IdSource where
  /-- The `n`-th identifier that is drawn. -/
  bytes : Nat → Bytes
  length_bytes (n : Nat) : (bytes n).length = KeyId.guidLength

namespace IdSource

/-- The text of the `n`-th identifier. -/
def text (s : IdSource) (n : Nat) : String := KeyId.groupedHex (s.bytes n)

/-- A source that counts: half of each identifier is always the same. -/
def counting : IdSource where
  bytes n := [0xd3, 0x5a, 0x91, 0xe7, 0x0c, 0xb8, 0x4f, 0x26] ++
    Bytes.ofLongBE (UInt64.ofNat (0x8e00000000000000 + n))
  length_bytes _ := rfl

end IdSource

end ContentDecryption
