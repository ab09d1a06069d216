import ContentDecryption.Bytes

/-!
# Layout of a channel

A decrypt channel is an object of shared memory: a control block of little-endian
words, then, from `dataOffset` on, as many bytes of data as the channel has
capacity for.

| offset | contents |
|---|---|
| 0 | the mark of a channel |
| 4 | the handshake word |
| 8 | capacity |
| 12 | status of the last request |
| 16 | header of the request |
| 2176 | data |
-/

namespace ContentDecryption

namespace Channel

/-- The mark that an object which is a channel starts with (`CHANNEL_MAGIC`). -/
def mark : UInt32 := 0x4f43444d

/-- The offsets of the fields of a control block (`ControlBlock`). -/
def markOffset : Nat := 0
def stateOffset : Nat := 4
def capacityOffset : Nat := 8
def statusOffset : Nat := 12
def headerOffset : Nat := 16

/-- The longest IV that a header can carry (`MAX_IV_LENGTH`). -/
def maxIvLength : Nat := 16

/-- The longest key ID that a header can carry (`MAX_KEY_ID_LENGTH`). -/
def maxKeyIdLength : Nat := 16

/-- The most sub-samples that a header can carry (`MAX_SUBSAMPLES`). -/
def maxSubsamples : Nat := 256

/-- The number of words in a header in front of its byte strings. -/
def headerWords : Nat := 12

/-- Where in a header the IV, the key ID and the sub-samples start. -/
def ivOffset : Nat := 4 * headerWords
def keyIdOffset : Nat := ivOffset + maxIvLength
def subsamplesOffset : Nat := keyIdOffset + maxKeyIdLength

/-- The length of a header (`RequestHeader`). -/
def headerSize : Nat := subsamplesOffset + 8 * maxSubsamples

/-- The first multiple of 64 after the control block (`DATA_OFFSET`). -/
def dataOffset : Nat := (headerOffset + headerSize + 63) / 64 * 64

/-- The size of an object for a channel of this capacity (`region_size`). -/
def objectSize (capacity : Nat) : Nat := dataOffset + capacity

theorem headerSize_eq : headerSize = 2128 := rfl

theorem dataOffset_eq : dataOffset = 2176 := rfl

theorem headerEnd_le_dataOffset : headerOffset + headerSize ≤ dataOffset := by decide

end Channel

end ContentDecryption
