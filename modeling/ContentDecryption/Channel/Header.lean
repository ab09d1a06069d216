import ContentDecryption.Channel.Layout
import ContentDecryption.Sample.Info

/-!
# Request headers

What a client says about a sample when it hands it over: twelve words, then the IV,
the key ID and the sub-samples in fields of fixed size. A header is written in full,
with zeros where it has nothing to say, so nothing of an earlier request shows
through.

The reader trusts nothing: lengths beyond a field are cut to the field, a scheme
that is none counts as clear, and a clear count keeps its low sixteen bits.
-/

namespace ContentDecryption

namespace Channel

/-- A request for one sample (the arguments of `decrypt`). Without a description the sample goes as
it is. -/
structure Request where
  data : Bytes
  info : Option SampleInfo := none
  initWithLast15 : Bool := false
  properties : Option MediaProperties := none
  deriving Repr, DecidableEq

/-- The fields of a header as they stand in shared memory (`RequestHeader`). -/
structure Header where
  dataLength : UInt32
  scheme : UInt32
  patternEncrypted : UInt32
  patternClear : UInt32
  initWithLast15 : UInt32
  hasMediaProperties : UInt32
  mediaHeight : UInt32
  mediaWidth : UInt32
  mediaType : UInt32
  ivLength : UInt32
  keyIdLength : UInt32
  subsampleCount : UInt32
  iv : Bytes
  keyId : Bytes
  subsamples : Bytes
  deriving Repr, DecidableEq

namespace Header

/-! ## Writing -/

/-- One sub-sample of a header: two words (`RawSubSample`). -/
def encodeSubsample (s : SubSample) : Bytes :=
  Bytes.ofWord s.clearBytes.toUInt32 ++ Bytes.ofWord s.encryptedBytes

/-- A header that says nothing but how long the data is. -/
def plain (length : Nat) : Header where
  dataLength := UInt32.ofNat length
  scheme := EncryptionScheme.clear.raw
  patternEncrypted := 0
  patternClear := 0
  initWithLast15 := 0
  hasMediaProperties := 0
  mediaHeight := 0
  mediaWidth := 0
  mediaType := MediaType.unknown.raw
  ivLength := 0
  keyIdLength := 0
  subsampleCount := 0
  iv := Bytes.zeros maxIvLength
  keyId := Bytes.zeros maxKeyIdLength
  subsamples := Bytes.zeros (8 * maxSubsamples)

/-- The header with the description of a sample. -/
def withInfo (h : Header) (i : SampleInfo) : Header :=
  { h with
    scheme := i.scheme.raw
    patternEncrypted := i.pattern.encryptedBlocks
    patternClear := i.pattern.clearBlocks
    ivLength := UInt32.ofNat i.iv.length
    keyIdLength := UInt32.ofNat i.keyId.length
    subsampleCount := UInt32.ofNat i.subsamples.length
    iv := Bytes.fit maxIvLength i.iv
    keyId := Bytes.fit maxKeyIdLength i.keyId
    subsamples := Bytes.fit (8 * maxSubsamples) (i.subsamples.flatMap encodeSubsample) }

/-- The header with a size hint. -/
def withProperties (h : Header) (p : MediaProperties) : Header :=
  { h with
    hasMediaProperties := 1
    mediaHeight := p.height
    mediaWidth := p.width
    mediaType := p.mediaType.raw }

/-- Whether a header has room for a description. -/
def fits (i : SampleInfo) : Bool :=
  decide (i.iv.length ≤ maxIvLength) && decide (i.keyId.length ≤ maxKeyIdLength) &&
    decide (i.subsamples.length ≤ maxSubsamples)

/-- The header of a request, if it has room for the request (`new` of `RequestHeader`). -/
def ofRequest (r : Request) : Except Error Header :=
  if 4294967296 ≤ r.data.length then .error .invalidArg
  else if r.info.any (fun i => !fits i) then .error .invalidArg
  else
    let h := { plain r.data.length with initWithLast15 := if r.initWithLast15 then 1 else 0 }
    let h := match r.info with
      | some i => h.withInfo i
      | none => h
    .ok (match r.properties with
      | some p => h.withProperties p
      | none => h)

/-- The words of a header in their order. -/
def words (h : Header) : List UInt32 :=
  [h.dataLength, h.scheme, h.patternEncrypted, h.patternClear, h.initWithLast15,
    h.hasMediaProperties, h.mediaHeight, h.mediaWidth, h.mediaType, h.ivLength, h.keyIdLength,
    h.subsampleCount]

/-- A header as it stands in shared memory. -/
def encode (h : Header) : Bytes :=
  h.words.flatMap Bytes.ofWord ++ Bytes.fit maxIvLength h.iv ++ Bytes.fit maxKeyIdLength h.keyId
    ++ Bytes.fit (8 * maxSubsamples) h.subsamples

/-! ## Reading -/

/-- The header that stands at the start of `b`. -/
def decode (b : Bytes) : Header :=
  let word := fun i => Bytes.toWord (b.drop (4 * i))
  { dataLength := word 0
    scheme := word 1
    patternEncrypted := word 2
    patternClear := word 3
    initWithLast15 := word 4
    hasMediaProperties := word 5
    mediaHeight := word 6
    mediaWidth := word 7
    mediaType := word 8
    ivLength := word 9
    keyIdLength := word 10
    subsampleCount := word 11
    iv := Bytes.fit maxIvLength (b.drop ivOffset)
    keyId := Bytes.fit maxKeyIdLength (b.drop keyIdOffset)
    subsamples := Bytes.fit (8 * maxSubsamples) (b.drop subsamplesOffset) }

/-- One sub-sample of a header. -/
def decodeSubsample (b : Bytes) : SubSample :=
  ⟨UInt16.ofNat (Bytes.toWord b).toNat, Bytes.toWord (b.drop 4)⟩

/-- The first `count` sub-samples. -/
def decodeSubsamples : Nat → Bytes → List SubSample
  | 0, _ => []
  | count + 1, b => decodeSubsample b :: decodeSubsamples count (b.drop 8)

/-- The description that a header carries (`sample_info`). -/
def sampleInfo (h : Header) : SampleInfo where
  scheme := (EncryptionScheme.ofRaw? h.scheme).getD .clear
  pattern := ⟨h.patternEncrypted, h.patternClear⟩
  iv := h.iv.take (min h.ivLength.toNat maxIvLength)
  keyId := h.keyId.take (min h.keyIdLength.toNat maxKeyIdLength)
  subsamples := decodeSubsamples (min h.subsampleCount.toNat maxSubsamples) h.subsamples

/-- The size hint that a header carries (`media_properties`). -/
def mediaProperties (h : Header) : Option MediaProperties :=
  if h.hasMediaProperties = 0 then none
  else some (.ofWords h.mediaHeight h.mediaWidth h.mediaType)

/-! ## Laws -/

theorem length_flatMap_ofWord (l : List UInt32) :
    (l.flatMap Bytes.ofWord).length = 4 * l.length := by
  induction l with
  | nil => rfl
  | cons w l ih =>
    rw [List.flatMap_cons, List.length_append, ih, Bytes.length_ofWord, List.length_cons]
    omega

@[simp] theorem length_encode (h : Header) : h.encode.length = headerSize := by
  rw [encode, List.length_append, List.length_append, List.length_append, length_flatMap_ofWord,
    Bytes.length_fit, Bytes.length_fit, Bytes.length_fit]
  rfl

theorem length_decodeSubsamples (count : Nat) (b : Bytes) :
    (decodeSubsamples count b).length = count := by
  induction count generalizing b with
  | zero => rfl
  | succ n ih => simp [decodeSubsamples, ih]

end Header

end Channel

end ContentDecryption
