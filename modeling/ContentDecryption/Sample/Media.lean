/-!
# Media properties

The size hint that goes with a sample. A media type outside the known ones is
unknown.
-/

namespace ContentDecryption

/-- What kind of stream a sample belongs to (`MediaType`). -/
inductive MediaType
  | unknown
  | video
  | audio
  | data
  deriving Repr, DecidableEq

namespace MediaType

/-- The word that stands for the media type. -/
def raw : MediaType → UInt32
  | unknown => 0
  | video => 1
  | audio => 2
  | data => 3

/-- The media type that a word stands for; every other word is `unknown` (`from_raw`). -/
def ofRaw (w : UInt32) : MediaType :=
  if w = 1 then video else if w = 2 then audio else if w = 3 then data else unknown

theorem ofRaw_raw (t : MediaType) : ofRaw t.raw = t := by
  cases t <;> decide

end MediaType

/-- The size of the pictures that a sample decodes to (`MediaProperties`). -/
structure MediaProperties where
  height : UInt32 := 0
  width : UInt32 := 0
  mediaType : MediaType := .unknown
  deriving Repr, DecidableEq

namespace MediaProperties

/-- The properties given as three words (`OpenCDMMediaProperties`). -/
def ofWords (height width mediaType : UInt32) : MediaProperties :=
  ⟨height, width, MediaType.ofRaw mediaType⟩

end MediaProperties

end ContentDecryption
