import ContentDecryption.Digest
import ContentDecryption.Sample.Media
import ContentDecryption.Text.Blank

/-!
# Capability texts

A pipeline describes a stream in one line of text, such as
`video/x-h264, width=(int)1920, height=(int)1080, original-media-type=(string)video/mp4`.
The value of a field is found by its tag: it is what follows the next closing
parenthesis, up to the next comma.

A `CapsParser` keeps the media properties of the last text. The media type stays
when a text does not carry one; the size is read anew from every text, and only
video has one. A text with the digest of the one before it is not parsed again.
-/

namespace ContentDecryption

namespace Caps

/-- The rest of a text from the first place on where `tag` stands. -/
def find? (tag : List Char) : List Char → Option (List Char)
  | [] => if tag.isEmpty then some [] else none
  | c :: cs => if tag.isPrefixOf (c :: cs) then some (c :: cs) else find? tag cs

/-- The value of the field with this tag (`find_marker`). -/
def value? (tag : String) (caps : List Char) : Option (List Char) :=
  match find? tag.toList caps with
  | none => none
  | some found =>
    match found.dropWhile (fun c => c != ')') with
    | [] => none
    | _ :: rest => some (rest.takeWhile (fun c => c != ','))

/-- The tag of the media type (`MEDIA_TAG`). -/
def mediaTag : String := "original-media-type"
/-- The tag of the width (`WIDTH_TAG`). -/
def widthTag : String := "width"
/-- The tag of the height (`HEIGHT_TAG`). -/
def heightTag : String := "height"

/-- The media type that a value names; video is looked for first (`classify`). -/
def classify (value : List Char) : MediaType :=
  if (find? "video".toList value).isSome then .video
  else if (find? "audio".toList value).isSome then .audio
  else .unknown

/-- A decimal numeral's value with one more digit, while it is below 2^32. -/
def appendDigit (n : Nat) (c : Char) : Option Nat :=
  let n' := 10 * n + (c.toNat - 48)
  if c.isDigit && decide (n' < 4294967296) then some n' else none

/-- The value of a decimal numeral of one or more digits that is below 2^32. -/
def decimal? (cs : List Char) : Option Nat :=
  if cs.isEmpty then none else cs.foldlM appendDigit 0

/-- A decimal numeral below 2^32, with or without a plus sign. -/
def word? (cs : List Char) : Option UInt32 :=
  let digits := match cs with
    | '+' :: rest => rest
    | _ => cs
  (decimal? digits).map UInt32.ofNat

/-- A width or height (`parse_dimension`). What is no number counts as zero. -/
def dimension (value : List Char) : UInt32 := (word? (Text.trim value)).getD 0

end Caps

/-- The media properties that the texts seen so far amount to (`CapsParser`). -/
structure CapsParser where
  lastDigest : Option UInt64 := none
  mediaType : MediaType := .unknown
  width : UInt32 := 0
  height : UInt32 := 0
  deriving Repr, DecidableEq

namespace CapsParser

/-- The parser before any text. -/
def empty : CapsParser := {}

/-- What a text sets, whatever text came before it. -/
def read (p : CapsParser) (caps : String) : CapsParser :=
  let cs := caps.toList
  let mediaType := match Caps.value? Caps.mediaTag cs with
    | some value => Caps.classify value
    | none => p.mediaType
  let size := fun tag =>
    if mediaType = .video then ((Caps.value? tag cs).map Caps.dimension).getD 0 else 0
  { p with mediaType, width := size Caps.widthTag, height := size Caps.heightTag }

/-- Takes in the next text (`parse`). An empty one says nothing, and neither does one with the
digest of the last. -/
def parse (p : CapsParser) (caps : String) : CapsParser :=
  if caps.isEmpty then p
  else
    let digest := Digest.ofText caps
    if p.lastDigest = some digest then p
    else { p.read caps with lastDigest := some digest }

/-- The size hint that goes with the stream's samples (`media_properties`). -/
def mediaProperties (p : CapsParser) : MediaProperties := ⟨p.height, p.width, p.mediaType⟩

end CapsParser

end ContentDecryption
