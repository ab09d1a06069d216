import ContentDecryption.Bytes

/-!
# A 64-bit digest

SipHash with one round for each word and three at the end, under a key of zeros. It
tells apart the contents of a store, and whether a text is the one seen last.
Contents that are lists are put in a form that shows where each part ends before
they are digested.
-/

namespace ContentDecryption

namespace Digest

/-- The four words that a digest is made in (the state of a `DefaultHasher`). -/
structure Mixer where
  v0 : UInt64 := 0x736f6d6570736575
  v1 : UInt64 := 0x646f72616e646f6d
  v2 : UInt64 := 0x6c7967656e657261
  v3 : UInt64 := 0x7465646279746573
  deriving Repr, DecidableEq

/-- Turns a word by `n` bits to the left. -/
def rotate (w n : UInt64) : UInt64 := (w <<< n) ||| (w >>> (64 - n))

namespace Mixer

/-- One round. -/
def round (m : Mixer) : Mixer :=
  let v0 := m.v0 + m.v1
  let v1 := rotate m.v1 13 ^^^ v0
  let v2 := m.v2 + m.v3
  let v3 := rotate m.v3 16 ^^^ v2
  let v0 := rotate v0 32 + v3
  let v2 := v2 + v1
  { v0, v1 := rotate v1 17 ^^^ v2, v2 := rotate v2 32, v3 := rotate v3 21 ^^^ v0 }

/-- Takes a word in. -/
def absorb (m : Mixer) (w : UInt64) : Mixer :=
  let m := { m with v3 := m.v3 ^^^ w }.round
  { m with v0 := m.v0 ^^^ w }

/-- The digest of what was taken in. -/
def finish (m : Mixer) : UInt64 :=
  let m := { m with v2 := m.v2 ^^^ 0xff }.round.round.round
  m.v0 ^^^ m.v1 ^^^ m.v2 ^^^ m.v3

end Mixer

/-- The word of up to eight bytes, lowest first. -/
def word (b : Bytes) : UInt64 := b.foldr (fun x w => (w <<< 8) ||| x.toUInt64) 0

/-- Takes the bytes in, eight by eight. The last word has what is left over, and `total` in its
highest byte. -/
def absorbAll (total : Nat) (m : Mixer) : Bytes → Mixer
  | a :: b :: c :: d :: e :: f :: g :: h :: rest =>
    absorbAll total (m.absorb (word [a, b, c, d, e, f, g, h])) rest
  | rest => m.absorb (word rest ||| (UInt64.ofNat total <<< 56))

/-- The digest of a byte string. -/
def ofBytes (b : Bytes) : UInt64 := (absorbAll b.length {} b).finish

/-- A length as eight bytes. -/
def lengthWord (n : Nat) : Bytes :=
  Bytes.ofWord (UInt32.ofNat n) ++ Bytes.ofWord (UInt32.ofNat (n / 4294967296))

/-- A byte string with its length in front. -/
def framed (b : Bytes) : Bytes := lengthWord b.length ++ b

/-- The digest of a list whose items have a form that shows where they end (`hash_bytes`). -/
def ofList {α : Type} (form : α → Bytes) (items : List α) : UInt64 :=
  ofBytes (lengthWord items.length ++ items.flatMap form)

/-- The digest of a text (what `parse` keeps of a text). The byte at its end is in no text. -/
def ofText (s : String) : UInt64 := ofBytes (Bytes.ofText s ++ [0xff])

end Digest

end ContentDecryption
