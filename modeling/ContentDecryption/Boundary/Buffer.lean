import ContentDecryption.Bytes
import ContentDecryption.Error

/-!
# Buffers at the boundary

A caller on the other side of the boundary passes pointers: to bytes with a length,
to texts that end at a zero byte, and to buffers for an answer. Here a pointer is the
bytes behind it, or nothing for a null pointer.

An answer of unknown length takes two calls. The caller passes a buffer and a word
with its capacity. The call puts the length that is needed into the word, and the
answer into the buffer if that is there and large enough.

Main statements:

* `Buffer.put_of_fits`: an answer that fits is put at the start of the buffer.
-/

namespace ContentDecryption

namespace Boundary

/-- The memory behind a pointer that may be null. -/
abbrev Pointer := Option Bytes

/-- The bytes that a pointer and a length stand for (`bytes`, and `bytes_mut` for a buffer that is
written to). No bytes need no pointer. -/
def bytesAt (p : Pointer) (length : Nat) : Except Error Bytes :=
  if length = 0 then .ok []
  else
    match p with
    | some b => .ok (b.take length)
    | none => .error .invalidArg

/-- The text behind a pointer: the bytes up to the first zero byte, if they are UTF-8 (`c_str`). -/
def textAt (p : Pointer) : Except Error String :=
  match p with
  | none => .error .invalidArg
  | some b =>
    match String.fromUTF8? ⟨(b.takeWhile fun x => x != 0).toArray⟩ with
    | some text => .ok text
    | none => .error .invalidArg

/-- A text that is handed out with a zero byte at its end must not hold another one (`boxed`,
`opencdm_system_get_metadata`). -/
def checkTerminated (text : String) : Except Error Unit :=
  let bytes := Bytes.ofText text
  if bytes.contains 0 then .error (.embeddedNul (bytes.idxOf 0)) else .ok ()

/-- A buffer for an answer, and the word with its capacity. -/
structure Buffer where
  out : Pointer
  size : Option UInt32
  deriving Repr, DecidableEq

namespace Buffer

/-- Whether an answer of this length can be put into the buffer. -/
def hasRoom (b : Buffer) (length : Nat) : Bool :=
  b.out.isSome && b.size.any fun capacity => decide (length ≤ capacity.toNat)

/-- Puts an answer into the buffer (`write_out`). -/
def put (b : Buffer) (value : Bytes) : Except Error Unit × Buffer :=
  if b.size.isNone then (.error .invalidArg, b)
  else if 4294967296 ≤ value.length then (.error .bufferTooSmall, b)
  else
    let size := some (UInt32.ofNat value.length)
    if b.hasRoom value.length then
      (.ok (), { out := b.out.map fun memory => Bytes.overwrite memory 0 value, size })
    else (.error (.moreDataAvailable value.length), { b with size })

/-! ## Laws -/

theorem put_of_fits {memory value : Bytes} {capacity : UInt32}
    (h : value.length ≤ capacity.toNat) :
    put ⟨some memory, some capacity⟩ value =
      (.ok (), ⟨some (Bytes.overwrite memory 0 value), some (UInt32.ofNat value.length)⟩) := by
  have := capacity.toNat_lt
  have h' : ¬ 4294967296 ≤ value.length := by omega
  simp [put, hasRoom, h, h']

end Buffer

end Boundary

end ContentDecryption
