import ContentDecryption.Channel.Handshake
import ContentDecryption.SharedMemory.Namespace

/-!
# The two ends of a channel

A server makes the object of a channel and owns its name; when the server goes, so
does the name. A client attaches to the object that has the name at that moment and
stays with it. Both trust the object no further than its size.

The decrypt calls of all clients that share a lock take turns. A call is refused
before the handshake when the data has no room next to the reserved bytes, when its
description has no room in a header, and when the lock was left behind by a client
that failed while it held it.
-/

namespace ContentDecryption

namespace Channel

/-! ## The server's end -/

/-- The owner of a channel (`DecryptServer`). -/
structure Server where
  name : String
  /-- The number of the object. -/
  object : Nat
  capacity : Nat
  deriving Repr, DecidableEq

namespace Server

/-- The control block of a new channel (the end of `create` of `DecryptServer`). The mark is written
last. -/
def format (capacity : Nat) (o : SharedObject) : SharedObject :=
  let o := o.writeWord capacityOffset (UInt32.ofNat capacity)
  let o := o.writeWord statusOffset Status.none
  o.writeWord markOffset mark

/-- Makes a channel (`create` of `DecryptServer`). Its capacity has to fit in a word, and its object
in memory. -/
def create (m : SharedMemory) (name : String) (capacity : Nat) (mappable : Bool := true) :
    Except Error Server × SharedMemory :=
  if 4294967296 ≤ capacity then (.error .invalidArg, m)
  else
    match m.create name (objectSize capacity) mappable with
    | (.error e, m') => (.error e, m')
    | (.ok i, m') => (.ok ⟨name, i, capacity⟩, m'.setObject i (format capacity (m'.object i)))

/-- Gives a channel up: the name goes, whatever object it leads to by now (the `drop` of its
`SharedMemory`). -/
def drop (s : Server) (m : SharedMemory) : SharedMemory := m.unlink s.name

/-- Waits for one request and serves it (`serve` of `DecryptServer`). -/
def serve (s : Server) (handler : Handler) (o : SharedObject) : ServerRun × SharedObject :=
  [false, false, false, false, true].foldl (fun p expired => p.1.step handler expired p.2)
    ({ capacity := s.capacity }, o)

end Server

/-! ## The client's end -/

/-- A client of a channel (`DataExchange`). -/
structure Attachment where
  name : String
  /-- The number of the object. -/
  object : Nat
  capacity : Nat
  /-- How long a call waits, in milliseconds. -/
  timeoutMs : Nat
  /-- The bytes at the end of the data region that stay free. -/
  reserved : Nat
  /-- Clients with the same lock take turns. -/
  lock : String
  deriving Repr, DecidableEq

namespace Attachment

/-- The capacity of a client: what the control block says, as far as the object reaches
(`attach` of `DataExchange`). -/
def capacityOf (o : SharedObject) : Nat :=
  min (o.word capacityOffset).toNat (o.size - dataOffset)

/-- Attaches to the channel that has this name (`attach` of `DataExchange`). -/
def attach (m : SharedMemory) (name : String) (timeoutMs reserved : Nat) (lock : String)
    (mappable : Bool := true) : Except Error Attachment :=
  match m.attach name mappable with
  | .error e => .error e
  | .ok i =>
    let o := m.object i
    if o.size < dataOffset then .error .invalidDecryptBuffer
    else if o.word markOffset ≠ mark then .error .invalidDecryptBuffer
    else .ok ⟨name, i, capacityOf o, timeoutMs, reserved, lock⟩

/-- The header of a request, if the channel takes the request (`decrypt` of `DataExchange`, in front
of the handshake). -/
def headerFor (a : Attachment) (poisoned : Bool) (r : Request) : Except Error Header :=
  if a.capacity < r.data.length + a.reserved then .error .bufferTooSmall
  else
    match Header.ofRequest r with
    | .error e => .error e
    | .ok h => if poisoned then .error (.other "Decrypt lock poisoned") else .ok h

/-- A decrypt call at its start. A call that is refused is over at once. -/
def start (a : Attachment) (poisoned : Bool) (r : Request) : ClientCall :=
  match a.headerFor poisoned r with
  | .ok h => { header := h, data := r.data, stage := .acquiring }
  | .error e =>
    { header := .plain r.data.length, data := r.data, stage := .finished (.error e) }

/-- What comes of a decrypt call: its result, the caller's buffer, and what the server was
given. -/
structure Outcome where
  result : Except Error Unit
  data : Bytes
  seen : Option Delivery
  deriving Repr

/-- A decrypt call on its object while one server, or none, waits there for a request (`decrypt` of
`DataExchange`). -/
def decryptOn (a : Attachment) (poisoned : Bool) (r : Request) (server : Option (Nat × Handler))
    (o : SharedObject) : Outcome × SharedObject :=
  let handler : Handler := match server with
    | some (_, h) => h
    | none => fun d => (Status.none, d.data)
  let start : Meeting :=
    { call := a.start poisoned r
      server := server.map fun s => { capacity := s.1 }
      object := o }
  let stop := start.run handler (Meeting.turnsWithin a.timeoutMs)
  ({ result := stop.call.result?.getD (.error .timeout)
     data := stop.call.data
     seen := stop.server.bind ServerRun.seen },
    stop.object)

/-- A decrypt call while one server, or none, waits for a request. A server that waits at another
object never meets the client. -/
def decrypt (a : Attachment) (poisoned : Bool) (r : Request) (server : Option (Server × Handler))
    (m : SharedMemory) : Outcome × SharedMemory :=
  match server with
  | none =>
    let (out, o) := a.decryptOn poisoned r none (m.object a.object)
    (out, m.setObject a.object o)
  | some (s, handler) =>
    if s.object = a.object then
      let (out, o) := a.decryptOn poisoned r (some (s.capacity, handler)) (m.object a.object)
      (out, m.setObject a.object o)
    else
      let (run, served) := s.serve handler (m.object s.object)
      let m := m.setObject s.object served
      let (out, o) := a.decryptOn poisoned r none (m.object a.object)
      ({ out with seen := run.seen }, m.setObject a.object o)

end Attachment

end Channel

end ContentDecryption
