import ContentDecryption.Channel.Header
import ContentDecryption.SharedMemory.Object

/-!
# The handshake of a channel

One word of shared memory says who may touch the rest. A client takes an idle
channel, writes a request, and hands it over; a server takes the request, decrypts
the data in place, and hands it back; the client takes the answer and leaves the
channel idle.

```text
idle ─client▶ producing ─client▶ produced ─server▶ decrypting ─server▶ completed
  ▲                                                                        │
  └──────────────client────────────── consuming ◀───────────client─────────┘
```

A client that has waited too long withdraws a request that no server has taken. If
a server has taken it, the answer comes later and nobody waits for it: the next
client finds it and drops it.

Both sides are given here as machines. One step of a machine is one thing that
happens to the word or, while the word gives the machine the right to it, to the
rest of the memory: `ClientCall.step` and `ServerRun.step`. A step that has to wait
changes nothing, unless the deadline has passed.
-/

namespace ContentDecryption

namespace Channel

/-- The states of the handshake (`ChannelState`). -/
inductive Phase
  | idle
  | producing
  | produced
  | decrypting
  | completed
  | consuming
  deriving Repr, DecidableEq

namespace Phase

/-- The word that stands for a state. -/
def word : Phase → UInt32
  | idle => 0
  | producing => 1
  | produced => 2
  | decrypting => 3
  | completed => 4
  | consuming => 5

theorem word_injective {p q : Phase} (h : p.word = q.word) : p = q := by
  cases p <;> cases q <;> first | rfl | exact absurd h (by decide)

end Phase

/-- The handshake word of an object. -/
def stateOf (o : SharedObject) : UInt32 := o.word stateOffset

/-- The handshake word of an object that may be too small to have one. -/
def state? (o : SharedObject) : Option UInt32 :=
  if stateOffset + 4 ≤ o.size then some (stateOf o) else none

/-- Writes the handshake word, whatever it was (`publish`). -/
def publish (o : SharedObject) (p : Phase) : SharedObject := o.writeWord stateOffset p.word

/-- Moves the handshake word from one state to another, if it is in the first (the exchange in
`transition`, and `discard`). -/
def exchange? (o : SharedObject) (source target : Phase) : Option SharedObject :=
  if stateOf o = source.word then some (publish o target) else none

/-! ## The client -/

/-- Where a decrypt call stands (the stages of `decrypt`, with `acquire`, `transition` and `discard`
in it). -/
inductive ClientStage
  /-- taking the idle channel -/
  | acquiring
  /-- dropping an answer that nobody waits for, to take the channel after it -/
  | discarding
  /-- writing the request -/
  | filling
  /-- handing the request over -/
  | submitting
  /-- waiting for the answer -/
  | awaiting
  /-- after the deadline: taking back a request that no server has taken -/
  | withdrawing
  /-- after the deadline: dropping an answer that came just then -/
  | dropping
  /-- reading the answer -/
  | collecting
  /-- leaving the channel idle -/
  | releasing (status : Status)
  | finished (result : Except Error Unit)
  deriving Repr

/-- A decrypt call: its request, the caller's buffer, and where it stands. -/
structure ClientCall where
  header : Header
  data : Bytes
  stage : ClientStage
  deriving Repr

namespace ClientCall

/-- The result of a call that is over. -/
def result? (c : ClientCall) : Option (Except Error Unit) :=
  match c.stage with
  | .finished r => some r
  | _ => none

/-- Writes the request into the memory. -/
def fill (c : ClientCall) (o : SharedObject) : SharedObject :=
  (o.write headerOffset c.header.encode).write dataOffset c.data

/-- One step of a call; `expired` says whether its deadline has passed. -/
def step (expired : Bool) (c : ClientCall) (o : SharedObject) : ClientCall × SharedObject :=
  match c.stage with
  | .acquiring =>
    match exchange? o .idle .producing with
    | some o' => ({ c with stage := .filling }, o')
    | none =>
      if stateOf o = Phase.completed.word then ({ c with stage := .discarding }, o)
      else if expired then ({ c with stage := .finished (.error .timeout) }, o)
      else (c, o)
  | .discarding => ({ c with stage := .acquiring }, (exchange? o .completed .idle).getD o)
  | .filling => ({ c with stage := .submitting }, c.fill o)
  | .submitting => ({ c with stage := .awaiting }, publish o .produced)
  | .awaiting =>
    match exchange? o .completed .consuming with
    | some o' => ({ c with stage := .collecting }, o')
    | none => if expired then ({ c with stage := .withdrawing }, o) else (c, o)
  | .withdrawing =>
    match exchange? o .produced .idle with
    | some o' => ({ c with stage := .finished (.error .timeout) }, o')
    | none => ({ c with stage := .dropping }, o)
  | .dropping =>
    ({ c with stage := .finished (.error .timeout) }, (exchange? o .completed .idle).getD o)
  | .collecting =>
    ({ c with data := o.read dataOffset c.data.length, stage := .releasing (o.word statusOffset) },
      o)
  | .releasing status => ({ c with stage := .finished (Error.ofStatus status) }, publish o .idle)
  | .finished _ => (c, o)

end ClientCall

/-! ## The server -/

/-- A request as a server is given it (`DecryptRequest`). -/
structure Delivery where
  info : SampleInfo
  initWithLast15 : Bool
  properties : Option MediaProperties
  data : Bytes
  deriving Repr, DecidableEq

namespace Delivery

/-- The request that stands in the memory, for a server that gives its channel this capacity. -/
def ofObject (capacity : Nat) (o : SharedObject) : Delivery :=
  let h := Header.decode (o.read headerOffset headerSize)
  { info := h.sampleInfo
    initWithLast15 := h.initWithLast15 != 0
    properties := h.mediaProperties
    data := o.read dataOffset (min h.dataLength.toNat capacity) }

end Delivery

/-- What a server does with a request: the status it answers with, and what it makes of the data
(the closure that `serve` is given). -/
abbrev Handler := Delivery → Status × Bytes

/-- Where a server stands with one request (the stages of `serve`). -/
inductive ServerStage
  /-- waiting for a request and taking it -/
  | waiting
  /-- running the handler on it -/
  | handling
  /-- writing the status -/
  | reporting (status : Status)
  /-- handing the answer over -/
  | completing
  | finished (served : Bool)
  deriving Repr, DecidableEq

/-- One wait for a request, and its service: what the server was given, and where it stands. -/
structure ServerRun where
  capacity : Nat
  seen : Option Delivery := none
  stage : ServerStage := .waiting
  deriving Repr, DecidableEq

namespace ServerRun

/-- One step of a server; `expired` says whether its deadline has passed. The handler can change
the bytes it was given and no others. -/
def step (handler : Handler) (expired : Bool) (s : ServerRun) (o : SharedObject) :
    ServerRun × SharedObject :=
  match s.stage with
  | .waiting =>
    match exchange? o .produced .decrypting with
    | some o' => ({ s with stage := .handling }, o')
    | none => if expired then ({ s with stage := .finished false }, o) else (s, o)
  | .handling =>
    let d := Delivery.ofObject s.capacity o
    let (status, data) := handler d
    ({ s with seen := some d, stage := .reporting status },
      o.write dataOffset (data.take d.data.length))
  | .reporting status => ({ s with stage := .completing }, o.writeWord statusOffset status)
  | .completing => ({ s with stage := .finished true }, publish o .completed)
  | .finished _ => (s, o)

/-- Whether the server has served a request. -/
def served (s : ServerRun) : Bool := s.stage == .finished true

end ServerRun

/-! ## Turns

A client and a server that take turns. A side that waits lets its turn pass, so a
list of turns long enough lets each get as far as the other lets it.
-/

/-- Whose step is next, and whether its deadline has passed. -/
inductive Turn
  | client (expired : Bool)
  | server (expired : Bool)
  deriving Repr, DecidableEq

/-- A decrypt call, the server that may answer it, and the memory between them. -/
structure Meeting where
  call : ClientCall
  server : Option ServerRun
  object : SharedObject
  deriving Repr

namespace Meeting

/-- One turn. -/
def turn (handler : Handler) (m : Meeting) : Turn → Meeting
  | .client expired =>
    let (call, object) := m.call.step expired m.object
    { m with call, object }
  | .server expired =>
    match m.server with
    | none => m
    | some s =>
      let (server, object) := s.step handler expired m.object
      { m with server := some server, object }

/-- A list of turns. -/
def run (handler : Handler) (m : Meeting) (turns : List Turn) : Meeting :=
  turns.foldl (turn handler) m

/-- As many turns of a client as bring it from any stage to where it has to wait or is done. -/
def clientTurns (expired : Bool) : List Turn := List.replicate 5 (.client expired)

/-- As many turns of a server as serve one request. -/
def serverTurns (expired : Bool) : List Turn := List.replicate 4 (.server expired)

/-- The turns of a call that gives a server time to answer once, and gives up after that. -/
def patientTurns : List Turn :=
  clientTurns false ++ serverTurns false ++ clientTurns false ++ clientTurns true
    ++ serverTurns true

/-- The turns of a call whose deadline has passed when it starts: a server comes after it. -/
def hastyTurns : List Turn := clientTurns true ++ clientTurns true ++ serverTurns true

/-- The turns of a call that waits up to `ms` milliseconds. A server that is there needs next to
no time. -/
def turnsWithin (ms : Nat) : List Turn := if ms = 0 then hastyTurns else patientTurns

end Meeting

end Channel

end ContentDecryption
