import ContentDecryption.Channel.Endpoint
import ContentDecryption.Proofs.Channel.Moves
import ContentDecryption.Proofs.Entries
import ContentDecryption.Proofs.SharedMemory.Naming

/-!
# Everything that happens at one channel

Any number of decrypt calls and any number of servers at one object of shared memory,
each a machine of its own. An `Act` is one atomic step of one of them, or the
beginning of a call or of a wait for a request; a run is a list of acts, in any order
and with deadlines that pass anywhere. A call begins when its lock is free, and has it
until it is over.

Next to the machines a run keeps a record that no machine reads: whose request was
written last, and for each call which servers took its request and whether its wait for
an answer succeeded.

Main definitions:

* `Traffic`, `Act`, `Traffic.step`, `Traffic.run`;
* `Traffic.Step`: what one act can be, with the moves of `ClientCall.Move` and `ServerRun.Move`.

Main results:

* `Traffic.step_step`: every act is one of these;
* `Traffic.run_induction`: what holds of a new channel and is kept by every act holds always;
* `Server.create_cases`: a channel that is made is a new object, under a name that was free.
-/

namespace ContentDecryption

namespace Channel

/-- Whether a call is over. -/
def ClientCall.isOver (c : ClientCall) : Bool := c.result?.isSome

/-- One run of a handler. -/
structure Service where
  /-- The number of the server. -/
  worker : Nat
  handler : Handler
  given : Delivery

/-- The status that a handler run returned. -/
def Service.status (x : Service) : Status := (x.handler x.given).1

/-- The bytes that a handler run left in its data. -/
def Service.left (x : Service) : Bytes := ServerRun.left x.handler x.given

/-- A decrypt call. -/
structure Caller where
  client : Attachment
  request : Request
  call : ClientCall
  /-- The numbers of the servers that took the request. -/
  takenBy : List Nat := []
  /-- Whether the wait for the answer succeeded. -/
  answered : Bool := false

/-- A server that waits for a request, and what it will do with it. -/
structure Worker where
  handler : Handler
  run : ServerRun

/-- All calls and servers at one channel. -/
structure Traffic where
  capacity : Nat
  object : SharedObject
  callers : List Caller := []
  workers : List Worker := []
  /-- The call whose request was written last. -/
  writer : Option Nat := none

/-- What can happen next at a channel. -/
inductive Act
  /-- A client begins a call. Its lock may have been left behind by a client that failed. -/
  | call (client : Attachment) (poisoned : Bool) (request : Request)
  /-- The owner of the channel begins to wait for a request. -/
  | serve (handler : Handler)
  | client (i : Nat) (expired : Bool)
  | server (j : Nat) (expired : Bool)

/-! ## The record -/

def ClientStage.isFilling : ClientStage → Bool
  | .filling => true
  | _ => false

def ClientStage.isCollecting : ClientStage → Bool
  | .collecting => true
  | _ => false

/-- A call that is in no phase of its own neither writes its request nor reads its answer. -/
theorem ClientStage.isFilling_of_phase? {s : ClientStage} (h : s.phase? = none) :
    s.isFilling = false := by
  cases s with
  | filling => cases h
  | _ => rfl

theorem ClientStage.isCollecting_of_phase? {s : ClientStage} (h : s.phase? = none) :
    s.isCollecting = false := by
  cases s with
  | collecting => cases h
  | _ => rfl

theorem ClientCall.phase?_of_isOver {c : ClientCall} (h : c.isOver = true) :
    c.stage.phase? = none := by
  rw [isOver, result?] at h
  cases hs : c.stage with
  | finished => rfl
  | _ => rw [hs] at h; cases h

/-- A caller after a step of its call. -/
def Caller.advance (c : Caller) (call : ClientCall) : Caller :=
  { c with call, answered := c.answered || call.stage.isCollecting }

/-- What a step of a server means for the caller whose request was written last. -/
def Worker.credit (w : Worker) (j : Nat) (run : ServerRun) (c : Caller) : Caller :=
  match w.run.stage, run.stage with
  | .waiting, .handling => { c with takenBy := c.takenBy ++ [j] }
  | _, _ => c

namespace Traffic

/-- The handler run of a server, if there was one. -/
def service? (t : Traffic) (j : Nat) : Option Service :=
  t.workers[j]?.bind fun w => w.run.seen.map fun d => ⟨j, w.handler, d⟩

/-- The handler runs that a call's request was given to. -/
def services (t : Traffic) (c : Caller) : List Service := c.takenBy.filterMap t.service?

/-! ## Acts -/

/-- A channel that was just made. -/
def start (capacity : Nat) : Traffic where
  capacity
  object := Server.format capacity ⟨objectSize capacity, []⟩

/-- Whether a call can begin. A client is attached to this object; its call needs its lock, unless
it is refused before that. -/
def admits (t : Traffic) (a : Attachment) (poisoned : Bool) (r : Request) : Bool :=
  decide (a.capacity = Attachment.capacityOf t.object) &&
    ((a.start poisoned r).isOver ||
      t.callers.all fun c => c.client.lock != a.lock || c.call.isOver)

/-- The traffic after a step of a call. -/
def afterClient (t : Traffic) (i : Nat) (c : Caller) (next : ClientCall × SharedObject) :
    Traffic :=
  { t with
    object := next.2
    callers := t.callers.set i (c.advance next.1)
    writer := if c.call.stage.isFilling then some i else t.writer }

/-- The traffic after a step of a server. -/
def afterServer (t : Traffic) (j : Nat) (w : Worker) (next : ServerRun × SharedObject) :
    Traffic :=
  { t with
    object := next.2
    workers := t.workers.set j { w with run := next.1 }
    callers := match t.writer with
      | some i => t.callers.modify i (w.credit j next.1)
      | none => t.callers }

/-- One act. An act that cannot happen changes nothing. -/
def step (t : Traffic) : Act → Traffic
  | .call a poisoned r =>
    if t.admits a poisoned r then
      { t with callers := t.callers ++ [{ client := a, request := r, call := a.start poisoned r }] }
    else t
  | .serve handler =>
    { t with workers := t.workers ++ [{ handler, run := { capacity := t.capacity } }] }
  | .client i expired =>
    match t.callers[i]? with
    | some c => t.afterClient i c (c.call.step expired t.object)
    | none => t
  | .server j expired =>
    match t.workers[j]? with
    | some w => t.afterServer j w (w.run.step w.handler expired t.object)
    | none => t

/-- A list of acts at a new channel. -/
def run (capacity : Nat) (acts : List Act) : Traffic := acts.foldl step (start capacity)

/-! ## What an act can be -/

/-- What one act can be. -/
inductive Step (t : Traffic) : Traffic → Prop
  | stay : Step t t
  | call {a : Attachment} {poisoned : Bool} {r : Request}
      (attached : a.capacity = Attachment.capacityOf t.object)
      (lock : (a.start poisoned r).isOver = true ∨
        ∀ c ∈ t.callers, c.client.lock = a.lock → c.call.isOver = true) :
      Step t { t with
        callers := t.callers ++ [{ client := a, request := r, call := a.start poisoned r }] }
  | serve (handler : Handler) :
      Step t { t with
        workers := t.workers ++ [{ handler, run := { capacity := t.capacity } }] }
  | client {i : Nat} {c : Caller} {next : ClientCall × SharedObject}
      (caller : t.callers[i]? = some c) (move : c.call.Move t.object next) :
      Step t (t.afterClient i c next)
  | server {j : Nat} {w : Worker} {next : ServerRun × SharedObject}
      (worker : t.workers[j]? = some w) (move : w.run.Move w.handler t.object next) :
      Step t (t.afterServer j w next)

theorem step_step (t : Traffic) (x : Act) : Step t (t.step x) := by
  cases x with
  | call a poisoned r =>
    simp only [step]
    split_ifs with h
    · simp only [admits, Bool.and_eq_true, decide_eq_true_eq, Bool.or_eq_true, List.all_eq_true,
        bne_iff_ne] at h
      refine .call h.1 (h.2.imp id fun hall c hc hlock => ?_)
      exact (hall c hc).resolve_left fun hne => hne hlock
    · exact .stay
  | serve handler => exact .serve handler
  | client i expired =>
    simp only [step]
    split
    · next c hc => exact .client hc (c.call.move_step expired t.object)
    · exact .stay
  | server j expired =>
    simp only [step]
    split
    · next w hw => exact .server hw (w.run.move_step w.handler expired t.object)
    · exact .stay

theorem foldl_induction {P : Traffic → Prop} (hstep : ∀ t t', P t → Step t t' → P t')
    (acts : List Act) {t : Traffic} (h : P t) : P (acts.foldl step t) := by
  induction acts generalizing t with
  | nil => exact h
  | cons x acts ih => exact ih (hstep t _ h (step_step t x))

theorem run_induction {P : Traffic → Prop} {capacity : Nat} (hstart : P (start capacity))
    (hstep : ∀ t t', P t → Step t t' → P t') (acts : List Act) : P (run capacity acts) :=
  foldl_induction hstep acts hstart

/-! ## Who is where after an act -/

theorem callers_afterClient {t : Traffic} {i : Nat} {c : Caller}
    {next : ClientCall × SharedObject} (hc : t.callers[i]? = some c) (k : Nat) :
    (t.afterClient i c next).callers[k]? =
      if i = k then some (c.advance next.1) else t.callers[k]? := by
  obtain ⟨hi, -⟩ := List.getElem?_eq_some_iff.1 hc
  by_cases hik : i = k
  · subst hik
    rw [if_pos rfl]
    exact List.getElem?_set_self hi
  · rw [if_neg hik]
    exact List.getElem?_set_ne hik

theorem workers_afterServer {t : Traffic} {j : Nat} {w : Worker}
    {next : ServerRun × SharedObject} (hw : t.workers[j]? = some w) (k : Nat) :
    (t.afterServer j w next).workers[k]? =
      if j = k then some { w with run := next.1 } else t.workers[k]? := by
  obtain ⟨hj, -⟩ := List.getElem?_eq_some_iff.1 hw
  by_cases hjk : j = k
  · subst hjk
    rw [if_pos rfl]
    exact List.getElem?_set_self hj
  · rw [if_neg hjk]
    exact List.getElem?_set_ne hjk

theorem callers_afterServer (t : Traffic) (j : Nat) (w : Worker)
    (next : ServerRun × SharedObject) (k : Nat) :
    (t.afterServer j w next).callers[k]? =
      if t.writer = some k then (t.callers[k]?).map (w.credit j next.1) else t.callers[k]? := by
  unfold afterServer
  cases hwriter : t.writer with
  | none => rfl
  | some i =>
    simp only [List.getElem?_modify, Option.some.injEq]
    split_ifs <;> simp

end Traffic

/-- A client that attaches has found its object under its name, with room for a control block, and
has the capacity that the object shows. -/
theorem Attachment.attach_cases {m : SharedMemory} {name lock : String} {timeoutMs reserved : Nat}
    {mappable : Bool} {a : Attachment}
    (h : Attachment.attach m name timeoutMs reserved lock mappable = .ok a) :
    m.attach name mappable = .ok a.object ∧ dataOffset ≤ (m.object a.object).size ∧
      a.capacity = Attachment.capacityOf (m.object a.object) := by
  unfold Attachment.attach at h
  cases hfound : m.attach name mappable with
  | error e =>
    rw [hfound] at h
    cases h
  | ok i =>
    rw [hfound] at h
    dsimp only at h
    split_ifs at h with hsmall
    cases h
    exact ⟨rfl, Nat.le_of_not_lt hsmall, rfl⟩

/-- Making a channel fails and changes nothing. Or the channel is a new object, at its start, under
a name that led nowhere, and everything else in the memory is as before. -/
theorem Server.create_cases (m : SharedMemory) (name : String) (capacity : Nat)
    (mappable : Bool := true) :
    (∃ e, Server.create m name capacity mappable = (.error e, m)) ∨
      ∃ path m', Server.create m name capacity mappable =
          (.ok ⟨name, m.objects.length, capacity⟩, m') ∧
        SharedMemory.pathOf name = .ok path ∧ m.names.lookup path = none ∧
        m'.objects.length = m.objects.length + 1 ∧
        m'.object m.objects.length = (Traffic.start capacity).object ∧
        (∀ {k : Nat}, k < m.objects.length → m'.object k = m.object k) ∧
        ∀ other, m'.names.lookup other =
          if other = path then some m.objects.length else m.names.lookup other := by
  unfold Server.create
  by_cases hlarge : 4294967296 ≤ capacity
  · exact .inl ⟨.invalidArg, if_pos hlarge⟩
  rw [if_neg hlarge]
  rcases m.create_cases name (objectSize capacity) mappable with
    ⟨e, he⟩ | ⟨path, hpath, hfree, -, hok⟩
  · rw [he]
    exact .inl ⟨e, rfl⟩
  rw [hok]
  have hlength : (m.place path (objectSize capacity)).2.objects.length = m.objects.length + 1 := by
    simp [SharedMemory.place]
  refine .inr ⟨path, _, rfl, hpath, hfree, ?_, ?_, fun {k} hk => ?_, fun other => ?_⟩
  · exact (SharedMemory.length_objects_setObject ..).trans hlength
  · rw [SharedMemory.object_setObject_self _ _ (by rw [hlength]; omega),
      SharedMemory.object_place_self]
    rfl
  · rw [SharedMemory.object_setObject_of_ne _ _ (by omega)]
    exact SharedMemory.object_place m path _ hk
  · exact SharedMemory.lookup_place m path other (objectSize capacity)

end Channel

end ContentDecryption
