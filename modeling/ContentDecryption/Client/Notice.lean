import ContentDecryption.Client.Lifetime

/-!
# Notices

What a client makes of the notices of a service. A key status goes into the ledger
of the session before anybody is told, and those who wait for a key are woken after
that. Pending statuses are nobody else's business.

A callback may give its own handle up. The event it was called for has been
delivered by then; later ones are not. Whoever brings a notice holds the sink while
it is taken in, and with it the connection: even if the callback has given up the
last thing that needed the connection, it is closed only afterwards.
-/

namespace ContentDecryption

namespace Client

open Service

/-- The thread on which a client acts. -/
def clientThread : ThreadRef := 0

/-- A thread of the service. -/
def serviceThread : ThreadRef := 1

namespace World

variable {σ : Type} (w : World σ)

/-- The living sessions of a connection that answer a query, in the order of registration. -/
def answering (r : RegistryRef) (q : KeyQuery) : List SessionRef :=
  ((w.registry r).sessions.living w.isLive).filter fun i =>
    q.system.all (fun x => x == (w.session i).system)
      && (w.sink (w.session i).sink).keys.status q.keyId == q.wanted

/-- The session that a look for a key finds (`scan`). -/
def look (r : RegistryRef) (q : KeyQuery) : Option SessionRef := (w.answering r q).head?

/-- Those who wait at a connection go on as far as they can. -/
def runWaiters (r : RegistryRef) (expired : Bool) : World σ :=
  { w with waiters := w.waiters.map fun x =>
      if x.registry = r then
        { x with stage := x.stage.settle (w.registry r).signal (w.look r x.query) expired }
      else x }

/-- Some key has changed: those who wait look again. -/
def notifyKeys (r : RegistryRef) : World σ :=
  (w.setRegistry r fun x => { x with signal := x.signal.notify }).runWaiters r false

end World

namespace Action

variable {σ : Type} [Service σ]

/-- Calls the callback for an event, if there is one (`deliver`). -/
def deliver (h : HandleRef) (b : BridgeRef) (e : SessionEvent) : Action σ Unit := do
  let w ← get
  let bridge := w.bridge b
  match bridge.invocation? e with
  | none => pure ()
  | some e =>
    record (.called bridge.name h (w.handle h).id e)
    if bridge.releasesOn = some e.kind then
      let status ← guarded (dropHandle h)
      record (.released bridge.name status)

/-- Passes an event to a bridge (`dispatch`). -/
def dispatch (b : BridgeRef) (e : SessionEvent) : Action σ Unit := do
  let (handle, bridge) := ((← get).bridge b).offer clientThread e
  modify fun w => w.setBridge b fun _ => bridge
  match handle with
  | none => pure ()
  | some h =>
    deliver h b e
    modify fun w => w.setBridge b fun x => x.leave clientThread

/-- Tells the listener of a session (the `callbacks` of `SessionEvents`). -/
def announce (k : SinkRef) (e : SessionEvent) : Action σ Unit := do
  match ((← get).sink k).listener with
  | .nobody => pure ()
  | .journal name => record (.told name e)
  | .bridge b => dispatch b e

/-- Takes a key status in (`on_key_status_update`). -/
def learnKey (k : SinkRef) (id : Bytes) (status : KeyStatus) : Action σ Unit :=
  modify fun w => w.setSink k fun s => { s with keys := s.keys.report id status }

/-- Wakes those who wait for a key of this session's connection (`key_update`). -/
def signalKeys (k : SinkRef) : Action σ Unit :=
  modify fun w => w.notifyKeys (w.sink k).registry

/-- Does something while one more holds a connection. -/
def holding (r : RegistryRef) (a : Action σ Unit) : Action σ Unit := do
  modify fun w => w.setRegistry r fun x => { x with handles := x.handles + 1 }
  andThen a (dropRegistry r)

/-- What a notice brings (the methods of `SessionEvents`). -/
def takeIn (k : SinkRef) : Notice → Action σ Unit
  | .message url challenge => announce k (.challenge url challenge)
  | .keyStatus id status => do
    learnKey k id status
    if !status.isPending then announce k (.keyUpdated id)
    signalKeys k
  | .keyStatusesComplete => announce k .keysUpdated
  | .error error systemError message => do
    modify fun w => w.setSink k fun s => { s with lastError := some ⟨error, systemError, message⟩ }
    announce k (.error message)

/-- Takes a notice in. -/
def receive (k : SinkRef) (n : Notice) : Action σ Unit := do
  holding ((← get).sink k).registry (takeIn k n)

/-- Takes notices in, in order. -/
def receiveAll (l : List Delivery) : Action σ Unit := l.forM fun d => receive d.1 d.2

/-- Attaches a bridge to its handle, and delivers what it has kept back (`attach`). -/
def attachBridge (b : BridgeRef) (h : HandleRef) : Action σ Unit := do
  let (queue, bridge) := ((← get).bridge b).attach h
  modify fun w => w.setBridge b fun _ => bridge
  queue.forM (deliver h b)

/-! ## Callbacks on a thread of the service -/

/-- The callback for an event starts on a thread of the service, if there is one to call. Says
through which bridge. -/
def enterCallback (k : SinkRef) (e : SessionEvent) : Action σ (Option BridgeRef) := do
  match ((← get).sink k).listener with
  | .bridge b =>
    let (handle, bridge) := ((← get).bridge b).offer serviceThread e
    match handle, bridge.invocation? e with
    | some h, some e =>
      modify fun w => w.setBridge b fun _ => bridge
      record (.called bridge.name h ((← get).handle h).id e)
      pure (some b)
    | _, _ => pure none
  | _ => pure none

/-- The callback on a thread of the service returns. -/
def leaveCallback (b : BridgeRef) : Action σ Unit := do
  record (.callbackReturned ((← get).bridge b).name)
  modify fun w => w.setBridge b fun x => x.leave serviceThread

/-- Gives a handle up, under the name given, while the callback for a key runs on a thread of the
service. If the callback runs with this very handle it returns first; otherwise nobody waits for
it. The end of the batch is told to those who are still there. -/
def dropHandleDuringCallback (h : HandleRef) (name : String) (id : Bytes) (status : KeyStatus) :
    Action σ Status := do
  let w ← get
  let x := w.handle h
  let k := (w.session x.session).sink
  let r := (w.sink k).registry
  modify fun w => w.setRegistry r fun x => { x with handles := x.handles + 1 }
  learnKey k id status
  let running ← enterCallback k (.keyUpdated id)
  let (waited, apart) := running.toList.partition fun b => x.bridge == some b
  waited.forM leaveCallback
  let status ← guarded (dropHandle h)
  record (.releaseReturned name)
  apart.forM leaveCallback
  signalKeys k
  announce k .keysUpdated
  dropRegistry r
  pure status

end Action

end Client

end ContentDecryption
