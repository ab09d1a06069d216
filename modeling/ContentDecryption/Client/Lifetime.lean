import ContentDecryption.Client.Action

/-!
# Giving things up

A session goes with its last handle. It leaves the table of its connection, the
service is told that no more notices are wanted, and the service may forget it. A
connection that nothing depends on any more is closed. One step of this failing
does not keep the others from being taken.
-/

namespace ContentDecryption

namespace Client

open Service

namespace Action

variable {σ : Type} [Service σ]

/-- Closes a connection that nothing depends on (the `drop` of `RegistryInner`). -/
def closeIfUnused (r : RegistryRef) : Action σ Unit := do
  let w ← get
  let x := w.registry r
  if x.isOpen && !w.isReferenced r then
    set (w.setRegistry r fun x => { x with isOpen := false, accessor := none })
    ask (.closeConnection x.settings.rpcTimeoutMs)

/-- Closes every connection that nothing depends on. -/
def closeUnused : Action σ Unit := do
  (List.range (← get).registries.length).forM closeIfUnused

/-- Ends a session that has lost its last handle (the `drop` of `SessionInner`). -/
def endSession (i : SessionRef) : Action σ Unit := do
  let s := (← get).session i
  modify fun w => w.setRegistry s.registry fun r =>
    { r with sessions := r.sessions.unregister s.id i }
  andThen (ask (.session s.remote (.revoke s.sink))) do
    modify fun w =>
      let (service, memory) := Service.release s.remote w.service w.memory
      { w with service, memory }
    closeUnused

/-- Gives one handle of a session up. -/
def dropSession (i : SessionRef) : Action σ Unit := do
  modify fun w => w.setSession i fun s => { s with handles := s.handles - 1 }
  if !(← get).isLive i then endSession i

/-- Gives one handle of a system up (the `drop` of `SystemInner` with the last). -/
def dropSystem (i : SystemRef) : Action σ Unit := do
  modify fun w => w.setSystem i fun s => { s with handles := s.handles - 1 }
  closeUnused

/-- Gives one handle of a connection up. -/
def dropRegistry (i : RegistryRef) : Action σ Unit := do
  modify fun w => w.setRegistry i fun r => { r with handles := r.handles - 1 }
  closeUnused

/-- Gives an application's handle up: no callback is called with it from now on (the `drop` of
`OpenCDMSession`). -/
def dropHandle (h : HandleRef) : Action σ Unit := do
  let x := (← get).handle h
  if x.live then
    modify fun w => w.setHandle h fun x => { x with live := false }
    match x.bridge with
    | some b => modify fun w => w.setBridge b Callback.Bridge.detach
    | none => pure ()
    dropSession x.session

end Action

end Client

end ContentDecryption
