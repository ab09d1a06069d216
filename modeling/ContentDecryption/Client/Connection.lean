import ContentDecryption.Client.Notice

/-!
# Connections

A connection opens the transport that the settings name, asks for the accessor of the
service, and from then on hears of it when the service goes away or comes back. While
it is away there is no accessor and every request fails.

Sessions are found through the connection they were made with: by ID, or by a key
that they hold.
-/

namespace ContentDecryption

namespace Client

open Service

/-- The interface that a client asks the transport for (`ACCESSOR_INTERFACE`). -/
def interfaceName : String := "OpenCDMImplementation"

namespace World

variable {σ : Type} (w : World σ)

/-- Whether the service can be reached through a connection (`is_operational`). -/
def isOperational (r : RegistryRef) : Bool := (w.registry r).accessor.isSome

/-- The living sessions of a connection (`live_sessions`). -/
def livingSessions (r : RegistryRef) : List SessionRef := (w.registry r).sessions.living w.isLive

/-- The living session under an ID (`session`). -/
def sessionById? (r : RegistryRef) (id : String) : Option SessionRef :=
  (w.registry r).sessions.find? w.isLive id

/-- What a wait for a key finds in the end, if nothing else happens meanwhile (`wait_for_key`). -/
def waitForKey (r : RegistryRef) (q : KeyQuery) : Option SessionRef :=
  (WaiterStage.noting.settle (w.registry r).signal (w.look r q) true).found?

end World

namespace Action

variable {σ : Type}

/-- The accessor of a connection (`accessor`). -/
def accessor (r : RegistryRef) : Action σ Accessor := do
  match ((← get).registry r).accessor with
  | some a => pure a
  | none => fail .invalidAccessor

/-- Takes one more handle of a session. -/
def holdSession (i : SessionRef) : Action σ Unit :=
  modify fun w => w.setSession i fun s => { s with handles := s.handles + 1 }

/-- The session that a wait for a usable key finds, with one more handle (`find_session`). -/
def findSession (r : RegistryRef) (id : Bytes) (system : Option SystemRef) :
    Action σ (Option SessionRef) := do
  match (← get).waitForKey r ⟨id, .usable, system⟩ with
  | none => pure none
  | some i =>
    holdSession i
    pure (some i)

/-- Starts to wait for a key. -/
def startWaiting (r : RegistryRef) (q : KeyQuery) : Action σ Nat := do
  let n := (← get).waiters.length
  modify fun w => { w with waiters := w.waiters ++ [{ registry := r, query := q }] }
  modify fun w => w.runWaiters r false
  pure n

variable [Service σ]

/-- Waits to the end. -/
def finishWaiting (i : Nat) : Action σ (Option SessionRef) := do
  modify fun w => w.setWaiter i fun x =>
    let signal := (w.registry x.registry).signal
    { x with stage := x.stage.settle signal (w.look x.registry x.query) true }
  closeUnused
  pure ((← get).waiter i).stage.found?

/-- Connects to the service with the transform for clear samples given (`connect_with`). -/
def connectWith (settings : Settings) (transform : ClearTransform) : Action σ RegistryRef := do
  if !(← ask (.openConnection settings.rpcTimeoutMs settings.connector interfaceName)) then
    fail .invalidAccessor
  match ← ask .accessor with
  | none =>
    ask (.closeConnection settings.rpcTimeoutMs)
    fail .invalidAccessor
  | some a =>
    let r := (← get).registries.length
    modify fun w => { w with
      registries := w.registries ++ [{ accessor := some a, transform, settings }]
      subscriber := some r }
    pure r

/-- Connects to the service with the transform of the library that the settings name, if they name
one (`connect`). It is loaded before the service is asked anything. -/
def connect (settings : Settings) : Action σ RegistryRef := do
  let transform ← match settings.secureBufferLibrary with
    | some path => ofResult (ClearTransform.load (← get).libraries path)
    | none => pure .identity
  connectWith settings transform

/-- The service comes or goes (`operational`). -/
def changeConnection (up : Bool) : Action σ Unit := do
  modify fun w => { w with service := Service.setConnected up w.service }
  let w ← get
  match w.subscriber with
  | none => pure ()
  | some r =>
    if (w.registry r).isOpen then
      let a : Option Accessor ← if up then ask .accessor else pure none
      modify fun w => w.setRegistry r fun x => { x with accessor := a }

/-- Whether the service supports a type of media in a key system (`is_type_supported`). -/
def isTypeSupported (r : RegistryRef) (keySystem mimeType : String) : Action σ Unit := do
  let _ ← accessor r
  ofStatus (← ask (.isTypeSupported keySystem mimeType))

/-- What the service says of a key system (`metadata`). -/
def metadata (r : RegistryRef) (keySystem : String) : Action σ String := do
  let _ ← accessor r
  ofReply (← ask (.metadata keySystem))

/-- Takes a key system into use (`create_system`). A service that has nothing to say of it is no
failure. -/
def createSystem (r : RegistryRef) (keySystem : String) : Action σ SystemRef := do
  let _ ← accessor r
  let status : Status ← ask (.isTypeSupported keySystem "")
  if status ≠ Status.none then fail .keySystemNotSupported
  let description : Reply String ← ask (.metadata keySystem)
  let metadata := description.toOption.getD ""
  let i := (← get).systems.length
  modify fun w => { w with systems := w.systems ++ [{ registry := r, keySystem, metadata }] }
  pure i

end Action

end Client

end ContentDecryption
