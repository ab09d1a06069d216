import ContentDecryption.Callback.Bridge
import ContentDecryption.Caps
import ContentDecryption.Client.KeyLedger
import ContentDecryption.Client.KeySignal
import ContentDecryption.Client.Transform
import ContentDecryption.IdSource
import ContentDecryption.Service.Basic
import ContentDecryption.Settings

/-!
# The state of a client

Everything that a client process knows: its connections, the systems and sessions it
has made, the sinks through which the service tells it about them, and next to it
the service and the memory they share.

Things are numbered in the order of their making and never forgotten. What may be
given up counts its handles and is gone when the last one is. A connection has no
say in that: it lasts as long as anything that was made through it.
-/

namespace ContentDecryption

namespace Client

open Service

/-- A connection to the service. -/
abbrev RegistryRef := Nat

/-- A key system in use. -/
abbrev SystemRef := Nat

/-- The bridge between a session and the callbacks of an application. -/
abbrev BridgeRef := Nat

/-- A connection, and the sessions made through it (`RegistryInner`). -/
structure Registry where
  /-- How many hold the connection itself. -/
  handles : Nat := 1
  isOpen : Bool := true
  /-- The way to the service, while it can be reached. -/
  accessor : Option Accessor := none
  sessions : SessionTable := []
  signal : KeySignal := {}
  transform : ClearTransform := .identity
  settings : Settings

/-- A key system in use (`SystemInner`). -/
structure System where
  handles : Nat := 1
  registry : RegistryRef := 0
  keySystem : String := ""
  /-- What the service said of the key system at the start. -/
  metadata : String := ""
  deriving Repr, DecidableEq

/-- Who is told about a session (`SessionCallbacks`). -/
inductive Listener
  | nobody
  /-- a journal, under this name -/
  | journal (name : String)
  | bridge (b : BridgeRef)
  deriving Repr, DecidableEq

/-- The last error that the service reported for a session (`SessionError`). -/
structure SessionError where
  error : Int16
  systemError : Status
  message : String
  deriving Repr, DecidableEq

/-- Where the notices about one session arrive (`SessionEvents`). -/
structure Sink where
  registry : RegistryRef := 0
  keys : KeyLedger := []
  lastError : Option SessionError := none
  listener : Listener := .nobody
  deriving Repr, DecidableEq

/-- A session of the client (`SessionInner`). -/
structure Session where
  handles : Nat := 1
  id : String := ""
  bufferId : String := ""
  keySystem : String := ""
  registry : RegistryRef := 0
  system : SystemRef := 0
  /-- The number by which the service knows the session. -/
  remote : Nat := 0
  extended : Bool := false
  sink : SinkRef := 0
  /-- The client's end of the decrypt channel, once a sample was decrypted. -/
  attachment : Option Channel.Attachment := none
  caps : CapsParser := .empty
  deriving Repr

/-- A session as an application holds it: with texts that end at a zero byte (`OpenCDMSession`). -/
structure Handle where
  session : SessionRef := 0
  id : String := ""
  bufferId : String := ""
  bridge : Option BridgeRef := none
  live : Bool := true
  deriving Repr, DecidableEq

/-- Somebody who waits for a key (a call of `wait_for_session`). -/
structure Waiter where
  registry : RegistryRef := 0
  query : KeyQuery := ⟨[], .usable, none⟩
  stage : WaiterStage := .noting
  deriving Repr, DecidableEq

/-- What a journal says. -/
inductive Entry
  /-- The service was asked this. -/
  | asked (request : Request)
  /-- A listener was told this. -/
  | told (name : String) (event : SessionEvent)
  /-- A callback was called with this handle, which is to the session with this ID. -/
  | called (name : String) (handle : HandleRef) (session : String) (event : SessionEvent)
  /-- A callback gave its own handle up, with this status. -/
  | released (name : String) (status : Status)
  /-- A callback on another thread has returned. -/
  | callbackReturned (name : String)
  /-- Giving up a handle while that callback ran has returned. -/
  | releaseReturned (name : String)
  deriving Repr, DecidableEq

/-- A client process, the service, and the memory they share. -/
structure World (σ : Type) where
  service : σ
  memory : SharedMemory := {}
  libraries : Libraries := []
  /-- Where the identifiers of key systems in use come from. -/
  identifiers : IdSource := .counting
  registries : List Registry := []
  systems : List System := []
  sinks : List Sink := []
  sessions : List Session := []
  bridges : List Callback.Bridge := []
  handles : List Handle := []
  waiters : List Waiter := []
  /-- The connection that hears of it when the service comes or goes. -/
  subscriber : Option RegistryRef := none
  /-- The connection that applications use. -/
  installed : Option RegistryRef := none
  /-- What was written down, last first. -/
  journal : List Entry := []

namespace World

variable {σ : Type} (w : World σ)

def registry (i : RegistryRef) : Registry :=
  w.registries.getD i { handles := 0, isOpen := false, settings := .ofEnvironment none }

def system (i : SystemRef) : System := w.systems.getD i {}
def sink (i : SinkRef) : Sink := w.sinks.getD i {}
def session (i : SessionRef) : Session := w.sessions.getD i {}
def bridge (i : BridgeRef) : Callback.Bridge := w.bridges.getD i { name := "", callbacks := [] }
def handle (i : HandleRef) : Handle := w.handles.getD i {}
def waiter (i : Nat) : Waiter := w.waiters.getD i {}

def setRegistry (i : RegistryRef) (f : Registry → Registry) : World σ :=
  { w with registries := w.registries.modify i f }

def setSystem (i : SystemRef) (f : System → System) : World σ :=
  { w with systems := w.systems.modify i f }

def setSink (i : SinkRef) (f : Sink → Sink) : World σ := { w with sinks := w.sinks.modify i f }

def setSession (i : SessionRef) (f : Session → Session) : World σ :=
  { w with sessions := w.sessions.modify i f }

def setBridge (i : BridgeRef) (f : Callback.Bridge → Callback.Bridge) : World σ :=
  { w with bridges := w.bridges.modify i f }

def setHandle (i : HandleRef) (f : Handle → Handle) : World σ :=
  { w with handles := w.handles.modify i f }

def setWaiter (i : Nat) (f : Waiter → Waiter) : World σ :=
  { w with waiters := w.waiters.modify i f }

/-- Whether somebody holds the session. -/
def isLive (i : SessionRef) : Bool := w.sessions[i]?.any fun s => decide (0 < s.handles)

/-- Whether anything depends on a connection. -/
def isReferenced [Service σ] (r : RegistryRef) : Bool :=
  w.registries[r]?.any (fun x => decide (0 < x.handles))
    || w.installed == some r
    || w.systems.any (fun s => decide (0 < s.handles) && s.registry == r)
    || w.sessions.any (fun s => decide (0 < s.handles) && s.registry == r)
    || w.waiters.any (fun x => x.stage.isWaiting && x.registry == r)
    || (Service.sinks w.service).any (fun k => (w.sink k).registry == r)

end World

end Client

end ContentDecryption
