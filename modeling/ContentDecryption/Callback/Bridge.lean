import ContentDecryption.Callback.Event

/-!
# Callback bridges

A session may have events for its application before the application has a handle
to it. A bridge stands between the two: it keeps events back until it is attached to
the handle, then hands them out, and each later event at once, until it is detached.

Detaching has to wait for callbacks that run on other threads, since they use the
handle that is about to go. A callback that itself gives the handle up is not waited
for.

Each function here is one step that no other thread can divide.
-/

namespace ContentDecryption

/-- A handle to a session that the application holds (`OpenCDMSession`). -/
abbrev HandleRef := Nat

/-- A thread of the application or of a service. -/
abbrev ThreadRef := Nat

namespace Callback

/-- Where the events of a session go (`Target`). -/
inductive Target
  /-- There is no handle yet: the events so far. -/
  | pending (queue : List SessionEvent)
  | attached (handle : HandleRef)
  | detached
  deriving Repr, DecidableEq

/-- The way of events from a session to the callbacks of its application (`CallbackBridge`). -/
structure Bridge where
  /-- What the application calls the session. -/
  name : String
  /-- The callbacks that the application has given. -/
  callbacks : List EventKind
  /-- The callback that gives the handle up, if any. -/
  releasesOn : Option EventKind := none
  target : Target := .pending []
  /-- The threads inside a callback, once for each callback. -/
  delivering : List ThreadRef := []
  deriving Repr, DecidableEq

namespace Bridge

/-- Takes an event from `thread` (the lock in `dispatch`). If there is a handle, the thread is from
now on inside a callback with it. -/
def offer (b : Bridge) (thread : ThreadRef) (e : SessionEvent) : Option HandleRef × Bridge :=
  match b.target with
  | .pending queue => (none, { b with target := .pending (queue ++ [e]) })
  | .attached handle => (some handle, { b with delivering := thread :: b.delivering })
  | .detached => (none, b)

/-- A callback on `thread` returns (the end of an `InFlight`). -/
def leave (b : Bridge) (thread : ThreadRef) : Bridge :=
  { b with delivering := b.delivering.erase thread }

/-- Gives the bridge its handle, and the events that were kept back to the caller (the lock in
`attach`). -/
def attach (b : Bridge) (handle : HandleRef) : List SessionEvent × Bridge :=
  let queue := match b.target with
    | .pending queue => queue
    | _ => []
  (queue, { b with target := .attached handle })

/-- No event is handed out from now on (`detach`, before it waits). -/
def detach (b : Bridge) : Bridge := { b with target := .detached }

/-- Whether a thread that has detached the bridge may go on: no other is inside a callback (what
`detach` waits for). -/
def isQuiet (b : Bridge) (thread : ThreadRef) : Bool := b.delivering.all fun t => t == thread

/-- What the callback for an event is called with, if there is one (`deliver`). -/
def invocation? (b : Bridge) (e : SessionEvent) : Option SessionEvent :=
  if b.callbacks.contains e.kind then e.forCallback? else none

end Bridge

end Callback

end ContentDecryption
