import ContentDecryption.Client.SessionTable
import ContentDecryption.Sample.KeyId
import ContentDecryption.Sample.KeyStatus

/-!
# Waiting for keys

A waiter wants a session that reports a given status for a key. It looks through the
sessions, and if none does, sleeps until some key changes.

Each change moves a generation on. A waiter notes the generation before it looks and
sleeps only while it is still the same, so a change that falls between its look and
its sleep wakes it at once.
-/

namespace ContentDecryption

/-- The number of key changes so far, modulo 2^64 (the `generation` of `KeySignal`). -/
structure KeySignal where
  generation : UInt64 := 0
  deriving Repr, DecidableEq

namespace KeySignal

/-- Some key has changed (`notify`). -/
def notify (s : KeySignal) : KeySignal := ⟨s.generation + 1⟩

end KeySignal

/-- What a waiter wants: a session, perhaps of one system only, in which the key has this status
(the arguments of `wait_for_session`). -/
structure KeyQuery where
  keyId : Bytes
  wanted : KeyStatus
  system : Option Nat
  deriving Repr, DecidableEq

/-- Where a waiter stands (the stages of `wait_for_session`). -/
inductive WaiterStage
  /-- about to note the generation -/
  | noting
  /-- about to look, with this generation noted -/
  | looking (seen : UInt64)
  /-- asleep until the generation is another one -/
  | asleep (seen : UInt64)
  | finished (found : Option SessionRef)
  deriving Repr, DecidableEq

namespace WaiterStage

/-- One step of a waiter. `look` is the session that a look would find now, and `expired` says
whether the deadline has passed. -/
def step (signal : KeySignal) (look : Option SessionRef) (expired : Bool) :
    WaiterStage → WaiterStage
  | noting => looking signal.generation
  | looking seen =>
    match look with
    | some s => finished (some s)
    | none => if expired then finished none else asleep seen
  | asleep seen => if signal.generation ≠ seen ∨ expired then noting else asleep seen
  | finished found => finished found

/-- As many steps as bring a waiter to sleep again or to its end, as long as nothing changes. -/
def settle (signal : KeySignal) (look : Option SessionRef) (expired : Bool)
    (stage : WaiterStage) : WaiterStage :=
  step signal look expired (step signal look expired (step signal look expired stage))

/-- Whether the waiter still wants something. -/
def isWaiting : WaiterStage → Bool
  | finished _ => false
  | _ => true

/-- What the waiter has found. -/
def found? : WaiterStage → Option SessionRef
  | finished found => found
  | _ => none

end WaiterStage

end ContentDecryption
