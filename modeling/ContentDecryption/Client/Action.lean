import ContentDecryption.Client.World

/-!
# Actions of a client

What a client does changes its world and may fail. A failure leaves the world as it
is at that moment. It is an error of the call, or the service has given up in the
middle of a request.
-/

namespace ContentDecryption

namespace Client

open Service

/-- How an action ends early (an error, or a panic that `guard` catches). -/
inductive Failure
  | error (e : Error)
  /-- The service gave up in the middle of a request. -/
  | aborted
  deriving Repr, DecidableEq

/-- The status that stands for a failure (`code`, and what `guard` makes of a panic). -/
def Failure.status : Failure → Status
  | .error e => e.code
  | .aborted => Status.fail

/-- Something that a client does. -/
abbrev Action (σ : Type) := ExceptT Failure (StateM (World σ))

namespace Action

variable {σ : Type} {α : Type}

def fail (e : Error) : Action σ α := throw (.error e)

/-- Goes on with the value of a result. -/
def ofResult : Except Error α → Action σ α
  | .ok a => pure a
  | .error e => fail e

/-- Goes on if a status is a success (`from_status`). -/
def ofStatus (s : Status) : Action σ Unit := ofResult (Error.ofStatus s)

/-- Goes on with the value that the service has answered (`remote_error`). -/
def ofReply : Reply α → Action σ α
  | .ok a => pure a
  | .error s => fail (Error.ofFailure s)

/-- Asks the service, and writes that down if a journal is kept. -/
def ask [Service σ] (r : Request) : Action σ r.Answer := do
  let w ← get
  let x := Service.respond r w.service w.memory
  let journal := if Service.recorded w.service then .asked r :: w.journal else w.journal
  set { w with service := x.service, memory := x.memory, journal }
  match x.answer with
  | some a => pure a
  | none => throw .aborted

/-- Writes an entry into the journal. -/
def record (e : Entry) : Action σ Unit := modify fun w => { w with journal := e :: w.journal }

/-- Does something to its end, however it ends. -/
def attempt (a : Action σ α) : Action σ (Except Failure α) := ExceptT.mk (Except.ok <$> a.run)

/-- The status that something ends with. -/
def guarded (a : Action σ Unit) : Action σ Status := do
  match ← attempt a with
  | .ok _ => pure Status.none
  | .error f => pure f.status

/-- Does the second also when the first fails. The first failure counts. -/
def andThen (first second : Action σ Unit) : Action σ Unit := do
  match ← attempt first with
  | .ok _ => second
  | .error f =>
    let _ ← attempt second
    throw f

end Action

end Client

end ContentDecryption
