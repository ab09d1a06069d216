import ContentDecryption.Boundary.Buffer
import ContentDecryption.Client.Playback

/-!
# Calls across the boundary

Applications that cannot share the types of this library call it through plain
functions. Such a function takes pointers and words, and returns a status. Nothing
escapes it: an error is returned as its code, and a service that gives up in the
middle of a request counts as the general failure.

Everything goes through the connection that has been installed. Handles keep to the
connection they were made through.
-/

namespace ContentDecryption

namespace Boundary

open Client Client.Action

/-- A call across the boundary. -/
abbrev Call (σ : Type) := StateM (World σ)

namespace Call

variable {σ : Type} {α : Type}

/-- Returns the status of an action (`guard`). -/
def status (a : Action σ Unit) : Call σ Status := do
  match ← a.run with
  | .ok _ => pure Status.none
  | .error f => pure f.status

/-- Returns the value of an action, or a fixed one if it fails. -/
def valueOr (fallback : α) (a : Action σ α) : Call σ α := do
  match ← a.run with
  | .ok x => pure x
  | .error _ => pure fallback

/-- Returns the value of an action and the status, or a fixed value and the status of the
failure. -/
def statusAnd (fallback : α) (a : Action σ α) : Call σ (Status × α) := do
  match ← a.run with
  | .ok x => pure (Status.none, x)
  | .error f => pure (f.status, fallback)

/-- Puts the value of an action into the caller's buffer. -/
def fill (b : Buffer) (a : Action σ Bytes) : Call σ (Status × Buffer) := do
  match ← a.run with
  | .error f => pure (f.status, b)
  | .ok value =>
    let (result, b) := b.put value
    pure (Error.statusOf result, b)

end Call

/-! ## The installed connection -/

section

variable {σ : Type}

/-- The connection that calls go through (`registry`). -/
def installed : Action σ RegistryRef := do
  match (← get).installed with
  | some r => pure r
  | none => fail .invalidAccessor

variable [Service σ]

/-- Hands the connection that is held over to the calls, in place of the one before (`install`).
Says whether there was one. -/
def install (r : RegistryRef) : Action σ Bool := do
  let before := (← get).installed
  modify fun w => { w with installed := some r }
  dropRegistry r
  pure before.isSome

/-- Takes the connection away from the calls (`uninstall`). Says whether there was one. -/
def uninstall : Action σ Bool := do
  let before := (← get).installed
  modify fun w => { w with installed := none }
  closeUnused
  pure before.isSome

end

end Boundary

end ContentDecryption
