import ContentDecryption.Boundary.Call
import ContentDecryption.Proofs.Client.Exec

/-!
# What a call returns

A call across the boundary runs an action and tells its end in words. The lemmas here say for
each kind of call what it returns when its action comes to its end, and when it fails.

Main results:

* `Call.run_status_of_ok`, `Call.run_valueOr_of_ok`, `Call.run_statusAnd_of_ok`,
  `Call.run_fill_of_ok`, and the same with `of_error`;
* `Call.run_status_of_ofStatus`: a status of the service is told as it is;
* `bytesAt_cases`: what a pointer and a length may stand for.
-/

namespace ContentDecryption

namespace Boundary

open Client

/-- What a pointer and a length stand for can only fail as an invalid argument. -/
theorem bytesAt_cases (p : Pointer) (length : Nat) :
    bytesAt p length = .error .invalidArg ∨ ∃ b, bytesAt p length = .ok b := by
  unfold bytesAt
  split
  · exact .inr ⟨_, rfl⟩
  · cases p with
    | none => exact .inl rfl
    | some b => exact .inr ⟨_, rfl⟩

theorem exists_bytes_of_map {p : Pointer} {length : Nat} {α : Type} {f : Bytes → α} {x : α}
    (h : (bytesAt p length).map f = .ok x) : ∃ b, bytesAt p length = .ok b ∧ f b = x := by
  rcases bytesAt_cases p length with hb | ⟨b, hb⟩
  · rw [hb] at h
    cases h
  · rw [hb] at h
    cases h
    exact ⟨b, hb, rfl⟩

/-- A call that goes on with the end of an action. -/
theorem run_bind {σ α β : Type} (a : Action σ α) (f : Except Failure α → Call σ β) (w : World σ) :
    (a.run >>= f : Call σ β) w = f (a.exec w).1 (a.exec w).2 := rfl

namespace Call

variable {σ α : Type} {w w' : World σ} {f : Failure}

theorem run_status_of_ok {a : Action σ Unit} {x : Unit} (h : a.exec w = (.ok x, w')) :
    (status a).run w = (Status.none, w') := by
  rw [status, StateT.run_bind, show a.run.run w = _ from h]
  rfl

theorem run_status_of_error {a : Action σ Unit} (h : a.exec w = (.error f, w')) :
    (status a).run w = (f.status, w') := by
  rw [status, StateT.run_bind, show a.run.run w = _ from h]
  rfl

/-- An action that ends with what a status says is told as this status. -/
theorem run_status_of_ofStatus {a : Action σ Unit} {s : Status}
    (h : a.exec w = ((Error.ofStatus s).mapError .error, w')) : (status a).run w = (s, w') := by
  have hcode := Error.statusOf_ofStatus s
  cases hs : Error.ofStatus s with
  | ok _ =>
    rw [hs] at h hcode
    rw [run_status_of_ok h, ← hcode]
    rfl
  | error e =>
    rw [hs] at h hcode
    rw [run_status_of_error h, ← hcode]
    rfl

theorem run_valueOr_of_ok {a : Action σ α} {x : α} (h : a.exec w = (.ok x, w')) (fallback : α) :
    (valueOr fallback a).run w = (x, w') := by
  rw [valueOr, StateT.run_bind, show a.run.run w = _ from h]
  rfl

theorem run_valueOr_of_error {a : Action σ α} (h : a.exec w = (.error f, w')) (fallback : α) :
    (valueOr fallback a).run w = (fallback, w') := by
  rw [valueOr, StateT.run_bind, show a.run.run w = _ from h]
  rfl

theorem run_statusAnd (fallback : α) (a : Action σ α) (w : World σ) :
    (statusAnd fallback a).run w =
      (match (a.exec w).1 with
        | .ok x => (Status.none, x)
        | .error f => (f.status, fallback), (a.exec w).2) := by
  show (match (a.exec w).1 with
    | .ok x => pure (Status.none, x)
    | .error f => pure (f.status, fallback) : Call σ _).run (a.exec w).2 = _
  cases (a.exec w).1 <;> rfl

theorem run_statusAnd_of_ok {a : Action σ α} {x : α} (h : a.exec w = (.ok x, w'))
    (fallback : α) : (statusAnd fallback a).run w = ((Status.none, x), w') := by
  rw [run_statusAnd, h]

theorem run_statusAnd_of_error {a : Action σ α} (h : a.exec w = (.error f, w'))
    (fallback : α) : (statusAnd fallback a).run w = ((f.status, fallback), w') := by
  rw [run_statusAnd, h]

theorem run_fill_of_ok {a : Action σ Bytes} {value : Bytes} (h : a.exec w = (.ok value, w'))
    (b : Buffer) :
    (fill b a).run w = ((Error.statusOf (b.put value).1, (b.put value).2), w') := by
  rw [fill, StateT.run_bind, show a.run.run w = _ from h]
  rfl

theorem run_fill_of_error {a : Action σ Bytes} (h : a.exec w = (.error f, w')) (b : Buffer) :
    (fill b a).run w = ((f.status, b), w') := by
  rw [fill, StateT.run_bind, show a.run.run w = _ from h]
  rfl

/-! Whatever comes of an action, the call leaves the world that the action leaves. -/

theorem world_status (a : Action σ Unit) (w : World σ) : ((status a).run w).2 = (a.exec w).2 := by
  rcases h : a.exec w with ⟨f | _, w'⟩
  · rw [run_status_of_error h]
  · rw [run_status_of_ok h]

theorem world_valueOr (fallback : α) (a : Action σ α) (w : World σ) :
    ((valueOr fallback a).run w).2 = (a.exec w).2 := by
  rcases h : a.exec w with ⟨f | x, w'⟩
  · rw [run_valueOr_of_error h]
  · rw [run_valueOr_of_ok h]

theorem world_fill (b : Buffer) (a : Action σ Bytes) (w : World σ) :
    ((fill b a).run w).2 = (a.exec w).2 := by
  rcases h : a.exec w with ⟨f | value, w'⟩
  · rw [run_fill_of_error h]
  · rw [run_fill_of_ok h]

end Call

end Boundary

end ContentDecryption
