/-!
# Key statuses

What a service reports about a key. A key that was never reported counts as
pending.
-/

namespace ContentDecryption

/-- The state of a key in a session (`KeyStatus`). -/
inductive KeyStatus
  | usable
  | expired
  | released
  | outputRestricted
  | outputRestrictedHdcp22
  | outputDownscaled
  | statusPending
  | internalError
  | hwError
  deriving Repr, DecidableEq

namespace KeyStatus

/-- The word that stands for the status. -/
def raw : KeyStatus → UInt32
  | usable => 0
  | expired => 1
  | released => 2
  | outputRestricted => 3
  | outputRestrictedHdcp22 => 4
  | outputDownscaled => 5
  | statusPending => 6
  | internalError => 7
  | hwError => 8

/-- The status that a word stands for (`from_raw`). -/
def ofRaw? (w : UInt32) : Option KeyStatus :=
  [usable, expired, released, outputRestricted, outputRestrictedHdcp22, outputDownscaled,
    statusPending, internalError, hwError].find? fun s => s.raw == w

/-- Whether the key is still being waited for (`is_pending`). -/
def isPending (s : KeyStatus) : Bool := s == statusPending

/-- Whether the status is a failure of the key itself (`is_error`). -/
def isError : KeyStatus → Bool
  | internalError => true
  | hwError => true
  | _ => false

/-- The error value of a key in this status: zero for a key without error (`key_error`). -/
def errorValue (s : KeyStatus) : UInt32 := if s.isError then s.raw else 0

theorem ofRaw?_raw (s : KeyStatus) : ofRaw? s.raw = some s := by
  cases s <;> decide

end KeyStatus

end ContentDecryption
