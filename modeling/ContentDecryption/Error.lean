import ContentDecryption.SystemError

/-!
# Statuses and errors

A service answers every call with a 32-bit status, zero for success. Inside the
library a failure is an `Error`, one constructor a cause. `Error.ofStatus` and
`Error.code` lead from one to the other: the statuses with a cause of their own
map to it, every other one is kept in `Error.remote`.

A name in parentheses in the comment on a definition, here and in all other modules,
such as (`from_status`), is the one that the content decryption library itself uses.

Main statements:

* `Error.code_of_ofStatus`: an error made of a status has that status as its code;
* `Error.ofStatus_eq_ok_iff`: success is status zero, and only that;
* `Error.statusOf_ofStatus`: no status is lost on the way to a result and back.
-/

namespace ContentDecryption

/-- The answer of a service call; zero is success (`Status`). -/
abbrev Status := UInt32

namespace Status

def none : Status := 0
def unknown : Status := 1
def moreDataAvailable : Status := 2
def interfaceNotImplemented : Status := 3
def bufferTooSmall : Status := 4
def invalidAccessor : Status := 0x80000001
def keySystemNotSupported : Status := 0x80000002
def invalidSession : Status := 0x80000003
def invalidDecryptBuffer : Status := 0x80000004
def outOfMemory : Status := 0x80000005
def methodNotImplemented : Status := 0x80000006
def fail : Status := 0x80004005
def invalidArg : Status := 0x80070057
def serverInternalError : Status := 0x8004C600
def serverInvalidMessage : Status := 0x8004C601
def serverServiceSpecific : Status := 0x8004C604
def busyCannotInitialize : Status := 0x8004DD00

end Status

/-- Why a call failed (`Error`). -/
inductive Error
  | unknown
  /-- The caller's buffer holds less than the `required` bytes. -/
  | moreDataAvailable (required : Nat)
  | interfaceNotImplemented
  | bufferTooSmall
  | invalidAccessor
  | keySystemNotSupported
  | invalidSession
  | invalidDecryptBuffer
  | outOfMemory
  | methodNotImplemented
  | fail
  | invalidArg
  | serverInternalError
  | serverInvalidMessage
  | serverServiceSpecific
  | busyCannotInitialize
  /-- The other side did not answer before the deadline. -/
  | timeout
  /-- A status of the service with no cause of its own. -/
  | remote (status : Status)
  /-- The operating system refused, with this error number. -/
  | system (errno : Int32)
  /-- A name that has to end at its first zero byte holds one, at this position. -/
  | embeddedNul (position : Nat)
  /-- A platform library cannot be loaded or lacks its entry point. -/
  | libraryLoading
  | other (text : String)
  deriving Repr, DecidableEq

namespace Error

/-- The status that stands for an error where only a status can be returned (`code`). Failures that
have none of their own count as the general one. -/
def code : Error → Status
  | unknown => Status.unknown
  | moreDataAvailable _ => Status.moreDataAvailable
  | interfaceNotImplemented => Status.interfaceNotImplemented
  | bufferTooSmall => Status.bufferTooSmall
  | invalidAccessor => Status.invalidAccessor
  | keySystemNotSupported => Status.keySystemNotSupported
  | invalidSession => Status.invalidSession
  | invalidDecryptBuffer => Status.invalidDecryptBuffer
  | outOfMemory => Status.outOfMemory
  | methodNotImplemented => Status.methodNotImplemented
  | fail => Status.fail
  | invalidArg => Status.invalidArg
  | serverInternalError => Status.serverInternalError
  | serverInvalidMessage => Status.serverInvalidMessage
  | serverServiceSpecific => Status.serverServiceSpecific
  | busyCannotInitialize => Status.busyCannotInitialize
  | remote status => status
  | embeddedNul _ => Status.invalidArg
  | timeout => Status.fail
  | system _ => Status.fail
  | libraryLoading => Status.fail
  | other _ => Status.fail

/-- The statuses that have a cause of their own. -/
def causes : List (Status × Error) :=
  [(Status.unknown, .unknown),
    (Status.moreDataAvailable, .moreDataAvailable 0),
    (Status.interfaceNotImplemented, .interfaceNotImplemented),
    (Status.bufferTooSmall, .bufferTooSmall),
    (Status.invalidAccessor, .invalidAccessor),
    (Status.keySystemNotSupported, .keySystemNotSupported),
    (Status.invalidSession, .invalidSession),
    (Status.invalidDecryptBuffer, .invalidDecryptBuffer),
    (Status.outOfMemory, .outOfMemory),
    (Status.methodNotImplemented, .methodNotImplemented),
    (Status.fail, .fail),
    (Status.invalidArg, .invalidArg),
    (Status.serverInternalError, .serverInternalError),
    (Status.serverInvalidMessage, .serverInvalidMessage),
    (Status.serverServiceSpecific, .serverServiceSpecific),
    (Status.busyCannotInitialize, .busyCannotInitialize)]

/-- What a status says (`from_status`). -/
def ofStatus (s : Status) : Except Error Unit :=
  if s = Status.none then .ok () else .error ((causes.lookup s).getD (.remote s))

/-- The error of a call that failed with `s` (`remote_error`). A failure with status zero has no
known cause. -/
def ofFailure (s : Status) : Error :=
  match ofStatus s with
  | .ok _ => .unknown
  | .error e => e

/-- The status that a result amounts to (`status_of`). -/
def statusOf {α : Type} : Except Error α → Status
  | .ok _ => Status.none
  | .error e => e.code

/-! ## Wording -/

/-- A status in hexadecimal, without leading zeros. -/
def statusText (s : Status) : String := "0x" ++ String.ofList (Nat.toDigits 16 s.toNat)

/-- What the error says to a reader. The text of a loader's failure is the platform's own and
is left out. -/
def message : Error → String
  | unknown => "Unknown error"
  | moreDataAvailable required =>
    "More data available (" ++ toString required ++ " bytes required)"
  | interfaceNotImplemented => "Interface not implemented"
  | bufferTooSmall => "Buffer too small"
  | invalidAccessor => "Invalid accessor"
  | keySystemNotSupported => "Key system not supported"
  | invalidSession => "Invalid session"
  | invalidDecryptBuffer => "Invalid decrypt buffer"
  | outOfMemory => "Out of memory"
  | methodNotImplemented => "Method not implemented"
  | fail => "Failed"
  | invalidArg => "Invalid argument"
  | serverInternalError => "Server internal error"
  | serverInvalidMessage => "Server invalid message"
  | serverServiceSpecific => "Server service specific error"
  | busyCannotInitialize => "Busy, cannot initialize"
  | timeout => "Timeout"
  | remote status => "Remote error: " ++ statusText status
  | system errno =>
    "I/O error: " ++ SystemError.text errno ++ " (os error " ++ toString errno.toInt ++ ")"
  | embeddedNul position =>
    "Null string: nul byte found in provided data at position: " ++ toString position
  | libraryLoading => "Loading library: "
  | other text => "Other error: " ++ text

/-! ## Laws -/

theorem code_of_mem_causes : ∀ p ∈ causes, p.2.code = p.1 := by decide

theorem code_of_lookup_causes {s : Status} {e : Error} (h : causes.lookup s = some e) :
    e.code = s := by
  obtain ⟨l, r, hl, -⟩ := List.lookup_eq_some_iff.mp h
  exact code_of_mem_causes (s, e) (by simp [hl])

theorem code_of_ofStatus {s : Status} {e : Error} (h : ofStatus s = .error e) : e.code = s := by
  unfold ofStatus at h
  split at h
  · cases h
  · cases hl : causes.lookup s with
    | none =>
      rw [hl] at h
      cases h
      rfl
    | some e' =>
      rw [hl] at h
      cases h
      exact code_of_lookup_causes hl

theorem ofStatus_eq_ok_iff {s : Status} : ofStatus s = .ok () ↔ s = Status.none := by
  unfold ofStatus
  split
  · simp [*]
  · simp [*]

@[simp] theorem statusOf_ofStatus (s : Status) : statusOf (ofStatus s) = s := by
  cases h : ofStatus s with
  | error e => exact code_of_ofStatus h
  | ok _ => exact (ofStatus_eq_ok_iff.1 h).symm

theorem ofStatus_injective : Function.Injective ofStatus :=
  Function.LeftInverse.injective statusOf_ofStatus

end Error

end ContentDecryption
