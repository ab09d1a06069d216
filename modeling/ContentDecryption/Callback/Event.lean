import ContentDecryption.Bytes

/-!
# Session events

What a session tells the application, and what of it reaches a callback that takes
texts up to their first zero byte and key IDs of at most 255 bytes.
-/

namespace ContentDecryption

/-- What a session tells the application (`Event`). -/
inductive SessionEvent
  /-- A message for the license server. -/
  | challenge (url : String) (challenge : Bytes)
  /-- A key has a status that is not pending. -/
  | keyUpdated (id : Bytes)
  | error (message : String)
  /-- A batch of key statuses is complete. -/
  | keysUpdated
  deriving Repr, DecidableEq

/-- The callbacks, one for each kind of event (the fields of `OpenCDMSessionCallbacks`). -/
inductive EventKind
  | challenge
  | keyUpdated
  | error
  | keysUpdated
  deriving Repr, DecidableEq

namespace SessionEvent

def kind : SessionEvent → EventKind
  | challenge _ _ => .challenge
  | keyUpdated _ => .keyUpdated
  | error _ => .error
  | keysUpdated => .keysUpdated

/-- A text as a callback is given it: nothing of a text with a zero byte. -/
def terminated (text : String) : String := if text.toList.contains '\x00' then "" else text

/-- The event as its callback is given it, if it can be given at all (`deliver`). -/
def forCallback? : SessionEvent → Option SessionEvent
  | challenge url bytes =>
    if bytes.length < 4294967296 then some (challenge (terminated url) bytes) else none
  | keyUpdated id => if id.length < 256 then some (keyUpdated id) else none
  | error message => some (error (terminated message))
  | keysUpdated => some keysUpdated

end SessionEvent

end ContentDecryption
