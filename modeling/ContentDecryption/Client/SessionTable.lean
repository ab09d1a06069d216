/-!
# Session tables

Which session an ID stands for. An ID belongs to the first session registered under
it for as long as that session lives; then the next one may have it. The table does
not keep a session alive, so it may still list one that is gone; whether a session
lives is for the caller to say.
-/

namespace ContentDecryption

/-- A session of a client. -/
abbrev SessionRef := Nat

/-- The session registered under each ID, in the order of registration (the table `sessions` of
`RegistryInner`). -/
abbrev SessionTable := List (String × SessionRef)

namespace SessionTable

/-- Takes an entry out. -/
def clear (t : SessionTable) (id : String) : SessionTable := t.filter fun entry => entry.1 != id

/-- Registers a session, unless a living one has the ID (`add_session`). -/
def register (t : SessionTable) (alive : SessionRef → Bool) (id : String) (s : SessionRef) :
    SessionTable :=
  if (t.lookup id).any alive then t else t.clear id ++ [(id, s)]

/-- Unregisters a session, if the ID is still its own (`remove_session`). -/
def unregister (t : SessionTable) (id : String) (s : SessionRef) : SessionTable :=
  if t.lookup id = some s then t.clear id else t

/-- The living session under an ID (`session`). -/
def find? (t : SessionTable) (alive : SessionRef → Bool) (id : String) : Option SessionRef :=
  (t.lookup id).filter alive

/-- The living sessions (`live_sessions`). -/
def living (t : SessionTable) (alive : SessionRef → Bool) : List SessionRef :=
  (t.map Prod.snd).filter alive

end SessionTable

end ContentDecryption
