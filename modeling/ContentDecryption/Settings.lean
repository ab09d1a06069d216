import ContentDecryption.Error
import ContentDecryption.Json.Value

/-!
# Settings

What a client is configured with. Every field has a default, so settings can be
made of nothing, of the environment, or of a partial JSON text: an object with
some of the fields, or an array of the first few in order. Fields with other names
are skipped; a field given twice is an error.
-/

namespace ContentDecryption

/-- How decrypt calls are kept apart (`DecryptSerialization`). -/
inductive DecryptSerialization
  /-- One lock for all sessions of a registry. -/
  | global
  /-- One lock for each session. -/
  | perSession
  deriving Repr, DecidableEq

namespace DecryptSerialization

def name : DecryptSerialization → String
  | global => "global"
  | perSession => "per-session"

def ofName? (s : String) : Option DecryptSerialization :=
  [global, perSession].find? fun d => d.name == s

end DecryptSerialization

/-- What a client is configured with (`OcdmConfig`). -/
structure Settings where
  /-- What the transport opens. -/
  connector : String
  /-- How long opening and closing the transport may take, in milliseconds. -/
  rpcTimeoutMs : Nat := 3000
  /-- How long each side of a decrypt handshake may take, in milliseconds. -/
  decryptTimeoutMs : Nat := 3600000
  decryptSerialization : DecryptSerialization := .global
  /-- Bytes kept free after each sample in the decrypt channel. -/
  reservedTokenSize : Nat := 16
  /-- The platform library that prepares clear samples. -/
  secureBufferLibrary : Option String := none
  deriving Repr, DecidableEq

namespace Settings

/-- The connector where nothing names another (`FALLBACK_CONNECTOR`). -/
def fallbackConnector : String := "/tmp/ocdm"

/-- The defaults, with the connector that the environment names, if it names one (`from_env`). -/
def ofEnvironment (connector : Option String) : Settings :=
  { connector := connector.getD fallbackConnector }

/-- A time in whole seconds and the milliseconds past them. -/
def secondsAndRest (ms : Nat) : Nat × Nat := (ms / 1000, ms % 1000)

/-! ## Reading JSON -/

def count? : Json.Value → Option Nat
  | .number n => n
  | _ => none

def text? : Json.Value → Option String
  | .string (some s) => some s
  | _ => none

/-- The name of a way to keep calls apart, alone or as the only key of an object without a
value. -/
def serialization? : Json.Value → Option DecryptSerialization
  | .string (some s) => DecryptSerialization.ofName? s
  | .object [(some s, .null)] => DecryptSerialization.ofName? s
  | _ => none

/-- A path, or null for none. -/
def library? : Json.Value → Option (Option String)
  | .null => some none
  | .string (some s) => some (some s)
  | _ => none

/-- The fields in their order, each with the way its value is taken in. -/
def fields : List (String × (Settings → Json.Value → Option Settings)) :=
  [("connector", fun s v => (text? v).map fun c => { s with connector := c }),
    ("rpc_timeout_ms", fun s v => (count? v).map fun n => { s with rpcTimeoutMs := n }),
    ("decrypt_timeout_ms", fun s v => (count? v).map fun n => { s with decryptTimeoutMs := n }),
    ("decrypt_serialization",
      fun s v => (serialization? v).map fun d => { s with decryptSerialization := d }),
    ("reserved_token_size", fun s v => (count? v).map fun n => { s with reservedTokenSize := n }),
    ("secure_buffer_library",
      fun s v => (library? v).map fun l => { s with secureBufferLibrary := l })]

/-- Takes in the fields of an object; `seen` holds the names that were given. -/
def ofObject? : List (Option String × Json.Value) → List String → Settings → Option Settings
  | [], _, s => some s
  | (none, _) :: _, _, _ => none
  | (some key, v) :: rest, seen, s =>
    match fields.lookup key with
    | none => ofObject? rest seen s
    | some set =>
      if seen.contains key then none
      else (set s v).bind fun s' => ofObject? rest (key :: seen) s'

/-- Takes in the first fields in order. -/
def ofArray? : List (String × (Settings → Json.Value → Option Settings)) → List Json.Value →
    Settings → Option Settings
  | _, [], s => some s
  | [], _ :: _, _ => none
  | (_, set) :: fields, v :: rest, s => (set s v).bind fun s' => ofArray? fields rest s'

/-- The settings that a JSON text asks for, on top of `defaults` (`from_json`). -/
def ofJson (defaults : Settings) (text : String) : Except Error Settings :=
  let settings := match Json.parse? text with
    | some (.object members) => ofObject? members [] defaults
    | some (.array items) => ofArray? fields items defaults
    | _ => none
  match settings with
  | some s => .ok s
  | none => .error (.other "Invalid config:")

end Settings

end ContentDecryption
