import ContentDecryption.IdSource
import ContentDecryption.Json.Quoted
import ContentDecryption.License
import ContentDecryption.Loopback.Cipher
import ContentDecryption.Loopback.Store
import ContentDecryption.Service.Basic

/-!
# The loopback engine

A service in the client's own process. It makes a decrypt channel for each session
and serves it with the keys of the session, which come from plain licenses. It is
there to try clients out: it takes every license that is well formed.

A session lives as long as somebody holds it: the client that asked for it, or
somebody who watches it from the engine's side.
-/

namespace ContentDecryption

namespace Loopback

open Service

/-- The capacity of the channel of a session (`CHANNEL_CAPACITY`). -/
def channelCapacity : Nat := 1048576

/-- Where the messages for the license server are to go (`LICENSE_URL`). -/
def licenseUrl : String := "loopback://license"

/-- What an extended session has been given (`LoopbackSessionExt`). -/
structure Extension where
  drmHeader : Option Bytes := none
  selectedKeyId : Option Bytes := none
  challengePending : Bool := false
  deriving Repr, DecidableEq

/-- A session inside the engine (`LoopbackSession`). -/
structure Session where
  id : String
  server : Channel.Server
  /-- How many hold the session. -/
  holders : Nat := 1
  /-- Where notices go, until they are revoked. -/
  sink : Option SinkRef
  keys : List (KeyId × Bytes) := []
  parameters : List (String × String) := []
  error : Status := Status.none
  closed : Bool := false
  extension : Option Extension := none
  deriving Repr, DecidableEq

/-- The engine and its connection (`LoopbackDrm`, `LoopbackTransport`). -/
structure Engine where
  keySystems : List String
  extended : Bool := false
  reachable : Bool := true
  connected : Bool := false
  /-- All sessions ever made, in order. -/
  sessions : List Session := []
  /-- How many sessions were asked for. -/
  numbered : Nat := 0
  /-- Where the names of channels and the IDs of secure stops come from. -/
  identifiers : IdSource := .counting
  /-- How many identifiers were drawn. -/
  issued : Nat := 0
  /-- The readings of the system clock, in seconds since the beginning of 1970. -/
  clock : Nat → Nat := fun _ => 1767225600
  /-- How many requests about a key system came. The clock is read once for each. -/
  readings : Nat := 0
  certificate : Option Bytes := none
  store : Store := {}

/-! ## Sessions -/

namespace Session

/-- The notices for the sink of a session. -/
def report (s : Session) (notices : List Notice) : List Delivery :=
  match s.sink with
  | some sink => notices.map fun n => (sink, n)
  | none => []

/-- The status of a request that needs an open session (`check_open`). -/
def openStatus (s : Session) : Status :=
  if s.closed then Status.invalidSession else Status.none

/-- Takes the keys of a license (`update`). Keys that are there already stay in front. -/
def update (s : Session) (response : Bytes) : Reported Status × Session :=
  if s.closed then ({ value := Status.invalidSession }, s)
  else
    match License.decode? response with
    | none => ({ value := Status.serverInvalidMessage }, s)
    | some records =>
      ({ value := Status.none
         notices := s.report ((records.map fun r => .keyStatus r.1 .usable)
           ++ [.keyStatusesComplete]) },
        { s with keys := s.keys ++ records })

/-- Drops all keys (`remove`). -/
def remove (s : Session) : Reported Status × Session :=
  ({ value := Status.none
     notices := s.report ((s.keys.map fun k => .keyStatus k.1 .released)
       ++ [.keyStatusesComplete]) },
    { s with keys := [] })

/-- Adds a parameter (`set_parameter`). It has to have a name. -/
def setParameter (s : Session) (name value : String) : Status × Session :=
  if name.isEmpty then (Status.invalidArg, s)
  else (Status.none, { s with parameters := s.parameters ++ [(name, value)] })

/-- Changes the extension of a session that has one. -/
def extend (s : Session) (f : Extension → Extension) : Status × Session :=
  match s.extension with
  | some x => (Status.none, { s with extension := some (f x) })
  | none => (Status.methodNotImplemented, s)

/-- The challenge that an extended session answers with (`challenge_data`). -/
def challenge (limitedDuration : Bool) : Bytes :=
  Bytes.ofText (if limitedDuration then "loopback-challenge-ldl" else "loopback-challenge")

end Session

/-! ## The engine -/

namespace Engine

/-- Whether the engine knows a key system (`supports`). -/
def supports (e : Engine) (keySystem : String) : Bool := e.keySystems.contains keySystem

/-- The same as a status (`is_type_supported`). -/
def supportStatus (e : Engine) (keySystem : String) : Status :=
  if e.supports keySystem then Status.none else Status.keySystemNotSupported

/-- The description of a key system, as a JSON object (`metadata`). -/
def describe (e : Engine) (keySystem : String) : String :=
  "\x7b\"engine\":\"loopback\",\"extended\":" ++ (if e.extended then "true" else "false")
    ++ ",\"key_system\":" ++ Json.quoted keySystem ++ "\x7d"

/-- The session with a number, if somebody holds it. -/
def session? (e : Engine) (i : Nat) : Option Session :=
  e.sessions[i]?.filter fun s => decide (0 < s.holders)

/-- The number of the held session with an ID (`session`). -/
def indexOf? (e : Engine) (id : String) : Option Nat :=
  e.sessions.findIdx? fun s => decide (0 < s.holders) && s.id == id

def setSession (e : Engine) (i : Nat) (s : Session) : Engine :=
  { e with sessions := e.sessions.set i s }

/-- What the clock says when it is read next. -/
def now (e : Engine) : Nat := e.clock e.readings

/-- Makes a session and its channel (`create_session`, and `start` of `LoopbackSession`). The number
of the session is used up even when there is no room for a channel. -/
def createSession (e : Engine) (m : SharedMemory) (setup : SessionSetup) (sink : SinkRef) :
    Reported (Reply RemoteSession) × Engine × SharedMemory :=
  if !e.supports setup.keySystem then
    ({ value := .error Status.keySystemNotSupported }, e, m)
  else
    let id := "loopback-" ++ toString (e.numbered + 1)
    let bufferId := "/ocdm-" ++ e.identifiers.text e.issued
    let numbered := { e with numbered := e.numbered + 1, issued := e.issued + 1 }
    match Channel.Server.create m bufferId channelCapacity with
    | (.error _, m') => ({ value := .error Status.outOfMemory }, numbered, m')
    | (.ok server, m') =>
      let s : Session :=
        { id, server, sink := some sink, extension := if e.extended then some {} else none }
      ({ value := .ok ⟨e.sessions.length, id, bufferId, e.extended⟩
         notices := if setup.initData.isEmpty then []
           else [(sink, .message licenseUrl setup.initData)] },
        { numbered with sessions := e.sessions ++ [s] }, m')

/-- Takes a certificate for a key system (`set_server_certificate`). It must not be empty. -/
def setServerCertificate (e : Engine) (keySystem : String) (certificate : Bytes) :
    Status × Engine :=
  if !e.supports keySystem then (Status.keySystemNotSupported, e)
  else if certificate.isEmpty then (Status.invalidArg, e)
  else (Status.none, { e with certificate := some certificate })

/-- Keeps a license for good, and its secure stop under a fresh ID (`store_license_data`). -/
def storeLicense (e : Engine) (license : Bytes) : Reply Bytes × Engine :=
  if license.isEmpty then (.error Status.invalidArg, e)
  else
    let id := e.identifiers.bytes e.issued
    (.ok id, { e with issued := e.issued + 1, store := e.store.add id license })

/-- Answers a request about the session `s`. What changes of the session itself comes second, what
changes around it third. -/
def respondSession (e : Engine) (s : Session) : (r : SessionRequest) → r.Answer × Session × Engine
  | .load => (s.openStatus, s, e)
  | .update response => let (x, s) := s.update response; (x, s, e)
  | .remove => let (x, s) := s.remove; (x, s, e)
  | .close => (Status.none, { s with closed := true }, e)
  | .resetOutputProtection => (s.openStatus, s, e)
  | .setParameter name value => let (x, s) := s.setParameter name value; (x, s, e)
  | .error => (s.error, s, e)
  | .revoke _ => ((), { s with sink := none }, e)
  | .setDrmHeader header =>
    let (x, s) := s.extend fun x => { x with drmHeader := some header }
    (x, s, e)
  | .challengeData limitedDuration =>
    (.ok (Session.challenge limitedDuration),
      (s.extend fun x => { x with challengePending := true }).2, e)
  | .cancelChallengeData =>
    let (x, s) := s.extend fun x => { x with challengePending := false }
    (x, s, e)
  | .storeLicenseData license => let (x, e) := e.storeLicense license; (x, s, e)
  | .selectKeyId id =>
    let (x, s) := s.extend fun x => { x with selectedKeyId := some id }
    (x, s, e)
  | .cleanDecryptContext =>
    let (x, s) := s.extend fun x => { x with selectedKeyId := none }
    (x, s, e)

/-- Answers a request. -/
def respond : (r : Request) → Engine → SharedMemory → Response Engine r.Answer
  | .openConnection _ _ _, e, m =>
    ⟨some e.reachable, { e with connected := e.connected || e.reachable }, m⟩
  | .accessor, e, m => ⟨some (if e.connected then some {} else none), e, m⟩
  | .closeConnection _, e, m => ⟨some (), { e with connected := false }, m⟩
  | .isTypeSupported keySystem _, e, m => ⟨some (e.supportStatus keySystem), e, m⟩
  | .metadata keySystem, e, m =>
    ⟨some (if e.supports keySystem then .ok (e.describe keySystem)
      else .error Status.keySystemNotSupported), e, m⟩
  | .createSession setup sink, e, m =>
    let (x, e, m) := e.createSession m setup sink
    ⟨some x, e, m⟩
  | .setServerCertificate keySystem certificate, e, m =>
    let (x, e) := e.setServerCertificate keySystem certificate
    ⟨some x, e, m⟩
  | .system _ r, e, m =>
    let (x, store) := e.store.respond e.now r
    ⟨some x, { e with store, readings := e.readings + 1 }, m⟩
  | .session i r, e, m =>
    match e.sessions[i]? with
    | none => ⟨none, e, m⟩
    | some s =>
      let (x, s, e) := e.respondSession s r
      ⟨some x, e.setSession i s, m⟩

/-- One more holds a session. -/
def hold (i : Nat) (e : Engine) : Engine :=
  { e with sessions := e.sessions.modify i fun s => { s with holders := s.holders + 1 } }

/-- One holder lets a session go. With the last one goes the channel (the `drop` of
`LoopbackSession`). -/
def release (i : Nat) (e : Engine) (m : SharedMemory) : Engine × SharedMemory :=
  match e.session? i with
  | none => (e, m)
  | some s =>
    (e.setSession i { s with holders := s.holders - 1 },
      if s.holders = 1 then s.server.drop m else m)

/-- The session that serves the channel at an object of shared memory (the server that `start` sets
up). -/
def decryptor? (e : Engine) (object : Nat) : Option (Channel.Server × Channel.Handler) :=
  (e.sessions.find? fun s => decide (0 < s.holders) && s.server.object == object).map fun s =>
    (s.server, decryptSample s.keys)

/-! ## What the engine reports of its own accord -/

/-- A key of a session changes (`report_key_status`). -/
def reportKeyStatus (e : Engine) (i : Nat) (id : Bytes) (status : KeyStatus) : List Delivery :=
  match e.sessions[i]? with
  | some s => s.report [.keyStatus id status, .keyStatusesComplete]
  | none => []

/-- A session fails (`report_error`). -/
def reportError (e : Engine) (i : Nat) (error : Int16) (systemError : Status) (message : String) :
    List Delivery × Engine :=
  match e.sessions[i]? with
  | some s =>
    (s.report [.error error systemError message], e.setSession i { s with error := systemError })
  | none => ([], e)

end Engine

instance : Service Engine where
  respond := Engine.respond
  hasSystemRequests e a := e.extended && !a.basic
  release := Engine.release
  setConnected up e := { e with connected := up }
  sinks e := (e.sessions.filter fun s => decide (0 < s.holders)).filterMap Session.sink
  decryptor? := Engine.decryptor?
  recorded _ := false

end Loopback

end ContentDecryption
