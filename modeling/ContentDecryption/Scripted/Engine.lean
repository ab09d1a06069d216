import ContentDecryption.Service.Basic

/-!
# Scripted services

A service that does as it is told: a script says how each request is answered. It
is there to see what a client asks for, and what the client makes of any answer.

A request is answered with the status that the script gives it by name, zero by
default. A request for a value fails as soon as the script gives it any status, and
is answered with the value of the script otherwise. There are no channels behind
its sessions.
-/

namespace ContentDecryption

namespace Scripted

open Service

/-- The answers to requests for values. -/
structure Values where
  metadata : String := ""
  drmSystemTime : Nat := 0
  ldlSessionLimit : UInt32 := 0
  resetSecureStop : UInt32 := 0
  secureStopIds : List Bytes := []
  secureStop : Bytes := []
  keyStoreHash : Bytes := []
  secureStoreHash : Bytes := []
  challengeData : Bytes := []
  storeLicenseData : Bytes := []
  deriving Repr, DecidableEq

/-- How a service is to answer. -/
structure Script where
  /-- The status of a request, by the name of the request. -/
  statuses : List (String × Status) := []
  values : Values := {}
  /-- The ID of the session made as the `i`-th. -/
  sessionId : Nat → String
  /-- The name of its channel. -/
  bufferId : Nat → String
  extendedSessions : Bool := false
  systemRequests : Bool := false
  /-- Whether accessors and sessions have the basic requests alone. -/
  basic : Bool := false
  /-- What is sent to the sink of a new session before it is handed out. -/
  onCreate : List Notice := []
  /-- The requests, by name, in the middle of which the service gives up. -/
  aborts : List String := []

/-- A scripted service: its script, and the sink of each session made so far. -/
structure Engine where
  script : Script
  sinks : List (Option SinkRef) := []

namespace Script

/-- The status that a request is answered with. -/
def status (s : Script) (name : String) : Status := (s.statuses.lookup name).getD Status.none

/-- The answer to a request for a value. -/
def reply {α : Type} (s : Script) (name : String) (value : α) : Reply α :=
  match s.statuses.lookup name with
  | some status => .error status
  | none => .ok value

/-- The session made as the `i`-th. -/
def remoteSession (s : Script) (i : Nat) : RemoteSession where
  index := i
  id := s.sessionId i
  bufferId := s.bufferId i
  extended := s.extendedSessions && !s.basic

/-- The answer to a request about a key system. -/
def respondSystem (s : Script) : (r : SystemRequest) → r.Answer
  | .drmSystemTime => s.reply "drm_system_time" s.values.drmSystemTime
  | .ldlSessionLimit => s.reply "ldl_session_limit" s.values.ldlSessionLimit
  | .isSecureStopEnabled => s.status "is_secure_stop_enabled" != Status.none
  | .enableSecureStop _ => s.status "enable_secure_stop"
  | .resetSecureStop => s.reply "reset_secure_stop" s.values.resetSecureStop
  | .secureStopIds => s.reply "secure_stop_ids" s.values.secureStopIds
  | .secureStop _ => s.reply "secure_stop" s.values.secureStop
  | .commitSecureStop _ _ => s.status "commit_secure_stop"
  | .deleteKeyStore => s.status "delete_key_store"
  | .deleteSecureStore => s.status "delete_secure_store"
  | .keyStoreHash => s.reply "key_store_hash" s.values.keyStoreHash
  | .secureStoreHash => s.reply "secure_store_hash" s.values.secureStoreHash

/-- The answer to a request about a session. -/
def respondSession (s : Script) : (r : SessionRequest) → r.Answer
  | .load => s.status "load"
  | .update _ => { value := s.status "update" }
  | .remove => { value := s.status "remove" }
  | .close => s.status "close_session"
  | .resetOutputProtection => s.status "reset_output_protection"
  | .setParameter _ _ => s.status "set_parameter"
  | .error => s.status "error"
  | .revoke _ => ()
  | .setDrmHeader _ => s.status "set_drm_header"
  | .challengeData _ => s.reply "challenge_data" s.values.challengeData
  | .cancelChallengeData => s.status "cancel_challenge_data"
  | .storeLicenseData _ => s.reply "store_license_data" s.values.storeLicenseData
  | .selectKeyId _ => s.status "select_key_id"
  | .cleanDecryptContext => s.status "clean_decrypt_context"

end Script

namespace Engine

/-- The answer to a request that is answered. -/
def answer (e : Engine) : (r : Request) → r.Answer
  | .openConnection _ _ _ => e.script.status "open" == Status.none
  | .accessor =>
    if e.script.status "interface" = Status.none then some ⟨e.script.basic⟩ else none
  | .closeConnection _ => ()
  | .isTypeSupported _ _ => e.script.status "is_type_supported"
  | .metadata _ => e.script.reply "metadata" e.script.values.metadata
  | .createSession _ sink =>
    match e.script.reply "create_session" (e.script.remoteSession e.sinks.length) with
    | .error status => { value := .error status }
    | .ok session =>
      { value := .ok session, notices := e.script.onCreate.map fun n => (sink, n) }
  | .setServerCertificate _ _ => e.script.status "set_server_certificate"
  | .system _ r => e.script.respondSystem r
  | .session _ r => e.script.respondSession r

/-- What a request that is answered leaves behind: a session has a sink until it is revoked. -/
def after (e : Engine) : Request → Engine
  | .createSession _ sink =>
    match e.script.statuses.lookup "create_session" with
    | some _ => e
    | none => { e with sinks := e.sinks ++ [some sink] }
  | .session i (.revoke _) => { e with sinks := e.sinks.set i none }
  | _ => e

/-- Answers a request, or gives up in the middle of it. -/
def respond (r : Request) (e : Engine) (m : SharedMemory) : Response Engine r.Answer :=
  if e.script.aborts.contains r.name then ⟨none, e, m⟩
  else ⟨some (e.answer r), e.after r, m⟩

/-- A notice for the sink of the session made as the `i`-th, if it has not been revoked. -/
def notice? (e : Engine) (i : Nat) (n : Notice) : Option Delivery :=
  (e.sinks.getD i none).map fun sink => (sink, n)

end Engine

instance : Service Engine where
  respond := Engine.respond
  hasSystemRequests e a := e.script.systemRequests && !a.basic
  release _ e m := (e, m)
  setConnected _ e := e
  sinks e := e.sinks.filterMap id
  decryptor? _ _ := none
  recorded _ := true

end Scripted

end ContentDecryption
