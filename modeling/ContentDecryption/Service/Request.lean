import ContentDecryption.Error
import ContentDecryption.Sample.KeyId
import ContentDecryption.Sample.KeyStatus

/-!
# Requests to a service

A service decrypts for its clients and keeps their keys. This module lists what a
client can ask of one and, for each request, what kind of answer it gets.

Most requests are answered with a status. Those for a value are answered with the
value, or with the status of the failure.
-/

namespace ContentDecryption

namespace Service

/-- The place to which the notices about one session are sent (`SessionNotifications`). -/
abbrev SinkRef := Nat

/-- The object through which a service is asked for anything but its connection
(`RemoteAccessor`). -/
structure Accessor where
  /-- Whether it has the basic requests alone. -/
  basic : Bool := false
  deriving Repr, DecidableEq

/-- What a client says of a session that it asks for (`SessionRequest`). -/
structure SessionSetup where
  keySystem : String
  licenseType : Int32
  initDataType : String
  initData : Bytes
  cdmData : Bytes
  deriving Repr, DecidableEq

/-- A session as a service hands it out (`RemoteSession`). -/
structure RemoteSession where
  /-- The number by which the service knows it. -/
  index : Nat
  id : String
  /-- The name of its decrypt channel. -/
  bufferId : String
  /-- Whether it has more than the basic requests. -/
  extended : Bool
  deriving Repr, DecidableEq

/-- The answer to a request for a value (`RemoteResult`). -/
abbrev Reply (α : Type) := Except Status α

/-! ## Requests -/

/-- Requests about a key system that only some services know (`RemoteSystemExt`). -/
inductive SystemRequest
  | drmSystemTime
  | ldlSessionLimit
  | isSecureStopEnabled
  | enableSecureStop (enable : Bool)
  /-- Answered with the number of secure stops that were cleared. -/
  | resetSecureStop
  | secureStopIds
  | secureStop (id : Bytes)
  | commitSecureStop (id response : Bytes)
  | deleteKeyStore
  | deleteSecureStore
  | keyStoreHash
  | secureStoreHash
  deriving Repr, DecidableEq

/-- Requests about a session (`RemoteSession`, `RemoteSessionExt`). From `setDrmHeader` on they are
for extended sessions. -/
inductive SessionRequest
  | load
  | update (response : Bytes)
  | remove
  | close
  | resetOutputProtection
  | setParameter (name value : String)
  /-- Answered with the last error of the session. -/
  | error
  /-- No more notices are wanted at the sink that the session was given. -/
  | revoke (sink : SinkRef)
  | setDrmHeader (header : Bytes)
  | challengeData (limitedDuration : Bool)
  | cancelChallengeData
  /-- Answered with the ID of the secure stop of the license. -/
  | storeLicenseData (license : Bytes)
  | selectKeyId (id : Bytes)
  | cleanDecryptContext
  deriving Repr, DecidableEq

/-- Everything that a service can be asked (`Transport`, `RemoteAccessor`). -/
inductive Request
  | openConnection (timeoutMs : Nat) (connector interfaceName : String)
  | accessor
  | closeConnection (timeoutMs : Nat)
  | isTypeSupported (keySystem mimeType : String)
  | metadata (keySystem : String)
  | createSession (setup : SessionSetup) (sink : SinkRef)
  | setServerCertificate (keySystem : String) (certificate : Bytes)
  | system (keySystem : String) (request : SystemRequest)
  | session (index : Nat) (request : SessionRequest)
  deriving Repr, DecidableEq

/-! ## Notices -/

/-- What a service tells the client of a session (`SessionNotifications`). -/
inductive Notice
  /-- A message for the license server. -/
  | message (url : String) (challenge : Bytes)
  | keyStatus (id : Bytes) (status : KeyStatus)
  /-- A batch of key statuses is complete. -/
  | keyStatusesComplete
  | error (error : Int16) (systemError : Status) (message : String)
  deriving Repr, DecidableEq

/-- A notice on its way. -/
abbrev Delivery := SinkRef × Notice

/-- An answer, and the notices that are sent before it. -/
structure Reported (α : Type) where
  value : α
  notices : List Delivery := []
  deriving Repr, DecidableEq

/-! ## Answers -/

/-- The kind of answer to a request about a key system. -/
def SystemRequest.Answer : SystemRequest → Type
  | .drmSystemTime => Reply Nat
  | .ldlSessionLimit => Reply UInt32
  | .isSecureStopEnabled => Bool
  | .enableSecureStop _ => Status
  | .resetSecureStop => Reply UInt32
  | .secureStopIds => Reply (List Bytes)
  | .secureStop _ => Reply Bytes
  | .commitSecureStop _ _ => Status
  | .deleteKeyStore => Status
  | .deleteSecureStore => Status
  | .keyStoreHash => Reply Bytes
  | .secureStoreHash => Reply Bytes

/-- The kind of answer to a request about a session. -/
def SessionRequest.Answer : SessionRequest → Type
  | .load => Status
  | .update _ => Reported Status
  | .remove => Reported Status
  | .close => Status
  | .resetOutputProtection => Status
  | .setParameter _ _ => Status
  | .error => Status
  | .revoke _ => Unit
  | .setDrmHeader _ => Status
  | .challengeData _ => Reply Bytes
  | .cancelChallengeData => Status
  | .storeLicenseData _ => Reply Bytes
  | .selectKeyId _ => Status
  | .cleanDecryptContext => Status

/-- The kind of answer to a request. -/
def Request.Answer : Request → Type
  | .openConnection _ _ _ => Bool
  | .accessor => Option Accessor
  | .closeConnection _ => Unit
  | .isTypeSupported _ _ => Status
  | .metadata _ => Reply String
  | .createSession _ _ => Reported (Reply RemoteSession)
  | .setServerCertificate _ _ => Status
  | .system _ r => r.Answer
  | .session _ r => r.Answer

/-! ## Names -/

/-- What a request about a key system is called. -/
def SystemRequest.name : SystemRequest → String
  | .drmSystemTime => "drm_system_time"
  | .ldlSessionLimit => "ldl_session_limit"
  | .isSecureStopEnabled => "is_secure_stop_enabled"
  | .enableSecureStop _ => "enable_secure_stop"
  | .resetSecureStop => "reset_secure_stop"
  | .secureStopIds => "secure_stop_ids"
  | .secureStop _ => "secure_stop"
  | .commitSecureStop _ _ => "commit_secure_stop"
  | .deleteKeyStore => "delete_key_store"
  | .deleteSecureStore => "delete_secure_store"
  | .keyStoreHash => "key_store_hash"
  | .secureStoreHash => "secure_store_hash"

/-- What a request about a session is called. -/
def SessionRequest.name : SessionRequest → String
  | .load => "load"
  | .update _ => "update"
  | .remove => "remove"
  | .close => "close_session"
  | .resetOutputProtection => "reset_output_protection"
  | .setParameter _ _ => "set_parameter"
  | .error => "error"
  | .revoke _ => "revoke"
  | .setDrmHeader _ => "set_drm_header"
  | .challengeData _ => "challenge_data"
  | .cancelChallengeData => "cancel_challenge_data"
  | .storeLicenseData _ => "store_license_data"
  | .selectKeyId _ => "select_key_id"
  | .cleanDecryptContext => "clean_decrypt_context"

/-- What a request is called. -/
def Request.name : Request → String
  | .openConnection _ _ _ => "open"
  | .accessor => "interface"
  | .closeConnection _ => "close"
  | .isTypeSupported _ _ => "is_type_supported"
  | .metadata _ => "metadata"
  | .createSession _ _ => "create_session"
  | .setServerCertificate _ _ => "set_server_certificate"
  | .system _ r => r.name
  | .session _ r => r.name

end Service

end ContentDecryption
