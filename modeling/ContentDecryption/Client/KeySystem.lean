import ContentDecryption.Client.Connection

/-!
# Key systems in use

What can be asked of a key system: whether it plays a type of media, its server
certificate, a new session, and the requests that only some services know.

A new session counts only once it has an ID. It is registered under that ID unless a
living session has it already; either way the caller has the only handle.
-/

namespace ContentDecryption

namespace Client

open Service

namespace Action

variable {σ : Type} [Service σ]

/-- Takes one more handle of a system. -/
def holdSystem (i : SystemRef) : Action σ Unit :=
  modify fun w => w.setSystem i fun s => { s with handles := s.handles + 1 }

/-- Whether the service supports a type of media in this key system (`is_type_supported`). -/
def systemTypeSupported (i : SystemRef) (mimeType : String) : Action σ Unit := do
  let s := (← get).system i
  isTypeSupported s.registry s.keySystem mimeType

/-- Hands the service a certificate for this key system (`set_server_certificate`). -/
def setServerCertificate (i : SystemRef) (certificate : Bytes) : Action σ Unit := do
  let s := (← get).system i
  let _ ← accessor s.registry
  ofStatus (← ask (.setServerCertificate s.keySystem certificate))

/-- Asks about this key system, if the service knows such requests (`ext`). -/
def askSystem (i : SystemRef) (r : SystemRequest) : Action σ r.Answer := do
  let s := (← get).system i
  let a ← accessor s.registry
  if Service.hasSystemRequests (← get).service a then ask (.system s.keySystem r)
  else fail .methodNotImplemented

/-- Keeps a session that the service has handed out, and registers it (the end of `create`, with
`add_session`). -/
def adoptSession (i : SystemRef) (k : SinkRef) (x : RemoteSession) : Action σ SessionRef := do
  let s := (← get).system i
  let n := (← get).sessions.length
  let session : Session :=
    { id := x.id
      bufferId := x.bufferId
      keySystem := s.keySystem
      registry := s.registry
      system := i
      remote := x.index
      extended := x.extended
      sink := k }
  modify fun w => { w with sessions := w.sessions ++ [session] }
  modify fun w => w.setRegistry s.registry fun r =>
    { r with sessions := r.sessions.register w.isLive x.id n }
  pure n

/-- Asks for a session (`create_session`, `create`). What the service reports before it hands the
session out has its effect already. -/
def createSession (i : SystemRef) (licenseType : Int32) (initDataType : String)
    (initData cdmData : Bytes) (listener : Listener) : Action σ SessionRef := do
  let s := (← get).system i
  let _ ← accessor s.registry
  let k := (← get).sinks.length
  modify fun w => { w with sinks := w.sinks ++ [{ registry := s.registry, listener }] }
  let reported ← ask (.createSession ⟨s.keySystem, licenseType, initDataType, initData, cdmData⟩ k)
  receiveAll reported.notices
  let x ← ofReply reported.value
  if x.id.isEmpty then
    modify fun w =>
      let (service, memory) := Service.release x.index w.service w.memory
      { w with service, memory }
    fail .invalidSession
  adoptSession i k x

/-! ## Requests that only some services know -/

/-- The reading of the engine's clock (`drm_system_time`). -/
def drmSystemTime (i : SystemRef) : Action σ Nat := do
  ofReply (← askSystem i .drmSystemTime)

/-- The most sessions that may use licenses of limited duration (`ldl_session_limit`). -/
def ldlSessionLimit (i : SystemRef) : Action σ UInt32 := do
  ofReply (← askSystem i .ldlSessionLimit)

/-- Whether secure stops are enabled (`is_secure_stop_enabled`). -/
def isSecureStopEnabled (i : SystemRef) : Action σ Bool := askSystem i .isSecureStopEnabled

/-- Turns secure stops on or off (`enable_secure_stop`). -/
def enableSecureStop (i : SystemRef) (enable : Bool) : Action σ Unit := do
  ofStatus (← askSystem i (.enableSecureStop enable))

/-- Clears all secure stops, and says how many there were (`reset_secure_stop`). -/
def resetSecureStop (i : SystemRef) : Action σ UInt32 := do
  ofReply (← askSystem i .resetSecureStop)

/-- The IDs of the pending secure stops (`secure_stop_ids`). -/
def secureStopIds (i : SystemRef) : Action σ (List Bytes) := do
  ofReply (← askSystem i .secureStopIds)

/-- The license behind a secure stop (`secure_stop`). -/
def secureStop (i : SystemRef) (id : Bytes) : Action σ Bytes := do
  ofReply (← askSystem i (.secureStop id))

/-- Reports that the license server has committed a secure stop (`commit_secure_stop`). -/
def commitSecureStop (i : SystemRef) (id response : Bytes) : Action σ Unit := do
  ofStatus (← askSystem i (.commitSecureStop id response))

/-- Deletes the stored licenses (`delete_key_store`). -/
def deleteKeyStore (i : SystemRef) : Action σ Unit := do
  ofStatus (← askSystem i .deleteKeyStore)

/-- Deletes the pending secure stops (`delete_secure_store`). -/
def deleteSecureStore (i : SystemRef) : Action σ Unit := do
  ofStatus (← askSystem i .deleteSecureStore)

/-- The hash of the stored licenses (`key_store_hash`). -/
def keyStoreHash (i : SystemRef) : Action σ Bytes := do
  ofReply (← askSystem i .keyStoreHash)

/-- The hash of the pending secure stops (`secure_store_hash`). -/
def secureStoreHash (i : SystemRef) : Action σ Bytes := do
  ofReply (← askSystem i .secureStoreHash)

end Action

end Client

end ContentDecryption
