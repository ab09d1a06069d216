import ContentDecryption.Client.KeySystem
import ContentDecryption.Text.Quoted

/-!
# Sessions

What can be done with a session: the license exchange, the statuses of its keys, and
decrypting samples. Statuses come from the ledger of the session, not from the
service. The decrypt channel is attached to when the first sample comes; an empty
sample never needs it.
-/

namespace ContentDecryption

namespace Client

open Service

namespace World

variable {σ : Type} (w : World σ)

/-- The ledger of a session (`keys`). -/
def ledger (i : SessionRef) : KeyLedger := (w.sink (w.session i).sink).keys

/-- The last error that was reported for a session (`last_error`). -/
def lastError (i : SessionRef) : Option SessionError := (w.sink (w.session i).sink).lastError

/-- The lock of a session's decrypt calls: its connection's, or its own (`decrypt_lock`). -/
def decryptLock (i : SessionRef) : String :=
  let s := w.session i
  match (w.registry s.registry).settings.decryptSerialization with
  | .global => "registry " ++ toString s.registry
  | .perSession => "session " ++ toString i

/-- How a session is shown among other values. -/
def describeSession (i : SessionRef) : String :=
  let s := w.session i
  "OpenCdmSession \x7b id: " ++ Text.quoted s.id ++ ", key_system: " ++ Text.quoted s.keySystem
    ++ ", .. \x7d"

/-- How a key system in use is shown among other values. -/
def describeSystem (i : SystemRef) : String :=
  "OpenCdmSystem \x7b id: " ++ w.identifiers.text i ++ ", key_system: "
    ++ Text.quoted (w.system i).keySystem ++ ", .. \x7d"

end World

namespace Action

variable {σ : Type} [Service σ]

/-- Asks about a session. -/
def askSession (i : SessionRef) (r : SessionRequest) : Action σ r.Answer := do
  ask (.session ((← get).session i).remote r)

/-- Asks about a session what only extended sessions know (`extended`). -/
def askExtended (i : SessionRef) (r : SessionRequest) : Action σ r.Answer := do
  let s := (← get).session i
  if s.extended then ask (.session s.remote r) else fail .methodNotImplemented

/-- The last error that the service holds for a session (`system_error`). -/
def systemError (i : SessionRef) : Action σ Status := askSession i .error

/-- Loads what the service has stored for a session (`load`). -/
def load (i : SessionRef) : Action σ Unit := do ofStatus (← askSession i .load)

/-- Hands the answer of the license server over (`update`). -/
def update (i : SessionRef) (response : Bytes) : Action σ Unit := do
  let reported ← askSession i (.update response)
  receiveAll reported.notices
  ofStatus reported.value

/-- Drops what a session has been licensed (`remove`). -/
def remove (i : SessionRef) : Action σ Unit := do
  let reported ← askSession i .remove
  receiveAll reported.notices
  ofStatus reported.value

/-- Closes a session (`close`). -/
def close (i : SessionRef) : Action σ Unit := do ofStatus (← askSession i .close)

/-- Resets the output protection (`reset_output_protection`). -/
def resetOutputProtection (i : SessionRef) : Action σ Unit := do
  ofStatus (← askSession i .resetOutputProtection)

/-- Sets a parameter of a session (`set_parameter`). -/
def setParameter (i : SessionRef) (name value : String) : Action σ Unit := do
  ofStatus (← askSession i (.setParameter name value))

/-- Sets the header of an extended session (`set_drm_header`). -/
def setDrmHeader (i : SessionRef) (header : Bytes) : Action σ Unit := do
  ofStatus (← askExtended i (.setDrmHeader header))

/-- A challenge for the license server (`challenge_data`). -/
def challengeData (i : SessionRef) (limitedDuration : Bool) : Action σ Bytes := do
  ofReply (← askExtended i (.challengeData limitedDuration))

/-- Takes a challenge back (`cancel_challenge_data`). -/
def cancelChallengeData (i : SessionRef) : Action σ Unit := do
  ofStatus (← askExtended i .cancelChallengeData)

/-- Has a license kept for good, and says under which ID its secure stop is kept
(`store_license_data`). -/
def storeLicenseData (i : SessionRef) (license : Bytes) : Action σ Bytes := do
  ofReply (← askExtended i (.storeLicenseData license))

/-- Selects a key (`select_key_id`). -/
def selectKeyId (i : SessionRef) (id : Bytes) : Action σ Unit := do
  ofStatus (← askExtended i (.selectKeyId id))

/-- Drops the key that is selected (`clean_decrypt_context`). -/
def cleanDecryptContext (i : SessionRef) : Action σ Unit := do
  ofStatus (← askExtended i .cleanDecryptContext)

/-! ## Samples -/

/-- The client's end of the decrypt channel of a session (`exchange`). -/
def attachment (i : SessionRef) : Action σ Channel.Attachment := do
  let w ← get
  let s := w.session i
  match s.attachment with
  | some a => pure a
  | none =>
    let settings := (w.registry s.registry).settings
    let a ← ofResult (Channel.Attachment.attach w.memory s.bufferId settings.decryptTimeoutMs
      settings.reservedTokenSize (w.decryptLock i))
    modify fun w => w.setSession i fun s => { s with attachment := some a }
    pure a

/-- Sends a sample through an attached channel. -/
def exchange (a : Channel.Attachment) (r : Channel.Request) :
    Action σ Channel.Attachment.Outcome := do
  let w ← get
  let (out, memory) := a.decrypt false r (Service.decryptor? w.service a.object) w.memory
  set { w with memory }
  pure out

/-- Decrypts a sample (`decrypt`). It is in the caller's buffer afterwards, whatever the result. -/
def decrypt (i : SessionRef) (r : Channel.Request) : Action σ (Except Failure Unit × Bytes) := do
  if r.data.isEmpty then pure (.ok (), r.data)
  else
    match ← attempt (attachment i) with
    | .error f => pure (.error f, r.data)
    | .ok a =>
      let out ← exchange a r
      pure (out.result.mapError .error, out.data)

/-- Prepares a clear sample (`transform_clear`). -/
def transformClear (i : SessionRef) (data : Bytes) : Action σ (Except Error Unit × Bytes) := do
  let w ← get
  pure ((w.registry (w.session i).registry).transform data)

/-- The size hint that a text of stream properties gives, with what came before it
(`media_properties_from_caps`). -/
def mediaPropertiesFromCaps (i : SessionRef) (caps : String) : Action σ MediaProperties := do
  modify fun w => w.setSession i fun s => { s with caps := s.caps.parse caps }
  pure ((← get).session i).caps.mediaProperties

end Action

end Client

end ContentDecryption
