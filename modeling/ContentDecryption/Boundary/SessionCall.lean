import ContentDecryption.Boundary.SystemCall

/-!
# Calls about sessions

A handle holds its session. Handles that were found and handles that were made are
given up in the same way, each for itself; the callbacks go with the handle that was
made with them. A null handle is an invalid session, and that counts before any
other fault.

Samples are decrypted in the caller's buffer. There are two ways to describe one: in
the words of the call, where a sample with neither IV nor key ID has no description,
or by a record, which always is one.
-/

namespace ContentDecryption

namespace Boundary

open Client Client.Action

variable {σ : Type}

/-- The session behind a handle (`session_ref`). -/
def sessionAt (h : Option HandleRef) : Action σ SessionRef := do
  match h with
  | some h => pure ((← get).handle h).session
  | none => fail .invalidSession

variable [Service σ]

/-! ## Handles -/

/-- Makes a handle, which takes over one handle of the session (`boxed` of `OpenCDMSession`). Its
texts have to end at their first zero byte; if they do not, the session is given up. Events that the
bridge has kept back are delivered before the caller has the handle. -/
def openHandle (i : SessionRef) (b : Option BridgeRef) : Action σ HandleRef := do
  let s := (← get).session i
  match checkTerminated s.id, checkTerminated s.bufferId with
  | .ok _, .ok _ =>
    let h := (← get).handles.length
    modify fun w => { w with handles := w.handles ++ [⟨i, s.id, s.bufferId, b, true⟩] }
    match b with
    | some b => attachBridge b h
    | none => pure ()
    pure h
  | .error e, _ =>
    dropSession i
    fail e
  | .ok _, .error e =>
    dropSession i
    fail e

/-- A handle for the session that was found, if one was. -/
def openFound (found : Option SessionRef) : Action σ (Option HandleRef) := do
  match found with
  | none => pure none
  | some i => some <$> openHandle i none

/-- A handle to the session that holds a key (`opencdm_get_session`). -/
def getSession (keyId : Pointer) (length : UInt8) : Call σ (Option HandleRef) :=
  Call.valueOr none do
    let keyId ← ofResult (bytesAt keyId length.toNat)
    let r ← installed
    openFound (← findSession r keyId none)

/-- A handle to the session of one key system that holds a key (`opencdm_get_system_session`). -/
def getSystemSession (s : Option SystemRef) (keyId : Pointer) (length : UInt8) :
    Call σ (Option HandleRef) :=
  Call.valueOr none do
    let i ← systemAt s
    let keyId ← ofResult (bytesAt keyId length.toNat)
    openFound (← findSession ((← get).system i).registry keyId (some i))

/-- What an application says of a session that it asks for (the arguments of
`opencdm_construct_session`). -/
structure SessionOrder where
  licenseType : Int32
  initDataType : Pointer
  initData : Pointer
  initDataLength : UInt16
  cdmData : Pointer
  cdmDataLength : UInt16
  /-- The callbacks, as a bridge that is still to be attached. -/
  callbacks : Option Callback.Bridge

/-- Constructs a session for a caller that passes no null pointer for the handle. -/
def constructSession (s : Option SystemRef) (o : SessionOrder) :
    Call σ (Status × Option HandleRef) :=
  Call.statusAnd none do
    let i ← systemAt s
    let initDataType ← ofResult (textAt o.initDataType)
    let initData ← ofResult (bytesAt o.initData o.initDataLength.toNat)
    let cdmData ← ofResult (bytesAt o.cdmData o.cdmDataLength.toNat)
    let n := (← get).bridges.length
    let b := o.callbacks.map fun _ => n
    modify fun w => { w with bridges := w.bridges ++ o.callbacks.toList }
    let listener := match b with
      | some b => Listener.bridge b
      | none => .nobody
    let x ← createSession i o.licenseType initDataType initData cdmData listener
    some <$> openHandle x b

/-- Constructs a session (`opencdm_construct_session`). A null pointer for the handle is an invalid
argument, and nothing else happens. -/
def construct (s : Option SystemRef) (o : SessionOrder) (outIsNull : Bool) :
    Call σ (Status × Option HandleRef) :=
  if outIsNull then pure (Status.invalidArg, none) else constructSession s o

/-- Gives a handle up (`opencdm_destruct_session`). -/
def destructSession (h : Option HandleRef) : Call σ Status :=
  match h with
  | none => pure Status.invalidSession
  | some h => Call.status (dropHandle h)

/-! ## Keys -/

/-- The ledger of a session and a key ID, if both were passed. -/
def keyAt (h : Option HandleRef) (keyId : Pointer) (length : UInt8) :
    Call σ (Option (KeyLedger × Bytes)) :=
  Call.valueOr none do
    let i ← sessionAt h
    let keyId ← ofResult (bytesAt keyId length.toNat)
    pure (some ((← get).ledger i, keyId))

/-- One if the session knows the key (`opencdm_session_has_key_id`). -/
def hasKeyId (h : Option HandleRef) (keyId : Pointer) (length : UInt8) : Call σ UInt32 := do
  match ← keyAt h keyId length with
  | some (l, id) => pure (if l.contains id then 1 else 0)
  | none => pure 0

/-- The status of a key (`opencdm_session_status`). -/
def keyStatus (h : Option HandleRef) (keyId : Pointer) (length : UInt8) : Call σ UInt32 := do
  match ← keyAt h keyId length with
  | some (l, id) => pure (l.status id).raw
  | none => pure KeyStatus.internalError.raw

/-- The error value of a key that a session does not know (`KEY_ERROR_UNKNOWN`). -/
def unknownKeyError : UInt32 := 0xffffffff

/-- The error value of a key (`opencdm_session_error`). -/
def keyError (h : Option HandleRef) (keyId : Pointer) (length : UInt8) : Call σ UInt32 := do
  match ← keyAt h keyId length with
  | some (l, id) => pure ((l.errorValue? id).getD unknownKeyError)
  | none => pure unknownKeyError

/-- The last error that the service holds for a session (`opencdm_session_system_error`). -/
def systemError (h : Option HandleRef) : Call σ Status := do
  match h with
  | none => pure Status.invalidSession
  | some _ =>
    Call.valueOr Status.fail do
      let i ← sessionAt h
      Action.systemError i

/-! ## The license exchange -/

/-- Loads what the service has stored for a session (`opencdm_session_load`). -/
def load (h : Option HandleRef) : Call σ Status := Call.status do
  let i ← sessionAt h
  Action.load i

/-- Hands over the answer of the license server (`opencdm_session_update`). -/
def update (h : Option HandleRef) (response : Pointer) (length : UInt16) : Call σ Status :=
  Call.status do
    let i ← sessionAt h
    let response ← ofResult (bytesAt response length.toNat)
    Action.update i response

/-- Drops what a session has been licensed (`opencdm_session_remove`). -/
def remove (h : Option HandleRef) : Call σ Status := Call.status do
  let i ← sessionAt h
  Action.remove i

/-- Closes a session (`opencdm_session_close`). -/
def close (h : Option HandleRef) : Call σ Status := Call.status do
  let i ← sessionAt h
  Action.close i

/-- Resets the output protection (`opencdm_session_resetoutputprotection`). -/
def resetOutputProtection (h : Option HandleRef) : Call σ Status := Call.status do
  let i ← sessionAt h
  Action.resetOutputProtection i

/-- Sets a parameter of a session (`opencdm_session_set_parameter`). -/
def setParameter (h : Option HandleRef) (name value : Pointer) : Call σ Status := Call.status do
  let i ← sessionAt h
  let name ← ofResult (textAt name)
  let value ← ofResult (textAt value)
  Action.setParameter i name value

/-- Sets the header of an extended session (`opencdm_session_set_drm_header`). -/
def setDrmHeader (h : Option HandleRef) (header : Pointer) (length : UInt32) : Call σ Status :=
  Call.status do
    let i ← sessionAt h
    let header ← ofResult (bytesAt header length.toNat)
    Action.setDrmHeader i header

/-- Stores a challenge for the license server (`opencdm_session_get_challenge_data`). -/
def challengeData (h : Option HandleRef) (b : Buffer) (limitedDuration : UInt32) :
    Call σ (Status × Buffer) :=
  Call.fill b do
    let i ← sessionAt h
    Action.challengeData i (limitedDuration != 0)

/-- Takes a challenge back (`opencdm_session_cancel_challenge_data`). -/
def cancelChallengeData (h : Option HandleRef) : Call σ Status := Call.status do
  let i ← sessionAt h
  Action.cancelChallengeData i

/-- The length of the ID under which a secure stop is kept. -/
def secureStopIdLength : Nat := 16

/-- Has a license kept for good, and stores the ID of its secure stop, cut or filled up with zeros
(`opencdm_session_store_license_data`). -/
def storeLicenseData (h : Option HandleRef) (license : Pointer) (length : UInt32) (id : Pointer) :
    Call σ (Status × Pointer) :=
  Call.statusAnd id do
    let i ← sessionAt h
    let license ← ofResult (bytesAt license length.toNat)
    let memory ← wordAt id
    let stop ← Action.storeLicenseData i license
    pure (some (Bytes.overwrite memory 0 (Bytes.fit secureStopIdLength stop)))

/-- Selects a key (`opencdm_session_select_key_id`). -/
def selectKeyId (h : Option HandleRef) (keyId : Pointer) (length : UInt8) : Call σ Status :=
  Call.status do
    let i ← sessionAt h
    let keyId ← ofResult (bytesAt keyId length.toNat)
    Action.selectKeyId i keyId

/-- Drops the key that is selected (`opencdm_session_clean_decrypt_context`). -/
def cleanDecryptContext (h : Option HandleRef) : Call σ Status := Call.status do
  let i ← sessionAt h
  Action.cleanDecryptContext i

/-! ## Samples -/

/-- The scheme that a word stands for. -/
def schemeAt (w : UInt32) : Except Error EncryptionScheme :=
  match EncryptionScheme.ofRaw? w with
  | some s => .ok s
  | none => .error .invalidArg

/-- How a sample is encrypted, in the words of a call (the arguments of
`opencdm_session_decrypt`). -/
structure SampleWords where
  scheme : UInt32
  pattern : EncryptionPattern
  iv : Pointer
  ivLength : UInt16
  keyId : Pointer
  keyIdLength : UInt16

namespace SampleWords

/-- The description that the words give. Without IV and key ID there is none, whatever the
scheme. -/
def toInfo? (x : SampleWords) : Except Error (Option SampleInfo) := do
  let iv ← bytesAt x.iv x.ivLength.toNat
  let keyId ← bytesAt x.keyId x.keyIdLength.toNat
  if iv.isEmpty && keyId.isEmpty then pure none
  else
    let scheme ← schemeAt x.scheme
    pure (some { scheme, pattern := x.pattern, iv, keyId })

end SampleWords

/-- How a sample is encrypted, as a record (`OpenCDMSampleInfo`). -/
structure SampleRecord where
  scheme : UInt32
  pattern : EncryptionPattern
  iv : Pointer
  ivLength : UInt8
  keyId : Pointer
  keyIdLength : UInt8
  subsamples : Option (List SubSample)
  subsampleCount : UInt32

namespace SampleRecord

/-- The map of a record. No entries need no pointer. -/
def map? (x : SampleRecord) : Except Error (List SubSample) :=
  if x.subsampleCount = 0 then .ok []
  else
    match x.subsamples with
    | some l => .ok (l.take x.subsampleCount.toNat)
    | none => .error .invalidArg

/-- The description that the record gives (`to_sample_info`). -/
def toInfo (x : SampleRecord) : Except Error SampleInfo := do
  let scheme ← schemeAt x.scheme
  let subsamples ← x.map?
  let iv ← bytesAt x.iv x.ivLength.toNat
  let keyId ← bytesAt x.keyId x.keyIdLength.toNat
  pure { scheme, pattern := x.pattern, iv, keyId, subsamples }

end SampleRecord

/-- Decrypts a sample in the caller's buffer, once its description is known. -/
def decryptAt (h : Option HandleRef) (data : Pointer) (length : UInt32)
    (info : Except Error (Option SampleInfo)) (initWithLast15 : Bool)
    (properties : Option MediaProperties) : Call σ (Status × Pointer) := do
  let request : Action σ (SessionRef × Channel.Request) := do
    let i ← sessionAt h
    let sample ← ofResult (bytesAt data length.toNat)
    let info ← ofResult info
    pure (i, ⟨sample, info, initWithLast15, properties⟩)
  let a : Action σ (Except Failure Unit × Bytes) := do
    let (i, r) ← request
    Action.decrypt i r
  match ← a.run with
  | .error f => pure (f.status, data)
  | .ok (result, sample) =>
    let status := match result with
      | .ok _ => Status.none
      | .error f => f.status
    pure (status, data.map fun memory => Bytes.overwrite memory 0 sample)

/-- Decrypts a sample that the words of the call describe (`opencdm_session_decrypt`). -/
def decrypt (h : Option HandleRef) (data : Pointer) (length : UInt32) (x : SampleWords)
    (initWithLast15 : UInt32) : Call σ (Status × Pointer) :=
  decryptAt h data length x.toInfo? (initWithLast15 != 0) none

/-- Decrypts a sample that a record describes, or none (`opencdm_session_decrypt_v2`). -/
def decryptRecord (h : Option HandleRef) (data : Pointer) (length : UInt32)
    (x : Option SampleRecord) (properties : Option MediaProperties) : Call σ (Status × Pointer) :=
  decryptAt h data length
    (match x with
      | none => .ok none
      | some x => x.toInfo.map some)
    false properties

end Boundary

end ContentDecryption
