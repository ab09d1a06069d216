import ContentDecryption.Boundary.Call

/-!
# Calls about key systems

A null handle is an invalid argument. Where a call has several faults, the handle
counts before the arguments, and the arguments count in their order.
-/

namespace ContentDecryption

namespace Boundary

open Client Client.Action

variable {σ : Type}

/-- The system behind a handle (`system_ref`). -/
def systemAt (s : Option SystemRef) : Action σ SystemRef :=
  match s with
  | some i => pure i
  | none => fail .invalidArg

/-- A pointer to a word that must not be null. -/
def wordAt {α : Type} (p : Option α) : Action σ α :=
  match p with
  | some x => pure x
  | none => fail .invalidArg

variable [Service σ]

/-- Whether the service supports a type of media in a key system (`opencdm_is_type_supported`). No
type asks for the key system alone. -/
def isTypeSupported (keySystem mimeType : Pointer) : Call σ Status := Call.status do
  let r ← installed
  let keySystem ← ofResult (textAt keySystem)
  let mimeType ← if mimeType.isNone then pure "" else ofResult (textAt mimeType)
  Action.isTypeSupported r keySystem mimeType

/-- Takes a key system into use (`opencdm_create_system`). -/
def createSystem (keySystem : Pointer) : Call σ (Option SystemRef) := Call.valueOr none do
  let r ← installed
  let keySystem ← ofResult (textAt keySystem)
  some <$> Action.createSystem r keySystem

/-- Gives a key system up (`opencdm_destruct_system`). -/
def destructSystem (s : Option SystemRef) : Call σ Status :=
  match s with
  | none => pure Status.invalidArg
  | some i => Call.status (dropSystem i)

/-- The description of a key system as a text with its zero byte (`opencdm_system_get_metadata`). -/
def systemMetadata (s : Option SystemRef) (b : Buffer) : Call σ (Status × Buffer) :=
  Call.fill b do
    let i ← systemAt s
    pure (Bytes.ofText ((← get).system i).metadata ++ [0])

/-- Hands the service a certificate (`opencdm_system_set_server_certificate`). -/
def setServerCertificate (s : Option SystemRef) (certificate : Pointer) (length : UInt16) :
    Call σ Status := Call.status do
  let i ← systemAt s
  let certificate ← ofResult (bytesAt certificate length.toNat)
  Action.setServerCertificate i certificate

/-- Stores the reading of the engine's clock (`opencdm_system_get_drm_time`). -/
def drmTime (s : Option SystemRef) (time : Option Nat) : Call σ (Status × Option Nat) :=
  Call.statusAnd time do
    let i ← systemAt s
    let _ ← wordAt time
    some <$> drmSystemTime i

/-- Stores the most sessions that may use licenses of limited duration
(`opencdm_system_ext_get_ldl_session_limit`). -/
def ldlSessionLimit (s : Option SystemRef) (limit : Option UInt32) :
    Call σ (Status × Option UInt32) :=
  Call.statusAnd limit do
    let i ← systemAt s
    let _ ← wordAt limit
    some <$> Action.ldlSessionLimit i

/-- One if secure stops are enabled, zero if not or on failure
(`opencdm_system_ext_is_secure_stop_enabled`). -/
def isSecureStopEnabled (s : Option SystemRef) : Call σ UInt32 := Call.valueOr 0 do
  let i ← systemAt s
  let enabled ← Action.isSecureStopEnabled i
  pure (if enabled then 1 else 0)

/-- Turns secure stops on or off (`opencdm_system_ext_enable_secure_stop`). -/
def enableSecureStop (s : Option SystemRef) (enable : UInt32) : Call σ Status := Call.status do
  let i ← systemAt s
  Action.enableSecureStop i (enable != 0)

/-- Clears all secure stops (`opencdm_system_ext_reset_secure_stop`). Returns how many there were,
zero on failure. -/
def resetSecureStop (s : Option SystemRef) : Call σ UInt32 := Call.valueOr 0 do
  let i ← systemAt s
  Action.resetSecureStop i

/-- Where the IDs of secure stops are to be put: in slots of one width, with the number of slots in
a word. -/
structure Slots where
  out : Pointer
  width : UInt8
  count : Option UInt32
  deriving Repr, DecidableEq

namespace Slots

/-- Puts IDs into the slots, each filled up with zeros, and their number into the word. Nothing is
changed if an ID is wider than a slot. -/
def put (b : Slots) (ids : List Bytes) : Except Error Unit × Slots :=
  match b.count with
  | none => (.error .invalidArg, b)
  | some capacity =>
    let width := b.width.toNat
    if ids.any (fun id => decide (width < id.length)) then (.error .invalidArg, b)
    else if 4294967296 ≤ ids.length then (.error .bufferTooSmall, b)
    else
      let count := some (UInt32.ofNat ids.length)
      if capacity.toNat < ids.length || (b.out.isNone && !ids.isEmpty) then
        (.error (.moreDataAvailable (ids.length * width)), { b with count })
      else
        let slots := ids.flatMap (Bytes.fit width)
        (.ok (), { b with count, out := b.out.map fun memory => Bytes.overwrite memory 0 slots })

end Slots

/-- Stores the IDs of the pending secure stops (`opencdm_system_ext_get_secure_stop_ids`). -/
def secureStopIds (s : Option SystemRef) (b : Slots) : Call σ (Status × Slots) := do
  let ids : Action σ (List Bytes) := do
    let i ← systemAt s
    let _ ← wordAt b.count
    Action.secureStopIds i
  match ← ids.run with
  | .error f => pure (f.status, b)
  | .ok ids =>
    let (result, b) := b.put ids
    pure (Error.statusOf result, b)

/-- Stores the license behind a secure stop (`opencdm_system_ext_get_secure_stop`). -/
def secureStop (s : Option SystemRef) (id : Pointer) (length : UInt32) (b : Buffer) :
    Call σ (Status × Buffer) :=
  Call.fill b do
    let i ← systemAt s
    let id ← ofResult (bytesAt id length.toNat)
    Action.secureStop i id

/-- Reports that the license server has committed a secure stop
(`opencdm_system_ext_commit_secure_stop`). -/
def commitSecureStop (s : Option SystemRef) (id : Pointer) (length : UInt32) (response : Pointer)
    (responseLength : UInt32) : Call σ Status := Call.status do
  let i ← systemAt s
  let id ← ofResult (bytesAt id length.toNat)
  let response ← ofResult (bytesAt response responseLength.toNat)
  Action.commitSecureStop i id response

/-- Deletes the stored licenses (`opencdm_delete_key_store`). -/
def deleteKeyStore (s : Option SystemRef) : Call σ Status := Call.status do
  let i ← systemAt s
  Action.deleteKeyStore i

/-- Deletes the pending secure stops (`opencdm_delete_secure_store`). -/
def deleteSecureStore (s : Option SystemRef) : Call σ Status := Call.status do
  let i ← systemAt s
  Action.deleteSecureStore i

/-- Stores a hash. The capacity is passed by value, so the length that is needed is not passed
back. -/
def storeHash (hash : Pointer) (length : UInt32) (a : Action σ Bytes) :
    Call σ (Status × Pointer) := do
  let (status, b) ← Call.fill ⟨hash, some length⟩ a
  pure (status, b.out)

/-- Stores the hash of the stored licenses (`opencdm_get_key_store_hash_ext`). -/
def keyStoreHash (s : Option SystemRef) (hash : Pointer) (length : UInt32) :
    Call σ (Status × Pointer) :=
  storeHash hash length do
    let i ← systemAt s
    Action.keyStoreHash i

/-- Stores the hash of the pending secure stops (`opencdm_get_secure_store_hash_ext`). -/
def secureStoreHash (s : Option SystemRef) (hash : Pointer) (length : UInt32) :
    Call σ (Status × Pointer) :=
  storeHash hash length do
    let i ← systemAt s
    Action.secureStoreHash i

end Boundary

end ContentDecryption
