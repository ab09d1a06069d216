import ContentDecryption.Digest
import ContentDecryption.Service.Request

/-!
# The store of the loopback engine

Licenses that outlive their session, and for each of them a secure stop: proof that
its use has ended, kept under an ID until the license server has committed it.

The two are cleared apart. Each has a hash that changes with its contents.
-/

namespace ContentDecryption

namespace Loopback

open Service

/-- The stored licenses and the pending secure stops, in the order of storing (`LoopbackStore`). -/
structure Store where
  secureStopsEnabled : Bool := false
  secureStops : List (Bytes × Bytes) := []
  licenses : List Bytes := []
  deriving Repr, DecidableEq

namespace Store

/-- Keeps a license, and its secure stop under `id` (`store`). -/
def add (s : Store) (id license : Bytes) : Store :=
  { s with
    licenses := s.licenses ++ [license]
    secureStops := s.secureStops ++ [(id, license)] }

/-- The license that is kept under the ID of a secure stop (`secure_stop`). -/
def secureStop? (s : Store) (id : Bytes) : Option Bytes := s.secureStops.lookup id

/-- Takes a secure stop out (`commit_secure_stop`). -/
def commit (s : Store) (id : Bytes) : Store :=
  { s with secureStops := s.secureStops.filter fun stop => stop.1 != id }

/-- The hash of the stored licenses (`key_store_hash`). -/
def licenseHash (s : Store) : Bytes := Bytes.ofLongBE (Digest.ofList Digest.framed s.licenses)

/-- The hash of the pending secure stops (`secure_store_hash`). -/
def secureStopHash (s : Store) : Bytes :=
  let form := fun stop : Bytes × Bytes => Digest.framed stop.1 ++ Digest.framed stop.2
  Bytes.ofLongBE (Digest.ofList form s.secureStops)

/-- The most sessions that may use licenses of limited duration (`LDL_SESSION_LIMIT`). -/
def ldlSessionLimit : UInt32 := 4

/-- Answers a request about a key system, at the time `now`. The store is the same for all of
them. -/
def respond (s : Store) (now : Nat) : (r : SystemRequest) → r.Answer × Store
  | .drmSystemTime => (.ok now, s)
  | .ldlSessionLimit => (.ok ldlSessionLimit, s)
  | .isSecureStopEnabled => (s.secureStopsEnabled, s)
  | .enableSecureStop enable => (Status.none, { s with secureStopsEnabled := enable })
  | .resetSecureStop =>
    (.ok (UInt32.ofNat s.secureStops.length), { s with secureStops := [] })
  | .secureStopIds => (.ok (s.secureStops.map Prod.fst), s)
  | .secureStop id =>
    match s.secureStop? id with
    | some license => (.ok license, s)
    | none => (.error Status.invalidArg, s)
  | .commitSecureStop id _ =>
    if (s.secureStop? id).isSome then (Status.none, s.commit id) else (Status.invalidArg, s)
  | .deleteKeyStore => (Status.none, { s with licenses := [] })
  | .deleteSecureStore => (Status.none, { s with secureStops := [] })
  | .keyStoreHash => (.ok s.licenseHash, s)
  | .secureStoreHash => (.ok s.secureStopHash, s)

end Store

end Loopback

end ContentDecryption
