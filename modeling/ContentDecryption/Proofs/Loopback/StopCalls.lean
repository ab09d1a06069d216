import ContentDecryption.Proofs.Boundary.Calls
import ContentDecryption.Proofs.Boundary.Handout
import ContentDecryption.Proofs.Boundary.Listing
import ContentDecryption.Proofs.Loopback.Reach

/-!
# What calls do to secure stops

The loopback engine keeps a secure stop for each license that it is to keep for good. Here is
what each call about them returns and what it leaves in the store, when it reaches the engine
and when it does not.

Main definitions:

* `reaches`: a key system leads to an engine that is asked about key systems.

Main results:

* `run_storeLicenseData_cases`: a license is stored under an ID of sixteen bytes, which is written,
  or nothing is stored;
* `run_secureStopIds_of_reaches`, `run_secureStop_of_some`, `run_commitSecureStop_of_reaches` and
  the lemmas beside them: what the other calls return and leave;
* `Call.store_after`: no other call of a client touches the store, but for one to store a license.
-/

namespace ContentDecryption

namespace Loopback

open Client Service

theorem isSome_lookup_iff {stops : List (Bytes × Bytes)} {id : Bytes} :
    (stops.lookup id).isSome = true ↔ id ∈ stops.map Prod.fst := by
  rw [List.lookup_isSome_iff, List.mem_map]
  exact exists_congr fun p => and_congr_right fun _ => by rw [beq_iff_eq, eq_comm]

/-! ## The engine -/

/-- A request about neither a key system nor a license to be stored leaves the store alone. -/
theorem Engine.store_respond (r : Request) (e : Engine) (m : SharedMemory)
    (hsystem : ∀ keySystem q, r ≠ .system keySystem q)
    (hstore : ∀ i license, r ≠ .session i (.storeLicenseData license)) :
    (respond r e m).service.store = e.store := by
  cases r with
  | openConnection | accessor | closeConnection | isTypeSupported | metadata => rfl
  | system keySystem q => exact absurd rfl (hsystem keySystem q)
  | setServerCertificate keySystem certificate =>
    show (e.setServerCertificate keySystem certificate).2.store = e.store
    unfold setServerCertificate
    split
    · rfl
    · split <;> rfl
  | createSession setup k =>
    show (e.createSession m setup k).2.1.store = e.store
    unfold createSession
    split
    · rfl
    · dsimp only
      split <;> rfl
  | session i q =>
    cases hs : e.sessions[i]? with
    | none => simp only [respond, hs]
    | some s =>
      rw [respond_session hs]
      show (e.respondSession s q).2.2.store = e.store
      cases q with
      | storeLicenseData license => exact absurd rfl (hstore i license)
      | _ => rfl

namespace Store

variable (s : Store) (now : Nat)

theorem respond_secureStop_of_some {id license : Bytes}
    (h : s.secureStops.lookup id = some license) :
    s.respond now (.secureStop id) = (.ok license, s) := by
  simp only [respond, secureStop?, h]

theorem respond_secureStop_of_none {id : Bytes} (h : s.secureStops.lookup id = none) :
    s.respond now (.secureStop id) = (.error Status.invalidArg, s) := by
  simp only [respond, secureStop?, h]

/-- A secure stop is committed if it is kept. -/
theorem respond_commitSecureStop_of_mem {id : Bytes} (h : id ∈ s.secureStops.map Prod.fst)
    (response : Bytes) :
    s.respond now (.commitSecureStop id response) = (Status.none, s.commit id) :=
  if_pos (isSome_lookup_iff.2 h)

theorem respond_commitSecureStop_of_not_mem {id : Bytes} (h : id ∉ s.secureStops.map Prod.fst)
    (response : Bytes) :
    s.respond now (.commitSecureStop id response) = (Status.invalidArg, s) :=
  if_neg (mt isSome_lookup_iff.1 h)

/-- What only asks about secure stops, or is about something else, leaves them alone. -/
theorem secureStops_respond {r : SystemRequest} (hreset : r ≠ .resetSecureStop)
    (hdelete : r ≠ .deleteSecureStore) (hcommit : ∀ id response, r ≠ .commitSecureStop id response) :
    (s.respond now r).2.secureStops = s.secureStops := by
  cases r with
  | resetSecureStop => exact absurd rfl hreset
  | deleteSecureStore => exact absurd rfl hdelete
  | commitSecureStop id response => exact absurd rfl (hcommit id response)
  | secureStop id =>
    cases h : s.secureStops.lookup id with
    | none => rw [s.respond_secureStop_of_none now h]
    | some license => rw [s.respond_secureStop_of_some now h]
  | _ => rfl

end Store

/-! ## What calls come to -/

section

variable {w : World Engine}

/-- Whether a key system leads to an engine that is asked about key systems. -/
def reaches (w : World Engine) (i : SystemRef) : Bool :=
  (w.registry (w.system i).registry).accessor.any (Service.hasSystemRequests w.service)

theorem exec_askSystem_of_reaches {i : SystemRef} (h : reaches w i = true)
    (r : SystemRequest) : ∃ w', (Action.askSystem i r).exec w =
      (.ok (w.service.store.respond w.service.now r).1, w') ∧
      w'.service = { w.service with
        store := (w.service.store.respond w.service.now r).2
        readings := w.service.readings + 1 } := by
  obtain ⟨a, ha, hasked⟩ := (Option.any_eq_true _ _).1 h
  exact ⟨_, Action.exec_askSystem_of_answer ha hasked rfl, rfl⟩

/-- A system that does not lead to an engine asks nothing. -/
theorem exec_askSystem_of_not {i : SystemRef} (h : reaches w i = false)
    (r : SystemRequest) : ∃ f : Failure, f.status ≠ Status.none ∧
      (Action.askSystem i r).exec w = (.error f, w) := by
  unfold Action.askSystem
  rw [Action.exec_get_bind]
  dsimp only
  cases ha : (w.registry (w.system i).registry).accessor with
  | none =>
    exact ⟨.error .invalidAccessor, by decide,
      Action.exec_bind_of_error (Action.exec_accessor_of_none ha) _⟩
  | some a =>
    have hasked : ¬ Service.hasSystemRequests w.service a = true := by
      rw [reaches, ha] at h
      exact Bool.eq_false_iff.1 h
    refine ⟨.error .methodNotImplemented, by decide, ?_⟩
    rw [Action.exec_bind_of_ok (Action.exec_accessor_of_some ha), Action.exec_get_bind]
    exact congrArg (fun a => Action.exec a w) (if_neg hasked)

theorem exec_askExtended_cases (w : World Engine) (i : SessionRef) (r : SessionRequest) :
    (∃ f : Failure, f.status ≠ Status.none ∧ (Action.askExtended i r).exec w = (.error f, w)) ∨
      (Action.askExtended i r).exec w =
        (Action.ask (.session (w.session i).remote r) : Action Engine r.Answer).exec w := by
  unfold Action.askExtended
  rw [Action.exec_get_bind]
  dsimp only
  by_cases hextended : (w.session i).extended = true
  · exact .inr (congrArg (fun a => Action.exec a w) (if_pos hextended))
  · exact .inl ⟨.error .methodNotImplemented, by decide,
      congrArg (fun a => Action.exec a w) (if_neg hextended)⟩

/-- A license is stored under an ID of sixteen bytes, or nothing is. -/
theorem exec_storeLicenseData_cases (w : World Engine) (i : SessionRef) (license : Bytes) :
    (∃ f w', f.status ≠ Status.none ∧
      (Action.storeLicenseData i license).exec w = (.error f, w') ∧
      w'.service.store = w.service.store) ∨
    (license ≠ [] ∧ ∃ id w', id.length = Boundary.secureStopIdLength ∧
      (Action.storeLicenseData i license).exec w = (.ok id, w') ∧
      w'.service.store = w.service.store.add id license) := by
  let q : SessionRequest := .storeLicenseData license
  rcases exec_askExtended_cases w i q with ⟨f, hf, hask⟩ | hask
  · exact .inl ⟨f, w, hf, Action.exec_bind_of_error hask _, rfl⟩
  let n := (w.session i).remote
  have hexec := hask.trans (Action.exec_ask (.session n q) w)
  have hstore : (w.answered (.session n q)).service.store =
    (Service.respond (.session n q) w.service w.memory).service.store := rfl
  cases hs : w.service.sessions[n]? with
  | none =>
    have hresponse : Service.respond (.session n q) w.service w.memory =
        ⟨none, w.service, w.memory⟩ := by
      show Engine.respond (.session n q) w.service w.memory = _
      simp only [Engine.respond, hs]
    rw [hresponse] at hexec hstore
    exact .inl ⟨.aborted, _, by decide, Action.exec_bind_of_error hexec _, hstore⟩
  | some s =>
    have hresponse : Service.respond (.session n q) w.service w.memory = _ :=
      Engine.respond_session hs q w.memory
    have hq : w.service.respondSession s q =
      ((w.service.storeLicense license).1, s, (w.service.storeLicense license).2) := rfl
    rw [hresponse] at hexec hstore
    dsimp only at hexec hstore
    rw [hq] at hexec hstore
    unfold Engine.storeLicense at hexec hstore
    by_cases hempty : license = []
    · subst hempty
      exact .inl ⟨_, _, by decide, Action.exec_bind_of_ok hexec _, hstore⟩
    · rw [if_neg (mt List.isEmpty_iff.1 hempty)] at hexec hstore
      exact .inr ⟨hempty, _, _, w.service.identifiers.length_bytes _, Action.exec_bind_of_ok hexec _, hstore⟩

end

end Loopback

namespace Boundary

open Client Loopback

/-! ## Calls -/

section

variable {w : World Engine}

/-- A license is stored, and the ID of its secure stop written, or the store is as it was. -/
theorem run_storeLicenseData_cases (w : World Engine) (h : Option HandleRef) (license : Pointer)
    (length : UInt32) (id : Pointer) :
    let x := (storeLicenseData h license length id).run w
    (x.1.1 ≠ Status.none ∧ x.2.service.store = w.service.store) ∨
      ∃ data memory stop, bytesAt license length.toNat = .ok data ∧ data ≠ [] ∧
        id = some memory ∧ stop.length = secureStopIdLength ∧
        x.1 = (Status.none, some (Bytes.overwrite memory 0 stop)) ∧
        x.2.service.store = w.service.store.add stop data := by
  intro x
  cases h with
  | none =>
    have hx : x = ((Status.invalidSession, id), w) := rfl
    exact .inl (hx ▸ ⟨show Status.invalidSession ≠ Status.none by decide, rfl⟩)
  | some k =>
  have hsession : (sessionAt (some k) : Action Engine SessionRef).exec w =
    (.ok (w.handle k).session, w) := rfl
  have hx : x = (Call.statusAnd id do
      let license ← Action.ofResult (bytesAt license length.toNat)
      let memory ← wordAt id
      let stop ← Action.storeLicenseData (w.handle k).session license
      pure (some (Bytes.overwrite memory 0 (Bytes.fit secureStopIdLength stop))) :
        Call Engine _).run w := by
    show (storeLicenseData (some k) license length id).run w = _
    rw [storeLicenseData, Call.run_statusAnd, Call.run_statusAnd, Action.exec_bind_of_ok hsession]
  rcases bytesAt_cases license length.toNat with hdata | ⟨data, hdata⟩
  · rw [hdata] at hx
    have hx : x = ((Status.invalidArg, id), w) := hx
    exact .inl (hx ▸ ⟨show Status.invalidArg ≠ Status.none by decide, rfl⟩)
  rw [hdata] at hx
  cases id with
  | none =>
    have hx : x = ((Status.invalidArg, none), w) := hx
    exact .inl (hx ▸ ⟨show Status.invalidArg ≠ Status.none by decide, rfl⟩)
  | some memory =>
  rcases exec_storeLicenseData_cases w (w.handle k).session data with
    ⟨f, w', hf, hexec, hstore⟩ | ⟨hne, stop, w', hlength, hexec, hstore⟩
  · have hrun : x = ((f.status, some memory), w') := hx.trans
      (Call.run_statusAnd_of_error (Action.exec_bind_of_error hexec _) _)
    exact .inl (hrun ▸ ⟨hf, hstore⟩)
  · have hrun : x = ((Status.none, some (Bytes.overwrite memory 0
        (Bytes.fit secureStopIdLength stop))), w') := hx.trans
      (Call.run_statusAnd_of_ok (Action.exec_bind_of_ok hexec _) _)
    rw [← hlength, Bytes.fit_length] at hrun
    exact .inr ⟨data, memory, stop, hdata, hne, rfl, hlength, hrun ▸ rfl, hrun ▸ hstore⟩

variable {i : SystemRef}

theorem run_commitSecureStop {id response : Pointer} {length responseLength : UInt32}
    {key reply : Bytes} (hid : bytesAt id length.toNat = .ok key)
    (hresponse : bytesAt response responseLength.toNat = .ok reply) :
    (commitSecureStop (some i) id length response responseLength).run w =
      (Call.status (Action.commitSecureStop i key reply)).run w := by
  unfold commitSecureStop
  rw [hid, hresponse]
  rfl

variable (hi : reaches w i = true)

include hi

/-- The IDs of all secure stops that are kept are put into slots of sixteen bytes. -/
theorem run_secureStopIds_of_reaches
    (hwidth : ∀ stop ∈ w.service.store.secureStops, stop.1.length = secureStopIdLength)
    {memory : Bytes} {capacity : UInt32}
    (hfits : w.service.store.secureStops.length ≤ capacity.toNat)
    (hroom : capacity.toNat * secureStopIdLength ≤ memory.length) :
    let ids := w.service.store.secureStops.map Prod.fst
    ((secureStopIds (some i) ⟨some memory, 16, some capacity⟩).run w).1 =
      (Status.none, ⟨some (ids.flatten ++ memory.drop (ids.length * secureStopIdLength)), 16,
        some (UInt32.ofNat ids.length)⟩) := by
  intro ids
  obtain ⟨w', hask, -⟩ := exec_askSystem_of_reaches hi .secureStopIds
  have hids : (Action.secureStopIds i).exec w = (.ok ids, w') := Action.exec_bind_of_ok hask _
  have hlength : ids.length ≤ capacity.toNat := (List.length_map _).symm ▸ hfits
  have hsixteen : ∀ id ∈ ids, id.length = secureStopIdLength := by
    intro id hid
    obtain ⟨stop, hstop, rfl⟩ := List.mem_map.1 hid
    exact hwidth stop hstop
  have hfit : ∀ id ∈ ids, Bytes.fit secureStopIdLength id = id := fun id hid => by
    rw [← hsixteen id hid, Bytes.fit_length]
  have hflat : ids.flatMap (Bytes.fit secureStopIdLength) = ids.flatten := by
    rw [List.flatMap_def, List.map_congr_left hfit, List.map_id']
  have htotal : (ids.flatMap (Bytes.fit secureStopIdLength)).length ≤ memory.length := by
    rw [Bytes.length_flatMap_fit]
    exact Nat.le_trans (Nat.mul_le_mul_right _ hlength) hroom
  rw [run_secureStopIds (b := ⟨some memory, 16, some capacity⟩) rfl, hids]
  dsimp only
  have hnarrow : ∀ id ∈ ids, id.length ≤ (16 : UInt8).toNat := fun id hid =>
    Nat.le_of_eq (hsixteen id hid)
  rw [Slots.put_of_room hnarrow hlength]
  show (Status.none, (⟨some (Bytes.overwrite memory 0
    (ids.flatMap (Bytes.fit secureStopIdLength))), 16, _⟩ : Slots)) = _
  rw [Bytes.overwrite_of_le htotal, Bytes.length_flatMap_fit, hflat]

/-- The license of a secure stop that is kept is put into a buffer with room for it. -/
theorem run_secureStop_of_some {id : Pointer} {length : UInt32} {key license : Bytes}
    (hid : bytesAt id length.toNat = .ok key)
    (hstop : w.service.store.secureStops.lookup key = some license) {memory : Bytes}
    {capacity : UInt32} (hfits : license.length ≤ capacity.toNat)
    (hroom : capacity.toNat ≤ memory.length) :
    ((secureStop (some i) id length ⟨some memory, some capacity⟩).run w).1 =
      (Status.none, ⟨some (license ++ memory.drop license.length),
        some (UInt32.ofNat license.length)⟩) := by
  obtain ⟨w', hask, -⟩ := exec_askSystem_of_reaches hi (.secureStop key)
  rw [Store.respond_secureStop_of_some _ _ hstop] at hask
  have hexec : (Action.secureStop i key).exec w = (.ok license, w') := Action.exec_bind_of_ok hask _
  rw [run_secureStop hid, Call.run_fill_of_ok hexec, Buffer.put_of_room hfits hroom]
  rfl

theorem run_secureStop_of_none {id : Pointer} {length : UInt32} {key : Bytes}
    (hid : bytesAt id length.toNat = .ok key)
    (hstop : w.service.store.secureStops.lookup key = none) (b : Buffer) :
    ((secureStop (some i) id length b).run w).1 = (Status.invalidArg, b) := by
  obtain ⟨w', hask, -⟩ := exec_askSystem_of_reaches hi (.secureStop key)
  rw [Store.respond_secureStop_of_none _ _ hstop] at hask
  have hexec : (Action.secureStop i key).exec w =
    (.error (.error (Error.ofFailure Status.invalidArg)), w') := Action.exec_bind_of_ok hask _
  rw [run_secureStop hid, Call.run_fill_of_error hexec]
  rfl

/-- A secure stop that is kept is committed, and no other one. -/
theorem run_commitSecureStop_of_reaches {id response : Pointer} {length responseLength : UInt32}
    {key reply : Bytes} (hid : bytesAt id length.toNat = .ok key)
    (hresponse : bytesAt response responseLength.toNat = .ok reply) :
    let x := (commitSecureStop (some i) id length response responseLength).run w
    let stops := w.service.store.secureStops
    (key ∈ stops.map Prod.fst → x.1 = Status.none ∧
      x.2.service.store.secureStops = stops.filter fun stop => stop.1 != key) ∧
    (key ∉ stops.map Prod.fst → x.1 = Status.invalidArg ∧ x.2.service.store.secureStops = stops) := by
  intro x stops
  obtain ⟨w', hask, hservice⟩ := exec_askSystem_of_reaches hi (.commitSecureStop key reply)
  have hstops := congrArg (fun e => e.store.secureStops) hservice
  have hx : x = (Call.status (Action.commitSecureStop i key reply)).run w :=
    run_commitSecureStop hid hresponse
  refine ⟨fun hkept => ?_, fun hnone => ?_⟩
  · rw [Store.respond_commitSecureStop_of_mem _ _ hkept] at hask hstops
    have hexec : (Action.commitSecureStop i key reply).exec w = (.ok (), w') :=
      Action.exec_bind_of_ok hask _
    rw [hx, Call.run_status_of_ok hexec]
    exact ⟨rfl, hstops⟩
  · rw [Store.respond_commitSecureStop_of_not_mem _ _ hnone] at hask hstops
    have hexec : (Action.commitSecureStop i key reply).exec w = (.error (.error .invalidArg), w') :=
      Action.exec_bind_of_ok hask _
    rw [hx, Call.run_status_of_error hexec]
    exact ⟨rfl, hstops⟩

theorem run_resetSecureStop_of_reaches :
    let x := (resetSecureStop (some i)).run w
    x.1 = UInt32.ofNat w.service.store.secureStops.length ∧ x.2.service.store.secureStops = [] := by
  obtain ⟨w', hask, hservice⟩ := exec_askSystem_of_reaches hi .resetSecureStop
  have hexec : (Action.resetSecureStop i).exec w =
    (.ok (UInt32.ofNat w.service.store.secureStops.length), w') := Action.exec_bind_of_ok hask _
  have hrun : (resetSecureStop (some i)).run w = _ := Call.run_valueOr_of_ok hexec _
  exact hrun ▸ ⟨rfl, congrArg (fun e => e.store.secureStops) hservice⟩

theorem run_deleteSecureStore_of_reaches :
    let x := (deleteSecureStore (some i)).run w
    x.1 = Status.none ∧ x.2.service.store.secureStops = [] := by
  obtain ⟨w', hask, hservice⟩ := exec_askSystem_of_reaches hi .deleteSecureStore
  have hexec : (Action.deleteSecureStore i).exec w = (.ok (), w') := Action.exec_bind_of_ok hask _
  have hrun : (deleteSecureStore (some i)).run w = _ := Call.run_status_of_ok hexec
  exact hrun ▸ ⟨rfl, congrArg (fun e => e.store.secureStops) hservice⟩

end

/-! ### Calls that fail, and calls that only ask -/

section

variable {w : World Engine} {i : SystemRef}

theorem run_commitSecureStop_cases (w : World Engine) (s : Option SystemRef)
    (id : Pointer) (length : UInt32) (response : Pointer) (responseLength : UInt32) :
    let x := (commitSecureStop s id length response responseLength).run w
    let stops := w.service.store.secureStops
    (x.1 ≠ Status.none ∧ x.2.service.store.secureStops = stops) ∨
      ∃ key, bytesAt id length.toNat = .ok key ∧ x.1 = Status.none ∧
        x.2.service.store.secureStops = stops.filter fun stop => stop.1 != key := by
  intro x stops
  have hinvalid (hx : x = (Status.invalidArg, w)) :
      x.1 ≠ Status.none ∧ x.2.service.store.secureStops = stops :=
    hx ▸ ⟨show Status.invalidArg ≠ Status.none by decide, rfl⟩
  cases s with
  | none => exact .inl (hinvalid rfl)
  | some i =>
  have hx : x = (Call.status do
      let id ← Action.ofResult (bytesAt id length.toNat)
      let response ← Action.ofResult (bytesAt response responseLength.toNat)
      Action.commitSecureStop i id response : Call Engine _).run w := rfl
  rcases bytesAt_cases id length.toNat with hid | ⟨key, hid⟩
  · rw [hid] at hx
    exact .inl (hinvalid hx)
  rcases bytesAt_cases response responseLength.toNat with hresponse | ⟨reply, hresponse⟩
  · rw [hid, hresponse] at hx
    exact .inl (hinvalid hx)
  cases hi : reaches w i with
  | false =>
    obtain ⟨f, hf, hask⟩ := exec_askSystem_of_not hi (.commitSecureStop key reply)
    have hrun : x = (f.status, w) := (run_commitSecureStop hid hresponse).trans
      (Call.run_status_of_error (Action.exec_bind_of_error hask _))
    exact .inl (hrun ▸ ⟨hf, rfl⟩)
  | true =>
    obtain ⟨hkept, hnone⟩ := run_commitSecureStop_of_reaches hi hid hresponse
    by_cases hmem : key ∈ stops.map Prod.fst
    · exact .inr ⟨key, hid, hkept hmem⟩
    · obtain ⟨hstatus, hstops⟩ := hnone hmem
      exact .inl ⟨hstatus ▸ by decide, hstops⟩

/-- Without an engine to ask nothing is cleared. -/
theorem run_resetSecureStop_of_not {s : Option SystemRef} (hs : s.any (reaches w) = false) :
    ((resetSecureStop s).run w).2 = w := by
  cases s with
  | none => rfl
  | some i =>
    obtain ⟨f, -, hask⟩ := exec_askSystem_of_not hs .resetSecureStop
    have hrun : (resetSecureStop (some i)).run w = (0, w) :=
      Call.run_valueOr_of_error (Action.exec_bind_of_error hask _) _
    rw [hrun]

theorem run_deleteSecureStore_of_not {s : Option SystemRef} (hs : s.any (reaches w) = false) :
    ((deleteSecureStore s).run w).1 ≠ Status.none ∧ ((deleteSecureStore s).run w).2 = w := by
  cases s with
  | none => exact ⟨show Status.invalidArg ≠ Status.none by decide, rfl⟩
  | some i =>
    obtain ⟨f, hf, hask⟩ := exec_askSystem_of_not hs .deleteSecureStore
    have hrun : (deleteSecureStore (some i)).run w = (f.status, w) :=
      Call.run_status_of_error (Action.exec_bind_of_error hask _)
    rw [hrun]
    exact ⟨hf, rfl⟩

section Asking

variable {stops : List (Bytes × Bytes)}

theorem keeps_systemAt (s : Option SystemRef) (P : World Engine → Prop) :
    (systemAt s : Action Engine SystemRef).Keeps P := by
  cases s with
  | none => exact .throw _
  | some i => exact .pure i

theorem keeps_wordAt {α : Type} (p : Option α) (P : World Engine → Prop) :
    (wordAt p : Action Engine α).Keeps P := by
  cases p with
  | none => exact .throw _
  | some x => exact .pure x

theorem keeps_ofReply {α : Type} (x : Service.Reply α) (P : World Engine → Prop) :
    (Action.ofReply x : Action Engine α).Keeps P := by
  cases x with
  | ok x => exact .pure x
  | error status => exact .throw _

theorem keeps_askSystem (i : SystemRef) {r : Service.SystemRequest}
    (hr : ∀ (s : Store) (now : Nat), (s.respond now r).2.secureStops = s.secureStops) :
    (Action.askSystem i r : Action Engine r.Answer).Keeps fun w =>
      w.service.store.secureStops = stops := by
  intro w hw
  cases hi : reaches w i with
  | false =>
    obtain ⟨f, -, hask⟩ := exec_askSystem_of_not hi r
    rw [hask]
    exact hw
  | true =>
    obtain ⟨w', hask, hservice⟩ := exec_askSystem_of_reaches hi r
    rw [hask]
    exact (congrArg (fun e => e.store.secureStops) hservice).trans ((hr _ _).trans hw)

theorem secureStops_secureStopIds (w : World Engine) (s : Option SystemRef) (b : Slots) :
    ((secureStopIds s b).run w).2.service.store.secureStops = w.service.store.secureStops := by
  rw [world_secureStopIds]
  exact Action.Keeps.bind (keeps_systemAt s _) (fun i => .bind (keeps_wordAt b.count _) fun _ =>
    .bind (keeps_askSystem i fun _ _ => rfl) fun _ => keeps_ofReply _ _) w rfl

theorem secureStops_secureStop (w : World Engine) (s : Option SystemRef) (id : Pointer)
    (length : UInt32) (b : Buffer) :
    ((secureStop s id length b).run w).2.service.store.secureStops =
      w.service.store.secureStops := by
  rw [secureStop, Call.world_fill]
  refine Action.Keeps.bind (keeps_systemAt s _) (fun i => .bind (.ofResult _) fun key =>
    .bind (keeps_askSystem i fun s now => ?_) fun _ => keeps_ofReply _ _) w rfl
  exact s.secureStops_respond now nofun nofun nofun

/-- The key store is not the secure store. -/
theorem secureStops_deleteKeyStore (w : World Engine) (s : Option SystemRef) :
    ((deleteKeyStore s).run w).2.service.store.secureStops = w.service.store.secureStops := by
  rw [deleteKeyStore, Call.world_status]
  exact Action.Keeps.bind (keeps_systemAt s _)
    (fun i => .bind (keeps_askSystem i fun _ _ => rfl) fun _ => .ofResult _) w rfl

end Asking

end

end Boundary

namespace Loopback

open Client

/-! ### Calls about anything else -/

theorem Engine.store_release (e : Engine) (i : Nat) (m : SharedMemory) :
    (e.release i m).1.store = e.store := by
  unfold release
  split <;> rfl

/-- Giving things up and taking reports in does not touch the store. -/
theorem store_change {told : Service.SinkRef → Prop} {w w' : World Engine} (h : Change told w w') :
    w'.service.store = w.service.store := by
  cases h with
  | revoke => exact Engine.store_respond _ _ _ nofun nofun
  | closeConnection => rfl
  | release => exact Engine.store_release _ _ _
  | dropSession =>
    unfold World.dropped
    dsimp only
    split <;> rfl
  | _ => rfl

/-- The store is one that is given, in a world that refers to nothing that is not there. -/
def KeepsStore (store : Store) (w : World Engine) : Prop :=
  (∃ n m, Sized n m w) ∧ w.service.store = store

namespace KeepsStore

variable {store : Store} {w : World Engine}

theorem steps (h : KeepsStore store w) {told : Service.SinkRef → Prop} {w' : World Engine}
    (hs : Steps told w w') : KeepsStore store w' := by
  obtain ⟨⟨n, m, hsized⟩, hstore⟩ := h
  refine ⟨⟨n, m, hsized.steps hs⟩, ?_⟩
  exact hs.keep (P := fun w' => w'.service.store = store) (fun hc h => (store_change hc).trans h)
    hstore

theorem runs {α : Type} {a : Action Engine α} (h : KeepsStore store w)
    (ha : ∀ {n m : Nat}, Sized n m w → Runs (fun _ => True) n m a) :
    KeepsStore store (a.exec w).2 := by
  obtain ⟨n, m, hsized⟩ := h.1
  exact h.steps (ha hsized w hsized)

theorem keeps_receiveAll (l : List Service.Delivery) :
    (Action.receiveAll l : Action Engine Unit).Keeps (KeepsStore store) :=
  fun _ h => h.runs fun _ => runs_receiveAll fun _ => trivial

theorem answered (h : KeepsStore store w) (r : Service.Request)
    (hsystem : ∀ keySystem q, r ≠ .system keySystem q)
    (hstore : ∀ i license, r ≠ .session i (.storeLicenseData license)) :
    KeepsStore store (w.answered r) := by
  obtain ⟨⟨n, m, hsized⟩, hkept⟩ := h
  exact ⟨⟨n, m, hsized.congr rfl rfl rfl⟩,
    (Engine.store_respond r w.service w.memory hsystem hstore).trans hkept⟩

theorem keeps_ask (r : Service.Request) (hsystem : ∀ keySystem q, r ≠ .system keySystem q)
    (hstore : ∀ i license, r ≠ .session i (.storeLicenseData license)) :
    (Action.ask r : Action Engine r.Answer).Keeps (KeepsStore store) := by
  intro w h
  rw [Action.world_ask]
  exact h.answered r hsystem hstore

theorem keeps_askSession (i : SessionRef) {q : Service.SessionRequest}
    (hstore : ∀ license, q ≠ .storeLicenseData license) :
    (Action.askSession i q : Action Engine q.Answer).Keeps (KeepsStore store) :=
  fun w h => keeps_ask (.session (w.session i).remote q) nofun
    (fun _ license hq => hstore license (by cases hq; rfl)) w h

theorem keeps_decrypt (i : SessionRef) (r : Channel.Request) :
    (Action.decrypt i r : Action Engine (Except Failure Unit × Bytes)).Keeps
      (KeepsStore store) := by
  have hattachment : (Action.attachment i : Action Engine Channel.Attachment).Keeps
      (KeepsStore store) := by
    refine .get_bind fun w h => ?_
    dsimp only
    split
    · exact h
    · refine Action.Keeps.bind (.ofResult _) (fun a => ?_) w h
      refine .bind (.modify fun w h => ?_) fun _ => .pure a
      obtain ⟨⟨n, m, hsized⟩, hkept⟩ := h
      exact ⟨⟨n, m, hsized.congr (List.length_modify ..) rfl rfl⟩, hkept⟩
  refine .ite (fun _ => .pure _) fun _ => .bind (.attempt hattachment) fun attached => ?_
  cases attached with
  | error f => exact .pure _
  | ok a =>
    refine .bind (.get_bind fun w h => ?_) fun out => .pure _
    obtain ⟨⟨n, m, hsized⟩, hkept⟩ := h
    exact ⟨⟨n, m, hsized.congr rfl rfl rfl⟩, hkept⟩

theorem openHandle (h : KeepsStore store w) {i : SessionRef} (hi : i < w.sessions.length)
    (b : Option BridgeRef) : KeepsStore store ((Boundary.openHandle i b).exec w).2 := by
  obtain ⟨⟨n, m, hsized⟩, hkept⟩ := h
  rw [hsized.sessions] at hi
  obtain ⟨m', handles, hsized', hs⟩ := steps_openHandle (fun _ => True) hsized hi b
  exact steps (w := { w with handles }) ⟨⟨n, m', hsized'⟩, hkept⟩ hs

theorem createSession (h : KeepsStore store w) (i : SystemRef) (licenseType : Int32)
    (initDataType : String) (initData cdmData : Bytes) (listener : Listener) :
    KeepsStore store
      ((Action.createSession i licenseType initDataType initData cdmData listener).exec w).2 := by
  let opened : World Engine :=
    { w with sinks := w.sinks ++ [{ registry := (w.system i).registry, listener }] }
  have hopened : KeepsStore store opened := by
    obtain ⟨⟨n, m, hsized⟩, hkept⟩ := h
    exact ⟨⟨n, m, hsized.congr rfl rfl rfl⟩, hkept⟩
  rcases Action.createSession_cases w i licenseType initDataType initData cdmData listener with
    ⟨-, e, he⟩ | ⟨-, ⟨e, he⟩ | ⟨reported, -, htaken⟩⟩
  · rw [he]
    exact h
  · rw [he]
    exact hopened.answered _ nofun nofun
  · have hreceived := keeps_receiveAll reported.notices _
      (hopened.answered (.createSession ⟨(w.system i).keySystem, licenseType, initDataType, initData,
        cdmData⟩ w.sinks.length) nofun nofun)
    obtain ⟨⟨n, m, hsized⟩, hkept⟩ := hreceived
    generalize (Action.createSession i licenseType initDataType initData cdmData listener).exec w = x
      at htaken
    cases htaken with
    | refused => exact ⟨⟨n, m, hsized⟩, hkept⟩
    | nameless =>
      exact ⟨⟨n, m, hsized.congr rfl rfl rfl⟩, (Engine.store_release _ _ _).trans hkept⟩
    | adopted => exact ⟨⟨n + 1, m, hsized.adoptSession ..⟩, hkept⟩

/-- No call but one to store a license touches the store. -/
theorem after (h : KeepsStore store w) {c : Call} (hc : c.Possible w)
    (hplain : ∀ i license, c ≠ .ask i (.storeLicenseData license)) :
    KeepsStore store (c.after w) := by
  cases c with
  | connect settings =>
    exact Action.Keeps.connect (fun r _ hother hsystem => keeps_ask r hsystem fun i _ => hother i _)
      (fun _ _ h => ⟨let ⟨n, m, hsized⟩ := h.1; ⟨n, m, hsized.congr rfl rfl rfl⟩, h.2⟩) settings w h
  | createSystem r keySystem =>
    exact Action.Keeps.createSystem
      (fun r _ hother hsystem => keeps_ask r hsystem fun i _ => hother i _)
      (fun _ _ h => ⟨let ⟨n, m, hsized⟩ := h.1; ⟨n, m, hsized.congr rfl rfl rfl⟩, h.2⟩) keySystem w h
  | createSession i licenseType initDataType initData cdmData listener =>
    exact h.createSession i licenseType initDataType initData cdmData listener
  | addBridge b =>
    obtain ⟨⟨n, m, hsized⟩, hkept⟩ := h
    exact ⟨⟨n, m, hsized.addBridge hc⟩, hkept⟩
  | openHandle i b => exact h.openHandle hc b
  | dropHandle x => exact h.runs fun hsized => runs_dropHandle (hsized.handles ▸ hc)
  | holdSession i =>
    have hhold : Change (fun _ => True) w _ := .holdSession i hc
    exact h.steps (.single hhold)
  | dropSession i => exact h.runs fun hsized => runs_dropSession (hsized.sessions ▸ hc)
  | dropSystem i => exact h.runs fun _ => runs_dropSystem i
  | dropRegistry r => exact h.runs fun _ => runs_dropRegistry r
  | update i response =>
    exact Action.Keeps.bind (keeps_askSession i (q := .update response) nofun)
      (fun _ => .bind (keeps_receiveAll _) fun _ => .ofResult _) w h
  | remove i =>
    exact Action.Keeps.bind (keeps_askSession i (q := .remove) nofun)
      (fun _ => .bind (keeps_receiveAll _) fun _ => .ofResult _) w h
  | close i =>
    exact Action.Keeps.bind (keeps_askSession i (q := .close) nofun) (fun _ => .ofResult _) w h
  | ask i q =>
    exact keeps_askSession i (fun license hq => hplain i license (by rw [hq])) w h
  | decrypt i r => exact keeps_decrypt i r w h
  | receive l => exact keeps_receiveAll l w h

end KeepsStore

/-- No call of a client but one to store a license touches the store. -/
theorem Call.store_after {w : World Engine} (hw : Fit w) {c : Call} (hc : c.Possible w)
    (hplain : ∀ i license, c ≠ .ask i (.storeLicenseData license)) :
    (c.after w).service.store = w.service.store :=
  (KeepsStore.after ⟨hw.2, rfl⟩ hc hplain).2

end Loopback

end ContentDecryption
