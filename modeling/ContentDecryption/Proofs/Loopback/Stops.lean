import ContentDecryption.Proofs.Loopback.StopCalls

/-!
# Secure stops, from store to commit

A secure stop is kept from the call that stores its license to the call that commits it or
clears all of them, whatever else is done through any session and key system of the engine.

A history says what has happened, as the callers see it: the IDs that successful calls have
written, the IDs that were committed, and when everything was cleared. What is pending is read
off the history alone.

Main definitions:

* `StopEvent`, `pending`: what happens to secure stops, and which are left;
* `StopCall`, `StopHistory`: the calls, and what has happened in them.

Main results:

* `StopCall.secureStops_after`: one call does to the secure stops what it tells its caller;
* `StopHistory.secureStops_eq`: the engine keeps what is pending, in the order of storing;
* `StopHistory.answers`: what every call answers then.
-/

namespace ContentDecryption

namespace Loopback

open Client Boundary

/-! ## What happens to secure stops -/

/-- What happens to secure stops. -/
inductive StopEvent
  /-- A license is stored, and its secure stop is kept under an ID. -/
  | stored (id license : Bytes)
  | committed (id : Bytes)
  | cleared
  deriving Repr, DecidableEq

namespace StopEvent

/-- The ID under which a secure stop is kept from now on. -/
def storedId? : StopEvent → Option Bytes
  | stored id _ => some id
  | committed _ => none
  | cleared => none

/-- Whether no secure stop is kept under an ID after the event. -/
def ends (id : Bytes) : StopEvent → Bool
  | stored _ _ => false
  | committed x => x == id
  | cleared => true

end StopEvent

/-- The secure stops that were stored, and neither committed nor cleared since, in the order of
storing. -/
def pending : List StopEvent → List (Bytes × Bytes)
  | [] => []
  | .stored id license :: later =>
    if later.any (StopEvent.ends id) then pending later else (id, license) :: pending later
  | .committed _ :: later => pending later
  | .cleared :: later => pending later

theorem pending_concat_stored (log : List StopEvent) (id license : Bytes) :
    pending (log ++ [.stored id license]) = pending log ++ [(id, license)] := by
  induction log with
  | nil => rfl
  | cons x log ih =>
    cases x with
    | stored id' license' =>
      have hany : (log ++ [StopEvent.stored id license]).any (StopEvent.ends id') =
          log.any (StopEvent.ends id') := by
        rw [List.any_append]
        exact Bool.or_false _
      simp only [List.cons_append, pending, hany, ih]
      split
      · rfl
      · rfl
    | committed | cleared => exact ih

/-- What ends secure stops takes them out from among those that are pending. -/
theorem pending_concat_of_storedId? {x : StopEvent} (hx : x.storedId? = none)
    (log : List StopEvent) :
    pending (log ++ [x]) = (pending log).filter fun stop => !x.ends stop.1 := by
  induction log with
  | nil =>
    cases x with
    | stored => cases hx
    | committed | cleared => rfl
  | cons y log ih =>
    cases y with
    | stored id license =>
      have hany : (log ++ [x]).any (StopEvent.ends id) =
          (log.any (StopEvent.ends id) || x.ends id) := by
        rw [List.any_append, List.any_cons, List.any_nil, Bool.or_false]
      simp only [List.cons_append, pending, hany, ih]
      cases log.any (StopEvent.ends id) with
      | true => rfl
      | false =>
        rw [Bool.false_or, if_neg Bool.false_ne_true, List.filter_cons]
        cases x.ends id <;> rfl
    | committed | cleared => exact ih

theorem pending_sublist (log : List StopEvent) :
    ((pending log).map Prod.fst).Sublist (log.filterMap StopEvent.storedId?) := by
  induction log with
  | nil => exact .slnil
  | cons x log ih =>
    cases x with
    | stored id license =>
      show ((if log.any (StopEvent.ends id) then pending log else (id, license) :: pending log).map
        Prod.fst).Sublist (id :: log.filterMap StopEvent.storedId?)
      split
      · exact ih.cons id
      · exact ih.cons_cons id
    | committed | cleared => exact ih

theorem mem_of_mem_pending {log : List StopEvent} {id license : Bytes}
    (h : (id, license) ∈ pending log) : .stored id license ∈ log := by
  induction log with
  | nil => cases h
  | cons x log ih =>
    cases x with
    | stored id' license' =>
      simp only [pending] at h
      split at h
      · exact List.mem_cons_of_mem _ (ih h)
      · rcases List.mem_cons.1 h with he | h
        · cases he
          exact List.mem_cons_self
        · exact List.mem_cons_of_mem _ (ih h)
    | committed | cleared => exact List.mem_cons_of_mem _ (ih h)

/-! ## Entries under distinct IDs -/

/-- Under distinct IDs, a secure stop is found by its ID, and is the only one that goes with it. -/
theorem split_of_nodup {stops : List (Bytes × Bytes)} (hdistinct : (stops.map Prod.fst).Nodup)
    {id license : Bytes} (h : (id, license) ∈ stops) :
    ∃ before later, stops = before ++ (id, license) :: later ∧
      stops.filter (fun stop => stop.1 != id) = before ++ later ∧
      stops.lookup id = some license := by
  obtain ⟨before, later, rfl⟩ := List.append_of_mem h
  rw [List.map_append, List.map_cons, List.nodup_append, List.nodup_cons] at hdistinct
  obtain ⟨-, ⟨hlater, -⟩, hbefore⟩ := hdistinct
  have hother {stop : Bytes × Bytes} (hne : stop.1 ≠ id) : (stop.1 != id) = true := bne_iff_ne.2 hne
  have hb : ∀ stop ∈ before, stop.1 ≠ id := fun stop hstop =>
    hbefore stop.1 (List.mem_map_of_mem hstop) id List.mem_cons_self
  have hl : ∀ stop ∈ later, stop.1 ≠ id := fun stop hstop heq =>
    hlater (heq ▸ List.mem_map.2 ⟨stop, hstop, rfl⟩)
  refine ⟨before, later, rfl, ?_, ?_⟩
  · rw [List.filter_append, List.filter_cons_of_neg (by simp),
      List.filter_eq_self.2 fun stop hstop => hother (hb stop hstop),
      List.filter_eq_self.2 fun stop hstop => hother (hl stop hstop)]
  · exact List.lookup_eq_some_iff.2 ⟨before, later, rfl, fun stop hstop =>
      bne_iff_ne.2 (hb stop hstop).symm⟩

/-! ## Histories -/

/-- A call that may have to do with secure stops. -/
inductive StopCall
  | store (h : Option HandleRef) (license : Pointer) (length : UInt32) (id : Pointer)
  | commit (s : Option SystemRef) (id : Pointer) (length : UInt32) (response : Pointer)
      (responseLength : UInt32)
  | reset (s : Option SystemRef)
  | deleteSecureStore (s : Option SystemRef)
  | deleteKeyStore (s : Option SystemRef)
  | list (s : Option SystemRef) (b : Slots)
  | read (s : Option SystemRef) (id : Pointer) (length : UInt32) (b : Buffer)

namespace StopCall

/-- The world after a call, whether it succeeds or fails. -/
def after (w : World Engine) : StopCall → World Engine
  | store h license length id => ((storeLicenseData h license length id).run w).2
  | commit s id length response responseLength =>
    ((commitSecureStop s id length response responseLength).run w).2
  | reset s => ((resetSecureStop s).run w).2
  | deleteSecureStore s => ((Boundary.deleteSecureStore s).run w).2
  | deleteKeyStore s => ((Boundary.deleteKeyStore s).run w).2
  | list s b => ((secureStopIds s b).run w).2
  | read s id length b => ((secureStop s id length b).run w).2

/-- The data that a pointer and a length stand for. -/
def dataAt (p : Pointer) (length : UInt32) : Bytes := (bytesAt p length.toNat).toOption.getD []

/-- What happens to secure stops in a call, as its caller sees it: from the status that is returned
and from the ID that is written. -/
def events (w : World Engine) : StopCall → List StopEvent
  | store h license length id =>
    let x := ((storeLicenseData h license length id).run w).1
    if x.1 = Status.none then
      [.stored ((x.2.getD []).take secureStopIdLength) (dataAt license length)]
    else []
  | commit s id length response responseLength =>
    if ((commitSecureStop s id length response responseLength).run w).1 = Status.none then
      [.committed (dataAt id length)]
    else []
  | reset s => if s.any (reaches w) then [.cleared] else []
  | deleteSecureStore s =>
    if ((Boundary.deleteSecureStore s).run w).1 = Status.none then [.cleared] else []
  | deleteKeyStore _ | list _ _ | read _ _ _ _ => []

/-- There is memory for the ID of a secure stop. -/
def Possible : StopCall → Prop
  | store _ _ _ id => ∀ memory, id = some memory → secureStopIdLength ≤ memory.length
  | _ => True

end StopCall

/-- What has happened to the secure stops of an engine that had none, through any sessions and
systems. -/
inductive StopHistory : World Engine → List StopEvent → Prop
  | start {w : World Engine} (clear : w.service.store.secureStops = []) : StopHistory w []
  | call {w : World Engine} {log : List StopEvent} (before : StopHistory w log) (c : StopCall)
      (possible : c.Possible) : StopHistory (c.after w) (log ++ c.events w)
  /-- Something else is done, which leaves the secure stops alone. -/
  | aside {w w' : World Engine} {log : List StopEvent} (before : StopHistory w log)
      (same : w'.service.store.secureStops = w.service.store.secureStops) : StopHistory w' log

/-- One call does to the secure stops what it says. -/
theorem StopCall.secureStops_after {w : World Engine} {log : List StopEvent}
    (h : w.service.store.secureStops = pending log) (c : StopCall) (possible : c.Possible) :
    (c.after w).service.store.secureStops = pending (log ++ c.events w) := by
  have hsame {w' : World Engine}
      (hw : w'.service.store.secureStops = w.service.store.secureStops) :
      w'.service.store.secureStops = pending (log ++ []) := by
    rw [List.append_nil, hw, h]
  have hcleared : pending (log ++ [.cleared]) = [] :=
    (pending_concat_of_storedId? rfl log).trans (List.filter_eq_nil_iff.2 fun _ _ => nofun)
  cases c with
  | store k license length id =>
    simp only [after, events]
    rcases run_storeLicenseData_cases w k license length id with
      ⟨hstatus, hstore⟩ | ⟨data, memory, stop, hdata, hne, rfl, hlength, hx, hstore⟩
    · rw [if_neg hstatus]
      exact hsame (congrArg Store.secureStops hstore)
    · have hwritten : (Bytes.overwrite memory 0 stop).take secureStopIdLength = stop := by
        rw [Bytes.overwrite_of_le (hlength ▸ possible memory rfl), ← hlength, List.take_left]
      rw [hstore, hx]
      dsimp only
      rw [if_pos rfl, Option.getD_some, hwritten, dataAt, hdata, pending_concat_stored, ← h]
      rfl
  | commit s id length response responseLength =>
    simp only [after, events]
    rcases run_commitSecureStop_cases w s id length response responseLength with
      ⟨hstatus, hstops⟩ | ⟨key, hid, hstatus, hstops⟩
    · rw [if_neg hstatus]
      exact hsame hstops
    · rw [if_pos hstatus, hstops, dataAt, hid, pending_concat_of_storedId? rfl, ← h]
      exact List.filter_congr fun stop _ => congrArg not Bool.beq_comm
  | reset s =>
    simp only [after, events]
    cases hs : s.any (reaches w) with
    | false =>
      rw [run_resetSecureStop_of_not hs]
      exact hsame rfl
    | true =>
      obtain ⟨i, rfl, hi⟩ := (Option.any_eq_true _ _).1 hs
      rw [(run_resetSecureStop_of_reaches hi).2]
      exact hcleared.symm
  | deleteSecureStore s =>
    simp only [after, events]
    cases hs : s.any (reaches w) with
    | false =>
      obtain ⟨hstatus, hw⟩ := run_deleteSecureStore_of_not hs
      rw [if_neg hstatus, hw]
      exact hsame rfl
    | true =>
      obtain ⟨i, rfl, hi⟩ := (Option.any_eq_true _ _).1 hs
      obtain ⟨hstatus, hstops⟩ := run_deleteSecureStore_of_reaches hi
      rw [if_pos hstatus, hstops]
      exact hcleared.symm
  | deleteKeyStore s => exact hsame (secureStops_deleteKeyStore w s)
  | list s b => exact hsame (secureStops_secureStopIds w s b)
  | read s id length b => exact hsame (secureStops_secureStop w s id length b)

/-- What is written for a stored license is an ID of sixteen bytes. -/
theorem StopCall.length_of_mem_events {w : World Engine} {c : StopCall} (possible : c.Possible)
    {id license : Bytes} (h : .stored id license ∈ c.events w) :
    id.length = secureStopIdLength := by
  cases c with
  | store k source length target =>
    simp only [events] at h
    rcases run_storeLicenseData_cases w k source length target with
      ⟨hstatus, -⟩ | ⟨data, memory, stop, hdata, -, rfl, hlength, hx, -⟩
    · rw [if_neg hstatus] at h
      cases h
    · have hwritten : (Bytes.overwrite memory 0 stop).take secureStopIdLength = stop := by
        rw [Bytes.overwrite_of_le (hlength ▸ possible memory rfl), ← hlength, List.take_left]
      rw [hx, if_pos rfl, Option.getD_some, hwritten, List.mem_singleton] at h
      cases h
      exact hlength
  | commit | deleteSecureStore | reset =>
    simp only [events] at h
    split at h
    · cases List.mem_singleton.1 h
    · cases h
  | deleteKeyStore | list | read => cases h

namespace StopHistory

variable {w : World Engine} {log : List StopEvent}

/-- The engine keeps what is pending, in the order of storing. -/
theorem secureStops_eq (h : StopHistory w log) : w.service.store.secureStops = pending log := by
  induction h with
  | start clear => exact clear
  | call before c possible ih => exact c.secureStops_after ih possible
  | aside before same ih => rw [same, ih]

theorem length_of_mem (h : StopHistory w log) {id license : Bytes}
    (hmem : .stored id license ∈ log) : id.length = secureStopIdLength := by
  induction h with
  | start => cases hmem
  | call before c possible ih =>
    rcases List.mem_append.1 hmem with hmem | hmem
    · exact ih hmem
    · exact StopCall.length_of_mem_events possible hmem
  | aside before same ih => exact ih hmem

/-- Anything else that a client does is no business of the secure stops. -/
theorem step (h : StopHistory w log) (hw : Fit w) {c : Call} (hc : c.Possible w)
    (hplain : ∀ i license, c ≠ .ask i (.storeLicenseData license)) :
    StopHistory (c.after w) log :=
  h.aside (congrArg Store.secureStops (Call.store_after hw hc hplain))

/-! ## What calls answer -/

/-- As long as no ID was written twice, the engine answers every call by what is pending: the list
of IDs in the order of storing, the license under each of them, and no other one; whether there is
something to commit, and how many there are to clear. A call to store nothing, or without memory for
the ID, stores nothing, and the key store can be deleted without the secure stops. -/
theorem answers (h : StopHistory w log)
    (hfresh : (log.filterMap StopEvent.storedId?).Nodup) :
    let ids := (pending log).map Prod.fst
    (∀ id ∈ ids, id.length = secureStopIdLength) ∧
    (∀ i, reaches w i = true →
      (∀ memory capacity, ids.length ≤ capacity.toNat →
        capacity.toNat * secureStopIdLength ≤ memory.length →
        ((secureStopIds (some i) ⟨some memory, 16, some capacity⟩).run w).1 =
          (Status.none, ⟨some (ids.flatten ++ memory.drop (ids.length * secureStopIdLength)), 16,
            some (UInt32.ofNat ids.length)⟩)) ∧
      (∀ p length key, bytesAt p length.toNat = .ok key →
        (∀ license, (key, license) ∈ pending log → ∀ memory capacity,
          license.length ≤ capacity.toNat → capacity.toNat ≤ memory.length →
          ((secureStop (some i) p length ⟨some memory, some capacity⟩).run w).1 =
            (Status.none, ⟨some (license ++ memory.drop license.length),
              some (UInt32.ofNat license.length)⟩)) ∧
        (key ∉ ids → ∀ b, ((secureStop (some i) p length b).run w).1 = (Status.invalidArg, b)) ∧
        ∀ response responseLength reply, bytesAt response responseLength.toNat = .ok reply →
          let x := (commitSecureStop (some i) p length response responseLength).run w
          (∀ license, (key, license) ∈ pending log → x.1 = Status.none ∧
            ∃ before later, pending log = before ++ (key, license) :: later ∧
              x.2.service.store.secureStops = before ++ later) ∧
          (key ∉ ids → x.1 = Status.invalidArg ∧
            x.2.service.store.secureStops = pending log)) ∧
      ((resetSecureStop (some i)).run w).1 = UInt32.ofNat ids.length ∧
      ((resetSecureStop (some i)).run w).2.service.store.secureStops = []) ∧
    (∀ k license length id, bytesAt license length.toNat = .ok [] ∨ id = none →
      ((storeLicenseData k license length id).run w).1.1 ≠ Status.none ∧
      ((storeLicenseData k license length id).run w).2.service.store = w.service.store) ∧
    ∀ s, ((deleteKeyStore s).run w).2.service.store.secureStops = pending log := by
  intro ids
  have hstops := h.secureStops_eq
  have hdistinct : ids.Nodup := hfresh.sublist (pending_sublist log)
  have hsixteen : ∀ stop ∈ pending log, stop.1.length = secureStopIdLength := fun _ hstop =>
    h.length_of_mem (mem_of_mem_pending hstop)
  refine ⟨fun id hid => ?_, fun i hi => ⟨fun memory capacity hfits hroom => ?_,
    fun p length key hkey => ⟨fun license hmem memory capacity hfits hroom => ?_, fun hnone b => ?_,
      fun response responseLength reply hreply => ⟨fun license hmem => ?_, fun hnone => ?_⟩⟩, ?_, ?_⟩,
    fun k license length id hbad => ?_, fun s => ?_⟩
  · obtain ⟨stop, hstop, rfl⟩ := List.mem_map.1 hid
    exact hsixteen stop hstop
  · have hlist := run_secureStopIds_of_reaches hi (hstops ▸ hsixteen)
      (by rw [hstops]; exact (List.length_map _) ▸ hfits) hroom
    rwa [hstops] at hlist
  · obtain ⟨-, -, -, -, hlookup⟩ := split_of_nodup hdistinct hmem
    exact run_secureStop_of_some hi hkey (hstops ▸ hlookup) hfits hroom
  · have hlookup : (pending log).lookup key = none :=
      Option.not_isSome_iff_eq_none.1 (mt isSome_lookup_iff.1 hnone)
    exact run_secureStop_of_none hi hkey (hstops ▸ hlookup) b
  · obtain ⟨before, later, hsplit, hfilter, -⟩ := split_of_nodup hdistinct hmem
    obtain ⟨hstatus, hleft⟩ := (run_commitSecureStop_of_reaches hi hkey hreply).1
      (hstops ▸ List.mem_map.2 ⟨_, hmem, rfl⟩)
    exact ⟨hstatus, before, later, hsplit, by rw [hleft, hstops, hfilter]⟩
  · obtain ⟨hstatus, hleft⟩ := (run_commitSecureStop_of_reaches hi hkey hreply).2 (hstops ▸ hnone)
    exact ⟨hstatus, hleft.trans hstops⟩
  · rw [(run_resetSecureStop_of_reaches hi).1, hstops, List.length_map]
  · exact (run_resetSecureStop_of_reaches hi).2
  · rcases run_storeLicenseData_cases w k license length id with
      hrefused | ⟨data, memory, stop, hdata, hne, hid, -⟩
    · exact hrefused
    · rcases hbad with hempty | hnull
      · cases hdata.symm.trans hempty
        exact absurd rfl hne
      · cases hid.symm.trans hnull
  · exact (secureStops_deleteKeyStore w s).trans hstops

/-- A client with an extended session, and a handle to it. -/
def extended : World Engine :=
  [Call.connect { connector := "" }, .createSystem 0 "clear",
    .createSession 0 0 "" [] [] .nobody, .openHandle 0 none].foldl Call.after
      { service := { keySystems := ["clear"], extended := true } }

/-- A license of one byte is stored. -/
def storing (license : UInt8) : StopCall :=
  .store (some 0) (some [license]) 1 (some (Bytes.zeros secureStopIdLength))

/-- The first of two secure stops is committed. -/
def committing : StopCall := .commit (some 0) (some (IdSource.counting.bytes 1)) 16 none 0

/-- After the first of two secure stops was committed, it is not found any more, and the other one
is the only one that is pending. -/
theorem answers_committed :
    let x := (storing 8).after ((storing 7).after extended)
    let w := committing.after x
    ((secureStop (some 0) (some (IdSource.counting.bytes 1)) 16 ⟨some [0, 0], some 2⟩).run w).1 =
        (Status.invalidArg, ⟨some [0, 0], some 2⟩) ∧
      ((secureStop (some 0) (some (IdSource.counting.bytes 2)) 16 ⟨some [0, 0], some 2⟩).run w).1 =
        (Status.none, ⟨some [8, 0], some 1⟩) ∧
      ((resetSecureStop (some 0)).run w).1 = 1 := by
  intro x w
  let log := [] ++ (storing 7).events extended ++ (storing 8).events ((storing 7).after extended) ++
    committing.events x
  have hroom (license : UInt8) : (storing license).Possible := fun memory hmemory => by
    cases hmemory
    decide
  have hhistory : StopHistory w log :=
    .call (.call (.call (.start (by decide +kernel)) _ (hroom 7)) _ (hroom 8)) committing trivial
  have hpending : pending log = [(IdSource.counting.bytes 2, [8])] := by decide +kernel
  obtain ⟨-, hasked, -⟩ := hhistory.answers (by decide +kernel)
  obtain ⟨-, hkeys, hreset, -⟩ := hasked 0 (by decide +kernel)
  rw [hpending] at hkeys hreset
  exact ⟨(hkeys _ 16 (IdSource.counting.bytes 1) rfl).2.1 (by decide) _,
    (hkeys _ 16 (IdSource.counting.bytes 2) rfl).1 [8] List.mem_cons_self [0, 0] 2 (by decide) (by decide),
    hreset⟩

end StopHistory

end Loopback

end ContentDecryption
