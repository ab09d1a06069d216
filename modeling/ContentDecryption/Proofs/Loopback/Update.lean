import ContentDecryption.Proofs.Client.Reports
import ContentDecryption.Proofs.License
import ContentDecryption.Proofs.Loopback.Licenses

/-!
# Handing a license over

The engine takes a license as a whole or not at all. It reads all records before it takes
the first, so a license that breaks off after any number of good records is refused, and
then nothing has happened: there are no keys, no reports and nothing that callbacks could
have done. A license that is taken is reported record by record, and the end of the batch
after that.

Main results:

* `exec_update_of_refused`: a license that is refused changes nothing;
* `exec_update_of_taken`: what comes of one that is taken;
* `license_exchange`: the format, and both of these.
-/

namespace ContentDecryption

namespace Loopback

open Client Service

/-! ## Worlds after requests -/

/-- A session of the engine is put in the place of another one. -/
def serving (w : World Engine) (n : Nat) (x : Session) : World Engine :=
  { w with service := w.service.setSession n x }

/-- A request that changes nothing but the session that it is about. -/
theorem answered_session {w : World Engine} {n : Nat} {x : Session}
    (hx : w.service.sessions[n]? = some x) {q : SessionRequest}
    (haside : (w.service.respondSession x q).2.2 = w.service) :
    w.answered (.session n q) = serving w n (w.service.respondSession x q).2.1 := by
  have hresponse : Service.respond (.session n q) w.service w.memory = _ :=
    Engine.respond_session hx q w.memory
  rw [haside] at hresponse
  show ({ w with
    service := (Service.respond (.session n q) w.service w.memory).service
    memory := (Service.respond (.session n q) w.service w.memory).memory } : World Engine) = _
  rw [hresponse]
  rfl

/-- A session in its own place changes nothing. -/
theorem serving_self {w : World Engine} {n : Nat} {x : Session}
    (hx : w.service.sessions[n]? = some x) : serving w n x = w := by
  obtain ⟨hn, rfl⟩ := List.getElem?_eq_some_iff.1 hx
  rw [serving, Engine.setSession, List.set_getElem_self]

/-- Notices that are taken in one after the other. -/
theorem world_receiveAll (l : List Delivery) (w : World Engine) :
    ((Action.receiveAll l).exec w).2 =
      l.foldl (fun w d => ((Action.receive d.1 d.2).exec w).2) w := by
  induction l generalizing w with
  | nil => rfl
  | cons d l ih => rw [exec_receiveAll_cons, ih, List.foldl_cons]

/-! ## Licenses -/

variable {w : World Engine} {i : SessionRef} {s : Client.Session} {x : Session}

/-- A session that is closed, and bytes that are no license: nothing happens. -/
theorem exec_update_of_refused (hs : w.sessions[i]? = some s)
    (hx : w.service.sessions[s.remote]? = some x) {response : Bytes}
    (refused : x.closed = true ∨ License.decode? response = none) :
    ∃ e, (Action.update i response).exec w = (.error e, w) := by
  have hupdate : ∃ status e, x.update response = ({ value := status }, x) ∧
      Error.ofStatus status = .error e := by
    unfold Session.update
    by_cases hclosed : x.closed = true
    · exact ⟨_, _, if_pos hclosed, rfl⟩
    · rw [if_neg hclosed, refused.resolve_left hclosed]
      exact ⟨_, _, rfl, rfl⟩
  obtain ⟨status, e, hupdate, he⟩ := hupdate
  have hexec : (Action.update i response).exec w = _ :=
    exec_reported (exec_askSession hs hx (.update response))
  have hrespond : w.service.respondSession x (.update response) =
      ({ value := status }, x, w.service) := by
    show ((x.update response).1, (x.update response).2, w.service) = _
    rw [hupdate]
    rfl
  have hworld : w.answered (.session s.remote (.update response)) = w := by
    rw [answered_session hx (by rw [hrespond]), hrespond, serving_self hx]
  rw [hexec, hworld, hrespond, he]
  exact ⟨_, rfl⟩

/-- The notices that a license brings. -/
def licenseNotices (records : List KeyRecord) : List Notice :=
  (records.map fun r => .keyStatus r.1 .usable) ++ [.keyStatusesComplete]

/-- An open session takes every license, and reports what it has taken once it has the keys. -/
theorem exec_update_of_taken (hs : w.sessions[i]? = some s)
    (hx : w.service.sessions[s.remote]? = some x) {response : Bytes} {records : List KeyRecord}
    (isOpen : x.closed = false) (taken : License.decode? response = some records) :
    (Action.update i response).exec w =
      (.ok (), (x.report (licenseNotices records)).foldl
        (fun w d => ((Action.receive d.1 d.2).exec w).2)
        (serving w s.remote { x with keys := x.keys ++ records })) := by
  have hrespond : w.service.respondSession x (.update response) =
      ({ value := Status.none, notices := x.report (licenseNotices records) },
        { x with keys := x.keys ++ records }, w.service) := by
    show ((x.update response).1, (x.update response).2, w.service) = _
    unfold Session.update
    rw [isOpen, taken]
    rfl
  have hexec : (Action.update i response).exec w = _ :=
    exec_reported (exec_askSession hs hx (.update response))
  rw [hexec, answered_session hx (by rw [hrespond]), hrespond, world_receiveAll]
  rfl

/-- What a sink makes of a license, and what a journal is told of it. -/
theorem heard_licenseNotices {k : SinkRef} {y : Sink} (hy : w.sinks[k]? = some y)
    (records : List KeyRecord) :
    let w' := (licenseNotices records).foldl (fun w n => ((Action.receive k n).exec w).2) w
    (w'.sink k).keys = y.keys.reportAll (records.map Prod.fst) .usable ∧
    ∀ name, y.listener = .journal name →
      w'.toldTo name = w.toldTo name ++ (records.map fun r => .keyUpdated r.1) ++ [.keysUpdated] := by
  intro w'
  have hlistening : Listening k w w' (licenseNotices records) :=
    Listening.start.notices (licenseNotices records)
  obtain ⟨z, hz, -, hkeys, htold⟩ := hlistening.heard hy
  have hreports : (licenseNotices records).filterMap Notice.report? =
      records.map fun r => (r.1, .usable) := by
    simp [licenseNotices, List.filterMap_append, List.filterMap_map, Function.comp_def,
      Notice.report?]
  have hevents : (licenseNotices records).filterMap Notice.event? =
      (records.map fun r => .keyUpdated r.1) ++ [.keysUpdated] := by
    simp [licenseNotices, List.filterMap_append, List.filterMap_map, Function.comp_def,
      Notice.event?, KeyStatus.isPending]
  refine ⟨?_, fun name hname => ?_⟩
  · rw [World.sink_of_getElem? hz, hkeys, hreports, KeyLedger.reportAll, List.foldl_map, List.foldl_map]
  · rw [htold name hname, hevents, List.append_assoc]

/-- As long as a client holds a session, the engine reports to the sink of the session. -/
theorem sink_of_licensed {named : List KeyId} (h : Licensed i w named)
    (hs : w.sessions[i]? = some s) (hlive : 0 < s.handles)
    (hx : w.service.sessions[s.remote]? = some x) :
    x.sink = some s.sink ∧ ∃ y, w.sinks[s.sink]? = some y := by
  obtain ⟨t, ht, htracks⟩ := tracked_of_licensed h
  obtain rfl : s = t := Option.some.inj (hs.symm.trans ht)
  obtain ⟨hsink, -⟩ := htracks hlive
  have hplaced := (routed_of_reached h.reached).placed hsink
  rw [Engine.sinkOf, hx] at hsink
  exact ⟨hsink, _, List.getElem?_eq_getElem hplaced⟩

/-- **Licenses are taken whole or not at all.** The format first:

* a list of records that was written is read back exactly if every key ID has at most 255 bytes and
  every key 1 to 255;
* bytes are read exactly if they follow the grammar, and writing what was read gives them back.

Then a response to a session, whatever the state of the world and of the session:

* if the session is closed or the response no license, the call fails and the world is as it was,
  with every key, every status and every journal in it;
* otherwise the call succeeds, and the world is what the deliveries make of one in which only the
  session has got the keys. These are, for the sink of the session, a report for each record in order
  and the end of the batch. So the ledger at this sink takes each key for usable in turn, and a
  journal is told of each record in order and then once of the batch;
* the sink is that of the client's session as long as the client holds it. -/
theorem license_exchange :
    (∀ records : List KeyRecord,
      License.decode? (License.encode records) = some records ↔
        ∀ r ∈ records, r.1.length ≤ 255 ∧ 1 ≤ r.2.length ∧ r.2.length ≤ 255) ∧
    (∀ b : Bytes, ((License.decode? b).isSome = true ↔ License.IsLicense b) ∧
      ∀ records, License.decode? b = some records → License.encode records = b) ∧
    ∀ (w : World Engine) (i : SessionRef) (s : Client.Session) (x : Session) (response : Bytes),
      w.sessions[i]? = some s → w.service.sessions[s.remote]? = some x →
      (x.closed = true ∨ ¬ License.IsLicense response →
        ∃ e, (Action.update i response).exec w = (.error e, w)) ∧
      (x.closed = false → License.IsLicense response →
        ∃ records w', License.decode? response = some records ∧
          (Action.update i response).exec w = (.ok (), w') ∧
          w' = (x.report (licenseNotices records)).foldl
            (fun w d => ((Action.receive d.1 d.2).exec w).2)
            (serving w s.remote { x with keys := x.keys ++ records }) ∧
          ∀ k y, x.sink = some k → w.sinks[k]? = some y →
            x.report (licenseNotices records) =
              (records.map fun r => (k, .keyStatus r.1 .usable)) ++ [(k, .keyStatusesComplete)] ∧
            (w'.sink k).keys = y.keys.reportAll (records.map Prod.fst) .usable ∧
            ∀ name, y.listener = .journal name → w'.toldTo name =
              w.toldTo name ++ (records.map fun r => .keyUpdated r.1) ++ [.keysUpdated]) ∧
      ∀ named, Licensed i w named → 0 < s.handles →
        x.sink = some s.sink ∧ ∃ y, w.sinks[s.sink]? = some y := by
  refine ⟨License.decode?_encode_iff, fun b => ⟨License.isSome_decode?_iff b, fun records h =>
    (License.decode?_eq_some_iff.1 h).1⟩, fun w i s x response hs hx => ⟨fun refused => ?_,
    fun isOpen hlicense => ?_, fun named h hlive => sink_of_licensed h hs hlive hx⟩⟩
  · refine exec_update_of_refused hs hx (refused.imp_right fun hno => ?_)
    rwa [← License.isSome_decode?_iff, Option.not_isSome_iff_eq_none] at hno
  · obtain ⟨records, taken⟩ := Option.isSome_iff_exists.1
      ((License.isSome_decode?_iff response).2 hlicense)
    refine ⟨records, _, taken, exec_update_of_taken hs hx isOpen taken, rfl,
      fun k y hk hy => ?_⟩
    have hreport : x.report (licenseNotices records) =
        (licenseNotices records).map fun n => (k, n) := by
      rw [Session.report, hk]
    obtain ⟨hkeys, htold⟩ := heard_licenseNotices
      (w := serving w s.remote { x with keys := x.keys ++ records }) hy records
    rw [hreport, List.foldl_map]
    refine ⟨?_, hkeys, htold⟩
    rw [licenseNotices, List.map_append, List.map_map]
    rfl

/-- A session of which a journal is kept. -/
def journaled : World Engine := Call.after opened (.createSession 0 0 "" [] [] (.journal "s"))

/-- A license with two keys. The first has its ID in the form of a GUID. -/
def pair : Bytes := License.encode [(guid, [5]), ([7], [6, 6])]

/-- The license is taken and told of record by record. Without its last byte it changes nothing,
though its first record is good. -/
theorem license_exchange_pair :
    License.decode? pair = some [(guid, [5]), ([7], [6, 6])] ∧
    (∃ w', (Action.update 0 pair).exec journaled = (.ok (), w') ∧
      (w'.sink 0).keys = [(guid, .usable), ([7], .usable)] ∧
      w'.toldTo "s" = [.keyUpdated guid, .keyUpdated [7], .keysUpdated]) ∧
    ∃ e, (Action.update 0 pair.dropLast).exec journaled = (.error e, journaled) := by
  obtain ⟨hwrite, hread, hexchange⟩ := license_exchange
  have hpair : License.decode? pair = some [(guid, [5]), ([7], [6, 6])] :=
    (hwrite [(guid, [5]), ([7], [6, 6])]).2 (by decide)
  have hlicense : License.IsLicense pair := (hread pair).1.1 (by rw [hpair]; rfl)
  have hbroken : ¬ License.IsLicense pair.dropLast := fun h =>
    absurd ((hread pair.dropLast).1.2 h) (by decide +kernel)
  have hsome : 0 < journaled.sessions.length := by decide +kernel
  have hs : journaled.sessions[0]? = some (journaled.session 0) := World.getElem?_session hsome
  have hserving : (journaled.service.sessions[(journaled.session 0).remote]?).map
      (fun x => (x.closed, x.sink)) = some (false, some 0) := by decide +kernel
  obtain ⟨x, hx, hopen⟩ := Option.map_eq_some_iff.1 hserving
  obtain ⟨hclosed, hreports⟩ := Prod.mk.inj hopen
  have hsink : journaled.sinks[0]? = some { listener := .journal "s" } := by decide +kernel
  refine ⟨hpair, ?_, (hexchange _ _ _ _ _ hs hx).1 (.inr hbroken)⟩
  obtain ⟨records, w', htaken, hexec, -, hheard⟩ :=
    (hexchange _ _ _ _ _ hs hx).2.1 hclosed hlicense
  obtain rfl := Option.some.inj (hpair.symm.trans htaken)
  obtain ⟨-, hkeys, htold⟩ := hheard 0 _ hreports hsink
  exact ⟨w', hexec, hkeys.trans (by decide +kernel),
    (htold "s" rfl).trans (by decide +kernel)⟩

end Loopback

end ContentDecryption
