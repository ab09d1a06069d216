import ContentDecryption.Proofs.Client.Tenure
import ContentDecryption.Scripted.Engine
import Mathlib.Data.List.Induction

/-!
# What a session makes of reports

A session hears of its keys report by report. A report names a key in one of two
spellings and may come at any time: before the session is there, from within a call, in
the midst of others. The session keeps one entry for each key, and who listens to it hears
of the keys that are no longer waited for.

The entry of a key is found by the first match under a relation that is not equality. That
this is the entry of the key rests on there being no second one, which every report keeps.

Main definitions:

* `KeyReport.statuses`, `KeyReport.names`: what reports say of a key, and which keys they name;
* `Notice.report?`, `Notice.event?`: what a notice says of a key, and what listeners hear of it;
* `Listening`: worlds in which a sink takes notices in while anything else goes on.

Main results:

* `KeyLedger.ofReports_eq`: the ledger that comes of reports, entry by entry;
* `sinks_receive`, `toldTo_receive`: what a notice does to the sinks, and what a journal is told of it;
* `ledger_of_listening`: what a session says of its keys after any notices.
-/

namespace ContentDecryption

/-! ## Lists in which some entries stand for others -/

/-- One more entry is left out if one that is there stands for it. -/
theorem eraseDupsBy_concat {α : Type} (r : α → α → Bool) (l : List α) (x : α) :
    (l ++ [x]).eraseDupsBy r =
      if (l.eraseDupsBy r).any (r x) then l.eraseDupsBy r else l.eraseDupsBy r ++ [x] := by
  have hloop (kept : List α) : List.eraseDupsBy.loop r (l ++ [x]) kept =
      if (List.eraseDupsBy.loop r l kept).any (r x) then List.eraseDupsBy.loop r l kept
      else List.eraseDupsBy.loop r l kept ++ [x] := by
    induction l generalizing kept with
    | nil =>
      simp only [List.nil_append, List.eraseDupsBy.loop, List.any_reverse]
      cases kept.any (r x) <;> simp
    | cons y l ih =>
      cases hy : kept.any (r y) with
      | true =>
        simp only [List.cons_append, List.eraseDupsBy.loop, hy]
        exact ih kept
      | false =>
        simp only [List.cons_append, List.eraseDupsBy.loop, hy]
        exact ih (y :: kept)
  exact hloop []

/-! ## Reports -/

/-- What is reported of a key: under which ID, and its status. -/
abbrev KeyReport := KeyId × KeyStatus

namespace KeyReport

/-- The statuses reported for a key, in whichever byte order. -/
def statuses (reports : List KeyReport) (k : KeyId) : List KeyStatus :=
  (reports.filter fun r => r.1.agrees k).map Prod.snd

/-- The keys that reports name, each under the ID of the first report for it. -/
def names (reports : List KeyReport) : List KeyId :=
  (reports.map Prod.fst).eraseDupsBy KeyId.agrees

theorem statuses_concat (reports : List KeyReport) (r : KeyReport) (k : KeyId) :
    statuses (reports ++ [r]) k =
      if r.1.agrees k then statuses reports k ++ [r.2] else statuses reports k := by
  unfold statuses
  rw [List.filter_append, List.filter_singleton]
  cases r.1.agrees k <;> simp

theorem statuses_eq_nil_iff (reports : List KeyReport) (k : KeyId) :
    statuses reports k = [] ↔ reports.any (fun r => r.1.agrees k) = false := by
  simp [statuses]

theorem names_concat (reports : List KeyReport) (r : KeyReport) :
    names (reports ++ [r]) =
      if (names reports).any r.1.agrees then names reports else names reports ++ [r.1] := by
  unfold names
  rw [List.map_append]
  exact eraseDupsBy_concat ..

/-- No two of the names are of the same key. -/
theorem pairwise_names (reports : List KeyReport) :
    (names reports).Pairwise fun id other => id.agrees other = false := by
  induction reports using List.reverseRecOn with
  | nil => exact .nil
  | append_singleton reports r ih =>
    rw [names_concat]
    split
    · exact ih
    · next hnew =>
      refine List.pairwise_append.2 ⟨ih, List.pairwise_singleton .., fun id hid other hother => ?_⟩
      rw [List.mem_singleton.1 hother, KeyId.agrees_comm, ← Bool.not_eq_true]
      exact fun hsame => hnew (List.any_eq_true.2 ⟨id, hid, hsame⟩)

/-- A key that was reported has one name among them, and no other key has any. -/
theorem countP_names (reports : List KeyReport) (k : KeyId) :
    (names reports).countP (fun id => id.agrees k) =
      if statuses reports k = [] then 0 else 1 := by
  induction reports using List.reverseRecOn with
  | nil => rfl
  | append_singleton reports r ih =>
    rw [names_concat, statuses_concat]
    cases hr : r.1.agrees k with
    | false => split <;> simp [ih, hr]
    | true =>
      have hsame : (names reports).any r.1.agrees = (names reports).any fun id => id.agrees k := by
        refine congrArg (names reports).any (funext fun id => ?_)
        rw [KeyId.agrees_congr hr, KeyId.agrees_comm]
      have hany : (names reports).any (fun id => id.agrees k) = true ↔ statuses reports k ≠ [] := by
        rw [List.any_eq_true, ← List.countP_pos_iff, ih]
        split <;> simp_all
      have hone : statuses reports k ++ [r.2] ≠ [] := by simp
      simp only [hsame, if_true, hone, if_false]
      split
      · next hold => rw [ih, if_neg (hany.1 hold)]
      · next hnew =>
        rw [List.countP_append, ih, if_pos (not_not.1 (mt hany.2 hnew))]
        simp [hr]

end KeyReport

namespace KeyLedger

open KeyReport

/-- The ledger that comes of reports. -/
def ofReports (reports : List KeyReport) : KeyLedger :=
  reports.foldl (fun l r => l.report r.1 r.2) []

theorem ofReports_concat (reports : List KeyReport) (r : KeyReport) :
    ofReports (reports ++ [r]) = (ofReports reports).report r.1 r.2 :=
  List.foldl_append

/-- A report changes an entry under its ID, or there is one more entry. -/
theorem ids_report (l : KeyLedger) (id : KeyId) (status : KeyStatus) :
    (l.report id status).map Prod.fst =
      if (l.map Prod.fst).any id.agrees then l.map Prod.fst else l.map Prod.fst ++ [id] := by
  unfold report
  induction l with
  | nil => rfl
  | cons entry rest ih =>
    have hentry : KeyId.isEither id (KeyId.swapped id) entry.1 = id.agrees entry.1 :=
      KeyId.agrees_comm entry.1 id
    simp only [reportUnder, hentry, List.map_cons, List.any_cons]
    cases id.agrees entry.1 with
    | true => rfl
    | false =>
      simp only [Bool.false_eq_true, if_false, List.map_cons, Bool.false_or, ih]
      split <;> rfl

theorem ids_ofReports (reports : List KeyReport) : (ofReports reports).map Prod.fst =
    names reports := by
  induction reports using List.reverseRecOn with
  | nil => rfl
  | append_singleton reports r ih => rw [ofReports_concat, ids_report, ih, names_concat]

/-- What is found under an ID is the last report for the key. -/
theorem find?_ofReports (reports : List KeyReport) (k : KeyId) :
    (ofReports reports).find? k = (statuses reports k).getLast? := by
  induction reports using List.reverseRecOn with
  | nil => rfl
  | append_singleton reports r ih =>
    rw [ofReports_concat, find?_report_eq, ih, statuses_concat]
    split
    · rw [List.getLast?_concat]
    · rfl

/-- If no two entries are of the same key, an entry has the status that is found for it. -/
theorem eq_map_status {l : KeyLedger}
    (h : (l.map Prod.fst).Pairwise fun id other => id.agrees other = false) :
    l = (l.map Prod.fst).map fun id => (id, l.status id) := by
  induction l with
  | nil => rfl
  | cons entry rest ih =>
    obtain ⟨hfirst, hrest⟩ := List.pairwise_cons.1 h
    have hstatus (k : KeyId) : status (entry :: rest) k =
        if entry.1.agrees k then entry.2 else status rest k := by
      show ((List.find? (fun entry => KeyId.agrees entry.1 k) (entry :: rest)).map Prod.snd).getD _
        = _
      rw [List.find?_cons]
      cases KeyId.agrees entry.1 k <;> rfl
    rw [List.map_cons, List.map_cons, hstatus, if_pos (KeyId.agrees_self _)]
    refine congrArg (entry :: ·) ((ih hrest).trans (List.map_congr_left fun id hid => ?_))
    rw [hstatus, hfirst id hid]
    rfl

/-- One entry for each key, in the order of first reports. -/
theorem ofReports_eq (reports : List KeyReport) : ofReports reports =
    (names reports).map fun id => (id, ((statuses reports id).getLast?).getD .statusPending) := by
  have hpairwise := pairwise_names reports
  rw [← ids_ofReports] at hpairwise ⊢
  refine (eq_map_status hpairwise).trans (List.map_congr_left fun id _ => ?_)
  rw [status, find?_ofReports]

end KeyLedger

namespace Service.Notice

/-- What a notice reports of a key. -/
def report? : Notice → Option KeyReport
  | .keyStatus id status => some (id, status)
  | _ => none

/-- What those who listen to a session hear of a notice. A key that is still waited for is nobody
else's business. -/
def event? : Notice → Option SessionEvent
  | .message url challenge => some (SessionEvent.challenge url challenge)
  | .keyStatus id status => if status.isPending then none else some (.keyUpdated id)
  | .keyStatusesComplete => some .keysUpdated
  | .error _ _ text => some (.error text)

end Service.Notice

/-- The key that an event is about. -/
def SessionEvent.updatedKey? : SessionEvent → Option KeyId
  | .keyUpdated id => some id
  | _ => none

/-- Of the keys, listeners hear what is reported and not pending. -/
theorem filterMap_updatedKey? (notices : List Service.Notice) :
    (notices.filterMap Service.Notice.event?).filterMap SessionEvent.updatedKey? =
      ((notices.filterMap Service.Notice.report?).filter fun r => !r.2.isPending).map Prod.fst := by
  induction notices with
  | nil => rfl
  | cons n notices ih =>
    cases n with
    | message | keyStatusesComplete | error =>
      simpa [List.filterMap_cons, Service.Notice.event?, Service.Notice.report?,
        SessionEvent.updatedKey?] using ih
    | keyStatus id status =>
      cases hpending : status.isPending <;>
        simp [Service.Notice.event?, Service.Notice.report?, SessionEvent.updatedKey?, hpending,
          ih]

namespace Client

open Service

/-- What a sink makes of a notice. -/
def Sink.hear (s : Sink) : Notice → Sink
  | .keyStatus id status => { s with keys := s.keys.report id status }
  | .error error systemError message => { s with lastError := some ⟨error, systemError, message⟩ }
  | _ => s

theorem Sink.listener_hear (s : Sink) (n : Notice) : (s.hear n).listener = s.listener := by
  cases n <;> rfl

/-- What a journal entry says that the listener of this name was told. -/
def Entry.toldTo? (name : String) : Entry → Option SessionEvent
  | .told other event => if other = name then some event else none
  | _ => none

/-- What the listener of this name has been told, first first. -/
def World.toldTo {σ : Type} (w : World σ) (name : String) : List SessionEvent :=
  w.journal.reverse.filterMap (Entry.toldTo? name)

/-- A request is passed over by those who look for something else. -/
theorem World.filterMap_journal_answered {σ α : Type} [Service σ] (w : World σ) (r : Request)
    {f : Entry → Option α} (hf : f (.asked r) = none) :
    (w.answered r).journal.reverse.filterMap f = w.journal.reverse.filterMap f := by
  unfold answered
  dsimp only
  split
  · rw [filterMap_reverse_cons, hf]
    exact List.append_nil _
  · rfl

theorem World.toldTo_cons {σ : Type} (w : World σ) (name : String) (e : Entry) :
    ({ w with journal := e :: w.journal } : World σ).toldTo name =
      w.toldTo name ++ (e.toldTo? name).toList := by
  rw [toldTo, filterMap_reverse_cons, toldTo]

/-! ## What a notice does to the sinks -/

section Notices

variable {σ : Type} [Service σ]

/-- What the sinks know is this. -/
def Known (sinks : List Sink) (w : World σ) : Prop := w.sinks = sinks

variable {sinks : List Sink}

/-- Nothing that is given up changes what the sinks know. -/
theorem keeps_known_dropHandle (h : HandleRef) :
    (Action.dropHandle h : Action σ Unit).Keeps (Known sinks) :=
  .dropHandle id id (fun i => .dropSession id id (.ask id) id i) h

/-- Whatever a callback does, it does not change what the sinks know. -/
theorem keeps_known_announce (k : SinkRef) (e : SessionEvent) :
    (Action.announce k e : Action σ Unit).Keeps (Known sinks) := by
  have hdeliver (h : HandleRef) (b : BridgeRef) :
      (Action.deliver h b e : Action σ Unit).Keeps (Known sinks) := by
    refine .get_bind fun w hw => ?_
    dsimp only
    split
    · exact hw
    · refine Action.Keeps.bind ?_ (fun _ => ?_) w hw
      · exact .modify fun _ hw => hw
      refine .ite (fun _ => ?_) fun _ => .pure _
      exact .bind (.guarded (keeps_known_dropHandle h)) fun _ => .modify fun _ hw => hw
  refine .get_bind fun w hw => ?_
  cases (w.sink k).listener with
  | nobody => exact hw
  | journal name => exact hw
  | bridge b =>
    refine Action.Keeps.get_bind (fun w hw => ?_) w hw
    cases (w.bridge b).offer clientThread e with
    | mk offered left =>
    cases offered with
    | none => exact hw
    | some h =>
      refine Action.Keeps.bind (hdeliver h b) (fun _ => ?_) (w.setBridge b fun _ => left) hw
      exact .modify fun _ hw => hw

theorem exec_receive (k : SinkRef) (n : Notice) (w : World σ) :
    let r := (w.sink k).registry
    ((Action.receive k n).exec w).2 = ((Action.dropRegistry r).exec ((Action.takeIn k n).exec
      (w.setRegistry r fun x => { x with handles := x.handles + 1 })).2).2 :=
  Action.exec_andThen (Action.takeIn k n) _ _

/-- The sink learns of what the notice says, its listener is told, and those who wait for a key are
woken. -/
theorem world_takeIn (k : SinkRef) (n : Notice) (w : World σ) :
    let learned := w.setSink k fun s => s.hear n
    let told := n.event?.elim learned fun e => ((Action.announce k e).exec learned).2
    ((Action.takeIn k n).exec w).2 =
      if n.report?.isSome then told.notifyKeys (told.sink k).registry else told := by
  intro learned told
  cases n with
  | message | keyStatusesComplete =>
    have hlearned : learned = w := by
      show { w with sinks := w.sinks.modify k id } = w
      rw [List.modify_id]
    show _ = ((Action.announce k _).exec learned).2
    rw [hlearned]
    rfl
  | error error systemError message => rfl
  | keyStatus id status =>
    show ((do
      if !status.isPending then Action.announce k (.keyUpdated id)
      Action.signalKeys k : Action σ Unit).exec learned).2 = told.notifyKeys (told.sink k).registry
    cases hpending : status.isPending with
    | true =>
      have htold : told = learned := by
        show Option.elim (if status.isPending then none else some _) _ _ = _
        rw [hpending]
        rfl
      rw [htold]
      rfl
    | false =>
      obtain ⟨_, w', hexec⟩ := Action.succeeds_announce k (.keyUpdated id) learned
      have htold : told = w' := by
        show Option.elim (if status.isPending then none else some _) _ _ = _
        rw [hpending]
        exact congrArg Prod.snd hexec
      show ((Action.announce k (.keyUpdated id) >>= fun _ => Action.signalKeys k :
        Action σ Unit).exec learned).2 = _
      rw [Action.exec_bind_of_ok hexec, htold]
      rfl

/-- A notice is taken in by its sink and by no other. -/
theorem sinks_receive (k : SinkRef) (n : Notice) (w : World σ) :
    ((Action.receive k n).exec w).2.sinks = w.sinks.modify k fun s => s.hear n := by
  rw [exec_receive]
  refine Action.Keeps.dropRegistry (P := Known (w.sinks.modify k fun s => s.hear n))
    (fun _ hw => hw) (.ask fun hw => hw) _ _ ?_
  rw [world_takeIn]
  have htold (learned : World σ) (h : Known (w.sinks.modify k fun s => s.hear n) learned) :
      Known (w.sinks.modify k fun s => s.hear n)
        (n.event?.elim learned fun e => ((Action.announce k e).exec learned).2) := by
    cases n.event? with
    | none => exact h
    | some e => exact keeps_known_announce k e _ h
  split
  · exact htold _ rfl
  · exact htold _ rfl

theorem exec_announce_of_journal {k : SinkRef} {name : String} {w : World σ}
    (h : (w.sink k).listener = .journal name) (e : SessionEvent) :
    (Action.announce k e).exec w = (.ok (), { w with journal := .told name e :: w.journal }) := by
  unfold Action.announce
  rw [Action.exec_get_bind, h]
  rfl

omit [Service σ] in
/-- Only the sink itself learns of a key or an error, and it is listened to as before. -/
theorem listener_setSink (w : World σ) (k : SinkRef) {f : Sink → Sink}
    (hf : ∀ s, (f s).listener = s.listener) :
    ((w.setSink k f).sink k).listener = (w.sink k).listener :=
  getD_modify_congr hf w.sinks k k {}

/-- A journal is told what is heard of a notice, as soon as the sink knows of it. -/
theorem toldTo_takeIn {k : SinkRef} {name : String} {w : World σ}
    (h : (w.sink k).listener = .journal name) (n : Notice) :
    ((Action.takeIn k n).exec w).2.toldTo name = w.toldTo name ++ n.event?.toList := by
  let learned := w.setSink k fun s => s.hear n
  have hlearned : (learned.sink k).listener = .journal name :=
    (listener_setSink w k fun s => s.listener_hear n).trans h
  have htold : (n.event?.elim learned fun e => ((Action.announce k e).exec learned).2).toldTo name =
      w.toldTo name ++ n.event?.toList := by
    cases n.event? with
    | none => exact (List.append_nil _).symm
    | some e =>
      show ((Action.announce k e).exec learned).2.toldTo name = w.toldTo name ++ [e]
      rw [exec_announce_of_journal hlearned, World.toldTo_cons, Entry.toldTo?, if_pos rfl]
      rfl
  rw [world_takeIn]
  split
  · exact htold
  · exact htold

/-- What a journal is told of a notice. -/
theorem toldTo_receive {k : SinkRef} {name : String} {w : World σ}
    (h : (w.sink k).listener = .journal name) (n : Notice) :
    ((Action.receive k n).exec w).2.toldTo name = w.toldTo name ++ n.event?.toList := by
  rw [exec_receive]
  refine Action.Keeps.dropRegistry
    (P := fun w' => w'.toldTo name = w.toldTo name ++ n.event?.toList)
    (fun _ hw => hw) (.ask fun {w'} hw => ?_) _ _
    (toldTo_takeIn (w := w.setRegistry _ _) h n)
  exact (w'.filterMap_journal_answered _ rfl).trans hw

/-! ## Any number of notices -/

/-- The worlds that a sink goes through from a first one on, with the notices that it has taken in.
Between notices anything may go on that leaves the sink alone and tells its journal nothing. -/
inductive Listening (k : SinkRef) (first : World σ) : World σ → List Notice → Prop
  | start : Listening k first first []
  | notice {w : World σ} {notices : List Notice} (before : Listening k first w notices)
      (n : Notice) : Listening k first ((Action.receive k n).exec w).2 (notices ++ [n])
  | aside {w w' : World σ} {notices : List Notice} (before : Listening k first w notices)
      (sink : w'.sinks[k]? = w.sinks[k]?)
      (quiet : ∀ name, (w.sink k).listener = .journal name → w'.toldTo name = w.toldTo name) :
      Listening k first w' notices

theorem Listening.heard {k : SinkRef} {first w : World σ} {notices : List Notice}
    (h : Listening k first w notices) {x : Sink} (made : first.sinks[k]? = some x) :
    ∃ y, w.sinks[k]? = some y ∧ y.listener = x.listener ∧
      y.keys = (notices.filterMap Notice.report?).foldl (fun l r => l.report r.1 r.2) x.keys ∧
      ∀ name, x.listener = .journal name →
        w.toldTo name = first.toldTo name ++ notices.filterMap Notice.event? := by
  induction h with
  | start => exact ⟨x, made, rfl, rfl, fun _ _ => (List.append_nil _).symm⟩
  | @notice w notices before n ih =>
    obtain ⟨y, hy, hlistener, hkeys, htold⟩ := ih
    have hsink : w.sink k = y := World.sink_of_getElem? hy
    refine ⟨y.hear n, ?_, ?_, ?_, fun name hname => ?_⟩
    · rw [sinks_receive, List.getElem?_modify_eq, hy]
      rfl
    · rw [← hlistener, Sink.listener_hear]
    · rw [List.filterMap_append, List.foldl_append, ← hkeys]
      cases n <;> rfl
    · rw [toldTo_receive (hsink ▸ hlistener.trans hname), htold name hname, List.filterMap_append,
        List.append_assoc]
      cases hevent : n.event? <;> simp [hevent]
  | @aside w w' notices before sink quiet ih =>
    obtain ⟨y, hy, hlistener, hkeys, htold⟩ := ih
    have hsink : w.sink k = y := World.sink_of_getElem? hy
    refine ⟨y, sink.trans hy, hlistener, hkeys, fun name hname => ?_⟩
    rw [quiet name (hsink ▸ hlistener.trans hname), htold name hname]

/-- Notices come one after the other. -/
theorem Listening.notices {k : SinkRef} {first w : World σ} {before : List Notice}
    (h : Listening k first w before) (notices : List Notice) :
    Listening k first (notices.foldl (fun w n => ((Action.receive k n).exec w).2) w)
      (before ++ notices) := by
  induction notices generalizing w before with
  | nil => rwa [List.append_nil]
  | cons n notices ih =>
    have hrest := ih (h.notice n)
    rwa [List.append_assoc] at hrest

/-- **A session knows of each key what was reported last.** Whatever notices have come to the sink of
a session since it was made, in whatever order, with whatever key IDs and statuses, and whatever
else went on meanwhile:

* the status of a key is that of the last report for its ID in either byte order, and it is pending
  if there was none;
* the session has a key exactly if there was a report for it, and exactly then the key has an error
  value, that of its last status;
* there is one entry for a key that was reported and none for another;
* the entries are in the order of first reports, each under the ID of the first report and with the
  status of the last, and no two of them are for the same key;
* if the listener of the session keeps a journal, it was told of each notice in turn what is heard
  of it, and of keys exactly those that were reported with a status that is not pending, with their
  IDs as they were reported. -/
theorem ledger_of_listening {k : SinkRef} {first w : World σ} {notices : List Notice}
    (h : Listening k first w notices) {x : Sink} (made : first.sinks[k]? = some x)
    (fresh : x.keys = []) {i : SessionRef} (session : (w.session i).sink = k) :
    let reports := notices.filterMap Notice.report?
    let l := w.ledger i
    (∀ id : KeyId,
      l.status id = ((KeyReport.statuses reports id).getLast?).getD .statusPending ∧
      (l.contains id = true ↔ ∃ r ∈ reports, r.1.agrees id = true) ∧
      (l.errorValue? id = none ↔ ¬ ∃ r ∈ reports, r.1.agrees id = true) ∧
      l.errorValue? id = ((KeyReport.statuses reports id).getLast?).map KeyStatus.errorValue ∧
      l.countP (fun entry => entry.1.agrees id) =
        if reports.any (fun r => r.1.agrees id) then 1 else 0) ∧
    l = (KeyReport.names reports).map (fun id =>
      (id, ((KeyReport.statuses reports id).getLast?).getD .statusPending)) ∧
    l.Pairwise (fun entry other => entry.1.agrees other.1 = false) ∧
    ∀ name, x.listener = .journal name →
      w.toldTo name = first.toldTo name ++ notices.filterMap Notice.event? ∧
      (w.toldTo name).filterMap SessionEvent.updatedKey? =
        (first.toldTo name).filterMap SessionEvent.updatedKey? ++
          (reports.filter fun r => !r.2.isPending).map Prod.fst := by
  intro reports l
  obtain ⟨y, hy, -, hkeys, htold⟩ := h.heard made
  rw [fresh] at hkeys
  have hl : l = KeyLedger.ofReports reports := by
    show (w.sink (w.session i).sink).keys = _
    rw [session, World.sink_of_getElem? hy]
    exact hkeys
  have hfind (id : KeyId) : l.find? id = (KeyReport.statuses reports id).getLast? := by
    rw [hl, KeyLedger.find?_ofReports]
  have hnone (id : KeyId) : (KeyReport.statuses reports id).getLast? = none ↔
      ¬ ∃ r ∈ reports, r.1.agrees id = true := by
    rw [List.getLast?_eq_none_iff, KeyReport.statuses_eq_nil_iff, ← Bool.not_eq_true,
      List.any_eq_true]
  have hids : l.map Prod.fst = KeyReport.names reports := by rw [hl, KeyLedger.ids_ofReports]
  refine ⟨fun id => ⟨?_, ?_, ?_, ?_, ?_⟩, hl.trans (KeyLedger.ofReports_eq reports), ?_,
    fun name hname => ⟨htold name hname, ?_⟩⟩
  · rw [KeyLedger.status, hfind]
  · rw [KeyLedger.contains, hfind, ← not_iff_not, ← hnone, Bool.not_eq_true,
      Option.isSome_eq_false_iff, Option.isNone_iff_eq_none]
  · rw [KeyLedger.errorValue?, hfind, Option.map_eq_none_iff, hnone]
  · rw [KeyLedger.errorValue?, hfind]
  · have hcount := KeyReport.countP_names reports id
    rw [← hids, List.countP_map] at hcount
    refine hcount.trans ?_
    simp only [KeyReport.statuses_eq_nil_iff]
    cases reports.any fun r => r.1.agrees id <;> rfl
  · rw [← List.pairwise_map (f := Prod.fst) (R := fun id other => KeyId.agrees id other = false), hids]
    exact KeyReport.pairwise_names reports
  · rw [htold name hname, List.filterMap_append, filterMap_updatedKey?]

end Notices

/-- A session whose listener keeps a journal. Nothing was reported yet. -/
def unreported : World Scripted.Engine where
  service := { script := { sessionId := fun _ => "", bufferId := fun _ => "" } }
  sinks := [{ listener := .journal "s" }]
  sessions := [{}]

/-- The ID of a key in the form of a GUID. -/
def guidKey : KeyId := [0, 1, 2, 3, 4, 5, 6, 7, 8, 9, 10, 11, 12, 13, 14, 15]

/-- A key is reported under both spellings of its ID, and another one is waited for. -/
def respelt : List Notice :=
  [.keyStatus guidKey .usable, .keyStatus [7] .statusPending, .keyStatusesComplete,
    .keyStatus (KeyId.swapped guidKey) .hwError]

/-- The key has one entry, and the journal was told of it twice. -/
theorem ledger_of_respelt :
    let w := respelt.foldl (fun w n => ((Action.receive 0 n).exec w).2) unreported
    w.ledger 0 = [(guidKey, .hwError), ([7], .statusPending)] ∧
    (w.ledger 0).status guidKey = .hwError ∧
    (w.ledger 0).errorValue? (KeyId.swapped guidKey) = some 8 ∧
    (w.ledger 0).errorValue? [9] = none ∧
    w.toldTo "s" = [.keyUpdated guidKey, .keysUpdated, .keyUpdated (KeyId.swapped guidKey)] := by
  intro w
  have hlistening : Listening 0 unreported w respelt := Listening.start.notices respelt
  have hsession : (w.session 0).sink = 0 := by decide +kernel
  obtain ⟨hkeys, hentries, -, htold⟩ := ledger_of_listening hlistening
    (x := { listener := .journal "s" }) rfl rfl hsession
  refine ⟨hentries.trans (by decide +kernel), (hkeys guidKey).1.trans (by decide +kernel),
    (hkeys (KeyId.swapped guidKey)).2.2.2.1.trans (by decide +kernel),
    (hkeys [9]).2.2.1.2 (by decide +kernel), ((htold "s" rfl).1).trans (by decide +kernel)⟩

end Client

end ContentDecryption
