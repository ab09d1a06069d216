import ContentDecryption.Proofs.Loopback.Routes

/-!
# Licenses and key statuses

The engine keeps the keys of a session in a list that grows with every license and is
emptied at once. The client keeps what it was told of each key. The two are changed
apart, but they never disagree: a key is usable for the client if the engine has it,
released if the engine had it once, and unknown if no license has named it. In which
byte order a license, a report or a question spells a key ID does not matter.

Main definitions:

* `Tracks`: a ledger, the key IDs of the engine and those that licenses have named agree;
* `Upheld`: what holds of a session as long as it is held;
* `Licensed`: the worlds that a session lives through, and the key IDs that the licenses it has
  accepted have named.

Main results:

* `ledger_receiveAll`: what a ledger makes of notices, whatever the callbacks do meanwhile;
* `Session.tracks_update`, `Session.tracks_remove`: the requests that change keys keep the two in
  step;
* `Upheld.after`: what a call makes of a session;
* `statuses_of_licensed`: what the client says of a key is what the engine has.
-/

namespace ContentDecryption

open Service

/-- The key IDs that a license names. -/
def License.names (response : Bytes) : List KeyId :=
  ((License.decode? response).getD []).map Prod.fst

/-- Whether a key goes by one of these IDs. -/
def KeyId.isAmong (ids : List KeyId) (k : KeyId) : Bool := ids.any fun id => id.agrees k

namespace KeyLedger

/-- Takes reports of one status for keys. -/
def reportAll (l : KeyLedger) (ids : List KeyId) (status : KeyStatus) : KeyLedger :=
  ids.foldl (fun l id => l.report id status) l

theorem find?_reportAll (l : KeyLedger) (ids : List KeyId) (status : KeyStatus) (k : KeyId) :
    (l.reportAll ids status).find? k =
      if KeyId.isAmong ids k then some status else l.find? k := by
  induction ids generalizing l with
  | nil => rfl
  | cons id ids ih =>
    show ((l.report id status).reportAll ids status).find? k = _
    rw [ih, find?_report_eq, KeyId.isAmong, KeyId.isAmong, List.any_cons]
    cases KeyId.agrees id k <;> simp

/-- What the ledger at the sink `k` makes of a notice. -/
def hear (k : SinkRef) (l : KeyLedger) (d : Delivery) : KeyLedger :=
  match d.2 with
  | .keyStatus id status => if d.1 = k then l.report id status else l
  | _ => l

/-- A ledger makes nothing of notices that go elsewhere. -/
theorem foldl_hear_of_ne {k : SinkRef} {notices : List Delivery} (l : KeyLedger)
    (h : ∀ d ∈ notices, d.1 ≠ k) : notices.foldl (hear k) l = l := by
  induction notices generalizing l with
  | nil => rfl
  | cons d notices ih =>
    have hd : hear k l d = l := by
      unfold hear
      split
      · exact if_neg (h d List.mem_cons_self)
      · rfl
    rw [List.foldl_cons, hd]
    exact ih l fun e he => h e (List.mem_cons_of_mem d he)

end KeyLedger

/-! ## The two sides -/

/-- A ledger says of all keys what becomes them: those that the engine has are usable, those that it
had once are released, and of others nothing is known. -/
structure Tracks (l : KeyLedger) (keys named : List KeyId) : Prop where
  found : ∀ k, l.find? k =
    if KeyId.isAmong keys k then some .usable
    else if KeyId.isAmong named k then some .released else none
  within : ∀ k, KeyId.isAmong keys k = true → KeyId.isAmong named k = true

namespace Tracks

variable {l : KeyLedger} {keys named : List KeyId}

theorem nil : Tracks [] [] [] := ⟨fun _ => rfl, fun _ => id⟩

theorem isAmong_append (ids ids' : List KeyId) (k : KeyId) :
    KeyId.isAmong (ids ++ ids') k = (KeyId.isAmong ids k || KeyId.isAmong ids' k) :=
  List.any_append

/-- A license brings keys. -/
theorem license (h : Tracks l keys named) (ids : List KeyId) :
    Tracks (l.reportAll ids .usable) (keys ++ ids) (named ++ ids) where
  found := by
    intro k
    rw [KeyLedger.find?_reportAll, h.found, isAmong_append, isAmong_append]
    cases KeyId.isAmong ids k <;> simp
  within := by
    intro k hk
    rw [isAmong_append, Bool.or_eq_true] at hk ⊢
    exact hk.imp_left (h.within k)

/-- All keys go. -/
theorem clear (h : Tracks l keys named) : Tracks (l.reportAll keys .released) [] named where
  found := by
    intro k
    rw [KeyLedger.find?_reportAll, h.found]
    cases hk : KeyId.isAmong keys k with
    | false => rfl
    | true =>
      rw [if_pos rfl, h.within k hk]
      rfl
  within := fun k hk => nomatch hk

theorem status_eq_usable_iff (h : Tracks l keys named) (k : KeyId) :
    l.status k = .usable ↔ ∃ id ∈ keys, id.agrees k = true := by
  rw [← List.any_eq_true, KeyLedger.status, h.found]
  show _ ↔ KeyId.isAmong keys k = true
  cases KeyId.isAmong keys k
  · cases KeyId.isAmong named k <;> simp
  · simp

theorem status_eq_released_iff (h : Tracks l keys named) (k : KeyId) :
    l.status k = .released ↔
      (∃ id ∈ named, id.agrees k = true) ∧ ¬ ∃ id ∈ keys, id.agrees k = true := by
  rw [← List.any_eq_true, ← List.any_eq_true, KeyLedger.status, h.found]
  show _ ↔ KeyId.isAmong named k = true ∧ ¬ KeyId.isAmong keys k = true
  cases KeyId.isAmong keys k
  · cases KeyId.isAmong named k <;> simp
  · simp

theorem unknown_iff (h : Tracks l keys named) (k : KeyId) :
    l.status k = .statusPending ∧ l.contains k = false ↔
      ¬ ∃ id ∈ named, id.agrees k = true := by
  rw [← List.any_eq_true, KeyLedger.status, KeyLedger.contains, h.found]
  show _ ↔ ¬ KeyId.isAmong named k = true
  cases hk : KeyId.isAmong keys k
  · cases KeyId.isAmong named k <;> simp
  · simp [h.within k hk]

end Tracks

namespace Loopback

open Client

/-! ## Requests that change keys -/

namespace Session

/-- The reports about keys are for the sink of the session. -/
theorem foldl_hear_report (x : Session) {k : SinkRef} (hk : x.sink = some k) (l : KeyLedger)
    (ids : List KeyId) (status : KeyStatus) :
    (x.report ((ids.map fun id => .keyStatus id status) ++ [.keyStatusesComplete])).foldl
      (KeyLedger.hear k) l = l.reportAll ids status := by
  rw [report, hk]
  dsimp only
  rw [List.map_append, List.map_map, List.foldl_append]
  show (ids.map ((fun n => (k, n)) ∘ fun id => Notice.keyStatus id status)).foldl
    (KeyLedger.hear k) l = _
  rw [List.foldl_map]
  have hreport (l : KeyLedger) (id : KeyId) :
      KeyLedger.hear k l (k, .keyStatus id status) = l.report id status := if_pos rfl
  exact congrArg (fun f => ids.foldl f l) (funext fun l => funext fun id => hreport l id)

theorem sink_of_mem_report {x : Session} {notices : List Notice} {d : Delivery}
    (h : d ∈ x.report notices) : x.sink = some d.1 := by
  unfold report at h
  split at h
  · next k hk =>
    obtain ⟨n, -, rfl⟩ := List.mem_map.1 h
    exact hk
  · cases h

/-- A license is refused, and nothing happens; or it brings the keys that it names. -/
theorem update_cases (x : Session) (response : Bytes) :
    ((∃ e, Error.ofStatus (x.update response).1.value = .error e) ∧
        (x.update response).1.notices = [] ∧ (x.update response).2 = x) ∨
      (Error.ofStatus (x.update response).1.value = .ok () ∧
        (x.update response).1.notices =
          x.report (((License.names response).map fun id => .keyStatus id .usable)
            ++ [.keyStatusesComplete]) ∧
        (x.update response).2.keys.map Prod.fst =
          x.keys.map Prod.fst ++ License.names response) := by
  unfold update
  split
  · exact .inl ⟨⟨_, rfl⟩, rfl, rfl⟩
  · cases hr : License.decode? response with
    | none => exact .inl ⟨⟨_, rfl⟩, rfl, rfl⟩
    | some records =>
      refine .inr ⟨rfl, ?_, ?_⟩
      · rw [License.names, hr, Option.getD_some, List.map_map]
        rfl
      · rw [License.names, hr, Option.getD_some]
        exact List.map_append

theorem sink_of_mem_update {x : Session} {response : Bytes} {d : Delivery}
    (h : d ∈ (x.update response).1.notices) : x.sink = some d.1 := by
  rcases x.update_cases response with ⟨-, hnone, -⟩ | ⟨-, hreport, -⟩
  · rw [hnone] at h
    cases h
  · rw [hreport] at h
    exact sink_of_mem_report h

/-- A license keeps the ledger and the keys in step. -/
theorem tracks_update {x : Session} {k : SinkRef} (hk : x.sink = some k) {l : KeyLedger}
    {named : List KeyId} (h : Tracks l (x.keys.map Prod.fst) named) (response : Bytes) :
    let y := x.update response
    Tracks (y.1.notices.foldl (KeyLedger.hear k) l) (y.2.keys.map Prod.fst)
      (named ++ if (Error.ofStatus y.1.value).isOk then License.names response else []) := by
  intro y
  rcases x.update_cases response with ⟨⟨e, hrefused⟩, hnotices, hsame⟩ |
    ⟨haccepted, hnotices, hkeys⟩
  · rw [hnotices, hsame, hrefused, if_neg (fun hok => nomatch hok), List.append_nil]
    exact h
  · rw [hnotices, hkeys, haccepted, x.foldl_hear_report hk]
    exact h.license (License.names response)

/-- So does dropping all keys. -/
theorem tracks_remove {x : Session} {k : SinkRef} (hk : x.sink = some k) {l : KeyLedger}
    {named : List KeyId} (h : Tracks l (x.keys.map Prod.fst) named) :
    Tracks (x.remove.1.notices.foldl (KeyLedger.hear k) l) (x.remove.2.keys.map Prod.fst)
      named := by
  have hnotices : x.remove.1.notices =
      x.report (((x.keys.map Prod.fst).map fun id => .keyStatus id .released)
        ++ [.keyStatusesComplete]) := by
    rw [List.map_map]
    rfl
  rw [hnotices, x.foldl_hear_report hk]
  exact h.clear

end Session

/-! ## Notices that are taken in -/

/-- The engine lets itself be left at any time. -/
theorem failsOnly_leave (timeoutMs : Nat) :
    (Action.ask (.closeConnection timeoutMs) : Action Engine Unit).FailsOnly fun _ => False :=
  Action.Succeeds.failsOnly (fun _ => ⟨(), _, rfl⟩) _

/-- Every notice is taken in. -/
theorem succeeds_receiveAll (l : List Delivery) :
    (Action.receiveAll l : Action Engine Unit).Succeeds :=
  (Action.failsOnly_receiveAll failsOnly_leave l).succeeds

/-- The others are taken in after the first. -/
theorem exec_receiveAll_cons (d : Delivery) (l : List Delivery) (w : World Engine) :
    (Action.receiveAll (d :: l)).exec w =
      (Action.receiveAll l).exec ((Action.receive d.1 d.2).exec w).2 := by
  obtain ⟨_, w', hreceive⟩ := (Action.failsOnly_receive failsOnly_leave d.1 d.2).succeeds w
  rw [hreceive]
  exact Action.exec_bind_of_ok hreceive fun _ => Action.receiveAll l

/-- What the ledgers make of a notice. -/
theorem ledger_receive {w : World Engine} {n m : Nat} (hw : Sized n m w) (d : Delivery)
    {k : SinkRef} (hk : k < w.sinks.length) :
    (((Action.receive d.1 d.2).exec w).2.sink k).keys = KeyLedger.hear k (w.sink k).keys d := by
  obtain ⟨j, notice⟩ := d
  have hquiet (hother : ∀ key status, notice ≠ .keyStatus key status) :
      (((Action.receive j notice).exec w).2.sink k).keys = (w.sink k).keys := by
    have hpasses : Passes (fun _ => False) w ((Action.receive j notice).exec w).2 :=
      .steps (runs_receive j notice (fun key status he => hother key status he) w hw)
    exact hpasses.ledger hk id
  cases notice with
  | message | keyStatusesComplete | error => exact hquiet fun _ _ => nofun
  | keyStatus key status =>
    let held := w.setRegistry (w.sink j).registry fun x => { x with handles := x.handles + 1 }
    let learned := held.setSink j fun s => { s with keys := s.keys.report key status }
    have hpasses : Passes (fun _ => False) learned
        ((Action.receive j (.keyStatus key status)).exec w).2 :=
      .steps (steps_receive_keyStatus hw j key status)
    have hlength : learned.sinks.length = w.sinks.length := List.length_modify ..
    have hsink : learned.sink k =
        if j = k then { w.sink k with keys := (w.sink k).keys.report key status }
        else w.sink k := by
      show (w.sinks.modify j _).getD k {} = _
      rw [World.sink, List.getD_eq_getElem?_getD, List.getElem?_modify,
        List.getD_eq_getElem _ _ hk, List.getElem?_eq_getElem hk]
      rfl
    rw [hpasses.ledger (by rwa [hlength]) id, hsink, KeyLedger.hear]
    dsimp only
    split <;> rfl

/-- What a ledger makes of notices, whatever the callbacks do meanwhile. -/
theorem ledger_receiveAll (l : List Delivery) {w : World Engine} {n m : Nat} (hw : Sized n m w)
    {k : SinkRef} (hk : k < w.sinks.length) :
    (((Action.receiveAll l).exec w).2.sink k).keys =
      l.foldl (KeyLedger.hear k) (w.sink k).keys := by
  induction l generalizing w with
  | nil => rfl
  | cons d l ih =>
    have hsteps : Steps (fun _ => True) w ((Action.receive d.1 d.2).exec w).2 :=
      runs_receive d.1 d.2 (fun _ _ _ => trivial) w hw
    rw [exec_receiveAll_cons, ih (hw.steps hsteps)
      (Nat.lt_of_lt_of_le hk (Passes.steps hsteps).sinks), ledger_receive hw d hk, List.foldl_cons]

/-! ## A session of a client -/

/-- As long as a session is held, the engine reports to its sink, and this is true of the ledger
there and of the keys of the engine. -/
def Upheld (i : SessionRef) (P : KeyLedger → List KeyRecord → Prop) (w : World Engine) : Prop :=
  ∃ s, w.sessions[i]? = some s ∧ (0 < s.handles →
    w.service.sinkOf s.remote = some s.sink ∧
      P (w.sink s.sink).keys (w.service.keysOf s.remote))

/-- As long as a session is held, the engine reports to its sink, and its ledger says what becomes
of the keys. -/
def Tracked (i : SessionRef) (named : List KeyId) (w : World Engine) : Prop :=
  ∃ s, w.sessions[i]? = some s ∧ (0 < s.handles →
    w.service.sinkOf s.remote = some s.sink ∧
      Tracks (w.sink s.sink).keys ((w.service.keysOf s.remote).map Prod.fst) named)

theorem tracked_iff {i : SessionRef} {named : List KeyId} {w : World Engine} :
    Tracked i named w ↔ Upheld i (fun l keys => Tracks l (keys.map Prod.fst) named) w := Iff.rfl

/-- Behind a session of the engine there is one session of the client at most. -/
theorem Wired.spared {w : World Engine} (h : Wired none w) {i : SessionRef} {s : Client.Session}
    (hs : w.sessions[i]? = some s) (hheld : 0 < s.handles) : Spared w s.remote := by
  intro j t ht hremote
  obtain rfl := h.distinct ht hs hremote
  obtain rfl : s = t := Option.some.inj (hs.symm.trans ht)
  exact hheld

/-- Of a new session nothing was reported, and it has no keys. -/
theorem Blank.upheld {w : World Engine} {i : SessionRef} {s : Client.Session}
    (h : Blank w i s) {P : KeyLedger → List KeyRecord → Prop} (hP : P [] []) : Upheld i P w := by
  refine ⟨s, h.session, fun _ => ⟨h.sink, ?_⟩⟩
  rwa [h.ledger, h.keys]

namespace Upheld

variable {i : SessionRef} {P P' : KeyLedger → List KeyRecord → Prop} {w w' : World Engine}

/-- What passes the session by, and tells its sink of no keys. -/
theorem passes {told : SinkRef → Prop} (h : Upheld i P w) (hrouted : Routed w)
    (hw' : Wired none w') (hpasses : Passes told w w')
    (hquiet : ∀ s, w.sessions[i]? = some s → ¬ told s.sink) : Upheld i P w' := by
  obtain ⟨s, hs, hholds⟩ := h
  obtain ⟨t, ht, hst⟩ := hpasses.sessions i s hs
  refine ⟨t, ht, fun hheld => ?_⟩
  obtain ⟨hsink, hholds⟩ := hholds (hst.held hheld)
  have hspared := hw'.spared ht hheld
  rw [hst.remote] at hspared
  obtain ⟨hsink', hkeys'⟩ := hpasses.spared hsink hspared
  rw [hst.remote, hst.sink, hkeys', hpasses.ledger (hrouted.placed hsink) (hquiet s hs)]
  exact ⟨hsink', hholds⟩

/-- Notices are taken in that the ledger has to hear for it to be true. -/
theorem receiveAll (hw : Fit w) (hrouted : Routed w) {l : List Delivery} {s : Client.Session}
    (hs : w.sessions[i]? = some s) (h : 0 < s.handles →
      w.service.sinkOf s.remote = some s.sink ∧
        P (l.foldl (KeyLedger.hear s.sink) (w.sink s.sink).keys) (w.service.keysOf s.remote)) :
    Upheld i P ((Action.receiveAll l).exec w).2 := by
  have hpasses : Passes (fun _ => True) w ((Action.receiveAll l).exec w).2 :=
    .runs hw fun _ => runs_receiveAll fun _ => trivial
  obtain ⟨t, ht, hst⟩ := hpasses.sessions i s hs
  refine ⟨t, ht, fun hheld => ?_⟩
  obtain ⟨hsink, hholds⟩ := h (hst.held hheld)
  have hspared := (hw.receiveAll l).1.spared ht hheld
  rw [hst.remote] at hspared
  obtain ⟨hsink', hkeys'⟩ := hpasses.spared hsink hspared
  obtain ⟨-, n, m, hsized⟩ := hw
  rw [hst.remote, hst.sink, hkeys', ledger_receiveAll l hsized (hrouted.placed hsink)]
  exact ⟨hsink', hholds⟩

/-- A request about a session that changes its keys, and the notices that come of it. It is the
session itself that the request is about, or it is another one. -/
theorem reported (h : Upheld i P w) (hw : Fit w) (hrouted : Routed w) {j : SessionRef}
    {t : Client.Session} (ht : w.sessions[j]? = some t) {x : Session}
    (hx : w.service.sessions[t.remote]? = some x) {q : SessionRequest} {l : List Delivery}
    (hsink : (w.service.respondSession x q).2.1.sink = x.sink)
    (hl : ∀ d ∈ l, x.sink = some d.1)
    (hself : j = i → ∀ {ledger : KeyLedger}, x.sink = some t.sink → P ledger x.keys →
      P' (l.foldl (KeyLedger.hear t.sink) ledger) (w.service.respondSession x q).2.1.keys)
    (hother : j ≠ i → ∀ ledger keys, P ledger keys → P' ledger keys) :
    Upheld i P' ((Action.receiveAll l).exec (w.answered (.session t.remote q))).2 := by
  let e' := (Engine.respond (.session t.remote q) w.service w.memory).service
  have hset : e'.sessions = w.service.sessions.set t.remote (w.service.respondSession x q).2.1 := by
    show (Engine.respond (.session t.remote q) w.service w.memory).service.sessions = _
    rw [Engine.respond_session hx]
    show ((w.service.respondSession x q).2.2.sessions).set _ _ = _
    rw [(w.service.alike_respondSession x q).2]
  have hbefore : w.service.sinkOf t.remote = x.sink := by
    rw [Engine.sinkOf, hx]
    rfl
  have old := Engine.session_ne_createSession t.remote q
  obtain ⟨s, hs, hholds⟩ := h
  refine receiveAll (s := s) (hw.answered _ old)
    (hrouted.of_fewer (Nat.le_refl _) (Engine.sinkOf_respond old)) hs fun hheld => ?_
  obtain ⟨hs', hholds⟩ := hholds hheld
  show e'.sinkOf s.remote = some s.sink ∧
    P' (l.foldl (KeyLedger.hear s.sink) (w.sink s.sink).keys) (e'.keysOf s.remote)
  rw [Engine.sinkOf_of_set hx hset hsink]
  refine ⟨hs', ?_⟩
  by_cases hji : j = i
  · subst hji
    obtain rfl : t = s := Option.some.inj (ht.symm.trans hs)
    have hkeys : w.service.keysOf t.remote = x.keys := by
      rw [Engine.keysOf, hx]
      rfl
    rw [hkeys] at hholds
    rw [Engine.keysOf, Engine.getElem?_of_set_self hx hset]
    exact hself rfl (hbefore.symm.trans hs') hholds
  · -- The notices are for another sink, and the keys those of another session.
    have hremote : t.remote ≠ s.remote := fun he => hji (hw.1.distinct ht hs he)
    have hsame : e'.sessions[s.remote]? = w.service.sessions[s.remote]? := by
      rw [hset, List.getElem?_set_ne hremote]
    rw [Engine.keysOf_congr hsame, KeyLedger.foldl_hear_of_ne _ fun d hd he => ?_]
    · exact hother hji _ _ hholds
    · have hd := hl d hd
      rw [he, ← hbefore] at hd
      exact hremote (hrouted.apart hd hs')

end Upheld

/-! ## Licensed sessions -/

/-- What comes of a request about a session that is answered with a status and notices. -/
theorem exec_reported {w w' : World Engine} {a : Action Engine (Reported Status)}
    {reported : Reported Status} (ha : a.exec w = (.ok reported, w')) :
    ((do
      let reported ← a
      Action.receiveAll reported.notices
      Action.ofStatus reported.value : Action Engine Unit).exec w) =
    ((Error.ofStatus reported.value).mapError .error,
      ((Action.receiveAll reported.notices).exec w').2) := by
  obtain ⟨_, w'', hreceive⟩ := succeeds_receiveAll reported.notices w'
  rw [Action.exec_reported ha hreceive, hreceive]

theorem exec_askSession {w : World Engine} {j : SessionRef} {t : Client.Session}
    (ht : w.sessions[j]? = some t) {x : Session} (hx : w.service.sessions[t.remote]? = some x)
    (q : SessionRequest) : (Action.askSession j q).exec w =
      (.ok (w.service.respondSession x q).1, w.answered (.session t.remote q)) := by
  have hask : (Action.askSession j q).exec w =
      (Action.ask (.session (w.session j).remote q)).exec w := rfl
  have hanswer : (Service.respond (.session t.remote q) w.service w.memory).answer =
      some (w.service.respondSession x q).1 :=
    congrArg Response.answer (Engine.respond_session hx q w.memory)
  rw [hask, World.session_of_getElem? ht, Action.exec_ask, hanswer]
  rfl

/-- The key IDs that a call has the session take, if it is a license for it that is accepted. -/
def Call.names (i : SessionRef) (w : World Engine) : Call → List KeyId
  | .update j response =>
    if j = i ∧ ((Action.update j response).exec w).1.isOk = true then License.names response else []
  | _ => []

/-- Whether a call is complete and one of a session that there is. What the engine reports of its
own accord are no key statuses of the session `i`. -/
def Call.IsOrderly (i : SessionRef) (w : World Engine) : Call → Prop
  | .update j _ => j < w.sessions.length
  | .remove j => j < w.sessions.length
  | .ask _ q => q.isPlain = true
  | .receive l => ∀ id status, ((w.session i).sink, .keyStatus id status) ∉ l
  | _ => True

/-- The worlds that a session lives through from when the client gets it, with the key IDs that the
licenses it has accepted have named. -/
inductive Licensed (i : SessionRef) : World Engine → List KeyId → Prop
  | created {w : World Engine} (before : Reached w) (system : SystemRef) (licenseType : Int32)
      (initDataType : String) (initData cdmData : Bytes) (listener : Listener)
      (made : ((Action.createSession system licenseType initDataType initData cdmData
        listener).exec w).1 = .ok i) :
      Licensed i
        (Call.after w (.createSession system licenseType initDataType initData cdmData listener)) []
  | call {w : World Engine} {named : List KeyId} (c : Call) (before : Licensed i w named)
      (possible : c.Possible w) (orderly : c.IsOrderly i w) :
      Licensed i (c.after w) (named ++ c.names i w)
  /-- A decrypt call that is not answered in time changes the memory. -/
  | overtime {w : World Engine} {named : List KeyId} {memory : SharedMemory}
      (before : Licensed i w named) (reached : Reached { w with memory }) :
      Licensed i { w with memory } named

theorem Licensed.reached {i : SessionRef} {w : World Engine} {named : List KeyId}
    (h : Licensed i w named) : Reached w := by
  induction h with
  | created before => exact .call _ before trivial
  | call c before possible orderly ih => exact .call c ih possible
  | overtime before reached => exact reached

/-- Whether a call is one that may change the keys of the session `i`. -/
def Call.isForKeys (i : SessionRef) : Call → Bool
  | .update j _ => j == i
  | .remove j => j == i
  | _ => false

/-- Whether a license is accepted is for the session of the engine to say. -/
theorem isOk_update {w : World Engine} {j : SessionRef} {t : Client.Session}
    (ht : w.sessions[j]? = some t) {x : Session} (hx : w.service.sessions[t.remote]? = some x)
    (response : Bytes) : ((Action.update j response).exec w).1.isOk =
      (Error.ofStatus (x.update response).1.value).isOk := by
  have hexec : (Action.update j response).exec w = _ :=
    exec_reported (exec_askSession ht hx (.update response))
  rw [hexec]
  show (Except.mapError _ (Error.ofStatus (x.update response).1.value)).isOk = _
  cases Error.ofStatus (x.update response).1.value <;> rfl

/-- What a call makes of a session. Only the requests that change its keys matter. -/
theorem Upheld.after {i : SessionRef} {P P' : KeyLedger → List KeyRecord → Prop}
    {w : World Engine} (h : Upheld i P w) (hw : Fit w) (hrouted : Routed w) {c : Call}
    (hc : c.Possible w) (horderly : c.IsOrderly i w)
    (haside : c.isForKeys i = false → ∀ l keys, P l keys → P' l keys)
    (hupdate : ∀ response, c = .update i response → ∀ {x : Session} {l : KeyLedger} {k : SinkRef},
      x.sink = some k →
      ((Action.update i response).exec w).1.isOk =
        (Error.ofStatus (x.update response).1.value).isOk → P l x.keys →
      P' ((x.update response).1.notices.foldl (KeyLedger.hear k) l) (x.update response).2.keys)
    (hremove : c = .remove i → ∀ {x : Session} {l : KeyLedger} {k : SinkRef}, x.sink = some k →
      P l x.keys → P' (x.remove.1.notices.foldl (KeyLedger.hear k) l) x.remove.2.keys) :
    Upheld i P' (c.after w) := by
  have hmono (hfor : c.isForKeys i = false) {w' : World Engine} (h : Upheld i P w') :
      Upheld i P' w' := by
    obtain ⟨s, hs, hholds⟩ := h
    exact ⟨s, hs, fun hheld => (hholds hheld).imp_right (haside hfor _ _)⟩
  by_cases hpassing : c.isPassing = true
  · have hpasses : Passes (fun _ => False) w (c.after w) := Call.passes hw hc hpassing
    have hfor : c.isForKeys i = false := by
      cases c with
      | update | remove => cases hpassing
      | _ => rfl
    exact hmono hfor (h.passes hrouted (hw.after hc).1 hpasses fun _ _ => id)
  · cases c with
    | update j response =>
      have ht := World.getElem?_session (show j < w.sessions.length from horderly)
      obtain ⟨x, hx, -⟩ := hw.1.bound ht
      have hexec : (Action.update j response).exec w = _ :=
        exec_reported (exec_askSession ht hx (.update response))
      rw [Call.after, hexec]
      refine h.reported hw hrouted ht hx (Engine.sink_update x response)
        (fun d hd => Session.sink_of_mem_update hd) (fun hji {ledger} hsink hholds => ?_)
        fun hji => haside (beq_eq_false_iff_ne.2 hji)
      exact hupdate response (by rw [hji]) hsink (by rw [← hji, isOk_update ht hx]) hholds
    | remove j =>
      have ht := World.getElem?_session (show j < w.sessions.length from horderly)
      obtain ⟨x, hx, -⟩ := hw.1.bound ht
      have hexec : (Action.remove j).exec w = _ := exec_reported (exec_askSession ht hx .remove)
      rw [Call.after, hexec]
      exact h.reported hw hrouted ht hx rfl (fun d hd => Session.sink_of_mem_report hd)
        (fun hji {ledger} hsink hholds => hremove (by rw [hji]) hsink hholds)
        fun hji => haside (beq_eq_false_iff_ne.2 hji)
    | receive l =>
      have hquiet : Passes (fun k => k ≠ (w.session i).sink) w ((Action.receiveAll l).exec w).2 :=
        .runs hw fun _ => runs_receiveAll fun {k id status} hmem hk =>
          horderly id status (hk ▸ hmem)
      refine hmono rfl (h.passes hrouted (hw.receiveAll l).1 hquiet fun s hs htold => htold ?_)
      rw [World.session_of_getElem? hs]
    | ask i q => exact absurd horderly hpassing
    | _ => exact absurd rfl hpassing

/-- A call keeps the session in step. -/
theorem Tracked.after {i : SessionRef} {named : List KeyId} {w : World Engine}
    (h : Tracked i named w) (hw : Fit w) (hrouted : Routed w) {c : Call} (hc : c.Possible w)
    (horderly : c.IsOrderly i w) : Tracked i (named ++ c.names i w) (c.after w) := by
  refine tracked_iff.2 ((tracked_iff.1 h).after hw hrouted hc horderly (fun hfor => ?_)
    (fun response hresponse {x l k} hsink haccepted htracks => ?_)
    fun hremove {x l k} hsink htracks => ?_)
  · have hnames : c.names i w = [] := by
      cases c with
      | update j response => exact if_neg fun hboth => beq_eq_false_iff_ne.1 hfor hboth.1
      | _ => rfl
    rw [hnames, List.append_nil]
    exact fun _ _ htracks => htracks
  · rw [hresponse, Call.names, haccepted, if_congr (and_iff_right rfl) rfl rfl]
    exact x.tracks_update hsink htracks response
  · rw [hremove, show Call.names i w (.remove i) = [] from rfl, List.append_nil]
    exact Session.tracks_remove hsink htracks

theorem tracked_of_licensed {i : SessionRef} {w : World Engine} {named : List KeyId}
    (h : Licensed i w named) : Tracked i named w := by
  induction h with
  | created before system licenseType initDataType initData cdmData listener made =>
    have hcreated := @Passes.createSession (fun _ => False) _ (fit_of_reached before) system
      licenseType initDataType initData cdmData listener
    obtain ⟨s, hs⟩ := hcreated.2 i made
    exact tracked_iff.2 (hs.upheld .nil)
  | call c before possible orderly ih =>
    exact ih.after (fit_of_reached before.reached) (routed_of_reached before.reached) possible
      orderly
  | overtime before reached ih => exact ih

/-- **Statuses and keys never drift apart.** Whatever calls a client of the loopback engine has made
since it got a session, with any licenses, whether they were accepted or not, as long as the engine
has reported no key statuses of its own accord: for a session that is still held and every key ID,

* the client says that the key is usable exactly if the engine has a key that goes by this ID;
* it says that the key is released exactly if an accepted license has named it and the engine has no
  such key any more;
* it knows nothing of the key exactly if no accepted license has named it.

IDs are compared in both byte orders, and the other byte order of the ID gets the same answers. -/
theorem statuses_of_licensed {i : SessionRef} {w : World Engine} {named : List KeyId}
    (h : Licensed i w named) {s : Client.Session} (hs : w.sessions[i]? = some s)
    (hlive : 0 < s.handles) :
    ∃ x, w.service.sessions[s.remote]? = some x ∧ ∀ k : KeyId,
      ((w.ledger i).status k = .usable ↔ ∃ entry ∈ x.keys, entry.1.agrees k = true) ∧
      ((w.ledger i).status k = .released ↔
        (∃ id ∈ named, id.agrees k = true) ∧ ¬ ∃ entry ∈ x.keys, entry.1.agrees k = true) ∧
      ((w.ledger i).status k = .statusPending ∧ (w.ledger i).contains k = false ↔
        ¬ ∃ id ∈ named, id.agrees k = true) ∧
      (w.ledger i).status (KeyId.swapped k) = (w.ledger i).status k ∧
      (w.ledger i).contains (KeyId.swapped k) = (w.ledger i).contains k := by
  obtain ⟨x, hx, -⟩ := (fit_of_reached h.reached).1.bound hs
  refine ⟨x, hx, fun k => ?_⟩
  obtain ⟨t, ht, htracks⟩ := tracked_of_licensed h
  obtain rfl : s = t := Option.some.inj (hs.symm.trans ht)
  obtain ⟨-, htracks⟩ := htracks hlive
  have hledger : (w.sink s.sink).keys = w.ledger i := by
    rw [World.ledger, World.session_of_getElem? hs]
  have hkeys : w.service.keysOf s.remote = x.keys := by
    rw [Engine.keysOf, hx]
    rfl
  rw [hledger, hkeys] at htracks
  have hkey : (∃ id ∈ x.keys.map Prod.fst, id.agrees k = true) ↔
      ∃ entry ∈ x.keys, entry.1.agrees k = true := by
    simp only [List.mem_map, exists_exists_and_eq_and]
  have hswapped : (w.ledger i).find? (KeyId.swapped k) = (w.ledger i).find? k :=
    (w.ledger i).find?_congr (KeyId.agrees_iff.2 (.inr rfl))
  refine ⟨?_, ?_, htracks.unknown_iff k, ?_, ?_⟩
  · rw [htracks.status_eq_usable_iff, hkey]
  · rw [htracks.status_eq_released_iff, hkey]
  · rw [KeyLedger.status, hswapped, KeyLedger.status]
  · rw [KeyLedger.contains, hswapped, KeyLedger.contains]

/-- A key ID in the form of a GUID. -/
def guid : KeyId := [0, 1, 2, 3, 4, 5, 6, 7, 8, 9, 10, 11, 12, 13, 14, 15]

/-- A client that opens a key system. -/
def opened : World Engine :=
  [Call.connect { connector := "" }, .createSystem 0 "clear"].foldl Call.after
    { service := { keySystems := ["clear"] } }

/-- It gets a session. -/
def unlicensed : World Engine := Call.after opened (.createSession 0 0 "" [] [] .nobody)

/-- The session gets two keys. A license is refused, and the keys go. -/
def released : World Engine :=
  [Call.update 0 (License.encode [(guid, [5]), ([7], [6])]), .update 0 [1], .remove 0].foldl
    Call.after unlicensed

/-- The first of the keys comes again, in the other byte order. -/
def renewed : World Engine :=
  Call.after released (.update 0 (License.encode [(KeyId.swapped guid, [5])]))

/-- The key that was renewed is usable in either byte order, the other one is released, and a key
that no license has named is unknown. -/
theorem statuses_of_renewed :
    (renewed.ledger 0).status guid = .usable ∧
    (renewed.ledger 0).status (KeyId.swapped guid) = .usable ∧
    (renewed.ledger 0).status [7] = .released ∧
    ((renewed.ledger 0).status [9] = .statusPending ∧
      (renewed.ledger 0).contains [9] = false) := by
  have hopened : Reached opened :=
    .call (.createSystem ..) (.call (.connect _) (.start _ {} [] rfl) trivial) trivial
  have hunlicensed : Licensed 0 unlicensed [] :=
    .created hopened 0 0 "" [] [] .nobody (by decide +kernel)
  have hupdate (w : World Engine) (response : Bytes) (h : 0 < w.sessions.length) :
      Call.IsOrderly 0 w (.update 0 response) := h
  have hremove (w : World Engine) (h : 0 < w.sessions.length) :
      Call.IsOrderly 0 w (.remove 0) := h
  have hlicensed : ∃ named, Licensed 0 renewed named ∧
      named = [guid, [7], KeyId.swapped guid] := by
    refine ⟨_, .call (.update 0 _) (.call (.remove 0) (.call (.update 0 [1]) (.call (.update 0 _)
      hunlicensed trivial (hupdate _ _ ?_)) trivial (hupdate _ _ ?_)) trivial (hremove _ ?_))
      trivial (hupdate _ _ ?_), ?_⟩
    all_goals decide +kernel
  obtain ⟨named, hrenewed, hnamed⟩ := hlicensed
  have hsome : 0 < renewed.sessions.length := by decide +kernel
  have hs : renewed.sessions[0]? = some (renewed.session 0) := by
    rw [World.session, List.getD_eq_getElem _ _ hsome, List.getElem?_eq_getElem hsome]
  obtain ⟨x, hx, hall⟩ := statuses_of_licensed hrenewed hs (by decide +kernel)
  have hkeys : x.keys = [(KeyId.swapped guid, [5])] := by
    have h : (renewed.service.sessions[(renewed.session 0).remote]?).map Session.keys =
        some [(KeyId.swapped guid, [5])] := by decide +kernel
    rw [hx] at h
    exact Option.some.inj h
  rw [hkeys, hnamed] at hall
  have husable : (renewed.ledger 0).status guid = .usable := (hall guid).1.2 (by decide +kernel)
  refine ⟨husable, ?_, (hall [7]).2.1.2 (by decide +kernel), (hall [9]).2.2.1.2 (by decide +kernel)⟩
  rw [(hall guid).2.2.2.1, husable]

end Loopback

end ContentDecryption
