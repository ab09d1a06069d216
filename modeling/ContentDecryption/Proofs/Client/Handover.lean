import ContentDecryption.Proofs.Boundary.Calls
import ContentDecryption.Proofs.Client.Owners
import ContentDecryption.Proofs.Client.Tenure

/-!
# Handing sessions over

A session is handed out by the service, taken up by the client, and perhaps handed on to a
caller across the boundary, who gets a handle to it. On the way its one reference belongs to
whoever is to hand it on, and it is given up where the way ends early: a handle has texts
that end at their first zero byte, and there is none for a session whose texts hold one.

A session without an ID is not taken up at all. So nobody ever holds it, and nobody gives it
up.

Main definitions:

* `Action.handOut`, `Action.handOutTo`: the part of a construction in which the service acts;
* `isNamed`: a session was handed out with an ID.

Main results:

* `Action.exec_createSession`: a session that is handed out is taken up if it has an ID;
* `Tenure.createSession`, `Tenure.constructSession`: who holds a session once it was constructed;
* `Tenure.openHandle`, `Tenure.findSession`: who holds a session once it has a handle, or was found.
-/

namespace ContentDecryption

namespace Client

open Service

/-! ## Parts of a construction -/

namespace Action

variable {σ : Type} {α β : Type}

theorem exec_map (f : α → β) (a : Action σ α) (w : World σ) :
    (f <$> a).exec w = ((a.exec w).1.map f, (a.exec w).2) := by
  show (a >>= fun x => pure (f x) : Action σ β).exec w = _
  rw [exec_bind]
  cases a.exec w with
  | mk x w' => cases x <;> rfl

variable [Service σ]

/-- Asks for a session and takes in what is reported on the way: the session that is handed out, and
the sink that it was asked for with. -/
def handOut (i : SystemRef) (licenseType : Int32) (initDataType : String)
    (initData cdmData : Bytes) (listener : Listener) : Action σ Grant := do
  let s := (← get).system i
  let _ ← accessor s.registry
  let k := (← get).sinks.length
  modify fun w => { w with sinks := w.sinks ++ [{ registry := s.registry, listener }] }
  let reported ← ask (.createSession ⟨s.keySystem, licenseType, initDataType, initData, cdmData⟩ k)
  receiveAll reported.notices
  let x ← ofReply reported.value
  pure (k, x)

/-- A session that is handed out is taken up if it has an ID. -/
theorem exec_createSession (i : SystemRef) (licenseType : Int32) (initDataType : String)
    (initData cdmData : Bytes) (listener : Listener) (w : World σ) :
    (createSession i licenseType initDataType initData cdmData listener).exec w =
      match (handOut i licenseType initDataType initData cdmData listener).exec w with
      | (.ok g, w') =>
        if g.2.id.isEmpty then (.error (.error .invalidSession), w'.released g.2.index)
        else (adoptSession i g.1 g.2).exec w'
      | (.error f, w') => (.error f, w') := by
  unfold createSession handOut
  rw [exec_get_bind, exec_get_bind]
  cases ha : (accessor (w.system i).registry).exec w with
  | mk result w₁ =>
  cases result with
  | error f => rw [exec_bind_of_error ha, exec_bind_of_error ha]
  | ok a =>
  rw [exec_bind_of_ok ha, exec_bind_of_ok ha, exec_get_bind, exec_get_bind, exec_modify_bind,
    exec_modify_bind]
  generalize hopened : ({ w₁ with sinks := _ } : World σ) = opened
  cases hr : (ask (.createSession _ w₁.sinks.length)).exec opened with
  | mk result w₂ =>
  cases result with
  | error f => rw [exec_bind_of_error hr, exec_bind_of_error hr]
  | ok reported =>
  rw [exec_bind_of_ok hr, exec_bind_of_ok hr]
  cases ht : (receiveAll reported.notices).exec w₂ with
  | mk result w₃ =>
  cases result with
  | error f => rw [exec_bind_of_error ht, exec_bind_of_error ht]
  | ok _ =>
  rw [exec_bind_of_ok ht, exec_bind_of_ok ht]
  cases reported.value with
  | error status => rfl
  | ok x =>
    show (if x.id.isEmpty then _ else _ : Action σ SessionRef).exec w₃ =
      if x.id.isEmpty then _ else _
    split_ifs <;> rfl

/-- Who is told about a session: the bridge of the callbacks, if there are any. -/
def listenerOf : Option BridgeRef → Listener
  | some b => .bridge b
  | none => .nobody

/-- What the service hands out to a caller across the boundary. -/
def handOutTo (s : Option SystemRef) (o : Boundary.SessionOrder) : Action σ Grant := do
  let i ← Boundary.systemAt s
  let initDataType ← ofResult (Boundary.textAt o.initDataType)
  let initData ← ofResult (Boundary.bytesAt o.initData o.initDataLength.toNat)
  let cdmData ← ofResult (Boundary.bytesAt o.cdmData o.cdmDataLength.toNat)
  let n := (← get).bridges.length
  modify fun w => { w with bridges := w.bridges ++ o.callbacks.toList }
  handOut i o.licenseType initDataType initData cdmData (listenerOf (o.callbacks.map fun _ => n))

/-- The arguments of a call are refused, or the session is asked for once the callbacks have their
bridge. -/
theorem constructSession_cases (s : Option SystemRef) (o : Boundary.SessionOrder) (w : World σ) :
    let bridged : World σ := { w with bridges := w.bridges ++ o.callbacks.toList }
    let b := o.callbacks.map fun _ => w.bridges.length
    (∃ status f, (Boundary.constructSession s o).run w = ((status, none), w) ∧
        (handOutTo s o).exec w = (.error f, w)) ∨
      ∃ i initDataType initData cdmData,
        (Boundary.constructSession s o).run w = (Boundary.Call.statusAnd none do
          let x ← createSession i o.licenseType initDataType initData cdmData (listenerOf b)
          some <$> Boundary.openHandle x b : Boundary.Call σ _).run bridged ∧
        (handOutTo s o).exec w =
          (handOut i o.licenseType initDataType initData cdmData (listenerOf b)).exec bridged := by
  intro bridged b
  unfold Boundary.constructSession handOutTo
  cases s with
  | none => exact .inl ⟨_, _, rfl, rfl⟩
  | some i =>
  generalize Boundary.textAt o.initDataType = initDataType
  cases initDataType with
  | error e => exact .inl ⟨_, _, rfl, rfl⟩
  | ok initDataType =>
  generalize Boundary.bytesAt o.initData o.initDataLength.toNat = initData
  cases initData with
  | error e => exact .inl ⟨_, _, rfl, rfl⟩
  | ok initData =>
  generalize Boundary.bytesAt o.cdmData o.cdmDataLength.toNat = cdmData
  cases cdmData with
  | error e => exact .inl ⟨_, _, rfl, rfl⟩
  | ok cdmData => exact .inr ⟨i, initDataType, initData, cdmData, rfl, rfl⟩

end Action

/-- Whether a session was handed out with an ID. -/
def isNamed (g : Grant) : Bool := !g.2.id.isEmpty

namespace Tenure

section

variable {σ : Type} {grants : List Grant} {held : List SessionRef} {l m : Nat} {w : World σ}

/-- There is one more sink. -/
theorem addSink (h : Tenure grants held l m w) (x : Sink) :
    Tenure grants held (l + 1) m { w with sinks := w.sinks ++ [x] } where
  made := h.made
  count := h.count
  revoked := h.revoked
  told := h.told
  apart := h.apart.mono (Nat.le_succ l)
  known := h.known
  sinkCount := by
    show (w.sinks ++ [x]).length = l + 1
    rw [List.length_append, h.sinkCount]
    rfl
  sized := h.sized.congr rfl rfl rfl

/-- No handle is there before its session. -/
theorem handlesOn_eq_zero (h : Tenure grants held l m w) : w.handlesOn grants.length = 0 := by
  refine List.countP_eq_zero.2 fun x hx hon => ?_
  obtain ⟨k, hk, rfl⟩ := List.getElem_of_mem hx
  rw [Bool.and_eq_true, beq_iff_eq] at hon
  have hlt := h.sized.session (h.sized.handles ▸ hk)
  rw [World.handle_of_getElem? (List.getElem?_eq_getElem hk), hon.2] at hlt
  exact Nat.lt_irrefl _ hlt

/-- A session is made, with a sink that was opened for it. The application has the only reference
to it. -/
theorem addSession {w' : World σ} {s : Session} (h : Tenure grants held (l + 1) m w)
    (hnew : Apart l grants) (hsink : s.sink = l) (hone : s.handles = 1)
    (hsessions : w'.sessions = w.sessions ++ [s]) (hhandles : w'.handles = w.handles)
    (hsinks : w'.sinks = w.sinks) (hjournal : w'.journal = w.journal)
    (hsized : Sized (grants.length + 1) m w') :
    Tenure (grants ++ [s.grant]) (grants.length :: held) (l + 1) m w' := by
  have hunheld : held.count grants.length = 0 :=
    List.count_eq_zero_of_not_mem fun hmem => Nat.lt_irrefl _ (h.known _ hmem)
  have hon (j : SessionRef) : w'.handlesOn j = w.handlesOn j := by
    rw [World.handlesOn, hhandles, World.handlesOn]
  have hrevocations (remote : Nat) (k : SinkRef) :
      w'.revocations remote k = w.revocations remote k := by
    rw [World.revocations, hjournal, World.revocations]
  have hcases {j : SessionRef} {t : Session} (ht : w'.sessions[j]? = some t) :
      (j < grants.length ∧ w.sessions[j]? = some t) ∨ (j = grants.length ∧ t = s) := by
    rw [hsessions] at ht
    rcases getElem?_concat_cases ht with ht | ⟨hj, rfl⟩
    · exact .inl ⟨h.length_sessions ▸ (List.getElem?_eq_some_iff.1 ht).1, ht⟩
    · exact .inr ⟨hj.trans h.length_sessions, rfl⟩
  refine ⟨?_, fun {j t} ht => ?_, fun {j t} ht => ?_, fun {remote k} hk => ?_,
    hnew.concat hsink, ?_, ?_, ?_⟩
  · rw [hsessions, List.map_append, h.made, List.map_singleton]
  · rw [hon]
    rcases hcases ht with ⟨hj, ht⟩ | ⟨rfl, rfl⟩
    · rw [List.count_cons_of_ne (Nat.ne_of_gt hj)]
      exact h.count ht
    · rw [List.count_cons_self, hunheld, hone, h.handlesOn_eq_zero]
  · rw [hrevocations]
    rcases hcases ht with ⟨hj, ht⟩ | ⟨rfl, rfl⟩
    · exact h.revoked ht
    · -- Nobody has revoked anything at a sink that no session had.
      rw [hone, if_neg Nat.one_ne_zero]
      refine Nat.eq_zero_of_not_pos fun hpos => ?_
      obtain ⟨g, hg, -, hsame⟩ := h.told hpos
      exact Nat.ne_of_lt (hnew.lt g hg) (hsame.trans hsink)
  · rw [hrevocations] at hk
    obtain ⟨g, hg, hsame⟩ := h.told hk
    exact ⟨g, List.mem_append_left _ hg, hsame⟩
  · intro j hj
    rw [List.length_append]
    rcases List.mem_cons.1 hj with rfl | hj
    · exact Nat.lt_succ_self _
    · exact Nat.lt_succ_of_lt (h.known j hj)
  · rw [hsinks]
    exact h.sinkCount
  · rw [List.length_append]
    exact hsized

/-- A session that was handed out with a new sink is taken up. -/
theorem adoptSession (h : Tenure grants held (l + 1) m w) (hnew : Apart l grants) (i : SystemRef)
    (x : RemoteSession) :
    (Action.adoptSession i l x).exec w =
        (.ok grants.length, ((Action.adoptSession i l x).exec w).2) ∧
      Tenure (grants ++ [(l, x)]) (grants.length :: held) (l + 1) m
        ((Action.adoptSession i l x).exec w).2 := by
  obtain ⟨s, hsessions, hgrant, hone⟩ : ∃ s : Session,
      ((Action.adoptSession i l x).exec w).2.sessions = w.sessions ++ [s] ∧ s.grant = (l, x) ∧
        s.handles = 1 := ⟨_, rfl, rfl, rfl⟩
  refine ⟨?_, ?_⟩
  · rw [← h.length_sessions]
    rfl
  · rw [← hgrant]
    exact h.addSession hnew (congrArg Prod.fst hgrant) hone hsessions rfl rfl rfl
      (h.sized.adoptSession i l x)

end

variable {σ : Type} [Service σ] {grants : List Grant} {held : List SessionRef} {l m : Nat}
  {w : World (Watched σ)}

/-- What the service does before it hands a session out leaves the references alone. There is a new
sink if it was asked. -/
theorem handOut (h : Tenure grants held l m w) (i : SystemRef) (licenseType : Int32)
    (initDataType : String) (initData cdmData : Bytes) (listener : Listener) :
    (∃ f w' l', (Action.handOut i licenseType initDataType initData cdmData listener).exec w =
        (.error f, w') ∧ l ≤ l' ∧ Tenure grants held l' m w') ∨
      ∃ x w', (Action.handOut i licenseType initDataType initData cdmData listener).exec w =
        (.ok (l, x), w') ∧ Tenure grants held (l + 1) m w' := by
  have hopened := h.addSink { registry := (w.system i).registry, listener }
  unfold Action.handOut
  rw [Action.exec_get_bind]
  cases ha : (w.registry (w.system i).registry).accessor with
  | none =>
    rw [Action.exec_bind_of_error (Action.exec_accessor_of_none ha)]
    exact .inl ⟨_, w, l, rfl, Nat.le_refl l, h⟩
  | some a =>
  rw [Action.exec_bind_of_ok (Action.exec_accessor_of_some ha), Action.exec_get_bind,
    Action.exec_modify_bind]
  generalize ({ w with sinks := _ } : World (Watched σ)) = opened at hopened ⊢
  have hasked := keeps_ask (r := .createSession
    ⟨(w.system i).keySystem, licenseType, initDataType, initData, cdmData⟩ w.sinks.length)
    (fun _ _ => nofun) opened hopened
  cases hr : (Action.ask (.createSession _ w.sinks.length)).exec opened with
  | mk result asked =>
  rw [hr] at hasked
  cases result with
  | error f => exact .inl ⟨f, asked, l + 1, Action.exec_bind_of_error hr _, Nat.le_succ l, hasked⟩
  | ok reported =>
  have hreceived := keeps_receiveAll reported.notices asked hasked
  rw [Action.exec_bind_of_ok hr]
  cases ht : (Action.receiveAll reported.notices).exec asked with
  | mk result received =>
  rw [ht] at hreceived
  cases result with
  | error f =>
    exact .inl ⟨f, received, l + 1, Action.exec_bind_of_error ht _, Nat.le_succ l, hreceived⟩
  | ok _ =>
  rw [Action.exec_bind_of_ok ht]
  cases reported.value with
  | error status => exact .inl ⟨_, received, l + 1, rfl, Nat.le_succ l, hreceived⟩
  | ok x => exact .inr ⟨x, received, by rw [← h.sinkCount]; rfl, hreceived⟩

/-- What comes of a construction, next to what the service has handed out in it. -/
theorem createSession (h : Tenure grants held l m w) (i : SystemRef) (licenseType : Int32)
    (initDataType : String) (initData cdmData : Bytes) (listener : Listener) :
    let made := (Action.createSession i licenseType initDataType initData cdmData listener).exec w
    let given := ((Action.handOut i licenseType initDataType initData cdmData listener).exec w).1
    (∃ f l', made.1 = .error f ∧ l ≤ l' ∧ Tenure grants held l' m made.2 ∧
        ∀ g, given = .ok g → l' = l + 1 ∧ g.1 = l ∧ isNamed g = false) ∨
      ∃ x, made.1 = .ok grants.length ∧ given = .ok (l, x) ∧ isNamed (l, x) = true ∧
        Tenure (grants ++ [(l, x)]) (grants.length :: held) (l + 1) m made.2 ∧
        made.2.handlesOn grants.length = 0 := by
  intro made given
  have hmade := Action.exec_createSession i licenseType initDataType initData cdmData listener w
  rcases h.handOut i licenseType initDataType initData cdmData listener with
    ⟨f, w', l', hgiven, hl, hw'⟩ | ⟨x, w', hgiven, hw'⟩
  · rw [hgiven] at hmade
    refine .inl ⟨f, l', congrArg Prod.fst hmade, hl, ?_, fun g hg => ?_⟩
    · rw [show made.2 = w' from congrArg Prod.snd hmade]
      exact hw'
    · rw [show given = .error f from congrArg Prod.fst hgiven] at hg
      cases hg
  · rw [hgiven] at hmade
    dsimp only at hmade
    have hx : given = .ok (l, x) := congrArg Prod.fst hgiven
    split_ifs at hmade with hid
    · refine .inl ⟨_, l + 1, congrArg Prod.fst hmade, Nat.le_succ l, ?_, fun g hg => ?_⟩
      · rw [show made.2 = _ from congrArg Prod.snd hmade]
        exact hw'.congr rfl rfl rfl rfl rfl
      · cases hx.symm.trans hg
        exact ⟨rfl, rfl, by rw [isNamed, hid]; rfl⟩
    · obtain ⟨hexec, hadopted⟩ := hw'.adoptSession h.apart i x
      rw [hexec] at hmade
      refine .inr ⟨x, congrArg Prod.fst hmade, hx, ?_, ?_⟩
      · rw [Bool.not_eq_true] at hid
        rw [isNamed, hid]
        rfl
      · rw [show made.2 = _ from congrArg Prod.snd hmade]
        exact ⟨hadopted, hw'.handlesOn_eq_zero⟩

omit [Service σ] in
/-- Nobody else than the application and the handles holds a session. -/
theorem revocations_of_session (h : Tenure grants held l m w) {i : SessionRef} {g : Grant}
    (hg : grants[i]? = some g) : ∃ s, w.sessions[i]? = some s ∧ s.grant = g ∧
      s.handles = held.count i + w.handlesOn i ∧
      w.revocations g.2.index g.1 = if held.count i + w.handlesOn i = 0 then 1 else 0 := by
  obtain ⟨s, hs⟩ := h.exists_session (List.getElem?_eq_some_iff.1 hg).1
  obtain rfl : s.grant = g := Option.some.inj ((h.grant_of_session hs).symm.trans hg)
  exact ⟨s, hs, rfl, h.count hs, by rw [← h.count hs]; exact h.revoked hs⟩

omit [Service σ] in
/-- The session that was made last has been revoked if nobody holds it. -/
theorem revoked_last {g : Grant} (h : Tenure (grants ++ [g]) held l m w)
    (hheld : ∀ i ∈ held, i < grants.length) (hhandles : w.handlesOn grants.length = 0) :
    w.revocations g.2.index g.1 = 1 := by
  obtain ⟨s, -, -, -, hrevoked⟩ := h.revocations_of_session List.getElem?_concat_length
  have hcount : held.count grants.length = 0 :=
    List.count_eq_zero_of_not_mem fun hmem => Nat.lt_irrefl _ (hheld _ hmem)
  rw [hrevoked, hcount, hhandles]
  rfl

/-- A handle takes over a reference of the application, unless it cannot be made. Then the reference
is given up, and the handles are as before. -/
theorem openHandle {i : SessionRef} (h : Tenure grants (i :: held) l m w) (b : Option BridgeRef) :
    let x := (Boundary.openHandle i b).exec w
    (∃ k, x.1 = .ok k ∧ Tenure grants held l (m + 1) x.2) ∨
      ∃ f, x.1 = .error f ∧ Tenure grants held l m x.2 ∧ x.2.handles = w.handles := by
  intro x
  rcases Action.openHandle_cases w i b with hopened | ⟨f, hrefused⟩
  · rw [show x = _ from hopened]
    let y : Handle := ⟨i, (w.session i).id, (w.session i).bufferId, b, true⟩
    have hadded : Tenure grants held l (m + 1) { w with handles := w.handles ++ [y] } :=
      h.addHandle (x := y) rfl
    refine .inl ⟨w.handles.length, rfl, ?_⟩
    cases b with
    | none => exact hadded
    | some b => exact keeps_attachBridge b (by rw [h.sized.handles]; exact Nat.lt_succ_self m) _ hadded
  · rw [show x = _ from hrefused]
    exact .inr ⟨f, rfl, h.dropSession, handles_dropSession w i⟩

/-! ### Looking up -/

omit [Service σ] in
/-- A session that is found by a key is held once more. -/
theorem findSession (h : Tenure grants held l m w) (r : RegistryRef) (id : Bytes)
    (system : Option SystemRef) :
    (Action.findSession r id system).exec w = (.ok none, w) ∨
      ∃ i, ((Action.findSession r id system).exec w).1 = .ok (some i) ∧
        Tenure grants (i :: held) l m ((Action.findSession r id system).exec w).2 := by
  unfold Action.findSession
  rw [Action.exec_get_bind]
  cases hfound : w.waitForKey r ⟨id, .usable, system⟩ with
  | none => exact .inl rfl
  | some i => exact .inr ⟨i, rfl, h.hold (World.isLive_of_waitForKey hfound)⟩

/-- A session is found and gets a handle, or it is as before. -/
theorem keeps_openFound (r : RegistryRef) (id : Bytes) (system : Option SystemRef) :
    (Action.findSession r id system >>= fun found => Boundary.openFound found :
      Action (Watched σ) (Option HandleRef)).Keeps fun w => ∃ m, Tenure grants held l m w := by
  rintro w ⟨m, h⟩
  rcases h.findSession r id system with hnone | ⟨i, hi, hheld⟩
  · rw [Action.exec_bind_of_ok hnone]
    exact ⟨m, h⟩
  · have hexec : (Action.findSession r id system).exec w =
        (.ok (some i), ((Action.findSession r id system).exec w).2) := Prod.ext hi rfl
    rw [Action.exec_bind_of_ok hexec]
    show ∃ m, Tenure grants held l m ((some <$> Boundary.openHandle i none).exec _).2
    rw [Action.exec_map]
    rcases hheld.openHandle none with ⟨k, -, hopened⟩ | ⟨f, -, hrefused, -⟩
    · exact ⟨m + 1, hopened⟩
    · exact ⟨m, hrefused⟩

omit [Service σ] in
theorem keeps_installed :
    (Boundary.installed : Action (Watched σ) RegistryRef).Keeps fun w =>
      ∃ m, Tenure grants held l m w := by
  refine .get_bind fun w hw => ?_
  cases w.installed with
  | none => exact hw
  | some r => exact hw

theorem getSession (h : Tenure grants held l m w) (keyId : Boundary.Pointer) (length : UInt8) :
    ∃ m, Tenure grants held l m ((Boundary.getSession keyId length).run w).2 := by
  rw [Boundary.getSession, Boundary.Call.world_valueOr]
  exact Action.Keeps.bind (.ofResult _) (fun keyId => .bind keeps_installed fun r =>
    keeps_openFound r keyId none) w ⟨m, h⟩

theorem getSystemSession (h : Tenure grants held l m w) (s : Option SystemRef)
    (keyId : Boundary.Pointer) (length : UInt8) :
    ∃ m, Tenure grants held l m ((Boundary.getSystemSession s keyId length).run w).2 := by
  rw [Boundary.getSystemSession, Boundary.Call.world_valueOr]
  cases s with
  | none => exact ⟨m, h⟩
  | some i =>
    exact Action.Keeps.bind (.pure i) (fun i => .bind (.ofResult _) fun keyId =>
      .get_bind fun w hw => keeps_openFound (w.system i).registry keyId (some i) w hw) w ⟨m, h⟩

/-! ### Constructing across the boundary -/

/-- What comes of a construction across the boundary, next to what the service has handed out in it.
A session without a handle is nobody's. -/
theorem constructSession (h : Tenure grants held l m w) (s : Option SystemRef)
    {o : Boundary.SessionOrder} (hfresh : ∀ b ∈ o.callbacks, b.target = .pending []) :
    let made := (Boundary.constructSession s o).run w
    let given := ((Action.handOutTo s o).exec w).1
    (∃ l' m', l ≤ l' ∧ Tenure grants held l' m' made.2 ∧
        ∀ g, given = .ok g → l' = l + 1 ∧ g.1 = l ∧ isNamed g = false) ∨
      ∃ x m', given = .ok (l, x) ∧ isNamed (l, x) = true ∧
        Tenure (grants ++ [(l, x)]) held (l + 1) m' made.2 ∧
        (made.1.2 = none → made.2.handlesOn grants.length = 0) := by
  intro made given
  let bridged : World (Watched σ) := { w with bridges := w.bridges ++ o.callbacks.toList }
  have hbridged : Tenure grants held l m bridged := by
    have hsized : Sized grants.length m bridged := by
      cases hcallbacks : o.callbacks with
      | none => exact h.sized.congr rfl rfl (by simp [bridged, hcallbacks])
      | some b =>
        have hadded := h.sized.addBridge (hfresh b hcallbacks)
        simpa [bridged, hcallbacks] using hadded
    exact h.congr_sized hsized rfl rfl rfl fun _ _ => rfl
  rcases Action.constructSession_cases s o w with
    ⟨status, f, hmade, hgiven⟩ | ⟨i, initDataType, initData, cdmData, hmade, hgiven⟩
  · refine .inl ⟨l, m, Nat.le_refl l, ?_, fun g hg => ?_⟩
    · rw [show made = _ from hmade]
      exact h
    · rw [show given = _ from congrArg Prod.fst hgiven] at hg
      cases hg
  · rw [Boundary.Call.run_statusAnd] at hmade
    generalize o.callbacks.map _ = b at hmade hgiven
    have hcreated := hbridged.createSession i o.licenseType initDataType initData cdmData
      (Action.listenerOf b)
    cases hexec : (Action.createSession i o.licenseType initDataType initData cdmData
      (Action.listenerOf b)).exec bridged with
    | mk result created =>
    rw [hexec, ← hgiven] at hcreated
    rcases hcreated with ⟨f, l', hf, hl, hfailed, hrest⟩ | ⟨x, hx, hgiven, hnamed, hadopted, hnone⟩
    · obtain rfl : result = .error f := hf
      rw [Action.exec_bind_of_error hexec] at hmade
      rw [show made = _ from hmade]
      exact .inl ⟨l', m, hl, hfailed, hrest⟩
    · obtain rfl : result = .ok grants.length := hx
      rw [Action.exec_bind_of_ok hexec, Action.exec_map] at hmade
      rw [show made = _ from hmade]
      refine .inr ⟨x, ?_⟩
      rcases hadopted.openHandle b with ⟨k, hk, hopened⟩ | ⟨f, hf, hrefused, hhandles⟩
      · refine ⟨m + 1, hgiven, hnamed, hopened, fun hfailed => ?_⟩
        rw [hk] at hfailed
        cases hfailed
      · refine ⟨m, hgiven, hnamed, hrefused, fun _ => ?_⟩
        show World.handlesOn (Action.exec (Boundary.openHandle grants.length b) created).2 _ = 0
        rw [World.handlesOn, hhandles]
        exact hnone

end Tenure

end Client

end ContentDecryption
