import ContentDecryption.Proofs.Client.Changes
import ContentDecryption.Proofs.Client.Owners
import ContentDecryption.Scripted.Engine

/-!
# Looking up keys and sessions

An application makes its calls one after the other. It asks for sessions, and the service
gives them any IDs; it takes handles and gives them up, perhaps from a callback; and the
service reports keys. Between the calls nothing is left to be taken out of the tables.

A session owns its ID unless a living owner had the same ID when the session was made.
A session that does not own its ID lives like any other, but is not registered, not even
when the owner is gone. So a look for a key finds the owners that hold it, and no others.

Main definitions:

* `Deed`, `Estate`, `Estate.run`: the calls, what they lead to, and who owns an ID.

Main results:

* `Owned.change`, `Owned.steps`: giving up and taking notices in keeps the tables right;
* `Estate.kept_step`, `Estate.kept_run`: and so does every call;
* `Estate.lookup`: a key is found exactly if a living owner holds it, and an ID is registered
  exactly if a living owner has it.
-/

namespace ContentDecryption

namespace Client

open Service

/-! ## Changes -/

namespace Owned

variable {σ : Type} {w w' : World σ} {owners : List SessionRef}

/-- One handle of a session is given up. Nothing is late afterwards. -/
theorem dropped (h : Owned owners [] w) (i : SessionRef) : Owned owners [] (w.dropped i) := by
  have hleft := h.leaveSession i
  simp only [World.dropped]
  split_ifs with hlive
  · exact hleft.of_isLive hlive
  · exact hleft.unregister hlive

variable [Service σ] {told : SinkRef → Prop}

theorem change (h : Owned owners [] w) (hc : Change told w w') : Owned owners [] w' := by
  have hregistry (r : RegistryRef) {f : Registry → Registry}
      (hf : ∀ x, (f x).sessions = x.sessions) : Owned owners [] (w.setRegistry r f) :=
    h.congr (fun r' => getD_modify_congr hf w.registries r r' _) rfl
  cases hc with
  | holdSession i live => exact h.holdSession live
  | dropSession i => exact h.dropped i
  | holdRegistry r | leaveRegistry r | closeRegistry r => exact hregistry r fun _ => rfl
  | signal r =>
    have hsignalled := hregistry r (f := fun x => { x with signal := x.signal.notify }) fun _ => rfl
    exact hsignalled.congr (fun _ => rfl) rfl
  | revoke | closeConnection | release | leaveSystem | learnKey | learnError | closeHandle | detach
  | offer | leave | attach | record => exact h.congr (fun _ => rfl) rfl

theorem steps (h : Owned owners [] w) (hs : Steps told w w') : Owned owners [] w' :=
  hs.keep (fun hc hw => hw.change hc) h

end Owned

/-! ## Calls -/

/-- What an application and the service do. -/
inductive Deed
  | connect (settings : Settings)
  | createSystem (r : RegistryRef) (keySystem : String)
  | createSession (i : SystemRef) (licenseType : Int32) (initDataType : String)
      (initData cdmData : Bytes) (listener : Listener)
  /-- Callbacks for a session that is still to be made. -/
  | addBridge (b : Callback.Bridge)
  | openHandle (i : SessionRef) (b : Option BridgeRef)
  | dropHandle (h : HandleRef)
  | holdSession (i : SessionRef)
  | dropSession (i : SessionRef)
  /-- The service reports something: the status of a key, say. -/
  | receive (l : List Delivery)

/-- The world after a deed, whether it succeeds or fails. What cannot be done changes nothing. -/
def Deed.after {σ : Type} [Service σ] (w : World σ) : Deed → World σ
  | connect settings => ((Action.connect settings).exec w).2
  | createSystem r keySystem => ((Action.createSystem r keySystem).exec w).2
  | createSession i licenseType initDataType initData cdmData listener =>
    ((Action.createSession i licenseType initDataType initData cdmData listener).exec w).2
  | addBridge b => if b.target = .pending [] then { w with bridges := w.bridges ++ [b] } else w
  | openHandle i b => if i < w.sessions.length then ((Boundary.openHandle i b).exec w).2 else w
  | dropHandle h => if h < w.handles.length then ((Action.dropHandle h).exec w).2 else w
  | holdSession i => if w.isLive i then ((Action.holdSession i).exec w).2 else w
  | dropSession i => if i < w.sessions.length then ((Action.dropSession i).exec w).2 else w
  | receive l => ((Action.receiveAll l).exec w).2

/-- Whether a session comes to own its ID: it is there, and no living owner has the ID. -/
def World.comesToOwn {σ : Type} (w : World σ) (owners : List SessionRef) (i : SessionRef) : Bool :=
  decide (i < w.sessions.length) &&
    owners.all fun j => !w.answersTo (w.session i).registry (w.session i).id j

/-- A client whose calls are made one after the other, and the sessions that own their IDs. -/
structure Estate (σ : Type) where
  world : World σ
  owners : List SessionRef := []

namespace Estate

variable {σ : Type} [Service σ]

/-- One deed. If a session is made in it, that may come to own its ID. -/
def step (e : Estate σ) (d : Deed) : Estate σ :=
  let w := d.after e.world
  let i := e.world.sessions.length
  { world := w, owners := if w.comesToOwn e.owners i then e.owners ++ [i] else e.owners }

/-- A list of deeds. -/
def steps (e : Estate σ) (deeds : List Deed) : Estate σ := deeds.foldl step e

/-- A list of deeds of a client that has not connected to the service yet. -/
def run (service : σ) (memory : SharedMemory) (libraries : Libraries) (deeds : List Deed) :
    Estate σ :=
  steps { world := { service, memory, libraries } } deeds

/-! ## What every deed keeps -/

/-- The tables list the owners, and there are `n` sessions. -/
def Settled (owners : List SessionRef) (n : Nat) (w : World σ) : Prop :=
  Owned owners [] w ∧ ∃ m, Sized n m w

namespace Settled

variable {owners : List SessionRef} {n : Nat} {w w' : World σ}

theorem steps {told : SinkRef → Prop} (h : Settled owners n w) (hs : Steps told w w') :
    Settled owners n w' := by
  obtain ⟨howned, m, hsized⟩ := h
  exact ⟨howned.steps hs, m, hsized.steps hs⟩

/-- An action that consists of changes. -/
theorem runs {α : Type} {a : Action σ α} (h : Settled owners n w)
    (ha : ∀ {m : Nat}, Sized n m w → Runs (fun _ => True) n m a) :
    Settled owners n (a.exec w).2 := by
  obtain ⟨howned, m, hsized⟩ := h
  exact steps ⟨howned, m, hsized⟩ (ha hsized w hsized)

omit [Service σ] in
theorem congr (h : Settled owners n w)
    (htables : ∀ r, (w'.registry r).sessions = (w.registry r).sessions)
    (hsessions : w'.sessions = w.sessions) (hhandles : w'.handles = w.handles)
    (hbridges : w'.bridges = w.bridges) : Settled owners n w' := by
  obtain ⟨howned, m, hsized⟩ := h
  exact ⟨howned.congr htables hsessions, m,
    hsized.congr (congrArg List.length hsessions) hhandles hbridges⟩

theorem keeps_ask (r : Request) :
    (Action.ask r : Action σ r.Answer).Keeps (Settled owners n) := by
  intro w hw
  rw [Action.world_ask]
  exact hw.congr (fun _ => rfl) rfl rfl rfl

omit [Service σ] in
/-- A new connection has an empty table. -/
theorem addRegistry (h : Settled owners n w) {x : Registry} (hx : x.sessions = [])
    (subscriber : Option RegistryRef) :
    Settled owners n { w with registries := w.registries ++ [x], subscriber } := by
  refine h.congr (fun r => ?_) rfl rfl rfl
  simp only [World.registry]
  by_cases hr : r < w.registries.length
  · rw [List.getD_append _ _ _ _ hr]
  · rw [List.getD_eq_default _ _ (Nat.le_of_not_lt hr)]
    rcases getD_concat_cases w.registries x r
      { handles := 0, isOpen := false, settings := .ofEnvironment none } with ⟨hlt, -⟩ | he | he
    · exact absurd hlt hr
    · rw [he, hx]
    · rw [he]

theorem openHandle (h : Settled owners n w) {i : SessionRef} (hi : i < n) (b : Option BridgeRef) :
    Settled owners n ((Boundary.openHandle i b).exec w).2 := by
  obtain ⟨howned, m, hsized⟩ := h
  obtain ⟨m', handles, hsized', hs⟩ := steps_openHandle (fun _ => True) hsized hi b
  have howned' : Owned owners [] { w with handles } := howned.congr (fun _ => rfl) rfl
  exact steps ⟨howned', m', hsized'⟩ hs

/-- A deed that makes no session. -/
theorem after (h : Settled owners n w) {d : Deed}
    (hd : ∀ i licenseType initDataType initData cdmData listener,
      d ≠ .createSession i licenseType initDataType initData cdmData listener) :
    Settled owners n (d.after w) := by
  obtain ⟨m, hsized⟩ := h.2
  cases d with
  | connect settings =>
    exact Action.Keeps.connect (fun r _ _ _ => keeps_ask r) (fun _ hx hw => hw.addRegistry hx _)
      settings w h
  | createSystem r keySystem =>
    exact Action.Keeps.createSystem (fun r _ _ _ => keeps_ask r)
      (fun _ _ hw => hw.congr (fun _ => rfl) rfl rfl rfl) keySystem w h
  | createSession => exact absurd rfl (hd _ _ _ _ _ _)
  | addBridge b =>
    simp only [Deed.after]
    split_ifs with hb
    · exact ⟨h.1.congr (fun _ => rfl) rfl, m, hsized.addBridge hb⟩
    · exact h
  | openHandle i b =>
    simp only [Deed.after]
    split_ifs with hi
    · exact h.openHandle (hsized.sessions ▸ hi) b
    · exact h
  | dropHandle h' =>
    simp only [Deed.after]
    split_ifs with hh
    · exact h.runs fun hsized => runs_dropHandle (hsized.handles ▸ hh)
    · exact h
  | holdSession i =>
    simp only [Deed.after]
    split_ifs with hlive
    · have hhold : Change (fun _ => True) w _ := .holdSession i hlive
      exact h.steps (.single hhold)
    · exact h
  | dropSession i =>
    simp only [Deed.after]
    split_ifs with hi
    · exact h.runs fun hsized => runs_dropSession (hsized.sessions ▸ hi)
    · exact h
  | receive l => exact h.runs fun _ => runs_receiveAll fun _ => trivial

end Settled

/-- Between the deeds the tables list the owners. -/
def Kept (e : Estate σ) : Prop := ∃ n, Settled e.owners n e.world

omit [Service σ] in
theorem Kept.settled {e : Estate σ} (h : e.Kept) :
    Settled e.owners e.world.sessions.length e.world := by
  obtain ⟨n, howned, m, hsized⟩ := h
  exact ⟨howned, m, hsized.sessions ▸ hsized⟩

/-- In a deed that makes no session nobody comes to own an ID. -/
theorem kept_of_settled {e : Estate σ} {d : Deed}
    (h : Settled e.owners e.world.sessions.length (d.after e.world)) : (e.step d).Kept := by
  obtain ⟨howned, m, hsized⟩ := h
  have hnone : (d.after e.world).comesToOwn e.owners e.world.sessions.length = false := by
    rw [World.comesToOwn, hsized.sessions, decide_eq_false (Nat.lt_irrefl _), Bool.false_and]
  have hstep : e.step d = ⟨d.after e.world, e.owners⟩ := by
    simp only [step, hnone, Bool.false_eq_true, if_false]
  rw [hstep]
  exact ⟨_, howned, m, hsized⟩

omit [Service σ] in
/-- Who lives and has an ID does not change with a new session. -/
theorem answersTo_adoptSession {w : World σ} (i : SystemRef) (k : SinkRef) (x : RemoteSession)
    {j : SessionRef} (hj : j < w.sessions.length) (r : RegistryRef) (id : String) :
    ((Action.adoptSession i k x).exec w).2.answersTo r id j = w.answersTo r id j := by
  have hget : ((Action.adoptSession i k x).exec w).2.sessions[j]? = w.sessions[j]? :=
    List.getElem?_append_left hj
  simp only [World.answersTo, World.livesAt, World.isLive, World.session,
    List.getD_eq_getElem?_getD, hget]

omit [Service σ] in
/-- The client takes a session up. It comes to own its ID just if it is accepted under it. -/
theorem comesToOwn_adoptSession {owners : List SessionRef} {w : World σ} (h : Owned owners [] w)
    (i : SystemRef) (k : SinkRef) (x : RemoteSession)
    (hr : (w.system i).registry < w.registries.length) :
    ((Action.adoptSession i k x).exec w).2.comesToOwn owners w.sessions.length =
      w.accepts (w.system i).registry x.id := by
  let made := ((Action.adoptSession i k x).exec w).2
  have hget : ∃ s, made.sessions[w.sessions.length]? = some s ∧
      s.registry = (w.system i).registry ∧ s.id = x.id :=
    ⟨_, List.getElem?_concat_length, rfl, rfl⟩
  obtain ⟨s, hs, hregistry, hid⟩ := hget
  have hlt : w.sessions.length < made.sessions.length := (List.getElem?_eq_some_iff.1 hs).1
  rw [World.comesToOwn, decide_eq_true hlt, Bool.true_and, World.session_of_getElem? hs, hregistry,
    hid, Bool.eq_iff_iff, h.accepts_iff hr, List.all_eq_true]
  refine forall₂_congr fun j hj => ?_
  rw [answersTo_adoptSession i k x (h.known hj), Bool.not_eq_true', Bool.not_eq_true]

/-- Once the service has answered, the notices are taken in, and the session is taken up if there is
one. -/
theorem kept_takeUp {e : Estate σ} {d : Deed} {w : World σ}
    (h : Settled e.owners e.world.sessions.length w) {i : SystemRef} {k : SinkRef}
    (hr : (w.system i).registry < w.registries.length)
    {reported : Reported (Reply RemoteSession)} {x : Except Failure SessionRef × World σ}
    (hx : TakenUp i k reported w x) (hd : d.after e.world = x.2) : (e.step d).Kept := by
  let received := ((Action.receiveAll reported.notices).exec w).2
  obtain ⟨m, hsized⟩ := h.2
  have hsteps : Steps (fun _ => True) w received := runs_receiveAll (fun _ => trivial) w hsized
  obtain ⟨howned, m', hsized'⟩ : Settled e.owners e.world.sessions.length received := h.steps hsteps
  cases hx with
  | refused error => exact kept_of_settled (hd ▸ ⟨howned, m', hsized'⟩)
  | nameless value error =>
    exact kept_of_settled (hd ▸ ⟨howned.congr (fun _ => rfl) rfl, m', hsized'.congr rfl rfl rfl⟩)
  | @adopted x value =>
    have hconnected : received.registries.length = w.registries.length ∧
        (received.system i).registry = (w.system i).registry :=
      hsteps.keep (P := fun w' => w'.registries.length = w.registries.length ∧
        (w'.system i).registry = (w.system i).registry)
        (fun hc hw => ⟨(hc.connections i).1.trans hw.1, (hc.connections i).2.trans hw.2⟩) ⟨rfl, rfl⟩
    have hregistry : (received.system i).registry < received.registries.length := by
      rw [hconnected.1, hconnected.2]
      exact hr
    have howns := comesToOwn_adoptSession howned i k x hregistry
    have hadopted := howned.adopt i k x
    rw [hsized'.sessions] at howns hadopted
    rw [← howns] at hadopted
    rw [step, hd]
    exact ⟨_, hadopted, m', hsized'.adoptSession i k x⟩

/-- A deed that may make a session. -/
theorem kept_createSession {e : Estate σ} (h : e.Kept) (i : SystemRef) (licenseType : Int32)
    (initDataType : String) (initData cdmData : Bytes) (listener : Listener) :
    (e.step (.createSession i licenseType initDataType initData cdmData listener)).Kept := by
  have hasked (sinks : List Sink) (r : Request) :
      Settled e.owners e.world.sessions.length (World.answered { e.world with sinks } r) :=
    h.settled.congr (fun _ => rfl) rfl rfl rfl
  rcases Action.createSession_cases e.world i licenseType initDataType initData cdmData listener
    with ⟨-, error, he⟩ | ⟨⟨a, ha⟩, ⟨error, he⟩ | ⟨reported, -, htaken⟩⟩
  · refine kept_of_settled ?_
    rw [Deed.after, he]
    exact h.settled
  · refine kept_of_settled ?_
    rw [Deed.after, he]
    exact hasked _ _
  · exact kept_takeUp (hasked _ _) (lt_of_accessor ha) htaken rfl

theorem kept_step {e : Estate σ} (h : e.Kept) (d : Deed) : (e.step d).Kept := by
  cases d with
  | createSession i licenseType initDataType initData cdmData listener =>
    exact kept_createSession h i licenseType initDataType initData cdmData listener
  | _ => exact kept_of_settled (h.settled.after fun _ _ _ _ _ _ => nofun)

theorem kept_steps {e : Estate σ} (h : e.Kept) (deeds : List Deed) : (e.steps deeds).Kept := by
  induction deeds generalizing e with
  | nil => exact h
  | cons d deeds ih => exact ih (kept_step h d)

omit [Service σ] in
/-- There is nothing to be listed at the start. -/
theorem settled_start (service : σ) (memory : SharedMemory) (libraries : Libraries) :
    Settled [] 0 ({ service, memory, libraries } : World σ) := by
  have hempty (r : RegistryRef) {entry : String × SessionRef}
      (h : entry ∈ (World.registry { service, memory, libraries } r).sessions) : False := by
    cases r <;> cases h
  refine ⟨⟨List.nodup_nil, fun h => (nomatch h), fun r => ?_, fun h => (hempty _ h).elim,
    fun h => (hempty _ h).elim, fun h => (hempty _ h).elim, fun h => (nomatch h)⟩, 0, rfl, rfl,
    fun hh => (nomatch hh), fun hb => (nomatch hb)⟩
  cases r <;> exact List.nodup_nil

theorem kept_run (service : σ) (memory : SharedMemory) (libraries : Libraries)
    (deeds : List Deed) : (run service memory libraries deeds).Kept :=
  kept_steps ⟨0, settled_start service memory libraries⟩ deeds

/-! ## Lookups -/

end Estate

namespace World

variable {σ : Type} {w : World σ} {owners late : List SessionRef} {r : RegistryRef} {q : KeyQuery}
  {i : SessionRef}

/-- Those who answer a query are owners, and all living owners that answer it are among them. -/
theorem mem_answering_iff (h : Owned owners late w) :
    i ∈ w.answering r q ↔ i ∈ owners ∧ w.livesAt r i = true ∧ w.answers q i = true := by
  have hliving : i ∈ w.livingSessions r ↔ i ∈ owners ∧ w.livesAt r i = true :=
    (h.livingSessions_perm r).mem_iff.trans List.mem_filter
  rw [← and_assoc, ← hliving]
  exact List.mem_filter

theorem waitForKey_mem (h : Owned owners late w) (hi : w.waitForKey r q = some i) :
    i ∈ owners ∧ w.livesAt r i = true ∧ w.answers q i = true := by
  rw [waitForKey_eq_look] at hi
  exact (mem_answering_iff h).1 (List.mem_of_mem_head? hi)

/-- Somebody is found if some living owner answers. -/
theorem isSome_waitForKey_iff (h : Owned owners late w) : (w.waitForKey r q).isSome = true ↔
    ∃ i ∈ owners, w.livesAt r i = true ∧ w.answers q i = true := by
  constructor
  · intro hsome
    obtain ⟨i, hi⟩ := Option.isSome_iff_exists.1 hsome
    exact ⟨i, waitForKey_mem h hi⟩
  · rintro ⟨i, hi⟩
    rw [waitForKey_eq_look, look, List.isSome_head?]
    exact List.ne_nil_of_mem ((mem_answering_iff h).2 hi)

/-- An ID is registered if a living owner has it. -/
theorem mem_ids_iff {id : String} (h : Owned owners [] w) :
    id ∈ (w.registry r).sessions.map Prod.fst ↔ ∃ i ∈ owners, w.answersTo r id i = true := by
  constructor
  · intro hid
    obtain ⟨⟨id, i⟩, hmem, rfl⟩ := List.mem_map.1 hid
    have hlive := (h.late hmem).resolve_right List.not_mem_nil
    exact ⟨i, h.owner hmem, answersTo_iff.2 ⟨hlive, h.entry hmem⟩⟩
  · rintro ⟨i, hi, hid⟩
    obtain ⟨hlookup, -⟩ := sessionById?_eq_some_iff.1 (h.sessionById?_eq_some_iff.2 ⟨hi, hid⟩)
    exact List.mem_map_of_mem (SessionTable.mem_of_lookup hlookup)

end World

namespace Estate

variable {σ : Type} [Service σ]

/-- After any deeds: a look for a key finds a session exactly if a living owner answers, and then
it finds one that does; and an ID is registered exactly if a living owner has it. -/
theorem lookup (service : σ) (memory : SharedMemory) (libraries : Libraries)
    (deeds : List Deed) :
    let e := run service memory libraries deeds
    let w := e.world
    (∀ r q, (w.waitForKey r q).isSome = true ↔
      ∃ i ∈ e.owners, w.livesAt r i = true ∧ w.answers q i = true) ∧
    (∀ r q i, w.waitForKey r q = some i →
      i ∈ e.owners ∧ w.livesAt r i = true ∧ w.answers q i = true) ∧
    ∀ r id, id ∈ (w.registry r).sessions.map Prod.fst ↔
      ∃ i ∈ e.owners, w.answersTo r id i = true := by
  intro e w
  obtain ⟨howned, -⟩ := (kept_run service memory libraries deeds).settled
  exact ⟨fun r q => World.isSome_waitForKey_iff howned, fun r q i => World.waitForKey_mem howned,
    fun r id => World.mem_ids_iff howned⟩

/-- A service that gives every session the same ID. -/
def monotonous : Scripted.Engine where
  script := { sessionId := fun _ => "x", bufferId := fun _ => "b" }

/-- Two sessions are made. The second one does not own its ID, and it is the one that gets a key. -/
def twins : List Deed :=
  [.connect { connector := "" }, .createSystem 0 "k", .createSession 0 0 "cenc" [] [] .nobody,
    .createSession 0 0 "cenc" [] [] .nobody, .receive [(1, .keyStatus [1] .usable)]]

/-- A session that does not own its ID is not found by its key, although it lives and holds it. Nor
is its ID registered once the owner is gone. -/
theorem twin_not_found :
    let w := (run monotonous {} [] twins).world
    let w' := (run monotonous {} [] (twins ++ [.dropSession 0])).world
    w.livesAt 0 1 = true ∧ w.answers ⟨[1], .usable, none⟩ 1 = true ∧
      w.waitForKey 0 ⟨[1], .usable, none⟩ = none ∧
      w'.answersTo 0 "x" 1 = true ∧ "x" ∉ (w'.registry 0).sessions.map Prod.fst := by
  decide

end Estate

end Client

end ContentDecryption
