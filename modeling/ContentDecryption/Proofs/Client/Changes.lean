import ContentDecryption.Proofs.Client.Reception
import Mathlib.Logic.Relation

/-!
# What a client does with its world

Giving things up and taking notices in goes through callbacks, which may give other
things up in turn. Whatever comes of it, it is made of few kinds of changes, and
`Change` lists them. What all of these keep is kept by all of these actions, so
nothing has to be proved through the actions themselves.

The changes refer to sessions and handles that there are: `Sized` says that a world
refers to no others. Key statuses come to some sinks only, and it is known to which.

Main definitions:

* `World.dropped`: a session is held once less, and a session that nobody holds is not registered;
* `Change`: one thing that a client does with its world;
* `Steps`: any number of them;
* `Runs`: an action that consists of such changes.

Main results:

* `Sized.steps`: references stay good;
* `runs_dropSession`, `runs_dropHandle`, `runs_dropRegistry`, `runs_receiveAll`,
  `runs_attachBridge`, `steps_openHandle`: the actions that consist of such changes.
-/

namespace ContentDecryption

namespace Client

open Service

/-- One handle of a session is given up. A session that loses its last one is taken out of the
table. -/
def World.dropped {σ : Type} (w : World σ) (i : SessionRef) : World σ :=
  let left := w.setSession i fun s => { s with handles := s.handles - 1 }
  if left.isLive i then left
  else
    let s := left.session i
    left.setRegistry s.registry fun r => { r with sessions := r.sessions.unregister s.id i }

section Changes

variable {σ : Type} [Service σ]

/-- One thing that a client does with its world, short of taking up anything new. A sink takes a key
status in only if it is told of keys. -/
inductive Change (told : SinkRef → Prop) (w : World σ) : World σ → Prop
  /-- The service is told not to report about a session that nobody here holds. -/
  | revoke (i : SessionRef) (known : i < w.sessions.length) (dead : w.isLive i = false) :
      Change told w (w.answered (.session (w.session i).remote (.revoke (w.session i).sink)))
  | closeConnection (timeoutMs : Nat) : Change told w (w.answered (.closeConnection timeoutMs))
  /-- A session that nobody here holds is let go. -/
  | release (i : SessionRef) (known : i < w.sessions.length) (dead : w.isLive i = false) :
      Change told w (w.released (w.session i).remote)
  | holdSession (i : SessionRef) (live : w.isLive i = true) :
      Change told w (w.setSession i fun s => { s with handles := s.handles + 1 })
  | dropSession (i : SessionRef) : Change told w (w.dropped i)
  | leaveSystem (i : SystemRef) :
      Change told w (w.setSystem i fun s => { s with handles := s.handles - 1 })
  | holdRegistry (r : RegistryRef) :
      Change told w (w.setRegistry r fun x => { x with handles := x.handles + 1 })
  | leaveRegistry (r : RegistryRef) :
      Change told w (w.setRegistry r fun x => { x with handles := x.handles - 1 })
  | closeRegistry (r : RegistryRef) (isOpen : (w.registry r).isOpen = true)
      (unused : w.isReferenced r = false) :
      Change told w (w.setRegistry r fun x => { x with isOpen := false, accessor := none })
  | signal (r : RegistryRef) : Change told w (w.notifyKeys r)
  | learnKey (k : SinkRef) (known : told k) (id : Bytes) (status : KeyStatus) :
      Change told w (w.setSink k fun s => { s with keys := s.keys.report id status })
  | learnError (k : SinkRef) (e : SessionError) :
      Change told w (w.setSink k fun s => { s with lastError := some e })
  | closeHandle (h : HandleRef) : Change told w (w.setHandle h fun x => { x with live := false })
  | detach (b : BridgeRef) : Change told w (w.setBridge b Callback.Bridge.detach)
  | offer (b : BridgeRef) (thread : ThreadRef) (e : SessionEvent) :
      Change told w (w.setBridge b fun _ => ((w.bridge b).offer thread e).2)
  | leave (b : BridgeRef) (thread : ThreadRef) :
      Change told w (w.setBridge b fun x => x.leave thread)
  | attach (b : BridgeRef) (h : HandleRef) (known : h < w.handles.length) :
      Change told w (w.setBridge b fun _ => ((w.bridge b).attach h).2)
  | record (e : Entry) : Change told w { w with journal := e :: w.journal }

/-- Any number of changes. -/
abbrev Steps (told : SinkRef → Prop) : World σ → World σ → Prop :=
  Relation.ReflTransGen (Change told)

variable {told : SinkRef → Prop}

/-- What every change keeps is kept by any number of them. -/
theorem Steps.keep {P : World σ → Prop} (h : ∀ {w w' : World σ}, Change told w w' → P w → P w')
    {w w' : World σ} (hs : Steps told w w') (hw : P w) : P w' := by
  induction hs with
  | refl => exact hw
  | tail _ hc ih => exact h hc ih

theorem Steps.ite {α : Type} {w : World σ} {c : Prop} {_ : Decidable c} {a b : Action σ α}
    (ha : c → Steps told w (a.exec w).2) (hb : ¬ c → Steps told w (b.exec w).2) :
    Steps told w ((if c then a else b).exec w).2 := by
  by_cases h : c
  · rw [if_pos h]
    exact ha h
  · rw [if_neg h]
    exact hb h

/-- No change makes a connection, or moves a system to another one. -/
theorem Change.connections {w w' : World σ} (h : Change told w w') (i : SystemRef) :
    w'.registries.length = w.registries.length ∧
      (w'.system i).registry = (w.system i).registry := by
  cases h with
  | dropSession j =>
    simp only [World.dropped]
    split
    · exact ⟨rfl, rfl⟩
    · exact ⟨List.length_modify .., rfl⟩
  | leaveSystem j =>
    exact ⟨rfl, getD_modify_congr (f := fun s : System => { s with handles := s.handles - 1 })
      (g := System.registry) (fun _ => rfl) w.systems j i {}⟩
  | holdRegistry | leaveRegistry | closeRegistry | signal => exact ⟨List.length_modify .., rfl⟩
  | revoke | closeConnection | release | holdSession | learnKey | learnError | closeHandle | detach
  | offer | leave | attach | record => exact ⟨rfl, rfl⟩

/-! ## References -/

/-- A world of `n` sessions and `m` handles that refers to no others. -/
structure Sized (n m : Nat) (w : World σ) : Prop where
  sessions : w.sessions.length = n
  handles : w.handles.length = m
  session : ∀ {h : HandleRef}, h < m → (w.handle h).session < n
  attached : ∀ {b : BridgeRef} {h : HandleRef}, (w.bridge b).target = .attached h → h < m

variable {n m : Nat} {w w' : World σ}

omit [Service σ] in
/-- Only the sessions, the handles and the bridges refer to anything, or are referred to. -/
theorem Sized.congr (hw : Sized n m w) (hsessions : w'.sessions.length = w.sessions.length)
    (hhandles : w'.handles = w.handles) (hbridges : w'.bridges = w.bridges) : Sized n m w' where
  sessions := hsessions.trans hw.sessions
  handles := (congrArg List.length hhandles).trans hw.handles
  session := by
    intro h hh
    rw [World.handle, hhandles]
    exact hw.session hh
  attached := by
    intro b h hb
    rw [World.bridge, hbridges] at hb
    exact hw.attached hb

omit [Service σ] in
/-- A bridge that is changed in place may get a target that refers to a handle. -/
theorem Sized.setBridge (hw : Sized n m w) (b : BridgeRef) (f : Callback.Bridge → Callback.Bridge)
    (hf : ∀ {h : HandleRef}, (f (w.bridge b)).target = .attached h → h < m) :
    Sized n m (w.setBridge b f) where
  sessions := hw.sessions
  handles := hw.handles
  session := hw.session
  attached := by
    intro b' h hb
    obtain he | ⟨rfl, -, he⟩ :=
      getD_modify_cases w.bridges b b' f { name := "", callbacks := [] }
    · rw [World.bridge, World.setBridge, he] at hb
      exact hw.attached hb
    · rw [World.bridge, World.setBridge, he] at hb
      exact hf hb

theorem Sized.change (hw : Sized n m w) (h : Change told w w') : Sized n m w' := by
  cases h with
  | revoke | closeConnection | release | leaveSystem | holdRegistry | leaveRegistry | closeRegistry
  | signal | learnKey | learnError | record => exact hw.congr rfl rfl rfl
  | holdSession => exact hw.congr (List.length_modify ..) rfl rfl
  | dropSession i =>
    simp only [World.dropped]
    split
    · exact hw.congr (List.length_modify ..) rfl rfl
    · exact hw.congr (List.length_modify ..) rfl rfl
  | closeHandle h =>
    refine ⟨hw.sessions, (List.length_modify ..).trans hw.handles, fun hk => ?_, hw.attached⟩
    have hsession := getD_modify_congr (f := fun x : Handle => { x with live := false })
      (g := Handle.session) (fun _ => rfl)
    rw [World.handle, World.setHandle, hsession]
    exact hw.session hk
  | detach b =>
    refine hw.setBridge b _ fun hb => ?_
    cases hb
  | offer b thread e =>
    refine hw.setBridge b _ fun hb => ?_
    unfold Callback.Bridge.offer at hb
    split at hb
    · cases hb
    · exact hw.attached hb
    · exact hw.attached hb
  | leave b thread => exact hw.setBridge b _ hw.attached
  | attach b h known =>
    refine hw.setBridge b _ fun hb => ?_
    cases hb
    rwa [hw.handles] at known

theorem Sized.steps (h : Steps told w w') (hw : Sized n m w) : Sized n m w' :=
  h.keep (fun hc h => h.change hc) hw

omit [Service σ] in
/-- A new handle is one of a session that there is. -/
theorem Sized.addHandle (hw : Sized n m w) {x : Handle} (hx : x.session < n) :
    Sized n (m + 1) { w with handles := w.handles ++ [x] } where
  sessions := hw.sessions
  handles := by
    rw [List.length_append, hw.handles]
    rfl
  session := by
    intro h hh
    simp only [World.handle]
    rcases getD_concat_cases w.handles x h {} with ⟨hlt, he⟩ | he | he
    · rw [he]
      rw [hw.handles] at hlt
      exact hw.session hlt
    · rwa [he]
    · rw [he]
      exact Nat.zero_lt_of_lt hx
  attached := fun hb => Nat.lt_succ_of_lt (hw.attached hb)

omit [Service σ] in
/-- A new bridge has no handle yet. -/
theorem Sized.addBridge (hw : Sized n m w) {b : Callback.Bridge} (hb : b.target = .pending []) :
    Sized n m { w with bridges := w.bridges ++ [b] } where
  sessions := hw.sessions
  handles := hw.handles
  session := hw.session
  attached := by
    intro k h hk
    simp only [World.bridge] at hk
    obtain ⟨-, he⟩ | he | he :=
      getD_concat_cases w.bridges b k { name := "", callbacks := [] }
    · rw [he] at hk
      exact hw.attached hk
    · rw [he, hb] at hk
      cases hk
    · rw [he] at hk
      cases hk

omit [Service σ] in
/-- A session is taken up. -/
theorem Sized.adoptSession (hw : Sized n m w) (i : SystemRef) (k : SinkRef) (x : RemoteSession) :
    Sized (n + 1) m ((Action.adoptSession i k x).exec w).2 where
  sessions := by
    show (w.sessions ++ [_]).length = n + 1
    rw [List.length_append, hw.sessions]
    rfl
  handles := hw.handles
  session := fun hh => Nat.lt_succ_of_lt (hw.session hh)
  attached := hw.attached

/-! ## Actions that consist of changes -/

/-- From a world whose references are good, the action is made of changes, however it ends. -/
def Runs {α : Type} (told : SinkRef → Prop) (n m : Nat) (a : Action σ α) : Prop :=
  ∀ w : World σ, Sized n m w → Steps told w (a.exec w).2

/-- Being made of changes is something that the parts of an action keep. -/
theorem runs_iff {α : Type} {a : Action σ α} :
    Runs told n m a ↔ ∀ w₀, a.Keeps fun w => Sized n m w ∧ Steps told w₀ w := by
  constructor
  · intro h w₀ w hw
    have hs := h w hw.1
    exact ⟨hw.1.steps hs, hw.2.trans hs⟩
  · intro h w hw
    exact (h w w ⟨hw, .refl⟩).2

namespace Runs

variable {α β : Type} {a : Action σ α} {f : α → Action σ β}

theorem bind (ha : Runs told n m a) (hf : ∀ x, Runs told n m (f x)) : Runs told n m (a >>= f) :=
  runs_iff.2 fun w₀ => .bind (runs_iff.1 ha w₀) fun x => runs_iff.1 (hf x) w₀

/-- An action that looks at the world first. -/
theorem get_bind {f : World σ → Action σ β}
    (hf : ∀ w : World σ, Sized n m w → Steps told w ((f w).exec w).2) :
    Runs told n m (get >>= f) := hf

theorem modify {f : World σ → World σ}
    (hf : ∀ w : World σ, Change told w (f w)) : Runs told n m (modify f) :=
  fun w _ => .single (hf w)

theorem forM {l : List α} {f : α → Action σ Unit} (h : ∀ x ∈ l, Runs told n m (f x)) :
    Runs told n m (l.forM f) :=
  runs_iff.2 fun w₀ => .forM fun x hx => runs_iff.1 (h x hx) w₀

end Runs

/-! ### Giving things up -/

theorem runs_closeIfUnused (r : RegistryRef) :
    Runs told n m (Action.closeIfUnused r : Action σ Unit) := by
  refine .get_bind fun w hw => ?_
  refine Steps.ite (fun h => ?_) fun _ => .refl
  rw [Bool.and_eq_true, Bool.not_eq_true'] at h
  have hclose : Change told w
      (w.setRegistry r fun x => { x with isOpen := false, accessor := none }) :=
    .closeRegistry r h.1 h.2
  have hask := Action.world_ask (.closeConnection (w.registry r).settings.rpcTimeoutMs)
    (w.setRegistry r fun x => { x with isOpen := false, accessor := none })
  exact .tail (.single hclose) (hask ▸ .closeConnection _)

theorem runs_closeUnused : Runs told n m (Action.closeUnused : Action σ Unit) :=
  .get_bind fun w hw => Runs.forM (fun r _ => runs_closeIfUnused r) w hw

/-- What there is to do about a session that nobody holds, once it is out of the table. -/
theorem steps_forget {i : SessionRef} (hw : Sized n m w) (hi : i < n)
    (hdead : w.isLive i = false) :
    let s := w.session i
    Steps told w
      (Action.closeUnused.exec
        ((w.answered (.session s.remote (.revoke s.sink))).released s.remote)).2 := by
  intro s
  rw [← hw.sessions] at hi
  let w₁ := w.answered (.session s.remote (.revoke s.sink))
  let w₂ := w₁.released s.remote
  have hrevoke : Change told w w₁ := .revoke i hi hdead
  have hrelease : Change told w₁ w₂ := .release i hi hdead
  have hsteps : Steps told w w₂ := .tail (.single hrevoke) hrelease
  exact hsteps.trans (runs_closeUnused _ (hw.steps hsteps))

theorem exec_endSession (w : World σ) (i : SessionRef) :
    let s := w.session i
    let out := w.setRegistry s.registry fun r =>
      { r with sessions := r.sessions.unregister s.id i }
    ((Action.endSession i).exec w).2 =
      (Action.closeUnused.exec
        ((out.answered (.session s.remote (.revoke s.sink))).released s.remote)).2 := by
  intro s out
  have hasked : ((Action.ask (.session s.remote (.revoke s.sink))).exec out).2 =
      out.answered (.session s.remote (.revoke s.sink)) := Action.world_ask _ out
  have hboth := Action.exec_andThen (Action.ask (.session s.remote (.revoke s.sink)))
    ((modify fun w => w.released s.remote) >>= fun _ => Action.closeUnused) out
  refine Eq.trans hboth ?_
  exact congrArg (fun x => (Action.closeUnused.exec (World.released x s.remote)).2) hasked

theorem exec_dropSession (w : World σ) (i : SessionRef) :
    let left := w.setSession i fun s => { s with handles := s.handles - 1 }
    ((Action.dropSession i).exec w).2 =
      if left.isLive i then left else ((Action.endSession i).exec left).2 := by
  intro left
  show ((if !left.isLive i then Action.endSession i else pure () : Action σ Unit).exec left).2 = _
  cases left.isLive i <;> rfl

theorem runs_dropSession {i : SessionRef} (hi : i < n) :
    Runs told n m (Action.dropSession i : Action σ Unit) := by
  intro w hw
  let left := w.setSession i fun s => { s with handles := s.handles - 1 }
  have hchange : Change told w (w.dropped i) := .dropSession i
  rw [exec_dropSession]
  by_cases hlive : left.isLive i = true
  · have hdropped : w.dropped i = left := if_pos hlive
    rw [if_pos hlive]
    rw [hdropped] at hchange
    exact .single hchange
  · have hdropped : w.dropped i = left.setRegistry (left.session i).registry fun r =>
      { r with sessions := r.sessions.unregister (left.session i).id i } := if_neg hlive
    rw [if_neg hlive, exec_endSession]
    rw [Bool.not_eq_true] at hlive
    have hforget : Steps told (w.dropped i) _ := steps_forget (hw.change hchange) hi
      (by rw [hdropped]; exact hlive)
    rw [hdropped] at hchange hforget
    exact .trans (.single hchange) hforget

theorem runs_dropSystem (i : SystemRef) : Runs told n m (Action.dropSystem i : Action σ Unit) :=
  .bind (.modify fun _ => .leaveSystem i) fun _ => runs_closeUnused

theorem runs_dropRegistry (r : RegistryRef) :
    Runs told n m (Action.dropRegistry r : Action σ Unit) :=
  .bind (.modify fun _ => .leaveRegistry r) fun _ => runs_closeUnused

theorem runs_dropHandle {h : HandleRef} (hh : h < m) :
    Runs told n m (Action.dropHandle h : Action σ Unit) := by
  refine .get_bind fun w hw => ?_
  have hdrop : Runs told n m (Action.dropSession (w.handle h).session : Action σ Unit) :=
    runs_dropSession (hw.session hh)
  dsimp only
  split
  · refine Runs.bind (.modify fun _ => .closeHandle h) (fun _ => ?_) w hw
    split
    · next b _ => exact .bind (.modify fun _ => .detach b) fun _ => hdrop
    · exact hdrop
  · exact .refl

/-! ### Taking notices in -/

/-- Notices are taken in by changes. -/
theorem tended_steps (w₀ : World σ) :
    Tended told (· < m) fun w => Sized n m w ∧ Steps told w₀ w := by
  have keep {w w' : World σ} (hc : Change told w w') (hw : Sized n m w ∧ Steps told w₀ w) :
      Sized n m w' ∧ Steps told w₀ w' := ⟨hw.1.change hc, hw.2.tail hc⟩
  exact
    { attached := fun hw hb => hw.1.attached hb
      record := fun _ => keep (.record _)
      offer := fun b e => keep (.offer b clientThread e)
      leave := fun b => keep (.leave b clientThread)
      attach := fun b _ hh hw => keep (.attach b _ (by rwa [hw.1.handles])) hw
      learnKey := fun id status hk => keep (.learnKey _ hk id status)
      learnError := fun k e => keep (.learnError k e)
      signal := fun r => keep (.signal r)
      holdRegistry := fun r => keep (.holdRegistry r)
      release := fun hh _ => .bind (.guarded (runs_iff.1 (runs_dropHandle hh) w₀)) fun _ =>
        .modify fun _ => keep (.record _)
      dropRegistry := fun r => runs_iff.1 (runs_dropRegistry r) w₀ }

theorem runs_receive (k : SinkRef) (notice : Notice)
    (hk : ∀ id status, notice = .keyStatus id status → told k) :
    Runs told n m (Action.receive k notice : Action σ Unit) :=
  runs_iff.2 fun w₀ => (tended_steps w₀).receive k notice hk

/-- What there is to do about a key status once it is in the ledger tells no sink of keys. -/
theorem steps_receive_keyStatus (hw : Sized n m w) (k : SinkRef) (id : Bytes)
    (status : KeyStatus) :
    Steps (fun _ => False)
      ((w.setRegistry (w.sink k).registry fun x => { x with handles := x.handles + 1 }).setSink k
        fun s => { s with keys := s.keys.report id status })
      ((Action.receive k (.keyStatus id status)).exec w).2 := by
  let held := w.setRegistry (w.sink k).registry fun x => { x with handles := x.handles + 1 }
  let learned := held.setSink k fun s => { s with keys := s.keys.report id status }
  have hlearned : Sized n m learned := hw.congr rfl rfl rfl
  let rest : Action σ Unit := do
    if !status.isPending then Action.announce k (.keyUpdated id)
    Action.signalKeys k
  have hrest : Runs (fun _ => False) n m rest :=
    runs_iff.2 fun w₀ => (tended_steps w₀).afterKey k id status
  have hexec : ((Action.receive k (.keyStatus id status)).exec w).2 =
      ((Action.dropRegistry (w.sink k).registry).exec (rest.exec learned).2).2 :=
    Action.exec_andThen (Action.takeIn k (.keyStatus id status)) _ held
  have hsteps := hrest learned hlearned
  rw [hexec]
  exact hsteps.trans (runs_dropRegistry _ _ (hlearned.steps hsteps))

/-- The notices that are taken in tell no sinks of keys but those that are told of them. -/
theorem runs_receiveAll {l : List Delivery}
    (hl : ∀ {k id status}, (k, .keyStatus id status) ∈ l → told k) :
    Runs told n m (Action.receiveAll l : Action σ Unit) :=
  runs_iff.2 fun w₀ => (tended_steps w₀).receiveAll hl

theorem runs_attachBridge (b : BridgeRef) {h : HandleRef} (hh : h < m) :
    Runs told n m (Action.attachBridge b h : Action σ Unit) :=
  runs_iff.2 fun w₀ => (tended_steps w₀).attachBridge b hh

variable (told) in
/-- A handle for a session is opened, or the session is given up. Either way changes follow upon
handles that are there. -/
theorem steps_openHandle (hw : Sized n m w) {i : SessionRef} (hi : i < n)
    (b : Option BridgeRef) : ∃ m' handles, Sized n m' { w with handles } ∧
      Steps told { w with handles } ((Boundary.openHandle i b).exec w).2 := by
  rcases Action.openHandle_cases w i b with hopened | ⟨f, hrefused⟩
  · let x : Handle := ⟨i, (w.session i).id, (w.session i).bufferId, b, true⟩
    have hsized : Sized n (m + 1) { w with handles := w.handles ++ [x] } := hw.addHandle hi
    refine ⟨m + 1, w.handles ++ [x], hsized, ?_⟩
    rw [hopened]
    cases b with
    | none => exact .refl
    | some b =>
      exact runs_attachBridge b (by rw [hw.handles]; exact Nat.lt_succ_self m) _ hsized
  · rw [hrefused]
    exact ⟨m, w.handles, hw, runs_dropSession hi w hw⟩

end Changes

end Client

end ContentDecryption
