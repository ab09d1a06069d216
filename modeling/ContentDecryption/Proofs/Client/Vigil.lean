import ContentDecryption.Client.KeySystem
import ContentDecryption.Proofs.Client.Exec
import ContentDecryption.Proofs.Client.Tables
import Mathlib.Logic.Function.Basic
import Mathlib.Tactic.SplitIfs

/-!
# Waiting, updating and giving up, step by step

Any number of waiters look for keys while sessions are made, are given up and hear of
their keys, each on a thread of its own. An `Act` is what one thread does under one
lock, and a run is a list of acts in any order.

Nothing longer than that is atomic. A status is in the ledger before the signal is
given, and other things may happen in between. A look takes the entries of the table
one by one, holding the sessions that are still alive, and after that asks one session
after the other and lets go of those that do not match. A session that has lost its
last handle stays in the table until its thread comes to take it out.

Main definitions:

* `Vigil`, `Act`, `Vigil.step`, `Vigil.run`;
* `World.IsListed`: a session that is registered;
* `Later`: what every act leaves of the sessions that there were;
* `Vigil.Step`, `Vigil.Advance`: what an act can be, and what a waiter can do next.

Main results:

* `Vigil.step_step`: every act is one of these;
* `Vigil.steps_induction`: what holds and is kept by every step holds after any acts;
* `Vigil.later_steps`: whatever happens, a registered session stays registered for as long as it
  lives.
-/

namespace ContentDecryption

namespace Client

open Service

/-! ## Acts -/

namespace World

variable {σ : Type} (w : World σ)

/-- Whether a session answers a query now. -/
def answers (q : KeyQuery) (i : SessionRef) : Bool :=
  q.system.all (fun x => x == (w.session i).system) && (w.ledger i).status q.keyId == q.wanted

/-- Takes one more handle of a session. -/
def holdSession (i : SessionRef) : World σ :=
  w.setSession i fun s => { s with handles := s.handles + 1 }

/-- Gives one handle of a session up. What follows if it was the last one comes later. -/
def leaveSession (i : SessionRef) : World σ :=
  w.setSession i fun s => { s with handles := s.handles - 1 }

/-- Gives the signal of a connection. -/
def signal (r : RegistryRef) : World σ :=
  w.setRegistry r fun x => { x with signal := x.signal.notify }

/-- A step of a waiter; `found` is what its look has found. -/
def stepWaiter (j : Nat) (found : Option SessionRef) (expired : Bool) : World σ :=
  w.setWaiter j fun x =>
    { x with stage := x.stage.step (w.registry x.registry).signal found expired }

end World

/-- A look that is under way. -/
structure Look where
  /-- The entries of the table that it has not come to. -/
  left : List SessionRef
  /-- The sessions that it holds and has not asked. -/
  held : List SessionRef := []
  deriving Repr, DecidableEq

/-- A client, and what its threads are in the middle of. -/
structure Vigil (σ : Type) where
  world : World σ
  /-- The looks of the waiters. -/
  looks : Nat → Option Look := fun _ => none
  /-- The sinks that have taken a status in, and whose signal is still to come. -/
  updates : List SinkRef := []
  /-- How often the signal of each connection was given. -/
  changes : RegistryRef → Nat := fun _ => 0

/-- What can happen next. -/
inductive Act
  /-- A session is asked for. From now on the service may report to its sink. -/
  | openSink (r : RegistryRef) (listener : Listener)
  /-- The service has handed the session out. It is registered, and the call returns. -/
  | adopt (i : SystemRef) (k : SinkRef) (x : RemoteSession)
  | hold (i : SessionRef)
  | drop (i : SessionRef)
  /-- A session that has lost its last handle is taken out of the table. -/
  | unregister (i : SessionRef)
  /-- The service reports a key: the ledger takes the status in. -/
  | report (k : SinkRef) (id : Bytes) (status : KeyStatus)
  /-- The `n`-th of the reports that are under way ends with its signal. -/
  | signal (n : Nat)
  /-- A signal without a report. -/
  | nudge (r : RegistryRef)
  | wait (r : RegistryRef) (q : KeyQuery)
  /-- A waiter goes on. A look that begins goes through the table in this order. -/
  | waiter (j : Nat) (order : List SessionRef) (expired : Bool)

namespace Vigil

variable {σ : Type}

/-- A client that has connections and key systems, and no sessions and waiters. -/
def start (service : σ) (settings : List Settings) (systems : List System) : Vigil σ where
  world :=
    { service, registries := settings.map fun settings => { settings }, systems }

variable (t : Vigil σ)

/-- The signal of a connection is given. -/
def signalled (r : RegistryRef) : Vigil σ :=
  { t with
    world := t.world.signal r
    changes := Function.update t.changes r (t.changes r + 1) }

/-- The vigil after a step of a waiter. -/
def advance (j : Nat) (x : Waiter) (order : List SessionRef) (expired : Bool) : Vigil σ :=
  match x.stage, t.looks j with
  | .looking _, none =>
    if order.Perm ((t.world.registry x.registry).sessions.map Prod.snd) then
      { t with looks := Function.update t.looks j (some { left := order }) }
    else t
  | .looking _, some ⟨i :: left, held⟩ =>
    if t.world.isLive i then
      { t with
        world := t.world.holdSession i
        looks := Function.update t.looks j (some ⟨left, held ++ [i]⟩) }
    else { t with looks := Function.update t.looks j (some ⟨left, held⟩) }
  | .looking _, some ⟨[], i :: held⟩ =>
    if t.world.answers x.query i then
      { t with
        world := t.world.stepWaiter j (some i) expired
        looks := Function.update t.looks j (some ⟨[], held⟩) }
    else
      { t with
        world := t.world.leaveSession i
        looks := Function.update t.looks j (some ⟨[], held⟩) }
  | .finished _, some ⟨left, i :: held⟩ =>
    { t with
      world := t.world.leaveSession i
      looks := Function.update t.looks j (some ⟨left, held⟩) }
  | _, _ =>
    { t with
      world := t.world.stepWaiter j none expired
      looks := Function.update t.looks j none }

/-- One act. An act that cannot happen changes nothing. -/
def step : Act → Vigil σ
  | .openSink r listener =>
    { t with world := { t.world with sinks := t.world.sinks ++ [{ registry := r, listener }] } }
  | .adopt i k x =>
    if k < t.world.sinks.length ∧ (t.world.sink k).registry = (t.world.system i).registry then
      { t with world := ((Action.adoptSession i k x).exec t.world).2 }
    else t
  | .hold i => if t.world.isLive i then { t with world := t.world.holdSession i } else t
  | .drop i => { t with world := t.world.leaveSession i }
  | .unregister i =>
    if t.world.isLive i then t
    else
      let s := t.world.session i
      { t with
        world := t.world.setRegistry s.registry fun r =>
          { r with sessions := r.sessions.unregister s.id i } }
  | .report k id status =>
    if k < t.world.sinks.length then
      { t with
        world := ((Action.learnKey k id status).exec t.world).2
        updates := t.updates ++ [k] }
    else t
  | .signal n =>
    match t.updates[n]? with
    | some k => { t.signalled (t.world.sink k).registry with updates := t.updates.eraseIdx n }
    | none => t
  | .nudge r => t.signalled r
  | .wait r q =>
    { t with world := { t.world with
        waiters := t.world.waiters ++ [{ registry := r, query := q }] } }
  | .waiter j order expired =>
    match t.world.waiters[j]? with
    | some x => t.advance j x order expired
    | none => t

/-- A list of acts. -/
def steps (acts : List Act) : Vigil σ := acts.foldl step t

/-- A list of acts from the start. -/
def run (service : σ) (settings : List Settings) (systems : List System) (acts : List Act) :
    Vigil σ :=
  steps (start service settings systems) acts

end Vigil

/-! ## Registered sessions -/

namespace World

variable {σ : Type} {w : World σ} {i : SessionRef}

theorem isLive_iff : w.isLive i = true ↔ ∃ s, w.sessions[i]? = some s ∧ 0 < s.handles := by
  simp only [World.isLive, Option.any_eq_true, decide_eq_true_eq]

/-- A session that its connection lists under its ID. -/
def IsListed (w : World σ) (i : SessionRef) : Prop :=
  ∃ s, w.sessions[i]? = some s ∧ (w.registry s.registry).sessions.lookup s.id = some i

end World

/-! ## What every act leaves -/

/-- The same session, held only if it was held before. -/
structure Session.Same (s s' : Session) : Prop where
  id : s'.id = s.id
  registry : s'.registry = s.registry
  system : s'.system = s.system
  sink : s'.sink = s.sink
  held : 0 < s'.handles → 0 < s.handles

/-- The sessions and sinks that there were are there, and a registered session is registered for as
long as it lives. -/
structure Later {σ : Type} (w w' : World σ) : Prop where
  registries : w'.registries.length = w.registries.length
  sessions : ∀ {i : SessionRef} {s : Session}, w.sessions[i]? = some s →
    ∃ s', w'.sessions[i]? = some s' ∧ s.Same s'
  sinks : ∀ {k : SinkRef} {x : Sink}, w.sinks[k]? = some x →
    ∃ x', w'.sinks[k]? = some x' ∧ x'.registry = x.registry
  listed : ∀ {i : SessionRef}, w.IsListed i → w'.isLive i = true → w'.IsListed i

namespace Later

variable {σ : Type} {w w' w'' : World σ}

theorem live (h : Later w w') {i : SessionRef} {s : Session} (hs : w.sessions[i]? = some s)
    (hlive : w'.isLive i = true) : w.isLive i = true := by
  obtain ⟨s', hs', hsame⟩ := h.sessions hs
  obtain ⟨u, hu, hheld⟩ := World.isLive_iff.1 hlive
  obtain rfl : s' = u := Option.some.inj (hs'.symm.trans hu)
  exact World.isLive_iff.2 ⟨s, hs, hsame.held hheld⟩

protected theorem refl (w : World σ) : Later w w :=
  ⟨rfl, fun hs => ⟨_, hs, rfl, rfl, rfl, rfl, id⟩, fun hk => ⟨_, hk, rfl⟩, fun h _ => h⟩

/-- A registered session that lives later on has been registered all the while. -/
theorem listed_between (h : Later w w') (h' : Later w' w'') {i : SessionRef}
    (hlisted : w.IsListed i) (hlive : w''.isLive i = true) : w'.IsListed i := by
  obtain ⟨s, hs, hlookup⟩ := hlisted
  obtain ⟨s', hs', -⟩ := h.sessions hs
  exact h.listed ⟨s, hs, hlookup⟩ (h'.live hs' hlive)

theorem trans (h : Later w w') (h' : Later w' w'') : Later w w'' where
  registries := h'.registries.trans h.registries
  sessions := by
    intro i s hs
    obtain ⟨s', hs', hsame⟩ := h.sessions hs
    obtain ⟨s'', hs'', hsame'⟩ := h'.sessions hs'
    exact ⟨s'', hs'', hsame'.id.trans hsame.id, hsame'.registry.trans hsame.registry,
      hsame'.system.trans hsame.system, hsame'.sink.trans hsame.sink,
      fun hheld => hsame.held (hsame'.held hheld)⟩
  sinks := by
    intro k x hk
    obtain ⟨x', hx', he⟩ := h.sinks hk
    obtain ⟨x'', hx'', he'⟩ := h'.sinks hx'
    exact ⟨x'', hx'', he'.trans he⟩
  listed := fun hlisted hlive => h'.listed (h.listed_between h' hlisted hlive) hlive

/-- The tables keep the sessions that live. -/
theorem of_tables (hregistries : w'.registries.length = w.registries.length)
    (hsessions : ∀ {i : SessionRef} {s : Session}, w.sessions[i]? = some s →
      ∃ s', w'.sessions[i]? = some s' ∧ s.Same s')
    (hsinks : ∀ {k : SinkRef} {x : Sink}, w.sinks[k]? = some x →
      ∃ x', w'.sinks[k]? = some x' ∧ x'.registry = x.registry)
    (htables : ∀ (r : RegistryRef) {id : String} {i : SessionRef}, w'.isLive i = true →
      (w.registry r).sessions.lookup id = some i → (w'.registry r).sessions.lookup id = some i) :
    Later w w' where
  registries := hregistries
  sessions := hsessions
  sinks := hsinks
  listed := by
    intro i hlisted hlive
    obtain ⟨s, hs, hlookup⟩ := hlisted
    obtain ⟨s', hs', hsame⟩ := hsessions hs
    refine ⟨s', hs', ?_⟩
    rw [hsame.registry, hsame.id]
    exact htables s.registry hlive hlookup

/-- A change that neither the sessions nor the tables nor the connections of the sinks notice. -/
theorem of_eq (hregistries : w'.registries = w.registries) (hsessions : w'.sessions = w.sessions)
    (hsinks : ∀ {k : SinkRef} {x : Sink}, w.sinks[k]? = some x →
      ∃ x', w'.sinks[k]? = some x' ∧ x'.registry = x.registry) : Later w w' := by
  refine .of_tables (congrArg _ hregistries) (fun hs => ?_) hsinks fun r {_ _} _ hlookup => ?_
  · rw [hsessions]
    exact ⟨_, hs, rfl, rfl, rfl, rfl, id⟩
  · rwa [World.registry, hregistries]

/-- A session is held once more, or once less. -/
theorem setSession (i : SessionRef) {f : Session → Session}
    (hf : ∀ s, w.sessions[i]? = some s → s.Same (f s)) : Later w (w.setSession i f) := by
  refine .of_tables rfl (fun {k s} hs => ?_) (fun hk => ⟨_, hk, rfl⟩)
    fun r {_ _} _ hlookup => hlookup
  rw [World.setSession, List.getElem?_modify, hs]
  refine ⟨_, rfl, ?_⟩
  dsimp only
  split_ifs with hik
  · exact hf s (hik ▸ hs)
  · exact ⟨rfl, rfl, rfl, rfl, id⟩

theorem holdSession {i : SessionRef} (hlive : w.isLive i = true) :
    Later w (w.holdSession i) := by
  refine setSession i fun s hs => ⟨rfl, rfl, rfl, rfl, fun _ => ?_⟩
  obtain ⟨u, hu, hheld⟩ := World.isLive_iff.1 hlive
  obtain rfl : s = u := Option.some.inj (hs.symm.trans hu)
  exact hheld

theorem leaveSession (i : SessionRef) : Later w (w.leaveSession i) :=
  setSession i fun _ _ =>
    ⟨rfl, rfl, rfl, rfl, fun hheld => Nat.lt_of_lt_of_le hheld (Nat.sub_le ..)⟩

/-- A connection changes, and its table keeps the sessions that live. -/
theorem setRegistry (r : RegistryRef) {f : Registry → Registry}
    (hf : ∀ {id : String} {i : SessionRef}, w.isLive i = true →
      (w.registry r).sessions.lookup id = some i →
      (f (w.registry r)).sessions.lookup id = some i) : Later w (w.setRegistry r f) := by
  refine .of_tables (List.length_modify ..) (fun hs => ⟨_, hs, rfl, rfl, rfl, rfl, id⟩)
    (fun hk => ⟨_, hk, rfl⟩) fun r' {id i} hlive hlookup => ?_
  unfold World.registry at hlookup hf ⊢
  rcases getD_modify_cases w.registries r r' f
    { handles := 0, isOpen := false, settings := .ofEnvironment none } with he | ⟨rfl, -, he⟩
  · rwa [World.setRegistry, he]
  · rw [World.setRegistry, he]
    exact hf hlive hlookup

theorem signal (r : RegistryRef) : Later w (w.signal r) :=
  setRegistry r fun _ hlookup => hlookup

/-- A session that nobody holds is taken out of its table. -/
theorem unregister {i : SessionRef} (hdead : ¬ w.isLive i = true) (r : RegistryRef)
    (id : String) :
    Later w (w.setRegistry r fun x => { x with sessions := x.sessions.unregister id i }) := by
  refine setRegistry r fun {other k} hlive hlookup => SessionTable.lookup_unregister hlookup ?_
  rintro rfl
  exact hdead hlive

/-- A session is made, and not registered yet. -/
theorem addSession (s : Session) : Later w { w with sessions := w.sessions ++ [s] } := by
  refine .of_tables rfl (fun {j u} hu => ?_) (fun hk => ⟨_, hk, rfl⟩)
    fun r {_ _} _ hlookup => hlookup
  refine ⟨u, ?_, rfl, rfl, rfl, rfl, id⟩
  obtain ⟨hlt, -⟩ := List.getElem?_eq_some_iff.1 hu
  exact (List.getElem?_append_left hlt).trans hu

/-- A session is made and registered. -/
theorem adopt (i : SystemRef) (k : SinkRef) (x : RemoteSession) :
    Later w ((Action.adoptSession i k x).exec w).2 :=
  (addSession _).trans (setRegistry (w.system i).registry
    fun hlive hlookup => SessionTable.lookup_register hlookup hlive)

/-- A step of a waiter. -/
theorem stepWaiter (j : Nat) (found : Option SessionRef) (expired : Bool) :
    Later w (w.stepWaiter j found expired) :=
  of_eq rfl rfl fun hk => ⟨_, hk, rfl⟩

end Later

/-! ## What an act can be -/

namespace Vigil

variable {σ : Type}

/-- What a waiter can do next. -/
inductive Advance (t : Vigil σ) (j : Nat) (x : Waiter) : Vigil σ → Prop
  | stay : Advance t j x t
  /-- A look begins. -/
  | look {seen : UInt64} {order : List SessionRef} (stage : x.stage = .looking seen)
      (all : order.Perm ((t.world.registry x.registry).sessions.map Prod.snd)) :
      Advance t j x { t with looks := Function.update t.looks j (some { left := order }) }
  /-- The look takes a session that is alive. -/
  | take {seen : UInt64} {i : SessionRef} {left held : List SessionRef}
      (stage : x.stage = .looking seen) (look : t.looks j = some ⟨i :: left, held⟩)
      (live : t.world.isLive i = true) :
      Advance t j x { t with
        world := t.world.holdSession i
        looks := Function.update t.looks j (some ⟨left, held ++ [i]⟩) }
  /-- The look comes to a session that is gone. -/
  | pass {seen : UInt64} {i : SessionRef} {left held : List SessionRef}
      (stage : x.stage = .looking seen) (look : t.looks j = some ⟨i :: left, held⟩)
      (dead : ¬ t.world.isLive i = true) :
      Advance t j x { t with looks := Function.update t.looks j (some ⟨left, held⟩) }
  /-- A session answers the query. -/
  | find {seen : UInt64} {i : SessionRef} {held : List SessionRef} {expired : Bool}
      (stage : x.stage = .looking seen) (look : t.looks j = some ⟨[], i :: held⟩)
      (answers : t.world.answers x.query i = true) :
      Advance t j x { t with
        world := t.world.stepWaiter j (some i) expired
        looks := Function.update t.looks j (some ⟨[], held⟩) }
  /-- A session does not answer the query. -/
  | reject {seen : UInt64} {i : SessionRef} {held : List SessionRef}
      (stage : x.stage = .looking seen) (look : t.looks j = some ⟨[], i :: held⟩)
      (other : ¬ t.world.answers x.query i = true) :
      Advance t j x { t with
        world := t.world.leaveSession i
        looks := Function.update t.looks j (some ⟨[], held⟩) }
  /-- A waiter that is done lets go of a session that its look still holds. -/
  | release {found : Option SessionRef} {i : SessionRef} {left held : List SessionRef}
      (stage : x.stage = .finished found) :
      Advance t j x { t with
        world := t.world.leaveSession i
        looks := Function.update t.looks j (some ⟨left, held⟩) }
  /-- Anything but a look; or the end of a look that has found nothing. -/
  | go {expired : Bool} (look : ∀ {seen : UInt64}, x.stage = .looking seen →
      t.looks j = some ⟨[], []⟩) :
      Advance t j x { t with
        world := t.world.stepWaiter j none expired
        looks := Function.update t.looks j none }

theorem advance_advance (t : Vigil σ) (j : Nat) (x : Waiter) (order : List SessionRef)
    (expired : Bool) : Advance t j x (t.advance j x order expired) := by
  unfold advance
  split
  · next seen stage _ =>
    split_ifs with hall
    · exact .look stage hall
    · exact .stay
  · next seen i left held stage look =>
    split_ifs with hlive
    · exact .take stage look hlive
    · exact .pass stage look hlive
  · next seen i held stage look =>
    split_ifs with hanswers
    · exact .find stage look hanswers
    · exact .reject stage look hanswers
  · next found left i held stage look => exact .release stage
  · next hidle htake hask _ =>
    refine .go fun {seen} stage => ?_
    cases hlook : t.looks j with
    | none => exact (hidle seen stage hlook).elim
    | some l =>
      obtain ⟨left, held⟩ := l
      cases left with
      | cons i left => exact (htake seen i left held stage hlook).elim
      | nil =>
        cases held with
        | cons i held => exact (hask seen i held stage hlook).elim
        | nil => rfl

/-- What one act can be. -/
inductive Step (t : Vigil σ) : Vigil σ → Prop
  /-- Nothing that a waiter notices before it looks. -/
  | quiet {t' : Vigil σ} (later : Later t.world t'.world)
      (sessions : t'.world.sessions.length = t.world.sessions.length)
      (waiters : t'.world.waiters = t.world.waiters) (looks : t'.looks = t.looks)
      (changes : t'.changes = t.changes)
      (signal : ∀ r, (t'.world.registry r).signal = (t.world.registry r).signal) : Step t t'
  | adopt {i : SystemRef} {k : SinkRef} (x : RemoteSession) (known : k < t.world.sinks.length)
      (same : (t.world.sink k).registry = (t.world.system i).registry) :
      Step t { t with world := ((Action.adoptSession i k x).exec t.world).2 }
  | signal (r : RegistryRef) (updates : List SinkRef) :
      Step t { t.signalled r with updates }
  | wait (r : RegistryRef) (q : KeyQuery) :
      Step t { t with world := { t.world with
        waiters := t.world.waiters ++ [{ registry := r, query := q }] } }
  | advance {j : Nat} {x : Waiter} {t' : Vigil σ} (waiter : t.world.waiters[j]? = some x)
      (advance : Advance t j x t') : Step t t'

variable {t t' : Vigil σ}

/-- A change of a table does not touch the signal. -/
theorem signal_setRegistry {w : World σ} (r : RegistryRef) {f : Registry → Registry}
    (hf : ∀ x, (f x).signal = x.signal) (r' : RegistryRef) :
    ((w.setRegistry r f).registry r').signal = (w.registry r').signal :=
  getD_modify_congr hf w.registries r r' _

theorem Step.stay : Step t t := .quiet (.refl _) rfl rfl rfl rfl fun _ => rfl

theorem step_step (t : Vigil σ) (a : Act) : Step t (t.step a) := by
  cases a with
  | openSink r listener =>
    refine .quiet (.of_eq rfl rfl fun {k x} hk => ⟨x, ?_, rfl⟩) rfl rfl rfl rfl fun _ => rfl
    obtain ⟨hlt, -⟩ := List.getElem?_eq_some_iff.1 hk
    exact (List.getElem?_append_left hlt).trans hk
  | adopt i k x =>
    simp only [step]
    split_ifs with h
    · exact .adopt x h.1 h.2
    · exact .stay
  | hold i =>
    simp only [step]
    split_ifs with hlive
    · exact .quiet (.holdSession hlive) (List.length_modify ..) rfl rfl rfl fun _ => rfl
    · exact .stay
  | drop i => exact .quiet (.leaveSession i) (List.length_modify ..) rfl rfl rfl fun _ => rfl
  | unregister i =>
    simp only [step]
    split_ifs with hlive
    · exact .stay
    · exact .quiet (.unregister hlive _ _) rfl rfl rfl rfl (signal_setRegistry _ fun _ => rfl)
  | report k id status =>
    simp only [step]
    split_ifs
    · refine .quiet (.of_eq rfl rfl fun {k' x} hk => ?_) rfl rfl rfl rfl fun _ => rfl
      refine ⟨_, (List.getElem?_modify ..).trans (by rw [hk]; rfl), ?_⟩
      dsimp only
      split_ifs <;> rfl
    · exact .stay
  | signal n =>
    simp only [step]
    split
    · exact .signal _ _
    · exact .stay
  | nudge r => exact .signal r t.updates
  | wait r q => exact .wait r q
  | waiter j order expired =>
    simp only [step]
    split
    · next x hx => exact .advance hx (advance_advance ..)
    · exact .stay

theorem Advance.later {j : Nat} {x : Waiter} (h : Advance t j x t') :
    Later t.world t'.world := by
  cases h with
  | stay | look | pass => exact .refl _
  | take stage look live => exact .holdSession live
  | find | go => exact .stepWaiter ..
  | reject | release => exact .leaveSession _

theorem Step.later (h : Step t t') : Later t.world t'.world := by
  cases h with
  | quiet later => exact later
  | adopt x => exact .adopt _ _ x
  | signal r => exact .signal r
  | wait r q => exact .of_eq rfl rfl fun hk => ⟨_, hk, rfl⟩
  | advance _ advance => exact advance.later

/-- What holds and is kept by every step holds after any acts. -/
theorem steps_induction {P : Vigil σ → Prop} (hstep : ∀ {t t' : Vigil σ}, P t → Step t t' → P t')
    (acts : List Act) (h : P t) : P (t.steps acts) := by
  induction acts generalizing t with
  | nil => exact h
  | cons a acts ih => exact ih (hstep h (step_step t a))

theorem later_steps (t : Vigil σ) (acts : List Act) : Later t.world (t.steps acts).world :=
  steps_induction (P := fun t' => Later t.world t'.world) (fun h hs => h.trans hs.later) acts
    (.refl _)

theorem steps_append (t : Vigil σ) (acts more : List Act) :
    t.steps (acts ++ more) = (t.steps acts).steps more := List.foldl_append

end Vigil

end Client

end ContentDecryption
