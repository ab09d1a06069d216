import ContentDecryption.Proofs.Client.Vigil
import Mathlib.Algebra.Group.Nat.Defs
import Mathlib.Data.List.Infix

/-!
# Who is woken

A waiter goes by the generation that it noted before its look. If it noted it when a
session was registered and had the wanted status already, its look finds the session
alive and asks it, so the waiter does not fall asleep. If it noted it before that, any
signal since then wakes it.

So an update of a registered session is never missed: the status is in the ledger
before the signal is given. A session that becomes registered gives no signal: a waiter
that has looked just before goes on sleeping, although the session reports what it
waits for, until the next signal.

Main definitions:

* `Vigil.Counted`: the generations are those of the signals given;
* `Vigil.Attentive`: from a moment on, every waiter that notes a generation will ask a session.

Main results:

* `Vigil.counted_run`, `Vigil.attentive_steps`: these hold in every run;
* `Vigil.not_parked_of_update`: after an update of a registered session nobody who waits for it is
  asleep;
* `Vigil.parked_since_adoption`: who is asleep in spite of a new session looked before it was
  registered, and there was no signal since.
-/

namespace ContentDecryption

/-! ## Waiters -/

namespace WaiterStage

/-- The generation that a waiter goes by. -/
def seen? : WaiterStage → Option UInt64
  | looking seen => some seen
  | asleep seen => some seen
  | _ => none

/-- After a step, a waiter goes by the generation of now or by the one it went by before. -/
theorem seen?_step {signal : KeySignal} {found : Option SessionRef} {expired : Bool}
    {stage : WaiterStage} {seen : UInt64}
    (h : (stage.step signal found expired).seen? = some seen) :
    stage.seen? = some seen ∨ seen = signal.generation := by
  cases stage with
  | noting => exact .inr (Option.some.inj h).symm
  | looking g =>
    cases found with
    | some i => cases h
    | none =>
      cases expired with
      | true => cases h
      | false => exact .inl h
  | asleep g =>
    simp only [step] at h
    split at h
    · cases h
    · exact .inl h
  | finished found => cases h

end WaiterStage

namespace Client

open Service

/-- Whether a waiter is going to ask a session before it falls asleep, unless it is done before. -/
def WillAsk (i : SessionRef) (look : Option Look) : WaiterStage → Prop
  | .looking _ => ∀ l, look = some l → i ∈ l.left ∨ i ∈ l.held
  | .asleep _ => False
  | _ => True

/-- A look that is under way asks what it holds, and what it may still come to hold. -/
theorem willAsk_looking {i : SessionRef} {look : Look} {seen : UInt64} :
    WillAsk i (some look) (.looking seen) ↔ i ∈ look.left ∨ i ∈ look.held :=
  ⟨fun h => h look rfl, fun h _ hl => Option.some.inj hl ▸ h⟩

namespace Vigil

variable {σ : Type} {t t' u : Vigil σ}

/-- A waiter sleeps, and the generation is the one that it has noted. -/
def IsParked (t : Vigil σ) (x : Waiter) : Prop :=
  x.stage = .asleep (t.world.registry x.registry).signal.generation

instance (t : Vigil σ) (x : Waiter) : Decidable (t.IsParked x) :=
  inferInstanceAs (Decidable (x.stage = _))

/-! ## Counting signals -/

/-- The generations are those of the signals given, and nobody has noted a later one. -/
structure Counted (t : Vigil σ) : Prop where
  signal : ∀ {r : RegistryRef}, r < t.world.registries.length →
    (t.world.registry r).signal.generation = UInt64.ofNat (t.changes r)
  noted : ∀ {j : Nat} {x : Waiter} {seen : UInt64}, t.world.waiters[j]? = some x →
    x.registry < t.world.registries.length → x.stage.seen? = some seen →
    ∃ n ≤ t.changes x.registry, seen = UInt64.ofNat n

theorem counted_start (service : σ) (settings : List Settings) (systems : List System) :
    (start service settings systems).Counted where
  signal := by
    intro r hr
    rw [World.registry, List.getD_eq_getElem _ _ hr]
    simp only [start, List.getElem_map]
    rfl
  noted := fun hx => nomatch hx

/-- A waiter's step keeps the count. -/
theorem Counted.stepWaiter (h : t.Counted) (j : Nat) (found : Option SessionRef) (expired : Bool)
    (look : Option Look) : Counted { t with
      world := t.world.stepWaiter j found expired
      looks := Function.update t.looks j look } where
  signal := h.signal
  noted := by
    intro k y seen hy hlt hseen
    rcases getElem?_modify_cases (l := t.world.waiters) hy with ⟨-, hx⟩ | ⟨-, x, hx, rfl⟩
    · exact h.noted hx hlt hseen
    · rcases WaiterStage.seen?_step hseen with hbefore | hnow
      · exact h.noted (x := x) hx hlt hbefore
      · exact ⟨_, Nat.le_refl _, hnow.trans (h.signal hlt)⟩

theorem changes_le_signalled (t : Vigil σ) (r k : RegistryRef) :
    t.changes k ≤ (t.signalled r).changes k := by
  show t.changes k ≤ Function.update t.changes r (t.changes r + 1) k
  by_cases hkr : k = r
  · rw [hkr, Function.update_self]
    exact Nat.le_succ _
  · exact Nat.le_of_eq (Function.update_of_ne hkr _ _).symm

theorem signal_signal {w : World σ} {r k : RegistryRef} (hk : k < w.registries.length) :
    ((w.signal r).registry k).signal =
      if r = k then (w.registry k).signal.notify else (w.registry k).signal := by
  unfold World.signal World.setRegistry World.registry
  rw [List.getD_eq_getElem?_getD, List.getD_eq_getElem?_getD, List.getElem?_modify,
    List.getElem?_eq_getElem hk]
  dsimp only [Option.map_eq_map, Option.map_some, Option.getD_some]
  split_ifs <;> rfl

theorem Counted.signalled (h : t.Counted) (r : RegistryRef) (updates : List SinkRef) :
    Counted { t.signalled r with updates } where
  signal := by
    intro k hk
    have hlength : k < t.world.registries.length :=
      Nat.lt_of_lt_of_eq hk (List.length_modify ..)
    show ((t.world.signal r).registry k).signal.generation =
      UInt64.ofNat (Function.update t.changes r (t.changes r + 1) k)
    rw [signal_signal hlength]
    by_cases hrk : r = k
    · subst hrk
      rw [if_pos rfl, Function.update_self, UInt64.ofNat_add, ← h.signal hlength]
      rfl
    · rw [if_neg hrk, Function.update_of_ne (Ne.symm hrk), h.signal hlength]
  noted := by
    intro j x seen hx hlt hseen
    have hlength : x.registry < t.world.registries.length :=
      Nat.lt_of_lt_of_eq hlt (List.length_modify ..)
    obtain ⟨n, hn, rfl⟩ := h.noted hx hlength hseen
    exact ⟨n, Nat.le_trans hn (changes_le_signalled t r x.registry), rfl⟩

/-- What keeps the waiters and the signals keeps the count. -/
theorem Counted.congr (h : t.Counted)
    (hlength : t'.world.registries.length = t.world.registries.length)
    (hwaiters : t'.world.waiters = t.world.waiters) (hchanges : t'.changes = t.changes)
    (hsignal : ∀ r, (t'.world.registry r).signal = (t.world.registry r).signal) :
    t'.Counted where
  signal := by
    intro r hr
    rw [hsignal, hchanges]
    exact h.signal (hlength ▸ hr)
  noted := by
    intro j x seen hx hlt hseen
    rw [hchanges]
    exact h.noted (hwaiters ▸ hx) (hlength ▸ hlt) hseen

theorem Counted.step (h : t.Counted) (hs : Step t t') : t'.Counted := by
  cases hs with
  | quiet later _ hwaiters _ hchanges hsignal =>
    exact h.congr later.registries hwaiters hchanges hsignal
  | adopt x =>
    exact h.congr (List.length_modify ..) rfl rfl (signal_setRegistry _ fun _ => rfl)
  | signal r updates => exact h.signalled r updates
  | wait r q =>
    refine ⟨h.signal, fun {j x seen} hx hlt hseen => ?_⟩
    by_cases hj : j < t.world.waiters.length
    · exact h.noted ((List.getElem?_append_left hj).symm.trans hx) hlt hseen
    · rw [List.getElem?_append_right (Nat.le_of_not_lt hj), List.getElem?_singleton] at hx
      split_ifs at hx
      cases hx
      cases hseen
  | advance _ advance =>
    cases advance with
    | stay => exact h
    | look | pass => exact h.congr rfl rfl rfl fun _ => rfl
    | take | reject | release => exact h.congr rfl rfl rfl fun _ => rfl
    | find | go => exact h.stepWaiter ..

theorem counted_run (service : σ) (settings : List Settings) (systems : List System)
    (acts : List Act) : (run service settings systems acts).Counted :=
  steps_induction (fun h hs => h.step hs) acts (counted_start service settings systems)

/-- The signals are counted on. -/
theorem changes_le_step (hs : Step t t') (r : RegistryRef) : t.changes r ≤ t'.changes r := by
  cases hs with
  | quiet _ _ _ _ hchanges _ => exact Nat.le_of_eq (congrFun hchanges r).symm
  | adopt | wait => exact Nat.le_refl _
  | signal r' _ => exact changes_le_signalled t r' r
  | advance _ advance => cases advance <;> exact Nat.le_refl _

theorem changes_le_steps (t : Vigil σ) (acts : List Act) (r : RegistryRef) :
    t.changes r ≤ (t.steps acts).changes r :=
  steps_induction (P := fun t' => t.changes r ≤ t'.changes r)
    (fun h hs => Nat.le_trans h (changes_le_step hs r)) acts (Nat.le_refl _)

/-! ## Asking a session -/

/-- A waiter goes by a generation that it had noted at an earlier moment. -/
def NotedBefore (u : Vigil σ) (j : Nat) (x : Waiter) : Prop :=
  ∃ y seen, u.world.waiters[j]? = some y ∧ y.registry = x.registry ∧
    y.stage.seen? = some seen ∧ x.stage.seen? = some seen

/-- Who waits for this at this connection is going to ask the session before it sleeps, unless it
goes by a generation that it had noted at the earlier moment `u`. -/
def Attentive (u t : Vigil σ) (q : KeyQuery) (r : RegistryRef) (i : SessionRef) : Prop :=
  ∀ (j : Nat) (x : Waiter), t.world.waiters[j]? = some x → x.query = q → x.registry = r →
    WillAsk i (t.looks j) x.stage ∨ u.NotedBefore j x

variable {q : KeyQuery} {r : RegistryRef} {i : SessionRef} {j : Nat} {x : Waiter}

theorem attentive_self (u : Vigil σ) (q : KeyQuery) (r : RegistryRef) (i : SessionRef) :
    Attentive u u q r i := by
  intro j x hx _ _
  cases hstage : x.stage with
  | noting | finished => exact .inl trivial
  | looking seen | asleep seen =>
    exact .inr ⟨x, seen, hx, rfl, by rw [hstage]; rfl, by rw [hstage]; rfl⟩

/-- Only the look of one waiter changes. -/
theorem Attentive.setLook (h : Attentive u t q r i) (hx : t.world.waiters[j]? = some x)
    {w : World σ} (hwaiters : w.waiters = t.world.waiters) {look : Option Look}
    (hown : x.query = q → x.registry = r → WillAsk i (t.looks j) x.stage →
      WillAsk i look x.stage) :
    Attentive u { t with world := w, looks := Function.update t.looks j look } q r i := by
  intro k y hy hq hr
  rw [hwaiters] at hy
  dsimp only
  by_cases hkj : k = j
  · subst hkj
    obtain rfl : x = y := Option.some.inj (hx.symm.trans hy)
    rw [Function.update_self]
    exact (h k x hx hq hr).imp (hown hq hr) id
  · rw [Function.update_of_ne hkj]
    exact h k y hy hq hr

/-- One waiter goes on. -/
theorem Attentive.stepWaiter (h : Attentive u t q r i) (hx : t.world.waiters[j]? = some x)
    {found : Option SessionRef} {expired : Bool} {look : Option Look}
    (hown : x.query = q → x.registry = r → WillAsk i (t.looks j) x.stage ∨ u.NotedBefore j x →
      let next := x.stage.step (t.world.registry x.registry).signal found expired
      WillAsk i look next ∨ u.NotedBefore j { x with stage := next }) :
    Attentive u { t with
      world := t.world.stepWaiter j found expired
      looks := Function.update t.looks j look } q r i := by
  intro k y hy hq hr
  dsimp only
  rcases getElem?_modify_cases (l := t.world.waiters) hy with ⟨hkj, hx'⟩ | ⟨rfl, x', hx', rfl⟩
  · rw [Function.update_of_ne (Ne.symm hkj)]
    exact h k y hx' hq hr
  · obtain rfl : x = x' := Option.some.inj (hx.symm.trans hx')
    rw [Function.update_self]
    exact hown hq hr (h j x hx hq hr)

/-- What a waiter does without having found anything: if it does not look, or its look is over. -/
theorem willAsk_step {signal : KeySignal} {expired : Bool} {look : Option Look}
    (hlook : ∀ {seen : UInt64}, x.stage = .looking seen → look = some ⟨[], []⟩)
    (h : WillAsk i look x.stage ∨ u.NotedBefore j x) :
    WillAsk i none (x.stage.step signal none expired) ∨
      u.NotedBefore j { x with stage := x.stage.step signal none expired } := by
  cases hstage : x.stage with
  | noting => exact .inl fun l hl => nomatch hl
  | finished found => exact .inl trivial
  | looking seen =>
    rw [hstage, hlook hstage] at h
    cases expired with
    | true => exact .inl trivial
    | false =>
      rcases h with hask | ⟨y, g, hy, hr, hnoted, hseen⟩
      · rw [willAsk_looking] at hask
        rcases hask with hmem | hmem <;> cases hmem
      · rw [hstage] at hseen
        exact .inr ⟨y, g, hy, hr, hnoted, hseen⟩
  | asleep seen =>
    rw [hstage] at h
    simp only [WaiterStage.step]
    split_ifs
    · exact .inl trivial
    · rcases h with hask | ⟨y, g, hy, hr, hnoted, hseen⟩
      · exact hask.elim
      · rw [hstage] at hseen
        exact .inr ⟨y, g, hy, hr, hnoted, hseen⟩

/-- Waiters stay attentive to a session that is registered and alive and answers the query. -/
theorem Attentive.advance (h : Attentive u t q r i) (hlisted : t.world.IsListed i)
    (hregistry : (t.world.session i).registry = r) (hlive : t.world.isLive i = true)
    (hanswers : t.world.answers q i = true) (hx : t.world.waiters[j]? = some x)
    (ha : Advance t j x t') : Attentive u t' q r i := by
  cases ha with
  | stay => exact h
  | look stage all =>
    refine h.setLook hx rfl fun _ hr _ => ?_
    rw [stage, willAsk_looking]
    obtain ⟨s, hs, hlookup⟩ := hlisted
    rw [World.session_of_getElem? hs] at hregistry
    rw [hregistry, ← hr] at hlookup
    exact .inl (all.mem_iff.2 (List.mem_map_of_mem (SessionTable.mem_of_lookup hlookup)))
  | take stage look live =>
    refine h.setLook hx rfl fun _ _ hask => ?_
    rw [stage, look, willAsk_looking] at hask
    rw [stage, willAsk_looking]
    rcases hask with hmem | hmem
    · rcases List.mem_cons.1 hmem with rfl | hmem
      · exact .inr (List.mem_append_right _ List.mem_cons_self)
      · exact .inl hmem
    · exact .inr (List.mem_append_left _ hmem)
  | pass stage look dead =>
    refine h.setLook hx rfl fun _ _ hask => ?_
    rw [stage, look, willAsk_looking] at hask
    rw [stage, willAsk_looking]
    rcases hask with hmem | hmem
    · rcases List.mem_cons.1 hmem with rfl | hmem
      · exact (dead hlive).elim
      · exact .inl hmem
    · exact .inr hmem
  | find stage look answers =>
    refine h.stepWaiter hx fun _ _ _ => ?_
    rw [stage]
    exact .inl trivial
  | reject stage look other =>
    refine h.setLook hx rfl fun hq _ hask => ?_
    rw [stage, look, willAsk_looking] at hask
    rw [stage, willAsk_looking]
    rcases hask with hmem | hmem
    · cases hmem
    · rcases List.mem_cons.1 hmem with rfl | hmem
      · rw [hq] at other
        exact (other hanswers).elim
      · exact .inr hmem
  | release stage =>
    refine h.setLook hx rfl fun _ _ _ => ?_
    rw [stage]
    exact trivial
  | go look => exact h.stepWaiter hx fun _ _ => willAsk_step look

theorem Attentive.step (h : Attentive u t q r i) (hlisted : t.world.IsListed i)
    (hregistry : (t.world.session i).registry = r) (hlive : t.world.isLive i = true)
    (hanswers : t.world.answers q i = true) (hs : Step t t') : Attentive u t' q r i := by
  cases hs with
  | quiet _ _ hwaiters hlooks _ _ =>
    intro j x hx hq hr
    rw [hlooks]
    rw [hwaiters] at hx
    exact h j x hx hq hr
  | adopt | signal => exact h
  | wait r' q' =>
    intro j x hx hq hr
    by_cases hj : j < t.world.waiters.length
    · exact h j x ((List.getElem?_append_left hj).symm.trans hx) hq hr
    · rw [List.getElem?_append_right (Nat.le_of_not_lt hj), List.getElem?_singleton] at hx
      split_ifs at hx
      cases hx
      exact .inl trivial
  | advance hx advance => exact h.advance hlisted hregistry hlive hanswers hx advance

/-- From a moment on at which a session is registered: as long as it lives and answers the query,
every waiter who notes a generation after that moment is going to ask it. -/
theorem attentive_steps (u : Vigil σ) (acts : List Act) (hlisted : u.world.IsListed i)
    (hregistry : (u.world.session i).registry = r)
    (hlive : (u.steps acts).world.isLive i = true)
    (hanswers : ∀ first, first <+: acts → (u.steps first).world.answers q i = true) :
    Attentive u (u.steps acts) q r i := by
  induction acts using List.reverseRecOn with
  | nil => exact attentive_self u q r i
  | append_singleton acts a ih =>
    have hprefix : acts <+: acts ++ [a] := List.prefix_append ..
    have hlater := later_steps u acts
    obtain ⟨s, hs, hlookup⟩ := hlisted
    obtain ⟨s', hs', hsame⟩ := hlater.sessions hs
    have hstep : Step (u.steps acts) (u.steps (acts ++ [a])) := by
      rw [steps_append]
      exact step_step (u.steps acts) a
    have hlive' : (u.steps acts).world.isLive i = true := hstep.later.live hs' hlive
    have hregistry' : ((u.steps acts).world.session i).registry = r := by
      rw [World.session_of_getElem? hs', hsame.registry, ← World.session_of_getElem? hs, hregistry]
    exact (ih hlive' fun first hfirst => hanswers first (hfirst.trans hprefix)).step
      (hlater.listed ⟨s, hs, hlookup⟩ hlive') hregistry' hlive' (hanswers acts hprefix) hstep

/-! ## Sleeping beside a session -/

/-- What a client can come to. -/
def Reached (t : Vigil σ) : Prop :=
  ∃ service settings systems acts, t = run (σ := σ) service settings systems acts

theorem Reached.counted (h : Reached t) : t.Counted := by
  obtain ⟨service, settings, systems, acts, rfl⟩ := h
  exact counted_run service settings systems acts

theorem Reached.steps (h : Reached t) (acts : List Act) : Reached (t.steps acts) := by
  obtain ⟨service, settings, systems, before, rfl⟩ := h
  exact ⟨service, settings, systems, before ++ acts, (steps_append ..).symm⟩

theorem registry_lt_of_listed {w : World σ} (h : w.IsListed i) :
    (w.session i).registry < w.registries.length := by
  obtain ⟨s, hs, hlookup⟩ := h
  rw [World.session_of_getElem? hs]
  by_contra hlt
  rw [World.registry, List.getD_eq_default _ _ (Nat.le_of_not_lt hlt)] at hlookup
  cases hlookup

/-- The session of a connection and of a system stays with them. -/
theorem session_steps (hlisted : u.world.IsListed i) (acts : List Act) :
    ((u.steps acts).world.session i).registry = (u.world.session i).registry ∧
      ((u.steps acts).world.session i).system = (u.world.session i).system := by
  obtain ⟨s, hs, -⟩ := hlisted
  obtain ⟨s', hs', hsame⟩ := (later_steps u acts).sessions hs
  rw [World.session_of_getElem? hs, World.session_of_getElem? hs']
  exact ⟨hsame.registry, hsame.system⟩

section Asleep

variable (hlisted : u.world.IsListed i) {acts : List Act}
  (hlive : (u.steps acts).world.isLive i = true)
  (hkept : ∀ first, first <+: acts →
    ((u.steps first).world.ledger i).status x.query.keyId = x.query.wanted)
  (hsystem : x.query.system.all (fun y => y == (u.world.session i).system) = true)
  (hregistry : x.registry = (u.world.session i).registry)
  (hx : (u.steps acts).world.waiters[j]? = some x) (hparked : (u.steps acts).IsParked x)

include hlisted hlive hkept hsystem hregistry hx hparked

/-- Who is asleep beside a session that is what it waits for went to sleep by a generation that it
had noted before the session was that. -/
theorem noted_of_parked : ∃ y, u.world.waiters[j]? = some y ∧ y.registry = x.registry ∧
    y.stage.seen? =
      some ((u.steps acts).world.registry x.registry).signal.generation := by
  have hanswers : ∀ first, first <+: acts →
      (u.steps first).world.answers x.query i = true := by
    intro first hfirst
    rw [World.answers, hkept first hfirst, (session_steps hlisted first).2, hsystem]
    exact beq_self_eq_true _
  have hattentive : Attentive u (u.steps acts) x.query x.registry i :=
    attentive_steps u acts hlisted hregistry.symm hlive hanswers
  have hstage : x.stage = .asleep _ := hparked
  rcases hattentive j x hx rfl rfl with hask | ⟨y, seen, hy, hr, hnoted, hseen⟩
  · rw [hstage] at hask
    exact hask.elim
  · rw [hstage] at hseen
    exact ⟨y, hy, hr, hnoted.trans hseen.symm⟩

end Asleep

/-- As long as the generations do not start over, they tell how many signals there were. -/
theorem Counted.eq_changes (h : t.Counted) (hr : r < t.world.registries.length)
    (hfew : t.changes r < 2 ^ 64) {n : Nat} (hn : n ≤ t.changes r)
    (hgeneration : (t.world.registry r).signal.generation = UInt64.ofNat n) :
    n = t.changes r := by
  rw [h.signal hr] at hgeneration
  have hnat := congrArg UInt64.toNat hgeneration
  rw [UInt64.toNat_ofNat_of_lt' hfew,
    UInt64.toNat_ofNat_of_lt' (Nat.lt_of_le_of_lt hn hfew)] at hnat
  exact hnat.symm

/-- The sink of a session belongs to the connection of the session. -/
def Tied (w : World σ) : Prop :=
  ∀ {i : SessionRef} {s : Session}, w.sessions[i]? = some s →
    ∃ y, w.sinks[s.sink]? = some y ∧ y.registry = s.registry

theorem Tied.later {w w' : World σ} (h : Tied w) (hlater : Later w w')
    (hlength : w'.sessions.length = w.sessions.length) : Tied w' := by
  intro i s' hs'
  obtain ⟨hlt, -⟩ := List.getElem?_eq_some_iff.1 hs'
  obtain ⟨s, hs⟩ : ∃ s, w.sessions[i]? = some s := ⟨_, List.getElem?_eq_getElem (hlength ▸ hlt)⟩
  obtain ⟨u, hu, hsame⟩ := hlater.sessions hs
  obtain rfl : s' = u := Option.some.inj (hs'.symm.trans hu)
  obtain ⟨y, hy, hr⟩ := h hs
  obtain ⟨y', hy', hr'⟩ := hlater.sinks hy
  rw [hsame.sink, hsame.registry]
  exact ⟨y', hy', hr'.trans hr⟩

/-- No waiter hands a session out. -/
theorem Advance.length_sessions (ha : Advance t j x t') :
    t'.world.sessions.length = t.world.sessions.length := by
  cases ha with
  | stay | look | pass | find | go => rfl
  | take | reject | release => exact List.length_modify ..

theorem Tied.step (h : Tied t.world) (hs : Step t t') : Tied t'.world := by
  cases hs with
  | quiet hlater hlength => exact h.later hlater hlength
  | @adopt i k y hknown hsame =>
    intro j s hs
    by_cases hj : j < t.world.sessions.length
    · exact h ((List.getElem?_append_left hj).symm.trans hs)
    · have hlast : s.sink = k ∧ s.registry = (t.world.system i).registry := by
        have hnew := (List.getElem?_append_right (Nat.le_of_not_lt hj)).symm.trans hs
        rw [List.getElem?_singleton] at hnew
        split_ifs at hnew
        cases hnew
        exact ⟨rfl, rfl⟩
      rw [hlast.1, hlast.2]
      refine ⟨t.world.sink k, ?_, hsame⟩
      show t.world.sinks[k]? = some (t.world.sinks.getD k {})
      rw [List.getElem?_eq_getElem hknown, List.getD_eq_getElem _ _ hknown]
  | signal r => exact h
  | wait => exact h
  | advance _ ha => exact h.later ha.later ha.length_sessions

theorem Reached.tied (h : Reached t) : Tied t.world := by
  obtain ⟨service, settings, systems, acts, rfl⟩ := h
  refine steps_induction (P := fun t => Tied t.world) (fun h hs => Tied.step h hs) acts ?_
  intro i s hs
  cases hs

/-- The sink of a registered session gives the signals of the session's connection. -/
theorem Reached.registry_sink (h : Reached t) (hlisted : t.world.IsListed i) :
    (t.world.sink (t.world.session i).sink).registry = (t.world.session i).registry := by
  obtain ⟨s, hs, -⟩ := hlisted
  obtain ⟨y, hy, hr⟩ := h.tied hs
  rw [World.session_of_getElem? hs, World.sink_of_getElem? hy]
  exact hr

/-- An update of a registered session ends with its signal. From then on nobody at its connection
is asleep who waits for a status that the session has kept since, while the session lives and there
were fewer than `2 ^ 64` signals. -/
theorem not_parked_of_update (hu : u.Reached) {n : Nat} {k : SinkRef}
    (hupdate : u.updates[n]? = some k) (hlisted : u.world.IsListed i)
    (hown : (u.world.session i).sink = k) {after : List Act}
    (hlive : (u.steps (.signal n :: after)).world.isLive i = true)
    (hkept : ∀ first, first <+: after →
      ((u.steps (.signal n :: first)).world.ledger i).status x.query.keyId = x.query.wanted)
    (hsystem : x.query.system.all (fun y => y == (u.world.session i).system) = true)
    (hregistry : x.registry = (u.world.session i).registry)
    (hfew : (u.steps (.signal n :: after)).changes x.registry < 2 ^ 64)
    (hx : (u.steps (.signal n :: after)).world.waiters[j]? = some x) :
    ¬ (u.steps (.signal n :: after)).IsParked x := by
  intro hparked
  let v := u.step (.signal n)
  have hv : v = { u.signalled (u.world.sink k).registry with updates := u.updates.eraseIdx n } := by
    simp only [v, step, hupdate]
  have hvSession := session_steps hlisted [.signal n]
  have hlt : x.registry < u.world.registries.length := hregistry ▸ registry_lt_of_listed hlisted
  have hsink : (u.world.sink k).registry = x.registry := by
    rw [hregistry, ← hown]
    exact hu.registry_sink hlisted
  have hvListed : v.world.IsListed i :=
    (step_step u (.signal n)).later.listed_between (later_steps v after) hlisted hlive
  -- Whoever is asleep noted its generation before the signal, and the signal has moved it on.
  obtain ⟨y, hy, hyr, hnoted⟩ := noted_of_parked hvListed hlive hkept
    (by rw [← hsystem, ← hvSession.2]; rfl) (hregistry.trans hvSession.1.symm) hx hparked
  rw [hv] at hy
  obtain ⟨m, hm, hseen⟩ := hu.counted.noted hy (hyr ▸ hlt) hnoted
  have hbefore : v.changes x.registry = u.changes x.registry + 1 := by
    rw [hv, hsink]
    exact Function.update_self ..
  have hsince : v.changes x.registry ≤ (u.steps (.signal n :: after)).changes x.registry :=
    changes_le_steps v after x.registry
  have hnow : x.registry < (u.steps (.signal n :: after)).world.registries.length := by
    rw [(later_steps u (.signal n :: after)).registries]
    exact hlt
  rw [hyr] at hm
  have hall := (hu.steps (.signal n :: after)).counted.eq_changes hnow hfew (by omega) hseen
  omega

/-- A session that was handed out before the signal of its first update, and a waiter that has
looked in between: the signal wakes it. -/
def updated : List Act :=
  [.wait 0 ⟨[1], .usable, none⟩, .openSink 0 .nobody,
    .adopt 0 0 { index := 0, id := "a", bufferId := "b", extended := false },
    .waiter 0 [] false, .waiter 0 [0] false, .waiter 0 [] false, .waiter 0 [] false,
    .report 0 [1] .usable]

/-- The start of a client with one connection and one key system. -/
def single : Vigil Unit := start () [{ connector := "" }] [{}]

theorem reached_single (acts : List Act) : Reached (single.steps acts) :=
  ⟨(), _, _, acts, rfl⟩

theorem not_parked_updated : ∃ x,
    (single.steps (updated ++ [.signal 0, .waiter 0 [] false])).world.waiters[0]? = some x ∧
      x.stage = .asleep 0 ∧
      ¬ (single.steps (updated ++ [.signal 0, .waiter 0 [] false])).IsParked x := by
  refine ⟨⟨0, ⟨[1], .usable, none⟩, .asleep 0⟩, by decide, rfl, ?_⟩
  rw [steps_append]
  have hkept : ∀ first ∈ [Act.waiter 0 [] false].inits,
      (((single.steps updated).steps (.signal 0 :: first)).world.ledger 0).status [1] =
        .usable := by
    decide
  exact not_parked_of_update (reached_single updated) (n := 0) (k := 0) (i := 0) (j := 0)
    (by decide) ⟨_, rfl, by decide⟩ (by decide) (by decide)
    (fun first hfirst => hkept first ((List.mem_inits ..).2 hfirst)) (by decide) (by decide)
    (by decide) (by decide)

/-- Registering a session gives no signal. Who sleeps beside a session that has had the wanted
status since it was handed out noted the generation before that, and no signal was given since. -/
theorem parked_since_adoption (hu : u.Reached) {sys : SystemRef} {k : SinkRef} {y : RemoteSession}
    (hlisted : (u.step (.adopt sys k y)).world.IsListed u.world.sessions.length)
    {after : List Act}
    (hlive : (u.steps (.adopt sys k y :: after)).world.isLive u.world.sessions.length = true)
    (hkept : ∀ first, first <+: after →
      ((u.steps (.adopt sys k y :: first)).world.ledger u.world.sessions.length).status
        x.query.keyId = x.query.wanted)
    (hsystem : x.query.system.all (fun z => z ==
      ((u.step (.adopt sys k y)).world.session u.world.sessions.length).system) = true)
    (hregistry : x.registry =
      ((u.step (.adopt sys k y)).world.session u.world.sessions.length).registry)
    (hfew : (u.steps (.adopt sys k y :: after)).changes x.registry < 2 ^ 64)
    (hx : (u.steps (.adopt sys k y :: after)).world.waiters[j]? = some x)
    (hparked : (u.steps (.adopt sys k y :: after)).IsParked x) :
    (∃ z, u.world.waiters[j]? = some z ∧ z.stage.seen? = x.stage.seen?) ∧
      (u.steps (.adopt sys k y :: after)).changes x.registry = u.changes x.registry := by
  let v := u.step (.adopt sys k y)
  have hsame : v.world.waiters = u.world.waiters ∧ v.changes = u.changes := by
    simp only [v, step]
    split_ifs
    · exact ⟨rfl, rfl⟩
    · exact ⟨rfl, rfl⟩
  have hlt : x.registry < v.world.registries.length := hregistry ▸ registry_lt_of_listed hlisted
  obtain ⟨z, hz, hzr, hnoted⟩ :=
    noted_of_parked (u := v) hlisted hlive hkept hsystem hregistry hx hparked
  obtain ⟨m, hm, hseen⟩ := (hu.steps [.adopt sys k y]).counted.noted hz (hzr ▸ hlt) hnoted
  have hsince := changes_le_steps v after x.registry
  have hnow : x.registry < (v.steps after).world.registries.length := by
    rw [(later_steps v after).registries]
    exact hlt
  rw [hzr] at hm
  have hall := (hu.steps (.adopt sys k y :: after)).counted.eq_changes hnow hfew
    (Nat.le_trans hm hsince) hseen
  refine ⟨⟨z, hsame.1 ▸ hz, ?_⟩, ?_⟩
  · rw [hnoted, show x.stage = .asleep _ from hparked]
    rfl
  · rw [← hsame.2]
    exact Nat.le_antisymm (hall ▸ hm) hsince

/-- The service reports a key before it hands the session out, and a waiter looks in between. -/
def reportedEarly : List Act :=
  [.wait 0 ⟨[1], .usable, none⟩, .openSink 0 .nobody, .report 0 [1] .usable, .signal 0,
    .waiter 0 [] false, .waiter 0 [] false, .waiter 0 [] false]

/-- The session that is handed out then. -/
def handedOut : RemoteSession := { index := 0, id := "a", bufferId := "b", extended := false }

/-- The waiter sleeps on beside the session, which is registered and alive and reports the key. -/
theorem parked_beside_adopted : ∃ x,
    (single.steps (reportedEarly ++ [.adopt 0 0 handedOut])).world.waiters[0]? = some x ∧
      (single.steps (reportedEarly ++ [.adopt 0 0 handedOut])).IsParked x ∧
      (single.steps (reportedEarly ++ [.adopt 0 0 handedOut])).world.IsListed 0 ∧
      (single.steps (reportedEarly ++ [.adopt 0 0 handedOut])).world.isLive 0 = true ∧
      (single.steps (reportedEarly ++ [.adopt 0 0 handedOut])).world.answers x.query 0 = true := by
  refine ⟨⟨0, ⟨[1], .usable, none⟩, .asleep 1⟩, by decide, by decide, ⟨_, rfl, by decide⟩,
    by decide, by decide⟩

/-- It has looked before that, and no signal was given since. -/
theorem noted_before_adoption :
    (∃ z, (single.steps reportedEarly).world.waiters[0]? = some z ∧ z.stage.seen? = some 1) ∧
      (single.steps (reportedEarly ++ [.adopt 0 0 handedOut])).changes 0 =
        (single.steps reportedEarly).changes 0 := by
  have hkept : ∀ first ∈ ([] : List Act).inits,
      (((single.steps reportedEarly).steps (.adopt 0 0 handedOut :: first)).world.ledger 0).status
        [1] = .usable := by
    decide
  rw [steps_append]
  exact parked_since_adoption (x := ⟨0, ⟨[1], .usable, none⟩, .asleep 1⟩) (j := 0)
    (reached_single reportedEarly) ⟨_, rfl, by decide⟩ (by decide)
    (fun first hfirst => hkept first ((List.mem_inits ..).2 hfirst)) (by decide) (by decide)
    (by decide) (by decide) (by decide)

end Vigil

end Client

end ContentDecryption
