import ContentDecryption.Proofs.Client.Owners

/-!
# Owning an ID while others come and go

Any number of threads make sessions, hold them and give them up, and the service gives
out IDs as it likes. A session that loses its last handle is not taken out of its table
in the same act. In between, its ID may be given to another session, which is registered
in its place; and a session that was turned away comes to be taken out as well, although
it never was in the table. Neither may cost the owner of the ID its entry.

A custody is a vigil with a record beside it: which sessions were accepted under their
IDs, and which have lost their last handle and are still to be taken out.

Main definitions:

* `Custody`, `Custody.step`, `Custody.run`;
* `Custody.Kept`: the tables list the owners.

Main results:

* `Custody.kept_step`, `Custody.kept_run`: in every run the tables list the owners;
* `Custody.owner_found`: a session that was accepted is found under its ID as long as it lives,
  whatever happens meanwhile;
* `Custody.ownership`: this, together with what it means for the tables.
-/

namespace ContentDecryption

namespace Client

open Service

/-! ## The record -/

namespace Vigil

variable {σ : Type} (t : Vigil σ)

/-- Whether an act registers a new session under its ID. -/
def accepts : Act → Bool
  | .adopt i k x =>
    decide (k < t.world.sinks.length ∧ (t.world.sink k).registry = (t.world.system i).registry)
      && t.world.accepts (t.world.system i).registry x.id
  | _ => false

/-- The sessions that lose their last handle in an act. -/
def ended (a : Act) : List SessionRef :=
  (List.range t.world.sessions.length).filter fun i =>
    t.world.isLive i && !(t.step a).world.isLive i

end Vigil

/-- A vigil, and what became of its sessions. -/
structure Custody (σ : Type) where
  vigil : Vigil σ
  /-- The sessions that were accepted under their IDs. -/
  owners : List SessionRef := []
  /-- The sessions that have lost their last handle, and are still to be taken out. -/
  leaving : List SessionRef := []

namespace Custody

variable {σ : Type}

/-- A client that has connections and key systems, and no sessions and waiters. -/
def start (service : σ) (settings : List Settings) (systems : List System) : Custody σ where
  vigil := .start service settings systems

variable (c : Custody σ)

/-- One act. -/
def step (a : Act) : Custody σ where
  vigil := c.vigil.step a
  owners := if c.vigil.accepts a then c.owners ++ [c.vigil.world.sessions.length] else c.owners
  leaving := c.vigil.ended a ++ match a with
    | .unregister i => c.leaving.filter fun j => j != i
    | _ => c.leaving

/-- A list of acts. -/
def steps (acts : List Act) : Custody σ := acts.foldl step c

/-- A list of acts from the start. -/
def run (service : σ) (settings : List Settings) (systems : List System) (acts : List Act) :
    Custody σ :=
  steps (start service settings systems) acts

theorem steps_append (acts more : List Act) :
    c.steps (acts ++ more) = (c.steps acts).steps more := List.foldl_append

/-- The record changes nothing of what happens. -/
theorem vigil_steps (acts : List Act) : (c.steps acts).vigil = c.vigil.steps acts := by
  induction acts generalizing c with
  | nil => rfl
  | cons a acts ih => exact ih (c.step a)

variable {c}

/-- Who was accepted stays on record. -/
theorem mem_owners_steps {i : SessionRef} (hi : i ∈ c.owners) (acts : List Act) :
    i ∈ (c.steps acts).owners := by
  induction acts generalizing c with
  | nil => exact hi
  | cons a acts ih =>
    refine ih ?_
    simp only [step]
    split_ifs
    · exact List.mem_append_left _ hi
    · exact hi

/-! ## What every act keeps -/

/-- The tables list the owners. -/
abbrev Kept (c : Custody σ) : Prop := Owned c.owners c.leaving c.vigil.world

theorem kept_start (service : σ) (settings : List Settings) (systems : List System) :
    (start service settings systems).Kept := by
  have hempty (r : RegistryRef) :
      ((start service settings systems).vigil.world.registry r).sessions = [] := by
    simp only [start, Vigil.start, World.registry, List.getD_eq_getElem?_getD, List.getElem?_map]
    cases settings[r]? <;> rfl
  have hnone {r : RegistryRef} {entry : String × SessionRef}
      (h : entry ∈ ((start service settings systems).vigil.world.registry r).sessions) : False := by
    rw [hempty] at h
    cases h
  refine ⟨List.nodup_nil, fun h => absurd h List.not_mem_nil, fun r => ?_,
    fun h => (hnone h).elim, fun h => (hnone h).elim, fun h => (hnone h).elim,
    fun h => absurd h List.not_mem_nil⟩
  rw [hempty]
  exact List.nodup_nil

theorem registries_advance {t t' : Vigil σ} {j : Nat} {x : Waiter} (h : Vigil.Advance t j x t') :
    t'.world.registries = t.world.registries := by
  cases h <;> rfl

/-- An act that makes no session puts nothing into a table. -/
theorem tables_step (t : Vigil σ) {a : Act} (ha : ∀ i k x, a ≠ .adopt i k x) (r : RegistryRef) :
    ((t.step a).world.registry r).sessions.Sublist (t.world.registry r).sessions := by
  cases a with
  | adopt i k x => exact absurd rfl (ha i k x)
  | openSink | drop | wait => exact .refl _
  | hold | report =>
    simp only [Vigil.step]
    split_ifs <;> exact .refl _
  | unregister i =>
    simp only [Vigil.step]
    split_ifs
    · exact .refl _
    · exact World.tables_setRegistry (SessionTable.unregister_sublist ..) r
  | signal n =>
    simp only [Vigil.step]
    split
    · exact World.tables_setRegistry (.refl _) r
    · exact .refl _
  | nudge => exact World.tables_setRegistry (.refl _) r
  | waiter j order expired =>
    simp only [Vigil.step]
    split
    · next x _ =>
      rw [World.registry, registries_advance (Vigil.advance_advance t j x order expired)]
      exact .refl _
    · exact .refl _

/-- A session that was taken out is not in any table. -/
theorem not_mem_unregistered (h : c.Kept) {i : SessionRef} {r : RegistryRef} {id : String}
    (hdead : ¬ (c.vigil.step (.unregister i)).world.isLive i = true) :
    (id, i) ∉ ((c.vigil.step (.unregister i)).world.registry r).sessions := by
  simp only [Vigil.step] at hdead ⊢
  split_ifs at hdead ⊢ with hlive
  · exact absurd hlive hdead
  · exact h.not_mem_unregister

/-- What an act that makes no session leaves in a table is of a session that lives, or is still to
be taken out. -/
theorem late_step (h : c.Kept) {a : Act} (ha : ∀ i k x, a ≠ .adopt i k x) {r : RegistryRef}
    {id : String} {i : SessionRef} (hmem : (id, i) ∈ ((c.vigil.step a).world.registry r).sessions) :
    (c.vigil.step a).world.isLive i = true ∨ i ∈ (c.step a).leaving := by
  have hold := (tables_step c.vigil ha r).subset hmem
  have hlt : i < c.vigil.world.sessions.length := h.known (h.owner hold)
  rcases h.late hold with hlive | hleaving
  · by_cases hnow : (c.vigil.step a).world.isLive i = true
    · exact .inl hnow
    · refine .inr (List.mem_append_left _ (List.mem_filter.2 ⟨List.mem_range.2 hlt, ?_⟩))
      rw [hlive, Bool.eq_false_iff.2 hnow]
      rfl
  · refine or_iff_not_imp_left.2 fun hdead => List.mem_append_right _ ?_
    split
    · next j =>
      refine List.mem_filter.2 ⟨hleaving, ?_⟩
      rw [bne_iff_ne]
      rintro rfl
      exact not_mem_unregistered h hdead hmem
    · exact hleaving

/-- An act that registers no session leaves the owners as they are. -/
theorem owners_step {a : Act} (ha : c.vigil.accepts a = false) : (c.step a).owners = c.owners :=
  if_neg (by rw [ha]; exact Bool.false_ne_true)

theorem kept_step (h : c.Kept) (a : Act) : (c.step a).Kept := by
  have hother (ha : ∀ i k x, a ≠ .adopt i k x) (haccepts : c.vigil.accepts a = false) :
      (c.step a).Kept := by
    rw [Kept, owners_step haccepts]
    exact h.of_later (Vigil.step_step c.vigil a).later (tables_step c.vigil ha) (late_step h ha)
  cases a with
  | adopt i k x =>
    have hadopt : Owned (if c.vigil.accepts (.adopt i k x) then
        c.owners ++ [c.vigil.world.sessions.length] else c.owners) c.leaving
        (c.vigil.step (.adopt i k x)).world := by
      by_cases hpossible : k < c.vigil.world.sinks.length ∧
          (c.vigil.world.sink k).registry = (c.vigil.world.system i).registry
      · have hstep : c.vigil.step (.adopt i k x) = { c.vigil with
            world := ((Action.adoptSession i k x).exec c.vigil.world).2 } := if_pos hpossible
        rw [Vigil.accepts, decide_eq_true hpossible, Bool.true_and, hstep]
        exact h.adopt i k x
      · have hstep : c.vigil.step (.adopt i k x) = c.vigil := if_neg hpossible
        rw [Vigil.accepts, decide_eq_false hpossible, Bool.false_and, hstep]
        exact h
    exact hadopt.mono_late (List.subset_append_right _ _)
  | _ => exact hother (fun _ _ _ => nofun) rfl

theorem kept_steps (h : c.Kept) (acts : List Act) : (c.steps acts).Kept := by
  induction acts generalizing c with
  | nil => exact h
  | cons a acts ih => exact ih (kept_step h a)

theorem kept_run (service : σ) (settings : List Settings) (systems : List System)
    (acts : List Act) : (run service settings systems acts).Kept :=
  kept_steps (kept_start service settings systems) acts

/-! ## Owning an ID -/

/-- A session that was accepted is found under its ID for as long as it lives. -/
theorem owner_found (h : c.Kept) {i : SystemRef} {k : SinkRef} {x : RemoteSession}
    (haccepts : c.vigil.accepts (.adopt i k x) = true) (more : List Act)
    (hlive : ((c.step (.adopt i k x)).steps more).vigil.world.isLive
      c.vigil.world.sessions.length = true) :
    ((c.step (.adopt i k x)).steps more).vigil.world.sessionById?
      (c.vigil.world.system i).registry x.id = some c.vigil.world.sessions.length := by
  let n := c.vigil.world.sessions.length
  let made := c.step (.adopt i k x)
  have hpossible := of_decide_eq_true (Bool.and_eq_true_iff.1 haccepts).1
  have hstep : made.vigil = { c.vigil with
      world := ((Action.adoptSession i k x).exec c.vigil.world).2 } := if_pos hpossible
  have hsession : ∃ s, made.vigil.world.sessions[n]? = some s ∧ s.id = x.id ∧
      s.registry = (c.vigil.world.system i).registry := by
    rw [hstep]
    exact ⟨_, List.getElem?_concat_length, rfl, rfl⟩
  have howner : n ∈ made.owners := by
    have howners : made.owners = c.owners ++ [n] := if_pos haccepts
    rw [howners]
    exact List.mem_append_right _ (List.mem_singleton_self n)
  obtain ⟨s, hs, hid, hregistry⟩ := hsession
  obtain ⟨s', hs', hsame⟩ := (Vigil.later_steps made.vigil more).sessions hs
  rw [← vigil_steps] at hs'
  refine (kept_steps (kept_step h (.adopt i k x)) more).sessionById?_eq_some_iff.2
    ⟨mem_owners_steps howner more, World.answersTo_iff.2 ⟨hlive, ?_⟩⟩
  rw [World.session_of_getElem? hs', hsame.registry, hsame.id]
  exact ⟨hregistry, hid⟩

/-- In every run: a session that is accepted is found under its ID as long as it lives, whatever
happens to others; of the living sessions one at most owns an ID; the living sessions that are
counted are those that were accepted; and when nothing is left to be taken out, every entry of a
table is of a living session. -/
theorem ownership (service : σ) (settings : List Settings) (systems : List System)
    (acts : List Act) :
    let c := run service settings systems acts
    let w := c.vigil.world
    (∀ i k x, c.vigil.accepts (.adopt i k x) = true → ∀ more,
      let w' := (run service settings systems (acts ++ .adopt i k x :: more)).vigil.world
      w'.isLive w.sessions.length = true →
        w'.sessionById? (w.system i).registry x.id = some w.sessions.length) ∧
    (∀ r id, ∀ i ∈ c.owners, ∀ j ∈ c.owners,
      w.answersTo r id i = true → w.answersTo r id j = true → i = j) ∧
    (∀ r, (w.livingSessions r).length = (c.owners.filter (w.livesAt r)).length) ∧
    (c.leaving = [] → ∀ r, ∀ entry ∈ (w.registry r).sessions, w.isLive entry.2 = true) := by
  intro c w
  have h : c.Kept := kept_run service settings systems acts
  refine ⟨fun i k x haccepts more => ?_, fun r id i hi j hj => h.eq_of_answersTo hi hj,
    fun r => (h.livingSessions_perm r).length_eq, fun hnone r entry hmem => ?_⟩
  · rw [run, steps_append]
    exact owner_found h haccepts more
  · refine (h.late hmem).resolve_right ?_
    rw [hnone]
    exact List.not_mem_nil

/-- Two sessions get the same ID, and the second one is turned away. The first one is given up, but
before it is taken out a third one gets the ID, and the one that was turned away is given up. -/
def contested : List Act :=
  [.openSink 0 .nobody, .adopt 0 0 { index := 0, id := "x", bufferId := "a", extended := false },
    .adopt 0 0 { index := 1, id := "x", bufferId := "b", extended := false }, .drop 0]

/-- The one that comes third. -/
def successor : RemoteSession := { index := 2, id := "x", bufferId := "c", extended := false }

/-- The third session is found, although the first one and the one that was turned away are taken
out under the same ID. -/
theorem ownership_contested :
    (run () [{ connector := "" }] [{}] contested).vigil.accepts (.adopt 0 0 successor) = true ∧
      (run () [{ connector := "" }] [{}] contested).leaving = [0] ∧
      (run () [{ connector := "" }] [{}] (contested ++ .adopt 0 0 successor ::
        [.unregister 0, .drop 1, .unregister 1])).vigil.world.sessionById? 0 "x" = some 2 :=
  ⟨by decide, by decide, (ownership () [{ connector := "" }] [{}] contested).1 0 0 successor
    (by decide) [.unregister 0, .drop 1, .unregister 1] (by decide)⟩

end Custody

end Client

end ContentDecryption
