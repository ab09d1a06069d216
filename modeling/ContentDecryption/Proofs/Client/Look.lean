import ContentDecryption.Proofs.Client.Vigil

/-!
# A look that nothing disturbs

A look goes through the table, and then through the sessions that it holds, one act at
a time. If nothing else happens meanwhile it comes to what a look at one glance comes
to: the first living session of the table that answers the query, or none.

Main definitions:

* `Holding`: a world in which a look holds some sessions, and nothing else is different.

Main results:

* `Vigil.gather_steps`: the look comes to hold the living sessions of the table;
* `Vigil.ask_steps`: asking the sessions that it holds comes to the first that answers;
* `Vigil.look_steps`: the whole look.
-/

namespace ContentDecryption

namespace Client

/-- A look holds some living sessions, and nothing else is different. -/
structure Holding {σ : Type} (held : List SessionRef) (w w' : World σ) : Prop where
  registries : w'.registries = w.registries
  waiters : w'.waiters = w.waiters
  sinks : w'.sinks = w.sinks
  sessions : ∀ k, w'.sessions[k]? =
    (w.sessions[k]?).map fun s : Session => { s with handles := s.handles + held.count k }
  live : ∀ k ∈ held, w.isLive k = true

namespace Holding

variable {σ : Type} {held : List SessionRef} {w w' : World σ} {i : SessionRef}

protected theorem refl (w : World σ) : Holding [] w w where
  registries := rfl
  waiters := rfl
  sinks := rfl
  sessions := by
    intro k
    cases w.sessions[k]? <;> rfl
  live := fun _ hk => nomatch hk

theorem isLive_eq (h : Holding held w w') (k : SessionRef) : w'.isLive k = w.isLive k := by
  by_cases hk : k ∈ held
  · obtain ⟨s, hs, hheld⟩ := World.isLive_iff.1 (h.live k hk)
    rw [h.live k hk, World.isLive_iff, h.sessions, hs]
    exact ⟨_, rfl, Nat.lt_of_lt_of_le hheld (Nat.le_add_right ..)⟩
  · rw [World.isLive, h.sessions, List.count_eq_zero_of_not_mem hk]
    cases hs : w.sessions[k]? with
    | none => rw [World.isLive, hs]; rfl
    | some s => rw [World.isLive, hs]; rfl

theorem answers_eq (h : Holding held w w') (q : KeyQuery) (k : SessionRef) :
    w'.answers q k = w.answers q k := by
  have hsession : (w'.session k).system = (w.session k).system ∧
      (w'.session k).sink = (w.session k).sink := by
    simp only [World.session, List.getD_eq_getElem?_getD, h.sessions]
    cases w.sessions[k]? <;> exact ⟨rfl, rfl⟩
  simp only [World.answers, World.ledger, World.sink, hsession.1, hsession.2, h.sinks]

/-- The look takes a session. -/
theorem hold (h : Holding held w w') (hlive : w.isLive i = true) :
    Holding (held ++ [i]) w (w'.holdSession i) where
  registries := h.registries
  waiters := h.waiters
  sinks := h.sinks
  sessions := by
    intro k
    show (w'.sessions.modify i _)[k]? = _
    rw [List.getElem?_modify, h.sessions, List.count_append, List.count_singleton]
    cases w.sessions[k]? with
    | none => rfl
    | some s =>
      by_cases hik : i = k
      · simp [hik, Nat.add_assoc]
      · simp [hik]
  live := by
    intro k hk
    rcases List.mem_append.1 hk with hk | hk
    · exact h.live k hk
    · rwa [List.mem_singleton.1 hk]

/-- The look lets go of the session that it has asked. -/
theorem leave (h : Holding (i :: held) w w') : Holding held w (w'.leaveSession i) where
  registries := h.registries
  waiters := h.waiters
  sinks := h.sinks
  sessions := by
    intro k
    show (w'.sessions.modify i _)[k]? = _
    rw [List.getElem?_modify, h.sessions, List.count_cons]
    cases w.sessions[k]? with
    | none => rfl
    | some s =>
      by_cases hik : i = k
      · simp [hik, ← Nat.add_assoc]
      · simp [hik]
  live := fun k hk => h.live k (List.mem_cons_of_mem i hk)

end Holding

namespace Vigil

variable {σ : Type} {t : Vigil σ} {w : World σ} {j : Nat} {x : Waiter} {seen : UInt64}
  {held : List SessionRef} (order : List SessionRef) (expired : Bool)

/-- The act of the waiter at a vigil where it is this waiter's turn. -/
theorem step_waiter (hx : t.world.waiters[j]? = some x) :
    t.step (.waiter j order expired) = t.advance j x order expired := by
  simp only [step, hx]

/-- The look comes to hold the living sessions among those that it has not come to. -/
theorem gather_steps (hx : w.waiters[j]? = some x) (hstage : x.stage = .looking seen)
    {left : List SessionRef} (hlook : t.looks j = some ⟨left, held⟩)
    (h : Holding held w t.world) :
    ∃ t', t.steps (List.replicate left.length (.waiter j order expired)) = t' ∧
      t'.looks j = some ⟨[], held ++ left.filter w.isLive⟩ ∧
      Holding (held ++ left.filter w.isLive) w t'.world := by
  induction left generalizing t held with
  | nil =>
    refine ⟨t, rfl, ?_⟩
    rw [List.filter_nil, List.append_nil]
    exact ⟨hlook, h⟩
  | cons i left ih =>
    have hact : t.step (.waiter j order expired) = t.advance j x order expired :=
      step_waiter order expired (h.waiters ▸ hx)
    have hadvance : t.advance j x order expired =
        if t.world.isLive i then
          { t with
            world := t.world.holdSession i
            looks := Function.update t.looks j (some ⟨left, held ++ [i]⟩) }
        else { t with looks := Function.update t.looks j (some ⟨left, held⟩) } := by
      rw [advance, hstage, hlook]
    rw [List.length_cons, List.replicate_succ]
    by_cases hlive : w.isLive i = true
    · rw [List.filter_cons_of_pos hlive]
      have hstep : t.step (.waiter j order expired) = _ :=
        (hact.trans hadvance).trans (if_pos (by rw [h.isLive_eq, hlive]))
      have hlook' : (t.step (.waiter j order expired)).looks j = some ⟨left, held ++ [i]⟩ := by
        rw [hstep]
        exact Function.update_self ..
      obtain ⟨t', ht', hdone⟩ := ih hlook' (by rw [hstep]; exact h.hold hlive)
      rw [List.append_assoc] at hdone
      exact ⟨t', ht', hdone⟩
    · rw [List.filter_cons_of_neg hlive]
      have hstep : t.step (.waiter j order expired) = _ :=
        (hact.trans hadvance).trans (if_neg (by rw [h.isLive_eq]; exact hlive))
      exact ih (t := t.step (.waiter j order expired))
        (by rw [hstep]; exact Function.update_self ..) (by rw [hstep]; exact h)

/-- Where a waiter stands after its step. -/
theorem waiters_stepWaiter {w' : World σ} (hx : w'.waiters[j]? = some x)
    (found : Option SessionRef) :
    (w'.stepWaiter j found expired).waiters[j]? =
      some { x with stage := x.stage.step (w'.registry x.registry).signal found expired } := by
  show (w'.waiters.modify j _)[j]? = _
  rw [List.getElem?_modify, hx]
  exact congrArg some (if_pos rfl)

/-- The look asks the sessions that it holds, and the first that answers is found. -/
theorem ask_steps (hx : w.waiters[j]? = some x) (hstage : x.stage = .looking seen)
    (hlook : t.looks j = some ⟨[], held⟩) (h : Holding held w t.world) :
    ∃ n, (t.steps (List.replicate n (.waiter j order expired))).world.waiters[j]? =
      some { x with
        stage := x.stage.step (w.registry x.registry).signal (held.find? (w.answers x.query))
          expired } := by
  induction held generalizing t with
  | nil =>
    have hstep : t.step (.waiter j order expired) =
        { t with
          world := t.world.stepWaiter j none expired
          looks := Function.update t.looks j none } := by
      rw [step_waiter order expired (h.waiters ▸ hx), advance, hstage, hlook]
    refine ⟨1, ?_⟩
    show (t.step (.waiter j order expired)).world.waiters[j]? = _
    rw [hstep, waiters_stepWaiter expired (h.waiters ▸ hx), World.registry, h.registries]
    rfl
  | cons i held ih =>
    have hadvance : t.step (.waiter j order expired) =
        if t.world.answers x.query i then
          { t with
            world := t.world.stepWaiter j (some i) expired
            looks := Function.update t.looks j (some ⟨[], held⟩) }
        else
          { t with
            world := t.world.leaveSession i
            looks := Function.update t.looks j (some ⟨[], held⟩) } := by
      rw [step_waiter order expired (h.waiters ▸ hx), advance, hstage, hlook]
    rw [h.answers_eq] at hadvance
    by_cases hanswers : w.answers x.query i = true
    · refine ⟨1, ?_⟩
      show (t.step (.waiter j order expired)).world.waiters[j]? = _
      rw [hadvance, if_pos hanswers, List.find?_cons_of_pos hanswers,
        waiters_stepWaiter expired (h.waiters ▸ hx), World.registry, h.registries]
      rfl
    · rw [if_neg hanswers] at hadvance
      rw [List.find?_cons_of_neg hanswers]
      obtain ⟨n, hn⟩ := ih (t := t.step (.waiter j order expired))
        (by rw [hadvance]; exact Function.update_self ..) (by rw [hadvance]; exact h.leave)
      exact ⟨n + 1, hn⟩

/-- A look that nothing disturbs comes to the look at one glance. -/
theorem look_steps (hx : t.world.waiters[j]? = some x) (hstage : x.stage = .looking seen)
    (hidle : t.looks j = none) :
    ∃ acts : List Act, (∀ a ∈ acts, ∃ order, a = .waiter j order expired) ∧
      (t.steps acts).world.waiters[j]? =
        some { x with
          stage := x.stage.step (t.world.registry x.registry).signal
            (t.world.look x.registry x.query) expired } := by
  let order := (t.world.registry x.registry).sessions.map Prod.snd
  let begun : Vigil σ :=
    { t with looks := Function.update t.looks j (some { left := order }) }
  have hbegin : t.step (.waiter j order expired) = begun := by
    rw [step_waiter order expired hx, advance, hstage, hidle]
    exact if_pos (List.Perm.refl order)
  have hlook : begun.looks j = some ⟨order, []⟩ := Function.update_self ..
  obtain ⟨gathered, hgather, hlook, hholding⟩ :=
    gather_steps order expired hx hstage hlook (.refl t.world)
  obtain ⟨n, hask⟩ := ask_steps order expired hx hstage hlook hholding
  have hfound : t.world.look x.registry x.query =
      (order.filter t.world.isLive).find? (t.world.answers x.query) :=
    List.head?_filter ..
  refine ⟨.waiter j order expired :: (List.replicate order.length (.waiter j order expired) ++
    List.replicate n (.waiter j order expired)), ?_, ?_⟩
  · intro a ha
    rcases List.mem_cons.1 ha with rfl | ha
    · exact ⟨order, rfl⟩
    · rcases List.mem_append.1 ha with ha | ha
      · exact ⟨order, (List.mem_replicate.1 ha).2⟩
      · exact ⟨order, (List.mem_replicate.1 ha).2⟩
  · rw [hfound]
    show ((t.step _).steps _).world.waiters[j]? = _
    rw [hbegin, steps_append, hgather]
    exact hask

end Vigil

end Client

end ContentDecryption
