import ContentDecryption.Proofs.Callback.Threads

/-!
# Callbacks and a handle that is given up

Whoever gives a handle up detaches its bridge first, and detaching returns when no
other thread is delivering. What a thread delivers by dispatching an event is over by
then: no callback of this kind runs on another thread, and none is called any more.

A replay is on no list, and looks at the bridge only once, before its first event. So
detaching does not wait for a replay on another thread, and a replay goes on calling
callbacks when one of them has given the handle up. Both are ruled out if attaching has
returned before anybody gives the handle up.

Main definitions:

* `Threads.Over`: no dispatched event reaches a callback any more;
* `Threads.Accounted`: the list of those that are delivering says how many dispatched events each
  thread is in the middle of, and once detaching has returned they are over;
* `Threads.Settled`: attaching has returned.

Main results:

* `Threads.accounted_run`: this holds in every run;
* `Threads.started_after_release`: callbacks called after detaching has returned are replayed ones;
* `Threads.no_callback_after_release`: if attaching has returned before, there are none, and none
  runs on another thread.
-/

namespace ContentDecryption

namespace Callback

/-- Whether a thread is on the list of those that are delivering because of this. -/
def Frame.isDispatch : Frame → Bool
  | .offered _ => true
  | .inside .dispatch => true
  | .leaving => true
  | _ => false

/-- How many dispatched events a thread is in the middle of. -/
def dispatches (s : List Frame) : Nat := s.countP Frame.isDispatch

theorem dispatches_cons_of_pos {f : Frame} (h : f.isDispatch = true) (s : List Frame) :
    dispatches (f :: s) = dispatches s + 1 := List.countP_cons_of_pos h

theorem dispatches_cons_of_neg {f : Frame} (h : f.isDispatch = false) (s : List Frame) :
    dispatches (f :: s) = dispatches s := List.countP_cons_of_neg (by simp [h])

theorem dispatches_le_cons (f : Frame) (s : List Frame) : dispatches s ≤ dispatches (f :: s) :=
  (List.sublist_cons_self f s).countP_le

/-- A thread that is in the middle of none is not about to call a callback, nor inside one. -/
theorem not_mem_of_dispatches {s : List Frame} (h : dispatches s = 0) {f : Frame}
    (hf : f.isDispatch = true) : f ∉ s := fun hmem => List.countP_eq_zero.1 h f hmem hf

namespace Threads

variable {t t' : Threads} {thread : ThreadRef}

/-! ## The list of those that are delivering -/

/-- No dispatched event reaches a callback any more, and those that run do so on one thread. -/
structure Over (thread : ThreadRef) (t : Threads) : Prop where
  detached : t.bridge.target = .detached
  elsewhere : ∀ k, k ≠ thread → dispatches (t.stack k) = 0
  not_offered : ∀ e, .offered e ∉ t.stack thread

/-- The list of those that are delivering is right, who detaches has told the bridge, and who has
detached it has waited for the others. -/
structure Accounted (t : Threads) : Prop where
  orderly : ∀ k, Orderly (t.stack k)
  counted : ∀ k, t.bridge.delivering.count k = dispatches (t.stack k)
  detaching : ∀ k, .detaching ∈ t.stack k → t.bridge.target = .detached
  ended : ∀ owner, t.released = some owner → t.Over owner

theorem accounted_start (name : String) (callbacks : List EventKind) :
    (start name callbacks).Accounted where
  orderly := fun _ => .nested .nil
  counted := fun _ => rfl
  detaching := fun _ h => nomatch h
  ended := fun _ h => nomatch h

/-- A thread goes on, and is in the middle of as many dispatched events as before. -/
theorem counted_setStack (h : ∀ k, t.bridge.delivering.count k = dispatches (t.stack k))
    {s : List Frame} (hs : dispatches s = dispatches (t.stack thread)) (k : ThreadRef) :
    t.bridge.delivering.count k = dispatches ((t.setStack thread s).stack k) := by
  rw [stack_setStack, h]
  split_ifs with hk
  · rw [hk, hs]
  · rfl

theorem Step.counted (hs : Step t t')
    (h : ∀ k, t.bridge.delivering.count k = dispatches (t.stack k)) (k : ThreadRef) :
    t'.bridge.delivering.count k = dispatches (t'.stack k) := by
  cases hs with
  | stay | keep => exact h k
  | @offer thread _ e =>
    show (thread :: t.bridge.delivering).count k = dispatches ((t.setStack thread _).stack k)
    rw [stack_setStack, List.count_cons, h]
    by_cases hk : k = thread
    · subst hk
      rw [if_pos rfl, dispatches_cons_of_pos rfl]
      simp
    · rw [if_neg hk]
      simp [Ne.symm hk]
  | attach | release => exact counted_setStack h (dispatches_cons_of_neg rfl _) k
  | call _ top =>
    refine counted_setStack h ?_ k
    rw [top, dispatches_cons_of_pos rfl, dispatches_cons_of_pos rfl]
  | finish top dispatch =>
    refine counted_setStack h ?_ k
    rw [top, dispatches_cons_of_pos rfl, dispatches_cons_of_pos]
    rcases dispatch with rfl | ⟨e, rfl⟩ <;> rfl
  | @leave thread s top =>
    show (t.bridge.delivering.erase thread).count k = dispatches ((t.setStack thread s).stack k)
    rw [stack_setStack]
    by_cases hk : k = thread
    · subst hk
      rw [if_pos rfl, List.count_erase_self, h, top, dispatches_cons_of_pos rfl]
      rfl
    · rw [if_neg hk, List.count_erase_of_ne hk, h]
  | replay _ top | skip top | attached top | resume top | released top =>
    refine counted_setStack h ?_ k
    rw [top]
    rfl

/-- Only a bridge that is detached by then is being detached. -/
theorem Step.detaching (hs : Step t t')
    (h : ∀ k, .detaching ∈ t.stack k → t.bridge.target = .detached) (k : ThreadRef)
    (hmem : .detaching ∈ t'.stack k) : t'.bridge.target = .detached := by
  have hsame {thread : ThreadRef} {s : List Frame}
      (hs : .detaching ∈ s → .detaching ∈ t.stack thread)
      (hmem : .detaching ∈ (t.setStack thread s).stack k) : t.bridge.target = .detached := by
    rcases mem_setStack hmem with hmem | hmem
    · exact h _ (hs hmem)
    · exact h _ hmem
  cases hs with
  | stay => exact h k hmem
  | release => rfl
  | keep _ htarget => exact absurd (htarget ▸ h k hmem) nofun
  | offer _ _ htarget | attach _ _ htarget =>
    refine absurd (hsame (fun hmem => ?_) hmem) (htarget ▸ nofun)
    simpa using hmem
  | call _ top | finish top | leave top | replay _ top | skip top | resume top | attached top
  | released top =>
    refine hsame (fun hmem => ?_) hmem
    rw [top]
    exact List.mem_cons_of_mem _ (by simpa using hmem)

/-! ## After detaching has returned -/

namespace Over

variable {owner : ThreadRef}

/-- Only the thread that has detached the bridge is in the middle of dispatched events. -/
theorem eq_owner (h : t.Over owner) {f : Frame} (hf : f.isDispatch = true)
    (hmem : f ∈ t.stack thread) : thread = owner := by
  by_contra hne
  exact not_mem_of_dispatches (h.elsewhere thread hne) hf hmem

/-- No thread is about to call the callback for a dispatched event. -/
theorem not_offered_mem (h : t.Over owner) (e : SessionEvent) : .offered e ∉ t.stack thread := by
  intro hmem
  have hthread := h.eq_owner rfl hmem
  exact h.not_offered e (hthread ▸ hmem)

/-- A thread goes on, and no event was dispatched. -/
theorem of_stack (h : t.Over owner) {s : List Frame}
    (htarget : t'.bridge.target = t.bridge.target) (hstack : t'.stack = (t.setStack thread s).stack)
    (hcount : dispatches s ≤ dispatches (t.stack thread))
    (hoffered : ∀ e, .offered e ∈ s → .offered e ∈ t.stack thread) : t'.Over owner where
  detached := htarget.trans h.detached
  elsewhere := fun k hk => by
    rw [hstack, stack_setStack]
    split_ifs with hthread
    · have := h.elsewhere k hk
      subst hthread
      omega
    · exact h.elsewhere k hk
  not_offered := fun e hmem => by
    rw [hstack] at hmem
    rcases mem_setStack hmem with hmem | hmem
    · exact h.not_offered_mem e (hoffered e hmem)
    · exact h.not_offered e hmem

theorem step (h : t.Over owner) (hs : Step t t') : t'.Over owner := by
  cases hs with
  | stay => exact h
  | keep _ htarget | offer _ _ htarget | attach _ _ htarget | release _ htarget =>
    exact absurd (h.detached.symm.trans htarget) nofun
  | @call thread e s e' top =>
    have hmem : .offered e ∈ t.stack thread := top ▸ List.mem_cons_self
    exact (h.not_offered_mem e hmem).elim
  | finish top dispatch =>
    refine h.of_stack rfl rfl (Nat.le_of_eq ?_) (fun e hmem => ?_)
    · rw [top, dispatches_cons_of_pos rfl, dispatches_cons_of_pos]
      rcases dispatch with rfl | ⟨e, rfl⟩ <;> rfl
    · rw [top]
      exact List.mem_cons_of_mem _ (by simpa using hmem)
  | leave top | replay _ top | skip top | resume top | attached top | released top =>
    refine h.of_stack rfl rfl ?_ (fun e hmem => ?_)
    · rw [top]
      exact dispatches_le_cons _ _
    · rw [top]
      simpa using hmem

/-- A callback that is still called is called for an event that was kept back. -/
theorem started_step (h : t.Over owner) (hs : Step t t') :
    t'.started = t.started ∨
      ∃ x : Start, x.route = .replay ∧ (∃ queue, .replaying queue ∈ t.stack x.thread) ∧
        t'.started = x :: t.started := by
  cases hs with
  | @call thread e s e' top =>
    have hmem : .offered e ∈ t.stack thread := top ▸ List.mem_cons_self
    exact (h.not_offered_mem e hmem).elim
  | @replay thread e queue s e' top =>
    refine .inr ⟨⟨thread, .replay, e'⟩, rfl, ⟨e :: queue, ?_⟩, rfl⟩
    rw [top]
    exact List.mem_cons_self
  | _ => exact .inl rfl

end Over

/-- Only the act with which detaching returns says so. -/
theorem Step.released_cases (hs : Step t t') :
    t'.released = t.released ∨ ∃ thread s, t.stack thread = .detaching :: s ∧
      t.bridge.isQuiet thread = true ∧
        t' = { t.setStack thread s with released := some thread } := by
  cases hs with
  | released top hquiet => exact .inr ⟨_, _, top, hquiet, rfl⟩
  | _ => exact .inl rfl

/-- When detaching returns, no other thread is in the middle of a dispatched event. -/
theorem Accounted.over_of_quiet (h : t.Accounted) {s : List Frame}
    (top : t.stack thread = .detaching :: s) (hquiet : t.bridge.isQuiet thread = true) :
    Over thread { t.setStack thread s with released := some thread } where
  detached := h.detaching thread (top ▸ List.mem_cons_self)
  elsewhere := fun k hk => by
    show dispatches ((t.setStack thread s).stack k) = 0
    rw [stack_setStack, if_neg hk, ← h.counted, List.count_eq_zero]
    intro hmem
    exact hk (by simpa using List.all_eq_true.1 hquiet k hmem)
  not_offered := fun e => by
    show .offered e ∉ (t.setStack thread s).stack thread
    rw [stack_setStack, if_pos rfl]
    have horderly := h.orderly thread
    rw [top] at horderly
    exact (horderly.nested_tail nofun).not_offered e

theorem Accounted.step (h : t.Accounted) (hs : Step t t') : t'.Accounted where
  orderly := hs.orderly h.orderly
  counted := hs.counted h.counted
  detaching := hs.detaching h.detaching
  ended := by
    intro owner howner
    rcases hs.released_cases with hsame | ⟨thread, s, top, hquiet, rfl⟩
    · exact (h.ended owner (hsame ▸ howner)).step hs
    · cases howner
      exact h.over_of_quiet top hquiet

theorem accounted_run (name : String) (callbacks : List EventKind) (acts : List Act) :
    (run name callbacks acts).Accounted :=
  steps_induction Accounted.step acts (accounted_start name callbacks)

/-- The callbacks that are called after detaching has returned are called by a replay. -/
theorem started_after_release {name : String} {callbacks : List EventKind} {acts : List Act}
    {owner : ThreadRef} (h : (run name callbacks acts).released = some owner) (more : List Act) :
    ∃ new : List Start, (∀ x ∈ new, x.route = .replay) ∧
      (run name callbacks (acts ++ more)).started = new ++ (run name callbacks acts).started := by
  rw [run, steps_append]
  refine (steps_induction (P := fun t => t.Over owner ∧ ∃ new : List Start,
    (∀ x ∈ new, x.route = .replay) ∧ t.started = new ++ (run name callbacks acts).started) ?_ more
      ⟨(accounted_run name callbacks acts).ended owner h, [], nofun, rfl⟩).2
  rintro t t' ⟨hover, new, hnew, hstarted⟩ hs
  refine ⟨hover.step hs, ?_⟩
  rcases hover.started_step hs with hsame | ⟨x, hroute, -, hcons⟩
  · exact ⟨new, hnew, hsame.trans hstarted⟩
  · exact ⟨x :: new, List.forall_mem_cons.2 ⟨hroute, hnew⟩, hcons.trans (by rw [hstarted]; rfl)⟩

/-! ## Attaching first -/

/-- The bridge was attached, and attaching has returned. -/
structure Settled (t : Threads) : Prop where
  not_pending : ∀ queue, t.bridge.target ≠ .pending queue
  not_replaying : ∀ k queue, .replaying queue ∉ t.stack k

namespace Settled

/-- A thread goes on, and does not attach the bridge. -/
theorem of_stack (h : t.Settled) {s : List Frame}
    (htarget : ∀ queue, t'.bridge.target ≠ .pending queue)
    (hstack : t'.stack = (t.setStack thread s).stack)
    (hs : ∀ queue, .replaying queue ∈ s → .replaying queue ∈ t.stack thread) : t'.Settled where
  not_pending := htarget
  not_replaying := fun k queue hmem => by
    rw [hstack] at hmem
    rcases mem_setStack hmem with hmem | hmem
    · exact h.not_replaying thread queue (hs queue hmem)
    · exact h.not_replaying k queue hmem

theorem step (h : t.Settled) (hs : Step t t') : t'.Settled := by
  have hreplaying {thread : ThreadRef} {queue : List SessionEvent} {s : List Frame}
      (top : t.stack thread = .replaying queue :: s) : False :=
    h.not_replaying thread queue (top ▸ List.mem_cons_self)
  cases hs with
  | stay => exact h
  | keep _ htarget | attach _ _ htarget => exact absurd htarget (h.not_pending _)
  | offer _ _ htarget => exact h.of_stack (by simp [htarget]) rfl (by simp)
  | release _ htarget => exact h.of_stack (by simp [Bridge.detach]) rfl (by simp)
  | replay _ top | skip top | attached top => exact (hreplaying top).elim
  | call _ top | finish top | leave top | resume top | released top =>
    refine h.of_stack h.not_pending rfl (fun queue hmem => ?_)
    rw [top]
    exact List.mem_cons_of_mem _ (by simpa using hmem)

theorem steps (h : t.Settled) (acts : List Act) : (t.steps acts).Settled :=
  steps_induction step acts h

end Settled

/-- Once both attaching and detaching have returned, nothing changes about that any more, and no
callback is called. -/
theorem Over.steps_of_settled {owner : ThreadRef} (h : t.Over owner) (hsettled : t.Settled)
    (acts : List Act) : (t.steps acts).Over owner ∧ (t.steps acts).Settled ∧
      (t.steps acts).started = t.started := by
  refine steps_induction
    (P := fun t' => t'.Over owner ∧ t'.Settled ∧ t'.started = t.started) ?_ acts ⟨h, hsettled, rfl⟩
  rintro u u' ⟨hover, hsettled, hstarted⟩ hs
  refine ⟨hover.step hs, hsettled.step hs, ?_⟩
  rcases hover.started_step hs with hsame | ⟨x, -, ⟨queue, hqueue⟩, -⟩
  · exact hsame.trans hstarted
  · exact (hsettled.not_replaying x.thread queue hqueue).elim

/-- If attaching has returned, then from the moment detaching has returned as well no callback runs
on another thread, and none is called any more. -/
theorem no_callback_after_release {name : String} {callbacks : List EventKind}
    {before after : List Act} {owner : ThreadRef} (hattached : (run name callbacks before).Settled)
    (hreleased : (run name callbacks (before ++ after)).released = some owner)
    (more : List Act) :
    (∀ k, k ≠ owner → ∀ route,
        .inside route ∉ (run name callbacks (before ++ after ++ more)).stack k) ∧
      (run name callbacks (before ++ after ++ more)).started =
        (run name callbacks (before ++ after)).started := by
  have hsettled : (run name callbacks (before ++ after)).Settled := by
    rw [run, steps_append]
    exact hattached.steps after
  have hover := (accounted_run name callbacks (before ++ after)).ended owner hreleased
  have hend := hover.steps_of_settled hsettled more
  rw [run, ← steps_append] at hend
  obtain ⟨hover, hsettled, hstarted⟩ := hend
  refine ⟨fun k hk route hmem => ?_, hstarted⟩
  cases route with
  | dispatch => exact not_mem_of_dispatches (hover.elsewhere k hk) rfl hmem
  | replay =>
    obtain ⟨queue, hqueue⟩ := ((accounted_run name callbacks _).orderly k).replaying_mem hmem
    exact hsettled.not_replaying k queue hqueue

/-- A thread gives the handle up while a callback runs on another thread, and waits for it. -/
theorem no_callback_after_waiting :
    (run "s" [.keyUpdated]
      [.notify 1 (.keyUpdated [1]), .attach 0 7, .go 0, .go 0, .go 0]).Settled ∧
    (run "s" [.keyUpdated] ([.notify 1 (.keyUpdated [1]), .attach 0 7, .go 0, .go 0, .go 0] ++
      [.notify 1 (.keyUpdated [2]), .go 1, .release 0, .go 0, .go 1, .go 1, .go 0])).released =
        some 0 ∧
    (run "s" [.keyUpdated] ([.notify 1 (.keyUpdated [1]), .attach 0 7, .go 0, .go 0, .go 0] ++
      [.notify 1 (.keyUpdated [2]), .go 1, .release 0, .go 0, .go 1, .go 1, .go 0] ++
      [.notify 1 (.keyUpdated [3]), .go 1])).started =
        [⟨1, .dispatch, .keyUpdated [2]⟩, ⟨0, .replay, .keyUpdated [1]⟩] := by
  have hattached : (run "s" [.keyUpdated]
      [.notify 1 (.keyUpdated [1]), .attach 0 7, .go 0, .go 0, .go 0]).Settled := by
    refine ⟨fun queue => nofun, fun k queue => ?_⟩
    cases k with
    | zero => exact List.not_mem_nil
    | succ => exact List.not_mem_nil
  exact ⟨hattached, rfl, (no_callback_after_release hattached rfl _).2⟩

/-- A callback of a replay gives the handle up, and detaching returns. Then the replay calls the
next callback. -/
theorem replay_after_release :
    (run "s" [.keyUpdated, .keysUpdated] [.notify 0 (.keyUpdated [1]), .notify 0 .keysUpdated,
      .attach 0 7, .go 0, .release 0, .go 0]).released = some 0 ∧
    (run "s" [.keyUpdated, .keysUpdated] [.notify 0 (.keyUpdated [1]), .notify 0 .keysUpdated,
      .attach 0 7, .go 0, .release 0, .go 0]).started = [⟨0, .replay, .keyUpdated [1]⟩] ∧
    (run "s" [.keyUpdated, .keysUpdated] ([.notify 0 (.keyUpdated [1]), .notify 0 .keysUpdated,
      .attach 0 7, .go 0, .release 0, .go 0] ++ [.go 0, .go 0])).started =
        [⟨0, .replay, .keysUpdated⟩, ⟨0, .replay, .keyUpdated [1]⟩] := by
  decide

/-- A thread gives the handle up while a replay runs on another thread, and does not wait for it. -/
example :
    (run "s" [.keyUpdated] [.notify 0 (.keyUpdated [1]), .attach 0 7, .go 0, .release 1,
      .go 1]).released = some 1 ∧
    (run "s" [.keyUpdated] [.notify 0 (.keyUpdated [1]), .attach 0 7, .go 0, .release 1,
      .go 1]).stack 0 = [.inside .replay, .replaying []] := by
  decide

end Threads

end Callback

end ContentDecryption
