import ContentDecryption.Proofs.Channel.Agreement

/-!
# Requests that are given up

A call that times out takes its request back, or leaves it to the server that has it.
Either way the request is served once at most, and a request that was taken back is
never served. Between calls the channel is free, or a server is still at a request that
was left to it: nothing else can keep the next call from the channel.

Main results:

* `Traffic.callers_run_append`: nothing happens any more to a call that is over;
* `Traffic.ended_run`: a call whose request was taken gets its answer, or it times out;
* `Traffic.no_stuck_channel`: all of this for every run under one lock.
-/

namespace ContentDecryption

namespace Channel

namespace Traffic

/-! ## Withdrawn requests -/

/-- A request can be taken only while its call is under way. -/
theorem Orderly.writer_of_produced {t : Traffic} (h : t.Orderly)
    (hword : stateOf t.object = Phase.produced.word) :
    ∃ (k : Nat) (d : Caller), t.writer = some k ∧ t.callers[k]? = some d ∧
      d.call.isOver = false := by
  have hlive : ¬ ∀ d ∈ t.callers, d.call.isOver = true := by
    intro hall
    have hmem := (h.between hall).mem hword
    simp [betweenCalls] at hmem
  simp only [not_forall, Bool.not_eq_true] at hlive
  obtain ⟨d, hd, hover⟩ := hlive
  obtain ⟨k, hk⟩ := List.mem_iff_getElem?.1 hd
  have hmem := (h.word hk hover).mem hword
  refine ⟨k, d, h.writer hk ?_, hk, hover⟩
  revert hmem
  cases d.call.stage <;> simp [ClientStage.words, ClientStage.isSent, betweenCalls]

theorem advance_of_isOver {c : Caller} (h : c.call.isOver = true) : c.advance c.call = c := by
  rw [Caller.advance, ClientStage.isCollecting_of_phase? (ClientCall.phase?_of_isOver h),
    Bool.or_false]

/-- Nothing happens any more to a call that is over. -/
theorem Orderly.step_over {t t' : Traffic} (h : t.Orderly) (hs : Step t t') {i : Nat} {c : Caller}
    (hc : t.callers[i]? = some c) (hover : c.call.isOver = true) : t'.callers[i]? = some c := by
  cases hs with
  | stay | serve => exact hc
  | call =>
    obtain ⟨hi, -⟩ := List.getElem?_eq_some_iff.1 hc
    rw [List.getElem?_append_left hi, hc]
  | @client k d next caller move =>
    rw [callers_afterClient caller]
    split_ifs with hki
    · subst hki
      rw [caller] at hc
      cases hc
      rw [move.eq_of_isOver hover, advance_of_isOver hover]
    · exact hc
  | @server j w next worker move =>
    rw [callers_afterServer]
    split_ifs with hwriter
    · rw [hc, Option.map_some]
      by_cases htakes : takes w next.1
      · have hproduced : stateOf t.object = Phase.produced.word := by
          cases move with
          | take stage word => exact word
          | rest stage => exact absurd htakes (not_takes_of_phase? stage)
          | expire | complete => exact absurd htakes (not_takes_of_phase? rfl)
          | handle | report => cases htakes.2
        obtain ⟨k, d, hk, hd, hlive⟩ := h.writer_of_produced hproduced
        rw [hwriter] at hk
        cases hk
        rw [hc] at hd
        cases hd
        rw [hover] at hlive
        cases hlive
      · rw [credit_of_not_takes htakes]
    · exact hc

/-- What is recorded of a call that is over stays as it is. -/
theorem callers_run_append {capacity : Nat} {acts later : List Act} {lock : String}
    (hlock : (run capacity (acts ++ later)).SharesLock lock) {i : Nat} {c : Caller}
    (hc : (run capacity acts).callers[i]? = some c) (hover : c.call.isOver = true)
    (horderly : (run capacity acts).Orderly) :
    (run capacity (acts ++ later)).callers[i]? = some c := by
  have hrun : run capacity (acts ++ later) = later.foldl step (run capacity acts) :=
    List.foldl_append ..
  rw [hrun] at hlock ⊢
  have h := foldl_induction
    (P := fun t => t.Guarded ∧ (t.SharesLock lock → t.Orderly ∧ t.callers[i]? = some c))
    (fun t t' h hs => ⟨h.1.step hs, fun hl => by
      obtain ⟨ho, hi⟩ := h.2 (hl.of_step hs)
      exact ⟨ho.step h.1 hl hs, ho.step_over hs hi hover⟩⟩)
    later ⟨guarded_run capacity acts, fun _ => ⟨horderly, hc⟩⟩
  exact (h.2 hlock).2

/-! ## Calls without an answer -/

/-- A call that is over without an answer has timed out, or nobody ever took its request. -/
def Ended (t : Traffic) : Prop :=
  ∀ (i : Nat) (c : Caller) (r : Except Error Unit), t.callers[i]? = some c → c.answered = false →
    c.call.stage = .finished r → r = .error .timeout ∨ (c.takenBy = [] ∧ t.writer ≠ some i)

theorem Ended.step {t t' : Traffic} (h : t.Ended) (hsound : t.Sound) (hrecorded : t.Recorded)
    (hs : Step t t') : t'.Ended := by
  intro k d r hd hanswered hstage
  cases hs with
  | stay | serve => exact h k d r hd hanswered hstage
  | call =>
    rcases getElem?_concat_cases hd with hold | ⟨rfl, rfl⟩
    · exact h k d r hold hanswered hstage
    · exact .inr ⟨rfl, fun hi => Nat.lt_irrefl _ (hrecorded.writer hi)⟩
  | @client i c next caller move =>
    rw [callers_afterClient caller] at hd
    split_ifs at hd with hik
    · cases hd
      rw [Caller.advance, Bool.or_eq_false_iff] at hanswered
      cases move with
      | giveUp | withdraw | drop | abandon =>
        cases hstage
        exact .inl rfl
      | release stage =>
        rw [(hsound.callers c (List.mem_of_getElem? caller)).releasing _ stage] at hanswered
        cases hanswered.1
      | rest stage =>
        subst hik
        have hfilling : c.call.stage.isFilling = false := by
          rw [show c.call.stage = .finished r from hstage]
          rfl
        rcases h i c r caller hanswered.1 hstage with htimeout | ⟨htaken, hwriter⟩
        · exact .inl htimeout
        · refine .inr ⟨htaken, ?_⟩
          rw [afterClient, hfilling]
          exact hwriter
      | _ => cases hstage
    · rcases h k d r hd hanswered hstage with htimeout | ⟨htaken, hwriter⟩
      · exact .inl htimeout
      · refine .inr ⟨htaken, ?_⟩
        rw [afterClient]
        dsimp only
        split_ifs
        · exact fun hi => hik (Option.some.inj hi)
        · exact hwriter
  | @server j w next worker move =>
    rw [callers_afterServer] at hd
    split_ifs at hd with hwriter
    · obtain ⟨c, hc, rfl⟩ := Option.map_eq_some_iff.1 hd
      rw [call_credit] at hstage
      rw [answered_credit] at hanswered
      rcases h k c r hc hanswered hstage with htimeout | ⟨-, hne⟩
      · exact .inl htimeout
      · exact absurd hwriter hne
    · exact h k d r hd hanswered hstage

theorem ended_run (capacity : Nat) (acts : List Act) : (run capacity acts).Ended := by
  have h : (run capacity acts).Sound ∧ (run capacity acts).Recorded ∧
      (run capacity acts).Ended := by
    refine guarded_induction (P := fun t => t.Sound ∧ t.Recorded ∧ t.Ended)
      ⟨sound_run capacity [], recorded_start capacity, fun _ _ _ hc => nomatch hc⟩ ?_ acts
    intro t t' hg h hs
    exact ⟨h.1.step hg.lent hs, h.2.1.step hg h.1 hs, h.2.2.step h.1 h.2.1 hs⟩
  exact h.2.2

/-! ## Between calls -/

theorem isOver_of_acquiring {c : ClientCall} (hstage : c.stage = .acquiring) :
    c.isOver = false := by
  rw [ClientCall.isOver, ClientCall.result?, hstage]
  rfl

/-- A call cannot have the channel in time only while a server is at a request. -/
theorem Orderly.decrypting_of_isOver {t : Traffic} (h : t.Orderly) {i : Nat} {c : Caller}
    {expired : Bool} (hc : t.callers[i]? = some c) (hstage : c.call.stage = .acquiring)
    (hover : (c.call.step expired t.object).1.isOver = true) :
    stateOf t.object = Phase.decrypting.word := by
  have hlive := isOver_of_acquiring hstage
  obtain ⟨f, hf, hstate⟩ := h.word hc hlive
  have hmove := c.call.move_step expired t.object
  generalize c.call.step expired t.object = next at hmove hover
  rw [hstage] at hf
  cases hmove with
  | giveUp _ hidle hcompleted =>
    simp only [ClientStage.words, betweenCalls, List.mem_cons, List.not_mem_nil, or_false] at hf
    rcases hf with rfl | rfl | rfl
    · exact absurd hstate hidle
    · exact hstate
    · exact absurd hstate hcompleted
  | rest =>
    rw [hlive] at hover
    cases hover
  | acquire | notice => cases hover
  | discard h | overtaken h | fill h | submit h | collect h | expire h | withdraw h | miss h
  | drop h | abandon h | read h | release h =>
    rw [hstage] at h
    cases h

/-- A call whose server is still at it has no answer. -/
theorem Answered.answered_eq_false {t : Traffic} (h : t.Answered) {j k : Nat} {w : Worker}
    {d : Caller} {f : Phase} (hw : t.workers[j]? = some w) (hphase : w.run.stage.phase? = some f)
    (hd : t.callers[k]? = some d) (hj : j ∈ d.takenBy) : d.answered = false := by
  cases ha : d.answered with
  | false => rfl
  | true =>
    obtain ⟨l, v, x, hl, hv, hfinished, -⟩ := h k d hd ha
    rw [hl] at hj
    obtain rfl := List.mem_singleton.1 hj
    rw [hw] at hv
    cases hv
    rw [hfinished] at hphase
    cases hphase

/-- A call without an answer whose request was taken has timed out, once it is over. -/
theorem Ended.result?_eq {t : Traffic} (h : t.Ended) {j k : Nat} {d : Caller}
    (hd : t.callers[k]? = some d) (hj : j ∈ d.takenBy) (hanswered : d.answered = false)
    (hover : d.call.isOver = true) : d.call.result? = some (.error .timeout) := by
  rw [ClientCall.isOver] at hover
  rw [ClientCall.result?] at hover ⊢
  cases hs : d.call.stage with
  | finished r =>
    rcases h k d r hd hanswered hs with rfl | ⟨hnone, -⟩
    · rfl
    · rw [hnone] at hj
      cases hj
  | _ =>
    rw [hs] at hover
    cases hover

/-- A call that cannot have the channel in time finds a server at the request of a call that has
timed out. -/
theorem exists_abandoned {t : Traffic} (hg : t.Guarded) (hrecorded : t.Recorded)
    (horderly : t.Orderly) (hanswered : t.Answered) (hended : t.Ended) {i : Nat} {c : Caller}
    {expired : Bool} (hc : t.callers[i]? = some c) (hstage : c.call.stage = .acquiring)
    (hover : (c.call.step expired t.object).1.isOver = true) :
    ∃ (j : Nat) (w : Worker) (k : Nat) (d : Caller), t.workers[j]? = some w ∧
      w.run.stage.phase? = some .decrypting ∧ t.callers[k]? = some d ∧ j ∈ d.takenBy ∧
      d.answered = false ∧ d.call.result? = some (.error .timeout) := by
  obtain ⟨j, w, hw, hphase⟩ :=
    hg.exists_serving (horderly.decrypting_of_isOver hc hstage hover)
  obtain ⟨k, e, he, hj⟩ :=
    hrecorded.booked.credited hw (ServerStage.hasTaken_of_phase? hphase)
  rw [getElem?_ledger] at he
  obtain ⟨d, hd, rfl⟩ := Option.map_eq_some_iff.1 he
  have hunanswered : d.answered = false := hanswered.answered_eq_false hw hphase hd hj
  -- One call at a time is under way, and nobody has taken the request of this one.
  have hdone : d.call.isOver = true := by
    cases ho : d.call.isOver with
    | true => rfl
    | false =>
      obtain rfl := horderly.single hc hd (isOver_of_acquiring hstage) ho
      rw [hc] at hd
      cases hd
      rw [Caller.entry, (hrecorded.unsent hc (by rw [hstage]; rfl)).1] at hj
      cases hj
  exact ⟨j, w, k, d, hw, hphase, hd, hj, hunanswered, hended.result?_eq hd hj hunanswered hdone⟩

/-- **At most one service, and no stuck channel.** In every run of any servers at a channel and any
calls under one lock, with deadlines that pass anywhere:

* a call's request is handed to one handler run at most;
* a request that no server had taken when its call timed out is handed to none, whatever comes
  later;
* while no call is under way the word is `idle`, `decrypting` or `completed`, and it is `decrypting`
  only while a server is at a request;
* a call that cannot have the channel in time finds a server at the request of a call that has timed
  out. -/
theorem no_stuck_channel {capacity : Nat} {acts : List Act} {lock : String}
    (h : (run capacity acts).SharesLock lock) :
    (∀ (i : Nat) (c : Caller), (run capacity acts).callers[i]? = some c →
      ((run capacity acts).services c).length ≤ 1) ∧
    (∀ (i : Nat) (c : Caller), (run capacity acts).callers[i]? = some c →
      c.call.result? = some (.error .timeout) → c.takenBy = [] → ∀ later : List Act,
        (run capacity (acts ++ later)).SharesLock lock →
        (run capacity (acts ++ later)).callers[i]? = some c ∧
          (run capacity (acts ++ later)).services c = []) ∧
    ((∀ c ∈ (run capacity acts).callers, c.call.isOver = true) →
      (stateOf (run capacity acts).object = Phase.idle.word ∨
        stateOf (run capacity acts).object = Phase.decrypting.word ∨
        stateOf (run capacity acts).object = Phase.completed.word) ∧
      (stateOf (run capacity acts).object = Phase.decrypting.word →
        ∃ (j : Nat) (w : Worker), (run capacity acts).workers[j]? = some w ∧
          w.run.stage.phase? = some .decrypting)) ∧
    (∀ (i : Nat) (c : Caller) (expired : Bool), (run capacity acts).callers[i]? = some c →
      c.call.stage = .acquiring →
      (c.call.step expired (run capacity acts).object).1.isOver = true →
      ∃ (j : Nat) (w : Worker) (k : Nat) (d : Caller), (run capacity acts).workers[j]? = some w ∧
        w.run.stage.phase? = some .decrypting ∧ (run capacity acts).callers[k]? = some d ∧
        j ∈ d.takenBy ∧ d.answered = false ∧ d.call.result? = some (.error .timeout)) := by
  have hg := guarded_run capacity acts
  have hrecorded := recorded_run capacity acts
  have horderly := orderly_run h
  refine ⟨fun i c hc => ?_, fun i c hc hresult htaken later hlock => ?_, fun hall => ⟨?_, ?_⟩,
    fun i c expired hc hstage hover => ?_⟩
  · rcases hrecorded.services_cases hc with hnone | ⟨x, hservices, -⟩
    · rw [hnone]
      exact Nat.zero_le 1
    · rw [hservices]
      exact Nat.le_refl 1
  · have hover : c.call.isOver = true := by
      rw [ClientCall.isOver, hresult]
      rfl
    refine ⟨callers_run_append hlock hc hover horderly, ?_⟩
    rw [services, htaken]
    rfl
  · obtain ⟨f, hf, hword⟩ := horderly.between hall
    simp only [betweenCalls, List.mem_cons, List.not_mem_nil, or_false] at hf
    rcases hf with rfl | rfl | rfl
    · exact .inl hword
    · exact .inr (.inl hword)
    · exact .inr (.inr hword)
  · exact hg.exists_serving
  · exact exists_abandoned hg hrecorded horderly (answered_run h) (ended_run capacity acts) hc
      hstage hover

/-- A call that times out before a server comes. -/
def withdrawal : List Act :=
  let client : Attachment := ⟨"/channel", 0, 8, 10, 0, "lock"⟩
  [.call client false { data := [1, 2] }, .client 0 false, .client 0 false, .client 0 false,
    .client 0 true, .client 0 true]

theorem withdrawal_not_served : ∃ c, (run 8 withdrawal).callers[0]? = some c ∧
    c.call.result? = some (.error .timeout) ∧
    (run 8 (withdrawal ++ [.serve fun d => (Status.none, d.data), .server 0 false])).services c =
      [] := by
  have hlock (acts : List Act)
      (h : (run 8 acts).callers.all (fun c => c.client.lock == "lock") = true) :
      (run 8 acts).SharesLock "lock" := fun c hc => eq_of_beq (List.all_eq_true.1 h c hc)
  have hfirst : ((run 8 withdrawal).callers[0]?).map (fun c => (c.call.result?, c.takenBy)) =
      some (some (.error .timeout), []) := by
    set_option maxRecDepth 20000 in
    rfl
  obtain ⟨c, hc, hseen⟩ := Option.map_eq_some_iff.1 hfirst
  obtain ⟨hresult, htaken⟩ := Prod.mk.inj hseen
  have hlater := (no_stuck_channel (hlock withdrawal (by decide +kernel))).2.1 0 c hc hresult
    htaken [.serve fun d => (Status.none, d.data), .server 0 false] (hlock _ (by decide +kernel))
  exact ⟨c, hc, hresult, hlater.2⟩

end Traffic

end Channel

end ContentDecryption
