import ContentDecryption.Proofs.Channel.Agreement

/-!
# Answers that are thrown away

A call that finds the answer to another request throws it away and makes the channel its
own. The word does not tell an answer that came too late from one that somebody still
waits for; what tells them apart is the lock. Calls with one lock take turns, so an
answer that a call finds is not that of another call under its lock, unless that call is
over. A call under another lock may still wait for it.

Main definitions:

* `Traffic.TakesTurns`: of the calls with one lock one is under way at a time;
* `twoLocks`: a run in which a call throws away an answer that another one waits for.

Main results:

* `Traffic.takesTurns_run`: calls with one lock take turns, whatever the locks of the others;
* `Traffic.Orderly.foldl_kept`: under one lock an answer stays until its call collects it;
* `Traffic.discarded_answer`: whose answer is thrown away, and when none is lost.
-/

namespace ContentDecryption

namespace Channel

namespace Traffic

/-! ## Turns -/

/-- Of the calls with one lock one is under way at a time. -/
def TakesTurns (t : Traffic) : Prop :=
  ∀ {i k : Nat} {c d : Caller}, t.callers[i]? = some c → t.callers[k]? = some d →
    c.client.lock = d.client.lock → c.call.isOver = false → d.call.isOver = false → i = k

/-- A call that is under way was so before, and has the lock that it had, unless it begins. -/
theorem Step.caller_before {t t' : Traffic} (hs : Step t t') {k : Nat} {d : Caller}
    (hd : t'.callers[k]? = some d) (hf : d.call.isOver = false) :
    (∃ e, t.callers[k]? = some e ∧ e.client.lock = d.client.lock ∧ e.call.isOver = false) ∨
      (k = t.callers.length ∧
        ∀ c ∈ t.callers, c.client.lock = d.client.lock → c.call.isOver = true) := by
  cases hs with
  | stay | serve => exact .inl ⟨d, hd, rfl, hf⟩
  | call attached lock =>
    rcases getElem?_concat_cases hd with hold | ⟨hk, rfl⟩
    · exact .inl ⟨d, hold, rfl, hf⟩
    · refine .inr ⟨hk, lock.resolve_left fun hover => ?_⟩
      rw [hover] at hf
      cases hf
  | @client i c next caller move =>
    rw [callers_afterClient caller] at hd
    split_ifs at hd with hik
    · cases hd
      exact .inl ⟨c, hik ▸ caller, rfl, move.isOver_eq_false hf⟩
    · exact .inl ⟨d, hd, rfl, hf⟩
  | server worker move =>
    rw [callers_afterServer] at hd
    split_ifs at hd
    · obtain ⟨e, he, rfl⟩ := Option.map_eq_some_iff.1 hd
      rw [call_credit] at hf
      exact .inl ⟨e, he, by rw [client_credit], hf⟩
    · exact .inl ⟨d, hd, rfl, hf⟩

theorem TakesTurns.step {t t' : Traffic} (h : t.TakesTurns) (hs : Step t t') : t'.TakesTurns := by
  -- A call begins when all others with its lock are over.
  have hbegins {d e : Caller} {k : Nat} (he : t.callers[k]? = some e)
      (hlock : e.client.lock = d.client.lock) (hf : e.call.isOver = false) :
      ¬ ∀ c ∈ t.callers, c.client.lock = d.client.lock → c.call.isOver = true := by
    intro hall
    rw [hall e (List.mem_of_getElem? he) hlock] at hf
    cases hf
  intro i k c d hc hd hlock hf hf'
  rcases hs.caller_before hc hf with ⟨a, ha, hla, hfa⟩ | ⟨hi, hall⟩
  · rcases hs.caller_before hd hf' with ⟨b, hb, hlb, hfb⟩ | ⟨hk, hall⟩
    · exact h ha hb (hla.trans (hlock.trans hlb.symm)) hfa hfb
    · exact absurd hall (hbegins ha (hla.trans hlock) hfa)
  · rcases hs.caller_before hd hf' with ⟨b, hb, hlb, hfb⟩ | ⟨hk, -⟩
    · exact absurd hall (hbegins hb (hlb.trans hlock.symm) hfb)
    · rw [hi, hk]

theorem takesTurns_run (capacity : Nat) (acts : List Act) : (run capacity acts).TakesTurns :=
  run_induction (P := TakesTurns) (fun hc => nomatch hc) (fun _ _ h hs => h.step hs) acts

/-! ## Whose answer it is -/

/-- While the word says that there is an answer, it is that of the handler run of one call. -/
theorem Recorded.exists_answered {t : Traffic} (h : t.Recorded)
    (hword : stateOf t.object = Phase.completed.word) :
    ∃ (k : Nat) (d : Caller) (x : Service), t.writer = some k ∧ t.callers[k]? = some d ∧
      t.services d = [x] ∧ x.given = d.request.delivery ∧
      t.object.read dataOffset d.request.data.length = x.left ∧
      t.object.word statusOffset = x.status := by
  obtain ⟨k, e, hk, he, j, x, htaken, hx, hleft, hstatus⟩ := h.shows (.inl ⟨.completed, hword, rfl⟩)
  rw [getElem?_ledger] at he
  obtain ⟨d, hd, rfl⟩ := Option.map_eq_some_iff.1 he
  have hservices : t.services d = [x] := by
    rw [services, show d.takenBy = [j] from htaken, List.filterMap_cons, hx]
    rfl
  refine ⟨k, d, x, hk, hd, hservices, ?_, hleft, hstatus⟩
  rcases h.services_cases hd with hnone | ⟨y, hone, -, -, hgiven⟩
  · rw [hnone] at hservices
    cases hservices
  · rw [hone] at hservices
    cases hservices
    exact hgiven

/-- A call that has found an answer makes the word `idle`. -/
theorem stateOf_step_discarding {t : Traffic} (hg : t.Guarded) {i : Nat} {c : Caller}
    (hc : t.callers[i]? = some c) (hstage : c.call.stage = .discarding)
    (hword : stateOf t.object = Phase.completed.word) (expired : Bool) :
    stateOf (t.step (.client i expired)).object = Phase.idle.word := by
  have hobject : (t.step (.client i expired)).object = publish t.object .idle := by
    simp only [step, hc, afterClient, ClientCall.step, hstage, exchange?_of_eq _ hword,
      Option.getD_some]
  rw [hobject]
  exact stateOf_publish hg.room .idle

/-! ## Answers that stay -/

section Kept

variable {t : Traffic} {k : Nat} {d : Caller}

/-- Under one lock nobody but the call itself moves an answer that a call waits for. -/
theorem Orderly.step_kept (h : t.Orderly) (hd : t.callers[k]? = some d)
    (hf : d.call.isOver = false) (hword : stateOf t.object = Phase.completed.word)
    (hg : t.Guarded) {x : Act} (hx : ∀ expired, x ≠ .client k expired) :
    (t.step x).object = t.object ∧ (t.step x).callers[k]? = some d := by
  cases x with
  | call a poisoned r =>
    simp only [Traffic.step]
    split_ifs
    · obtain ⟨hk, -⟩ := List.getElem?_eq_some_iff.1 hd
      exact ⟨rfl, by rw [List.getElem?_append_left hk, hd]⟩
    · exact ⟨rfl, hd⟩
  | serve handler => exact ⟨rfl, hd⟩
  | client i expired =>
    have hik : i ≠ k := fun hik => hx expired (by rw [hik])
    rw [Traffic.step]
    cases hc : t.callers[i]? with
    | none => exact ⟨rfl, hd⟩
    | some c =>
      dsimp only
      have hover : c.call.isOver = true := by
        cases hover : c.call.isOver with
        | true => rfl
        | false => exact absurd (h.single hc hd hover hf) hik
      refine ⟨?_, by rw [callers_afterClient hc, if_neg hik, hd]⟩
      rw [(c.call.move_step expired t.object).eq_of_isOver hover]
      rfl
  | server j expired =>
    rw [Traffic.step]
    cases hw : t.workers[j]? with
    | none => exact ⟨rfl, hd⟩
    | some w =>
      dsimp only
      have hphase := hg.phase?_of_free (f := .completed) rfl hword (.server j)
      rw [phase?, said_server hw] at hphase
      have hmove := w.run.move_step w.handler expired t.object
      generalize w.run.step w.handler expired t.object = next at hmove
      have hnot : ¬ takes w next.1 ∧ next.2 = t.object := by
        cases hmove with
        | take stage hproduced =>
          rw [hword] at hproduced
          exact absurd (Phase.word_injective hproduced) (by decide)
        | expire => exact ⟨not_takes_of_phase? rfl, rfl⟩
        | rest stage => exact ⟨not_takes_of_phase? stage, rfl⟩
        | handle stage | report stage | complete stage =>
          rw [stage] at hphase
          cases hphase
      refine ⟨hnot.2, ?_⟩
      rw [callers_afterServer, funext (credit_of_not_takes hnot.1 j), Option.map_id']
      split_ifs <;> exact hd

theorem SharesLock.of_foldl {lock : String} (acts : List Act)
    (h : (acts.foldl Traffic.step t).SharesLock lock) : t.SharesLock lock := by
  induction acts generalizing t with
  | nil => exact h
  | cons x acts ih => exact (ih h).of_step (step_step t x)

/-- Under one lock an answer stays until the call that waits for it collects it. -/
theorem Orderly.foldl_kept (h : t.Orderly) (hd : t.callers[k]? = some d)
    (hf : d.call.isOver = false) (hword : stateOf t.object = Phase.completed.word)
    (hg : t.Guarded) {lock : String} {later : List Act}
    (hlock : (later.foldl Traffic.step t).SharesLock lock)
    (hlater : ∀ expired, Act.client k expired ∉ later) :
    (later.foldl Traffic.step t).object = t.object ∧
      (later.foldl Traffic.step t).callers[k]? = some d := by
  induction later generalizing t with
  | nil => exact ⟨rfl, hd⟩
  | cons x later ih =>
    have hs : Step t (t.step x) := t.step_step x
    have hx : ∀ expired, x ≠ .client k expired := by
      rintro expired rfl
      exact hlater expired List.mem_cons_self
    obtain ⟨hobject, hd'⟩ := h.step_kept hd hf hword hg hx
    have hlock' : (t.step x).SharesLock lock := SharesLock.of_foldl later hlock
    have hrest := ih (h.step hg hlock' hs) hd' (hobject.symm ▸ hword) (hg.step hs) hlock
      fun expired hmem => hlater expired (List.mem_cons_of_mem x hmem)
    rw [hobject] at hrest
    exact hrest

end Kept

/-- **An answer that is thrown away.** In every run of any servers and any calls at a channel, with
any locks, and with deadlines that pass anywhere:

* a call that has found an answer and makes the word `idle` throws away what the memory holds: the
  answer to another call, by the one handler run that was given the request of that call. If the
  two calls have one lock, that other call is over;
* if all calls have one lock, an answer that a call waits for stays where it is, whatever the others
  do, until that call goes on. -/
theorem discarded_answer (capacity : Nat) (acts : List Act) :
    (∀ (i : Nat) (c : Caller) (expired : Bool), (run capacity acts).callers[i]? = some c →
      c.call.stage = .discarding →
      stateOf (run capacity acts).object = Phase.completed.word →
      stateOf (run capacity (acts ++ [.client i expired])).object = Phase.idle.word ∧
      ∃ (k : Nat) (d : Caller) (x : Service), k ≠ i ∧
        (run capacity acts).callers[k]? = some d ∧ (run capacity acts).services d = [x] ∧
        x.given = d.request.delivery ∧
        (run capacity acts).object.read dataOffset d.request.data.length = x.left ∧
        (run capacity acts).object.word statusOffset = x.status ∧
        (d.client.lock = c.client.lock → d.call.isOver = true)) ∧
    (∀ (lock : String) (later : List Act), (run capacity (acts ++ later)).SharesLock lock →
      ∀ (k : Nat) (d : Caller), (run capacity acts).callers[k]? = some d →
        d.call.stage = .awaiting →
        stateOf (run capacity acts).object = Phase.completed.word →
        (∀ expired, Act.client k expired ∉ later) →
        (run capacity (acts ++ later)).object = (run capacity acts).object ∧
          (run capacity (acts ++ later)).callers[k]? = some d) := by
  have hg := guarded_run capacity acts
  have hrecorded := recorded_run capacity acts
  have happend (later : List Act) :
      run capacity (acts ++ later) = later.foldl step (run capacity acts) := List.foldl_append ..
  refine ⟨fun i c expired hc hstage hword => ?_,
    fun lock later hlock k d hd hstage hword hlater => ?_⟩
  · rw [happend]
    refine ⟨stateOf_step_discarding hg hc hstage hword expired, ?_⟩
    obtain ⟨k, d, x, hk, hd, hservices, hgiven, hleft, hstatus⟩ := hrecorded.exists_answered hword
    have hki : k ≠ i := by
      rintro rfl
      exact (hrecorded.unsent hc (by rw [hstage]; rfl)).2 hk
    refine ⟨k, d, x, hki, hd, hservices, hgiven, hleft, hstatus, fun hlock => ?_⟩
    cases hover : d.call.isOver with
    | true => rfl
    | false =>
      have hlive : c.call.isOver = false := by
        rw [ClientCall.isOver, ClientCall.result?, hstage]
        rfl
      exact absurd (takesTurns_run capacity acts hd hc hlock hover hlive) hki
  · rw [happend] at hlock ⊢
    have hlive : d.call.isOver = false := isOver_of_isSent (by rw [hstage]; rfl)
    exact (orderly_run (SharesLock.of_foldl later hlock)).foldl_kept hd hlive hword hg hlock hlater

/-- The second call of a client throws away the answer to the first, which has timed out. Its own
answer stays until it collects it. -/
theorem discarded_answer_late :
    (∃ (k : Nat) (d : Caller) (x : Service), k ≠ 1 ∧
      (run 8 (lateAnswer.take 15)).callers[k]? = some d ∧
      (run 8 (lateAnswer.take 15)).services d = [x] ∧ d.call.isOver = true) ∧
    (run 8 (lateAnswer.take 23 ++ [.client 0 true])).object =
      (run 8 (lateAnswer.take 23)).object := by
  have hfirst : ∃ c, (run 8 (lateAnswer.take 15)).callers[1]? = some c ∧
      c.call.stage = .discarding := by
    set_option maxRecDepth 20000 in
    exact ⟨_, rfl, rfl⟩
  have hsecond : ∃ c, (run 8 (lateAnswer.take 23)).callers[1]? = some c ∧
      c.call.stage = .awaiting := by
    set_option maxRecDepth 20000 in
    exact ⟨_, rfl, rfl⟩
  have hlock : (run 8 (lateAnswer.take 15)).SharesLock "lock" :=
    sharesLock_of_all (by decide +kernel)
  obtain ⟨c, hc, hdiscarding⟩ := hfirst
  obtain ⟨c', hc', hawaiting⟩ := hsecond
  constructor
  · obtain ⟨-, k, d, x, hk, hd, hservices, -, -, -, hover⟩ :=
      (discarded_answer 8 (lateAnswer.take 15)).1 1 c false hc hdiscarding (by decide +kernel)
    refine ⟨k, d, x, hk, hd, hservices, hover ?_⟩
    rw [hlock d (List.mem_of_getElem? hd), hlock c (List.mem_of_getElem? hc)]
  · have hother (expired : Bool) : Act.client 1 expired ∉ [Act.client 0 true] := by
      intro hmem
      cases List.mem_singleton.1 hmem
    exact ((discarded_answer 8 (lateAnswer.take 23)).2 "lock" [.client 0 true]
      (sharesLock_of_all (by decide +kernel)) 1 c' hc' hawaiting (by decide +kernel) hother).1

/-- Two clients with a lock each. The answer to the first has come, and the second has found it. -/
def twoLocks : List Act :=
  let client (lock : String) : Attachment := ⟨"/channel", 0, 8, 10, 0, lock⟩
  let handler : Handler := fun d => (Status.none, d.data.map fun b => b ^^^ 255)
  [.call (client "one") false { data := [1, 2] }, .call (client "two") false { data := [7] },
    .serve handler, .client 0 false, .client 0 false, .client 0 false, .server 0 false,
    .server 0 false, .server 0 false, .server 0 false, .client 1 false]

/-- The first client waits for its answer, which is there, and the second throws it away. Then the
first times out. -/
theorem twoLocks_discard_awaited :
    (∃ c d : Caller, (run 8 twoLocks).callers = [c, d] ∧ c.takenBy = [0] ∧
      c.call.stage = .awaiting ∧ d.call.stage = .discarding) ∧
    (run 8 twoLocks).writer = some 0 ∧
    stateOf (run 8 twoLocks).object = Phase.completed.word ∧
    (run 8 twoLocks).object.read dataOffset 2 = [254, 253] ∧
    stateOf (run 8 (twoLocks ++ [.client 1 false])).object = Phase.idle.word ∧
    (run 8 (twoLocks ++ [.client 1 false, .client 0 true, .client 0 true,
      .client 0 true])).callers.map (fun c => (c.call.isOver, c.answered)) =
        [(true, false), (false, false)] := by
  refine ⟨?_, by decide +kernel⟩
  set_option maxRecDepth 20000 in
  exact ⟨_, _, rfl, rfl, rfl, rfl⟩

end Traffic

end Channel

end ContentDecryption
