import ContentDecryption.Proofs.Channel.Order

/-!
# Answers and requests

Under one lock an answer reaches the call that asked. A call whose wait for an answer
succeeds is the writer of the request that was answered, so the status and the data it
reads are those of the one handler run that its own request was given to. An answer
that came too late has been dropped by then, with the word.

Main results:

* `Traffic.Answered`, `Traffic.answered_run`: what an answered call has of its handler run;
* `Traffic.Answered.exists_service`: this is its only handler run;
* `Traffic.request_response_agreement`: the same, with the handler run in full.
-/

namespace ContentDecryption

namespace Channel

/-- What a call has that got its answer from this handler run: nothing yet, or the status and the
data as the handler left them. -/
def Caller.HasGot (c : Caller) (x : Service) : Prop :=
  c.call.stage = .collecting ∨
    (c.call.data = x.left ∧
      (c.call.stage = .releasing x.status ∨ c.call.stage = .finished (Error.ofStatus x.status)))

/-- A call that is over and got its answer from this handler run. -/
theorem Caller.HasGot.of_result? {c : Caller} {x : Service} (h : c.HasGot x)
    {result : Except Error Unit} (hresult : c.call.result? = some result) :
    result = Error.ofStatus x.status ∧ c.call.data = x.left := by
  rw [ClientCall.result?] at hresult
  rcases h with hs | ⟨hdata, hs | hs⟩ <;> rw [hs] at hresult <;> cases hresult
  exact ⟨rfl, hdata⟩

namespace Traffic

/-- An answered call has its answer from the server that took its request, which is done. -/
def Answered (t : Traffic) : Prop :=
  ∀ (i : Nat) (c : Caller), t.callers[i]? = some c → c.answered = true →
    ∃ (j : Nat) (w : Worker) (x : Service), c.takenBy = [j] ∧ t.workers[j]? = some w ∧
      w.run.stage = .finished true ∧ t.service? j = some x ∧ c.HasGot x

/-- The answer that stands in the memory of a writer. -/
theorem Recorded.answer {t : Traffic} (h : t.Recorded) {i : Nat} {c : Caller}
    (hc : t.callers[i]? = some c) (hwriter : t.writer = some i) (hs : t.Shows .answered) :
    ∃ (j : Nat) (x : Service), c.takenBy = [j] ∧ t.service? j = some x ∧
      t.object.read dataOffset c.request.data.length = x.left ∧
      t.object.word statusOffset = x.status := by
  obtain ⟨k, e, hk, he, j, x, htaken, hx, hleft, hstatus⟩ := h.shows hs
  rw [hwriter] at hk
  cases hk
  rw [getElem?_ledger, hc] at he
  cases he
  exact ⟨j, x, htaken, hx, hleft, hstatus⟩

/-- A server that took a request is done with it when an answer stands in the memory. -/
theorem Recorded.finished_of_completed {t : Traffic} (h : t.Recorded) (hg : t.Guarded) {i j : Nat}
    {c : Caller} (hc : t.callers[i]? = some c)
    (hword : stateOf t.object = Phase.completed.word) (hj : j ∈ c.takenBy) :
    ∃ w : Worker, t.workers[j]? = some w ∧ w.run.stage = .finished true := by
  obtain ⟨w, hw, htaken, -⟩ := h.booked.taken (i := i) (e := c.entry)
    (by rw [getElem?_ledger, hc]; rfl) hj
  have hphase : t.phase? (.server j) = none := hg.phase?_of_free (f := .completed) rfl hword _
  rw [phase?, said_server hw] at hphase
  refine ⟨w, hw, ?_⟩
  cases hs : w.run.stage with
  | finished served =>
    rw [hs] at htaken
    rw [show served = true from htaken]
  | waiting =>
    rw [hs] at htaken
    cases htaken
  | handling | reporting | completing =>
    rw [hs] at hphase
    cases hphase

theorem Answered.client {t : Traffic} (h : t.Answered) (hg : t.Guarded) (hsound : t.Sound)
    (hrecorded : t.Recorded) (horderly : t.Orderly) {i : Nat} {c : Caller}
    {next : ClientCall × SharedObject} (hc : t.callers[i]? = some c)
    (move : c.call.Move t.object next) : (t.afterClient i c next).Answered := by
  intro k d hd hanswered
  rw [callers_afterClient hc] at hd
  split_ifs at hd with hik
  · cases hd
    have hsc := hsound.callers c (List.mem_of_getElem? hc)
    -- A call that has no answer yet gets none by a step that does not collect it.
    have hnone (hstage : c.call.stage.isUnanswered = true)
        (hcollecting : next.1.stage.isCollecting = false) :
        ∃ (j : Nat) (w : Worker) (x : Service), c.takenBy = [j] ∧ t.workers[j]? = some w ∧
          w.run.stage = .finished true ∧ t.service? j = some x ∧ (c.advance next.1).HasGot x := by
      rw [Caller.advance, hsc.unanswered hstage, hcollecting] at hanswered
      cases hanswered
    cases move with
    | acquire stage | notice stage | giveUp stage | discard stage | overtaken stage | fill stage
    | submit stage | expire stage | withdraw stage | miss stage | drop stage | abandon stage =>
      exact hnone (by rw [stage]; rfl) rfl
    | rest stage =>
      rw [Caller.advance, ClientStage.isCollecting_of_phase? stage, Bool.or_false] at hanswered
      have hbefore := h _ _ hc hanswered
      exact hbefore
    | collect stage word =>
      obtain ⟨j, x, htaken, hx, -⟩ := hrecorded.answer hc
        (horderly.writer hc (by rw [stage]; rfl)) (.inl ⟨.completed, word, rfl⟩)
      obtain ⟨w, hw, hfinished⟩ := hrecorded.finished_of_completed hg hc word
        (by rw [htaken]; exact List.mem_singleton.2 rfl)
      exact ⟨j, w, x, htaken, hw, hfinished, hx, .inl rfl⟩
    | read stage =>
      obtain ⟨hread, hdata⟩ := hsc.collecting stage
      obtain ⟨j, w, x, htaken, hw, hfinished, hx, -⟩ := h _ _ hc hread
      obtain ⟨j', x', htaken', hx', hleft, hstatus⟩ := hrecorded.answer hc
        (horderly.writer hc (by rw [stage]; rfl))
        (.inr ⟨.client i, by rw [shows?, said_client hc, stage]; rfl⟩)
      rw [htaken] at htaken'
      cases htaken'
      rw [hx] at hx'
      cases hx'
      refine ⟨j, w, x, htaken, hw, hfinished, hx, .inr ⟨?_, .inl ?_⟩⟩
      · rw [← hleft, ← hdata]
        rfl
      · rw [← hstatus]
        rfl
    | @release status stage =>
      obtain ⟨j, w, x, htaken, hw, hfinished, hx, hgot⟩ := h _ _ hc (hsc.releasing status stage)
      refine ⟨j, w, x, htaken, hw, hfinished, hx, .inr ?_⟩
      rcases hgot with hs | ⟨hdata, hs | hs⟩
      · rw [stage] at hs
        cases hs
      · rw [stage] at hs
        cases hs
        exact ⟨hdata, .inr rfl⟩
      · rw [stage] at hs
        cases hs
  · exact h _ _ hd hanswered

theorem Answered.server {t : Traffic} (h : t.Answered) (hrecorded : t.Recorded) {j : Nat}
    {w : Worker} {next : ServerRun × SharedObject} (hw : t.workers[j]? = some w)
    (move : w.run.Move w.handler t.object next) : (t.afterServer j w next).Answered := by
  -- The server of an answered call is done, so it is not this one, or this one rests.
  have hkept {c : Caller} (hgot : ∃ (l : Nat) (v : Worker) (x : Service), c.takenBy = [l] ∧
      t.workers[l]? = some v ∧ v.run.stage = .finished true ∧ t.service? l = some x ∧ c.HasGot x) :
      ∃ (l : Nat) (v : Worker) (x : Service), c.takenBy = [l] ∧
        (t.afterServer j w next).workers[l]? = some v ∧ v.run.stage = .finished true ∧
        (t.afterServer j w next).service? l = some x ∧ c.HasGot x := by
    obtain ⟨l, v, x, htaken, hv, hfinished, hx, hgot⟩ := hgot
    by_cases hjl : j = l
    · subst hjl
      rw [hw] at hv
      cases hv
      have hrest : next = (w.run, t.object) := by
        cases move with
        | rest => rfl
        | take stage | expire stage | handle stage | report stage | complete stage =>
          rw [hfinished] at stage
          cases stage
      subst hrest
      refine ⟨j, w, x, htaken, ?_, hfinished, ?_, hgot⟩
      · rw [workers_afterServer hw, if_pos rfl]
      · rw [service?_afterServer_of_seen hw rfl, hx]
    · refine ⟨l, v, x, htaken, ?_, hfinished, ?_, hgot⟩
      · rw [workers_afterServer hw, if_neg hjl, hv]
      · rw [service?_afterServer hw, if_neg hjl, hx]
  intro k d hd hanswered
  rw [callers_afterServer] at hd
  split_ifs at hd with hwriter
  · obtain ⟨c, hc, rfl⟩ := Option.map_eq_some_iff.1 hd
    by_cases htakes : takes w next.1
    · rw [answered_credit] at hanswered
      obtain ⟨l, -, -, htaken, -⟩ := h _ _ hc hanswered
      cases move with
      | take stage word =>
        obtain ⟨i, e, hi, he, hnone, -⟩ := hrecorded.shows (.inl ⟨.produced, word, rfl⟩)
        rw [hwriter] at hi
        cases hi
        rw [getElem?_ledger, hc] at he
        cases he
        rw [Caller.entry, htaken] at hnone
        cases hnone
      | rest stage => exact absurd htakes (not_takes_of_phase? stage)
      | expire => exact absurd htakes (not_takes_of_phase? rfl)
      | complete => exact absurd htakes (not_takes_of_phase? rfl)
      | handle stage => cases htakes.2
      | report stage => cases htakes.2
    · rw [credit_of_not_takes htakes] at hanswered ⊢
      exact hkept (h _ _ hc hanswered)
  · exact hkept (h _ _ hd hanswered)

theorem Answered.step {t t' : Traffic} (h : t.Answered) (hg : t.Guarded) (hsound : t.Sound)
    (hrecorded : t.Recorded) (horderly : t.Orderly) (hs : Step t t') : t'.Answered := by
  cases hs with
  | stay => exact h
  | call attached lock =>
    intro i c hc hanswered
    rcases getElem?_concat_cases hc with hold | ⟨-, rfl⟩
    · exact h _ _ hold hanswered
    · cases hanswered
  | serve handler =>
    intro i c hc hanswered
    obtain ⟨j, w, x, htaken, hw, hfinished, hx, hgot⟩ := h _ _ hc hanswered
    obtain ⟨hj, -⟩ := List.getElem?_eq_some_iff.1 hw
    refine ⟨j, w, x, htaken, by rw [List.getElem?_append_left hj, hw], hfinished, ?_, hgot⟩
    rw [service?, List.getElem?_append_left hj]
    exact hx
  | client caller move => exact h.client hg hsound hrecorded horderly caller move
  | server worker move => exact h.server hrecorded worker move

/-- The handler run that an answered call has its answer from is its only one. -/
theorem Answered.exists_service {t : Traffic} (h : t.Answered) (hrecorded : t.Recorded) {i : Nat}
    {c : Caller} (hc : t.callers[i]? = some c) (hanswered : c.answered = true) :
    ∃ x, t.services c = [x] ∧ t.service? x.worker = some x ∧ x.given = c.request.delivery ∧
      c.HasGot x := by
  obtain ⟨j, w, x, htaken, -, -, hx, hgot⟩ := h i c hc hanswered
  rcases hrecorded.services_cases hc with hnone | ⟨y, hservices, hy, hworker, hgiven⟩
  · rw [services, htaken, List.filterMap_cons, hx] at hnone
    cases hnone
  · rw [htaken] at hworker
    cases hworker
    rw [hx] at hy
    cases hy
    exact ⟨x, hservices, hx, hgiven, hgot⟩

/-- What holds of everybody under one lock. -/
theorem answered_run {capacity : Nat} {acts : List Act} {lock : String}
    (h : (run capacity acts).SharesLock lock) : (run capacity acts).Answered := by
  have hall : (run capacity acts).Sound ∧ (run capacity acts).Recorded ∧
      ((run capacity acts).SharesLock lock →
        (run capacity acts).Orderly ∧ (run capacity acts).Answered) := by
    refine guarded_induction
      (P := fun t => t.Sound ∧ t.Recorded ∧ (t.SharesLock lock → t.Orderly ∧ t.Answered))
      ⟨sound_run capacity [], recorded_start capacity, fun _ =>
        ⟨orderly_start capacity, fun _ _ hc => nomatch hc⟩⟩ ?_ acts
    intro t t' hg h hs
    obtain ⟨hsound, hrecorded, hlocked⟩ := h
    refine ⟨hsound.step hg.lent hs, hrecorded.step hg hsound hs, fun hlock => ?_⟩
    obtain ⟨horderly, hanswered⟩ := hlocked (hlock.of_step hs)
    exact ⟨horderly.step hg hlock hs, hanswered.step hg hsound hrecorded horderly hs⟩
  exact (hall.2.2 h).2

/-- **Request/response agreement.** In every run of any servers at a channel and any calls under
one lock, with deadlines that pass anywhere:

* a call whose wait for the answer succeeds has exactly one handler run; the run was given this
  call's request; the call ends up with the data as the run left it and with the result that the
  run's status stands for;
* no handler run is that of two calls, and none is that of no call, so an answer that nobody waited
  for goes to nobody;
* a call whose wait does not succeed leaves its data alone. -/
theorem request_response_agreement {capacity : Nat} {acts : List Act} {lock : String}
    (h : (run capacity acts).SharesLock lock) :
    (∀ (i : Nat) (c : Caller), (run capacity acts).callers[i]? = some c → c.answered = true →
      ∃ x, (run capacity acts).services c = [x] ∧
        (run capacity acts).service? x.worker = some x ∧
        x.given = c.request.delivery ∧ c.HasGot x) ∧
    (∀ j x, (run capacity acts).service? j = some x →
      ∃ (i : Nat) (c : Caller), (run capacity acts).callers[i]? = some c ∧
        (run capacity acts).services c = [x] ∧
        ∀ (k : Nat) (d : Caller), (run capacity acts).callers[k]? = some d →
          x ∈ (run capacity acts).services d → k = i) ∧
    (∀ (i : Nat) (c : Caller), (run capacity acts).callers[i]? = some c → c.answered = false →
      c.call.data = c.request.data) := by
  have hrecorded := recorded_run capacity acts
  have hsound := sound_run capacity acts
  refine ⟨fun i c hc hanswered => ?_, fun j x hx => ?_, fun i c hc hanswered => ?_⟩
  · exact (answered_run h).exists_service hrecorded hc hanswered
  · exact hrecorded.exists_services hsound hx
  · exact (hsound.callers c (List.mem_of_getElem? hc)).unread hanswered

/-- Two calls of one client. The first times out while a server has its request, and the answer
comes after that. The second finds this answer and drops it, and gets its own. -/
def lateAnswer : List Act :=
  let client : Attachment := ⟨"/channel", 0, 8, 10, 0, "lock"⟩
  let handler : Handler := fun d => (Status.none, d.data.map fun b => b ^^^ 255)
  [.call client false { data := [1, 2] }, .serve handler, .client 0 false, .client 0 false,
    .client 0 false, .server 0 false, .client 0 true, .client 0 true, .client 0 true,
    .server 0 false, .server 0 false, .server 0 false,
    .call client false { data := [7] }, .serve handler, .client 1 false, .client 1 false,
    .client 1 false, .client 1 false, .client 1 false, .server 1 false, .server 1 false,
    .server 1 false, .server 1 false, .client 1 false, .client 1 false, .client 1 false]

theorem sharesLock_lateAnswer : (run 8 lateAnswer).SharesLock "lock" :=
  sharesLock_of_all (by decide +kernel)

theorem lateAnswer_agreement : ∃ c x, (run 8 lateAnswer).callers[1]? = some c ∧
    c.call.data = [248] ∧ (run 8 lateAnswer).services c = [x] ∧
    x.given = c.request.delivery ∧ c.HasGot x := by
  have hsecond : ((run 8 lateAnswer).callers[1]?).map (fun c => (c.answered, c.call.data)) =
      some (true, [248]) := by decide +kernel
  obtain ⟨c, hc, hpair⟩ := Option.map_eq_some_iff.1 hsecond
  obtain ⟨hanswered, hdata⟩ := Prod.mk.inj hpair
  obtain ⟨x, hservices, -, hgiven, hgot⟩ :=
    (request_response_agreement sharesLock_lateAnswer).1 1 c hc hanswered
  exact ⟨c, x, hc, hdata, hservices, hgiven, hgot⟩

end Traffic

end Channel

end ContentDecryption
