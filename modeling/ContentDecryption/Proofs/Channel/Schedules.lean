import ContentDecryption.Proofs.Channel.Exchange
import ContentDecryption.Proofs.Channel.Failure

/-!
# Calls under any schedule

What comes of a decrypt call that is not out of time does not depend on the schedule: not
on how often servers come to wait, which steps they take between those of the call, which
deadlines pass, and what calls with the same lock did before.

The channel was at rest at first, which is more than a new channel: the answer to a
request that nobody waited for can stand in it, and the record knows nothing of that. It
stays there as long as nobody drops it, and all that happens meanwhile is that calls and
servers come, wait and give up. Once it is gone the channel is as good as new, and the
agreement of answers and requests holds from there on.

Main definitions:

* `Traffic.Untouched`: no request has been written, and none taken;
* `Traffic.Accounted`: what stands in the memory is on record, or an answer of long ago.

Main results:

* `Traffic.Accounted.step`, `Ready.accounted`: this holds in every run at a channel that was at
  rest;
* `Attempt.outcome_of_inTime`: a call that is not out of time has what the handler makes of its
  request;
* `Attempt.decryptOn_of_inTime`: so it has what `Attachment.decryptOn` says;
* `Attempt.exists_mirrors`: the turns of one call and one server are such a schedule.
-/

namespace ContentDecryption

namespace Channel

/-- Whether a call is on its way to the channel or over, and has nothing in the memory. -/
def ClientStage.isOutside : ClientStage → Bool
  | .acquiring => true
  | .discarding => true
  | .finished _ => true
  | _ => false

namespace Traffic

variable {t t' : Traffic}

/-! ## Before the first request -/

/-- No call has written a request, and no server has taken one. -/
structure Untouched (t : Traffic) : Prop where
  writer : t.writer = none
  callers : ∀ {c}, c ∈ t.callers →
    c.call.stage.isOutside = true ∧ c.takenBy = [] ∧ c.answered = false
  workers : ∀ {w}, w ∈ t.workers → w.run.stage.hasTaken = false

/-- Nobody has come to an object yet that was just found. -/
theorem untouched_found (o : SharedObject) : (found o).Untouched where
  writer := rfl
  callers := fun hc => nomatch hc
  workers := fun hw => nomatch hw

/-- While the channel is idle, there is nothing to be on record. -/
theorem Untouched.recorded (h : t.Untouched) (hg : t.Guarded)
    (hidle : stateOf t.object = Phase.idle.word) : t.Recorded := by
  have huntaken {i : Nat} {e : Entry} (he : t.ledger[i]? = some e) : e.takenBy = [] := by
    rw [getElem?_ledger] at he
    obtain ⟨c, hc, rfl⟩ := Option.map_eq_some_iff.1 he
    exact (h.callers (List.mem_of_getElem? hc)).2.1
  refine ⟨⟨fun he => ?_, fun he hj => ?_, fun hw htaken => ?_, fun he _ hj => ?_⟩, fun hi => ?_,
    fun hc _ => ⟨(h.callers (List.mem_of_getElem? hc)).2.1, ?_⟩, fun hs => ?_⟩
  · rw [huntaken he]
    exact Nat.zero_le 1
  · rw [huntaken he] at hj
    cases hj
  · rw [h.workers (List.mem_of_getElem? hw)] at htaken
    cases htaken
  · rw [huntaken he] at hj
    cases hj
  · rw [h.writer] at hi
    cases hi
  · rw [h.writer]
    nofun
  · cases hg.showsWord?_of_free (f := .idle) rfl hidle hs

theorem Untouched.answered (h : t.Untouched) : t.Answered := by
  intro i c hc hanswered
  rw [(h.callers (List.mem_of_getElem? hc)).2.2] at hanswered
  cases hanswered

/-- A call that finds an old answer can only drop it, and leave the channel idle. -/
theorem Untouched.client (h : t.Untouched) (hword : stateOf t.object = Phase.completed.word)
    (hroom : stateOffset + 4 ≤ t.object.size) {i : Nat} {c : Caller}
    {next : ClientCall × SharedObject} (hc : t.callers[i]? = some c)
    (move : c.call.Move t.object next) :
    (t.afterClient i c next).Untouched ∧
      (next.2 = t.object ∨ stateOf next.2 = Phase.idle.word) := by
  obtain ⟨houtside, huntaken, hanswered⟩ := h.callers (List.mem_of_getElem? hc)
  -- None of the stages that a call can be at is one of those that write the request.
  have hkept (hfilling : c.call.stage.isFilling = false)
      (hcollecting : next.1.stage.isCollecting = false)
      (hstage : next.1.stage.isOutside = true) : (t.afterClient i c next).Untouched := by
    refine ⟨?_, fun {d} hd => ?_, h.workers⟩
    · rw [afterClient, hfilling]
      exact h.writer
    · rcases List.mem_or_eq_of_mem_set hd with hold | rfl
      · exact h.callers hold
      · refine ⟨hstage, huntaken, ?_⟩
        rw [Caller.advance, hanswered, hcollecting]
        rfl
  cases move with
  | notice stage | overtaken stage => exact ⟨hkept (by rw [stage]; rfl) rfl rfl, .inl rfl⟩
  | discard stage =>
    exact ⟨hkept (by rw [stage]; rfl) rfl rfl, .inr (stateOf_publish hroom .idle)⟩
  | rest stage =>
    exact ⟨hkept (ClientStage.isFilling_of_phase? stage) (ClientStage.isCollecting_of_phase? stage)
      houtside, .inl rfl⟩
  | acquire stage word =>
    rw [hword] at word
    cases word
  | giveUp stage notIdle notCompleted => exact absurd hword notCompleted
  | fill stage | submit stage | collect stage | expire stage | withdraw stage | miss stage
  | drop stage | abandon stage | read stage | release stage =>
    rw [stage] at houtside
    cases houtside

/-- A server that finds an old answer goes on waiting, or gives up. -/
theorem Untouched.server (h : t.Untouched) (hword : stateOf t.object = Phase.completed.word)
    {j : Nat} {w : Worker} {next : ServerRun × SharedObject} (hw : t.workers[j]? = some w)
    (move : w.run.Move w.handler t.object next) :
    (t.afterServer j w next).Untouched ∧ next.2 = t.object := by
  have huntaken := h.workers (List.mem_of_getElem? hw)
  have hkept (hnext : next.1.stage.hasTaken = false) : (t.afterServer j w next).Untouched := by
    refine ⟨h.writer, fun {c} hc => ?_, fun {v} hv => ?_⟩
    · rw [afterServer, h.writer] at hc
      exact h.callers hc
    · rcases List.mem_or_eq_of_mem_set hv with hold | rfl
      · exact h.workers hold
      · exact hnext
  cases move with
  | expire stage => exact ⟨hkept rfl, rfl⟩
  | rest stage => exact ⟨hkept huntaken, rfl⟩
  | take stage word =>
    rw [hword] at word
    cases word
  | handle stage | report stage | complete stage =>
    rw [stage] at huntaken
    cases huntaken

/-- Whatever happens while an old answer stands there: nobody has touched the channel after it, and
the answer is still there, or the channel is idle. -/
theorem Untouched.step (h : t.Untouched) (hword : stateOf t.object = Phase.completed.word)
    (hroom : stateOffset + 4 ≤ t.object.size) (hs : Step t t') :
    t'.Untouched ∧ (t'.object = t.object ∨ stateOf t'.object = Phase.idle.word) := by
  cases hs with
  | stay => exact ⟨h, .inl rfl⟩
  | @call a poisoned r attached lock =>
    refine ⟨⟨h.writer, fun {c} hc => ?_, h.workers⟩, .inl rfl⟩
    rcases List.mem_append.1 hc with hold | hnew
    · exact h.callers hold
    · obtain rfl := List.mem_singleton.1 hnew
      refine ⟨?_, rfl, rfl⟩
      unfold Attachment.start
      split <;> rfl
  | serve handler =>
    refine ⟨⟨h.writer, h.callers, fun {w} hw => ?_⟩, .inl rfl⟩
    rcases List.mem_append.1 hw with hold | hnew
    · exact h.workers hold
    · obtain rfl := List.mem_singleton.1 hnew
      rfl
  | client caller move => exact h.client hword hroom caller move
  | server worker move =>
    obtain ⟨huntouched, hobject⟩ := h.server hword worker move
    exact ⟨huntouched, .inl hobject⟩

/-! ## The record of a channel that was at rest -/

/-- The record has what stands in the memory. Or an answer stands there that was there at first,
and nobody has touched the channel since. -/
def Accounted (t : Traffic) : Prop :=
  (t.Recorded ∧ t.Answered) ∨ (t.Untouched ∧ stateOf t.object = Phase.completed.word)

theorem Accounted.step (h : t.Accounted) (hg : t.Guarded) (hsound : t.Sound)
    (horderly : t.Orderly) (hs : Step t t') : t'.Accounted := by
  rcases h with ⟨hrecorded, hanswered⟩ | ⟨huntouched, hword⟩
  · exact .inl ⟨hrecorded.step hg hsound hs, hanswered.step hg hsound hrecorded horderly hs⟩
  · obtain ⟨huntouched', hsame | hidle⟩ := huntouched.step hword hg.room hs
    · exact .inr ⟨huntouched', by rw [hsame, hword]⟩
    · exact .inl ⟨huntouched'.recorded (hg.step hs) hidle, huntouched'.answered⟩

end Traffic

section Rest

variable {capacity : Nat} {o : SharedObject}

theorem Ready.guarded_found (h : Ready capacity o) : (Traffic.found o).Guarded := by
  have hlent := (Traffic.regular_found h.room).lent
  obtain ⟨f, -, hfree, hword⟩ := h.exists_free
  exact ⟨hlent.size, hlent.word, hlent.alone, f, hword, .inl hfree⟩

/-- Whatever happens at a channel that was at rest, between calls under one lock and any servers. -/
theorem Ready.accounted (h : Ready capacity o) {lock : String} (acts : List Act)
    (hlock : (acts.foldl Traffic.step (Traffic.found o)).SharesLock lock) :
    (acts.foldl Traffic.step (Traffic.found o)).Accounted := by
  have hg := h.guarded_found
  have hsound : (Traffic.found o).Sound := ⟨fun _ hc => (nomatch hc), fun _ hw => (nomatch hw)⟩
  have horderly : (Traffic.found o).Orderly := by
    obtain ⟨f, hf, -, hword⟩ := h.exists_free
    exact ⟨fun hc => (nomatch hc), fun hc => (nomatch hc), fun _ => ⟨f, hf, hword⟩,
      fun hc => (nomatch hc)⟩
  have hfirst : (Traffic.found o).Accounted := by
    rcases h.word with hidle | hcompleted
    · exact .inl ⟨(Traffic.untouched_found o).recorded hg hidle,
        (Traffic.untouched_found o).answered⟩
    · exact .inr ⟨Traffic.untouched_found o, hcompleted⟩
  have hall := Traffic.foldl_induction
    (P := fun t => t.Guarded ∧ t.Sound ∧ (t.SharesLock lock → t.Orderly ∧ t.Accounted))
    (fun t t' hbefore hs => by
      obtain ⟨hg, hsound, hlocked⟩ := hbefore
      refine ⟨hg.step hs, hsound.step hg.lent hs, fun hlock => ?_⟩
      obtain ⟨horderly, haccounted⟩ := hlocked (hlock.of_step hs)
      exact ⟨horderly.step hg hlock hs, haccounted.step hg hsound horderly hs⟩)
    acts ⟨hg, hsound, fun _ => ⟨horderly, hfirst⟩⟩
  exact (hall.2.2 hlock).2

end Rest

/-! ## Calls that are not out of time -/

namespace Attempt

variable {x : Attempt} {later : List Act} {capacity : Nat} {lock : String} {handler : Handler}
  {c : Caller} {result : Except Error Unit}

theorem accounted (h : Ready capacity x.object) (hlock : (x.after later).SharesLock lock) :
    (x.after later).Accounted := by
  have hall : x.after later = (x.earlier ++ .call x.client x.poisoned x.request :: later).foldl
      Traffic.step (Traffic.found x.object) := by
    rw [List.foldl_append]
    rfl
  rw [hall] at hlock ⊢
  exact h.accounted _ hlock

/-- The client of a call knows the capacity of its channel. -/
theorem capacity_le (h : Ready capacity x.object) : x.client.capacity ≤ capacity := by
  have hadmits := x.begins
  rw [Traffic.admits, Bool.and_eq_true, decide_eq_true_eq] at hadmits
  have hsize : x.before.object.size = x.object.size :=
    Traffic.foldl_induction (P := fun t => t.object.size = x.object.size)
      (fun _ _ hbefore hs => hs.size.trans hbefore) x.earlier rfl
  rw [hadmits.1]
  change Attachment.capacityOf x.before.object ≤ capacity
  rw [Attachment.capacityOf, hsize, h.size, objectSize]
  omega

/-- **Under any schedule.** A decrypt call begins at a channel that was at rest, after any acts
under its lock and before any others, and all servers that come to the channel do the same with a
request. If the call is let through, and ends otherwise than out of time, one handler run was on its
request, and it ends up with what this handler makes of it. -/
theorem outcome_of_inTime (h : Ready capacity x.object) (hlock : (x.after later).SharesLock lock)
    (hserved : ∀ w ∈ (x.after later).workers, w.handler = handler) {header : Header}
    (hheader : x.client.headerFor x.poisoned x.request = .ok header)
    (hc : x.caller? later = some c) (hresult : c.call.result? = some result)
    (htime : result ≠ .error .timeout) :
    result = Error.ofStatus (handler x.request.delivery).1 ∧
      c.call.data = ServerRun.left handler x.request.delivery ∧
      ∃ y, (x.after later).services c = [y] ∧ y.given = x.request.delivery := by
  have hrequest : c.request = x.request := by
    obtain ⟨d, hd, -, hrequest⟩ := exists_caller? (x := x) later
    cases hc.symm.trans hd
    exact hrequest
  have hanswered : c.answered = true := by
    obtain ⟨d, hd, hsettled, -⟩ := exists_course hheader hlock
    cases hc.symm.trans hd
    rcases hsettled _ hresult with ⟨-, hlate⟩ | ⟨hanswered, -⟩
    · exact absurd hlate htime
    · exact hanswered
  rcases accounted h hlock with ⟨hrecorded, hagreed⟩ | ⟨huntouched, -⟩
  · obtain ⟨y, hservices, hy, hgiven, hgot⟩ := hagreed.exists_service hrecorded hc hanswered
    obtain ⟨rfl, hdata⟩ := hgot.of_result? hresult
    have hhandler : y.handler = handler := by
      obtain ⟨w, hw, hseen⟩ := Option.bind_eq_some_iff.1 hy
      obtain ⟨d, -, hd⟩ := Option.map_eq_some_iff.1 hseen
      rw [← hd]
      exact hserved w (List.mem_of_getElem? hw)
    rw [hrequest] at hgiven
    refine ⟨?_, ?_, y, hservices, hgiven⟩
    · rw [Service.status, hhandler, hgiven]
    · rw [hdata, Service.left, hhandler, hgiven]
  · rw [(huntouched.callers (List.mem_of_getElem? hc)).2.2] at hanswered
    cases hanswered

/-- A call that ends otherwise than out of time, under any schedule, has the result and the data of
the same call met by a server that takes its turns as `Meeting.patientTurns` has them, also if it is
refused. -/
theorem decryptOn_of_inTime (h : Ready capacity x.object)
    (hlock : (x.after later).SharesLock lock)
    (hserved : ∀ w ∈ (x.after later).workers, w.handler = handler)
    (hc : x.caller? later = some c) (hresult : c.call.result? = some result)
    (htime : result ≠ .error .timeout) (hwait : x.client.timeoutMs ≠ 0) {o : SharedObject}
    (ho : Ready capacity o) :
    (x.client.decryptOn x.poisoned x.request (some (capacity, handler)) o).1.result = result ∧
      (x.client.decryptOn x.poisoned x.request (some (capacity, handler)) o).1.data =
        c.call.data := by
  cases hheader : x.client.headerFor x.poisoned x.request with
  | error e =>
    obtain ⟨⟨d, hd, hstage, hanswered⟩, -⟩ := refused hheader later
    cases hc.symm.trans hd
    rw [ClientCall.result?, hstage] at hresult
    cases hresult
    rw [Attachment.decryptOn_of_error ho hheader, data_eq hc hanswered]
    exact ⟨rfl, rfl⟩
  | ok header =>
    obtain ⟨hstatus, hdata, -⟩ := outcome_of_inTime h hlock hserved hheader hc hresult htime
    rw [Attachment.decryptOn_of_header ho (capacity_le h) hwait hheader, hstatus, hdata]
    exact ⟨rfl, rfl⟩

/-- A call and one server that take their turns at a channel at rest are such a schedule, whatever
their turns are. -/
theorem exists_mirrors {o : SharedObject} (h : Ready capacity o) {a : Attachment}
    (hcapacity : a.capacity = Attachment.capacityOf o) (poisoned : Bool) (r : Request)
    (handler : Handler) :
    ∃ x : Attempt, x.object = o ∧ x.client = a ∧ x.poisoned = poisoned ∧ x.request = r ∧
      ∀ turns : List Turn, Mirrors handler (x.after (.serve handler :: turns.map Turn.act))
        (Meeting.run handler ⟨a.start poisoned r, some { capacity }, o⟩ turns) := by
  have hbegins : (Traffic.found o).admits a poisoned r = true := by
    rw [Traffic.admits, Bool.and_eq_true, decide_eq_true_eq]
    exact ⟨hcapacity, Bool.or_true _⟩
  let x : Attempt := ⟨o, h.room, [], a, poisoned, r, hbegins⟩
  refine ⟨x, rfl, rfl, rfl, rfl, fun turns => ?_⟩
  have hstart : Mirrors handler (x.after [.serve handler])
      ⟨a.start poisoned r, some { capacity }, o⟩ := by
    have hfound : (Traffic.found o).capacity = capacity := by
      rw [Traffic.found, h.size, objectSize, Nat.add_sub_cancel_left]
    rw [show [Act.serve handler] = [] ++ [.serve handler] from rfl, after_concat, after_nil]
    refine ⟨rfl, ⟨x.start, rfl, rfl⟩, ⟨handler, { capacity }⟩, ?_, rfl, rfl⟩
    rw [← hfound]
    rfl
  induction turns using List.reverseRecOn with
  | nil => exact hstart
  | append_singleton turns y ih =>
    have hnext := ih.turn y
    rw [← after_concat] at hnext
    rw [List.map_append, ← List.cons_append, Meeting.run_append]
    exact hnext

end Attempt

end Channel

end ContentDecryption
