import ContentDecryption.Proofs.Channel.Attempt
import ContentDecryption.Proofs.Channel.Exchange

/-!
# The way of a status

A server writes the status that its handler has returned, and the call whose wait for the
answer succeeds reads it. In between the word of the status is nobody else's: no call ever
writes it, and no other server can, as the memory has one owner. So the result of such a call
says what a handler run has returned, whatever stood in the memory at first, whatever the locks
of the clients are, and whatever capacity the servers give the channel.

Main definitions:

* `Traffic.Returned`: a handler run at the channel has returned this status;
* `Caller.Relayed`: what a call has of it;
* `Traffic.Relays`: the invariant.

Main results:

* `Traffic.Relays.client`, `Traffic.Relays.server`: a step of a call or of a server keeps it;
* `Traffic.relays_run`: it holds in every run;
* `Traffic.exists_service_of_answered`: an answered call has the status of a handler run, and under
  one lock of its own;
* `Attachment.decrypt_answered`: a call that is let through, and is not out of time, has the status
  that the decryptor has returned.
-/

namespace ContentDecryption

namespace Channel

/-! ## Who writes what -/

/-- No call writes the status. -/
theorem ClientCall.Move.status_eq {c : ClientCall} {o : SharedObject}
    {next : ClientCall × SharedObject} (h : c.Move o next) :
    next.2.word statusOffset = o.word statusOffset := by
  cases h with
  | fill => exact Traffic.word_congr (size_fill c o) fun k hk => byte_fill c o hk
  | acquire | discard | submit | collect | withdraw | drop | release =>
    exact word_publish o _ (by decide)
  | notice | giveUp | rest | overtaken | expire | miss | abandon | read => rfl

/-- No call says that there is an answer. -/
theorem ClientCall.Move.completed_before {c : ClientCall} {o : SharedObject}
    {next : ClientCall × SharedObject} (h : c.Move o next) (hsize : stateOffset + 4 ≤ o.size)
    (hword : stateOf next.2 = Phase.completed.word) : stateOf o = Phase.completed.word := by
  have hother {p : Phase} (hp : p ≠ .completed) :
      stateOf (publish o p) ≠ Phase.completed.word := by
    rw [stateOf_publish hsize]
    exact fun heq => hp (Phase.word_injective heq)
  cases h with
  | fill => exact (stateOf_fill c o).symm.trans hword
  | acquire | discard | submit | collect | withdraw | drop | release =>
    exact absurd hword (hother nofun)
  | notice | giveUp | rest | overtaken | expire | miss | abandon | read => exact hword

/-- A server writes the status of its handler, and no other. -/
theorem ServerRun.Move.status_eq {handler : Handler} {s : ServerRun} {o : SharedObject}
    {next : ServerRun × SharedObject} (h : s.Move handler o next)
    (hstage : ∀ status, s.stage ≠ .reporting status) :
    next.2.word statusOffset = o.word statusOffset := by
  cases h with
  | handle =>
    exact Traffic.word_congr (size_answerIn ..) fun k hk =>
      byte_answerIn handler s.capacity o (by
        rw [dataOffset_eq]
        simp only [statusOffset] at hk
        omega)
  | report stage => exact absurd stage (hstage _)
  | take | complete => exact word_publish o _ (by decide)
  | expire | rest => rfl

/-! ## Calls -/

/-- What a call has of a status. Handlers have returned the statuses that are `known`; a call that
got no answer can only end in the ways that are `early`. -/
def Caller.Relayed (early : Except Error Unit → Prop) (known : Status → Prop) (c : Caller) : Prop :=
  match c.call.stage with
  | .collecting => c.answered = true
  | .releasing status => c.answered = true ∧ known status
  | .finished result =>
    (c.answered = true ∧ ∃ status, known status ∧ result = Error.ofStatus status) ∨
      (c.answered = false ∧ early result)
  | _ => c.answered = false

namespace Caller.Relayed

variable {early : Except Error Unit → Prop} {known known' : Status → Prop} {c : Caller}

theorem mono (h : c.Relayed early known) (hknown : ∀ status, known status → known' status) :
    c.Relayed early known' := by
  unfold Relayed at h ⊢
  cases hs : c.call.stage with
  | releasing status =>
    rw [hs] at h
    exact ⟨h.1, hknown status h.2⟩
  | finished result =>
    rw [hs] at h
    rcases h with ⟨hanswered, status, hstatus, hresult⟩ | hearly
    · exact .inl ⟨hanswered, status, hknown status hstatus, hresult⟩
    · exact .inr hearly
  | _ =>
    rw [hs] at h
    exact h

/-- A call reads the status that stands in the memory, and that a handler has returned. -/
theorem advance (h : c.Relayed early known) (hearly : early (.error .timeout)) {o : SharedObject}
    {next : ClientCall × SharedObject} (move : c.call.Move o next)
    (hcollecting : c.call.stage = .collecting → known (o.word statusOffset)) :
    (c.advance next.1).Relayed early known := by
  have hsame (hstage : next.1.stage.isCollecting = false) :
      (c.advance next.1).answered = c.answered := by
    rw [Caller.advance, hstage, Bool.or_false]
  cases move with
  | rest stage =>
    have hself : c.advance c.call = c := by
      rw [Caller.advance, ClientStage.isCollecting_of_phase? stage, Bool.or_false]
    rw [hself]
    exact h
  | collect stage => exact Bool.or_true c.answered
  | read stage =>
    rw [Relayed, stage] at h
    exact ⟨(hsame rfl).trans h, hcollecting stage⟩
  | @release status stage =>
    rw [Relayed, stage] at h
    exact .inl ⟨(hsame rfl).trans h.1, status, h.2, rfl⟩
  | giveUp stage | withdraw stage | drop stage | abandon stage =>
    rw [Relayed, stage] at h
    exact .inr ⟨(hsame rfl).trans h, hearly⟩
  | acquire stage | notice stage | discard stage | overtaken stage | fill stage | submit stage
  | expire stage | miss stage =>
    rw [Relayed, stage] at h
    exact (hsame rfl).trans h

/-- A call that is over has the status of a handler run if it was answered. -/
theorem of_result? (h : c.Relayed early known) {result : Except Error Unit}
    (hresult : c.call.result? = some result) :
    (c.answered = true ∧ ∃ status, known status ∧ result = Error.ofStatus status) ∨
      (c.answered = false ∧ early result) := by
  rw [ClientCall.result?] at hresult
  rw [Relayed] at h
  cases hs : c.call.stage with
  | finished r =>
    rw [hs] at hresult h
    cases hresult
    exact h
  | _ =>
    rw [hs] at hresult
    cases hresult

end Caller.Relayed

/-! ## Everybody -/

namespace Traffic

variable {t t' : Traffic} {early : Except Error Unit → Prop}

/-- A handler run has returned this status. -/
def Returned (t : Traffic) (status : Status) : Prop :=
  ∃ j x, t.service? j = some x ∧ x.status = status

/-- Where the status in the memory has come from, as far as a call can get to read it. -/
structure Relays (early : Except Error Unit → Prop) (t : Traffic) : Prop where
  seen : ∀ {w}, w ∈ t.workers → w.Seen w.run.stage
  /-- A server that is about to hand its answer over, and a call that has got to it. -/
  owned : ∀ {p}, t.shows? p = some .answered → t.Returned (t.object.word statusOffset)
  /-- An answer that a call may wait for. -/
  awaited : ∀ {c}, c ∈ t.callers → c.call.stage.isSent = true →
    stateOf t.object = Phase.completed.word → t.Returned (t.object.word statusOffset)
  callers : ∀ {c}, c ∈ t.callers → c.Relayed early t.Returned

/-- A handler that has run stays the one of its server. -/
theorem Returned.afterServer {status : Status} (h : t.Returned status) {j : Nat} {w : Worker}
    {next : ServerRun × SharedObject} (hw : t.workers[j]? = some w)
    (hseen : w.Seen w.run.stage) (move : w.run.Move w.handler t.object next) :
    (t.afterServer j w next).Returned status := by
  obtain ⟨k, x, hx, hstatus⟩ := h
  refine ⟨k, x, ?_, hstatus⟩
  by_cases hrun : next.1.seen = w.run.seen
  · rw [service?_afterServer_of_seen hw hrun, hx]
  · cases move with
    | handle stage =>
      rw [stage] at hseen
      rw [service?_afterServer hw, if_neg, hx]
      rintro rfl
      rw [service?_of_worker hw, show w.run.seen = none from hseen] at hx
      cases hx
    | _ => exact absurd rfl hrun

/-- A server takes part in a call by what the record has of it, and in no other way. -/
theorem exists_caller_of_afterServer {j : Nat} {w : Worker} {next : ServerRun × SharedObject}
    {d : Caller} (hd : d ∈ (t.afterServer j w next).callers) :
    ∃ c ∈ t.callers, ∃ l, d = { c with takenBy := l } := by
  obtain ⟨k, hk⟩ := List.mem_iff_getElem?.1 hd
  rw [callers_afterServer] at hk
  split_ifs at hk
  · obtain ⟨c, hc, rfl⟩ := Option.map_eq_some_iff.1 hk
    exact ⟨c, List.mem_of_getElem? hc, exists_credit_eq w j next.1 c⟩
  · exact ⟨d, List.mem_of_getElem? hk, d.takenBy, rfl⟩

theorem Relays.client (h : t.Relays early) (hlent : t.Lent) (hearly : early (.error .timeout))
    {i : Nat} {c : Caller} {next : ClientCall × SharedObject} (hc : t.callers[i]? = some c)
    (move : c.call.Move t.object next) : (t.afterClient i c next).Relays early := by
  have hmem := List.mem_of_getElem? hc
  have hstatus : (t.afterClient i c next).object.word statusOffset = t.object.word statusOffset :=
    move.status_eq
  have hcollecting (hs : c.call.stage = .collecting) : t.Returned (t.object.word statusOffset) :=
    h.owned (p := .client i) (by rw [shows?, said_client hc, hs]; rfl)
  refine ⟨h.seen, fun {p} hp => ?_, fun {d} hd hs hword => ?_, fun {d} hd => ?_⟩
  · rw [hstatus]
    rw [shows?, said_afterClient hc] at hp
    split_ifs at hp
    · cases move with
      | collect stage word => exact h.awaited hmem (by rw [stage]; rfl) word
      | rest stage =>
        rw [showsClient?_of_phase? stage] at hp
        cases hp
      | _ => cases hp
    · exact h.owned hp
  · rw [hstatus]
    have hbefore := move.completed_before hlent.room hword
    rcases List.mem_or_eq_of_mem_set hd with hold | rfl
    · exact h.awaited hold hs hbefore
    · rcases move.isSent hs with hfilling | hsent
      · have hphase : t.phase? (.client i) = some .producing := by
          rw [phase?, said_client hc]
          cases hf : c.call.stage with
          | filling => rfl
          | _ => rw [hf] at hfilling; cases hfilling
        rw [hlent.word hphase] at hbefore
        cases hbefore
      · exact h.awaited hmem hsent hbefore
  · rcases List.mem_or_eq_of_mem_set hd with hold | rfl
    · exact h.callers hold
    · exact (h.callers hmem).advance hearly move hcollecting

/-- The status that a server leaves with its answer is the one that its handler has returned, and
everybody else who has the answer still finds it. -/
theorem Relays.owned_server (h : t.Relays early) (hlent : t.Lent) {j : Nat} {w : Worker}
    {next : ServerRun × SharedObject} (hw : t.workers[j]? = some w)
    (move : w.run.Move w.handler t.object next) {p : Party}
    (hp : (t.afterServer j w next).shows? p = some .answered) :
    (t.afterServer j w next).Returned (next.2.word statusOffset) := by
  have hseen := h.seen (List.mem_of_getElem? hw)
  rw [shows?, said_afterServer hw] at hp
  split_ifs at hp with hself
  · cases move with
    | @report status stage =>
      rw [stage] at hseen
      obtain ⟨d, hd, hreturned⟩ := hseen
      refine ⟨j, ⟨j, w.handler, d⟩, ?_, ?_⟩
      · rw [service?_afterServer_of_seen hw rfl, service?_of_worker hw, hd]
        rfl
      · refine hreturned.trans (SharedObject.word_writeWord_self _ ?_).symm
        rw [hlent.size, objectSize, dataOffset_eq, statusOffset]
        omega
    | rest stage =>
      rw [showsServer?_of_phase? stage] at hp
      cases hp
    | take | expire | handle | complete => cases hp
  · have hidle (status : Status) : w.run.stage ≠ .reporting status := by
      intro hs
      obtain ⟨f, hf⟩ := phase?_of_shows? hp
      have hserver : t.phase? (.server j) = some .decrypting := by
        rw [phase?, said_server hw, hs]
        rfl
      exact hself (hlent.alone hf hserver)
    rw [move.status_eq hidle]
    exact (h.owned hp).afterServer hw hseen move

/-- Where a call finds an answer to wait for after a step of a server, its status is that of a
handler run. -/
theorem Relays.awaited_server (h : t.Relays early) (hlent : t.Lent) {j : Nat} {w : Worker}
    {next : ServerRun × SharedObject} (hw : t.workers[j]? = some w)
    (move : w.run.Move w.handler t.object next) {c : Caller} (hc : c ∈ t.callers)
    (hs : c.call.stage.isSent = true) (hword : stateOf next.2 = Phase.completed.word) :
    (t.afterServer j w next).Returned (next.2.word statusOffset) := by
  have hseen := h.seen (List.mem_of_getElem? hw)
  -- While a server is at a request the word does not say that there is an answer.
  have hserving (hp : w.run.stage.phase? = some .decrypting) :
      stateOf t.object ≠ Phase.completed.word := by
    have hphase : t.phase? (.server j) = some .decrypting := by rw [phase?, said_server hw, hp]
    rw [hlent.word hphase]
    decide
  refine Returned.afterServer ?_ hw hseen move
  cases move with
  | take stage word =>
    rw [stateOf_publish hlent.room] at hword
    cases hword
  | handle stage =>
    rw [ServerRun.stateOf_answerIn] at hword
    exact absurd hword (hserving (by rw [stage]; rfl))
  | report stage =>
    rw [ServerRun.stateOf_writeStatus] at hword
    exact absurd hword (hserving (by rw [stage]; rfl))
  | complete stage =>
    have hkept : (publish t.object .completed).word statusOffset = t.object.word statusOffset :=
      word_publish _ _ (by decide)
    rw [hkept]
    exact h.owned (p := .server j) (by rw [shows?, said_server hw, stage]; rfl)
  | expire | rest => exact h.awaited hc hs hword

theorem Relays.server (h : t.Relays early) (hlent : t.Lent) {j : Nat} {w : Worker}
    {next : ServerRun × SharedObject} (hw : t.workers[j]? = some w)
    (move : w.run.Move w.handler t.object next) : (t.afterServer j w next).Relays early := by
  have hseen := h.seen (List.mem_of_getElem? hw)
  refine ⟨fun {v} hv => ?_, h.owned_server hlent hw move, fun {d} hd hs hword => ?_,
    fun {d} hd => ?_⟩
  · rcases List.mem_or_eq_of_mem_set hv with hold | rfl
    · exact h.seen hold
    · have hsound : Worker.Sound w.run.capacity w := ⟨rfl, hseen⟩
      exact (hsound.move move).seen
  · obtain ⟨c, hc, l, rfl⟩ := exists_caller_of_afterServer hd
    exact h.awaited_server hlent hw move hc hs hword
  · obtain ⟨c, hc, l, rfl⟩ := exists_caller_of_afterServer hd
    exact (h.callers hc).mono fun _ hs => hs.afterServer hw hseen move

/-- A call that begins has nothing of a status. -/
theorem Relays.call (h : t.Relays early) {a : Attachment} {poisoned : Bool} {r : Request}
    (hrefused : ∀ e, a.headerFor poisoned r = .error e → early (.error e)) :
    Relays early { t with
      callers := t.callers ++ [{ client := a, request := r, call := a.start poisoned r }] } := by
  have hnew : Caller.Relayed early t.Returned
        { client := a, request := r, call := a.start poisoned r } ∧
      (a.start poisoned r).stage.isSent = false := by
    cases hheader : a.headerFor poisoned r with
    | ok header =>
      rw [Attachment.start_of_ok hheader]
      exact ⟨rfl, rfl⟩
    | error e =>
      rw [Attachment.start_of_error hheader]
      exact ⟨.inr ⟨rfl, hrefused e hheader⟩, rfl⟩
  refine ⟨h.seen, fun {p} hp => ?_, fun {d} hd hsent hword => ?_, fun {d} hd => ?_⟩
  · rw [shows?, said_append_caller t (showsClient?_of_phase? (phase?_start a poisoned r))] at hp
    exact h.owned hp
  · rcases List.mem_append.1 hd with hold | hlast
    · exact h.awaited hold hsent hword
    · obtain rfl := List.mem_singleton.1 hlast
      rw [hnew.2] at hsent
      cases hsent
  · rcases List.mem_append.1 hd with hold | hlast
    · exact h.callers hold
    · obtain rfl := List.mem_singleton.1 hlast
      exact hnew.1

/-- A server that comes to wait, whatever capacity it gives the channel. -/
theorem Relays.serve (h : t.Relays early) (handler : Handler) (capacity : Nat) :
    Relays early { t with workers := t.workers ++ [{ handler, run := { capacity } }] } := by
  have hkept {status : Status} (hs : t.Returned status) : Returned { t with
      workers := t.workers ++ [{ handler, run := { capacity } }] } status := by
    obtain ⟨j, x, hx, hstatus⟩ := hs
    obtain ⟨w, hw, -⟩ := Option.bind_eq_some_iff.1 hx
    obtain ⟨hj, -⟩ := List.getElem?_eq_some_iff.1 hw
    exact ⟨j, x, by rw [← hx, service?, service?, List.getElem?_append_left hj], hstatus⟩
  refine ⟨fun {w} hw => ?_, fun {p} hp => ?_,
    fun hd hsent hword => hkept (h.awaited hd hsent hword),
    fun hd => (h.callers hd).mono fun _ => hkept⟩
  · rcases List.mem_append.1 hw with hold | hlast
    · exact h.seen hold
    · obtain rfl := List.mem_singleton.1 hlast
      rfl
  · rw [shows?, said_append_worker t fun j => rfl] at hp
    exact hkept (h.owned hp)

theorem Relays.step (h : t.Relays fun _ => True) (hlent : t.Lent) (hs : Step t t') :
    t'.Relays fun _ => True := by
  cases hs with
  | stay => exact h
  | call attached lock => exact h.call fun _ _ => trivial
  | serve handler => exact h.serve handler t.capacity
  | client caller move => exact h.client hlent trivial caller move
  | server worker move => exact h.server hlent worker move

/-- Before anybody is there, whatever stands in the memory. -/
theorem relays_of_nobody (hcallers : t.callers = []) (hworkers : t.workers = []) :
    t.Relays early := by
  have hshows (p : Party) : t.shows? p = none := by
    cases p <;> simp only [shows?, said, hcallers, hworkers, List.getElem?_nil, Option.bind_none]
  refine ⟨fun hw => ?_, fun {p} hp => ?_, fun hc => ?_, fun hc => ?_⟩
  · rw [hworkers] at hw
    cases hw
  · rw [hshows] at hp
    cases hp
  · rw [hcallers] at hc
    cases hc
  · rw [hcallers] at hc
    cases hc

theorem relays_run (capacity : Nat) (acts : List Act) :
    (run capacity acts).Relays fun _ => True :=
  guarded_induction (relays_of_nobody rfl rfl) (fun _ _ hg h hs => h.step hg.lent hs) acts

/-- A call whose wait for the answer has succeeded ends with the status that a handler run has
returned. If all clients share a lock it is the one run of its own request. -/
theorem exists_service_of_answered {capacity : Nat} {acts : List Act} {i : Nat} {c : Caller}
    (hc : (run capacity acts).callers[i]? = some c) (hanswered : c.answered = true)
    {result : Except Error Unit} (hresult : c.call.result? = some result) :
    ∃ x, (run capacity acts).service? x.worker = some x ∧ result = Error.ofStatus x.status ∧
      ∀ lock, (run capacity acts).SharesLock lock → (run capacity acts).services c = [x] := by
  -- Without a common lock nothing ties the handler run to the request, and another one may do.
  by_cases hlock : ∃ lock, (run capacity acts).SharesLock lock
  · obtain ⟨lock, hlock⟩ := hlock
    obtain ⟨x, hservices, hx, -, hgot⟩ :=
      (answered_run hlock).exists_service (recorded_run capacity acts) hc hanswered
    exact ⟨x, hx, (hgot.of_result? hresult).1, fun _ _ => hservices⟩
  · have hover := ((relays_run capacity acts).callers (List.mem_of_getElem? hc)).of_result? hresult
    rcases hover with ⟨-, status, ⟨j, x, hx, rfl⟩, hstatus⟩ | ⟨hunanswered, -⟩
    · exact ⟨x, by rw [worker_of_service? hx, hx], hstatus, fun lock hshares =>
        absurd ⟨lock, hshares⟩ hlock⟩
    · rw [hanswered] at hunanswered
      cases hunanswered

end Traffic

/-! ## One call and one server -/

/-- What a meeting at an object in any state keeps. -/
structure Relaying (handler : Handler) (t : Traffic) (m : Meeting) : Prop where
  mirrors : Mirrors handler t m
  lent : t.Lent
  relays : t.Relays fun result => result = .error .timeout

theorem Relaying.turn {handler : Handler} {t : Traffic} {m : Meeting} (h : Relaying handler t m)
    (x : Turn) : Relaying handler (t.step x.act) (m.turn handler x) := by
  refine ⟨h.mirrors.turn x, h.lent.step (t.step_step x.act), ?_⟩
  cases x with
  | client expired =>
    simp only [Turn.act, Traffic.step]
    split
    · next c hc => exact h.relays.client h.lent rfl hc (c.call.move_step expired t.object)
    · exact h.relays
  | server expired =>
    simp only [Turn.act, Traffic.step]
    split
    · next w hw => exact h.relays.server h.lent hw (w.run.move_step w.handler expired t.object)
    · exact h.relays

theorem Relaying.run {handler : Handler} {t : Traffic} {m : Meeting} (h : Relaying handler t m)
    (turns : List Turn) : ∃ t', Relaying handler t' (m.run handler turns) := by
  induction turns generalizing t m with
  | nil => exact ⟨t, h⟩
  | cons x turns ih => exact ih (h.turn x)

/-- A call that was let through, and a server, at an object in any state. -/
theorem relaying_start {a : Attachment} {poisoned : Bool} {r : Request} {header : Header}
    (hheader : a.headerFor poisoned r = .ok header) {o : SharedObject} (hroom : dataOffset ≤ o.size)
    (handler : Handler) (capacity : Nat) :
    Relaying handler
      { Traffic.found o with
        callers := [{ client := a, request := r, call := a.start poisoned r }]
        workers := [{ handler, run := { capacity } }] }
      ⟨a.start poisoned r, some { capacity }, o⟩ := by
  have hphase (p : Party) : Traffic.phase? { Traffic.found o with
      callers := [{ client := a, request := r, call := a.start poisoned r }]
      workers := [{ handler, run := { capacity } }] } p = none :=
    Traffic.phase?_of_fresh rfl rfl p
  refine ⟨⟨rfl, ⟨_, rfl, rfl⟩, _, rfl, rfl, rfl⟩, ⟨(Traffic.regular_found hroom).lent.size,
    fun hp => ?_, fun hp => ?_⟩, ?_⟩
  · rw [hphase] at hp
    cases hp
  · rw [hphase] at hp
    cases hp
  · have hfound : (Traffic.found o).Relays fun result => result = .error .timeout :=
      Traffic.relays_of_nobody rfl rfl
    refine (hfound.call fun e he => ?_).serve handler capacity
    rw [hheader] at he
    cases he

/-- However a call that was let through and a server take their turns: the call ends out of time, or
with the status that the handler has returned. -/
theorem Meeting.result_cases {a : Attachment} {poisoned : Bool} {r : Request} {header : Header}
    (hheader : a.headerFor poisoned r = .ok header) {o : SharedObject} (hroom : dataOffset ≤ o.size)
    (handler : Handler) (capacity : Nat) (turns : List Turn) {stop : Meeting}
    (hstop : Meeting.run handler ⟨a.start poisoned r, some { capacity }, o⟩ turns = stop)
    {result : Except Error Unit} (hresult : stop.call.result? = some result) :
    result = .error .timeout ∨
      ∃ d, stop.server.bind ServerRun.seen = some d ∧ result = Error.ofStatus (handler d).1 := by
  obtain ⟨t, hmirrors, -, hrelays⟩ := (relaying_start hheader hroom handler capacity).run turns
  rw [hstop] at hmirrors
  obtain ⟨-, ⟨c, hcallers, hcall⟩, w, hworkers, hhandler, hserver⟩ := hmirrors
  have hrelayed : c.Relayed (fun result => result = .error .timeout) t.Returned :=
    hrelays.callers (by rw [hcallers]; exact List.mem_singleton.2 rfl)
  rcases hrelayed.of_result? (by rw [hcall, hresult]) with
    ⟨-, status, ⟨j, x, hx, rfl⟩, hstatus⟩ | ⟨-, hearly⟩
  · obtain ⟨v, hv, hgiven⟩ := Option.bind_eq_some_iff.1 hx
    rw [hworkers] at hv
    obtain rfl := List.mem_singleton.1 (List.mem_of_getElem? hv)
    obtain ⟨d, hd, rfl⟩ := Option.map_eq_some_iff.1 hgiven
    refine .inr ⟨d, by rw [hserver, Option.bind_some, hd], ?_⟩
    rw [hstatus, ← hhandler]
    rfl
  · exact .inl hearly

/-! ## Calls that no server takes part in -/

/-- What a meeting without a server comes to is what a server that never gets a turn leaves. -/
theorem Meeting.run_alone (handler : Handler) (s : ServerRun) (turns : List Turn) (c : ClientCall)
    (o : SharedObject) :
    ∃ alone, Meeting.run handler ⟨c, some s, o⟩ alone =
      { Meeting.run handler ⟨c, none, o⟩ turns with server := some s } := by
  induction turns generalizing c o with
  | nil => exact ⟨[], rfl⟩
  | cons x turns ih =>
    cases x with
    | client expired =>
      obtain ⟨alone, halone⟩ := ih (c.step expired o).1 (c.step expired o).2
      exact ⟨.client expired :: alone, halone⟩
    | server expired => exact ih c o

/-! ## Whole calls -/

namespace Attachment

variable {a : Attachment} {poisoned : Bool} {r : Request} {header : Header} {o : SharedObject}

/-- A call that is let through, at an object in any state and whatever capacity the server gives the
channel: it is out of time, or has the status that the handler has returned. -/
theorem decryptOn_cases (hheader : a.headerFor poisoned r = .ok header)
    (hroom : dataOffset ≤ o.size) (capacity : Nat) (handler : Handler) :
    (a.decryptOn poisoned r (some (capacity, handler)) o).1.result = .error .timeout ∨
      ∃ d, (a.decryptOn poisoned r (some (capacity, handler)) o).1.seen = some d ∧
        (a.decryptOn poisoned r (some (capacity, handler)) o).1.result =
          Error.ofStatus (handler d).1 := by
  simp only [decryptOn, Option.map_some]
  cases hresult : (Meeting.run handler ⟨a.start poisoned r, some { capacity }, o⟩
      (Meeting.turnsWithin a.timeoutMs)).call.result? with
  | none => exact .inl rfl
  | some result => exact Meeting.result_cases hheader hroom handler capacity _ rfl hresult

/-- A call that is let through, and that no server takes part in, is out of time. -/
theorem result_decryptOn_none (hheader : a.headerFor poisoned r = .ok header)
    (hroom : dataOffset ≤ o.size) :
    (a.decryptOn poisoned r none o).1.result = .error .timeout := by
  simp only [decryptOn, Option.map_none]
  cases hresult : (Meeting.run (fun d => (Status.none, d.data)) ⟨a.start poisoned r, none, o⟩
      (Meeting.turnsWithin a.timeoutMs)).call.result? with
  | none => rfl
  | some result =>
    obtain ⟨alone, halone⟩ := Meeting.run_alone (fun d => (Status.none, d.data)) { capacity := 0 }
      (Meeting.turnsWithin a.timeoutMs) (a.start poisoned r) o
    rcases Meeting.result_cases hheader hroom _ 0 alone halone hresult with htime | ⟨d, hd, -⟩
    · exact htime
    · cases hd

/-- **A status comes back as the handler has returned it.** A call at an object in any state that is
let through, and is not out of time, ends with the status that the handler of its server has
returned. -/
theorem decrypt_answered (hheader : a.headerFor poisoned r = .ok header) {m : SharedMemory}
    (hroom : dataOffset ≤ (m.object a.object).size) {server : Option (Server × Handler)}
    (htime : (a.decrypt poisoned r server m).1.result ≠ .error .timeout) :
    ∃ s handler d, server = some (s, handler) ∧ (a.decrypt poisoned r server m).1.seen = some d ∧
      (a.decrypt poisoned r server m).1.result = Error.ofStatus (handler d).1 := by
  cases server with
  | none => exact absurd (result_decryptOn_none hheader hroom) htime
  | some pair =>
    obtain ⟨s, handler⟩ := pair
    by_cases hsame : s.object = a.object
    · simp only [decrypt, if_pos hsame] at htime ⊢
      obtain hlate | ⟨d, hd, hresult⟩ := decryptOn_cases hheader hroom s.capacity handler
      · exact absurd hlate htime
      · exact ⟨s, handler, d, rfl, hd, hresult⟩
    · simp only [decrypt, if_neg hsame] at htime
      refine absurd (result_decryptOn_none hheader ?_) htime
      rw [SharedMemory.object_setObject_of_ne _ _ hsame]
      exact hroom

end Attachment

end Channel

end ContentDecryption
