import ContentDecryption.Proofs.Channel.Record

/-!
# Calls that take turns

At a channel whose clients share one lock one call is under way at a time, so each
stage of a call leaves few values for the handshake word: `ClientStage.words`. A server
moves a request on and nothing else, which leads from each of these values to another
one of the same stage. From when it has written its request until it is over, a call is
the writer of what stands in the memory.

Main results:

* `ClientCall.Move.wordIn`, `ServerRun.Move.wordIn`: what a step does to these values;
* `Traffic.Orderly`, `Traffic.orderly_run`: the invariant, for every run under one lock.
-/

namespace ContentDecryption

namespace Channel

/-! ## What the word can be -/

/-- The values of the word between calls. -/
def betweenCalls : List Phase := [.idle, .decrypting, .completed]

/-- The values of the word while a call is at a stage. -/
def ClientStage.words : ClientStage → List Phase
  | .acquiring => betweenCalls
  | .discarding => [.completed]
  | .filling => [.producing]
  | .submitting => [.producing]
  | .awaiting => [.produced, .decrypting, .completed]
  | .withdrawing => [.produced, .decrypting, .completed]
  | .dropping => [.decrypting, .completed]
  | .collecting => [.consuming]
  | .releasing _ => [.consuming]
  | .finished _ => betweenCalls

/-- Whether the word of an object is one of these. -/
def WordIn (o : SharedObject) (l : List Phase) : Prop := ∃ f ∈ l, stateOf o = f.word

theorem WordIn.mem {o : SharedObject} {l : List Phase} (h : WordIn o l) {f : Phase}
    (hf : stateOf o = f.word) : f ∈ l := by
  obtain ⟨g, hg, hword⟩ := h
  rwa [Phase.word_injective (hf.symm.trans hword)]

/-- Whether a call has written its request and is not over. -/
def ClientStage.isSent : ClientStage → Bool
  | .submitting => true
  | .awaiting => true
  | .withdrawing => true
  | .dropping => true
  | .collecting => true
  | .releasing _ => true
  | _ => false

namespace ClientCall.Move

variable {c : ClientCall} {o : SharedObject} {next : ClientCall × SharedObject}

/-- A call leads from the words of one stage to those of the next. -/
theorem wordIn (h : c.Move o next) (hsize : stateOffset + 4 ≤ o.size)
    (hword : WordIn o c.stage.words) : WordIn next.2 next.1.stage.words := by
  have hpublish (p : Phase) {l : List Phase} (hp : p ∈ l) : WordIn (publish o p) l :=
    ⟨p, hp, stateOf_publish hsize p⟩
  cases h with
  | rest => exact hword
  | acquire | discard | submit | collect | withdraw | drop | release =>
    exact hpublish _ (by simp [ClientStage.words, betweenCalls])
  | notice stage word => exact ⟨.completed, by simp [ClientStage.words], word⟩
  | fill stage =>
    rw [stage] at hword
    obtain ⟨f, hf, hstate⟩ := hword
    exact ⟨f, hf, (stateOf_fill c o).trans hstate⟩
  | giveUp stage | expire stage | read stage =>
    rw [stage] at hword
    exact hword
  | overtaken stage word =>
    rw [stage] at hword
    obtain ⟨f, hf, hstate⟩ := hword
    obtain rfl := List.mem_singleton.1 hf
    exact absurd hstate word
  | miss stage word =>
    rw [stage] at hword
    obtain ⟨f, hf, hstate⟩ := hword
    have hproduced : f ≠ .produced := by
      rintro rfl
      exact word hstate
    refine ⟨f, ?_, hstate⟩
    revert hf hproduced
    cases f <;> simp [ClientStage.words]
  | abandon stage word =>
    rw [stage] at hword
    obtain ⟨f, hf, hstate⟩ := hword
    refine ⟨f, ?_, hstate⟩
    revert hf
    cases f <;> simp [ClientStage.words, betweenCalls]

/-- A call that is over does nothing. -/
theorem eq_of_isOver (h : c.Move o next) (hover : c.isOver = true) : next = (c, o) := by
  cases h with
  | rest => rfl
  | acquire stage | notice stage | giveUp stage | discard stage | overtaken stage | fill stage
  | submit stage | collect stage | expire stage | withdraw stage | miss stage | drop stage
  | abandon stage | read stage | release stage =>
    rw [isOver, result?, stage] at hover
    cases hover

/-- A call has written its request, or it is just doing so. -/
theorem isSent (h : c.Move o next) (hsent : next.1.stage.isSent = true) :
    c.stage.isFilling = true ∨ c.stage.isSent = true := by
  cases h with
  | rest => exact .inr hsent
  | fill stage => exact .inl (by rw [stage]; rfl)
  | submit stage | collect stage | expire stage | miss stage | read stage =>
    exact .inr (by rw [stage]; rfl)
  | _ => cases hsent

end ClientCall.Move

/-- A server leads from the words of a stage of a call to words of the same stage. -/
theorem ServerRun.Move.wordIn {handler : Handler} {s : ServerRun} {o : SharedObject}
    {next : ServerRun × SharedObject} (h : s.Move handler o next)
    (hsize : stateOffset + 4 ≤ o.size)
    (hcompleting : s.stage = .completing → stateOf o = Phase.decrypting.word) {g : ClientStage}
    (hword : WordIn o g.words) : WordIn next.2 g.words := by
  cases h with
  | rest => exact hword
  | expire => exact hword
  | take stage word =>
    have hmem : Phase.produced ∈ g.words := hword.mem word
    refine ⟨.decrypting, ?_, stateOf_publish hsize _⟩
    revert hmem
    cases g <;> simp [ClientStage.words, betweenCalls]
  | handle =>
    obtain ⟨f, hf, hstate⟩ := hword
    exact ⟨f, hf, (stateOf_answerIn ..).trans hstate⟩
  | report =>
    obtain ⟨f, hf, hstate⟩ := hword
    exact ⟨f, hf, (stateOf_writeStatus ..).trans hstate⟩
  | complete stage =>
    have hmem : Phase.decrypting ∈ g.words := hword.mem (hcompleting stage)
    refine ⟨.completed, ?_, stateOf_publish hsize _⟩
    revert hmem
    cases g <;> simp [ClientStage.words, betweenCalls]

namespace Traffic

/-! ## One call at a time -/

/-- All calls were made by clients with this lock. -/
def SharesLock (t : Traffic) (lock : String) : Prop := ∀ c ∈ t.callers, c.client.lock = lock

theorem sharesLock_of_all {t : Traffic} {lock : String}
    (h : t.callers.all (fun c => c.client.lock == lock) = true) : t.SharesLock lock :=
  fun c hc => eq_of_beq (List.all_eq_true.1 h c hc)

/-- One call at most is under way, the word is one of those of its stage, and what stands in the
memory is its own once it has written it. -/
structure Orderly (t : Traffic) : Prop where
  single : ∀ {i k : Nat} {c d : Caller}, t.callers[i]? = some c → t.callers[k]? = some d →
    c.call.isOver = false → d.call.isOver = false → i = k
  word : ∀ {i : Nat} {c : Caller}, t.callers[i]? = some c → c.call.isOver = false →
    WordIn t.object c.call.stage.words
  between : (∀ c ∈ t.callers, c.call.isOver = true) → WordIn t.object betweenCalls
  writer : ∀ {i : Nat} {c : Caller}, t.callers[i]? = some c → c.call.stage.isSent = true →
    t.writer = some i

theorem isOver_of_isSent {c : ClientCall} (h : c.stage.isSent = true) : c.isOver = false := by
  rw [ClientCall.isOver, ClientCall.result?]
  cases hs : c.stage with
  | finished => rw [hs] at h; cases h
  | _ => rfl

/-- The clients of an earlier time are still there. -/
theorem SharesLock.of_step {t t' : Traffic} {lock : String} (h : t'.SharesLock lock)
    (hs : Step t t') : t.SharesLock lock := by
  intro c hc
  cases hs with
  | stay | serve => exact h c hc
  | call => exact h c (List.mem_append_left _ hc)
  | @client i d next caller move =>
    obtain ⟨k, hk⟩ := List.mem_iff_getElem?.1 hc
    have hafter : (t.afterClient i d next).callers[k]? = _ := callers_afterClient caller k
    split_ifs at hafter with hik
    · subst hik
      rw [caller] at hk
      cases hk
      exact h (c.advance next.1) (List.mem_of_getElem? hafter)
    · exact h c (List.mem_of_getElem? (hafter.trans hk))
  | @server j w next worker move =>
    obtain ⟨k, hk⟩ := List.mem_iff_getElem?.1 hc
    have hafter := callers_afterServer t j w next k
    rw [hk] at hafter
    split_ifs at hafter
    · have hlock := h _ (List.mem_of_getElem? hafter)
      rwa [client_credit] at hlock
    · exact h c (List.mem_of_getElem? hafter)

theorem orderly_start (capacity : Nat) : (start capacity).Orderly where
  single := fun h => nomatch h
  word := fun h => nomatch h
  between := fun _ => ⟨.idle, by simp [betweenCalls], stateOf_start capacity⟩
  writer := fun h => nomatch h

/-- A call begins when no other is under way, or it is over at once. -/
theorem Orderly.call {t : Traffic} (h : t.Orderly) {a : Attachment} (poisoned : Bool) (r : Request)
    (hover : (a.start poisoned r).isOver = true ∨ ∀ c ∈ t.callers, c.call.isOver = true) :
    Orderly { t with
      callers := t.callers ++ [{ client := a, request := r, call := a.start poisoned r }] } := by
  have hstage : (a.start poisoned r).isOver = false → (a.start poisoned r).stage = .acquiring := by
    unfold Attachment.start
    split
    · exact fun _ => rfl
    · exact fun hf => nomatch hf
  have hcases {i : Nat} {c : Caller}
      (hc : (t.callers ++ [{ client := a, request := r, call := a.start poisoned r }])[i]? = some c)
      (hf : c.call.isOver = false) : t.callers[i]? = some c ∨
        (i = t.callers.length ∧ c.call.stage = .acquiring ∧
          ∀ d ∈ t.callers, d.call.isOver = true) := by
    rcases getElem?_concat_cases hc with hold | ⟨hi, rfl⟩
    · exact .inl hold
    · refine .inr ⟨hi, hstage hf, hover.resolve_left fun ht => ?_⟩
      rw [ht] at hf
      cases hf
  have hlive {i : Nat} {c : Caller} (hc : t.callers[i]? = some c) (hf : c.call.isOver = false) :
      ¬ ∀ d ∈ t.callers, d.call.isOver = true := by
    intro hall
    rw [hall c (List.mem_of_getElem? hc)] at hf
    cases hf
  refine ⟨fun hc hd hf hg => ?_, fun hc hf => ?_, fun hall => ?_, fun hc hs => ?_⟩
  · rcases hcases hc hf with hc | ⟨hi, -, hall⟩
    · rcases hcases hd hg with hd | ⟨-, -, hall⟩
      · exact h.single hc hd hf hg
      · exact absurd hall (hlive hc hf)
    · rcases hcases hd hg with hd | ⟨hk, -⟩
      · exact absurd hall (hlive hd hg)
      · rw [hi, hk]
  · rcases hcases hc hf with hc | ⟨-, hacquiring, hall⟩
    · exact h.word hc hf
    · rw [hacquiring]
      exact h.between hall
  · exact h.between fun c hc => hall c (List.mem_append_left _ hc)
  · rcases hcases hc (isOver_of_isSent hs) with hc | ⟨-, hacquiring, -⟩
    · exact h.writer hc hs
    · rw [hacquiring] at hs
      cases hs

theorem Orderly.client {t : Traffic} (h : t.Orderly) (hg : t.Guarded) {i : Nat} {c : Caller}
    {next : ClientCall × SharedObject} (hc : t.callers[i]? = some c)
    (move : c.call.Move t.object next) : (t.afterClient i c next).Orderly := by
  -- While another call is under way this one is over, and so does nothing.
  have hidle {k : Nat} {d : Caller} (hd : t.callers[k]? = some d) (hik : i ≠ k)
      (hf : d.call.isOver = false) : c.call.isOver = true := by
    cases hover : c.call.isOver with
    | true => rfl
    | false => exact absurd (h.single hc hd hover hf) hik
  have hbefore {k : Nat} {d : Caller} (hd : (t.afterClient i c next).callers[k]? = some d)
      (hf : d.call.isOver = false) :
      ∃ e, t.callers[k]? = some e ∧ e.call.isOver = false := by
    rw [callers_afterClient hc] at hd
    split_ifs at hd with hik
    · cases hd
      exact ⟨c, by rw [← hik, hc], move.isOver_eq_false hf⟩
    · exact ⟨d, hd, hf⟩
  refine ⟨fun hd he hf hf' => ?_, fun {k d} hd hf => ?_, fun hall => ?_, fun {k d} hd hs => ?_⟩
  · obtain ⟨d', hd', hfd⟩ := hbefore hd hf
    obtain ⟨e', he', hfe⟩ := hbefore he hf'
    exact h.single hd' he' hfd hfe
  · rw [callers_afterClient hc] at hd
    split_ifs at hd with hik
    · cases hd
      exact move.wordIn hg.room (h.word hc (move.isOver_eq_false hf))
    · rw [afterClient, move.eq_of_isOver (hidle hd hik hf)]
      exact h.word hd hf
  · have hself : next.1.isOver = true :=
      hall (c.advance next.1) (List.mem_of_getElem? (by rw [callers_afterClient hc, if_pos rfl]))
    cases hover : c.call.isOver with
    | true =>
      rw [afterClient, move.eq_of_isOver hover]
      refine h.between fun d hd => ?_
      obtain ⟨k, hk⟩ := List.mem_iff_getElem?.1 hd
      by_cases hik : i = k
      · rw [← hik, hc] at hk
        cases hk
        exact hover
      · exact hall d (List.mem_of_getElem? (by rw [callers_afterClient hc, if_neg hik, hk]))
    | false =>
      have hword := move.wordIn hg.room (h.word hc hover)
      rw [ClientCall.isOver, ClientCall.result?] at hself
      cases hs : next.1.stage with
      | finished r => rw [hs] at hword; exact hword
      | _ => rw [hs] at hself; cases hself
  · rw [callers_afterClient hc] at hd
    rw [afterClient]
    split_ifs at hd with hik
    · cases hd
      rcases move.isSent hs with hfilling | hsent
      · rw [hfilling, ← hik]
        rfl
      · dsimp only
        split_ifs
        · rw [hik]
        · rw [← hik]
          exact h.writer hc hsent
    · have hover := hidle hd hik (isOver_of_isSent hs)
      rw [ClientStage.isFilling_of_phase? (ClientCall.phase?_of_isOver hover)]
      exact h.writer hd hs

theorem Orderly.server {t : Traffic} (h : t.Orderly) (hg : t.Guarded) {j : Nat} {w : Worker}
    {next : ServerRun × SharedObject} (hw : t.workers[j]? = some w)
    (move : w.run.Move w.handler t.object next) : (t.afterServer j w next).Orderly := by
  have hword {g : ClientStage} (hg' : WordIn t.object g.words) : WordIn next.2 g.words := by
    refine move.wordIn hg.room (fun hstage => ?_) hg'
    exact hg.word (p := .server j) (by rw [phase?, said_server hw, hstage]; rfl)
  have hbefore {k : Nat} {d : Caller} (hd : (t.afterServer j w next).callers[k]? = some d) :
      ∃ e, t.callers[k]? = some e ∧ e.call = d.call := by
    rw [callers_afterServer] at hd
    split_ifs at hd
    · obtain ⟨e, he, rfl⟩ := Option.map_eq_some_iff.1 hd
      exact ⟨e, he, (call_credit ..).symm⟩
    · exact ⟨d, hd, rfl⟩
  refine ⟨fun hc hd hf hf' => ?_, fun hc hf => ?_, fun hall => ?_, fun hc hs => ?_⟩
  · obtain ⟨c', hc', hcall⟩ := hbefore hc
    obtain ⟨d', hd', hcall'⟩ := hbefore hd
    exact h.single hc' hd' (by rw [hcall, hf]) (by rw [hcall', hf'])
  · obtain ⟨c', hc', hcall⟩ := hbefore hc
    rw [← hcall]
    exact hword (h.word hc' (by rw [hcall, hf]))
  · refine hword (g := .acquiring) (h.between fun d hd => ?_)
    obtain ⟨k, hk⟩ := List.mem_iff_getElem?.1 hd
    have hafter := callers_afterServer t j w next k
    rw [hk] at hafter
    split_ifs at hafter
    · have := hall _ (List.mem_of_getElem? hafter)
      rwa [call_credit] at this
    · exact hall d (List.mem_of_getElem? hafter)
  · obtain ⟨c', hc', hcall⟩ := hbefore hc
    exact h.writer hc' (by rw [hcall, hs])

theorem Orderly.step {t t' : Traffic} {lock : String} (h : t.Orderly) (hg : t.Guarded)
    (hlock : t'.SharesLock lock) (hs : Step t t') : t'.Orderly := by
  have hbefore := hlock.of_step hs
  cases hs with
  | stay => exact h
  | serve => exact ⟨h.single, h.word, h.between, h.writer⟩
  | @call a poisoned r attached hfree =>
    refine h.call poisoned r (hfree.imp_right fun hall c hc => hall c hc ?_)
    rw [hbefore c hc]
    exact (hlock _ (List.mem_append_right _ (List.mem_singleton.2 rfl))).symm
  | client caller move => exact h.client hg caller move
  | server worker move => exact h.server hg worker move

theorem orderly_run {capacity : Nat} {acts : List Act} {lock : String}
    (h : (run capacity acts).SharesLock lock) : (run capacity acts).Orderly := by
  revert h
  refine guarded_induction (P := fun t => t.SharesLock lock → t.Orderly)
    (fun _ => orderly_start capacity) (fun t t' hg ih hs hlock => ?_) acts
  exact (ih (hlock.of_step hs)).step hg hlock hs

end Traffic

end Channel

end ContentDecryption
