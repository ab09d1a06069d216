import ContentDecryption.Proofs.Channel.Attempt
import ContentDecryption.Proofs.Channel.Written

/-!
# What a failed call leaves behind

A decrypt call can fail before the handshake, while it waits for the channel, while its
request lies there, and while a server is at it. Before the handshake and before it has
the channel it leaves the memory alone. A request that no server has taken is taken
back, and nothing is different but the request itself. The caller's buffer is written
by a call that has an answer and by no other.

What stood in the memory at first does not matter, since a call that has the channel has
it from the idle word. The lock does: with it, what a call finds in the word after it has
thrown an old answer away is what it has left there.

Main definitions:

* `Attempt.Spared`: since the call took the channel nothing out of its reach has changed;
* `Attempt.Course`: what is true of the memory at each stage of a call.

Main results:

* `Attempt.Course.own`, `Attempt.Course.other`, `Attempt.exists_course`: every call under one lock
  takes this course;
* `Attempt.failed_call`: what a call that fails has done.
-/

namespace ContentDecryption

namespace Channel

/-! ## Refusals -/

namespace Attachment

variable {a : Attachment} {poisoned : Bool} {r : Request}

theorem headerFor_eq_bufferTooSmall_iff :
    a.headerFor poisoned r = .error .bufferTooSmall ↔ a.capacity < r.data.length + a.reserved := by
  rcases a.headerFor_cases poisoned r with ⟨hfull, he⟩ | ⟨hroom, -, he⟩ | ⟨hroom, -, hok⟩
  · exact iff_of_true he hfull
  · exact iff_of_false (by rw [he]; exact nofun) (Nat.not_lt.2 hroom)
  · refine iff_of_false ?_ (Nat.not_lt.2 hroom)
    rw [hok]
    split_ifs <;> exact nofun

theorem headerFor_eq_invalidArg_iff (hcapacity : a.capacity < UInt32.size) :
    a.headerFor poisoned r = .error .invalidArg ↔ r.data.length + a.reserved ≤ a.capacity ∧
      ∃ i, r.info = some i ∧ Header.fits i = false := by
  rcases a.headerFor_cases poisoned r with ⟨hfull, he⟩ | ⟨hroom, hr, he⟩ | ⟨hroom, hr, hok⟩
  · exact iff_of_false (by rw [he]; exact nofun) fun h => Nat.not_lt.2 h.1 hfull
  · exact iff_of_true he ⟨hroom, Header.exists_fits_eq_false
      (show r.data.length < UInt32.size by omega) hr⟩
  · refine iff_of_false ?_ fun ⟨_, i, hi, hfits⟩ => ?_
    · rw [hok]
      split_ifs <;> exact nofun
    · rw [hr.2 i hi] at hfits
      cases hfits

theorem headerFor_eq_poisoned_iff (hcapacity : a.capacity < UInt32.size) :
    a.headerFor poisoned r = .error (.other "Decrypt lock poisoned") ↔
      r.data.length + a.reserved ≤ a.capacity ∧
        (∀ i, r.info = some i → Header.fits i = true) ∧ poisoned = true := by
  rcases a.headerFor_cases poisoned r with ⟨hfull, he⟩ | ⟨hroom, hr, he⟩ | ⟨hroom, hr, hok⟩
  · exact iff_of_false (by rw [he]; exact nofun) fun h => Nat.not_lt.2 h.1 hfull
  · refine iff_of_false (by rw [he]; exact nofun) fun h => hr ⟨?_, h.2.1⟩
    exact show r.data.length < UInt32.size by omega
  · rw [hok]
    cases poisoned with
    | true => exact iff_of_true rfl ⟨hroom, hr.2, rfl⟩
    | false => exact iff_of_false nofun fun h => nomatch h.2.2

end Attachment

/-! ## Results -/

/-- A call that is over has an answer and says what its status means, or it has none and was out of
time. -/
def Caller.Settled (c : Caller) : Prop :=
  ∀ r, c.call.result? = some r →
    (c.answered = false ∧ r = .error .timeout) ∨
      (c.answered = true ∧ ∃ status, r = Error.ofStatus status)

theorem Caller.Settled.advance {c : Caller} {o : SharedObject} {next : ClientCall × SharedObject}
    {capacity : Nat} (h : c.Settled) (hsound : c.Sound capacity) (move : c.call.Move o next) :
    (c.advance next.1).Settled := by
  intro r hr
  have hlate (hstage : c.call.stage.isUnanswered = true)
      (hcollecting : next.1.stage.isCollecting = false) :
      (c.advance next.1).answered = false := by
    rw [Caller.advance, hsound.unanswered hstage, hcollecting]
    rfl
  cases move with
  | giveUp stage | withdraw stage | drop stage | abandon stage =>
    cases hr
    exact .inl ⟨hlate (by rw [stage]; rfl) rfl, rfl⟩
  | @release status stage =>
    cases hr
    refine .inr ⟨?_, status, rfl⟩
    rw [Caller.advance, hsound.releasing status stage]
    rfl
  | rest stage =>
    rw [Caller.advance, ClientStage.isCollecting_of_phase? stage, Bool.or_false]
    exact h r hr
  | acquire | notice | discard | overtaken | fill | submit | collect | expire | miss | read =>
    cases hr

namespace Attempt

/-! ## The course of a call -/

section

variable (x : Attempt)

/-- The call has taken the idle channel, and no byte out of its reach has changed since. -/
def Spared (later : List Act) : Prop :=
  ∃ past expired c, past ++ [.client x.number expired] <+: later ∧ x.caller? past = some c ∧
    c.call.stage = .acquiring ∧ stateOf (x.after past).object = Phase.idle.word ∧
    ∀ k, ¬ InReach x.request.data.length k →
      (x.after later).object.byte k = (x.after past).object.byte k

/-- What is true at a stage of a call, with the servers that have taken its request: no memory is
changed before the channel is idle, and nothing out of the call's reach is until a server has its
request. -/
def Course (later : List Act) (takenBy : List Nat) : ClientStage → Prop
  | .acquiring => (takenBy = [] ∧ (x.after later).writer ≠ some x.number) ∧
      (x.LeavesMemory later ∨ stateOf (x.after later).object = Phase.idle.word)
  | .discarding => (takenBy = [] ∧ (x.after later).writer ≠ some x.number) ∧ x.LeavesMemory later
  | .filling => (takenBy = [] ∧ (x.after later).writer ≠ some x.number) ∧ x.Spared later
  | .submitting => (x.after later).writer = some x.number ∧ x.Spared later
  | .awaiting => (x.after later).writer = some x.number ∧
      (takenBy = [] → stateOf (x.after later).object = Phase.produced.word ∧ x.Spared later)
  | .withdrawing => (x.after later).writer = some x.number ∧
      (takenBy = [] → stateOf (x.after later).object = Phase.produced.word ∧ x.Spared later)
  | .dropping => takenBy ≠ []
  | .collecting => takenBy ≠ []
  | .releasing status => takenBy ≠ [] ∧ (x.after later).object.word statusOffset = status
  | .finished _ => True

end

variable {x : Attempt} {later : List Act} {c : Caller}

theorem Spared.concat (h : x.Spared later) {y : Act}
    (hy : ∀ k, ¬ InReach x.request.data.length k →
      (x.after (later ++ [y])).object.byte k = (x.after later).object.byte k) :
    x.Spared (later ++ [y]) := by
  obtain ⟨past, expired, c, hprefix, hc, hstage, hword, hbytes⟩ := h
  refine ⟨past, expired, c, hprefix.trans (List.prefix_append ..), hc, hstage, hword,
    fun k hk => ?_⟩
  rw [hy k hk, hbytes k hk]

/-- What is true at a stage stays true while nothing happens. -/
theorem Course.same {takenBy : List Nat} {stage : ClientStage} (h : x.Course later takenBy stage)
    {y : Act} (hobject : (x.after (later ++ [y])).object = (x.after later).object)
    (hwriter : (x.after (later ++ [y])).writer = (x.after later).writer) :
    x.Course (later ++ [y]) takenBy stage := by
  have hleaves (h : x.LeavesMemory later) : x.LeavesMemory (later ++ [y]) :=
    OwnActs.concat h fun _ _ => hobject
  have hspared (h : x.Spared later) : x.Spared (later ++ [y]) := h.concat fun k _ => by rw [hobject]
  cases stage with
  | acquiring => exact ⟨hwriter ▸ h.1, h.2.imp hleaves (hobject ▸ ·)⟩
  | discarding => exact ⟨hwriter ▸ h.1, hleaves h.2⟩
  | filling | submitting => exact ⟨hwriter ▸ h.1, hspared h.2⟩
  | awaiting | withdrawing =>
    exact ⟨hwriter ▸ h.1, fun hl => ⟨hobject ▸ (h.2 hl).1, hspared (h.2 hl).2⟩⟩
  | dropping | collecting => exact h
  | releasing status => exact ⟨h.1, hobject ▸ h.2⟩
  | finished result => trivial

/-- One more step of a call leads from what is true at its stage to what is true at the next. -/
theorem Course.own (hc : x.caller? later = some c)
    (h : x.Course later c.takenBy c.call.stage) (expired : Bool) :
    ∃ c', x.caller? (later ++ [.client x.number expired]) = some c' ∧
      x.Course (later ++ [.client x.number expired]) c'.takenBy c'.call.stage := by
  obtain ⟨hafter, hc'⟩ := caller?_own hc expired
  refine ⟨_, hc', ?_⟩
  have hroom := (regular_after (x := x) later).lent.room
  have hbytes (k : Nat) (hk : ¬ InReach x.request.data.length k) := byte_own hc expired hk
  have move := c.call.move_step expired (x.after later).object
  generalize c.call.step expired (x.after later).object = next at hafter move
  have hobject : (x.after (later ++ [.client x.number expired])).object = next.2 := by
    rw [hafter]
    rfl
  have hwriter (hnot : c.call.stage.isFilling = false) :
      (x.after (later ++ [.client x.number expired])).writer = (x.after later).writer := by
    rw [hafter, Traffic.afterClient, hnot]
    rfl
  have hunsent (h : c.takenBy = [] ∧ (x.after later).writer ≠ some x.number)
      (hnot : c.call.stage.isFilling = false) : c.takenBy = [] ∧
        (x.after (later ++ [.client x.number expired])).writer ≠ some x.number :=
    ⟨h.1, hwriter hnot ▸ h.2⟩
  have hleaves (h : x.LeavesMemory later) (hsame : next.2 = (x.after later).object) :
      x.LeavesMemory (later ++ [.client x.number expired]) :=
    OwnActs.concat h fun _ _ => hobject.trans hsame
  have hspared (h : x.Spared later) : x.Spared (later ++ [.client x.number expired]) :=
    h.concat hbytes
  cases move with
  | giveUp | withdraw | drop | abandon | release => trivial
  | acquire stage word =>
    rw [stage] at h
    refine ⟨hunsent h.1 (by rw [stage]; rfl), ?_⟩
    exact ⟨later, expired, c, List.prefix_refl _, hc, stage, word, hbytes⟩
  | notice stage word =>
    rw [stage] at h
    refine ⟨hunsent h.1 (by rw [stage]; rfl), ?_⟩
    refine hleaves (h.2.resolve_right fun hidle => ?_) rfl
    exact absurd (Phase.word_injective (hidle.symm.trans word)) (by decide)
  | discard stage word =>
    rw [stage] at h
    refine ⟨hunsent h.1 (by rw [stage]; rfl), .inr ?_⟩
    rw [hobject]
    exact stateOf_publish hroom .idle
  | overtaken stage word =>
    rw [stage] at h
    exact ⟨hunsent h.1 (by rw [stage]; rfl), .inl (hleaves h.2 rfl)⟩
  | fill stage =>
    rw [stage] at h
    refine ⟨?_, hspared h.2⟩
    rw [hafter, Traffic.afterClient, stage]
    rfl
  | submit stage =>
    rw [stage] at h
    refine ⟨by rw [hwriter (by rw [stage]; rfl)]; exact h.1, fun _ => ⟨?_, hspared h.2⟩⟩
    rw [hobject]
    exact stateOf_publish hroom .produced
  | collect stage word =>
    rw [stage] at h
    intro huntaken
    exact absurd (Phase.word_injective ((h.2 huntaken).1.symm.trans word)) (by decide)
  | expire stage word =>
    have hsame := h.same hobject (hwriter (by rw [stage]; rfl))
    rw [stage] at hsame
    exact hsame
  | miss stage word =>
    rw [stage] at h
    exact fun huntaken => word (h.2 huntaken).1
  | read stage =>
    rw [stage] at h
    exact ⟨h, by rw [hobject]⟩
  | rest stage => exact h.same hobject (hwriter (ClientStage.isFilling_of_phase? stage))

/-- What is true at a stage of a call stays true whatever others do. -/
theorem Course.other (hc : x.caller? later = some c) (h : x.Course later c.takenBy c.call.stage)
    {y : Act} (hy : Traffic.Other (x.after later) (x.after (later ++ [y])) x.number c)
    (hown : ∀ expired, y ≠ .client x.number expired) :
    ∃ l, x.caller? (later ++ [y]) = some { c with takenBy := l } ∧
      x.Course (later ++ [y]) l c.call.stage := by
  have hleaves (h : x.LeavesMemory later) : x.LeavesMemory (later ++ [y]) :=
    OwnActs.concat h fun expired heq => absurd heq (hown expired)
  -- In a phase of the call the word is its own, so that no server does anything.
  have hphase {f g : Phase} (hf : c.call.stage.phase? = some f)
      (hg : stateOf (x.after later).object = g.word) (hfg : f ≠ g) : False := by
    have hp : (x.after later).phase? (.client x.number) = some f := by
      rw [Traffic.phase?, Traffic.said_client hc, hf]
    exact hfg (Phase.word_injective (((regular_after later).lent.word hp).symm.trans hg))
  have hother {f g : Phase} (hf : stateOf (x.after later).object = f.word)
      (hg : stateOf (x.after later).object = g.word) (hfg : f ≠ g) : False :=
    hfg (Phase.word_injective (hf.symm.trans hg))
  cases hy with
  | none caller writer object => exact ⟨c.takenBy, caller, h.same object writer⟩
  | serves caller writer word =>
    refine ⟨c.takenBy, caller, ?_⟩
    cases hs : c.call.stage with
    | finished => trivial
    | dropping | collecting => rw [hs] at h; exact h
    | acquiring =>
      rw [hs] at h
      exact ⟨writer ▸ h.1, h.2.imp hleaves fun hidle => (hother hidle word (by decide)).elim⟩
    | discarding => rw [hs] at h; exact ⟨writer ▸ h.1, hleaves h.2⟩
    | filling | submitting | releasing => exact (hphase (by rw [hs]; rfl) word (by decide)).elim
    | awaiting | withdrawing =>
      rw [hs] at h
      exact ⟨writer ▸ h.1, fun hl => (hother (h.2 hl).1 word (by decide)).elim⟩
  | takes writer word caller =>
    obtain ⟨l, hl, hself, hnot⟩ := caller
    refine ⟨l, hl, ?_⟩
    have htaken (hne : c.takenBy ≠ []) : l ≠ [] := by
      by_cases hwriter : (x.after later).writer = some x.number
      · exact hself hwriter
      · rw [hnot hwriter]
        exact hne
    cases hs : c.call.stage with
    | finished => trivial
    | dropping | collecting => rw [hs] at h; exact htaken h
    | acquiring =>
      rw [hs] at h
      refine ⟨⟨(hnot h.1.2).trans h.1.1, writer ▸ h.1.2⟩, ?_⟩
      exact h.2.imp hleaves fun hidle => (hother hidle word (by decide)).elim
    | discarding =>
      rw [hs] at h
      exact ⟨⟨(hnot h.1.2).trans h.1.1, writer ▸ h.1.2⟩, hleaves h.2⟩
    | filling | submitting | releasing => exact (hphase (by rw [hs]; rfl) word (by decide)).elim
    | awaiting | withdrawing =>
      rw [hs] at h
      exact ⟨writer ▸ h.1, fun hl => absurd hl (hself h.1)⟩

/-- Of the calls with one lock one is under way at a time. -/
theorem isOver_of_ne {lock : String} (hlock : (x.after later).SharesLock lock)
    (hc : x.caller? later = some c) (hlive : c.call.isOver = false) {i : Nat} {d : Caller}
    (hi : i ≠ x.number) (hd : (x.after later).callers[i]? = some d) : d.call.isOver = true := by
  cases hover : d.call.isOver with
  | true => rfl
  | false =>
    have hshared : d.client.lock = c.client.lock := by
      rw [hlock d (List.mem_of_getElem? hd), hlock c (List.mem_of_getElem? hc)]
    exact absurd ((regular_after later).turns hd hc hshared hover hlive) hi

/-- Every call that is let through takes its course, if all calls share one lock. -/
theorem exists_course {header : Header}
    (hheader : x.client.headerFor x.poisoned x.request = .ok header) {lock : String}
    (hlock : (x.after later).SharesLock lock) :
    ∃ c, x.caller? later = some c ∧ c.Settled ∧ x.Course later c.takenBy c.call.stage := by
  induction later using List.reverseRecOn with
  | nil =>
    refine ⟨x.start, caller?_nil, ?_, ?_⟩ <;> rw [start, Attachment.start_of_ok hheader]
    · intro r hr
      cases hr
    · refine ⟨⟨rfl, fun hwriter => ?_⟩, .inl OwnActs.nil⟩
      rw [after_nil] at hwriter
      exact absurd (regular_before.writer hwriter) (Nat.lt_irrefl _)
  | append_singleton later y ih =>
    rw [after_concat] at hlock
    have hlock' := hlock.of_step (Traffic.step_step ..)
    obtain ⟨c, hc, hsettled, hcourse⟩ := ih hlock'
    by_cases hy : ∃ expired, y = .client x.number expired
    · obtain ⟨expired, rfl⟩ := hy
      obtain ⟨c', hc', hcourse'⟩ := hcourse.own hc expired
      refine ⟨c', hc', ?_, hcourse'⟩
      cases hc'.symm.trans (caller?_own hc expired).2
      exact hsettled.advance (sound_caller hc) (c.call.move_step expired _)
    have hown (expired : Bool) : y ≠ .client x.number expired := fun h => hy ⟨expired, h⟩
    cases hover : c.call.isOver with
    | true =>
      obtain ⟨l, hl⟩ := caller?_other hc hown
      refine ⟨_, hl, hsettled, ?_⟩
      rw [ClientCall.isOver, ClientCall.result?] at hover
      cases hs : c.call.stage with
      | finished => trivial
      | _ => rw [hs] at hover; cases hover
    | false =>
      obtain ⟨l, hl, hcourse'⟩ := hcourse.other hc (by
        rw [after_concat]
        exact (regular_after later).lent.other_cases hc
          (fun i d hi hd => isOver_of_ne hlock' hc hover hi hd) hown) hown
      exact ⟨_, hl, hsettled, hcourse'⟩

/-! ## The end of a call -/

/-- What the last act of a call finds and leaves: the status of its answer, the memory untouched by
the call, or its own request taken back. -/
theorem Course.ends {d : Caller} (hc : x.caller? later = some c)
    (h : x.Course later c.takenBy c.call.stage) (hlive : c.call.isOver = false) {expired : Bool}
    (hd : x.caller? (later ++ [.client x.number expired]) = some d) {r : Except Error Unit}
    (hr : d.call.result? = some r) :
    (d.answered = true → r = .error .timeout ∨
      r = Error.ofStatus ((x.after (later ++ [.client x.number expired])).object.word
        statusOffset)) ∧
    (r = .error .timeout →
      (c.call.stage = .acquiring → x.LeavesMemory (later ++ [.client x.number expired])) ∧
      (c.call.stage ≠ .acquiring → d.takenBy = [] →
        stateOf (x.after (later ++ [.client x.number expired])).object = Phase.idle.word ∧
          x.Spared (later ++ [.client x.number expired]))) := by
  obtain ⟨hafter, hc'⟩ := caller?_own hc expired
  cases hd.symm.trans hc'
  have hbytes (k : Nat) (hk : ¬ InReach x.request.data.length k) := byte_own hc expired hk
  have move := c.call.move_step expired (x.after later).object
  generalize c.call.step expired (x.after later).object = next at hafter move hr
  have hobject : (x.after (later ++ [.client x.number expired])).object = next.2 := by
    rw [hafter]
    rfl
  cases move with
  | acquire | notice | discard | overtaken | fill | submit | collect | expire | miss | read =>
    cases hr
  | rest stage =>
    rw [ClientCall.isOver, show c.call.result? = some r from hr] at hlive
    cases hlive
  | giveUp stage notIdle notCompleted =>
    rw [stage] at h
    cases hr
    refine ⟨fun _ => .inl rfl, fun _ => ⟨fun _ => ?_, fun hne => absurd stage hne⟩⟩
    exact OwnActs.concat (h.2.resolve_right notIdle) fun _ _ => hobject
  | withdraw stage word =>
    rw [stage] at h ⊢
    cases hr
    refine ⟨fun _ => .inl rfl, fun _ => ⟨fun hstage => ?_, fun _ huntaken => ⟨?_, ?_⟩⟩⟩
    · cases hstage
    · rw [hobject]
      exact stateOf_publish (regular_after later).lent.room .idle
    · exact (h.2 huntaken).2.concat hbytes
  | drop stage word | abandon stage word =>
    rw [stage] at h ⊢
    cases hr
    refine ⟨fun _ => .inl rfl, fun _ => ⟨fun hstage => ?_, fun _ huntaken => absurd huntaken h⟩⟩
    cases hstage
  | @release status stage =>
    rw [stage] at h
    cases hr
    refine ⟨fun _ => .inr ?_, fun htimeout => absurd htimeout (ofStatus_ne_timeout status)⟩
    rw [hobject, word_publish _ _ (by decide), h.2]

/-- The capacity of a client has a word. -/
theorem capacity_lt (x : Attempt) : x.client.capacity < UInt32.size := by
  have hadmits := x.begins
  rw [Traffic.admits, Bool.and_eq_true, decide_eq_true_eq] at hadmits
  rw [hadmits.1]
  exact Attachment.capacityOf_lt _

/-- A call without an answer fails because it was refused, or because it was out of time. -/
theorem exists_unanswered {lock : String} (hlock : (x.after later).SharesLock lock) :
    ∃ c, x.caller? later = some c ∧
      (c.call.result? = some (.error .timeout) → c.answered = false) ∧
      (∀ e, e ≠ .timeout → ((c.answered = false ∧ c.call.result? = some (.error e)) ↔
        x.client.headerFor x.poisoned x.request = .error e)) := by
  cases hheader : x.client.headerFor x.poisoned x.request with
  | error e =>
    obtain ⟨⟨c, hc, hstage, hanswered⟩, -⟩ := refused hheader later
    have hresult : c.call.result? = some (.error e) := by rw [ClientCall.result?, hstage]
    refine ⟨c, hc, fun _ => hanswered, fun e' _ => ⟨fun h => ?_, fun h => ?_⟩⟩
    · rw [Except.error.inj (Option.some.inj (hresult.symm.trans h.2))]
    · cases h
      exact ⟨hanswered, hresult⟩
  | ok header =>
    obtain ⟨c, hc, hsettled, -⟩ := exists_course hheader hlock
    refine ⟨c, hc, fun h => ?_, fun e he => iff_of_false (fun h => ?_) (fun h => ?_)⟩
    · rcases hsettled _ h with ⟨hanswered, -⟩ | ⟨-, status, hstatus⟩
      · exact hanswered
      · exact absurd hstatus.symm (ofStatus_ne_timeout status)
    · rcases hsettled _ h.2 with ⟨-, htimeout⟩ | ⟨hanswered, -⟩
      · exact he (Except.error.inj htimeout)
      · rw [h.1] at hanswered
        cases hanswered
    · cases h

/-- **A failed call.** Take a decrypt call that begins at an object of shared memory with any
contents, after any acts of others, and any acts of anybody after that, with deadlines that pass
anywhere, where all calls have one lock.

* Without an answer the call has failed for its length exactly if its data and the reserved bytes
  have no room; else for its description exactly if that is longer than the fields of a header;
  else for the lock exactly if it is poisoned. Then it has changed neither its buffer nor the
  memory.
* If it has failed for its deadline, it has no answer and its buffer is as it was. Its buffer is
  never written but by a call that has its answer.
* When it ends with an answer, its result is what the status in the memory says.
* When it ends at its deadline without having got the channel, it has changed nothing in the
  memory. When it ends so with a request that no server has taken, the word is `idle`, and
  outside the handshake word, the header and its own part of the data region every byte is
  as it was when it took the channel; and no act of its own ever changes such a byte. -/
theorem failed_call (x : Attempt) (later : List Act) {lock : String}
    (hlock : (x.after later).SharesLock lock) :
    ∃ c, x.caller? later = some c ∧
      ((c.answered = false ∧ c.call.result? = some (.error .bufferTooSmall)) ↔
        x.client.capacity < x.request.data.length + x.client.reserved) ∧
      ((c.answered = false ∧ c.call.result? = some (.error .invalidArg)) ↔
        x.request.data.length + x.client.reserved ≤ x.client.capacity ∧
          ∃ i, x.request.info = some i ∧
            (16 < i.iv.length ∨ 16 < i.keyId.length ∨ 256 < i.subsamples.length)) ∧
      ((c.answered = false ∧ c.call.result? = some (.error (.other "Decrypt lock poisoned"))) ↔
        x.request.data.length + x.client.reserved ≤ x.client.capacity ∧
          (∀ i, x.request.info = some i →
            i.iv.length ≤ 16 ∧ i.keyId.length ≤ 16 ∧ i.subsamples.length ≤ 256) ∧
          x.poisoned = true) ∧
      (∀ e, c.answered = false → c.call.result? = some (.error e) → e ≠ .timeout →
        c.call.data = x.request.data ∧ x.LeavesMemory later) ∧
      (c.call.result? = some (.error .timeout) →
        c.answered = false ∧ c.call.data = x.request.data) ∧
      (c.call.data ≠ x.request.data → c.answered = true) ∧
      (∀ past expired b r, later = past ++ [.client x.number expired] → x.caller? past = some b →
        b.call.isOver = false → c.call.result? = some r →
        (c.answered = true → r = Error.ofStatus ((x.after later).object.word statusOffset)) ∧
        (r = .error .timeout →
          (b.call.stage = .acquiring → x.LeavesMemory later) ∧
          (b.call.stage ≠ .acquiring → c.takenBy = [] →
            stateOf (x.after later).object = Phase.idle.word ∧ x.Spared later))) ∧
      x.OwnActs (fun o o' => ∀ k, ¬ InReach x.request.data.length k → o'.byte k = o.byte k)
        later := by
  obtain ⟨c, hc, htimeout, herror⟩ := exists_unanswered hlock
  have hcapacity := x.capacity_lt
  refine ⟨c, hc, ?_, ?_, ?_, fun e hanswered hresult he => ?_,
    fun h => ⟨htimeout h, data_eq hc (htimeout h)⟩, fun hdata => ?_, ?_, stays_in_reach later⟩
  · exact (herror .bufferTooSmall nofun).trans Attachment.headerFor_eq_bufferTooSmall_iff
  · rw [herror .invalidArg nofun, Attachment.headerFor_eq_invalidArg_iff hcapacity]
    simp only [Header.fits_eq_false_iff]
    rfl
  · rw [herror (.other "Decrypt lock poisoned") nofun,
      Attachment.headerFor_eq_poisoned_iff hcapacity]
    simp only [Header.fits_eq_true_iff]
    rfl
  · exact ⟨data_eq hc hanswered, (refused ((herror e he).1 ⟨hanswered, hresult⟩) later).2⟩
  · by_contra hanswered
    exact hdata (data_eq hc (by simpa using hanswered))
  · rintro past expired b r rfl hb hlive hresult
    cases hheader : x.client.headerFor x.poisoned x.request with
    | error e =>
      obtain ⟨⟨b', hb', hstage, -⟩, -⟩ := refused hheader past
      cases hb.symm.trans hb'
      rw [ClientCall.isOver, ClientCall.result?, hstage] at hlive
      cases hlive
    | ok header =>
      rw [after_concat] at hlock
      obtain ⟨b', hb', -, hcourse⟩ :=
        exists_course hheader (hlock.of_step (Traffic.step_step ..))
      cases hb.symm.trans hb'
      obtain ⟨hstatus, hends⟩ := hcourse.ends hb hlive hc hresult
      refine ⟨fun hanswered => (hstatus hanswered).resolve_left fun h => ?_, hends⟩
      rw [h] at hresult
      rw [htimeout hresult] at hanswered
      cases hanswered

/-- A call at a channel with an old answer in it, and no server. -/
def oldAnswer : Attempt where
  object := (((Traffic.start 8).object.writeWord stateOffset Phase.completed.word).writeWord
    statusOffset Status.fail).write dataOffset [1, 2, 3, 4, 5, 6, 7, 8]
  room := by decide
  earlier := []
  client := ⟨"/channel", 0, 8, 10, 0, "lock"⟩
  poisoned := false
  request := { data := [9, 9] }
  begins := by decide +kernel

/-- The call throws the old answer away, writes its request and takes it back. -/
theorem failed_call_oldAnswer :
    let later := List.replicate 5 (Act.client 0 false) ++ List.replicate 2 (Act.client 0 true)
    ∃ c, oldAnswer.caller? later = some c ∧ c.call.result? = some (.error .timeout) ∧
      c.call.data = [9, 9] ∧ stateOf (oldAnswer.after later).object = Phase.idle.word ∧
      oldAnswer.Spared later := by
  intro later
  have hlock : (oldAnswer.after later).SharesLock "lock" :=
    Traffic.sharesLock_of_all (by decide +kernel)
  have hend : (oldAnswer.caller? later).map (fun c => (c.call.result?, c.takenBy)) =
      some (some (.error .timeout), []) := by decide +kernel
  have hpast : (oldAnswer.caller? (later.take 6)).map
      (fun c => (c.call.isOver, c.call.stage.isUnsent)) = some (false, false) := by decide +kernel
  obtain ⟨c, hc, -, -, -, -, htimeout, -, hends, -⟩ := failed_call oldAnswer later hlock
  obtain ⟨b, hb, hsent⟩ := Option.map_eq_some_iff.1 hpast
  obtain ⟨hlive, hsent⟩ := Prod.mk.inj hsent
  rw [hc] at hend
  obtain ⟨hresult, htaken⟩ := Prod.mk.inj (Option.some.inj hend)
  have hstage : b.call.stage ≠ .acquiring := by
    intro hstage
    rw [hstage] at hsent
    cases hsent
  exact ⟨c, hc, hresult, (htimeout hresult).2,
    ((hends (later.take 6) true b _ rfl hb hlive hresult).2 rfl).2 hstage htaken⟩

/-- A server answers that a buffer of its own is too small. The request has room in the channel,
and the answer overwrites the caller's buffer. -/
def smallBuffer : Attempt where
  object := (Traffic.start 16).object
  room := by decide
  earlier := [.serve fun d => (Status.bufferTooSmall, d.data.map fun _ => 170)]
  client := ⟨"/channel", 0, 16, 5000, 0, "lock"⟩
  poisoned := false
  request := { data := [1, 2] }
  begins := by decide +kernel

theorem bufferTooSmall_with_room :
    let later := List.replicate 3 (Act.client 0 false) ++ List.replicate 4 (Act.server 0 false) ++
      List.replicate 3 (Act.client 0 false)
    smallBuffer.request.data.length + smallBuffer.client.reserved ≤ smallBuffer.client.capacity ∧
      (smallBuffer.caller? later).map (fun c => (c.call.result?, c.call.data)) =
        some (some (.error .bufferTooSmall), [170, 170]) := by
  decide +kernel

end Attempt

end Channel

end ContentDecryption
