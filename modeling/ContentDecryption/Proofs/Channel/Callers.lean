import ContentDecryption.Proofs.Channel.Ownership

/-!
# What a call and a server know of themselves

What stays true of one call and of one server whatever the others do: a call that is
under way carries the header and the data of its own request until it reads an answer,
and a server has seen a request exactly if its handler has run.

Main results:

* `Caller.Sound`, `Worker.Sound`: the invariants;
* `Traffic.sound_run`: they hold of everybody in every run.
-/

namespace ContentDecryption

namespace Channel

/-! ## Calls -/

/-- Whether a call has not written its request yet. -/
def ClientStage.isUnsent : ClientStage → Bool
  | .acquiring => true
  | .discarding => true
  | .filling => true
  | _ => false

/-- Whether a call is under way and has not got its answer. -/
def ClientStage.isUnanswered : ClientStage → Bool
  | .submitting => true
  | .awaiting => true
  | .withdrawing => true
  | .dropping => true
  | stage => stage.isUnsent

namespace Attachment

/-- A request is refused for its length, for its description or for the lock, in this order. -/
theorem headerFor_cases (a : Attachment) (poisoned : Bool) (r : Request) :
    (a.capacity < r.data.length + a.reserved ∧
        a.headerFor poisoned r = .error .bufferTooSmall) ∨
      (r.data.length + a.reserved ≤ a.capacity ∧ ¬ Header.Describable r ∧
        a.headerFor poisoned r = .error .invalidArg) ∨
      (r.data.length + a.reserved ≤ a.capacity ∧ Header.Describable r ∧
        a.headerFor poisoned r =
          if poisoned then .error (.other "Decrypt lock poisoned")
          else .ok (Header.describe r)) := by
  unfold headerFor
  by_cases hroom : a.capacity < r.data.length + a.reserved
  · exact .inl ⟨hroom, if_pos hroom⟩
  rw [if_neg hroom]
  by_cases hr : Header.Describable r
  · refine .inr (.inr ⟨by omega, hr, ?_⟩)
    rw [Header.ofRequest_of_describable hr]
  · refine .inr (.inl ⟨by omega, hr, ?_⟩)
    rw [Header.ofRequest_of_not_describable hr]

/-- A call that is let through has a header, and its data has room. -/
theorem describable_of_header {a : Attachment} {poisoned : Bool} {r : Request} {header : Header}
    (h : a.headerFor poisoned r = .ok header) :
    Header.Describable r ∧ header = Header.describe r ∧
      r.data.length + a.reserved ≤ a.capacity := by
  rcases a.headerFor_cases poisoned r with ⟨-, he⟩ | ⟨-, -, he⟩ | ⟨hroom, hr, hok⟩
  · rw [he] at h
    cases h
  · rw [he] at h
    cases h
  · rw [hok] at h
    split_ifs at h
    cases h
    exact ⟨hr, rfl, hroom⟩

theorem start_of_error {a : Attachment} {poisoned : Bool} {r : Request} {e : Error}
    (h : a.headerFor poisoned r = .error e) : a.start poisoned r =
      { header := .plain r.data.length, data := r.data, stage := .finished (.error e) } := by
  unfold start
  rw [h]

theorem start_of_ok {a : Attachment} {poisoned : Bool} {r : Request} {header : Header}
    (h : a.headerFor poisoned r = .ok header) : a.start poisoned r =
      { header, data := r.data, stage := .acquiring } := by
  unfold start
  rw [h]

end Attachment

namespace ClientCall.Move

variable {c : ClientCall} {o : SharedObject} {next : ClientCall × SharedObject}

theorem header_eq (h : c.Move o next) : next.1.header = c.header := by
  cases h <;> rfl

/-- A call that is under way after a move was so before. -/
theorem isOver_eq_false (h : c.Move o next) (hover : next.1.isOver = false) :
    c.isOver = false := by
  cases h with
  | rest => exact hover
  | giveUp | withdraw | drop | abandon | release => cases hover
  | acquire stage | notice stage | discard stage | overtaken stage | fill stage | submit stage
  | collect stage | expire stage | miss stage | read stage =>
    rw [isOver, result?, stage]
    rfl

/-- A call that has no answer after a move had none before. -/
theorem isUnanswered (h : c.Move o next) (hstage : next.1.stage.isUnanswered = true) :
    c.stage.isUnanswered = true ∧ next.1.stage.isCollecting = false := by
  cases h with
  | rest =>
    refine ⟨hstage, ?_⟩
    cases hs : c.stage with
    | collecting => rw [hs] at hstage; cases hstage
    | _ => rfl
  | collect | giveUp | withdraw | drop | abandon | release | read => cases hstage
  | acquire stage | notice stage | discard stage | overtaken stage | fill stage | submit stage
  | expire stage | miss stage => exact ⟨by rw [stage]; rfl, rfl⟩

/-- A move reads the answer, or leaves the data alone. -/
theorem data_cases (h : c.Move o next) :
    c.stage = .collecting ∧ next.1.stage = .releasing (o.word statusOffset) ∧
        next.1.data = o.read dataOffset c.data.length ∨
      next.1.data = c.data ∧
        (next.1.stage = .collecting → c.stage.isUnanswered = true) := by
  cases h with
  | read stage => exact .inl ⟨stage, rfl, rfl⟩
  | rest stage =>
    refine .inr ⟨rfl, fun hs => ?_⟩
    rw [hs] at stage
    cases stage
  | collect stage => exact .inr ⟨rfl, fun _ => by rw [stage]; rfl⟩
  | _ => exact .inr ⟨rfl, fun hs => nomatch hs⟩

/-- A call leaves the channel after it has read the answer. -/
theorem releasing (h : c.Move o next) {status : Status} (hs : next.1.stage = .releasing status) :
    c.stage = .collecting := by
  cases h with
  | read stage => exact stage
  | rest stage =>
    rw [hs] at stage
    cases stage
  | _ => cases hs

end ClientCall.Move

namespace Caller

/-- What is true of a call at a channel of this capacity. -/
structure Sound (capacity : Nat) (c : Caller) : Prop where
  header : c.call.isOver = false →
    Header.Describable c.request ∧ c.call.header = Header.describe c.request ∧
      c.request.data.length ≤ capacity
  unanswered : c.call.stage.isUnanswered = true → c.answered = false
  collecting : c.call.stage = .collecting → c.answered = true ∧ c.call.data = c.request.data
  releasing : ∀ status, c.call.stage = .releasing status → c.answered = true
  unread : c.answered = false → c.call.data = c.request.data

/-- A call that begins is refused, or it has a header for its request. -/
theorem sound_start {a : Attachment} {capacity : Nat} (h : a.capacity ≤ capacity)
    (poisoned : Bool) (r : Request) :
    Sound capacity { client := a, request := r, call := a.start poisoned r } := by
  cases hheader : a.headerFor poisoned r with
  | error e =>
    rw [Attachment.start_of_error hheader]
    exact ⟨fun hover => (nomatch hover), fun _ => rfl, fun hs => (nomatch hs),
      fun _ hs => (nomatch hs), fun _ => rfl⟩
  | ok header =>
    rw [Attachment.start_of_ok hheader]
    refine ⟨fun _ => ?_, fun _ => rfl, fun hs => (nomatch hs), fun _ hs => (nomatch hs),
      fun _ => rfl⟩
    obtain ⟨hr, rfl, hroom⟩ := Attachment.describable_of_header hheader
    exact ⟨hr, rfl, show r.data.length ≤ capacity by omega⟩

theorem Sound.advance {capacity : Nat} {c : Caller} {o : SharedObject}
    {next : ClientCall × SharedObject} (h : c.Sound capacity) (move : c.call.Move o next) :
    (c.advance next.1).Sound capacity where
  header := by
    intro hover
    obtain ⟨hr, hheader, hlength⟩ := h.header (move.isOver_eq_false hover)
    exact ⟨hr, move.header_eq.trans hheader, hlength⟩
  unanswered := by
    intro hstage
    obtain ⟨hbefore, hcollecting⟩ := move.isUnanswered hstage
    rw [Caller.advance, h.unanswered hbefore, hcollecting]
    rfl
  collecting := by
    intro hstage
    constructor
    · rw [Caller.advance]
      simp only [Bool.or_eq_true]
      exact .inr (by rw [show next.1.stage = .collecting from hstage]; rfl)
    · rcases move.data_cases with ⟨-, hreleasing, -⟩ | ⟨hdata, hbefore⟩
      · rw [show next.1.stage = .collecting from hstage] at hreleasing
        cases hreleasing
      · exact hdata.trans (h.unread (h.unanswered (hbefore hstage)))
  releasing := by
    intro status hstage
    rw [Caller.advance, Bool.or_eq_true]
    exact .inl (h.collecting (move.releasing hstage)).1
  unread := by
    intro hanswered
    simp only [Caller.advance, Bool.or_eq_false_iff] at hanswered
    rcases move.data_cases with ⟨hcollecting, -, -⟩ | ⟨hdata, -⟩
    · rw [(h.collecting hcollecting).1] at hanswered
      cases hanswered.1
    · exact hdata.trans (h.unread hanswered.1)

theorem Sound.credit {capacity : Nat} {c : Caller} (h : c.Sound capacity) (w : Worker) (j : Nat)
    (run : ServerRun) : (w.credit j run c).Sound capacity := by
  unfold Worker.credit
  split
  · exact ⟨h.header, h.unanswered, h.collecting, h.releasing, h.unread⟩
  · exact h

end Caller

/-! ## Servers -/

/-- What a server that stands here has seen. -/
def Worker.Seen (w : Worker) : ServerStage → Prop
  | .waiting => w.run.seen = none
  | .handling => w.run.seen = none
  | .reporting status => ∃ d, w.run.seen = some d ∧ (w.handler d).1 = status
  | .completing => ∃ d, w.run.seen = some d
  | .finished served => if served then ∃ d, w.run.seen = some d else w.run.seen = none

/-- What is true of a server at a channel of this capacity. -/
structure Worker.Sound (capacity : Nat) (w : Worker) : Prop where
  capacity : w.run.capacity = capacity
  seen : w.Seen w.run.stage

theorem Worker.Sound.move {capacity : Nat} {w : Worker} {o : SharedObject}
    {next : ServerRun × SharedObject} (h : w.Sound capacity)
    (move : w.run.Move w.handler o next) : Worker.Sound capacity { w with run := next.1 } := by
  obtain ⟨hcapacity, hseen⟩ := h
  cases move with
  | rest => exact ⟨hcapacity, hseen⟩
  | take stage word => rw [stage] at hseen; exact ⟨hcapacity, hseen⟩
  | expire stage => rw [stage] at hseen; exact ⟨hcapacity, hseen⟩
  | handle stage => exact ⟨hcapacity, _, rfl, rfl⟩
  | report stage =>
    rw [stage] at hseen
    obtain ⟨d, hd, -⟩ := hseen
    exact ⟨hcapacity, d, hd⟩
  | complete stage => rw [stage] at hseen; exact ⟨hcapacity, hseen⟩

/-! ## Everybody -/

namespace Traffic

/-- Everybody at a channel is sound. -/
structure Sound (t : Traffic) : Prop where
  callers : ∀ c ∈ t.callers, c.Sound t.capacity
  workers : ∀ w ∈ t.workers, w.Sound t.capacity

theorem Sound.step {t t' : Traffic} (h : t.Sound) (hlent : t.Lent) (hs : Step t t') :
    t'.Sound := by
  constructor <;> rw [hs.capacity]
  · intro d hd
    cases hs with
    | stay | serve => exact h.callers d hd
    | call attached _ =>
      rcases List.mem_append.1 hd with hold | hnew
      · exact h.callers d hold
      · obtain rfl := List.mem_singleton.1 hnew
        refine Caller.sound_start ?_ ..
        rw [attached, Attachment.capacityOf, hlent.size, objectSize]
        omega
    | client caller move =>
      rcases List.mem_or_eq_of_mem_set hd with hold | rfl
      · exact h.callers d hold
      · exact (h.callers _ (List.mem_of_getElem? caller)).advance move
    | server worker move =>
      obtain ⟨k, hk⟩ := List.mem_iff_getElem?.1 hd
      rw [callers_afterServer] at hk
      split_ifs at hk
      · obtain ⟨c, hc, rfl⟩ := Option.map_eq_some_iff.1 hk
        exact (h.callers c (List.mem_of_getElem? hc)).credit ..
      · exact h.callers d (List.mem_of_getElem? hk)
  · intro d hd
    cases hs with
    | stay | call | client => exact h.workers d hd
    | serve handler =>
      rcases List.mem_append.1 hd with hold | hnew
      · exact h.workers d hold
      · obtain rfl := List.mem_singleton.1 hnew
        exact ⟨rfl, rfl⟩
    | server worker move =>
      rcases List.mem_or_eq_of_mem_set hd with hold | rfl
      · exact h.workers d hold
      · exact (h.workers _ (List.mem_of_getElem? worker)).move move

theorem sound_run (capacity : Nat) (acts : List Act) : (run capacity acts).Sound := by
  have hstart : (start capacity).Sound := by
    constructor
    · intro c hc
      cases hc
    · intro w hw
      cases hw
  exact guarded_induction hstart (fun t t' hg h hs => h.step hg.lent hs) acts

end Traffic

end Channel

end ContentDecryption
