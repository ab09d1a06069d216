import ContentDecryption.Proofs.Channel.Discard
import Mathlib.Data.List.Induction

/-!
# One call among others

A decrypt call that begins at an object of shared memory in whatever state: a handshake
word that nobody has written, the header and the data of somebody else, a handler that
is running. `Attempt` is such a call, with everything that came before it, and
`Attempt.after` is the channel after more acts of anybody. What the call does is told
by its own acts among these.

Main definitions:

* `Traffic.found`: a channel in an object that was there before;
* `Attempt`, `Attempt.after`, `Attempt.caller?`;
* `Attempt.OwnActs`: what is true of the memory before and after every act of the call's own;
* `InReach`: the bytes that a call may write.

Main results:

* `Traffic.Regular`: what holds at every channel, whatever stood in the memory at first;
* `Traffic.other_cases`: what the acts of others can mean for a call that has the lock;
* `Attempt.refused`: a call that is refused is over at once, and does nothing;
* `Attempt.stays_in_reach`: no call writes anything else.
-/

namespace ContentDecryption

namespace Channel

/-- A status of the other side is never a deadline that has passed. -/
theorem ofStatus_ne_timeout (s : Status) : Error.ofStatus s ≠ .error .timeout := by
  have hcauses : ∀ p ∈ Error.causes, p.2 ≠ Error.timeout := by decide
  unfold Error.ofStatus
  split_ifs
  · exact nofun
  · cases hl : Error.causes.lookup s with
    | none => exact nofun
    | some e =>
      obtain ⟨l, r, hmem, -⟩ := List.lookup_eq_some_iff.1 hl
      intro h
      exact hcauses (s, e) (by simp [hmem]) (Except.error.inj h)

/-! ## The reach of a call -/

/-- Whether a call with this much data may write the byte `k`: it is in the handshake word, in the
header, or in the part of the data region that the call's own data takes. -/
def InReach (length k : Nat) : Prop :=
  (stateOffset ≤ k ∧ k < stateOffset + 4) ∨
    (headerOffset ≤ k ∧ k < headerOffset + headerSize) ∨
    (dataOffset ≤ k ∧ k < dataOffset + length)

theorem ClientCall.Move.byte_of_not_inReach {c : ClientCall} {o : SharedObject}
    {next : ClientCall × SharedObject} (h : c.Move o next) {n : Nat}
    (hn : c.stage = .filling → c.data.length = n) {k : Nat} (hk : ¬ InReach n k) :
    next.2.byte k = o.byte k := by
  unfold InReach at hk
  cases h with
  | fill stage =>
    have hlength : c.header.encode.length = headerSize := Header.length_encode _
    have hdata := hn stage
    change (c.fill o).byte k = o.byte k
    unfold ClientCall.fill
    rw [SharedObject.byte_write, if_neg (by omega), SharedObject.byte_write, if_neg (by omega)]
  | acquire | discard | submit | collect | withdraw | drop | release =>
    exact byte_publish o _ (by simp only [stateOffset] at hk; omega)
  | notice | giveUp | rest | overtaken | expire | miss | abandon | read => rfl

namespace Traffic

/-! ## Channels in any state -/

/-- A channel in an object that was there before, whatever stands in it. -/
def found (o : SharedObject) : Traffic where
  capacity := o.size - dataOffset
  object := o

/-- What holds at a channel, whatever stood in the memory at first. -/
structure Regular (t : Traffic) : Prop where
  lent : t.Lent
  sound : t.Sound
  turns : t.TakesTurns
  writer : ∀ {i}, t.writer = some i → i < t.callers.length

theorem regular_found {o : SharedObject} (h : dataOffset ≤ o.size) : (found o).Regular where
  lent :=
    { size := by simp only [found, objectSize]; omega
      word := fun {p} _ hp => by cases p <;> cases hp
      alone := fun {p} _ _ _ hp => by cases p <;> cases hp }
  sound :=
    { callers := fun _ hc => (nomatch hc)
      workers := fun _ hw => (nomatch hw) }
  turns := fun hc => nomatch hc
  writer := fun h => nomatch h

theorem Step.writer_lt {t t' : Traffic} (hs : Step t t')
    (h : ∀ {i}, t.writer = some i → i < t.callers.length) {i : Nat} (hi : t'.writer = some i) :
    i < t'.callers.length := by
  cases hs with
  | stay => exact h hi
  | serve => exact h hi
  | call =>
    have hlt := h hi
    simp only [List.length_append, List.length_singleton]
    omega
  | @client k c next caller move =>
    obtain ⟨hk, -⟩ := List.getElem?_eq_some_iff.1 caller
    simp only [afterClient, List.length_set] at hi ⊢
    split_ifs at hi
    · cases hi
      exact hk
    · exact h hi
  | server worker move =>
    simp only [afterServer] at hi ⊢
    rw [hi]
    simpa using h hi

theorem Regular.step {t t' : Traffic} (h : t.Regular) (hs : Step t t') : t'.Regular where
  lent := h.lent.step hs
  sound := h.sound.step h.lent hs
  turns := TakesTurns.step h.turns hs
  writer := hs.writer_lt h.writer

/-! ## The acts of others -/

section Others

variable {t : Traffic} {k : Nat} {c : Caller} {x : Act}

theorem exists_credit_eq (w : Worker) (j : Nat) (run : ServerRun) (c : Caller) :
    ∃ l, w.credit j run c = { c with takenBy := l } := by
  unfold Worker.credit
  split <;> exact ⟨_, rfl⟩

/-- An act of another party leaves a call as it is, up to who has taken its request. -/
theorem caller_of_other (hc : t.callers[k]? = some c) (hx : ∀ expired, x ≠ .client k expired) :
    ∃ l, (t.step x).callers[k]? = some { c with takenBy := l } := by
  cases x with
  | call a poisoned r =>
    refine ⟨c.takenBy, ?_⟩
    simp only [step]
    split_ifs
    · obtain ⟨hk, -⟩ := List.getElem?_eq_some_iff.1 hc
      exact (List.getElem?_append_left hk).trans hc
    · exact hc
  | serve handler => exact ⟨c.takenBy, hc⟩
  | client i expired =>
    have hik : i ≠ k := fun hik => hx expired (by rw [hik])
    refine ⟨c.takenBy, ?_⟩
    simp only [step]
    split
    · next d hd => rw [callers_afterClient hd, if_neg hik, hc]
    · exact hc
  | server j expired =>
    simp only [step]
    split
    · next w hw =>
      rw [callers_afterServer, hc]
      obtain ⟨l, hl⟩ := exists_credit_eq w j (w.run.step w.handler expired t.object).1 c
      split_ifs
      · exact ⟨l, congrArg some hl⟩
      · exact ⟨c.takenBy, rfl⟩
    · exact ⟨c.takenBy, hc⟩

/-- What an act of another party can mean for a call under way while all other calls are over. -/
inductive Other (t t' : Traffic) (k : Nat) (c : Caller) : Prop
  /-- Nothing of it concerns the call. -/
  | none (caller : t'.callers[k]? = some c) (writer : t'.writer = t.writer)
      (object : t'.object = t.object)
  /-- A server goes on with a request that it has taken. -/
  | serves (caller : t'.callers[k]? = some c) (writer : t'.writer = t.writer)
      (word : stateOf t.object = Phase.decrypting.word)
  /-- A server takes the request that was written last. -/
  | takes (writer : t'.writer = t.writer) (word : stateOf t.object = Phase.produced.word)
      (caller : ∃ l, t'.callers[k]? = some { c with takenBy := l } ∧
        (t.writer = some k → l ≠ []) ∧ (t.writer ≠ some k → l = c.takenBy))

theorem Lent.other_server (h : t.Lent) (hc : t.callers[k]? = some c) {j : Nat} {w : Worker}
    {next : ServerRun × SharedObject} (hw : t.workers[j]? = some w)
    (move : w.run.Move w.handler t.object next) : Other t (t.afterServer j w next) k c := by
  have hsame (hnot : ¬ takes w next.1) : (t.afterServer j w next).callers[k]? = some c := by
    rw [callers_afterServer, funext (credit_of_not_takes hnot j), Option.map_id', hc, ite_self]
  have hword {f : Phase} (hf : w.run.stage.phase? = some f) : stateOf t.object = f.word :=
    h.word (p := .server j) (by rw [phase?, said_server hw, hf])
  cases move with
  | expire stage => exact .none (hsame (not_takes_of_phase? rfl)) rfl rfl
  | rest stage => exact .none (hsame (not_takes_of_phase? stage)) rfl rfl
  | handle stage | report stage | complete stage =>
    exact .serves (hsame (not_takes_of_stage (by simp [stage]))) rfl
      (hword (by rw [stage]; rfl))
  | take stage word =>
    refine .takes rfl word ?_
    rw [callers_afterServer, hc]
    by_cases hwriter : t.writer = some k
    · refine ⟨c.takenBy ++ [j], ?_, fun _ => by simp, fun hne => absurd hwriter hne⟩
      rw [if_pos hwriter, Option.map_some, Worker.credit, stage]
    · exact ⟨c.takenBy, by rw [if_neg hwriter], fun hk => absurd hk hwriter, fun _ => rfl⟩

/-- While all other calls are over, only servers do anything that a call can see. -/
theorem Lent.other_cases (h : t.Lent) (hc : t.callers[k]? = some c)
    (hover : ∀ i d, i ≠ k → t.callers[i]? = some d → d.call.isOver = true)
    (hx : ∀ expired, x ≠ .client k expired) : Other t (t.step x) k c := by
  cases x with
  | call a poisoned r =>
    simp only [Traffic.step]
    split_ifs
    · obtain ⟨hk, -⟩ := List.getElem?_eq_some_iff.1 hc
      exact .none ((List.getElem?_append_left hk).trans hc) rfl rfl
    · exact .none hc rfl rfl
  | serve handler => exact .none hc rfl rfl
  | client i expired =>
    have hik : i ≠ k := fun hik => hx expired (by rw [hik])
    simp only [Traffic.step]
    split
    · next d hd =>
      have hdone := hover i d hik hd
      rw [(d.call.move_step expired t.object).eq_of_isOver hdone]
      refine .none (by rw [callers_afterClient hd, if_neg hik, hc]) ?_ rfl
      rw [afterClient, ClientStage.isFilling_of_phase? (ClientCall.phase?_of_isOver hdone)]
      rfl
    · exact .none hc rfl rfl
  | server j expired =>
    simp only [Traffic.step]
    split
    · next w hw => exact h.other_server hc hw (w.run.move_step w.handler expired t.object)
    · exact .none hc rfl rfl

end Others

end Traffic

/-! ## Attempts -/

/-- A decrypt call at an object in any state, with everything that came before it. -/
structure Attempt where
  object : SharedObject
  /-- An object that has no room for a control block is no channel. -/
  room : dataOffset ≤ object.size
  earlier : List Act
  client : Attachment
  /-- Whether the lock was left behind by a client that failed. -/
  poisoned : Bool
  request : Request
  begins : (earlier.foldl Traffic.step (Traffic.found object)).admits client poisoned request = true

namespace Attempt

variable (x : Attempt)

/-- The channel when the call begins. -/
def before : Traffic := x.earlier.foldl Traffic.step (Traffic.found x.object)

/-- The call at its start. -/
def start : Caller where
  client := x.client
  request := x.request
  call := x.client.start x.poisoned x.request

/-- The number of the call. -/
def number : Nat := x.before.callers.length

/-- The channel after the call has begun and these acts have happened. -/
def after (later : List Act) : Traffic :=
  later.foldl Traffic.step (x.before.step (.call x.client x.poisoned x.request))

/-- The call after these acts. -/
def caller? (later : List Act) : Option Caller := (x.after later).callers[x.number]?

/-- What is true of the memory before and after every act of the call's own. -/
def OwnActs (P : SharedObject → SharedObject → Prop) (later : List Act) : Prop :=
  ∀ past expired, past ++ [.client x.number expired] <+: later →
    P (x.after past).object (x.after (past ++ [.client x.number expired])).object

/-- No act of the call's own has changed the memory. -/
def LeavesMemory : List Act → Prop := x.OwnActs fun o o' => o' = o

variable {x} {later : List Act}

theorem after_concat (y : Act) : x.after (later ++ [y]) = (x.after later).step y := by
  rw [after, List.foldl_append]
  rfl

theorem after_nil : x.after [] = { x.before with callers := x.before.callers ++ [x.start] } :=
  if_pos x.begins

theorem caller?_nil : x.caller? [] = some x.start := by
  rw [caller?, after_nil, number, List.getElem?_concat_length]

theorem regular_before : x.before.Regular :=
  Traffic.foldl_induction (fun _ _ h hs => h.step hs) x.earlier (Traffic.regular_found x.room)

theorem regular_after (later : List Act) : (x.after later).Regular :=
  Traffic.foldl_induction (fun _ _ h hs => h.step hs) later
    (regular_before.step (Traffic.step_step ..))

/-- The call after one more act of its own. -/
theorem caller?_own {c : Caller} (hc : x.caller? later = some c) (expired : Bool) :
    x.after (later ++ [.client x.number expired]) = (x.after later).afterClient x.number c
        (c.call.step expired (x.after later).object) ∧
      x.caller? (later ++ [.client x.number expired]) =
        some (c.advance (c.call.step expired (x.after later).object).1) := by
  have hafter : x.after (later ++ [.client x.number expired]) =
      (x.after later).afterClient x.number c (c.call.step expired (x.after later).object) := by
    rw [after_concat, Traffic.step]
    rw [caller?] at hc
    rw [hc]
  refine ⟨hafter, ?_⟩
  rw [caller?, hafter, Traffic.callers_afterClient hc, if_pos rfl]

/-- The call after an act of somebody else. -/
theorem caller?_other {c : Caller} (hc : x.caller? later = some c) {y : Act}
    (hy : ∀ expired, y ≠ .client x.number expired) :
    ∃ l, x.caller? (later ++ [y]) = some { c with takenBy := l } := by
  obtain ⟨l, hl⟩ := Traffic.caller_of_other hc hy
  exact ⟨l, by rw [caller?, after_concat, hl]⟩

namespace OwnActs

variable {P : SharedObject → SharedObject → Prop}

theorem nil : x.OwnActs P [] := by
  intro past expired hprefix
  have hlength := hprefix.length_le
  simp at hlength

theorem concat (h : x.OwnActs P later) {y : Act}
    (hy : ∀ expired, y = .client x.number expired →
      P (x.after later).object (x.after (later ++ [y])).object) :
    x.OwnActs P (later ++ [y]) := by
  intro past expired hprefix
  rcases List.prefix_concat_iff.1 hprefix with heq | hold
  · obtain ⟨rfl, hact⟩ := List.append_inj' heq rfl
    cases hact
    exact hy expired rfl
  · exact h past expired hold

end OwnActs

/-- A call stays, with its client and its request. -/
theorem exists_caller? (later : List Act) :
    ∃ c, x.caller? later = some c ∧ c.client = x.client ∧ c.request = x.request := by
  induction later using List.reverseRecOn with
  | nil => exact ⟨_, caller?_nil, rfl, rfl⟩
  | append_singleton later y ih =>
    obtain ⟨c, hc, hclient, hrequest⟩ := ih
    by_cases hy : ∃ expired, y = .client x.number expired
    · obtain ⟨expired, rfl⟩ := hy
      exact ⟨_, (caller?_own hc expired).2, hclient, hrequest⟩
    · obtain ⟨l, hl⟩ := caller?_other hc fun expired h => hy ⟨expired, h⟩
      exact ⟨_, hl, hclient, hrequest⟩

theorem sound_caller {c : Caller} (hc : x.caller? later = some c) :
    c.Sound (x.after later).capacity :=
  (regular_after later).sound.callers c (List.mem_of_getElem? hc)

/-- A call has the data of its request until it has an answer. -/
theorem data_eq {c : Caller} (hc : x.caller? later = some c) (h : c.answered = false) :
    c.call.data = x.request.data := by
  obtain ⟨d, hd, -, hrequest⟩ := exists_caller? (x := x) later
  cases hc.symm.trans hd
  rw [(sound_caller hc).unread h, hrequest]

/-- A step of a call leaves all bytes alone that are not in its reach. -/
theorem byte_own {c : Caller} (hc : x.caller? later = some c) (expired : Bool) {k : Nat}
    (hk : ¬ InReach x.request.data.length k) :
    (x.after (later ++ [.client x.number expired])).object.byte k =
      (x.after later).object.byte k := by
  rw [(caller?_own hc expired).1]
  refine (c.call.move_step expired (x.after later).object).byte_of_not_inReach
    (fun hfilling => ?_) hk
  rw [data_eq hc ((sound_caller hc).unanswered (by rw [hfilling]; rfl))]

/-- No call writes anything out of its reach. -/
theorem stays_in_reach (later : List Act) :
    x.OwnActs (fun o o' => ∀ k, ¬ InReach x.request.data.length k → o'.byte k = o.byte k)
      later := by
  intro past expired _ k hk
  obtain ⟨c, hc, -⟩ := exists_caller? (x := x) past
  exact byte_own hc expired hk

/-! ## Calls that are refused -/

/-- A call that is refused is over at once and does nothing. -/
theorem refused {e : Error} (h : x.client.headerFor x.poisoned x.request = .error e)
    (later : List Act) :
    (∃ c, x.caller? later = some c ∧ c.call.stage = .finished (.error e) ∧ c.answered = false) ∧
      x.LeavesMemory later := by
  induction later using List.reverseRecOn with
  | nil =>
    refine ⟨⟨_, caller?_nil, ?_⟩, OwnActs.nil⟩
    rw [start, Attachment.start_of_error h]
    exact ⟨rfl, rfl⟩
  | append_singleton later y ih =>
    obtain ⟨⟨c, hc, hstage, hanswered⟩, hleaves⟩ := ih
    have hdone (expired : Bool) : c.call.step expired (x.after later).object =
        (c.call, (x.after later).object) := by
      rw [ClientCall.step, hstage]
    constructor
    · by_cases hy : ∃ expired, y = .client x.number expired
      · obtain ⟨expired, rfl⟩ := hy
        refine ⟨_, (caller?_own hc expired).2, ?_⟩
        refine ⟨?_, ?_⟩ <;> simp only [hdone, Caller.advance]
        · exact hstage
        · rw [hstage, hanswered]
          rfl
      · obtain ⟨l, hl⟩ := caller?_other hc fun expired h => hy ⟨expired, h⟩
        exact ⟨_, hl, hstage, hanswered⟩
    · refine hleaves.concat ?_
      rintro expired rfl
      rw [(caller?_own hc expired).1, hdone]
      rfl

end Attempt

end Channel

end ContentDecryption
