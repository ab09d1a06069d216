import ContentDecryption.Proofs.Channel.RoundTrip
import ContentDecryption.Proofs.SharedMemory.Frame
import Mathlib.Tactic.SplitIfs

/-!
# What one step at a channel can do

The two machines of the handshake, step by step. `ClientCall.Move` and
`ServerRun.Move` name everything that a step can turn out to be, each with what it
finds in the handshake word and what it makes of the memory. What holds at a channel
is proved by going through these cases and not by opening the machines again.

A machine that is inside a phase of its own has the memory to itself:
`ClientStage.phase?` and `ServerStage.phase?` say when that is.

Main results:

* `ClientCall.move_step`, `ServerRun.move_step`: every step is one of the moves;
* `ClientCall.Move.phase_cases`, `ServerRun.Move.phase_cases`: a move enters a phase from a free
  word alone;
* `ClientCall.Move.object_cases`, `ServerRun.Move.object_cases`: outside its phases a machine
  changes nothing but the handshake word.
-/

namespace ContentDecryption

namespace Channel

/-! ## The handshake word among the other words -/

@[simp] theorem size_publish (o : SharedObject) (p : Phase) : (publish o p).size = o.size :=
  SharedObject.size_writeWord ..

theorem stateOf_publish {o : SharedObject} (h : stateOffset + 4 ≤ o.size) (p : Phase) :
    stateOf (publish o p) = p.word :=
  SharedObject.word_writeWord_self o h

theorem byte_publish (o : SharedObject) (p : Phase) {k : Nat} (h : k < 4 ∨ 8 ≤ k) :
    (publish o p).byte k = o.byte k := by
  unfold publish SharedObject.writeWord
  rw [SharedObject.byte_write, if_neg (by rw [Bytes.length_ofWord, stateOffset]; omega)]

theorem read_publish (o : SharedObject) (p : Phase) {start length : Nat} (h : 8 ≤ start) :
    (publish o p).read start length = o.read start length := by
  apply SharedObject.read_congr (size_publish o p)
  intro k hk _
  exact byte_publish o p (.inr (by omega))

theorem word_publish (o : SharedObject) (p : Phase) {start : Nat} (h : 8 ≤ start) :
    (publish o p).word start = o.word start := by
  unfold SharedObject.word
  rw [read_publish o p h]

theorem delivery_publish (capacity : Nat) (o : SharedObject) (p : Phase) :
    Delivery.ofObject capacity (publish o p) = Delivery.ofObject capacity o := by
  simp only [Delivery.ofObject, read_publish o p (show 8 ≤ headerOffset by decide),
    read_publish o p (show 8 ≤ dataOffset by decide)]

theorem exchange?_of_eq {o : SharedObject} {source : Phase} (target : Phase)
    (h : stateOf o = source.word) : exchange? o source target = some (publish o target) :=
  if_pos h

theorem exchange?_of_ne {o : SharedObject} {source : Phase} (target : Phase)
    (h : stateOf o ≠ source.word) : exchange? o source target = none :=
  if_neg h

/-! ## Phases with an owner -/

/-- Whether a phase of the handshake has no owner. -/
def Phase.isFree : Phase → Bool
  | .idle => true
  | .produced => true
  | .completed => true
  | _ => false

/-- The phase itself, if it has an owner. -/
def Phase.held? (p : Phase) : Option Phase := if p.isFree then none else some p

theorem Phase.held?_eq_some {p f : Phase} (h : p.held? = some f) : p = f ∧ f.isFree = false := by
  unfold Phase.held? at h
  split_ifs at h with hfree
  cases h
  exact ⟨rfl, by simpa using hfree⟩

/-- The phase that a call is in while the memory is its own. -/
def ClientStage.phase? : ClientStage → Option Phase
  | .filling => some .producing
  | .submitting => some .producing
  | .collecting => some .consuming
  | .releasing _ => some .consuming
  | _ => none

/-- The phase that a server is in while the memory is its own. -/
def ServerStage.phase? : ServerStage → Option Phase
  | .handling => some .decrypting
  | .reporting _ => some .decrypting
  | .completing => some .decrypting
  | _ => none

theorem ClientStage.isFree_of_phase? {s : ClientStage} {p : Phase} (h : s.phase? = some p) :
    p.isFree = false := by
  cases s with
  | filling | submitting | collecting | releasing =>
    cases h
    rfl
  | acquiring | discarding | awaiting | withdrawing | dropping | finished => cases h

theorem ServerStage.isFree_of_phase? {s : ServerStage} {p : Phase} (h : s.phase? = some p) :
    p.isFree = false := by
  cases s with
  | handling | reporting | completing =>
    cases h
    rfl
  | waiting | finished => cases h

/-! ## The moves of a call -/

namespace ClientCall

/-- What one step of a call can be. -/
inductive Move (c : ClientCall) (o : SharedObject) : ClientCall × SharedObject → Prop
  /-- The channel is idle, and the call takes it. -/
  | acquire (stage : c.stage = .acquiring) (word : stateOf o = Phase.idle.word) :
      Move c o ({ c with stage := .filling }, publish o .producing)
  /-- An answer that nobody waits for stands in the way. -/
  | notice (stage : c.stage = .acquiring) (word : stateOf o = Phase.completed.word) :
      Move c o ({ c with stage := .discarding }, o)
  /-- The channel was not to be had in time. -/
  | giveUp (stage : c.stage = .acquiring) (notIdle : stateOf o ≠ Phase.idle.word)
      (notCompleted : stateOf o ≠ Phase.completed.word) :
      Move c o ({ c with stage := .finished (.error .timeout) }, o)
  /-- Nothing happens: the call goes on waiting, or it is over. -/
  | rest (stage : c.stage.phase? = none) : Move c o (c, o)
  | discard (stage : c.stage = .discarding) (word : stateOf o = Phase.completed.word) :
      Move c o ({ c with stage := .acquiring }, publish o .idle)
  /-- The answer to discard is no longer there. -/
  | overtaken (stage : c.stage = .discarding) (word : stateOf o ≠ Phase.completed.word) :
      Move c o ({ c with stage := .acquiring }, o)
  | fill (stage : c.stage = .filling) : Move c o ({ c with stage := .submitting }, c.fill o)
  | submit (stage : c.stage = .submitting) :
      Move c o ({ c with stage := .awaiting }, publish o .produced)
  /-- The answer has come. -/
  | collect (stage : c.stage = .awaiting) (word : stateOf o = Phase.completed.word) :
      Move c o ({ c with stage := .collecting }, publish o .consuming)
  /-- The answer has not come in time. -/
  | expire (stage : c.stage = .awaiting) (word : stateOf o ≠ Phase.completed.word) :
      Move c o ({ c with stage := .withdrawing }, o)
  /-- The request is still there, and the call takes it back. -/
  | withdraw (stage : c.stage = .withdrawing) (word : stateOf o = Phase.produced.word) :
      Move c o ({ c with stage := .finished (.error .timeout) }, publish o .idle)
  /-- A server has the request. -/
  | miss (stage : c.stage = .withdrawing) (word : stateOf o ≠ Phase.produced.word) :
      Move c o ({ c with stage := .dropping }, o)
  /-- The answer has come just now, and the call drops it. -/
  | drop (stage : c.stage = .dropping) (word : stateOf o = Phase.completed.word) :
      Move c o ({ c with stage := .finished (.error .timeout) }, publish o .idle)
  /-- The server is still at it: its answer is left to the next call. -/
  | abandon (stage : c.stage = .dropping) (word : stateOf o ≠ Phase.completed.word) :
      Move c o ({ c with stage := .finished (.error .timeout) }, o)
  | read (stage : c.stage = .collecting) :
      Move c o ({ c with
        data := o.read dataOffset c.data.length
        stage := .releasing (o.word statusOffset) }, o)
  | release {status : Status} (stage : c.stage = .releasing status) :
      Move c o ({ c with stage := .finished (Error.ofStatus status) }, publish o .idle)

theorem move_step (expired : Bool) (c : ClientCall) (o : SharedObject) :
    Move c o (c.step expired o) := by
  have rest (h : c.stage.phase? = none) : Move c o (c, o) := .rest h
  unfold step
  cases hs : c.stage with
  | acquiring =>
    rw [hs] at rest
    by_cases hi : stateOf o = Phase.idle.word
    · simpa only [exchange?_of_eq _ hi] using Move.acquire hs hi
    · simp only [exchange?_of_ne _ hi]
      split_ifs with hc he
      · exact .notice hs hc
      · exact .giveUp hs hi hc
      · exact rest rfl
  | discarding =>
    by_cases hc : stateOf o = Phase.completed.word
    · simpa only [exchange?_of_eq _ hc, Option.getD_some] using Move.discard hs hc
    · simpa only [exchange?_of_ne _ hc, Option.getD_none] using Move.overtaken hs hc
  | filling => exact .fill hs
  | submitting => exact .submit hs
  | awaiting =>
    rw [hs] at rest
    by_cases hc : stateOf o = Phase.completed.word
    · simpa only [exchange?_of_eq _ hc] using Move.collect hs hc
    · simp only [exchange?_of_ne _ hc]
      split_ifs with he
      · exact .expire hs hc
      · exact rest rfl
  | withdrawing =>
    by_cases hp : stateOf o = Phase.produced.word
    · simpa only [exchange?_of_eq _ hp] using Move.withdraw hs hp
    · simpa only [exchange?_of_ne _ hp] using Move.miss hs hp
  | dropping =>
    by_cases hc : stateOf o = Phase.completed.word
    · simpa only [exchange?_of_eq _ hc, Option.getD_some] using Move.drop hs hc
    · simpa only [exchange?_of_ne _ hc, Option.getD_none] using Move.abandon hs hc
  | collecting => exact .read hs
  | releasing status => exact .release hs
  | finished result => exact rest (by rw [hs]; rfl)

/-- Writes of a request stay clear of the first words of the control block. -/
theorem byte_fill (c : ClientCall) (o : SharedObject) {k : Nat} (h : k < headerOffset) :
    (c.fill o).byte k = o.byte k := by
  unfold fill
  rw [SharedObject.byte_write,
    if_neg (by have := dataOffset_eq; have : headerOffset = 16 := rfl; omega),
    SharedObject.byte_write, if_neg (by omega)]

@[simp] theorem size_fill (c : ClientCall) (o : SharedObject) : (c.fill o).size = o.size := by
  simp [fill]

theorem stateOf_fill (c : ClientCall) (o : SharedObject) : stateOf (c.fill o) = stateOf o := by
  unfold stateOf SharedObject.word
  rw [SharedObject.read_congr (size_fill c o)]
  intro k _ hk
  exact byte_fill c o (by simp only [stateOffset, headerOffset] at *; omega)

/-- A header that was written is there in full, whatever stood there. -/
theorem read_fill_header (c : ClientCall) {o : SharedObject} (hsize : dataOffset ≤ o.size) :
    (c.fill o).read headerOffset headerSize = c.header.encode := by
  have hencode : c.header.encode.length = headerSize := Header.length_encode _
  unfold fill
  rw [SharedObject.read_write_of_disjoint _ (.inl headerEnd_le_dataOffset), ← hencode]
  apply SharedObject.read_write_self
  rw [hencode]
  exact Nat.le_trans headerEnd_le_dataOffset hsize

/-- A request that was written is what a server is given. -/
theorem delivery_fill {c : ClientCall} {r : Request} {capacity : Nat} {o : SharedObject}
    (hr : Header.Describable r) (hheader : c.header = Header.describe r) (hdata : c.data = r.data)
    (hlength : r.data.length ≤ capacity) (hsize : o.size = objectSize capacity) :
    Delivery.ofObject capacity (c.fill o) = r.delivery := by
  refine Request.delivery_of_reads hr hlength ?_ ?_
  · rw [read_fill_header c (by rw [hsize, objectSize]; omega), hheader]
  · unfold fill
    rw [hdata]
    apply SharedObject.read_write_self
    rw [SharedObject.size_write, hsize, objectSize]
    omega

theorem Move.size {c c' : ClientCall} {o o' : SharedObject} (h : Move c o (c', o')) :
    o'.size = o.size := by
  cases h with
  | fill => exact size_fill c o
  | acquire | discard | submit | collect | withdraw | drop | release => exact size_publish o _
  | notice | giveUp | rest | overtaken | expire | miss | abandon | read => rfl

/-- A move leaves phase and word alone. Or it comes from a phase or from a free word; then the word
is afterwards that of the phase it has come to, or free. -/
theorem Move.phase_cases {c c' : ClientCall} {o o' : SharedObject} (h : Move c o (c', o'))
    (hsize : stateOffset + 4 ≤ o.size) :
    (c'.stage.phase? = c.stage.phase? ∧ stateOf o' = stateOf o) ∨
      (((∃ f, c.stage.phase? = some f) ∨ ∃ f : Phase, f.isFree ∧ stateOf o = f.word) ∧
        ∃ g : Phase, stateOf o' = g.word ∧ c'.stage.phase? = g.held?) := by
  have hword (p : Phase) : stateOf (publish o p) = p.word := stateOf_publish hsize p
  cases h with
  | acquire stage word => exact .inr ⟨.inr ⟨.idle, rfl, word⟩, .producing, hword _, rfl⟩
  | collect stage word => exact .inr ⟨.inr ⟨.completed, rfl, word⟩, .consuming, hword _, rfl⟩
  | discard stage word | drop stage word =>
    exact .inr ⟨.inr ⟨.completed, rfl, word⟩, .idle, hword _, rfl⟩
  | withdraw stage word => exact .inr ⟨.inr ⟨.produced, rfl, word⟩, .idle, hword _, rfl⟩
  | submit stage =>
    exact .inr ⟨.inl ⟨.producing, by rw [stage]; rfl⟩, .produced, hword _, rfl⟩
  | release stage => exact .inr ⟨.inl ⟨.consuming, by rw [stage]; rfl⟩, .idle, hword _, rfl⟩
  | fill stage => exact .inl ⟨by rw [stage]; rfl, stateOf_fill c o⟩
  | rest stage => exact .inl ⟨rfl, rfl⟩
  | notice stage _ | giveUp stage _ _ | overtaken stage _ | expire stage _ | miss stage _
  | abandon stage _ | read stage => exact .inl ⟨by rw [stage]; rfl, rfl⟩

/-- Outside its phases a call does nothing but to move a free word on. -/
theorem Move.object_cases {c c' : ClientCall} {o o' : SharedObject} (h : Move c o (c', o'))
    (hphase : c.stage.phase? = none) :
    o' = o ∨ ∃ p q : Phase, p.isFree ∧ stateOf o = p.word ∧ o' = publish o q := by
  cases h with
  | acquire stage word => exact .inr ⟨.idle, .producing, rfl, word, rfl⟩
  | collect stage word => exact .inr ⟨.completed, .consuming, rfl, word, rfl⟩
  | discard stage word | drop stage word => exact .inr ⟨.completed, .idle, rfl, word, rfl⟩
  | withdraw stage word => exact .inr ⟨.produced, .idle, rfl, word, rfl⟩
  | fill stage | submit stage | read stage | release stage =>
    rw [stage] at hphase
    cases hphase
  | notice | giveUp | rest | overtaken | expire | miss | abandon => exact .inl rfl

/-- Outside its phases a call sees nothing but the handshake word. -/
theorem step_congr (expired : Bool) {c : ClientCall} {o o' : SharedObject}
    (hphase : c.stage.phase? = none) (hstate : stateOf o = stateOf o') :
    (c.step expired o).1 = (c.step expired o').1 := by
  unfold step exchange?
  rw [hstate]
  cases hs : c.stage with
  | acquiring | awaiting | withdrawing =>
    dsimp only
    split_ifs <;> rfl
  | discarding | dropping | finished => rfl
  | filling | submitting | collecting | releasing => exact nomatch hs ▸ hphase

end ClientCall

/-! ## The moves of a server -/

namespace ServerRun

/-- What a server leaves of the data that it was given: its handler can change the bytes and not
their number. -/
def left (handler : Handler) (d : Delivery) : Bytes := Bytes.overwrite d.data 0 (handler d).2

/-- The memory after a handler has run on what stood in it. -/
def answerIn (handler : Handler) (capacity : Nat) (o : SharedObject) : SharedObject :=
  let d := Delivery.ofObject capacity o
  o.write dataOffset ((handler d).2.take d.data.length)

/-- What one step of a server can be. -/
inductive Move (handler : Handler) (s : ServerRun) (o : SharedObject) :
    ServerRun × SharedObject → Prop
  /-- There is a request, and the server takes it. -/
  | take (stage : s.stage = .waiting) (word : stateOf o = Phase.produced.word) :
      Move handler s o ({ s with stage := .handling }, publish o .decrypting)
  /-- No request has come in time. -/
  | expire (stage : s.stage = .waiting) : Move handler s o ({ s with stage := .finished false }, o)
  /-- Nothing happens: the server goes on waiting, or it is done. -/
  | rest (stage : s.stage.phase? = none) : Move handler s o (s, o)
  | handle (stage : s.stage = .handling) :
      Move handler s o ({ s with
        seen := some (Delivery.ofObject s.capacity o)
        stage := .reporting (handler (Delivery.ofObject s.capacity o)).1 },
        answerIn handler s.capacity o)
  | report {status : Status} (stage : s.stage = .reporting status) :
      Move handler s o ({ s with stage := .completing }, o.writeWord statusOffset status)
  | complete (stage : s.stage = .completing) :
      Move handler s o ({ s with stage := .finished true }, publish o .completed)

theorem move_step (handler : Handler) (expired : Bool) (s : ServerRun) (o : SharedObject) :
    Move handler s o (s.step handler expired o) := by
  have rest (h : s.stage.phase? = none) : Move handler s o (s, o) := .rest h
  unfold step
  cases hs : s.stage with
  | waiting =>
    rw [hs] at rest
    by_cases hp : stateOf o = Phase.produced.word
    · simpa only [exchange?_of_eq _ hp] using Move.take hs hp
    · simp only [exchange?_of_ne _ hp]
      split_ifs with he
      · exact .expire hs
      · exact rest rfl
  | handling => exact .handle hs
  | reporting status => exact .report hs
  | completing => exact .complete hs
  | finished served => exact rest (by rw [hs]; rfl)

@[simp] theorem size_answerIn (handler : Handler) (capacity : Nat) (o : SharedObject) :
    (answerIn handler capacity o).size = o.size := SharedObject.size_write ..

/-- An answer is written to the data region alone. -/
theorem byte_answerIn (handler : Handler) (capacity : Nat) (o : SharedObject) {k : Nat}
    (h : k < dataOffset) : (answerIn handler capacity o).byte k = o.byte k := by
  unfold answerIn
  rw [SharedObject.byte_write, if_neg (by omega)]

theorem stateOf_answerIn (handler : Handler) (capacity : Nat) (o : SharedObject) :
    stateOf (answerIn handler capacity o) = stateOf o := by
  unfold stateOf SharedObject.word
  rw [SharedObject.read_congr (size_answerIn handler capacity o)]
  intro k _ hk
  exact byte_answerIn handler capacity o
    (by have := dataOffset_eq; simp only [stateOffset] at hk; omega)

theorem stateOf_writeStatus (o : SharedObject) (status : Status) :
    stateOf (o.writeWord statusOffset status) = stateOf o :=
  SharedObject.word_write_of_disjoint o (.inl (by decide))

/-- What a handler leaves in the data is what stands in the memory after it has run. -/
theorem read_answerIn (handler : Handler) {capacity : Nat} {o : SharedObject} {r : Request}
    (hd : Delivery.ofObject capacity o = r.delivery) (hsize : o.size = objectSize capacity) :
    (answerIn handler capacity o).read dataOffset r.data.length = left handler r.delivery := by
  have hdata : o.read dataOffset r.data.length = r.data := by
    have hread := congrArg Delivery.data hd
    simp only [Delivery.ofObject, Request.delivery] at hread
    rw [← hread, SharedObject.read_length_read]
  have hlength := congrArg List.length hdata
  rw [SharedObject.length_read, hsize, objectSize] at hlength
  unfold answerIn
  simp only [hd]
  rw [SharedObject.read_write_start, hdata, left]
  · exact Bytes.overwrite_take r.data (handler r.delivery).2
  · exact List.length_take_le _ _
  · rw [hsize, objectSize]
    omega

theorem Move.size {handler : Handler} {s s' : ServerRun} {o o' : SharedObject}
    (h : Move handler s o (s', o')) : o'.size = o.size := by
  cases h with
  | handle => exact size_answerIn handler s.capacity o
  | report => exact SharedObject.size_writeWord ..
  | take | complete => exact size_publish o _
  | expire | rest => rfl

theorem Move.phase_cases {handler : Handler} {s s' : ServerRun} {o o' : SharedObject}
    (h : Move handler s o (s', o')) (hsize : stateOffset + 4 ≤ o.size) :
    (s'.stage.phase? = s.stage.phase? ∧ stateOf o' = stateOf o) ∨
      (((∃ f, s.stage.phase? = some f) ∨ ∃ f : Phase, f.isFree ∧ stateOf o = f.word) ∧
        ∃ g : Phase, stateOf o' = g.word ∧ s'.stage.phase? = g.held?) := by
  have hword (p : Phase) : stateOf (publish o p) = p.word := stateOf_publish hsize p
  cases h with
  | take stage word => exact .inr ⟨.inr ⟨.produced, rfl, word⟩, .decrypting, hword _, rfl⟩
  | complete stage =>
    exact .inr ⟨.inl ⟨.decrypting, by rw [stage]; rfl⟩, .completed, hword _, rfl⟩
  | expire stage => exact .inl ⟨by rw [stage]; rfl, rfl⟩
  | rest stage => exact .inl ⟨rfl, rfl⟩
  | handle stage => exact .inl ⟨by rw [stage]; rfl, stateOf_answerIn ..⟩
  | report stage => exact .inl ⟨by rw [stage]; rfl, stateOf_writeStatus ..⟩

/-- Outside its phase a server does nothing but to take a request. -/
theorem Move.object_cases {handler : Handler} {s s' : ServerRun} {o o' : SharedObject}
    (h : Move handler s o (s', o')) (hphase : s.stage.phase? = none) :
    o' = o ∨ ∃ p q : Phase, p.isFree ∧ stateOf o = p.word ∧ o' = publish o q := by
  cases h with
  | take stage word => exact .inr ⟨.produced, .decrypting, rfl, word, rfl⟩
  | expire | rest => exact .inl rfl
  | handle stage | report stage | complete stage =>
    rw [stage] at hphase
    cases hphase

/-- Outside its phase a server sees nothing but the handshake word. -/
theorem step_congr (handler : Handler) (expired : Bool) {s : ServerRun} {o o' : SharedObject}
    (hphase : s.stage.phase? = none) (hstate : stateOf o = stateOf o') :
    (s.step handler expired o).1 = (s.step handler expired o').1 := by
  unfold step exchange?
  rw [hstate]
  cases hs : s.stage with
  | waiting =>
    dsimp only
    split_ifs <;> rfl
  | finished => rfl
  | handling | reporting | completing => exact nomatch hs ▸ hphase

end ServerRun

end Channel

end ContentDecryption
