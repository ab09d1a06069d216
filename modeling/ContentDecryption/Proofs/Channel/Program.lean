import ContentDecryption.Proofs.Channel.Callers

/-!
# The two ends as programs

The memory of a channel belongs to every process that has it mapped, and nothing but good
manners keeps a process from writing there at any time. So the steps of the two ends are
spelled out here as programs whose only operations are accesses to the object, and a run of
a program finds other contents at each access: whatever the rest of the world has left
there. Only the size is the same throughout.

A byte that somebody changes while a range is read or written needs no access of its own:
the range is then as if it had been found so, or left so, in one piece.

Main definitions:

* `Access`, `Event`, `Program`;
* `Program.run`: a program that has the object to itself;
* `Program.Under`: a program among others that write what they like;
* `Attachment.probe`, `ClientCall.program`, `ServerRun.program`: the two ends.

Main results:

* `Program.along_induction`, `Program.keeps_access`: what every access of a program keeps to;
* `Attachment.attach_eq_probe`, `ClientCall.run_program`, `ServerRun.run_program`: the
  programs do what the two ends do.
-/

namespace ContentDecryption

namespace Channel

/-! ## Programs -/

/-- One access to an object. -/
inductive Access
  | read (start length : Nat)
  | write (start : Nat) (bytes : Bytes)
  /-- moves the handshake word from one state to another, if it is in the first -/
  | move (source target : Phase)
  deriving Repr, DecidableEq

namespace Access

/-- The access that sets the handshake word. -/
def publish (p : Phase) : Access := .write stateOffset (Bytes.ofWord p.word)

/-- The first offset of an access. -/
def start : Access → Nat
  | read start _ => start
  | write start _ => start
  | move _ _ => stateOffset

/-- The offset after the last one of an access. -/
def stop : Access → Nat
  | read start length => start + length
  | write start bytes => start + bytes.length
  | move _ _ => stateOffset + 4

/-- The bytes that an access finds. -/
def reply (o : SharedObject) : Access → Bytes
  | read start length => o.read start length
  | write _ _ => []
  | move _ _ => o.read stateOffset 4

/-- The object after an access. -/
def after (o : SharedObject) : Access → SharedObject
  | read _ _ => o
  | write start bytes => o.write start bytes
  | move source target => (exchange? o source target).getD o

/-- An access leaves what lies outside its offsets. -/
theorem byte_after_of_outside (x : Access) (o : SharedObject) {k : Nat}
    (h : k < x.start ∨ x.stop ≤ k) : (x.after o).byte k = o.byte k := by
  cases x with
  | read start length => rfl
  | write start bytes =>
    simp only [Access.start, stop] at h
    rw [after, SharedObject.byte_write, if_neg (by omega)]
  | move source target =>
    simp only [Access.start, stop, stateOffset] at h
    rw [after, exchange?]
    split
    · exact byte_publish o target h
    · rfl

end Access

/-- An access, and the object as it was found. -/
structure Event where
  access : Access
  found : SharedObject
  deriving Repr

/-- Whether an access has changed the byte at an offset. -/
def Event.Changes (e : Event) (k : Nat) : Prop :=
  (e.access.after e.found).byte k ≠ e.found.byte k

theorem Event.Changes.within {e : Event} {k : Nat} (h : e.Changes k) :
    e.access.start ≤ k ∧ k < e.access.stop :=
  ⟨Nat.le_of_not_lt fun hlt => h (e.access.byte_after_of_outside e.found (.inl hlt)),
    Nat.lt_of_not_le fun hle => h (e.access.byte_after_of_outside e.found (.inr hle))⟩

/-- What is done with an object: one access after the other, where the next one may depend on
what the last one has found. -/
inductive Program (α : Type)
  | done (x : α)
  | access (a : Access) (next : Bytes → Program α)

namespace Program

variable {α β σ : Type}

/-- One program, then another with its result. -/
def bind : Program α → (α → Program β) → Program β
  | done x, f => f x
  | access a next, f => .access a fun found => (next found).bind f

/-- A step for each entry of a clock, which says whether the deadline has passed by then. -/
def along (step : Bool → σ → Program σ) (s : σ) : List Bool → Program σ
  | [] => .done s
  | expired :: clock => (step expired s).bind fun s => along step s clock

/-- A program that has the object to itself. -/
def run : Program α → SharedObject → α × SharedObject
  | done x, o => (x, o)
  | access a next, o => (next (a.reply o)).run (a.after o)

/-- A program that finds any contents at each access, in an object of this size: its accesses in
their order, and its result. -/
inductive Under (size : Nat) : Program α → List Event → α → Prop
  | done (x : α) : Under size (.done x) [] x
  | access {a : Access} {next : Bytes → Program α} {trace : List Event} {x : α}
      (o : SharedObject) (hsize : o.size = size) (hnext : Under size (next (a.reply o)) trace x) :
      Under size (.access a next) (⟨a, o⟩ :: trace) x

theorem run_bind (p : Program α) (f : α → Program β) (o : SharedObject) :
    (p.bind f).run o = (f (p.run o).1).run (p.run o).2 := by
  induction p generalizing o with
  | done x => rfl
  | access a next ih => exact ih (a.reply o) (a.after o)

theorem run_along {step : Bool → σ → Program σ} {f : Bool → σ → SharedObject → σ × SharedObject}
    (hstep : ∀ expired s o, (step expired s).run o = f expired s o) (s : σ) (clock : List Bool)
    (o : SharedObject) :
    (along step s clock).run o = clock.foldl (fun p expired => f expired p.1 p.2) (s, o) := by
  induction clock generalizing s o with
  | nil => rfl
  | cons expired clock ih => rw [along, run_bind, ih, hstep, List.foldl_cons]

section

variable {size : Nat}

theorem under_done_iff {x y : α} {trace : List Event} :
    (done x).Under size trace y ↔ trace = [] ∧ y = x := by
  constructor
  · rintro ⟨⟩
    exact ⟨rfl, rfl⟩
  · rintro ⟨rfl, rfl⟩
    exact .done y

theorem under_access_iff {a : Access} {next : Bytes → Program α} {trace : List Event} {y : α} :
    (access a next).Under size trace y ↔
      ∃ o rest, o.size = size ∧ (next (a.reply o)).Under size rest y ∧ trace = ⟨a, o⟩ :: rest := by
  constructor
  · rintro ⟨⟩
    next rest o hsize hnext => exact ⟨o, rest, hsize, hnext, rfl⟩
  · rintro ⟨o, rest, hsize, hnext, rfl⟩
    exact .access o hsize hnext

theorem Under.of_bind {p : Program α} {f : α → Program β} {trace : List Event} {y : β}
    (h : (p.bind f).Under size trace y) :
    ∃ first x rest, p.Under size first x ∧ (f x).Under size rest y ∧ trace = first ++ rest := by
  induction p generalizing trace with
  | done x => exact ⟨[], x, trace, .done x, h, rfl⟩
  | access a next ih =>
    obtain ⟨o, rest, hsize, hnext, rfl⟩ := under_access_iff.1 h
    obtain ⟨first, x, last, hp, hf, rfl⟩ := ih _ hnext
    exact ⟨⟨a, o⟩ :: first, x, last, .access o hsize hp, hf, rfl⟩

/-- What each step keeps about all accesses so far holds after any number of steps. -/
theorem along_induction {step : Bool → σ → Program σ} {I : List Event → σ → Prop}
    (hstep : ∀ {past s expired now s'}, I past s → (step expired s).Under size now s' →
      I (past ++ now) s')
    {past trace : List Event} {s s' : σ} {clock : List Bool} (hI : I past s)
    (h : (along step s clock).Under size trace s') : I (past ++ trace) s' := by
  induction clock generalizing past trace s with
  | nil =>
    obtain ⟨rfl, rfl⟩ := under_done_iff.1 h
    simpa using hI
  | cons expired clock ih =>
    obtain ⟨now, s₁, rest, hnow, hrest, rfl⟩ := h.of_bind
    rw [← List.append_assoc]
    exact ih (hstep hI hnow) hrest

/-- In an object of this size, a program makes only such accesses, and its result is such. -/
def Keeps (size : Nat) (A : Access → Prop) (post : α → Prop) (p : Program α) : Prop :=
  ∀ trace x, p.Under size trace x → (∀ e ∈ trace, A e.access) ∧ post x

variable {A : Access → Prop} {post : α → Prop}

theorem keeps_done {x : α} (h : post x) : Keeps size A post (.done x) := by
  intro trace y hu
  obtain ⟨rfl, rfl⟩ := under_done_iff.1 hu
  exact ⟨fun e he => (nomatch he), h⟩

theorem keeps_access {a : Access} {next : Bytes → Program α} (ha : A a)
    (h : ∀ o : SharedObject, o.size = size → Keeps size A post (next (a.reply o))) :
    Keeps size A post (.access a next) := by
  intro trace y hu
  obtain ⟨o, rest, hsize, hnext, rfl⟩ := under_access_iff.1 hu
  obtain ⟨hrest, hy⟩ := h o hsize rest y hnext
  refine ⟨fun e he => ?_, hy⟩
  rcases List.mem_cons.1 he with rfl | hlater
  · exact ha
  · exact hrest e hlater

end

end Program

/-! ## The two ends as programs -/

/-- What an attaching client does with the object that it has found: its capacity, if the object
is a channel. -/
def Attachment.probe (size : Nat) : Program (Except Error Nat) :=
  if size < dataOffset then .done (.error .invalidDecryptBuffer)
  else .access (.read markOffset 4) fun found =>
    if Bytes.toWord found ≠ mark then .done (.error .invalidDecryptBuffer)
    else .access (.read capacityOffset 4) fun found =>
      .done (.ok (min (Bytes.toWord found).toNat (size - dataOffset)))

/-- One step of a call, access by access. -/
def ClientCall.program (expired : Bool) (c : ClientCall) : Program ClientCall :=
  match c.stage with
  | .acquiring => .access (.move .idle .producing) fun found =>
    .done (if Bytes.toWord found = Phase.idle.word then { c with stage := .filling }
      else if Bytes.toWord found = Phase.completed.word then { c with stage := .discarding }
      else if expired then { c with stage := .finished (.error .timeout) }
      else c)
  | .discarding => .access (.move .completed .idle) fun _ => .done { c with stage := .acquiring }
  | .filling => .access (.write headerOffset c.header.encode) fun _ =>
    .access (.write dataOffset c.data) fun _ => .done { c with stage := .submitting }
  | .submitting => .access (.publish .produced) fun _ => .done { c with stage := .awaiting }
  | .awaiting => .access (.move .completed .consuming) fun found =>
    .done (if Bytes.toWord found = Phase.completed.word then { c with stage := .collecting }
      else if expired then { c with stage := .withdrawing }
      else c)
  | .withdrawing => .access (.move .produced .idle) fun found =>
    .done (if Bytes.toWord found = Phase.produced.word then
        { c with stage := .finished (.error .timeout) }
      else { c with stage := .dropping })
  | .dropping => .access (.move .completed .idle) fun _ =>
    .done { c with stage := .finished (.error .timeout) }
  | .collecting => .access (.read dataOffset c.data.length) fun data =>
    .access (.read statusOffset 4) fun found =>
      .done { c with data, stage := .releasing (Bytes.toWord found) }
  | .releasing status => .access (.publish .idle) fun _ =>
    .done { c with stage := .finished (Error.ofStatus status) }
  | .finished _ => .done c

/-- The request that a header describes. -/
def Delivery.ofHeader (h : Header) (data : Bytes) : Delivery where
  info := h.sampleInfo
  initWithLast15 := h.initWithLast15 != 0
  properties := h.mediaProperties
  data := data

/-- How much data a server with this capacity takes from a request with this header. -/
def Header.taken (h : Header) (capacity : Nat) : Nat := min h.dataLength.toNat capacity

/-- One step of a server, access by access. -/
def ServerRun.program (handler : Handler) (expired : Bool) (s : ServerRun) : Program ServerRun :=
  match s.stage with
  | .waiting => .access (.move .produced .decrypting) fun found =>
    .done (if Bytes.toWord found = Phase.produced.word then { s with stage := .handling }
      else if expired then { s with stage := .finished false }
      else s)
  | .handling => .access (.read headerOffset headerSize) fun found =>
    .access (.read dataOffset ((Header.decode found).taken s.capacity)) fun data =>
      let d := Delivery.ofHeader (Header.decode found) data
      .access (.write dataOffset ((handler d).2.take d.data.length)) fun _ =>
        .done { s with seen := some d, stage := .reporting (handler d).1 }
  | .reporting status => .access (.write statusOffset (Bytes.ofWord status)) fun _ =>
    .done { s with stage := .completing }
  | .completing => .access (.publish .completed) fun _ => .done { s with stage := .finished true }
  | .finished _ => .done s

/-! ## They are the same -/

/-- A client attaches if its name leads to an object and the probe of that object succeeds. -/
theorem Attachment.attach_eq_probe (m : SharedMemory) (name : String) (timeoutMs reserved : Nat)
    (lock : String) (mappable : Bool) :
    Attachment.attach m name timeoutMs reserved lock mappable =
      match m.attach name mappable with
      | .error e => .error e
      | .ok i => ((Attachment.probe (m.object i).size).run (m.object i)).1.map fun capacity =>
          ⟨name, i, capacity, timeoutMs, reserved, lock⟩ := by
  unfold Attachment.attach
  cases m.attach name mappable with
  | error e => rfl
  | ok i =>
    dsimp only [Attachment.probe]
    by_cases hsize : (m.object i).size < dataOffset
    · rw [if_pos hsize, if_pos hsize]
      rfl
    rw [if_neg hsize, if_neg hsize]
    have hword (start : Nat) : Bytes.toWord ((Access.read start 4).reply (m.object i)) =
        (m.object i).word start := rfl
    simp only [Program.run, hword]
    split_ifs <;> rfl

/-- An access that moves the handshake word does what the machines do, and finds out the same. -/
theorem exchange?_cases (o : SharedObject) (source target : Phase) :
    (Bytes.toWord ((Access.move source target).reply o) = source.word ∧
        exchange? o source target = some (publish o target)) ∨
      (Bytes.toWord ((Access.move source target).reply o) ≠ source.word ∧
        exchange? o source target = none) := by
  by_cases h : stateOf o = source.word
  · exact .inl ⟨h, exchange?_of_eq target h⟩
  · exact .inr ⟨h, exchange?_of_ne target h⟩

theorem ClientCall.run_program (expired : Bool) (c : ClientCall) (o : SharedObject) :
    (c.program expired).run o = c.step expired o := by
  cases hstage : c.stage with
  | acquiring =>
    simp only [program, step, hstage, Program.run, Access.after]
    rcases exchange?_cases o .idle .producing with ⟨hw, he⟩ | ⟨hw, he⟩
    · rw [he, if_pos hw]
      rfl
    · rw [he, if_neg hw]
      have hfound : Bytes.toWord ((Access.move .idle .producing).reply o) = stateOf o := rfl
      simp only [hfound, Option.getD_none]
      split_ifs <;> rfl
  | awaiting =>
    simp only [program, step, hstage, Program.run, Access.after]
    rcases exchange?_cases o .completed .consuming with ⟨hw, he⟩ | ⟨hw, he⟩
    · rw [he, if_pos hw]
      rfl
    · rw [he, if_neg hw]
      split_ifs <;> rfl
  | withdrawing =>
    simp only [program, step, hstage, Program.run, Access.after]
    rcases exchange?_cases o .produced .idle with ⟨hw, he⟩ | ⟨hw, he⟩
    · rw [he, if_pos hw]
      rfl
    · rw [he, if_neg hw]
      rfl
  | _ =>
    simp only [program, step, hstage]
    rfl

theorem ServerRun.run_program (handler : Handler) (expired : Bool) (s : ServerRun)
    (o : SharedObject) : (s.program handler expired).run o = s.step handler expired o := by
  cases hstage : s.stage with
  | waiting =>
    simp only [program, step, hstage, Program.run, Access.after]
    rcases exchange?_cases o .produced .decrypting with ⟨hw, he⟩ | ⟨hw, he⟩
    · rw [he, if_pos hw]
      rfl
    · rw [he, if_neg hw]
      split_ifs <;> rfl
  | _ =>
    simp only [program, step, hstage]
    rfl

end Channel

end ContentDecryption
