import ContentDecryption.Callback.Bridge
import Mathlib.Logic.Function.Basic
import Mathlib.Tactic.SplitIfs

/-!
# The threads at a bridge

Any number of threads bring events to a bridge, attach it and detach it, and run the
callbacks of the application. A callback may do all of that again on its own thread.
An `Act` is what one thread does under one lock or between two locks, and a run is a
list of acts in any order.

There are two ways to a callback. An event that is dispatched while the bridge is
attached puts its thread into the list of those that are delivering, until the
callback has returned. The events that were kept back are replayed one after the other
by the thread that attaches the bridge, and that thread is on no list.

Next to the threads a run keeps a record that no thread reads: the callbacks that were
called, and the thread on which detaching has returned. From then on the handle may be
freed.

Main definitions:

* `Threads`, `Act`, `Threads.step`, `Threads.run`;
* `Threads.Step`: what one act can be;
* `Orderly`: how the things that a thread is in the middle of stand upon each other.

Main results:

* `Threads.step_step`: every act is one of these;
* `Threads.steps_induction`: what holds and is kept by every step holds after any acts;
* `Threads.Step.orderly`: the stacks of the threads stay orderly.
-/

namespace ContentDecryption

namespace Callback

/-- The way to a callback. -/
inductive Route
  | dispatch
  | replay
  deriving Repr, DecidableEq

/-- What a thread is in the middle of. -/
inductive Frame
  /-- An event was dispatched, and its callback is still to be called. -/
  | offered (e : SessionEvent)
  | inside (route : Route)
  /-- The callback of a dispatched event has returned. -/
  | leaving
  /-- Attaching, with these events still to be replayed. -/
  | replaying (queue : List SessionEvent)
  /-- Detaching, and waiting for callbacks on other threads. -/
  | detaching
  deriving Repr, DecidableEq

/-- A callback that was called. -/
structure Start where
  thread : ThreadRef
  route : Route
  event : SessionEvent
  deriving Repr, DecidableEq

/-- A bridge and the threads at it. -/
structure Threads where
  bridge : Bridge
  /-- What each thread is in the middle of, the innermost first. -/
  stack : ThreadRef → List Frame := fun _ => []
  /-- The callbacks that were called, the last one first. -/
  started : List Start := []
  /-- The thread on which detaching has returned. -/
  released : Option ThreadRef := none

/-- What can happen next. -/
inductive Act
  /-- An event comes up on a thread. -/
  | notify (thread : ThreadRef) (e : SessionEvent)
  /-- There is a handle now. -/
  | attach (thread : ThreadRef) (handle : HandleRef)
  /-- The handle is given up, perhaps by a callback with this very handle. -/
  | release (thread : ThreadRef)
  /-- A thread goes on with what it is in the middle of. -/
  | go (thread : ThreadRef)
  deriving Repr, DecidableEq

/-- Whether a thread can do anything it likes: it is in the middle of nothing, or of a callback. -/
def isFree : List Frame → Bool
  | [] => true
  | .inside _ :: _ => true
  | _ => false

/-- An event is kept back, it is handed out with the handle, or it is dropped. -/
theorem Bridge.offer_cases (b : Bridge) (thread : ThreadRef) (e : SessionEvent) :
    (∃ queue, b.target = .pending queue ∧
        b.offer thread e = (none, { b with target := .pending (queue ++ [e]) })) ∨
      (∃ handle, b.target = .attached handle ∧
        b.offer thread e = (some handle, { b with delivering := thread :: b.delivering })) ∨
      (b.target = .detached ∧ b.offer thread e = (none, b)) := by
  unfold offer
  split
  · next queue htarget => exact .inl ⟨queue, htarget, rfl⟩
  · next handle htarget => exact .inr (.inl ⟨handle, htarget, rfl⟩)
  · next htarget => exact .inr (.inr ⟨htarget, rfl⟩)

namespace Threads

/-- A new bridge. -/
def start (name : String) (callbacks : List EventKind) : Threads where
  bridge := { name, callbacks }

variable (t : Threads)

/-- A thread is in the middle of something else now. -/
def setStack (thread : ThreadRef) (s : List Frame) : Threads :=
  { t with stack := Function.update t.stack thread s }

/-- A callback is called. -/
def call (thread : ThreadRef) (route : Route) (e : SessionEvent) (s : List Frame) : Threads :=
  { t.setStack thread (.inside route :: s) with started := ⟨thread, route, e⟩ :: t.started }

/-- A thread goes on. -/
def advance (thread : ThreadRef) : Threads :=
  match t.stack thread with
  | [] => t
  | .offered e :: s =>
    match t.bridge.invocation? e with
    | some e => t.call thread .dispatch e s
    | none => t.setStack thread (.leaving :: s)
  | .inside .dispatch :: s => t.setStack thread (.leaving :: s)
  | .leaving :: s => { t.setStack thread s with bridge := t.bridge.leave thread }
  | .replaying [] :: s => t.setStack thread s
  | .replaying (e :: queue) :: s =>
    match t.bridge.invocation? e with
    | some e => t.call thread .replay e (.replaying queue :: s)
    | none => t.setStack thread (.replaying queue :: s)
  | .inside .replay :: s => t.setStack thread s
  | .detaching :: s =>
    if t.bridge.isQuiet thread then { t.setStack thread s with released := some thread } else t

/-- One act. An act that cannot happen changes nothing. -/
def step : Act → Threads
  | .notify thread e =>
    if isFree (t.stack thread) then
      match t.bridge.offer thread e with
      | (some _, bridge) => { t.setStack thread (.offered e :: t.stack thread) with bridge }
      | (none, bridge) => { t with bridge }
    else t
  | .attach thread handle =>
    match t.bridge.target with
    | .pending _ =>
      if isFree (t.stack thread) then
        let (queue, bridge) := t.bridge.attach handle
        { t.setStack thread (.replaying queue :: t.stack thread) with bridge }
      else t
    | _ => t
  | .release thread =>
    match t.bridge.target with
    | .attached _ =>
      if isFree (t.stack thread) then
        { t.setStack thread (.detaching :: t.stack thread) with bridge := t.bridge.detach }
      else t
    | _ => t
  | .go thread => t.advance thread

/-- A list of acts. -/
def steps (acts : List Act) : Threads := acts.foldl step t

/-- A list of acts at a new bridge. -/
def run (name : String) (callbacks : List EventKind) (acts : List Act) : Threads :=
  (start name callbacks).steps acts

/-! ## What an act can be -/

/-- What one act can be. -/
inductive Step (t : Threads) : Threads → Prop
  | stay : Step t t
  /-- An event is kept back. -/
  | keep {queue : List SessionEvent} (e : SessionEvent)
      (target : t.bridge.target = .pending queue) :
      Step t { t with bridge := { t.bridge with target := .pending (queue ++ [e]) } }
  /-- A thread is about to call the callback for an event. -/
  | offer {thread : ThreadRef} {handle : HandleRef} (e : SessionEvent)
      (free : isFree (t.stack thread) = true) (target : t.bridge.target = .attached handle) :
      Step t { t.setStack thread (.offered e :: t.stack thread) with
        bridge := { t.bridge with delivering := thread :: t.bridge.delivering } }
  | attach {thread : ThreadRef} {queue : List SessionEvent} (handle : HandleRef)
      (free : isFree (t.stack thread) = true) (target : t.bridge.target = .pending queue) :
      Step t { t.setStack thread (.replaying queue :: t.stack thread) with
        bridge := { t.bridge with target := .attached handle } }
  | release {thread : ThreadRef} {handle : HandleRef} (free : isFree (t.stack thread) = true)
      (target : t.bridge.target = .attached handle) :
      Step t { t.setStack thread (.detaching :: t.stack thread) with bridge := t.bridge.detach }
  /-- The callback for a dispatched event is called. -/
  | call {thread : ThreadRef} {e : SessionEvent} {s : List Frame} (e' : SessionEvent)
      (top : t.stack thread = .offered e :: s) : Step t (t.call thread .dispatch e' s)
  /-- There is no callback for a dispatched event, or it returns. -/
  | finish {thread : ThreadRef} {f : Frame} {s : List Frame} (top : t.stack thread = f :: s)
      (dispatch : f = .inside .dispatch ∨ ∃ e, f = .offered e) :
      Step t (t.setStack thread (.leaving :: s))
  | leave {thread : ThreadRef} {s : List Frame} (top : t.stack thread = .leaving :: s) :
      Step t { t.setStack thread s with bridge := t.bridge.leave thread }
  /-- The callback for an event that was kept back is called. -/
  | replay {thread : ThreadRef} {e : SessionEvent} {queue : List SessionEvent} {s : List Frame}
      (e' : SessionEvent) (top : t.stack thread = .replaying (e :: queue) :: s) :
      Step t (t.call thread .replay e' (.replaying queue :: s))
  /-- There is no callback for an event that was kept back. -/
  | skip {thread : ThreadRef} {e : SessionEvent} {queue : List SessionEvent} {s : List Frame}
      (top : t.stack thread = .replaying (e :: queue) :: s) :
      Step t (t.setStack thread (.replaying queue :: s))
  /-- The callback for an event that was kept back returns. -/
  | resume {thread : ThreadRef} {s : List Frame} (top : t.stack thread = .inside .replay :: s) :
      Step t (t.setStack thread s)
  /-- Attaching returns. -/
  | attached {thread : ThreadRef} {s : List Frame} (top : t.stack thread = .replaying [] :: s) :
      Step t (t.setStack thread s)
  /-- Detaching returns. -/
  | released {thread : ThreadRef} {s : List Frame} (top : t.stack thread = .detaching :: s)
      (quiet : t.bridge.isQuiet thread = true) :
      Step t { t.setStack thread s with released := some thread }

variable {t}

theorem step_advance (t : Threads) (thread : ThreadRef) : Step t (t.advance thread) := by
  unfold advance
  split
  · exact .stay
  · next e s top =>
    split
    · exact .call _ top
    · exact .finish top (.inr ⟨e, rfl⟩)
  · next s top => exact .finish top (.inl rfl)
  · next s top => exact .leave top
  · next s top => exact .attached top
  · next e queue s top =>
    split
    · exact .replay _ top
    · exact .skip top
  · next s top => exact .resume top
  · next s top =>
    split_ifs with hquiet
    · exact .released top hquiet
    · exact .stay

theorem step_step (t : Threads) (a : Act) : Step t (t.step a) := by
  cases a with
  | notify thread e =>
    simp only [step]
    split_ifs with hfree
    · rcases t.bridge.offer_cases thread e with ⟨queue, htarget, hoffer⟩ |
          ⟨handle, htarget, hoffer⟩ | ⟨-, hoffer⟩
      · rw [hoffer]
        exact .keep e htarget
      · rw [hoffer]
        exact .offer e hfree htarget
      · rw [hoffer]
        exact .stay
    · exact .stay
  | attach thread handle =>
    simp only [step]
    split
    · next queue htarget =>
      split_ifs with hfree
      · have hqueue : (t.bridge.attach handle).1 = queue := by
          rw [Bridge.attach, htarget]
        rw [hqueue]
        exact .attach handle hfree htarget
      · exact .stay
    · exact .stay
  | release thread =>
    simp only [step]
    split
    · next handle htarget =>
      split_ifs with hfree
      · exact .release hfree htarget
      · exact .stay
    · exact .stay
  | go thread => exact step_advance t thread

/-- What holds and is kept by every step holds after any acts. -/
theorem steps_induction {P : Threads → Prop} (hstep : ∀ {t t' : Threads}, P t → Step t t' → P t')
    (acts : List Act) (h : P t) : P (t.steps acts) := by
  induction acts generalizing t with
  | nil => exact h
  | cons a acts ih => exact ih (hstep h (step_step t a))

theorem steps_append (t : Threads) (acts more : List Act) :
    t.steps (acts ++ more) = (t.steps acts).steps more := List.foldl_append

end Threads

/-! ## Stacks -/

/-- A thread that is in the middle of callbacks, or of nothing. -/
inductive Nested : List Frame → Prop
  | nil : Nested []
  | dispatch {s : List Frame} (h : Nested s) : Nested (.inside .dispatch :: s)
  | replay {s : List Frame} (queue : List SessionEvent) (h : Nested s) :
      Nested (.inside .replay :: .replaying queue :: s)

/-- A thread that is in the middle of callbacks, or of one other thing upon them. -/
inductive Orderly : List Frame → Prop
  | nested {s : List Frame} (h : Nested s) : Orderly s
  | offered {s : List Frame} (e : SessionEvent) (h : Nested s) : Orderly (.offered e :: s)
  | leaving {s : List Frame} (h : Nested s) : Orderly (.leaving :: s)
  | replaying {s : List Frame} (queue : List SessionEvent) (h : Nested s) :
      Orderly (.replaying queue :: s)
  | detaching {s : List Frame} (h : Nested s) : Orderly (.detaching :: s)

theorem Orderly.nested_of_free {s : List Frame} (h : Orderly s) (hfree : isFree s = true) :
    Nested s := by
  cases h with
  | nested h => exact h
  | offered | leaving | replaying | detaching => cases hfree

/-- What stands under anything but a callback of a replay is callbacks. -/
theorem Orderly.nested_tail {f : Frame} {s : List Frame} (h : Orderly (f :: s))
    (hf : f ≠ .inside .replay) : Nested s := by
  cases h with
  | nested h =>
    cases h with
    | dispatch h => exact h
    | replay => exact (hf rfl).elim
  | offered _ h | leaving h | replaying _ h | detaching h => exact h

/-- What stands under a callback of a replay is the replay. -/
theorem Orderly.orderly_tail {s : List Frame} (h : Orderly (.inside .replay :: s)) :
    Orderly s := by
  cases h with
  | nested h =>
    cases h with
    | replay queue h => exact .replaying queue h

/-- A callback of a replay runs upon the replay. -/
theorem Orderly.replaying_mem {s : List Frame} (h : Orderly s) (hmem : .inside .replay ∈ s) :
    ∃ queue, .replaying queue ∈ s := by
  have hnested {s : List Frame} (h : Nested s) (hmem : .inside .replay ∈ s) :
      ∃ queue, .replaying queue ∈ s := by
    induction h with
    | nil => cases hmem
    | dispatch _ ih =>
      rcases List.mem_cons.1 hmem with he | hmem
      · cases he
      · obtain ⟨queue, hqueue⟩ := ih hmem
        exact ⟨queue, List.mem_cons_of_mem _ hqueue⟩
    | replay queue => exact ⟨queue, List.mem_cons_of_mem _ List.mem_cons_self⟩
  cases h with
  | nested h => exact hnested h hmem
  | offered _ h | leaving h | replaying _ h | detaching h =>
    rcases List.mem_cons.1 hmem with he | hmem
    · cases he
    · obtain ⟨queue, hqueue⟩ := hnested h hmem
      exact ⟨queue, List.mem_cons_of_mem _ hqueue⟩

theorem Nested.not_offered {s : List Frame} (h : Nested s) (e : SessionEvent) :
    .offered e ∉ s := by
  induction h with
  | nil => exact List.not_mem_nil
  | dispatch _ ih | replay _ _ ih => simpa using ih

namespace Threads

variable {t t' : Threads}

theorem stack_setStack (t : Threads) (thread : ThreadRef) (s : List Frame) (k : ThreadRef) :
    (t.setStack thread s).stack k = if k = thread then s else t.stack k := by
  show Function.update t.stack thread s k = _
  rw [Function.update_apply]

theorem mem_setStack {thread : ThreadRef} {s : List Frame} {k : ThreadRef} {f : Frame}
    (hmem : f ∈ (t.setStack thread s).stack k) : f ∈ s ∨ f ∈ t.stack k := by
  rw [stack_setStack] at hmem
  split_ifs at hmem
  · exact .inl hmem
  · exact .inr hmem

theorem orderly_setStack (h : ∀ k, Orderly (t.stack k)) {thread : ThreadRef} {s : List Frame}
    (hs : Orderly s) (k : ThreadRef) : Orderly ((t.setStack thread s).stack k) := by
  rw [stack_setStack]
  split_ifs
  · exact hs
  · exact h k

/-- The stacks of the threads stay orderly. -/
theorem Step.orderly (hs : Step t t') (h : ∀ k, Orderly (t.stack k)) (k : ThreadRef) :
    Orderly (t'.stack k) := by
  have htop {thread : ThreadRef} {f : Frame} {s : List Frame} (top : t.stack thread = f :: s) :
      Orderly (f :: s) := top ▸ h thread
  cases hs with
  | stay | keep => exact h k
  | offer e free => exact orderly_setStack h (.offered e ((h _).nested_of_free free)) k
  | attach _ free => exact orderly_setStack h (.replaying _ ((h _).nested_of_free free)) k
  | release free => exact orderly_setStack h (.detaching ((h _).nested_of_free free)) k
  | call _ top =>
    exact orderly_setStack h (.nested (.dispatch ((htop top).nested_tail nofun))) k
  | finish top dispatch =>
    refine orderly_setStack h (.leaving ((htop top).nested_tail ?_)) k
    rcases dispatch with rfl | ⟨e, rfl⟩ <;> nofun
  | leave top => exact orderly_setStack h (.nested ((htop top).nested_tail nofun)) k
  | replay _ top =>
    exact orderly_setStack h (.nested (.replay _ ((htop top).nested_tail nofun))) k
  | skip top => exact orderly_setStack h (.replaying _ ((htop top).nested_tail nofun)) k
  | resume top => exact orderly_setStack h (htop top).orderly_tail k
  | attached top => exact orderly_setStack h (.nested ((htop top).nested_tail nofun)) k
  | released top => exact orderly_setStack h (.nested ((htop top).nested_tail nofun)) k

end Threads

end Callback

end ContentDecryption
