import ContentDecryption.Proofs.Channel.Traffic
import Mathlib.Tactic.ByContra

/-!
# Who has the memory of a channel

The handshake word lends the memory to one party at a time: to a call that writes its
request or reads its answer, and to a server that is at a request. This needs no lock.
Calls that share none may get in each other's way at the channel, but never in its
memory.

What carries it is that a phase with an owner is entered from a free word alone. While
a party is in its phase the word says so, so nobody else finds it free, and the two
plain stores that end a phase never undo what another party did.

Main results:

* `Traffic.Step.phase_cases`: an act moves one party at most, and how;
* `Traffic.Lent`, `Traffic.Lent.step`: one owner at most, whatever stood in the memory at first;
* `Traffic.Guarded`, `Traffic.guarded_run`: the invariant of a channel that was made, for every run;
* `Traffic.exclusive_ownership`: one owner at a time, the word is the owner's, nobody else changes
  the memory meanwhile, and who owns nothing touches no header, status or data.
-/

namespace ContentDecryption

namespace Channel

/-- Who acts at a channel: the call or the server with a number. -/
inductive Party
  | client (i : Nat)
  | server (j : Nat)
  deriving DecidableEq

/-- Who takes the step. Nobody has a part in the memory who has just come. -/
def Act.party? : Act → Option Party
  | .client i _ => some (.client i)
  | .server j _ => some (.server j)
  | _ => none

namespace Traffic

/-- What is said of a party: `f` of the stage of a call, or `g` of the stage of a server. -/
def said {α : Type} (t : Traffic) (f : ClientStage → Option α) (g : Nat → ServerStage → Option α) :
    Party → Option α
  | .client i => t.callers[i]?.bind fun c => f c.call.stage
  | .server j => t.workers[j]?.bind fun w => g j w.run.stage

/-- The phase that a party is in while the memory is its own. -/
def phase? (t : Traffic) : Party → Option Phase :=
  t.said ClientStage.phase? fun _ => ServerStage.phase?

/-- An act that leaves header, status and data alone: it changes no byte of them, and they could be
any others for it. -/
structure Abstains (t : Traffic) (x : Act) : Prop where
  writes : ∀ k, statusOffset ≤ k → (t.step x).object.byte k = t.object.byte k
  reads : ∀ o : SharedObject, o.size = t.object.size →
    (∀ k, k < statusOffset → o.byte k = t.object.byte k) →
      ({ t with object := o }.step x).callers = (t.step x).callers ∧
      ({ t with object := o }.step x).workers = (t.step x).workers ∧
      ({ t with object := o }.step x).writer = (t.step x).writer

/-! ## One act -/

/-- A new entry of which there is nothing to say changes nothing. -/
theorem bind_getElem?_concat {α β : Type} {l : List α} {x : α} {f : α → Option β} (h : f x = none)
    (k : Nat) : (l ++ [x])[k]?.bind f = l[k]?.bind f := by
  cases hk : (l ++ [x])[k]? with
  | none =>
    have hlength := List.getElem?_eq_none_iff.1 hk
    rw [List.length_append] at hlength
    rw [List.getElem?_eq_none (by omega)]
  | some y =>
    rcases getElem?_concat_cases hk with hold | ⟨hnew, rfl⟩
    · rw [hold]
    · rw [hnew, List.getElem?_eq_none (Nat.le_refl _)]
      exact h

section Said

variable {α : Type} {f : ClientStage → Option α} {g : Nat → ServerStage → Option α}

theorem said_append_caller (t : Traffic) {c : Caller} (h : f c.call.stage = none) :
    said { t with callers := t.callers ++ [c] } f g = t.said f g := by
  funext p
  cases p with
  | server j => rfl
  | client i => exact bind_getElem?_concat (f := fun c : Caller => f c.call.stage) h i

theorem said_append_worker (t : Traffic) {w : Worker} (h : ∀ j, g j w.run.stage = none) :
    said { t with workers := t.workers ++ [w] } f g = t.said f g := by
  funext p
  cases p with
  | client i => rfl
  | server j => exact bind_getElem?_concat (f := fun w : Worker => g j w.run.stage) (h j) j

theorem said_afterClient {t : Traffic} {i : Nat} {c : Caller} {next : ClientCall × SharedObject}
    (hc : t.callers[i]? = some c) (p : Party) :
    (t.afterClient i c next).said f g p =
      if p = .client i then f next.1.stage else t.said f g p := by
  cases p with
  | server j => rfl
  | client k =>
    simp only [said, callers_afterClient hc, Party.client.injEq]
    by_cases hik : i = k
    · rw [if_pos hik, if_pos hik.symm]
      rfl
    · rw [if_neg hik, if_neg fun h => hik h.symm]

@[simp] theorem call_credit (w : Worker) (j : Nat) (run : ServerRun) (c : Caller) :
    (w.credit j run c).call = c.call := by
  unfold Worker.credit
  split <;> rfl

@[simp] theorem request_credit (w : Worker) (j : Nat) (run : ServerRun) (c : Caller) :
    (w.credit j run c).request = c.request := by
  unfold Worker.credit
  split <;> rfl

@[simp] theorem client_credit (w : Worker) (j : Nat) (run : ServerRun) (c : Caller) :
    (w.credit j run c).client = c.client := by
  unfold Worker.credit
  split <;> rfl

@[simp] theorem answered_credit (w : Worker) (j : Nat) (run : ServerRun) (c : Caller) :
    (w.credit j run c).answered = c.answered := by
  unfold Worker.credit
  split <;> rfl

theorem said_afterServer {t : Traffic} {j : Nat} {w : Worker} {next : ServerRun × SharedObject}
    (hw : t.workers[j]? = some w) (p : Party) :
    (t.afterServer j w next).said f g p =
      if p = .server j then g j next.1.stage else t.said f g p := by
  cases p with
  | client i =>
    simp only [said, callers_afterServer, reduceCtorEq, if_false]
    split_ifs
    · cases t.callers[i]? with
      | none => rfl
      | some c => simp
    · rfl
  | server k =>
    simp only [said, workers_afterServer hw, Party.server.injEq]
    by_cases hjk : j = k
    · subst hjk
      rw [if_pos rfl, if_pos rfl]
      rfl
    · rw [if_neg hjk, if_neg fun h => hjk h.symm]

theorem said_client {t : Traffic} {i : Nat} {c : Caller} (hc : t.callers[i]? = some c) :
    t.said f g (.client i) = f c.call.stage := by
  simp only [said, hc, Option.bind_some]

theorem said_server {t : Traffic} {j : Nat} {w : Worker} (hw : t.workers[j]? = some w) :
    t.said f g (.server j) = g j w.run.stage := by
  simp only [said, hw, Option.bind_some]

end Said

/-- A call that begins is in no phase. -/
theorem phase?_start (a : Attachment) (poisoned : Bool) (r : Request) :
    (a.start poisoned r).stage.phase? = none := by
  unfold Attachment.start
  split <;> rfl

theorem Step.size {t t' : Traffic} (h : Step t t') : t'.object.size = t.object.size := by
  cases h with
  | stay | call | serve => rfl
  | client _ move => exact move.size
  | server _ move => exact move.size

theorem Step.capacity {t t' : Traffic} (h : Step t t') : t'.capacity = t.capacity := by
  cases h <;> rfl

/-- An act moves no party, or one. That one leaves phase and word alone, or it comes from a phase or
from a free word; then the word is afterwards that of the phase it has come to, or free. -/
theorem Step.phase_cases {t t' : Traffic} (h : Step t t')
    (hsize : stateOffset + 4 ≤ t.object.size) :
    (t'.object = t.object ∧ ∀ q, t'.phase? q = t.phase? q) ∨
      ∃ p, (∀ q, q ≠ p → t'.phase? q = t.phase? q) ∧
        ((t'.phase? p = t.phase? p ∧ stateOf t'.object = stateOf t.object) ∨
          (((∃ f, t.phase? p = some f) ∨ ∃ f : Phase, f.isFree ∧ stateOf t.object = f.word) ∧
            ∃ g : Phase, stateOf t'.object = g.word ∧ t'.phase? p = g.held?)) := by
  cases h with
  | stay => exact .inl ⟨rfl, fun q => rfl⟩
  | call attached lock => exact .inl ⟨rfl, congrFun (said_append_caller t (phase?_start ..))⟩
  | serve handler => exact .inl ⟨rfl, congrFun (said_append_worker t fun _ => rfl)⟩
  | @client i c next caller move =>
    refine .inr ⟨.client i, fun q hq => ?_, ?_⟩
    · rw [phase?, said_afterClient caller, if_neg hq, phase?]
    · rw [phase?, said_afterClient caller, if_pos rfl, phase?, said_client caller]
      exact move.phase_cases hsize
  | @server j w next worker move =>
    refine .inr ⟨.server j, fun q hq => ?_, ?_⟩
    · rw [phase?, said_afterServer worker, if_neg hq, phase?]
    · rw [phase?, said_afterServer worker, if_pos rfl, phase?, said_server worker]
      exact move.phase_cases hsize

theorem phase?_isFree {t : Traffic} {p : Party} {f : Phase} (h : t.phase? p = some f) :
    f.isFree = false := by
  cases p with
  | client i =>
    obtain ⟨c, -, hc⟩ := Option.bind_eq_some_iff.1 h
    exact ClientStage.isFree_of_phase? hc
  | server j =>
    obtain ⟨w, -, hw⟩ := Option.bind_eq_some_iff.1 h
    exact ServerStage.isFree_of_phase? hw

/-! ## The invariant -/

/-- The memory has one owner at most, and the word is the owner's. -/
structure Lent (t : Traffic) : Prop where
  size : t.object.size = objectSize t.capacity
  word : ∀ {p f}, t.phase? p = some f → stateOf t.object = f.word
  alone : ∀ {p q f g}, t.phase? p = some f → t.phase? q = some g → p = q

/-- The memory has one owner at most, the word is the owner's, and a word that is no owner's is
free. -/
structure Guarded (t : Traffic) : Prop where
  size : t.object.size = objectSize t.capacity
  word : ∀ {p f}, t.phase? p = some f → stateOf t.object = f.word
  alone : ∀ {p q f g}, t.phase? p = some f → t.phase? q = some g → p = q
  known : ∃ f : Phase, stateOf t.object = f.word ∧ (f.isFree = true ∨ ∃ p, t.phase? p = some f)

theorem Guarded.lent {t : Traffic} (h : t.Guarded) : t.Lent := ⟨h.size, h.word, h.alone⟩

/-- There is room for the handshake word. -/
theorem Lent.room {t : Traffic} (h : t.Lent) : stateOffset + 4 ≤ t.object.size := by
  rw [h.size, objectSize, dataOffset_eq, stateOffset]
  omega

theorem Guarded.room {t : Traffic} (h : t.Guarded) : stateOffset + 4 ≤ t.object.size := h.lent.room

/-- While the word is free, nobody owns the memory. -/
theorem Lent.phase?_of_free {t : Traffic} (h : t.Lent) {f : Phase} (hf : f.isFree)
    (hword : stateOf t.object = f.word) (p : Party) : t.phase? p = none := by
  cases hp : t.phase? p with
  | none => rfl
  | some g =>
    have hfg : f = g := Phase.word_injective (hword.symm.trans (h.word hp))
    rw [hfg, phase?_isFree hp] at hf
    cases hf

theorem Guarded.phase?_of_free {t : Traffic} (h : t.Guarded) {f : Phase} (hf : f.isFree)
    (hword : stateOf t.object = f.word) (p : Party) : t.phase? p = none :=
  h.lent.phase?_of_free hf hword p

/-- A new channel is idle. -/
theorem stateOf_start (capacity : Nat) : stateOf (start capacity).object = Phase.idle.word := by
  unfold start Server.format stateOf SharedObject.writeWord
  rw [SharedObject.word_write_of_disjoint _ (.inr (by decide)),
    SharedObject.word_write_of_disjoint _ (.inl (by decide)),
    SharedObject.word_write_of_disjoint _ (.inl (by decide))]
  exact SharedObject.word_new ..

theorem guarded_start (capacity : Nat) : (start capacity).Guarded where
  size := by
    unfold start Server.format
    simp only [SharedObject.size_writeWord]
  word := fun {p} _ h => by cases p <;> cases h
  alone := fun {p} _ _ _ h => by cases p <;> cases h
  known := ⟨.idle, stateOf_start capacity, .inl rfl⟩

theorem Lent.step {t t' : Traffic} (h : t.Lent) (hs : Step t t') : t'.Lent := by
  have hsize : t'.object.size = objectSize t'.capacity := by rw [hs.size, hs.capacity, h.size]
  have hsame (hphase : t'.phase? = t.phase?) (hword : stateOf t'.object = stateOf t.object) :
      t'.Lent := by
    refine ⟨hsize, ?_, ?_⟩ <;> rw [hphase]
    · rw [hword]
      exact h.word
    · exact h.alone
  rcases hs.phase_cases h.room with
    ⟨hobject, hall⟩ | ⟨p, hothers, ⟨hp, hword⟩ | ⟨hfrom, g, hword, hto⟩⟩
  · exact hsame (funext hall) (by rw [hobject])
  · refine hsame (funext fun q => ?_) hword
    by_cases hq : q = p
    · rw [hq, hp]
    · exact hothers q hq
  -- The party that has moved owned the memory or nobody did, so nobody else does now.
  have hfree {q : Party} (hq : q ≠ p) : t.phase? q = none := by
    cases hphase : t.phase? q with
    | none => rfl
    | some f =>
      rcases hfrom with ⟨e, he⟩ | ⟨e, he, hstate⟩
      · exact absurd (h.alone hphase he) hq
      · rw [h.phase?_of_free he hstate q] at hphase
        cases hphase
  have honly {q : Party} {f : Phase} (hq : t'.phase? q = some f) : q = p := by
    by_contra hne
    rw [hothers q hne, hfree hne] at hq
    cases hq
  refine ⟨hsize, fun {q f} hq => ?_, fun hq hr => (honly hq).trans (honly hr).symm⟩
  obtain rfl := honly hq
  rw [hto] at hq
  rw [hword, (Phase.held?_eq_some hq).1]

theorem Guarded.step {t t' : Traffic} (h : t.Guarded) (hs : Step t t') : t'.Guarded := by
  have hlent := h.lent.step hs
  refine ⟨hlent.size, hlent.word, hlent.alone, ?_⟩
  rcases hs.phase_cases h.room with
    ⟨hobject, hall⟩ | ⟨p, hothers, ⟨hp, hword⟩ | ⟨-, g, hword, hto⟩⟩
  · rw [funext hall, hobject]
    exact h.known
  · have hphase : t'.phase? = t.phase? := by
      funext q
      by_cases hq : q = p
      · rw [hq, hp]
      · exact hothers q hq
    rw [hphase, hword]
    exact h.known
  · refine ⟨g, hword, ?_⟩
    by_cases hg : g.isFree = true
    · exact .inl hg
    · exact .inr ⟨p, by rw [hto, Phase.held?, if_neg hg]⟩

theorem guarded_run (capacity : Nat) (acts : List Act) : (run capacity acts).Guarded :=
  run_induction (guarded_start capacity) (fun _ _ h hs => h.step hs) acts

/-- The word is `decrypting` only while a server is at a request. -/
theorem Guarded.exists_serving {t : Traffic} (h : t.Guarded)
    (hword : stateOf t.object = Phase.decrypting.word) :
    ∃ (j : Nat) (w : Worker), t.workers[j]? = some w ∧ w.run.stage.phase? = some .decrypting := by
  obtain ⟨f, hf, hfree | ⟨p, hp⟩⟩ := h.known
  · rw [← Phase.word_injective (hword.symm.trans hf)] at hfree
    cases hfree
  · obtain rfl : Phase.decrypting = f := Phase.word_injective (hword.symm.trans hf)
    cases p with
    | server j =>
      obtain ⟨w, hw, hphase⟩ := Option.bind_eq_some_iff.1 hp
      exact ⟨j, w, hw, hphase⟩
    | client i =>
      obtain ⟨c, -, hphase⟩ := Option.bind_eq_some_iff.1 hp
      revert hphase
      cases c.call.stage <;> simp [ClientStage.phase?]

/-- What holds of a new channel and is kept where the memory is guarded holds always. -/
theorem guarded_induction {P : Traffic → Prop} {capacity : Nat} (hstart : P (start capacity))
    (hstep : ∀ t t', t.Guarded → P t → Step t t' → P t') (acts : List Act) :
    P (run capacity acts) := by
  have h : (run capacity acts).Guarded ∧ P (run capacity acts) := by
    refine run_induction (P := fun t => t.Guarded ∧ P t) ⟨guarded_start capacity, hstart⟩ ?_ acts
    intro t t' h hs
    exact ⟨h.1.step hs, hstep t t' h.1 h.2 hs⟩
  exact h.2

/-! ## Acts of those who own nothing -/

/-- Who owns nothing leaves the memory as it is, or moves a free word on. -/
theorem object_cases {t : Traffic} {x : Act} (h : x.party?.bind t.phase? = none) :
    (t.step x).object = t.object ∨
      ∃ p q : Phase, p.isFree ∧ stateOf t.object = p.word ∧
        (t.step x).object = publish t.object q := by
  cases x with
  | call a poisoned r =>
    refine .inl ?_
    simp only [step]
    split_ifs <;> rfl
  | serve handler => exact .inl rfl
  | client i expired =>
    simp only [step]
    cases hc : t.callers[i]? with
    | none => exact .inl rfl
    | some c =>
      rw [Act.party?, Option.bind_some, phase?, said_client hc] at h
      exact (c.call.move_step expired t.object).object_cases h
  | server j expired =>
    simp only [step]
    cases hw : t.workers[j]? with
    | none => exact .inl rfl
    | some w =>
      rw [Act.party?, Option.bind_some, phase?, said_server hw] at h
      exact (w.run.move_step w.handler expired t.object).object_cases h

theorem word_congr {o o' : SharedObject} {start : Nat} (hsize : o.size = o'.size)
    (hbyte : ∀ k, k < start + 4 → o.byte k = o'.byte k) : o.word start = o'.word start := by
  unfold SharedObject.word
  rw [SharedObject.read_congr hsize]
  intro k _ hk
  exact hbyte k hk

theorem abstains_of_phase? {t : Traffic} {x : Act} (h : x.party?.bind t.phase? = none) :
    t.Abstains x where
  writes := by
    intro k hk
    rcases object_cases h with hsame | ⟨p, q, -, -, hpublish⟩
    · rw [hsame]
    · rw [hpublish]
      exact byte_publish _ _ (.inr (by simp only [statusOffset] at hk; omega))
  reads := by
    intro o hsize hbyte
    have hstate : stateOf o = stateOf t.object :=
      word_congr hsize fun k hk => hbyte k (by simp only [stateOffset, statusOffset] at *; omega)
    cases x with
    | call a poisoned r =>
      have hcapacity : Attachment.capacityOf o = Attachment.capacityOf t.object := by
        unfold Attachment.capacityOf
        rw [hsize, word_congr hsize fun k hk => hbyte k
          (by simp only [capacityOffset, statusOffset] at *; omega)]
      have hadmits : admits { t with object := o } a poisoned r = t.admits a poisoned r := by
        simp only [admits, hcapacity]
      by_cases hadmitted : t.admits a poisoned r = true
      · refine ⟨?_, ?_, ?_⟩ <;> simp only [step, hadmits, if_pos hadmitted]
      · refine ⟨?_, ?_, ?_⟩ <;> simp only [step, hadmits, if_neg hadmitted]
    | serve handler => exact ⟨rfl, rfl, rfl⟩
    | client i expired =>
      cases hc : t.callers[i]? with
      | none => refine ⟨?_, ?_, ?_⟩ <;> simp only [step, hc]
      | some c =>
        rw [Act.party?, Option.bind_some, phase?, said_client hc] at h
        have hnext := ClientCall.step_congr expired h hstate
        refine ⟨?_, ?_, ?_⟩ <;> simp only [step, hc, afterClient, hnext]
    | server j expired =>
      cases hw : t.workers[j]? with
      | none => refine ⟨?_, ?_, ?_⟩ <;> simp only [step, hw]
      | some w =>
        rw [Act.party?, Option.bind_some, phase?, said_server hw] at h
        have hnext := ServerRun.step_congr w.handler expired h hstate
        refine ⟨?_, ?_, ?_⟩ <;> simp only [step, hw, afterServer, hnext]

/-- **Exclusive ownership.** In every run of any calls, with whatever locks, and any servers at a
channel: one party at most is in a phase of its own; the handshake word is then that of its phase;
while it is there, no act of anybody else changes the memory, the word included; and an act
of a party that is in no such phase neither reads nor writes header, status and data. -/
theorem exclusive_ownership (capacity : Nat) (acts : List Act) :
    (∀ p q f g, (run capacity acts).phase? p = some f → (run capacity acts).phase? q = some g →
      p = q) ∧
    (∀ p f, (run capacity acts).phase? p = some f →
      stateOf (run capacity acts).object = f.word) ∧
    (∀ p f x, (run capacity acts).phase? p = some f → x.party? ≠ some p →
      ((run capacity acts).step x).object = (run capacity acts).object) ∧
    ∀ x : Act, x.party?.bind (run capacity acts).phase? = none →
      (run capacity acts).Abstains x := by
  have h := guarded_run capacity acts
  refine ⟨fun p q f g => h.alone, fun p f => h.word, fun p f x hp hx => ?_,
    fun x => abstains_of_phase?⟩
  have hnone : x.party?.bind (run capacity acts).phase? = none := by
    cases hparty : x.party? with
    | none => rfl
    | some q =>
      cases hq : (run capacity acts).phase? q with
      | none => exact hq
      | some g =>
        obtain rfl := h.alone hp hq
        exact absurd hparty hx
  rcases object_cases hnone with hsame | ⟨free, _, hfree, hstate, -⟩
  · exact hsame
  · rw [h.phase?_of_free hfree hstate p] at hp
    cases hp

end Traffic

end Channel

end ContentDecryption
