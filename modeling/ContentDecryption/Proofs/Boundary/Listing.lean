import ContentDecryption.Boundary.SystemCall
import ContentDecryption.Proofs.Client.Exec
import ContentDecryption.Scripted.Engine

/-!
# The IDs of the pending secure stops, in slots

A caller lends a buffer of slots of one width, and a word that says how many there are. The
service has the IDs, of any number and any length. If one of them is wider than a slot, nothing
is told. Otherwise the word says how many IDs there are, and they are put into the slots if the
slots suffice.

The memory of the caller may go on behind the slots: what is behind the last ID is left as it is,
in the buffer and after it.

Main definitions:

* `Filled`: memory after IDs have been put into its slots;
* `Slots.Listed`: what a call may come to for a list of IDs.

Main results:

* `Slots.listed_put`: the slots are served as a call owes it;
* `secureStopIds_listed`: so does the call, for every answer of the service, and a second call
  with as many slots as the first one asked for gets all the IDs.
-/

namespace ContentDecryption

/-! ## Bytes in place -/

namespace Bytes

theorem fit_of_le {n : Nat} {b : Bytes} (h : b.length ≤ n) : fit n b = b ++ zeros (n - b.length) := by
  rw [fit, List.take_of_length_le h]

/-- What fits is written as it is, and nothing behind it changes. -/
theorem overwrite_of_le {b new : Bytes} (h : new.length ≤ b.length) :
    overwrite b 0 new = new ++ b.drop new.length := by
  rw [overwrite, List.take_zero, List.nil_append, Nat.sub_zero, List.take_of_length_le h,
    Nat.zero_add]

theorem length_flatMap_fit (n : Nat) (l : List Bytes) :
    (l.flatMap (fit n)).length = l.length * n := by
  induction l with
  | nil => rw [List.flatMap_nil, List.length_nil, List.length_nil, Nat.zero_mul]
  | cons b l ih =>
    rw [List.flatMap_cons, List.length_append, length_fit, ih, List.length_cons, Nat.succ_mul,
      Nat.add_comm]

/-- In a row of fields, each is found at its place. -/
theorem field_flatMap_fit (n : Nat) (l : List Bytes) (rest : Bytes) {j : Nat} (hj : j < l.length) :
    ((l.flatMap (fit n) ++ rest).drop (j * n)).take n = fit n l[j] := by
  induction l generalizing j with
  | nil => cases hj
  | cons b l ih =>
    rw [List.flatMap_cons, List.append_assoc]
    cases j with
    | zero =>
      have hlength := length_fit n b
      rw [Nat.zero_mul, List.drop_zero, List.take_append_of_le_length (Nat.le_of_eq hlength.symm),
        List.take_of_length_le (Nat.le_of_eq hlength)]
      rfl
    | succ j =>
      have hstart : (j + 1) * n = (fit n b).length + j * n := by
        rw [length_fit, Nat.succ_mul, Nat.add_comm]
      rw [hstart, List.drop_length_add_append, ih (Nat.lt_of_succ_lt_succ hj)]
      rfl

end Bytes

namespace Boundary

open Client

/-! ## Slots -/

/-- Memory after IDs have been put into its slots: each slot holds its ID and zeros, and nothing
behind the last one has changed. -/
structure Filled (ids : List Bytes) (width : Nat) (before after : Bytes) : Prop where
  length : after.length = before.length
  slot : ∀ {j : Nat} (hj : j < ids.length),
    (after.drop (j * width)).take width = ids[j] ++ Bytes.zeros (width - ids[j].length)
  rest : after.drop (ids.length * width) = before.drop (ids.length * width)

theorem filled_overwrite {ids : List Bytes} {width : Nat} {memory : Bytes}
    (hnarrow : ∀ id ∈ ids, id.length ≤ width) (hroom : ids.length * width ≤ memory.length) :
    Filled ids width memory (Bytes.overwrite memory 0 (ids.flatMap (Bytes.fit width))) := by
  have hlength := Bytes.length_flatMap_fit width ids
  have hwritten := Bytes.overwrite_of_le (hlength.symm ▸ hroom)
  refine ⟨Bytes.length_overwrite _ _ _, fun {j} hj => ?_, ?_⟩
  · rw [hwritten, Bytes.field_flatMap_fit width ids _ hj,
      Bytes.fit_of_le (hnarrow _ (List.getElem_mem hj))]
  · rw [hwritten, ← hlength, List.drop_left]

namespace Slots

/-- Some ID is wider than a slot. -/
def IsTooNarrow (b : Slots) (ids : List Bytes) : Prop := ∃ id ∈ ids, b.width.toNat < id.length

/-- There is no place for all the IDs: too few slots, or none at all for at least one ID. -/
def Lacks (b : Slots) (capacity : UInt32) (ids : List Bytes) : Prop :=
  capacity.toNat < ids.length ∨ (b.out = none ∧ ids ≠ [])

/-- What a call may come to for a list of IDs: the status that it returns, and what has become of
the slots. -/
inductive Listed (b : Slots) (capacity : UInt32) (ids : List Bytes) : Status × Slots → Prop
  /-- An ID does not go into a slot, and nothing is told. -/
  | tooNarrow (h : b.IsTooNarrow ids) : Listed b capacity ids (Status.invalidArg, b)
  /-- No word counts the IDs, and nothing is told. -/
  | uncounted (h : ¬ b.IsTooNarrow ids) (hmany : 4294967296 ≤ ids.length) :
      Listed b capacity ids (Status.bufferTooSmall, b)
  /-- The caller is told how many IDs there are, and nothing else. -/
  | lacking (h : ¬ b.IsTooNarrow ids) {n : UInt32} (hn : n.toNat = ids.length)
      (hlacks : b.Lacks capacity ids) :
      Listed b capacity ids (Status.moreDataAvailable, { b with count := some n })
  /-- There are no IDs, and there is no buffer. -/
  | null (hout : b.out = none) (hids : ids = []) :
      Listed b capacity ids (Status.none, { b with count := some 0 })
  /-- Every ID is put into its slot. -/
  | filled (h : ¬ b.IsTooNarrow ids) {n : UInt32} (hn : n.toNat = ids.length)
      (hlacks : ¬ b.Lacks capacity ids) {memory memory' : Bytes} (hout : b.out = some memory)
      (hfilled : Filled ids b.width.toNat memory memory') :
      Listed b capacity ids (Status.none, { b with count := some n, out := some memory' })

namespace Listed

variable {b : Slots} {capacity : UInt32} {ids : List Bytes} {x : Status × Slots}

theorem invalid_iff (h : b.Listed capacity ids x) :
    x.1 = Status.invalidArg ↔ b.IsTooNarrow ids := by
  cases h with
  | tooNarrow h => exact iff_of_true rfl h
  | uncounted h => exact iff_of_false (show Status.bufferTooSmall ≠ Status.invalidArg by decide) h
  | lacking h => exact iff_of_false (show Status.moreDataAvailable ≠ Status.invalidArg by decide) h
  | null _ hids =>
    subst hids
    exact iff_of_false (show Status.none ≠ Status.invalidArg by decide) fun ⟨_, hid, _⟩ => nomatch hid
  | filled h => exact iff_of_false (show Status.none ≠ Status.invalidArg by decide) h

theorem more_iff (h : b.Listed capacity ids x) (hwide : ¬ b.IsTooNarrow ids)
    (hfew : ids.length < 4294967296) :
    x.1 = Status.moreDataAvailable ↔ b.Lacks capacity ids := by
  cases h with
  | tooNarrow h => exact absurd h hwide
  | uncounted _ hmany => exact absurd hfew (Nat.not_lt.2 hmany)
  | lacking _ _ hlacks => exact iff_of_true rfl hlacks
  | null hout hids =>
    subst hids
    refine iff_of_false (show Status.none ≠ Status.moreDataAvailable by decide) ?_
    rintro (hlt | ⟨-, hne⟩)
    · exact Nat.not_lt_zero _ hlt
    · exact hne rfl
  | filled _ _ hlacks =>
    exact iff_of_false (show Status.none ≠ Status.moreDataAvailable by decide) hlacks

theorem count_of_few (h : b.Listed capacity ids x) (hwide : ¬ b.IsTooNarrow ids)
    (hfew : ids.length < 4294967296) : ∃ n, x.2.count = some n ∧ n.toNat = ids.length := by
  cases h with
  | tooNarrow h => exact absurd h hwide
  | uncounted _ hmany => exact absurd hfew (Nat.not_lt.2 hmany)
  | lacking _ hn => exact ⟨_, rfl, hn⟩
  | null _ hids => exact ⟨0, rfl, by rw [hids]; rfl⟩
  | filled _ hn => exact ⟨_, rfl, hn⟩

end Listed

/-- With as many slots as there are IDs, each ID is put into its own. -/
theorem put_of_room {ids : List Bytes} {width : UInt8} {capacity : UInt32} {memory : Bytes}
    (hnarrow : ∀ id ∈ ids, id.length ≤ width.toNat) (hfits : ids.length ≤ capacity.toNat) :
    put ⟨some memory, width, some capacity⟩ ids =
      (.ok (), ⟨some (Bytes.overwrite memory 0 (ids.flatMap (Bytes.fit width.toNat))), width,
        some (UInt32.ofNat ids.length)⟩) := by
  have hwide : ¬ ids.any (fun id => decide (width.toNat < id.length)) = true := by
    rw [List.any_eq_true]
    rintro ⟨id, hid, hlt⟩
    exact Nat.not_lt.2 (hnarrow id hid) (of_decide_eq_true hlt)
  have hfew : ¬ 4294967296 ≤ ids.length := by
    have := capacity.toNat_lt
    omega
  have hplace : ¬ (decide (capacity.toNat < ids.length) ||
      ((some memory).isNone && !ids.isEmpty)) = true := by
    rw [decide_eq_false (Nat.not_lt.2 hfits)]
    exact Bool.false_ne_true
  unfold put
  dsimp only
  rw [if_neg hwide, if_neg hfew, if_neg hplace]
  rfl

/-- The slots are served as a call owes it, if the buffer has as many of them as the word says. -/
theorem listed_put {b : Slots} {capacity : UInt32} (hcount : b.count = some capacity)
    (hroom : ∀ memory, b.out = some memory → capacity.toNat * b.width.toNat ≤ memory.length)
    (ids : List Bytes) :
    b.Listed capacity ids (Error.statusOf (b.put ids).1, (b.put ids).2) := by
  have hany : ids.any (fun id => decide (b.width.toNat < id.length)) = true ↔ b.IsTooNarrow ids := by
    rw [List.any_eq_true]
    simp only [decide_eq_true_eq, IsTooNarrow]
  have hlacks : (capacity.toNat < ids.length || (b.out.isNone && !ids.isEmpty)) = true ↔
      b.Lacks capacity ids := by
    simp [Lacks]
  unfold put
  simp only [hcount]
  by_cases hwide : b.IsTooNarrow ids
  · rw [if_pos (hany.2 hwide)]
    exact .tooNarrow hwide
  rw [if_neg (mt hany.1 hwide)]
  by_cases hmany : 4294967296 ≤ ids.length
  · rw [if_pos hmany]
    exact .uncounted hwide hmany
  rw [if_neg hmany]
  have hn : (UInt32.ofNat ids.length).toNat = ids.length := by
    rw [UInt32.toNat_ofNat', Nat.mod_eq_of_lt (Nat.lt_of_not_le hmany)]
  by_cases hmore : b.Lacks capacity ids
  · rw [if_pos (hlacks.2 hmore)]
    exact .lacking hwide hn hmore
  rw [if_neg (mt hlacks.1 hmore)]
  obtain ⟨hfits, hplace⟩ := not_or.1 hmore
  cases hout : b.out with
  | none =>
    have hids : ids = [] := Decidable.by_contra fun hne => hplace ⟨hout, hne⟩
    subst hids
    obtain ⟨out, width, count⟩ := b
    cases hout
    exact .null rfl rfl
  | some memory =>
    have hnarrow : ∀ id ∈ ids, id.length ≤ b.width.toNat := fun id hid =>
      Nat.le_of_not_lt fun hlt => hwide ⟨id, hid, hlt⟩
    have hneeded : ids.length * b.width.toNat ≤ memory.length :=
      Nat.le_trans (Nat.mul_le_mul_right _ (Nat.le_of_not_lt hfits)) (hroom memory hout)
    exact .filled hwide hn hmore hout (filled_overwrite hnarrow hneeded)

end Slots

/-! ## The call -/

section

variable {σ : Type} [Service σ] {w w' : World σ} {i : SystemRef} {b : Slots} {capacity : UInt32}

/-- The call leaves the world that its action leaves. -/
theorem world_secureStopIds (s : Option SystemRef) (b : Slots) (w : World σ) :
    ((secureStopIds s b).run w).2 = ((do
      let i ← systemAt s
      let _ ← wordAt b.count
      Action.secureStopIds i : Action σ (List Bytes)).exec w).2 := by
  simp only [secureStopIds]
  rw [StateT.run_bind]
  unfold Action.exec
  cases StateT.run (ExceptT.run _) w with
  | mk result w' => cases result <;> rfl

/-- What the service answers is put into the slots. Without an answer nothing is told. -/
theorem run_secureStopIds (hcount : b.count = some capacity) (w : World σ) :
    (secureStopIds (some i) b).run w = match (Action.secureStopIds i).exec w with
      | (.ok ids, w') => ((Error.statusOf (b.put ids).1, (b.put ids).2), w')
      | (.error f, w') => ((f.status, b), w') := by
  simp only [secureStopIds, systemAt, wordAt, hcount, pure_bind]
  rw [StateT.run_bind]
  unfold Action.exec
  cases (Action.secureStopIds i).run.run w with
  | mk result w' => cases result <;> rfl

/-- Whatever IDs the service answers with, the caller is told of them as it is owed, and nothing
but the slots is written. With as many slots as the word asks for, a second call gets them all, if
the service answers as before. -/
theorem secureStopIds_listed {ids : List Bytes}
    (hids : (Action.secureStopIds i).exec w = (.ok ids, w')) (hcount : b.count = some capacity)
    (hroom : ∀ memory, b.out = some memory → capacity.toNat * b.width.toNat ≤ memory.length) :
    ∃ x, (secureStopIds (some i) b).run w = (x, w') ∧ b.Listed capacity ids x ∧
      (x.1 = Status.invalidArg ↔ b.IsTooNarrow ids) ∧
      (¬ b.IsTooNarrow ids → ids.length < 4294967296 →
        (x.1 = Status.moreDataAvailable ↔ b.Lacks capacity ids) ∧
        ∃ n, x.2.count = some n ∧ n.toNat = ids.length ∧
          ∀ {w'' : World σ} {memory : Bytes}, ids.length * b.width.toNat ≤ memory.length →
            (Action.secureStopIds i).exec w' = (.ok ids, w'') →
            ∃ memory', (secureStopIds (some i) ⟨some memory, b.width, some n⟩).run w' =
                ((Status.none, ⟨some memory', b.width, some n⟩), w'') ∧
              Filled ids b.width.toNat memory memory') := by
  have hlisted := Slots.listed_put hcount hroom ids
  refine ⟨_, by rw [run_secureStopIds hcount, hids], hlisted, hlisted.invalid_iff, fun hwide hfew =>
    ⟨hlisted.more_iff hwide hfew, ?_⟩⟩
  obtain ⟨n, hn, hlength⟩ := hlisted.count_of_few hwide hfew
  refine ⟨n, hn, hlength, fun {w'' memory} hneeded hagain => ?_⟩
  have hnarrow : ∀ id ∈ ids, id.length ≤ b.width.toNat := fun id hid =>
    Nat.le_of_not_lt fun hlt => hwide ⟨id, hid, hlt⟩
  have hword : UInt32.ofNat ids.length = n := by
    rw [← hlength, UInt32.ofNat_toNat]
  refine ⟨_, ?_, filled_overwrite hnarrow hneeded⟩
  rw [run_secureStopIds (b := ⟨some memory, b.width, some n⟩) rfl, hagain]
  dsimp only
  rw [Slots.put_of_room hnarrow (Nat.le_of_eq hlength.symm), hword]
  rfl

end

/-- A client with a key system, of a service that answers with these IDs. -/
def stopping (ids : List Bytes) : World Scripted.Engine where
  service :=
    { script :=
      { sessionId := fun _ => "s"
        bufferId := fun _ => "b"
        systemRequests := true
        values := { secureStopIds := ids } } }
  registries := [{ accessor := some {}, settings := .ofEnvironment none }]
  systems := [{}]

/-- One slot does not do for two IDs. With two of them, the shorter ID is filled up, and the byte
behind the slots stays. -/
theorem secureStopIds_listed_two :
    let w := stopping [[1], [2, 3]]
    let w' := w.answered (.system "" .secureStopIds)
    (∃ x, (secureStopIds (some 0) ⟨some [7, 7], 2, some 1⟩).run w = (x, w') ∧
      x.1 = Status.moreDataAvailable) ∧
    ((secureStopIds (some 0) ⟨some [7, 7, 7, 7, 7], 2, some 2⟩).run w').1 =
      (Status.none, ⟨some [1, 0, 2, 3, 7], 2, some 2⟩) := by
  intro w w'
  let b : Slots := ⟨some [7, 7], 2, some 1⟩
  have hids : (Action.secureStopIds 0).exec w = (.ok [[1], [2, 3]], w') := rfl
  have hcount : b.count = some 1 := rfl
  obtain ⟨x, hx, -, -, hmore⟩ := secureStopIds_listed hids hcount fun memory hmemory => by
    cases hmemory
    decide
  have hwide : ¬ b.IsTooNarrow [[1], [2, 3]] := by
    simp [Slots.IsTooNarrow, b]
  exact ⟨⟨x, hx, (hmore hwide (by decide)).1.2 (.inl (by decide))⟩, rfl⟩

end Boundary

end ContentDecryption
