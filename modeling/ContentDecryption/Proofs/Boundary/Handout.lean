import ContentDecryption.Boundary.SessionCall
import ContentDecryption.Proofs.Boundary.Calls
import ContentDecryption.Proofs.Boundary.Listing

/-!
# Values of unknown length, in two calls

A caller does not know how long a value is that the service has for it. It passes a buffer, or
none, and a word with its capacity; the call puts the length that is needed into the word before
it looks whether there is room. So a caller that was refused knows how large a buffer to bring.

The hashes of the stores are handed out in the same way, but their capacity is passed by value, and
the length that is needed does not come back.

Main definitions:

* `Handout`: the calls that hand a value out;
* `Handout.Told`: the service has a value for such a call;
* `Buffer.Served`: what a call owes for a value.

Main results:

* `Buffer.put_of_room`, `Buffer.put_of_no_room`: a value is put into a buffer, or its length is told;
* `Buffer.served_put`: this is what a call owes;
* `Handout.run_call`: a call puts the value of the service into the buffer, and nothing else;
* `Handout.served_in_two_calls`: what is owed is done, for every value, buffer and capacity, and
  after it a buffer of the length that is needed gets exactly the value.
-/

namespace ContentDecryption

namespace Boundary

open Client

/-! ## Buffers -/

namespace Buffer

/-- What a call owes for a value: a status, and the buffer afterwards. -/
structure Served (out : Pointer) (capacity : UInt32) (value : Bytes) (status : Status)
    (out' : Pointer) : Prop where
  /-- The call succeeds exactly if there is a buffer and the value fits. -/
  none_iff : status = Status.none ↔ out ≠ none ∧ value.length ≤ capacity.toNat
  /-- Then the value is at the start of the buffer, and the rest of it is as it was. -/
  filled : status = Status.none →
    ∃ memory, out = some memory ∧ out' = some (value ++ memory.drop value.length)
  /-- Otherwise the caller is told that there is more, and the buffer is as it was. -/
  refused : status ≠ Status.none → status = Status.moreDataAvailable ∧ out' = out

variable {out : Pointer} {capacity : UInt32} {value : Bytes}

theorem hasRoom_iff {length : Nat} :
    hasRoom ⟨out, some capacity⟩ length = true ↔ out ≠ none ∧ length ≤ capacity.toNat := by
  cases out <;> simp [hasRoom]

theorem put_of_room {memory : Bytes} (hfits : value.length ≤ capacity.toNat)
    (hroom : capacity.toNat ≤ memory.length) : put ⟨some memory, some capacity⟩ value =
      (.ok (), ⟨some (value ++ memory.drop value.length), some (UInt32.ofNat value.length)⟩) := by
  rw [put_of_fits hfits, Bytes.overwrite_of_le (Nat.le_trans hfits hroom)]

/-- The word for the capacity takes the length that is needed also where there is no room. -/
theorem put_of_no_room (hfew : value.length < 4294967296)
    (h : ¬ (out ≠ none ∧ value.length ≤ capacity.toNat)) : put ⟨out, some capacity⟩ value =
      (.error (.moreDataAvailable value.length), ⟨out, some (UInt32.ofNat value.length)⟩) := by
  rw [← hasRoom_iff] at h
  unfold put
  simp only [Option.isNone_some, Bool.false_eq_true, if_false]
  rw [if_neg (Nat.not_le.2 hfew), if_neg h]

theorem served_put (hfew : value.length < 4294967296)
    (hroom : ∀ memory, out = some memory → capacity.toNat ≤ memory.length) :
    (put ⟨out, some capacity⟩ value).2.size = some (UInt32.ofNat value.length) ∧
      Served out capacity value (Error.statusOf (put ⟨out, some capacity⟩ value).1)
        (put ⟨out, some capacity⟩ value).2.out := by
  by_cases h : out ≠ none ∧ value.length ≤ capacity.toNat
  · obtain ⟨memory, rfl⟩ := Option.ne_none_iff_exists'.1 h.1
    rw [put_of_room h.2 (hroom memory rfl)]
    exact ⟨rfl, iff_of_true rfl h, fun _ => ⟨memory, rfl, rfl⟩, fun hne => absurd rfl hne⟩
  · rw [put_of_no_room hfew h]
    have hne : Status.moreDataAvailable ≠ Status.none := by decide
    exact ⟨rfl, iff_of_false hne h, fun heq => absurd heq hne, fun _ => ⟨rfl, rfl⟩⟩

end Buffer

/-! ## Calls -/

/-- A call that hands a value out. -/
inductive Handout
  /-- the description of a key system, with a zero byte at its end -/
  | metadata (i : SystemRef)
  /-- a challenge for the license server -/
  | challenge (h : HandleRef) (limitedDuration : UInt32)
  /-- the license behind a secure stop -/
  | secureStop (i : SystemRef) (id : Pointer) (length : UInt32)
  | keyStoreHash (i : SystemRef)
  | secureStoreHash (i : SystemRef)

namespace Handout

variable {σ : Type} [Service σ]

/-- Whether the capacity is passed in a word that takes the length that is needed. -/
def tellsLength : Handout → Bool
  | metadata _ | challenge _ _ | secureStop _ _ _ => true
  | keyStoreHash _ | secureStoreHash _ => false

/-- The call with a buffer and its capacity. -/
def call (q : Handout) (out : Pointer) (capacity : UInt32) : Call σ (Status × Buffer) :=
  match q with
  | metadata i => systemMetadata (some i) ⟨out, some capacity⟩
  | challenge h limitedDuration => challengeData (some h) ⟨out, some capacity⟩ limitedDuration
  | secureStop i id length => Boundary.secureStop (some i) id length ⟨out, some capacity⟩
  | keyStoreHash i => do
    let (status, out) ← Boundary.keyStoreHash (some i) out capacity
    pure (status, ⟨out, some capacity⟩)
  | secureStoreHash i => do
    let (status, out) ← Boundary.secureStoreHash (some i) out capacity
    pure (status, ⟨out, some capacity⟩)

/-- The service is reached through a key system, knows requests about it, and answers this one. -/
structure Answers (w : World σ) (i : SystemRef) (r : Service.SystemRequest) (x : r.Answer) :
    Prop where
  reached : ∃ a, (w.registry (w.system i).registry).accessor = some a ∧
    Service.hasSystemRequests w.service a = true
  answer : (Service.respond (.system (w.system i).keySystem r) w.service w.memory).answer = some x

/-- The service has a value for a call, and `w'` is the world after it has said so. -/
inductive Told (w : World σ) : Handout → Bytes → World σ → Prop
  /-- The description was asked for when the key system was taken into use. -/
  | metadata (i : SystemRef) : Told w (metadata i) (Bytes.ofText (w.system i).metadata ++ [0]) w
  | challenge {h : HandleRef} {limitedDuration : UInt32} {value : Bytes}
      (extended : (w.session (w.handle h).session).extended = true)
      (answer : (Service.respond (.session (w.session (w.handle h).session).remote
        (.challengeData (limitedDuration != 0))) w.service w.memory).answer = some (.ok value)) :
      Told w (challenge h limitedDuration) value (w.answered
        (.session (w.session (w.handle h).session).remote (.challengeData (limitedDuration != 0))))
  | secureStop {i : SystemRef} {id : Pointer} {length : UInt32} {key value : Bytes}
      (named : bytesAt id length.toNat = .ok key)
      (answers : Answers w i (.secureStop key) (.ok value)) :
      Told w (secureStop i id length) value
        (w.answered (.system (w.system i).keySystem (.secureStop key)))
  | keyStoreHash {i : SystemRef} {value : Bytes} (answers : Answers w i .keyStoreHash (.ok value)) :
      Told w (keyStoreHash i) value (w.answered (.system (w.system i).keySystem .keyStoreHash))
  | secureStoreHash {i : SystemRef} {value : Bytes}
      (answers : Answers w i .secureStoreHash (.ok value)) :
      Told w (secureStoreHash i) value
        (w.answered (.system (w.system i).keySystem .secureStoreHash))

variable {w w' : World σ}

theorem Answers.exec_askSystem {i : SystemRef} {r : Service.SystemRequest} {x : r.Answer}
    (h : Answers w i r x) :
    (Action.askSystem i r).exec w = (.ok x, w.answered (.system (w.system i).keySystem r)) := by
  obtain ⟨a, ha, hknown⟩ := h.reached
  exact Action.exec_askSystem_of_answer ha hknown h.answer

end Handout

/-- The license behind a secure stop is put into the buffer as it comes. -/
theorem run_secureStop {σ : Type} [Service σ] {w : World σ} {i : SystemRef} {id : Pointer}
    {length : UInt32} {key : Bytes} (hid : bytesAt id length.toNat = .ok key) (b : Buffer) :
    (secureStop (some i) id length b).run w = (Call.fill b (Action.secureStop i key)).run w := by
  unfold secureStop
  rw [hid]
  rfl

namespace Handout

variable {σ : Type} [Service σ] {w w' : World σ} {q : Handout} {value : Bytes}

omit [Service σ] in
/-- A hash is put into the buffer like any value, but the length that is needed does not come
back. -/
theorem run_storeHash {a : Action σ Bytes} (h : a.exec w = (.ok value, w')) (out : Pointer)
    (capacity : UInt32) :
    let x := Buffer.put ⟨out, some capacity⟩ value
    (do
      let (status, out) ← storeHash out capacity a
      pure (status, ⟨out, some capacity⟩) : Call σ (Status × Buffer)).run w =
        ((Error.statusOf x.1, ⟨x.2.out, some capacity⟩), w') := by
  intro x
  unfold storeHash
  rw [StateT.run_bind, StateT.run_bind, Call.run_fill_of_ok h]
  rfl

/-- Every call puts the value of the service into the buffer, and does nothing else. -/
theorem run_call (h : Told w q value w') (out : Pointer) (capacity : UInt32) :
    let x := Buffer.put ⟨out, some capacity⟩ value
    (q.call out capacity).run w = ((Error.statusOf x.1,
      ⟨x.2.out, if q.tellsLength then x.2.size else some capacity⟩), w') := by
  intro x
  cases h with
  | metadata i => exact Call.run_fill_of_ok rfl _
  | @challenge h limitedDuration _ extended answer =>
    have hsession : (sessionAt (some h) : Action σ SessionRef).exec w =
      (.ok (w.handle h).session, w) := rfl
    have hask := Action.exec_askExtended_of_answer extended answer
    refine Call.run_fill_of_ok ?_ _
    rw [Action.exec_bind_of_ok hsession]
    exact Action.exec_bind_of_ok hask _
  | secureStop named answers =>
    exact (run_secureStop named _).trans
      (Call.run_fill_of_ok (Action.exec_bind_of_ok answers.exec_askSystem _) _)
  | @keyStoreHash i _ answers =>
    have hexec : (Action.keyStoreHash i).exec w = (.ok value, _) :=
      Action.exec_bind_of_ok answers.exec_askSystem _
    exact run_storeHash hexec out capacity
  | @secureStoreHash i _ answers =>
    have hexec : (Action.secureStoreHash i).exec w = (.ok value, _) :=
      Action.exec_bind_of_ok answers.exec_askSystem _
    exact run_storeHash hexec out capacity

/-- **A value is handed out whole, or its length is told.** For every call that hands a value out,
every value of fewer than 2^32 bytes that the service has for it, and every buffer with every
capacity that it really has:

* the call succeeds exactly if there is a buffer and the value fits, and then the value is at the
  start of the buffer and the rest of it is as it was;
* otherwise the status is that there is more data, and the buffer is as it was;
* in both cases the word with the capacity takes the length that is needed, where the call has one;
* so a second call with a buffer of that length gets exactly the value, if the service still has
  it. -/
theorem served_in_two_calls (htold : Told w q value w') (hfew : value.length < 4294967296)
    {out : Pointer} {capacity : UInt32}
    (hroom : ∀ memory, out = some memory → capacity.toNat ≤ memory.length) :
    ∃ status out', ∃ needed : UInt32, needed.toNat = value.length ∧
      (q.call out capacity).run w =
        ((status, ⟨out', some (if q.tellsLength then needed else capacity)⟩), w') ∧
      Buffer.Served out capacity value status out' ∧
      ∀ {memory : Bytes} {w'' : World σ}, memory.length = needed.toNat → Told w' q value w'' →
        (q.call (some memory) needed).run w' =
          ((Status.none, ⟨some value, some needed⟩), w'') := by
  have hneeded : (UInt32.ofNat value.length).toNat = value.length := by
    rw [UInt32.toNat_ofNat', Nat.mod_eq_of_lt hfew]
  obtain ⟨hsize, hserved⟩ := Buffer.served_put hfew hroom
  refine ⟨_, _, UInt32.ofNat value.length, hneeded, ?_, hserved, ?_⟩
  · rw [run_call htold, hsize]
    cases q.tellsLength <;> rfl
  · intro memory w'' hlength hagain
    have hrest : memory.drop value.length = [] :=
      List.drop_of_length_le (Nat.le_of_eq (hlength.trans hneeded))
    rw [run_call hagain, Buffer.put_of_room (Nat.le_of_eq hneeded.symm) (Nat.le_of_eq hlength.symm),
      hrest, List.append_nil]
    cases q.tellsLength <;> rfl

end Handout

/-- A client with a handle of an extended session, of a service that has this challenge for it. -/
def challenging (challenge : Bytes) : World Scripted.Engine where
  service :=
    { script :=
      { sessionId := fun _ => "s"
        bufferId := fun _ => "b"
        values := { challengeData := challenge } } }
  sessions := [{ extended := true }]
  handles := [{}]

/-- Two bytes do not do for a challenge of three. The buffer keeps what was in it, and one of the
length that is told gets the challenge. -/
theorem served_in_two_calls_short :
    let w := challenging [1, 2, 3]
    let q := Handout.challenge 0 0
    ∃ needed : UInt32, ∃ w' w'' : World Scripted.Engine, needed.toNat = 3 ∧
      (q.call (some [7, 7]) 2).run w =
        ((Status.moreDataAvailable, ⟨some [7, 7], some needed⟩), w') ∧
      (q.call (some [9, 9, 9]) needed).run w' =
        ((Status.none, ⟨some [1, 2, 3], some needed⟩), w'') := by
  intro w q
  have htold : Handout.Told w q [1, 2, 3] (w.answered (.session 0 (.challengeData false))) :=
    .challenge rfl rfl
  have hroom : ∀ memory, (some [7, 7] : Pointer) = some memory →
      (2 : UInt32).toNat ≤ memory.length := by
    rintro _ ⟨⟩
    decide
  obtain ⟨status, out', needed, hneeded, hrun, hserved, hagain⟩ :=
    Handout.served_in_two_calls htold (by decide) hroom
  have hshort : status ≠ Status.none := by
    rw [Ne, hserved.none_iff]
    exact fun h => absurd h.2 (by decide)
  obtain ⟨rfl, rfl⟩ := hserved.refused hshort
  exact ⟨needed, _, _, hneeded, hrun, hagain hneeded.symm (.challenge rfl rfl)⟩

end Boundary

end ContentDecryption
