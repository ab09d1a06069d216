import ContentDecryption.Proofs.Subsample.Walks
import Mathlib.Tactic.ByContra

/-!
# The encrypted runs of a sample

The entries of a map lie end to end: each starts where the one before it ends, with its
clear bytes, and its encrypted bytes follow. `spans` says where the encrypted runs stand,
and with that what a pass should read or write can be said without the pass:
`encryptedIn` are the bytes in the runs, and `Filled` says of two samples that one has
these bytes in its runs and is otherwise the other.

Main definitions:

* `spans`: where the encrypted runs stand;
* `encryptedIn`, `IsEncrypted`: the bytes in them, and whether a position is in one of them;
* `Filled`: a sample with other bytes in its runs.

Main results:

* `getElem?_spans`: a run starts after all entries before it and its own clear bytes;
* `Filled.eq_of_inside`: what is in the runs and what is outside of them is the whole sample;
* `collect_of_covered`, `collect_of_uncovered`: the cut is the bytes in the runs, or fails;
* `gather_exact`: when a sample is gathered, and what comes of it.
-/

namespace ContentDecryption

namespace Subsample

/-! ## Where the runs stand -/

/-- The start and the length of each encrypted run, if the first entry starts at `offset`. -/
def spans (offset : Nat) : List SubSample → List (Nat × Nat)
  | [] => []
  | s :: runs => (offset + s.clear, s.encrypted) :: spans (offset + s.length) runs

/-- The bytes in the encrypted runs, one run after the other. -/
def encryptedIn (runs : List SubSample) (sample : Bytes) : Bytes :=
  (spans 0 runs).flatMap fun x => (sample.drop x.1).take x.2

/-- The position is in an encrypted run. -/
def IsEncrypted (runs : List SubSample) (p : Nat) : Prop :=
  ∃ x ∈ spans 0 runs, x.1 ≤ p ∧ p < x.1 + x.2

/-- A run starts after all entries before it and its own clear bytes. -/
theorem getElem?_spans (runs : List SubSample) (offset i : Nat) :
    (spans offset runs)[i]? =
      runs[i]?.map fun s =>
        (offset + SubSample.totalLength (runs.take i) + s.clear, s.encrypted) := by
  induction runs generalizing offset i with
  | nil => rfl
  | cons s runs ih =>
    cases i with
    | zero => rfl
    | succ i =>
      rw [spans, List.getElem?_cons_succ, List.getElem?_cons_succ, ih, Nat.add_assoc offset]
      rfl

/-- All runs stand further on if the first entry does. -/
theorem spans_add (runs : List SubSample) (offset n : Nat) :
    spans (offset + n) runs = (spans offset runs).map fun x => (n + x.1, x.2) := by
  induction runs generalizing offset with
  | nil => rfl
  | cons s runs ih =>
    have hstart : offset + n + s.clear = n + (offset + s.clear) := by omega
    rw [spans, spans, List.map_cons, ← ih, hstart, Nat.add_right_comm offset n]

/-- The runs of a map with one more entry in front. -/
theorem spans_cons (s : SubSample) (runs : List SubSample) :
    spans 0 (s :: runs) =
      (s.clear, s.encrypted) :: (spans 0 runs).map fun x => (s.length + x.1, x.2) := by
  rw [spans, spans_add, Nat.zero_add]

section Cons

variable (s : SubSample) (runs : List SubSample)

theorem isEncrypted_cons {p : Nat} :
    IsEncrypted (s :: runs) p ↔
      (s.clear ≤ p ∧ p < s.length) ∨ (s.length ≤ p ∧ IsEncrypted runs (p - s.length)) := by
  unfold IsEncrypted
  rw [spans_cons, SubSample.length_eq]
  constructor
  · rintro ⟨x, hx, hstart, hend⟩
    rcases List.mem_cons.1 hx with rfl | hlater
    · exact .inl ⟨hstart, hend⟩
    · obtain ⟨y, hy, rfl⟩ := List.mem_map.1 hlater
      dsimp only at hstart hend
      exact .inr ⟨by omega, y, hy, by omega, by omega⟩
  · rintro (hfirst | ⟨hpast, y, hy, hstart, hend⟩)
    · exact ⟨_, List.mem_cons_self, hfirst⟩
    · refine ⟨_, List.mem_cons_of_mem _ (List.mem_map_of_mem hy), ?_, ?_⟩ <;> dsimp only <;> omega

/-- The bytes in the runs, taken entry by entry. -/
theorem encryptedIn_cons (sample : Bytes) :
    encryptedIn (s :: runs) sample =
      (sample.drop s.clear).take s.encrypted ++ encryptedIn runs (sample.drop s.length) := by
  rw [encryptedIn, spans_cons, List.flatMap_cons, List.flatMap_map]
  simp only [encryptedIn, List.drop_drop]

end Cons

/-- The bytes in the runs of a sample that is cut along the first entry. -/
theorem encryptedIn_append {s : SubSample} {clear encrypted : Bytes}
    (hclear : clear.length = s.clear) (hencrypted : encrypted.length = s.encrypted)
    (runs : List SubSample) (rest : Bytes) :
    encryptedIn (s :: runs) (clear ++ encrypted ++ rest) = encrypted ++ encryptedIn runs rest := by
  rw [encryptedIn_cons, List.drop_left' (length_first hclear hencrypted), List.append_assoc,
    List.drop_left' hclear, List.take_left' hencrypted]

/-- The runs hold as many bytes as their entries say. -/
theorem length_encryptedIn {runs : List SubSample} {sample : Bytes}
    (h : SubSample.totalLength runs ≤ sample.length) :
    (encryptedIn runs sample).length = SubSample.totalEncrypted runs := by
  refine covered_induction (P := fun runs sample =>
    (encryptedIn runs sample).length = SubSample.totalEncrypted runs) (fun _ => rfl) ?_ h
  intro s runs clear encrypted rest hclear hencrypted _ ih
  rw [encryptedIn_append hclear hencrypted, List.length_append, hencrypted, ih]
  rfl

/-! ## Samples with other bytes in their runs -/

/-- `after` is `before` with `bytes` in its runs. -/
structure Filled (runs : List SubSample) (bytes before after : Bytes) : Prop where
  length_eq : after.length = before.length
  inside : encryptedIn runs after = bytes
  outside : ∀ p, ¬ IsEncrypted runs p → after[p]? = before[p]?

namespace Filled

variable {runs : List SubSample} {bytes other sample a b : Bytes}

/-- What the runs hold already. -/
theorem refl (runs : List SubSample) (sample : Bytes) :
    Filled runs (encryptedIn runs sample) sample sample := ⟨rfl, rfl, fun _ _ => rfl⟩

/-- One more entry in front, with other bytes in its run. -/
theorem cons {s : SubSample} {clear encrypted run : Bytes} (hclear : clear.length = s.clear)
    (hencrypted : encrypted.length = s.encrypted) (hrun : run.length = s.encrypted)
    (h : Filled runs bytes a b) :
    Filled (s :: runs) (run ++ bytes) (clear ++ encrypted ++ a) (clear ++ run ++ b) := by
  have hbefore := length_first hclear hencrypted
  have hafter := length_first hclear hrun
  refine ⟨?_, ?_, fun p hp => ?_⟩
  · rw [List.length_append, hafter, List.length_append, hbefore, h.length_eq]
  · rw [encryptedIn_append hclear hrun, h.inside]
  · rw [isEncrypted_cons, not_or] at hp
    obtain ⟨hfirst, hlater⟩ := hp
    by_cases hpast : s.length ≤ p
    · rw [List.getElem?_append_right (hafter ▸ hpast), List.getElem?_append_right (hbefore ▸ hpast),
        hafter, hbefore]
      exact h.outside _ fun hin => hlater ⟨hpast, hin⟩
    · have hp : p < clear.length := by omega
      rw [List.append_assoc, List.append_assoc, List.getElem?_append_left hp,
        List.getElem?_append_left hp]

/-- What the runs held before makes no difference. -/
theorem trans (h : Filled runs other sample a) (h' : Filled runs bytes a b) :
    Filled runs bytes sample b :=
  ⟨h'.length_eq.trans h.length_eq, h'.inside,
    fun p hp => (h'.outside p hp).trans (h.outside p hp)⟩

/-- Two samples that were made of the same one differ in their runs alone. -/
theorem both (h : Filled runs other sample a) (h' : Filled runs bytes sample b) :
    Filled runs bytes a b :=
  ⟨h'.length_eq.trans h.length_eq.symm, h'.inside,
    fun p hp => (h'.outside p hp).trans (h.outside p hp).symm⟩

/-- What is in the runs and what is outside of them is the whole sample. -/
theorem eq_of_inside (h : Filled runs bytes a b) (hcovered : SubSample.totalLength runs ≤ a.length)
    (ha : encryptedIn runs a = bytes) : b = a := by
  refine covered_induction (P := fun runs a => ∀ b, Filled runs (encryptedIn runs a) a b → b = a)
    ?_ ?_ hcovered b (ha ▸ h)
  · intro a b h
    refine List.ext_getElem? fun p => h.outside p ?_
    rintro ⟨x, hx, -⟩
    cases hx
  · intro s runs clear encrypted rest hclear hencrypted _ ih b h
    have hfirst := length_first hclear hencrypted
    have hroom : s.length ≤ b.length := by
      rw [h.length_eq, List.length_append, hfirst]
      omega
    obtain ⟨clear', run, rest', rfl, hclear', hrun⟩ := exists_cut hroom
    have hfirst' := length_first hclear' hrun
    have hlength := h.length_eq
    have hinside := h.inside
    rw [List.length_append, hfirst', List.length_append, hfirst] at hlength
    rw [encryptedIn_append hclear' hrun, encryptedIn_append hclear hencrypted] at hinside
    obtain ⟨rfl, hlater⟩ := List.append_inj hinside (hrun.trans hencrypted.symm)
    -- The clear bytes are outside of all runs, and past the first entry a position is outside if it
    -- is so for the other entries.
    have hstart : clear' = clear := by
      refine List.ext_getElem? fun p => ?_
      by_cases hp : p < s.clear
      · have hout := h.outside p (by
          rw [isEncrypted_cons, SubSample.length_eq]
          omega)
        rwa [List.append_assoc, List.append_assoc, List.getElem?_append_left (hclear' ▸ hp),
          List.getElem?_append_left (hclear ▸ hp)] at hout
      · rw [List.getElem?_eq_none (by omega), List.getElem?_eq_none (by omega)]
    have hend : rest' = rest := by
      refine ih rest' ⟨by omega, hlater, fun p hp => ?_⟩
      have hout := h.outside (s.length + p) (by
        rw [isEncrypted_cons, Nat.add_sub_cancel_left]
        rintro (⟨-, hin⟩ | ⟨-, hin⟩)
        · omega
        · exact hp hin)
      rwa [List.getElem?_append_right (by omega), List.getElem?_append_right (by omega), hfirst,
        hfirst', Nat.add_sub_cancel_left] at hout
    rw [hstart, hend]

/-- There is one way to fill the runs. -/
theorem unique (h : Filled runs bytes sample a) (h' : Filled runs bytes sample b)
    (hcovered : SubSample.totalLength runs ≤ sample.length) : b = a :=
  (h.both h').eq_of_inside (h.length_eq ▸ hcovered) h.inside

end Filled

/-! ## Gathering -/

/-- A cut along a map that covers no more than the sample has gives the bytes in the runs. -/
theorem collect_of_covered {runs : List SubSample} {sample : Bytes}
    (h : SubSample.totalLength runs ≤ sample.length) :
    collect runs sample = .ok (encryptedIn runs sample) := by
  refine covered_induction (P := fun runs sample =>
    collect runs sample = .ok (encryptedIn runs sample)) (fun _ => rfl) ?_ h
  intro s runs clear encrypted rest hclear hencrypted _ ih
  rw [collect_cons hclear hencrypted runs rest ih, encryptedIn_append hclear hencrypted]

/-- A cut along a map that covers more than the sample has ends at the entry that it has not. -/
theorem collect_of_uncovered {runs : List SubSample} {sample : Bytes}
    (h : sample.length < SubSample.totalLength runs) :
    ∃ looked, collect runs sample = .error looked := by
  induction runs generalizing sample with
  | nil => exact absurd h (Nat.not_lt_zero _)
  | cons s runs ih =>
    have htotal : SubSample.totalLength (s :: runs) = s.length + SubSample.totalLength runs := rfl
    by_cases hs : s.length ≤ sample.length
    · have hrest : (sample.drop s.length).length < SubSample.totalLength runs := by
        rw [List.length_drop]
        omega
      obtain ⟨looked, hlooked⟩ := ih hrest
      exact ⟨looked + 1, by rw [collect_of_le runs hs, hlooked]⟩
    · exact ⟨1, collect_of_lt runs (Nat.lt_of_not_le hs)⟩

section Gather

variable {sample : Bytes} {r : Reader} {count : Nat}

/-- Gathering along entries that are there and that cover no more than the sample has. -/
theorem gather_of_covered (hmap : entrySize * count ≤ r.map.length)
    (hsample : SubSample.totalLength ((entries r.map).take count) ≤ sample.length)
    (reserved : Nat) :
    gather sample r count reserved =
      (.ok ⟨encryptedIn ((entries r.map).take count) sample ++ Bytes.zeros reserved,
        SubSample.totalEncrypted ((entries r.map).take count),
        regions ((entries r.map).take count)⟩, r.rewind) := by
  rw [gather_eq_scan, scan_of_le (le_length_entries_iff.2 hmap)]
  dsimp only
  rw [if_pos rfl, collect_of_covered hsample]
  dsimp only
  rw [← length_encryptedIn hsample, fit_append_zeros]

/-- Gathering fails if an entry is missing, or the sample is too short for those that are there. -/
theorem gather_of_not (reserved : Nat)
    (h : ¬ (entrySize * count ≤ r.map.length ∧
      SubSample.totalLength ((entries r.map).take count) ≤ sample.length)) :
    (gather sample r count reserved).1 = .error .invalidDecryptBuffer := by
  rw [gather_eq_scan]
  by_cases hmap : entrySize * count ≤ r.map.length
  · obtain ⟨looked, hlooked⟩ := collect_of_uncovered
      (Nat.lt_of_not_le fun hsample => h ⟨hmap, hsample⟩)
    rw [scan_of_le (le_length_entries_iff.2 hmap)]
    dsimp only
    rw [if_pos rfl, hlooked]
  · rw [← le_length_entries_iff, Nat.not_le] at hmap
    dsimp only
    rw [(scan_of_lt hmap).2]
    rfl

/-- Gathering succeeds exactly if the entries are there and cover no more than the sample has. -/
theorem gather_eq_ok_iff (reserved : Nat) :
    (∃ g, (gather sample r count reserved).1 = .ok g) ↔
      entrySize * count ≤ r.map.length ∧
        SubSample.totalLength ((entries r.map).take count) ≤ sample.length := by
  refine ⟨fun ⟨g, hg⟩ => ?_, fun ⟨hmap, hsample⟩ =>
    ⟨_, congrArg Prod.fst (gather_of_covered hmap hsample reserved)⟩⟩
  by_contra hnot
  rw [gather_of_not reserved hnot] at hg
  cases hg

/-- The packed map of a description that is valid for a sample gathers it. -/
theorem gather_of_valid {i : SampleInfo} (hi : i.validate sample.length = .ok ())
    (pos reserved : Nat) :
    ∃ g, gather sample ⟨encode i.subsamples, pos⟩ i.subsamples.length reserved =
      (.ok g, ⟨encode i.subsamples, 0⟩) ∧ g.encryptedLength = i.encryptedLength := by
  have hcovered : SubSample.totalLength i.subsamples ≤ sample.length := by
    by_cases hvalid : i.subsamples.isEmpty ∨ i.coveredLength = sample.length
    · rcases hvalid with hempty | hexact
      · rw [List.isEmpty_iff.1 hempty]
        exact Nat.zero_le _
      · exact Nat.le_of_eq hexact
    · rw [SampleInfo.validate, if_neg hvalid] at hi
      cases hi
  have hread : (entries (encode i.subsamples)).take i.subsamples.length = i.subsamples := by
    rw [entries_encode, List.take_length]
  refine ⟨_, gather_of_covered (Nat.le_of_eq (length_encode _).symm) ?_ reserved, ?_⟩
  · rw [hread]
    exact hcovered
  · dsimp only
    rw [hread]
    rfl

/-- **Gathering is exact.** A sample is gathered if and only if the map holds all entries that are
asked for and they cover no more than the sample has. Then the data is what stands in the encrypted
runs, in order, each after all entries before it and its own clear bytes, and the bytes kept free;
its length is the one the sum over the map tells; there is one region for each entry; and the cursor
is back at the start. Every failure is the one of an invalid buffer. The packed map of a description
that is valid for the sample gathers all that the description calls encrypted. -/
theorem gather_exact (sample : Bytes) (r : Reader) (count reserved : Nat) :
    let runs := (entries r.map).take count
    ((∃ g, (gather sample r count reserved).1 = .ok g) ↔
      entrySize * count ≤ r.map.length ∧ SubSample.totalLength runs ≤ sample.length) ∧
    (∀ g, (gather sample r count reserved).1 = .ok g →
      g.data = encryptedIn runs sample ++ Bytes.zeros reserved ∧
      (∀ i, (spans 0 runs)[i]? = runs[i]?.map fun s =>
        (SubSample.totalLength (runs.take i) + s.clear, s.encrypted)) ∧
      (encryptedIn runs sample).length = g.encryptedLength ∧
      g.encryptedLength = SubSample.totalEncrypted runs ∧
      (∀ pos, (encryptedTotal ⟨r.map, pos⟩ count).1 = .ok g.encryptedLength) ∧
      runs.length = count ∧ g.regions = runs.map (fun s => ⟨0, s.encryptedBytes⟩) ∧
      (gather sample r count reserved).2 = ⟨r.map, 0⟩) ∧
    (∀ e, (gather sample r count reserved).1 = .error e → e = .invalidDecryptBuffer) ∧
    ∀ i : SampleInfo, i.validate sample.length = .ok () → ∀ pos, ∃ g,
      gather sample ⟨encode i.subsamples, pos⟩ i.subsamples.length reserved =
        (.ok g, ⟨encode i.subsamples, 0⟩) ∧ g.encryptedLength = i.encryptedLength := by
  dsimp only
  refine ⟨gather_eq_ok_iff reserved, fun g hg => ?_, fun e he => ?_,
    fun i hi pos => gather_of_valid hi pos reserved⟩
  · obtain ⟨hmap, hsample⟩ := (gather_eq_ok_iff reserved).1 ⟨g, hg⟩
    have hread := le_length_entries_iff.2 hmap
    rw [gather_of_covered hmap hsample] at hg ⊢
    cases hg
    refine ⟨rfl, fun i => ?_, length_encryptedIn hsample, rfl, fun pos => ?_, ?_, rfl, rfl⟩
    · simp only [getElem?_spans, Nat.zero_add]
    · rw [encryptedTotal_eq_scan, scan_of_le hread]
      rfl
    · rw [List.length_take, Nat.min_eq_left hread]
  · rw [gather_of_not reserved fun hcovered => ?_] at he
    · cases he
      rfl
    · obtain ⟨g, hg⟩ := (gather_eq_ok_iff reserved).2 hcovered
      rw [hg] at he
      cases he

end Gather

/-- Two entries over five bytes, and one byte kept free. -/
theorem gather_exact_divided :
    ∃ g, gather [1, 2, 3, 4, 5] ⟨encode [⟨1, 2⟩, ⟨0, 2⟩], 3⟩ 2 1 =
        (.ok g, ⟨encode [⟨1, 2⟩, ⟨0, 2⟩], 0⟩) ∧
      g.data = [2, 3, 4, 5, 0] ∧ g.encryptedLength = 4 := by
  obtain ⟨-, hdata, -, hvalid⟩ := gather_exact [1, 2, 3, 4, 5] ⟨encode [⟨1, 2⟩, ⟨0, 2⟩], 3⟩ 2 1
  obtain ⟨g, hg, hlength⟩ := hvalid { subsamples := [⟨1, 2⟩, ⟨0, 2⟩] } rfl 3
  exact ⟨g, hg, (hdata g (congrArg Prod.fst hg)).1, hlength⟩

end Subsample

end ContentDecryption
