import ContentDecryption.Proofs.Subsample.Runs

/-!
# Putting the encrypted runs back

Scattering writes bytes into the encrypted runs of a sample, gathering reads them out of it.
As there is one way to fill the runs (`Filled.unique`), the laws of the two follow from what
each does alone: what was written is read, what was read and is written changes nothing,
and what is written last is what stays.

A scatter that fails has filled the runs of the entries before the first one for which the
map, the bytes or the sample end too early.

Main definitions:

* `Room`: the bytes and the sample are long enough for some entries;
* `Placed`: a sample after the first bytes were written into its runs;
* `Fits`: the first entries of a packed map are there, and there is room for them.

Main results:

* `place_cases`: one pass of writing, to the end or to the first entry without room;
* `scatter_cases`: the same with the map as it is packed;
* `scatter_gather`: the laws of scattering and gathering.
-/

namespace ContentDecryption

namespace Subsample

section Total

variable (runs later : List SubSample)

/-- A count over the entries of two maps in a row. -/
theorem total_append (f : SubSample → Nat) :
    (runs ++ later).foldr (fun s total => f s + total) 0 =
      runs.foldr (fun s total => f s + total) 0 + later.foldr (fun s total => f s + total) 0 := by
  induction runs with
  | nil => exact (Nat.zero_add _).symm
  | cons s runs ih => rw [List.cons_append, List.foldr_cons, List.foldr_cons, ih, Nat.add_assoc]

theorem totalEncrypted_append :
    SubSample.totalEncrypted (runs ++ later) =
      SubSample.totalEncrypted runs + SubSample.totalEncrypted later :=
  total_append runs later SubSample.encrypted

theorem totalLength_append :
    SubSample.totalLength (runs ++ later) =
      SubSample.totalLength runs + SubSample.totalLength later :=
  total_append runs later SubSample.length

end Total

/-- The bytes are enough for the encrypted runs, and the sample for all of the map. -/
def Room (runs : List SubSample) (decrypted sample : Bytes) : Prop :=
  SubSample.totalEncrypted runs ≤ decrypted.length ∧ SubSample.totalLength runs ≤ sample.length

/-- There was room, and the first of the bytes are in the runs. -/
structure Placed (runs : List SubSample) (decrypted sample after : Bytes) : Prop where
  room : Room runs decrypted sample
  filled : Filled runs (decrypted.take (SubSample.totalEncrypted runs)) sample after

/-! ## One pass of writing -/

/-- There is room for the first entries of a map if there is for all. -/
theorem Room.take {runs : List SubSample} {decrypted sample : Bytes}
    (h : Room runs decrypted sample) (k : Nat) : Room (runs.take k) decrypted sample := by
  obtain ⟨hdecrypted, hsample⟩ := h
  rw [← List.take_append_drop k runs] at hdecrypted hsample
  rw [totalEncrypted_append] at hdecrypted
  rw [totalLength_append] at hsample
  exact ⟨Nat.le_of_add_right_le hdecrypted, Nat.le_of_add_right_le hsample⟩

theorem Placed.nil (decrypted sample : Bytes) : Placed [] decrypted sample sample :=
  ⟨⟨Nat.zero_le _, Nat.zero_le _⟩, Filled.refl [] sample⟩

section Cut

variable {s : SubSample} {clear encrypted run : Bytes} (hclear : clear.length = s.clear)
  (hencrypted : encrypted.length = s.encrypted) (hrun : run.length = s.encrypted)
  {runs : List SubSample} {left rest : Bytes}

include hclear hencrypted hrun

/-- One more entry in front takes its bytes on both sides. -/
theorem room_append :
    Room (s :: runs) (run ++ left) (clear ++ encrypted ++ rest) ↔ Room runs left rest := by
  have hfirst := length_first hclear hencrypted
  unfold Room
  rw [List.length_append, List.length_append, hrun, hfirst]
  exact and_congr (Nat.add_le_add_iff_left ..) (Nat.add_le_add_iff_left ..)

theorem Placed.cons {after : Bytes} (h : Placed runs left rest after) :
    Placed (s :: runs) (run ++ left) (clear ++ encrypted ++ rest) (clear ++ run ++ after) := by
  refine ⟨(room_append hclear hencrypted hrun).2 h.room, ?_⟩
  have htake : (run ++ left).take (SubSample.totalEncrypted (s :: runs)) =
      run ++ left.take (SubSample.totalEncrypted runs) := by
    show (run ++ left).take (s.encrypted + SubSample.totalEncrypted runs) = _
    rw [← hrun, List.take_length_add_append]
  rw [htake]
  exact h.filled.cons hclear hencrypted hrun

end Cut

/-- Writing goes to the end, or to the first entry that there is no room for. -/
theorem place_cases (runs : List SubSample) (decrypted sample : Bytes) :
    (∃ after, place runs decrypted sample = (none, after) ∧ Placed runs decrypted sample after) ∨
      ∃ k after, k < runs.length ∧ place runs decrypted sample = (some (k + 1), after) ∧
        Placed (runs.take k) decrypted sample after ∧
        ¬ Room (runs.take (k + 1)) decrypted sample := by
  induction runs generalizing decrypted sample with
  | nil => exact .inl ⟨sample, rfl, Placed.nil decrypted sample⟩
  | cons s runs ih =>
    by_cases hroom : s.encrypted ≤ decrypted.length ∧ s.length ≤ sample.length
    · obtain ⟨hdecrypted, hsample⟩ := hroom
      obtain ⟨clear, encrypted, rest, rfl, hclear, hencrypted⟩ := exists_cut hsample
      obtain ⟨run, left, rfl, hrun⟩ : ∃ run left, decrypted = run ++ left ∧
          run.length = s.encrypted :=
        ⟨decrypted.take s.encrypted, decrypted.drop s.encrypted,
          (List.take_append_drop ..).symm, List.length_take_of_le hdecrypted⟩
      rw [place_append hclear hencrypted runs rest hrun]
      rcases ih left rest with ⟨after, hplace, hplaced⟩ | ⟨k, after, hk, hplace, hplaced, hnot⟩
      · exact .inl ⟨_, by rw [hplace, Option.map_none], hplaced.cons hclear hencrypted hrun⟩
      · refine .inr ⟨k + 1, _, Nat.succ_lt_succ hk, by rw [hplace, Option.map_some],
          hplaced.cons hclear hencrypted hrun, fun hroom => hnot ?_⟩
        exact (room_append hclear hencrypted hrun).1 hroom
    · refine .inr ⟨0, sample, Nat.succ_pos _, place_of_lt runs (by omega),
        Placed.nil decrypted sample, fun hfirst => hroom ?_⟩
      exact hfirst

/-! ## A pass over a packed map -/

/-- The map has this many entries, and there is room for them. -/
def Fits (m decrypted sample : Bytes) (count : Nat) : Prop :=
  entrySize * count ≤ m.length ∧
    SubSample.totalEncrypted ((entries m).take count) ≤ decrypted.length ∧
    SubSample.totalLength ((entries m).take count) ≤ sample.length

theorem Fits.of_le {m decrypted sample : Bytes} {k count : Nat} (h : Fits m decrypted sample count)
    (hk : k ≤ count) : Fits m decrypted sample k := by
  obtain ⟨hmap, hroom⟩ := h
  refine ⟨Nat.le_trans (Nat.mul_le_mul_left _ hk) hmap, ?_⟩
  rw [← Nat.min_eq_left hk, ← List.take_take]
  exact Room.take hroom k

section Scatter

variable (decrypted : Bytes) (r : Reader) (count : Nat) (sample : Bytes)

/-- Scattering fills the runs of all entries, or of those before the first one that does not fit. -/
theorem scatter_cases :
    (∃ after, Fits r.map decrypted sample count ∧
        scatter decrypted r count sample = (.ok (), r.rewind, after) ∧
        Placed ((entries r.map).take count) decrypted sample after) ∨
      ∃ k r' after, k < count ∧ Fits r.map decrypted sample k ∧
        ¬ Fits r.map decrypted sample (k + 1) ∧
        scatter decrypted r count sample = (.error .invalidDecryptBuffer, r', after) ∧
        Placed ((entries r.map).take k) decrypted sample after := by
  rw [scatter_eq_scan]
  dsimp only
  by_cases hread : count ≤ (entries r.map).length
  · rw [scan_of_le hread]
    dsimp only
    rcases place_cases ((entries r.map).take count) decrypted sample with
      ⟨after, hplace, hplaced⟩ | ⟨k, after, hk, hplace, hplaced, hnot⟩
    · rw [hplace]
      exact .inl ⟨after, ⟨le_length_entries_iff.1 hread, hplaced.room⟩, rfl, hplaced⟩
    · rw [List.length_take, Nat.min_eq_left hread] at hk
      rw [List.take_take, Nat.min_eq_left (Nat.le_of_lt hk)] at hplaced
      rw [List.take_take, Nat.min_eq_left hk] at hnot
      have hmap := le_length_entries_iff.1 (Nat.le_trans (Nat.le_of_lt hk) hread)
      rw [hplace]
      exact .inr ⟨k, _, after, hk, ⟨hmap, hplaced.room⟩, fun hfits => hnot hfits.2, rfl, hplaced⟩
  · -- The map has too few entries: the pass fails behind the last of them, if not before.
    obtain ⟨hentries, hcomplete⟩ := scan_of_lt (Nat.lt_of_not_le hread)
    have hall : (entries r.map).take (entries r.map).length = entries r.map := List.take_length
    rw [hentries, hcomplete]
    rcases place_cases (entries r.map) decrypted sample with
      ⟨after, hplace, hplaced⟩ | ⟨k, after, hk, hplace, hplaced, hnot⟩
    · rw [hplace]
      refine .inr ⟨(entries r.map).length, _, after, Nat.lt_of_not_le hread,
        ⟨le_length_entries_iff.1 (Nat.le_refl _), ?_⟩, fun hfits => ?_, rfl, ?_⟩
      · rw [hall]
        exact hplaced.room
      · exact Nat.not_succ_le_self _ (le_length_entries_iff.2 hfits.1)
      · rw [hall]
        exact hplaced
    · rw [hplace]
      exact .inr ⟨k, _, after, by omega,
        ⟨le_length_entries_iff.1 (Nat.le_of_lt hk), hplaced.room⟩, fun hfits => hnot hfits.2, rfl,
        hplaced⟩

/-- Scattering succeeds exactly if all entries fit. -/
theorem scatter_eq_ok_iff :
    (scatter decrypted r count sample).1 = .ok () ↔ Fits r.map decrypted sample count := by
  rcases scatter_cases decrypted r count sample with
    ⟨after, hfits, hscatter, -⟩ | ⟨k, r', after, hk, -, hnot, hscatter, -⟩ <;> rw [hscatter]
  · exact ⟨fun _ => hfits, fun _ => rfl⟩
  · exact ⟨nofun, fun hfits => absurd (hfits.of_le hk) hnot⟩

variable {decrypted r count sample}

theorem scatter_of_fits (h : Fits r.map decrypted sample count) :
    ∃ after, scatter decrypted r count sample = (.ok (), r.rewind, after) ∧
      Filled ((entries r.map).take count)
        (decrypted.take (SubSample.totalEncrypted ((entries r.map).take count))) sample after := by
  rcases scatter_cases decrypted r count sample with
    ⟨after, -, hscatter, hplaced⟩ | ⟨k, r', after, hk, -, hnot, -⟩
  · exact ⟨after, hscatter, hplaced.filled⟩
  · exact absurd (h.of_le hk) hnot

/-- What scattering makes of a sample is settled by what is outside of its runs, and by the first of
the bytes. -/
theorem scatter_eq {before filling : Bytes} (h : Fits r.map decrypted before count)
    (hfilled : Filled ((entries r.map).take count) filling before sample)
    (htake : decrypted.take (SubSample.totalEncrypted ((entries r.map).take count)) = filling) :
    scatter decrypted r count before = (.ok (), r.rewind, sample) := by
  obtain ⟨after, hscatter, hafter⟩ := scatter_of_fits h
  rw [htake] at hafter
  rw [hscatter, hfilled.unique hafter h.2.2]

end Scatter

/-- **The laws of scattering and gathering.** Scattering succeeds exactly if the map holds all
entries that are asked for, their encrypted bytes are no more than the bytes that are given, and
they cover no more than the sample has. Then

* the sample keeps its length, and nothing outside of the encrypted runs has changed;
* gathering gives just the first of the bytes that were given;
* bytes that were gathered and are scattered again leave the sample as it was;
* scattering other bytes afterwards is as if they had been scattered at once;
* bytes past those of the runs do not matter.

If it fails, the encrypted runs of the entries before the first one that does not fit hold the
first of the bytes, and nothing else has changed. -/
theorem scatter_gather (decrypted : Bytes) (r : Reader) (count : Nat) (sample : Bytes) :
    let runs := (entries r.map).take count
    let total := SubSample.totalEncrypted runs
    let after := (scatter decrypted r count sample).2.2
    ((scatter decrypted r count sample).1 = .ok () ↔
      entrySize * count ≤ r.map.length ∧ total ≤ decrypted.length ∧
        SubSample.totalLength runs ≤ sample.length) ∧
    ((scatter decrypted r count sample).1 = .ok () →
      after.length = sample.length ∧
      (∀ p, ¬ IsEncrypted runs p → after[p]? = sample[p]?) ∧
      (∀ reserved, ∃ g, gather after r count reserved = (.ok g, r.rewind) ∧
        g.encryptedLength = total ∧ g.payload = decrypted.take total) ∧
      (∀ reserved, ∃ g, gather sample r count reserved = (.ok g, r.rewind) ∧
        scatter g.data r count sample = (.ok (), r.rewind, sample)) ∧
      (∀ other, (scatter other r count after).1 = .ok () →
        scatter other r count after = scatter other r count sample) ∧
      ∀ other, other.take total = decrypted.take total →
        scatter other r count sample = scatter decrypted r count sample) ∧
    (∀ reserved g, (gather sample r count reserved).1 = .ok g →
      scatter g.data r count sample = (.ok (), r.rewind, sample)) ∧
    ((scatter decrypted r count sample).1 ≠ .ok () →
      (scatter decrypted r count sample).1 = .error .invalidDecryptBuffer ∧
      ∃ k < count, Fits r.map decrypted sample k ∧ ¬ Fits r.map decrypted sample (k + 1) ∧
        after.length = sample.length ∧
        (∀ p, ¬ IsEncrypted ((entries r.map).take k) p → after[p]? = sample[p]?) ∧
        encryptedIn ((entries r.map).take k) after =
          decrypted.take (SubSample.totalEncrypted ((entries r.map).take k))) := by
  dsimp only
  have hback (reserved : Nat) (g : Gathered) (hg : (gather sample r count reserved).1 = .ok g) :
      scatter g.data r count sample = (.ok (), r.rewind, sample) := by
    obtain ⟨hmap, hsample⟩ := (gather_eq_ok_iff reserved).1 ⟨g, hg⟩
    have hlength := length_encryptedIn hsample
    rw [gather_of_covered hmap hsample] at hg
    cases hg
    dsimp only
    refine scatter_eq ⟨hmap, ?_, hsample⟩ (Filled.refl _ _) (List.take_left' hlength)
    rw [List.length_append, hlength]
    exact Nat.le_add_right _ _
  refine ⟨scatter_eq_ok_iff .., fun hok => ?_, hback, fun hnot => ?_⟩
  · have hfits := (scatter_eq_ok_iff ..).1 hok
    obtain ⟨after, hscatter, hfilled⟩ := scatter_of_fits hfits
    obtain ⟨hmap, hdecrypted, hsample⟩ := hfits
    have hafter := hfilled.length_eq ▸ hsample
    rw [hscatter]
    dsimp only
    refine ⟨hfilled.length_eq, hfilled.outside, fun reserved => ?_, fun reserved => ?_,
      fun other hother => ?_, fun other hother => ?_⟩
    · refine ⟨_, gather_of_covered hmap hafter reserved, rfl, ?_⟩
      rw [Gathered.payload, List.take_left' (length_encryptedIn hafter), hfilled.inside]
    · have hgather := gather_of_covered hmap hsample reserved
      exact ⟨_, hgather, hback reserved _ (congrArg Prod.fst hgather)⟩
    · have hagain := (scatter_eq_ok_iff ..).1 hother
      obtain ⟨last, hlast, hrefilled⟩ := scatter_of_fits hagain
      rw [hlast, scatter_eq ⟨hmap, hagain.2.1, hsample⟩ (hfilled.trans hrefilled) rfl]
    · refine scatter_eq ⟨hmap, ?_, hsample⟩ hfilled hother
      have hlength := congrArg List.length hother
      rw [List.length_take, List.length_take, Nat.min_eq_left hdecrypted] at hlength
      omega
  · rcases scatter_cases decrypted r count sample with
      ⟨after, -, hscatter, -⟩ | ⟨k, r', after, hk, hfits, hfull, hscatter, hplaced⟩
    · exact absurd (congrArg Prod.fst hscatter) hnot
    · rw [hscatter]
      exact ⟨rfl, k, hk, hfits, hfull, hplaced.filled.length_eq, hplaced.filled.outside,
        hplaced.filled.inside⟩

/-- Three encrypted bytes in two runs: a fourth byte is left over, and one byte alone fills the
first run. -/
theorem scatter_gather_uneven :
    let r : Reader := ⟨encode [⟨1, 1⟩, ⟨1, 2⟩], 0⟩
    scatter [9, 8, 7, 0] r 2 [1, 2, 3, 4, 5] = scatter [9, 8, 7] r 2 [1, 2, 3, 4, 5] ∧
      ∃ k < 2, Fits r.map [9] [1, 2, 3, 4, 5] k ∧ ¬ Fits r.map [9] [1, 2, 3, 4, 5] (k + 1) := by
  obtain ⟨-, hlaws, -, -⟩ := scatter_gather [9, 8, 7] ⟨encode [⟨1, 1⟩, ⟨1, 2⟩], 0⟩ 2 [1, 2, 3, 4, 5]
  obtain ⟨-, -, -, -, -, hrest⟩ := hlaws rfl
  obtain ⟨-, -, -, hfails⟩ := scatter_gather [9] ⟨encode [⟨1, 1⟩, ⟨1, 2⟩], 0⟩ 2 [1, 2, 3, 4, 5]
  obtain ⟨-, k, hk, hfits, hfull, -⟩ := hfails nofun
  exact ⟨hrest [9, 8, 7, 0] rfl, k, hk, hfits, hfull⟩

end Subsample

end ContentDecryption
