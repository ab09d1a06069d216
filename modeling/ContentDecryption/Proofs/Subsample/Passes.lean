import ContentDecryption.Subsample.Map

/-!
# Passes over a divided sample

A pass cuts a sample along its map, entry by entry: the clear bytes, the encrypted
bytes, and what is left for the entries after it. A map that covers no more than the
sample has takes every pass to its end, and then gathering and scattering are about
the same bytes: those of the encrypted runs.

Main definitions:

* `collect`, `place`: taking the encrypted bytes out of a sample, and putting bytes in their place;
* `regions`: the map of the encrypted bytes alone.

Main results:

* `covered_induction`: induction on the entries of a map that covers no more than the sample;
* `collect_of_le`, `collect_of_lt`, `place_of_lt`: one entry of a pass, that has its bytes or has
  not;
* `place_collect`: bytes that are put back where they came from leave the sample as it was.
-/

namespace ContentDecryption

namespace Subsample

/-- Cuts the encrypted runs out of a sample. If the sample ends too early, the number of entries
that were looked at. -/
def collect : List SubSample → Bytes → Except Nat Bytes
  | [], _ => .ok []
  | s :: entries, sample =>
    match (sample.split? s.clear).bind fun p => Bytes.split? p.2 s.encrypted with
    | none => .error 1
    | some (run, rest) =>
      match collect entries rest with
      | .error looked => .error (looked + 1)
      | .ok data => .ok (run ++ data)

/-- Writes the bytes of `decrypted` into the encrypted runs of a sample, in order. If one of the
two ends too early, the number of entries that were looked at; runs before that one stay
written. -/
def place : List SubSample → Bytes → Bytes → Option Nat × Bytes
  | [], _, sample => (none, sample)
  | s :: entries, decrypted, sample =>
    match decrypted.split? s.encrypted, sample.split? s.length with
    | some (run, left), some (divided, rest) =>
      let (looked, rest') := place entries left rest
      (looked.map (· + 1), divided.take s.clear ++ run ++ rest')
    | _, _ => (some 1, sample)

/-- The map of the encrypted bytes of a sample in one piece: one entry without clear bytes for each
run. -/
def regions (runs : List SubSample) : List SubSample := runs.map fun s => ⟨0, s.encryptedBytes⟩

/-- The regions cover what the runs have encrypted. -/
theorem totalLength_regions (runs : List SubSample) :
    SubSample.totalLength (regions runs) = SubSample.totalEncrypted runs := by
  induction runs with
  | nil => rfl
  | cons s runs ih =>
    show SubSample.length ⟨0, s.encryptedBytes⟩ + SubSample.totalLength (regions runs) =
      s.encrypted + SubSample.totalEncrypted runs
    rw [ih, SubSample.length_eq]
    show 0 + s.encrypted + _ = _
    rw [Nat.zero_add]

theorem totalEncrypted_le_totalLength (runs : List SubSample) :
    SubSample.totalEncrypted runs ≤ SubSample.totalLength runs := by
  induction runs with
  | nil => exact Nat.le_refl 0
  | cons s runs ih =>
    show s.encrypted + SubSample.totalEncrypted runs ≤ s.length + SubSample.totalLength runs
    rw [SubSample.length_eq]
    omega

/-! ## Cutting a sample -/

theorem length_first {s : SubSample} {clear encrypted : Bytes} (hclear : clear.length = s.clear)
    (hencrypted : encrypted.length = s.encrypted) : (clear ++ encrypted).length = s.length := by
  rw [List.length_append, hclear, hencrypted, SubSample.length_eq]

/-- A sample that has the bytes of an entry, cut along it. -/
theorem exists_cut {s : SubSample} {sample : Bytes} (h : s.length ≤ sample.length) :
    ∃ clear encrypted rest, sample = clear ++ encrypted ++ rest ∧
      clear.length = s.clear ∧ encrypted.length = s.encrypted := by
  rw [SubSample.length_eq] at h
  refine ⟨sample.take s.clear, (sample.drop s.clear).take s.encrypted,
    (sample.drop s.clear).drop s.encrypted, ?_, ?_, ?_⟩
  · rw [List.append_assoc, List.take_append_drop, List.take_append_drop]
  · rw [List.length_take]
    omega
  · rw [List.length_take, List.length_drop]
    omega

/-- Induction on a map that covers no more than the sample has: the sample is the clear bytes and
the encrypted bytes of the first entry, and then what the other entries are about. -/
theorem covered_induction {P : List SubSample → Bytes → Prop} (nil : ∀ sample, P [] sample)
    (cons : ∀ (s : SubSample) (runs : List SubSample) (clear encrypted rest : Bytes),
      clear.length = s.clear → encrypted.length = s.encrypted →
      SubSample.totalLength runs ≤ rest.length → P runs rest →
      P (s :: runs) (clear ++ encrypted ++ rest))
    {runs : List SubSample} {sample : Bytes}
    (h : SubSample.totalLength runs ≤ sample.length) : P runs sample := by
  induction runs generalizing sample with
  | nil => exact nil sample
  | cons s runs ih =>
    have hlength : s.length + SubSample.totalLength runs ≤ sample.length := h
    obtain ⟨clear, encrypted, rest, rfl, hclear, hencrypted⟩ :=
      exists_cut (Nat.le_of_add_right_le hlength)
    rw [List.length_append, length_first hclear hencrypted] at hlength
    have hrest := Nat.le_of_add_le_add_left hlength
    exact cons s runs clear encrypted rest hclear hencrypted hrest (ih hrest)

theorem split?_append {first rest : Bytes} {n : Nat} (h : first.length = n) :
    (first ++ rest).split? n = some (first, rest) :=
  Bytes.split?_eq_some_iff.2 ⟨rfl, h⟩

theorem split?_of_le {b : Bytes} {n : Nat} (h : n ≤ b.length) :
    b.split? n = some (b.take n, b.drop n) :=
  Bytes.split?_eq_some_iff.2
    ⟨(List.take_append_drop n b).symm, by rw [List.length_take, Nat.min_eq_left h]⟩

theorem split?_of_lt {b : Bytes} {n : Nat} (h : b.length < n) : b.split? n = none :=
  Bytes.split?_eq_none_iff.2 h

section Entry

variable {s : SubSample} (runs : List SubSample) {decrypted sample : Bytes}

/-- The first entry has its bytes: they are cut out, and the rest of the sample is for the other
entries. -/
theorem collect_of_le (h : s.length ≤ sample.length) :
    collect (s :: runs) sample =
      match collect runs (sample.drop s.length) with
      | .error looked => .error (looked + 1)
      | .ok data => .ok ((sample.drop s.clear).take s.encrypted ++ data) := by
  rw [SubSample.length_eq] at h ⊢
  have hcut : (sample.split? s.clear).bind (fun p => Bytes.split? p.2 s.encrypted) =
      some ((sample.drop s.clear).take s.encrypted, sample.drop (s.clear + s.encrypted)) := by
    rw [split?_of_le (n := s.clear) (by omega), Option.bind_some,
      split?_of_le (by rw [List.length_drop]; omega), List.drop_drop]
  cases hrest : collect runs (sample.drop (s.clear + s.encrypted)) with
  | error looked => simp only [collect, hcut, hrest]
  | ok data => simp only [collect, hcut, hrest]

theorem collect_of_lt (h : sample.length < s.length) :
    collect (s :: runs) sample = .error 1 := by
  rw [SubSample.length_eq] at h
  have hnone : (sample.split? s.clear).bind (fun p => Bytes.split? p.2 s.encrypted) = none := by
    by_cases hclear : s.clear ≤ sample.length
    · rw [split?_of_le hclear, Option.bind_some, split?_of_lt]
      rw [List.length_drop]
      omega
    · rw [split?_of_lt (Nat.lt_of_not_le hclear), Option.bind_none]
  rw [collect, hnone]

theorem place_of_lt (h : decrypted.length < s.encrypted ∨ sample.length < s.length) :
    place (s :: runs) decrypted sample = (some 1, sample) := by
  rw [place]
  rcases h with hdecrypted | hsample
  · rw [split?_of_lt hdecrypted]
  · rw [split?_of_lt hsample]
    cases decrypted.split? s.encrypted <;> rfl

end Entry

section Cut

variable {s : SubSample} {clear encrypted : Bytes} (hclear : clear.length = s.clear)
  (hencrypted : encrypted.length = s.encrypted) (runs : List SubSample) (rest : Bytes)

include hclear hencrypted

/-- The bytes of the first entry. -/
theorem split?_first :
    (clear ++ encrypted ++ rest).split? s.length = some (clear ++ encrypted, rest) := by
  exact split?_append (length_first hclear hencrypted)

theorem collect_cons {data : Bytes} (h : collect runs rest = .ok data) :
    collect (s :: runs) (clear ++ encrypted ++ rest) = .ok (encrypted ++ data) := by
  rw [collect, List.append_assoc, split?_append hclear, Option.bind_some,
    split?_append hencrypted]
  dsimp only
  rw [h]

theorem place_append {run : Bytes} (hrun : run.length = s.encrypted) (left : Bytes) :
    place (s :: runs) (run ++ left) (clear ++ encrypted ++ rest) =
      ((place runs left rest).1.map (· + 1), clear ++ run ++ (place runs left rest).2) := by
  rw [place, split?_append hrun, split?_first hclear hencrypted]
  dsimp only
  rw [← hclear, List.take_left]

theorem place_cons {run left after : Bytes} (hrun : run.length = s.encrypted)
    (h : place runs left rest = (none, after)) :
    place (s :: runs) (run ++ left) (clear ++ encrypted ++ rest) =
      (none, clear ++ run ++ after) := by
  rw [place_append hclear hencrypted runs rest hrun, h]
  rfl

end Cut

/-! ## What the passes come to -/

/-- All encrypted bytes are there to be gathered. -/
theorem exists_collect {runs : List SubSample} {sample : Bytes}
    (h : SubSample.totalLength runs ≤ sample.length) :
    ∃ data, collect runs sample = .ok data ∧ data.length = SubSample.totalEncrypted runs := by
  refine covered_induction (P := fun runs sample => ∃ data, collect runs sample = .ok data ∧
    data.length = SubSample.totalEncrypted runs) ?_ ?_ h
  · exact fun _ => ⟨[], rfl, rfl⟩
  · intro s runs clear encrypted rest hclear hencrypted _ ⟨data, hdata, hlength⟩
    refine ⟨encrypted ++ data, collect_cons hclear hencrypted runs rest hdata, ?_⟩
    rw [List.length_append, hencrypted, hlength]
    rfl

/-- Bytes that are put back where they came from leave the sample as it was. -/
theorem place_collect {runs : List SubSample} {sample data : Bytes}
    (h : SubSample.totalLength runs ≤ sample.length) (hdata : collect runs sample = .ok data)
    (more : Bytes) : place runs (data ++ more) sample = (none, sample) := by
  refine covered_induction (P := fun runs sample => ∀ data, collect runs sample = .ok data →
    place runs (data ++ more) sample = (none, sample)) ?_ ?_ h data hdata
  · exact fun _ _ _ => rfl
  · intro s runs clear encrypted rest hclear hencrypted hrest ih data hdata
    obtain ⟨later, hlater, -⟩ := exists_collect hrest
    rw [collect_cons hclear hencrypted runs rest hlater] at hdata
    cases hdata
    rw [List.append_assoc]
    exact place_cons hclear hencrypted runs rest hencrypted (ih later hlater)

end Subsample

end ContentDecryption
