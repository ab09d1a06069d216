import ContentDecryption.Proofs.Subsample.Passes
import ContentDecryption.Proofs.Subsample.Reading
import ContentDecryption.Subsample.Gather
import Mathlib.Tactic.SplitIfs

/-!
# What a pass with a cursor comes to

The passes over a map walk along it with a cursor. Here they are taken apart: a walk is a
scan of the map and a loop over the entries that the scan has found, and the loops of
gathering and scattering cut a sample along these entries.

Main definitions:

* `loop`: the loop of a walk, over entries that were read.

Main results:

* `Reader.walk_eq`: a walk is a loop over the entries that a scan finds;
* `loop_takeRun`, `loop_pasteRun`: the loops of gathering and scattering cut a sample entry by
  entry;
* `encryptedTotal_eq_scan`, `gather_eq_scan`, `scatter_eq_scan`: what each pass comes to;
* `gather_encode`, `scatter_encode`: the passes over a packed map, wherever its cursor stands.
-/

namespace ContentDecryption

namespace Subsample

/-! ## Walks -/

section Walk

variable {σ : Type} (body : σ → SubSample → Option σ)

/-- The loop of a walk, over entries that were read: what was made, and how many entries were looked
at if the last of them was refused. -/
def loop : σ → List SubSample → Option Nat × σ
  | x, [] => (none, x)
  | x, s :: runs =>
    match body x s with
    | none => (some 1, x)
    | some y =>
      let (looked, z) := loop y runs
      (looked.map (· + 1), z)

/-- A walk is a loop over the entries that a scan finds from the cursor on. -/
theorem Reader.walk_eq (count : Nat) (x : σ) (r : Reader) :
    r.walk body count x =
      let s := scan count (r.map.drop r.pos)
      match loop body x s.entries with
      | (some looked, y) =>
        (.error .invalidDecryptBuffer, y, { r with pos := r.pos + entrySize * looked })
      | (none, y) =>
        (if s.complete then .ok () else .error .invalidDecryptBuffer, y,
          { r with pos := r.pos + s.stop }) := by
  induction count generalizing x r with
  | zero => rfl
  | succ count ih =>
    rw [Reader.walk_succ]
    by_cases hshort : (r.map.drop r.pos).length < entrySize
    · rw [Reader.next_of_short hshort rfl, scan_of_short hshort]
      rfl
    · obtain ⟨s, rest, hdrop⟩ := exists_encodeEntry (Nat.le_of_not_lt hshort)
      have hrest : r.map.drop (r.pos + entrySize) = rest := by
        rw [← List.drop_drop, hdrop, ← length_encodeEntry s, List.drop_left]
      rw [Reader.next_encode hdrop, hdrop, scan_encodeEntry]
      dsimp only
      rw [loop]
      cases body x s with
      | none => rfl
      | some y =>
        dsimp only
        rw [ih, hrest]
        dsimp only
        cases loop body y (scan count rest).entries with
        | mk looked z =>
          cases looked with
          | none =>
            dsimp only [Option.map_none]
            rw [Nat.add_assoc]
          | some looked =>
            dsimp only [Option.map_some]
            rw [Nat.mul_succ, Nat.add_assoc, Nat.add_comm entrySize]

/-- A walk from the start. -/
theorem Reader.walk_rewind (count : Nat) (x : σ) (r : Reader) :
    r.rewind.walk body count x =
      let s := scan count r.map
      match loop body x s.entries with
      | (some looked, y) =>
        (.error .invalidDecryptBuffer, y, { r with pos := entrySize * looked })
      | (none, y) =>
        (if s.complete then .ok () else .error .invalidDecryptBuffer, y,
          { r with pos := s.stop }) := by
  rw [walk_eq, map_rewind, pos_rewind, List.drop_zero]
  simp only [Nat.zero_add]

end Walk

/-! ## Loops -/

theorem loop_add (total : Nat) (runs : List SubSample) :
    loop (fun total s => some (total + s.encrypted)) total runs =
      (none, total + SubSample.totalEncrypted runs) := by
  induction runs generalizing total with
  | nil => rfl
  | cons s runs ih =>
    simp only [loop, ih, Option.map_none]
    rw [Nat.add_assoc]
    rfl

/-- Taking the runs out one by one is cutting what is left of the sample. -/
theorem loop_takeRun (x : Copying) (runs : List SubSample) :
    (∃ looked, collect runs x.rest = .error looked ∧ (loop takeRun x runs).1 = some looked) ∨
      ∃ data y, collect runs x.rest = .ok data ∧ loop takeRun x runs = (none, y) ∧
        y.runs.reverse.flatten = x.runs.reverse.flatten ++ data ∧
        y.regions.reverse = x.regions.reverse ++ regions runs := by
  induction runs generalizing x with
  | nil =>
    refine .inr ⟨[], x, rfl, rfl, (List.append_nil _).symm, ?_⟩
    rw [regions, List.map_nil, List.append_nil]
  | cons s runs ih =>
    rw [loop, takeRun, collect]
    cases (x.rest.split? s.clear).bind fun p => Bytes.split? p.2 s.encrypted with
    | none => exact .inl ⟨1, rfl, rfl⟩
    | some cut =>
      obtain ⟨run, rest⟩ := cut
      dsimp only
      rcases ih ⟨rest, run :: x.runs, ⟨0, s.encryptedBytes⟩ :: x.regions⟩ with
        ⟨looked, hcollect, hloop⟩ | ⟨data, y, hcollect, hloop, hruns, hregions⟩ <;>
        dsimp only at hcollect <;> rw [hcollect]
      · exact .inl ⟨looked + 1, rfl, by rw [hloop]; rfl⟩
      · refine .inr ⟨run ++ data, y, rfl, by rw [hloop]; rfl, ?_, ?_⟩
        · rw [hruns, List.reverse_cons, List.flatten_append, List.flatten_singleton,
            List.append_assoc]
        · rw [hregions, List.reverse_cons, List.append_assoc]
          rfl

/-- Writing the runs one by one is working on what is left on both sides. -/
theorem loop_pasteRun (x : Pasting) (runs : List SubSample) :
    (loop pasteRun x runs).1 = (place runs x.decrypted x.rest).1 ∧
      (loop pasteRun x runs).2.sample =
        x.written.reverse.flatten ++ (place runs x.decrypted x.rest).2 := by
  induction runs generalizing x with
  | nil => exact ⟨rfl, rfl⟩
  | cons s runs ih =>
    rw [loop, pasteRun, place]
    cases x.decrypted.split? s.encrypted with
    | none => exact ⟨rfl, rfl⟩
    | some first =>
      obtain ⟨run, decrypted⟩ := first
      cases x.rest.split? s.length with
      | none => exact ⟨rfl, rfl⟩
      | some second =>
        obtain ⟨divided, rest⟩ := second
        dsimp only
        obtain ⟨hlooked, hsample⟩ :=
          ih ⟨decrypted, rest, (divided.take s.clear ++ run) :: x.written⟩
        rw [hlooked, hsample, List.reverse_cons, List.flatten_append, List.flatten_singleton,
          List.append_assoc]
        exact ⟨rfl, rfl⟩

/-! ## What the passes come to -/

theorem encryptedTotal_eq_scan (r : Reader) (count : Nat) :
    encryptedTotal r count =
      let s := scan count r.map
      (if s.complete then .ok (SubSample.totalEncrypted s.entries)
        else .error .invalidDecryptBuffer, { r with pos := s.stop }) := by
  rw [encryptedTotal, Reader.walk_rewind]
  dsimp only
  rw [loop_add, Nat.zero_add]
  dsimp only
  split_ifs <;> rfl

theorem gather_eq_scan (sample : Bytes) (r : Reader) (count reserved : Nat) :
    gather sample r count reserved =
      let s := scan count r.map
      if s.complete then
        match collect s.entries sample with
        | .error looked => (.error .invalidDecryptBuffer, { r with pos := entrySize * looked })
        | .ok data =>
          let total := SubSample.totalEncrypted s.entries
          (.ok ⟨Bytes.fit (total + reserved) data, total, regions s.entries⟩, r.rewind)
      else (.error .invalidDecryptBuffer, { r with pos := s.stop }) := by
  rw [gather, encryptedTotal_eq_scan]
  dsimp only
  by_cases hcomplete : (scan count r.map).complete = true
  · rw [if_pos hcomplete, if_pos hcomplete]
    dsimp only
    rw [Reader.walk_rewind]
    dsimp only
    rcases loop_takeRun ⟨sample, [], []⟩ (scan count r.map).entries with
      ⟨looked, hcollect, hloop⟩ | ⟨data, y, hcollect, hloop, hruns, hregions⟩ <;>
      dsimp only at hcollect <;> rw [hcollect]
    · generalize loop takeRun ⟨sample, [], []⟩ (scan count r.map).entries = x at hloop ⊢
      obtain ⟨stop, x⟩ := x
      cases hloop
      rfl
    · rw [hloop]
      dsimp only
      rw [if_pos hcomplete]
      dsimp only
      rw [hruns, hregions]
      rfl
  · rw [if_neg hcomplete, if_neg hcomplete]

theorem scatter_eq_scan (decrypted : Bytes) (r : Reader) (count : Nat) (sample : Bytes) :
    scatter decrypted r count sample =
      let s := scan count r.map
      match place s.entries decrypted sample with
      | (some looked, sample') =>
        (.error .invalidDecryptBuffer, { r with pos := entrySize * looked }, sample')
      | (none, sample') =>
        if s.complete then (.ok (), r.rewind, sample')
        else (.error .invalidDecryptBuffer, { r with pos := s.stop }, sample') := by
  rw [scatter, Reader.walk_rewind]
  dsimp only
  obtain ⟨hlooked, hsample⟩ :=
    loop_pasteRun ⟨decrypted, sample, []⟩ (scan count r.map).entries
  dsimp only at hlooked hsample
  rw [List.reverse_nil, List.flatten_nil, List.nil_append] at hsample
  generalize loop pasteRun ⟨decrypted, sample, []⟩ (scan count r.map).entries = x
    at hlooked hsample ⊢
  generalize place (scan count r.map).entries decrypted sample = placed at hlooked hsample ⊢
  obtain ⟨stop, x⟩ := x
  obtain ⟨looked, after⟩ := placed
  dsimp only at hlooked hsample
  subst hlooked hsample
  cases stop with
  | some looked => rfl
  | none =>
    dsimp only
    split_ifs <;> rfl

theorem fit_append_zeros (data : Bytes) (n : Nat) :
    Bytes.fit (data.length + n) data = data ++ Bytes.zeros n := by
  rw [Bytes.fit, List.take_of_length_le (Nat.le_add_right _ _), Nat.add_sub_cancel_left]

/-! ## Packed maps -/

section Packed

variable {runs : List SubSample} {r : Reader} {rest : Bytes}
  (hmap : r.map = encode runs ++ rest)

include hmap

/-- Gathering by a packed map that covers no more than the sample has. -/
theorem gather_encode {sample data : Bytes} (hdata : collect runs sample = .ok data)
    (hlength : data.length = SubSample.totalEncrypted runs) (reserved : Nat) :
    gather sample r runs.length reserved =
      (.ok ⟨data ++ Bytes.zeros reserved, data.length, regions runs⟩, r.rewind) := by
  rw [gather_eq_scan, hmap, scan_encode]
  dsimp only
  rw [if_pos rfl, hdata]
  dsimp only
  rw [← hlength, fit_append_zeros]

/-- Scattering by a packed map, if no run ends too early. -/
theorem scatter_encode {sample decrypted after : Bytes}
    (hplace : place runs decrypted sample = (none, after)) :
    scatter decrypted r runs.length sample = (.ok (), r.rewind, after) := by
  rw [scatter_eq_scan, hmap, scan_encode]
  dsimp only
  rw [hplace]
  rfl

end Packed

end Subsample

end ContentDecryption
