import ContentDecryption.Proofs.Subsample.Reading
import ContentDecryption.Subsample.Gather
import Mathlib.Tactic.SplitIfs

/-!
# Passes from anywhere

Every pass puts the cursor back to the start and walks from there, so where the cursor
stood makes no difference to it. A read that fails may leave the cursor between the two
halves of an entry. It stays inside the map, and less than an entry is left there, so the
next read fails as well.

Main definitions:

* `Reader.nextMany`: a list of entries, read one after the other;
* `Reader.Use`, `Reader.afterAll`: what can be done with a cursor, and where it stands afterwards.

Main results:

* `Reader.over_afterAll`: the cursor never leaves the map;
* `Reader.reading_from_anywhere`: packing and reading are inverse, and no pass depends on what was
  done with the cursor before.
-/

namespace ContentDecryption

namespace Subsample

namespace Reader

/-! ## Where the cursor stands -/

/-- A cursor over this map that stands inside it, or at its end. -/
def Over (m : Bytes) (r : Reader) : Prop := r.map = m ∧ r.pos ≤ m.length

variable {m : Bytes} {r : Reader}

theorem Over.rewind (h : Over m r) : Over m r.rewind := ⟨h.1, Nat.zero_le _⟩

/-- A read that fails moves the cursor by half an entry at most, and not past the end. -/
theorem Over.next (h : Over m r) : Over m r.next.2 := by
  obtain ⟨hmap, hpos⟩ := h
  have hlength : (r.map.drop r.pos).length = m.length - r.pos := by
    rw [hmap, List.length_drop]
  by_cases hshort : (r.map.drop r.pos).length < entrySize
  · rw [next_of_short hshort rfl]
    refine ⟨hmap, ?_⟩
    dsimp only
    split_ifs <;> omega
  · obtain ⟨s, rest, hdrop⟩ := exists_encodeEntry (Nat.le_of_not_lt hshort)
    rw [next_encode hdrop]
    exact ⟨hmap, show r.pos + entrySize ≤ m.length by omega⟩

theorem Over.walk {σ : Type} (body : σ → SubSample → Option σ) (count : Nat) (x : σ)
    (h : Over m r) : Over m (r.walk body count x).2.2 := by
  induction count generalizing x r with
  | zero => exact h
  | succ count ih =>
    have hnext := h.next
    rw [Reader.walk_succ]
    generalize r.next = next at hnext ⊢
    obtain ⟨result, r'⟩ := next
    cases result with
    | error e => exact hnext
    | ok s =>
      dsimp only
      cases body x s with
      | none => exact hnext
      | some y => exact ih y hnext

/-- What can be done with a cursor. -/
inductive Use
  | next
  | setPos (pos : Nat)
  | total (count : Nat)
  | gather (sample : Bytes) (count reserved : Nat)
  | scatter (decrypted : Bytes) (count : Nat) (sample : Bytes)

/-- The cursor after one use, be it successful or not. -/
def after (r : Reader) : Use → Reader
  | .next => r.next.2
  | .setPos pos => (r.setPos pos).2
  | .total count => (encryptedTotal r count).2
  | .gather sample count reserved => (Subsample.gather sample r count reserved).2
  | .scatter decrypted count sample => (Subsample.scatter decrypted r count sample).2.1

/-- The cursor after a list of uses. -/
def afterAll (r : Reader) (uses : List Use) : Reader := uses.foldl after r

theorem Over.total (h : Over m r) (count : Nat) : Over m (encryptedTotal r count).2 := by
  rw [encryptedTotal]
  exact h.rewind.walk _ count 0

/-- One use leaves the cursor over its map. -/
theorem Over.after (h : Over m r) (u : Use) : Over m (r.after u) := by
  cases u with
  | next => exact h.next
  | setPos pos =>
    rw [Reader.after, setPos]
    split_ifs with hpos
    · exact ⟨h.1, h.1 ▸ hpos⟩
    · exact h
  | total count => exact h.total count
  | gather sample count reserved =>
    have htotal := h.total count
    rw [Reader.after, Subsample.gather]
    generalize encryptedTotal r count = first at htotal ⊢
    obtain ⟨result, r'⟩ := first
    cases result with
    | error e => exact htotal
    | ok total =>
      have hwalk := htotal.rewind.walk takeRun count ⟨sample, [], []⟩
      dsimp only at hwalk ⊢
      generalize r'.rewind.walk takeRun count ⟨sample, [], []⟩ = second at hwalk ⊢
      obtain ⟨result, x, r''⟩ := second
      cases result with
      | error e => exact hwalk
      | ok => exact hwalk.rewind
  | scatter decrypted count sample =>
    have hwalk := h.rewind.walk pasteRun count ⟨decrypted, sample, []⟩
    rw [Reader.after, Subsample.scatter]
    generalize r.rewind.walk pasteRun count ⟨decrypted, sample, []⟩ = pass at hwalk ⊢
    obtain ⟨result, x, r'⟩ := pass
    cases result with
    | error e => exact hwalk
    | ok => exact hwalk.rewind

/-- The cursor never leaves its map. -/
theorem over_afterAll (h : Over m r) (uses : List Use) : Over m (r.afterAll uses) := by
  induction uses generalizing r with
  | nil => exact h
  | cons u uses ih => exact ih (h.after u)

/-- Once less than an entry is left, reading fails however often it is tried. -/
theorem next_afterAll_of_short (n : Nat)
    (hshort : (r.map.drop r.pos).length < entrySize) :
    (r.afterAll (List.replicate n .next)).next.1 = .error .invalidDecryptBuffer := by
  induction n generalizing r with
  | zero =>
    rw [List.replicate_zero, afterAll, List.foldl_nil, next_of_short hshort rfl]
  | succ n ih =>
    rw [List.replicate_succ]
    refine ih (r := r.after .next) ?_
    rw [Reader.after, next_of_short hshort rfl]
    dsimp only
    rw [← List.drop_drop, List.length_drop]
    omega

/-! ## Reading many entries -/

/-- Reads `count` entries one after the other. -/
def nextMany : Nat → Reader → Except Error (List SubSample) × Reader
  | 0, r => (.ok [], r)
  | count + 1, r =>
    match r.next with
    | (.error e, r') => (.error e, r')
    | (.ok s, r') =>
      let (more, r'') := nextMany count r'
      (more.map (s :: ·), r'')

/-- As many entries as are there are read, and the cursor moves past them. -/
theorem nextMany_of_le {count : Nat} (h : entrySize * count ≤ (r.map.drop r.pos).length) :
    r.nextMany count = (.ok ((entries (r.map.drop r.pos)).take count),
      { r with pos := r.pos + entrySize * count }) := by
  induction count generalizing r with
  | zero => rfl
  | succ count ih =>
    rw [Nat.mul_succ] at h
    obtain ⟨s, rest, hdrop⟩ := exists_encodeEntry (m := r.map.drop r.pos) (by omega)
    have hrest : r.map.drop (r.pos + entrySize) = rest := by
      rw [← List.drop_drop, hdrop, ← length_encodeEntry s, List.drop_left]
    rw [nextMany, next_encode hdrop]
    dsimp only
    rw [hdrop, List.length_append, length_encodeEntry] at h
    rw [ih (by rw [hrest]; omega), hrest, hdrop, entries_encodeEntry, List.take_succ_cons,
      Nat.mul_succ, Nat.add_assoc, Nat.add_comm entrySize]
    rfl

/-- **Reading does not depend on what was done before.**

* Reading as many entries as were packed gives them back, and ends at the end of the map;
* packing again as many entries as a map has, or fewer, gives the bytes they were read from;
* after any uses of a cursor, failed ones included, it stands inside its map; an entry is read
  exactly if six bytes are left; once reading has failed it fails until something else is done; and
  every pass comes to the same result, and leaves the cursor where it would, as with a new cursor
  over the same map. -/
theorem reading_from_anywhere :
    (∀ l : List SubSample,
      (Reader.mk (encode l) 0).nextMany l.length = (.ok l, ⟨encode l, (encode l).length⟩)) ∧
    (∀ (m : Bytes) (count : Nat), count ≤ (Reader.mk m 0).capacity →
      ∃ l, (Reader.mk m 0).nextMany count = (.ok l, ⟨m, entrySize * count⟩) ∧
        encode l = m.take (entrySize * count)) ∧
    ∀ (m : Bytes) (uses : List Use),
      let r := (Reader.mk m 0).afterAll uses
      (r.map = m ∧ r.pos ≤ m.length) ∧
      ((∃ s, r.next.1 = .ok s) ↔ r.pos + entrySize ≤ m.length) ∧
      (∀ e, r.next.1 = .error e →
        ∀ n, (r.afterAll (List.replicate n .next)).next.1 = .error .invalidDecryptBuffer) ∧
      (∀ count, encryptedTotal r count = encryptedTotal ⟨m, 0⟩ count) ∧
      (∀ sample count reserved,
        gather sample r count reserved = gather sample ⟨m, 0⟩ count reserved) ∧
      (∀ decrypted count sample,
        scatter decrypted r count sample = scatter decrypted ⟨m, 0⟩ count sample) := by
  refine ⟨fun l => ?_, fun m count hcount => ?_, fun m uses => ?_⟩
  · rw [nextMany_of_le (r := ⟨encode l, 0⟩) (Nat.le_of_eq (length_encode l).symm)]
    dsimp only
    rw [List.drop_zero, entries_encode, List.take_length, Nat.zero_add, length_encode]
  · have hroom : entrySize * count ≤ m.length := by
      rw [← le_length_entries_iff, length_entries]
      exact hcount
    refine ⟨_, nextMany_of_le (r := ⟨m, 0⟩) hroom |>.trans ?_, encode_take_entries hroom⟩
    dsimp only
    rw [List.drop_zero, Nat.zero_add]
  · have hover : Over m ((Reader.mk m 0).afterAll uses) :=
      over_afterAll (r := ⟨m, 0⟩) ⟨rfl, Nat.zero_le _⟩ uses
    generalize (Reader.mk m 0).afterAll uses = r at hover
    dsimp only
    have hrewind : r.rewind = (Reader.mk m 0).rewind := by
      rw [rewind, rewind, hover.1]
    have htotal (count : Nat) : encryptedTotal r count = encryptedTotal ⟨m, 0⟩ count := by
      rw [encryptedTotal, encryptedTotal, hrewind]
    refine ⟨hover, hover.1 ▸ next_eq_ok_iff r, fun e he n => ?_, htotal,
      fun sample count reserved => ?_, fun decrypted count sample => ?_⟩
    · refine next_afterAll_of_short n (Nat.lt_of_not_le fun hroom => ?_)
      rw [List.length_drop, entrySize] at hroom
      obtain ⟨s, hs⟩ := (next_eq_ok_iff r).2 (by rw [entrySize]; omega)
      rw [he] at hs
      cases hs
    · rw [Subsample.gather, Subsample.gather, htotal]
    · rw [Subsample.scatter, Subsample.scatter, hrewind]

/-- One entry and half of another: the second read fails between the halves and goes on failing,
and the sum over the first entry is what it would have been before. -/
theorem reading_from_anywhere_truncated :
    let m := encode [⟨1, 2⟩] ++ [0, 3]
    let r := (Reader.mk m 0).afterAll [.next, .next]
    r.pos = 8 ∧ (∀ n, (r.afterAll (List.replicate n .next)).next.1 = .error .invalidDecryptBuffer) ∧
      encryptedTotal r 1 = encryptedTotal ⟨m, 0⟩ 1 ∧
      ∃ l, (Reader.mk m 0).nextMany 1 = (.ok l, ⟨m, 6⟩) ∧ encode l = m.take 6 := by
  obtain ⟨-, hpacked, hany⟩ := reading_from_anywhere
  obtain ⟨-, -, hfails, htotal, -⟩ := hany (encode [⟨1, 2⟩] ++ [0, 3]) [.next, .next]
  exact ⟨by decide, hfails .invalidDecryptBuffer rfl, htotal 1, hpacked _ 1 (by decide)⟩

end Reader

end Subsample

end ContentDecryption
