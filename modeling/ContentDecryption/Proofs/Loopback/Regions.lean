import ContentDecryption.Loopback.Cipher
import Mathlib.Data.List.GetD
import Mathlib.Tactic.SplitIfs

/-!
# What the loopback cipher does to each byte

The cipher goes through a sample run by run. Here the same is said byte by byte: the
bytes of the encrypted runs, counted through all runs in order, are combined with the
bytes of the repeated key, and no other byte changes. A run that ends past the sample
ends the decryption, and only the runs in front of it count.

Main definitions:

* `encryptedPositions`: where the encrypted bytes are, in order;
* `fitting`: the runs in front of the first that ends past the sample;
* `Applied`: a key was applied at some positions and nothing else was changed.

Main results:

* `applied_decryptRuns`, `status_decryptRuns`: what a walk through the runs does;
* `applied_decryptSample`: what the handler of the loopback engine does with a key.
-/

namespace ContentDecryption

namespace Loopback

/-! ## Positions -/

/-- The positions of the encrypted bytes, in order. -/
def encryptedPositions : List SubSample → List Nat
  | [] => []
  | s :: runs =>
    List.range' s.clear s.encrypted ++ (encryptedPositions runs).map fun p => s.length + p

/-- The runs in front of the first one that ends past `n` bytes. -/
def fitting (n : Nat) : List SubSample → List SubSample
  | [] => []
  | s :: runs => if s.length ≤ n then s :: fitting (n - s.length) runs else []

theorem totalLength_cons (s : SubSample) (runs : List SubSample) :
    SubSample.totalLength (s :: runs) = s.length + SubSample.totalLength runs := rfl

/-! ## Applying a key -/

/-- `after` is `before` with the key applied to the bytes at these positions, from byte `index` of
the repeated key on. -/
structure Applied (key : Bytes) (index : Nat) (positions : List Nat) (before after : Bytes) :
    Prop where
  length : after.length = before.length
  encrypted : ∀ {j p : Nat}, positions[j]? = some p →
    after.getD p 0 = before.getD p 0 ^^^ key.getD ((index + j) % key.length) 0
  other : ∀ {p : Nat}, p ∉ positions → after.getD p 0 = before.getD p 0

namespace Applied

variable {key : Bytes} {index : Nat}

theorem nil (b : Bytes) : Applied key index [] b b where
  length := rfl
  encrypted := fun h => nomatch h
  other := fun _ => rfl

theorem applyKey (b : Bytes) :
    Applied key index (List.range b.length) b (applyKey key index b) where
  length := length_applyKey key index b
  encrypted := by
    intro j p h
    obtain ⟨hj, rfl⟩ := List.getElem?_eq_some_iff.1 h
    rw [List.length_range] at hj
    rw [List.getElem_range, List.getD_eq_getElem _ _ (by rw [length_applyKey]; exact hj),
      List.getD_eq_getElem _ _ hj]
    simp [Loopback.applyKey]
  other := by
    intro p h
    rw [List.mem_range] at h
    rw [List.getD_eq_default _ _ (by rw [length_applyKey]; omega),
      List.getD_eq_default _ _ (by omega)]

/-- First one part, then the next, with the key running on. -/
theorem append {ps qs : List Nat} {a a' b b' : Bytes} (ha : Applied key index ps a a')
    (hb : Applied key (index + ps.length) qs b b') (hps : ∀ p ∈ ps, p < a.length) :
    Applied key index (ps ++ qs.map fun p => a.length + p) (a ++ b) (a' ++ b') where
  length := by rw [List.length_append, List.length_append, ha.length, hb.length]
  encrypted := by
    intro j p h
    by_cases hj : j < ps.length
    · rw [List.getElem?_append_left hj] at h
      have hp := hps p (List.mem_of_getElem? h)
      rw [List.getD_append _ _ _ _ (by rw [ha.length]; exact hp), List.getD_append _ _ _ _ hp]
      exact ha.encrypted h
    · rw [List.getElem?_append_right (by omega), List.getElem?_map] at h
      obtain ⟨q, hq, rfl⟩ := Option.map_eq_some_iff.1 h
      have hkey : index + j = index + ps.length + (j - ps.length) := by omega
      rw [List.getD_append_right _ _ _ _ (by rw [ha.length]; omega),
        List.getD_append_right _ _ _ _ (by omega), ha.length, Nat.add_sub_cancel_left, hkey]
      exact hb.encrypted hq
  other := by
    intro p h
    rw [List.mem_append, not_or] at h
    by_cases hp : p < a.length
    · rw [List.getD_append _ _ _ _ (by rw [ha.length]; exact hp), List.getD_append _ _ _ _ hp]
      exact ha.other h.1
    · rw [List.getD_append_right _ _ _ _ (by rw [ha.length]; omega),
        List.getD_append_right _ _ _ _ (by omega), ha.length]
      refine hb.other fun hq => h.2 (List.mem_map.2 ⟨p - a.length, hq, ?_⟩)
      omega

end Applied

/-- One run: its clear bytes stay, and the key is applied to the others. -/
theorem applied_run {key : Bytes} {index : Nat} {s : SubSample} {start : Bytes}
    (h : start.length = s.length) : Applied key index (List.range' s.clear s.encrypted) start
      (start.take s.clear ++ applyKey key index (start.drop s.clear)) := by
  rw [SubSample.length_eq] at h
  have hnil : Applied key index [] (start.take s.clear) (start.take s.clear) := .nil _
  have hboth := hnil.append (Applied.applyKey (start.drop s.clear)) (fun p hp => nomatch hp)
  have hclear : (start.take s.clear).length = s.clear := by
    rw [List.length_take]
    omega
  have hencrypted : (start.drop s.clear).length = s.encrypted := by
    rw [List.length_drop]
    omega
  rw [List.take_append_drop, List.nil_append, hclear, hencrypted] at hboth
  rwa [List.range'_eq_map_range]

/-! ## A sample -/

theorem applied_decryptRuns (key : Bytes) (runs : List SubSample) (index : Nat) (data : Bytes) :
    Applied key index (encryptedPositions (fitting data.length runs)) data
      (decryptRuns key runs index data).2 := by
  induction runs generalizing index data with
  | nil => exact Applied.nil data
  | cons s runs ih =>
    rw [decryptRuns, fitting]
    cases hsplit : data.split? s.length with
    | none =>
      rw [if_neg (by have := Bytes.split?_eq_none_iff.1 hsplit; omega)]
      exact Applied.nil data
    | some parts =>
      obtain ⟨start, rest⟩ := parts
      obtain ⟨rfl, hstart⟩ := Bytes.split?_eq_some_iff.1 hsplit
      have hrest : (start ++ rest).length - s.length = rest.length := by
        rw [List.length_append, hstart]
        omega
      rw [if_pos (by rw [List.length_append]; omega), hrest, encryptedPositions, ← hstart]
      refine (applied_run hstart).append ?_ fun p hp => ?_
      · rw [List.length_range']
        exact ih (index + s.encrypted) rest
      · rw [hstart, SubSample.length_eq]
        have := List.mem_range'_1.1 hp
        omega

theorem status_decryptRuns (key : Bytes) (runs : List SubSample) (index : Nat) (data : Bytes) :
    (decryptRuns key runs index data).1 =
      if SubSample.totalLength runs ≤ data.length then Status.none
      else Status.invalidDecryptBuffer := by
  induction runs generalizing index data with
  | nil => exact (if_pos (Nat.zero_le _)).symm
  | cons s runs ih =>
    rw [decryptRuns, totalLength_cons]
    cases hsplit : data.split? s.length with
    | none =>
      rw [if_neg (by have := Bytes.split?_eq_none_iff.1 hsplit; omega)]
    | some parts =>
      obtain ⟨start, rest⟩ := parts
      obtain ⟨rfl, hstart⟩ := Bytes.split?_eq_some_iff.1 hsplit
      refine (ih (index + s.encrypted) rest).trans ?_
      rw [List.length_append]
      by_cases h : SubSample.totalLength runs ≤ rest.length
      · rw [if_pos h, if_pos (by omega)]
      · rw [if_neg h, if_neg (by omega)]

/-- The positions at which a sample of `n` bytes is decrypted: all of them if it is not divided. -/
def decryptedPositions (n : Nat) (subsamples : List SubSample) : List Nat :=
  if subsamples.isEmpty then List.range n else encryptedPositions (fitting n subsamples)

/-- What the handler of the loopback engine does with a sample for which it has the key. -/
theorem applied_decryptSample {keys : List (KeyId × Bytes)} {d : Channel.Delivery} {key : Bytes}
    (hscheme : d.info.scheme ≠ .clear) (hkey : findKey? keys d.info.keyId = some key) :
    Applied key 0 (decryptedPositions d.data.length d.info.subsamples) d.data
        (decryptSample keys d).2 ∧
      (decryptSample keys d).1 =
        if SubSample.totalLength d.info.subsamples ≤ d.data.length then Status.none
        else Status.invalidDecryptBuffer := by
  rw [decryptSample, if_neg hscheme, hkey, decryptedPositions]
  cases hsubsamples : d.info.subsamples with
  | nil => exact ⟨Applied.applyKey d.data, (if_pos (Nat.zero_le _)).symm⟩
  | cons s runs =>
    exact ⟨applied_decryptRuns key (s :: runs) 0 d.data,
      status_decryptRuns key (s :: runs) 0 d.data⟩

end Loopback

end ContentDecryption
