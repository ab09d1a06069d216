import ContentDecryption.Client.SessionTable
import ContentDecryption.Proofs.SharedMemory.Naming
import Mathlib.Data.List.Nodup
import Mathlib.Tactic.SplitIfs

/-!
# What session tables list

A table that lists every ID once gives each entry back under its ID. Registering and
taking out keep it so, and neither moves another session that lives.

Main results:

* `SessionTable.lookup_register`, `SessionTable.lookup_unregister`: a living session stays where
  it is;
* `SessionTable.lookup_of_mem`: what is listed is found;
* `SessionTable.not_mem_unregister`: what was taken out is not listed;
* `SessionTable.nodup_register`, `SessionTable.mem_register_cases`: an entry may take the place of
  another one;
* `SessionTable.find?_unregister_register`, `SessionTable.living_unregister_register`: who is
  registered and taken out again leaves no trace.
-/

namespace ContentDecryption

namespace SessionTable

variable {t : SessionTable} {alive : SessionRef → Bool} {id other : String} {i s : SessionRef}

/-- An ID stays with its session for as long as that lives, whoever is registered. -/
theorem lookup_register (h : t.lookup other = some i) (halive : alive i = true) :
    (t.register alive id s).lookup other = some i := by
  unfold register
  split_ifs with htaken
  · exact h
  · have hne : id ≠ other := by
      rintro rfl
      rw [h] at htaken
      exact htaken halive
    rw [List.lookup_append, clear, SharedMemory.lookup_filter_ne hne, h]
    rfl

/-- Taking one session out leaves the others where they are. -/
theorem lookup_unregister (h : t.lookup other = some i) (hne : i ≠ s) :
    (t.unregister id s).lookup other = some i := by
  unfold unregister
  split_ifs with hown
  · have hid : id ≠ other := by
      rintro rfl
      exact hne (Option.some.inj (h.symm.trans hown))
    rw [clear, SharedMemory.lookup_filter_ne hid, h]
  · exact h

theorem mem_of_lookup (h : t.lookup id = some i) : (id, i) ∈ t := by
  obtain ⟨first, last, rfl, -⟩ := List.lookup_eq_some_iff.1 h
  simp

/-- A table that has every ID once gives each entry back. -/
theorem lookup_of_mem (hd : (t.map Prod.fst).Nodup) (h : (id, i) ∈ t) : t.lookup id = some i := by
  induction t with
  | nil => cases h
  | cons entry t ih =>
    obtain ⟨hnew, hd⟩ := List.nodup_cons.1 hd
    rcases List.mem_cons.1 h with rfl | h
    · exact List.lookup_cons_self
    · have hne : (id == entry.1) = false := by
        refine beq_eq_false_iff_ne.2 ?_
        rintro rfl
        exact hnew (List.mem_map.2 ⟨_, h, rfl⟩)
      rw [List.lookup_cons, hne]
      exact ih hd h

theorem clear_sublist (t : SessionTable) (id : String) : (t.clear id).Sublist t :=
  List.filter_sublist

theorem ne_of_mem_clear {entry : String × SessionRef} (h : entry ∈ t.clear id) : entry.1 ≠ id := by
  simpa using (List.mem_filter.1 h).2

theorem lookup_clear_self (t : SessionTable) (id : String) : (t.clear id).lookup id = none :=
  List.lookup_eq_none_iff.2 fun _ hentry => bne_iff_ne.2 (ne_of_mem_clear hentry).symm

theorem unregister_sublist (t : SessionTable) (id : String) (s : SessionRef) :
    (t.unregister id s).Sublist t := by
  unfold unregister
  split_ifs
  · exact t.clear_sublist id
  · exact .refl t

/-- A session that was taken out is not listed under its ID. -/
theorem not_mem_unregister (hd : (t.map Prod.fst).Nodup) : (id, s) ∉ t.unregister id s := by
  unfold unregister
  split_ifs with hown
  · exact fun h => ne_of_mem_clear h rfl
  · exact fun h => hown (lookup_of_mem hd h)

theorem register_of_taken (h : (t.lookup id).any alive = true) : t.register alive id s = t :=
  if_pos h

theorem register_of_free (h : (t.lookup id).any alive = false) :
    t.register alive id s = t.clear id ++ [(id, s)] :=
  if_neg (by rw [h]; exact Bool.false_ne_true)

/-- With a new entry in the place of an old one, a table still has every ID once. -/
theorem nodup_clear_concat (hd : (t.map Prod.fst).Nodup) :
    ((t.clear id ++ [(id, s)]).map Prod.fst).Nodup := by
  rw [List.map_append, List.nodup_append]
  refine ⟨hd.sublist ((t.clear_sublist id).map _), List.nodup_singleton id, ?_⟩
  rintro a ha b hb rfl
  obtain ⟨entry, hentry, rfl⟩ := List.mem_map.1 ha
  exact ne_of_mem_clear hentry (List.mem_singleton.1 hb)

/-- Whoever is registered, a table still has every ID once. -/
theorem nodup_register (hd : (t.map Prod.fst).Nodup) :
    ((t.register alive id s).map Prod.fst).Nodup := by
  unfold register
  split_ifs
  · exact hd
  · exact nodup_clear_concat hd

/-- What is listed after a registration was listed before, or it is new. -/
theorem mem_register_cases {entry : String × SessionRef} (h : entry ∈ t.register alive id s) :
    entry ∈ t ∨ entry = (id, s) := by
  unfold register at h
  split_ifs at h
  · exact .inl h
  · rcases List.mem_append.1 h with h | h
    · exact .inl ((t.clear_sublist id).subset h)
    · exact .inr (List.mem_singleton.1 h)

/-- Under an ID that is free, the session is listed. -/
theorem mem_register_of_free (h : (t.lookup id).any alive = false) :
    (id, s) ∈ t.register alive id s := by
  rw [register_of_free h]
  exact List.mem_append_right _ (List.mem_singleton_self _)

/-! ## Registering in vain -/

/-- An entry that is not of a living session is missed by nobody who looks for one. -/
theorem find?_clear (hdead : (t.lookup id).any alive = false) (other : String) :
    (t.clear id).find? alive other = t.find? alive other := by
  unfold find?
  by_cases hid : id = other
  · subst hid
    rw [lookup_clear_self]
    refine (Option.filter_eq_none_iff.2 fun j hj => ?_).symm
    rw [hj] at hdead
    exact Bool.not_eq_true _ ▸ hdead
  · rw [clear, SharedMemory.lookup_filter_ne hid]

theorem living_clear (hdistinct : (t.map Prod.fst).Nodup)
    (hdead : (t.lookup id).any alive = false) : (t.clear id).living alive = t.living alive := by
  have hgone : ∀ entry ∈ t, (alive entry.2 && (entry.1 != id)) = alive entry.2 := by
    rintro ⟨other, j⟩ hentry
    by_cases hid : other = id
    · subst hid
      rw [lookup_of_mem hdistinct hentry] at hdead
      have hj : alive j = false := hdead
      rw [hj, Bool.false_and]
    · rw [bne_iff_ne.2 hid, Bool.and_true]
  unfold living clear
  rw [List.filter_map, List.filter_map, List.filter_filter]
  exact congrArg _ (List.filter_congr hgone)

/-- A session that is registered and taken out again leaves the table as it was, but for an entry
under its ID that was of no living session. -/
theorem unregister_register_cases {now : SessionRef → Bool} (hnew : alive s = false)
    (hnow : ∀ j, j ≠ s → now j = alive j) :
    (t.register now id s).unregister id s = t ∨
      ((t.register now id s).unregister id s = t.clear id ∧ (t.lookup id).any alive = false) := by
  cases htaken : (t.lookup id).any now with
  | true =>
    rw [register_of_taken htaken]
    unfold unregister
    split_ifs with hown
    · exact .inr ⟨rfl, by rw [hown]; exact hnew⟩
    · exact .inl rfl
  | false =>
    have hlast : (t.clear id ++ [(id, s)]).lookup id = some s := by
      rw [List.lookup_append, lookup_clear_self]
      exact List.lookup_cons_self
    have hcleared : (t.clear id ++ [(id, s)]).clear id = t.clear id := by
      rw [clear, List.filter_append, List.filter_cons_of_neg (by simp), List.filter_nil,
        List.append_nil]
      exact List.filter_eq_self.2 fun _ hentry => bne_iff_ne.2 (ne_of_mem_clear hentry)
    rw [register_of_free htaken, unregister, if_pos hlast]
    refine .inr ⟨hcleared, ?_⟩
    cases hlookup : t.lookup id with
    | none => rfl
    | some j =>
      rw [hlookup] at htaken
      by_cases hj : j = s
      · rw [hj]
        exact hnew
      · exact (hnow j hj).symm.trans htaken

/-- Whoever looks for a session finds the one that was found before. -/
theorem find?_unregister_register {now : SessionRef → Bool} (hnew : alive s = false)
    (hnow : ∀ j, j ≠ s → now j = alive j) (other : String) :
    ((t.register now id s).unregister id s).find? alive other = t.find? alive other := by
  rcases unregister_register_cases hnew hnow with hsame | ⟨hcleared, hdead⟩
  · rw [hsame]
  · rw [hcleared, find?_clear hdead]

theorem living_unregister_register {now : SessionRef → Bool}
    (hdistinct : (t.map Prod.fst).Nodup) (hnew : alive s = false)
    (hnow : ∀ j, j ≠ s → now j = alive j) :
    ((t.register now id s).unregister id s).living alive = t.living alive := by
  rcases unregister_register_cases hnew hnow with hsame | ⟨hcleared, hdead⟩
  · rw [hsame]
  · rw [hcleared, living_clear hdistinct hdead]

end SessionTable

end ContentDecryption
