import Mathlib.Data.List.GetD

/-!
# Entries of lists

What becomes of the entries of a list when one of them is changed in place, or one more is put
at the end. The tables of a client, the parties of a channel and the sessions of a service are
lists of this kind.
-/

namespace ContentDecryption

/-! ## Changes in place -/

/-- After a change in place, an entry is as it was, or it is the one that was changed. -/
theorem getD_modify_cases {α : Type} (l : List α) (i k : Nat) (f : α → α) (d : α) :
    (l.modify i f).getD k d = l.getD k d ∨
      (i = k ∧ k < l.length ∧ (l.modify i f).getD k d = f (l.getD k d)) := by
  simp only [List.getD_eq_getElem?_getD, List.getElem?_modify]
  by_cases hk : k < l.length
  · rw [List.getElem?_eq_getElem hk]
    by_cases h : i = k
    · exact .inr ⟨h, hk, by simp [h]⟩
    · exact .inl (by simp [h])
  · rw [List.getElem?_eq_none (by omega)]
    exact .inl rfl

/-- What a change in place leaves alone is the same in all entries. -/
theorem getD_modify_congr {α β : Type} {f : α → α} {g : α → β} (h : ∀ x, g (f x) = g x)
    (l : List α) (i k : Nat) (d : α) : g ((l.modify i f).getD k d) = g (l.getD k d) := by
  rcases getD_modify_cases l i k f d with he | ⟨-, -, he⟩
  · rw [he]
  · rw [he, h]

/-- An entry after a change in place is another one, or what the change makes of it. -/
theorem getElem?_modify_cases {α : Type} {l : List α} {i k : Nat} {f : α → α} {x : α}
    (h : (l.modify i f)[k]? = some x) :
    (i ≠ k ∧ l[k]? = some x) ∨ (i = k ∧ ∃ y, l[k]? = some y ∧ x = f y) := by
  rw [List.getElem?_modify] at h
  obtain ⟨y, hy, rfl⟩ := Option.map_eq_some_iff.1 h
  by_cases hk : i = k
  · exact .inr ⟨hk, y, hy, if_pos hk⟩
  · exact .inl ⟨hk, by rw [if_neg hk, hy]⟩

/-- What a change in place does to a count. -/
theorem countP_modify {α : Type} {p : α → Bool} {f : α → α} {l : List α} {k : Nat} {x : α}
    (h : l[k]? = some x) :
    (l.modify k f).countP p + (if p x then 1 else 0) =
      l.countP p + (if p (f x) then 1 else 0) := by
  induction l generalizing k with
  | nil => cases h
  | cons y l ih =>
    cases k with
    | zero =>
      cases h
      simp only [List.modify_zero_cons, List.countP_cons]
      omega
    | succ k =>
      have hrest := ih h
      simp only [List.modify_succ_cons, List.countP_cons]
      omega

/-- What a change in place leaves alone is the same all along the list. -/
theorem map_modify_of_comp {α β : Type} {f : α → α} {g : α → β} (h : ∀ x, g (f x) = g x)
    (l : List α) (k : Nat) : (l.modify k f).map g = l.map g := by
  induction l generalizing k with
  | nil => rw [List.modify_nil]
  | cons x l ih =>
    cases k with
    | zero => rw [List.modify_zero_cons, List.map_cons, List.map_cons, h]
    | succ k => rw [List.modify_succ_cons, List.map_cons, List.map_cons, ih]

/-! ## One more entry -/

/-- What a list says that was written last first. -/
theorem filterMap_reverse_cons {α β : Type} (f : α → Option β) (x : α) (l : List α) :
    (x :: l).reverse.filterMap f = l.reverse.filterMap f ++ (f x).toList := by
  rw [List.reverse_cons, List.filterMap_append]
  cases h : f x <;> simp [h]

/-- With one more entry, a list has an old entry there, the new one, or none. -/
theorem getD_concat_cases {α : Type} (l : List α) (x : α) (k : Nat) (d : α) :
    (k < l.length ∧ (l ++ [x]).getD k d = l.getD k d) ∨ (l ++ [x]).getD k d = x ∨
      (l ++ [x]).getD k d = d := by
  by_cases hk : k < l.length
  · exact .inl ⟨hk, List.getD_append _ _ _ _ hk⟩
  · rw [List.getD_append_right _ _ _ _ (Nat.le_of_not_lt hk)]
    cases k - l.length with
    | zero => exact .inr (.inl rfl)
    | succ j => exact .inr (.inr rfl)

/-- A list with one more entry at its end has the old entries where they were. -/
theorem getElem?_concat_cases {α : Type} {l : List α} {x y : α} {k : Nat}
    (h : (l ++ [x])[k]? = some y) : l[k]? = some y ∨ (k = l.length ∧ y = x) := by
  by_cases hk : k < l.length
  · rw [List.getElem?_append_left hk] at h
    exact .inl h
  · rw [List.getElem?_append_right (by omega)] at h
    obtain ⟨hlt, hy⟩ := List.getElem?_eq_some_iff.1 h
    have hlast : k = l.length := by
      simp only [List.length_cons, List.length_nil] at hlt
      omega
    refine .inr ⟨hlast, ?_⟩
    subst hlast
    simpa using hy.symm

end ContentDecryption
