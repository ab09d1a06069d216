import ContentDecryption.SharedMemory.Namespace

/-!
# Making objects and finding them

What making an object of shared memory, changing one and taking a name away do to the
objects and to the names.

Main results:

* `SharedMemory.unlink_link`: a name that is given and taken back was never there;
* `SharedMemory.create_cases`: an object is made with the next free number, under a name that
  nothing had, or nothing has changed;
* `SharedMemory.object_setObject_self`, `SharedMemory.object_setObject_of_ne`: a change is seen at
  the object that was changed and nowhere else;
* `SharedMemory.lookup_place`, `SharedMemory.lookup_unlink`: what the names lead to afterwards;
* `SharedMemory.lookup_of_attach`: an object is only found under a path that leads to it.
-/

namespace ContentDecryption

namespace SharedMemory

/-! ## Objects -/

@[simp] theorem length_objects_setObject (m : SharedMemory) (i : Nat) (o : SharedObject) :
    (m.setObject i o).objects.length = m.objects.length := List.length_set

theorem object_setObject_self (m : SharedMemory) {i : Nat} (o : SharedObject)
    (h : i < m.objects.length) : (m.setObject i o).object i = o := by
  unfold object setObject
  rw [List.getD_eq_getElem?_getD, List.getElem?_set_self h]
  rfl

theorem object_setObject_of_ne (m : SharedMemory) {i k : Nat} (o : SharedObject) (h : i ≠ k) :
    (m.setObject i o).object k = m.object k := by
  unfold object setObject
  rw [List.getD_eq_getElem?_getD, List.getElem?_set_ne h, ← List.getD_eq_getElem?_getD]

theorem object_place (m : SharedMemory) (path : String) (size : Nat) {k : Nat}
    (h : k < m.objects.length) : (m.place path size).2.object k = m.object k := by
  unfold object place
  rw [List.getD_eq_getElem?_getD, List.getElem?_append_left h, ← List.getD_eq_getElem?_getD]

theorem object_place_self (m : SharedMemory) (path : String) (size : Nat) :
    (m.place path size).2.object m.objects.length = ⟨size, []⟩ := by
  unfold object place
  rw [List.getD_eq_getElem?_getD, List.getElem?_concat_length]
  rfl

/-! ## Names -/

theorem lookup_filter_ne {l : List (String × Nat)} {path other : String} (h : path ≠ other) :
    (l.filter fun p => p.1 != path).lookup other = l.lookup other := by
  induction l with
  | nil => rfl
  | cons p l ih =>
    obtain ⟨name, i⟩ := p
    by_cases hname : name = path
    · have hother : (other == name) = false := beq_false_of_ne fun e => h (by rw [← hname, ← e])
      rw [List.filter_cons_of_neg (by simp [hname]), List.lookup_cons, hother]
      exact ih
    · rw [List.filter_cons_of_pos (by simpa using hname), List.lookup_cons, List.lookup_cons, ih]

/-- A new object is found under its path, and everything else as before. -/
theorem lookup_place (m : SharedMemory) (path other : String) (size : Nat) :
    (m.place path size).2.names.lookup other =
      if other = path then some m.objects.length else m.names.lookup other := by
  unfold place
  by_cases h : other = path
  · rw [if_pos h, h]
    exact List.lookup_cons_self
  · have hne : (other == path) = false := beq_false_of_ne h
    rw [if_neg h]
    simp only [List.lookup_cons, hne]
    exact lookup_filter_ne fun e => h e.symm

theorem objects_unlink (m : SharedMemory) (name : String) :
    (m.unlink name).objects = m.objects := by
  unfold unlink
  split <;> rfl

/-- Taking a name away leaves the other names. -/
theorem lookup_unlink (m : SharedMemory) {name path other : String} (h : pathOf name = .ok path)
    (hne : path ≠ other) : (m.unlink name).names.lookup other = m.names.lookup other := by
  unfold unlink
  rw [h]
  exact lookup_filter_ne hne

theorem lookup_unlink_self (m : SharedMemory) {name path : String} (h : pathOf name = .ok path) :
    (m.unlink name).names.lookup path = none := by
  unfold unlink
  rw [h]
  refine List.lookup_eq_none_iff.2 fun p hp => ?_
  have hne := (List.mem_filter.1 hp).2
  rw [bne_comm] at hne
  simpa using hne

/-! ## Making and finding -/

theorem filter_eq_self_of_lookup {l : List (String × Nat)} {path : String}
    (h : l.lookup path = none) : (l.filter fun p => p.1 != path) = l := by
  rw [List.filter_eq_self]
  intro p hp
  have := List.lookup_eq_none_iff.1 h p hp
  rw [bne_comm]
  simpa using this

/-- A name that led nowhere can be given and taken back, and nothing has changed. -/
theorem unlink_link {m : SharedMemory} {name path : String} (hpath : pathOf name = .ok path)
    (hfree : m.names.lookup path = none) : (m.link path).unlink name = m := by
  have hnames : ((path, m.objects.length) :: m.names.filter fun p => p.1 != path).filter
      (fun p => p.1 != path) = m.names := by
    rw [List.filter_cons_of_neg (by simp), filter_eq_self_of_lookup hfree,
      filter_eq_self_of_lookup hfree]
  unfold unlink link
  rw [hpath]
  dsimp only
  rw [hnames]

/-- An object is not provided, or it is the next one, under the path that it was promised. -/
theorem provide_link_cases (m : SharedMemory) (path : String) (size : Nat) (mappable : Bool) :
    (∃ e, (m.link path).provide size mappable = .error e) ∨
      (0 < size ∧ (m.link path).provide size mappable = .ok (m.place path size)) := by
  unfold provide
  by_cases hlimit : (m.link path).sizeLimit.any (fun limit => limit < size) = true
  · exact .inl ⟨_, if_pos hlimit⟩
  rw [if_neg hlimit]
  by_cases hzero : size = 0
  · exact .inl ⟨_, if_pos hzero⟩
  rw [if_neg hzero]
  cases mappable with
  | false => exact .inl ⟨_, rfl⟩
  | true => exact .inr ⟨Nat.pos_of_ne_zero hzero, rfl⟩

/-- Making an object fails and changes nothing, or puts a new object under a path that led
nowhere. -/
theorem create_cases (m : SharedMemory) (name : String) (size : Nat) (mappable : Bool := true) :
    (∃ e, m.create name size mappable = (.error e, m)) ∨
      ∃ path, pathOf name = .ok path ∧ m.names.lookup path = none ∧ 0 < size ∧
        m.create name size mappable = (.ok m.objects.length, (m.place path size).2) := by
  unfold create
  cases hpath : pathOf name with
  | error e => exact .inl ⟨e, rfl⟩
  | ok path =>
    dsimp only
    by_cases htaken : ((m.names.lookup path).isSome || isDirectory path) = true
    · exact .inl ⟨_, if_pos htaken⟩
    rw [if_neg htaken]
    have hfree : m.names.lookup path = none := by
      cases hlookup : m.names.lookup path with
      | none => rfl
      | some i => exact absurd (by rw [hlookup]; rfl) htaken
    obtain ⟨e, he⟩ | ⟨hsize, hok⟩ := m.provide_link_cases path size mappable
    · rw [he]
      exact .inl ⟨e, by dsimp only; rw [unlink_link hpath hfree]⟩
    · rw [hok]
      exact .inr ⟨path, rfl, hfree, hsize, rfl⟩

/-- An object is only made if it is within the limit and can be mapped. -/
theorem granted_of_create {m m' : SharedMemory} {name : String} {size i : Nat} {mappable : Bool}
    (h : m.create name size mappable = (.ok i, m')) :
    mappable = true ∧ ∀ limit, m.sizeLimit = some limit → size ≤ limit := by
  unfold create at h
  cases hpath : pathOf name with
  | error e =>
    rw [hpath] at h
    cases h
  | ok path =>
    rw [hpath] at h
    dsimp only at h
    by_cases htaken : ((m.names.lookup path).isSome || isDirectory path) = true
    · rw [if_pos htaken] at h
      cases h
    rw [if_neg htaken] at h
    by_cases hlimit : m.sizeLimit.any (fun limit => limit < size) = true
    · rw [provide, if_pos (show (m.link path).sizeLimit.any _ = true from hlimit)] at h
      cases h
    · refine ⟨?_, fun limit hsome => Nat.le_of_not_lt fun hlt => hlimit ?_⟩
      · cases mappable with
        | true => rfl
        | false =>
          rw [provide, if_neg (show ¬ (m.link path).sizeLimit.any _ = true from hlimit)] at h
          by_cases hzero : size = 0
          · rw [if_pos hzero] at h
            cases h
          · rw [if_neg hzero] at h
            cases h
      · rw [hsome]
        exact decide_eq_true hlt

/-- An object is only found under a path that leads to it. -/
theorem lookup_of_attach {m : SharedMemory} {name : String} {mappable : Bool} {i : Nat}
    (h : m.attach name mappable = .ok i) :
    ∃ path, pathOf name = .ok path ∧ m.names.lookup path = some i := by
  unfold attach at h
  cases hpath : pathOf name with
  | error e =>
    rw [hpath] at h
    cases h
  | ok path =>
    rw [hpath] at h
    dsimp only at h
    cases hlookup : m.names.lookup path with
    | none =>
      rw [hlookup] at h
      cases h
    | some k =>
      rw [hlookup] at h
      dsimp only at h
      by_cases hsize : (m.object k).size = 0
      · rw [if_pos hsize] at h
        cases h
      · rw [if_neg hsize] at h
        cases mappable with
        | false => cases h
        | true =>
          cases h
          exact ⟨path, rfl, hlookup⟩

theorem attach_of_lookup {m : SharedMemory} {name path : String} {i : Nat}
    (hpath : pathOf name = .ok path) (hlookup : m.names.lookup path = some i)
    (hsize : (m.object i).size ≠ 0) : m.attach name = .ok i := by
  unfold attach
  simp only [hpath, hlookup]
  exact if_neg hsize

end SharedMemory

end ContentDecryption
