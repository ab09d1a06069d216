import ContentDecryption.Proofs.Client.Handover
import ContentDecryption.Scripted.Engine

/-!
# Every session is revoked once

An application asks for sessions and gets them from the service, with any IDs or none. It
clones what it has, looks sessions up, opens handles across the boundary and gives all of
this up in any order, perhaps from a callback. A session that it was handed out with an ID
is revoked when the last reference to it goes, or when it cannot be given a handle, and
never before or again.

A session that comes without an ID is turned away, and the service is not told: its sink is
never revoked.

Main definitions:

* `Tenancy`, `Tenancy.Deed`, `Tenancy.run`: the calls, the references that the application has,
  and what it was handed out.

Main results:

* `Tenancy.kept_step`, `Tenancy.kept_run`: the counts agree after every call;
* `Tenancy.revoked_once`: every session that came with an ID is revoked once, when nobody holds it;
* `Tenancy.nameless_not_revoked`: a session that came without one is not.
-/

namespace ContentDecryption

namespace Client

open Service

/-! ## Calls -/

/-- A client whose calls are made one after the other. -/
structure Tenancy (σ : Type) where
  world : World (Watched σ)
  /-- The references that the application has, each as often as it has it. The handles across the
  boundary have theirs. -/
  held : List SessionRef := []
  /-- The sessions that the service has handed out. -/
  granted : List Grant := []

namespace Tenancy

/-- What an application and the service do. -/
inductive Deed
  | connect (settings : Settings)
  /-- The service comes or goes. -/
  | changeConnection (up : Bool)
  | dropRegistry (r : RegistryRef)
  | install (r : RegistryRef)
  | uninstall
  | createSystem (r : RegistryRef) (keySystem : String)
  | dropSystem (i : SystemRef)
  | createSession (i : SystemRef) (licenseType : Int32) (initDataType : String)
      (initData cdmData : Bytes) (listener : Listener)
  | cloneSession (i : SessionRef)
  | findSession (r : RegistryRef) (id : Bytes) (system : Option SystemRef)
  | sessionById (r : RegistryRef) (id : String)
  | dropSession (i : SessionRef)
  /-- A caller across the boundary asks for a session and a handle to it. -/
  | construct (s : Option SystemRef) (o : Boundary.SessionOrder) (outIsNull : Bool)
  | getSession (keyId : Boundary.Pointer) (length : UInt8)
  | getSystemSession (s : Option SystemRef) (keyId : Boundary.Pointer) (length : UInt8)
  | destructSession (h : Option HandleRef)
  /-- The service reports something, and a callback may give its handle up. -/
  | receive (l : List Delivery)

variable {σ : Type} [Service σ]

/-- An action after which the application has the references that it had. -/
def after (e : Tenancy σ) {α : Type} (a : Action (Watched σ) α) : Tenancy σ :=
  { e with world := (a.exec e.world).2 }

/-- A call across the boundary, which deals in handles alone. -/
def afterCall (e : Tenancy σ) {α : Type} (a : Boundary.Call (Watched σ) α) : Tenancy σ :=
  { e with world := (a.run e.world).2 }

/-- The application takes one more reference to a session that lives. -/
def cloned (e : Tenancy σ) (i : SessionRef) : Tenancy σ :=
  if e.world.isLive i then { e.after (Action.holdSession i) with held := i :: e.held } else e

/-- One deed. References and handles that the application does not have are not given up, and
callbacks are for one session each. -/
def step (e : Tenancy σ) : Deed → Tenancy σ
  | .connect settings => e.after (Action.connect settings)
  | .changeConnection up => e.after (Action.changeConnection up)
  | .dropRegistry r => e.after (Action.dropRegistry r)
  | .install r => e.after (Boundary.install r)
  | .uninstall => e.after Boundary.uninstall
  | .createSystem r keySystem => e.after (Action.createSystem r keySystem)
  | .dropSystem i => e.after (Action.dropSystem i)
  | .createSession i licenseType initDataType initData cdmData listener =>
    let made := (Action.createSession i licenseType initDataType initData cdmData listener).exec
      e.world
    let given := (Action.handOut i licenseType initDataType initData cdmData listener).exec e.world
    { world := made.2
      held := made.1.toOption.toList ++ e.held
      granted := e.granted ++ given.1.toOption.toList }
  | .cloneSession i => e.cloned i
  | .findSession r id system =>
    let found := (Action.findSession r id system).exec e.world
    { e with world := found.2, held := found.1.toOption.join.toList ++ e.held }
  | .sessionById r id =>
    match e.world.sessionById? r id with
    | some i => e.cloned i
    | none => e
  | .dropSession i =>
    if i ∈ e.held then { e.after (Action.dropSession i) with held := e.held.erase i } else e
  | .construct s o outIsNull =>
    let given := ((Action.handOutTo s o).exec e.world).1.toOption
    if o.callbacks.all fun b => b.target == .pending [] then
      { e.afterCall (Boundary.construct s o outIsNull) with
        granted := e.granted ++ if outIsNull then [] else given.toList }
    else e
  | .getSession keyId length => e.afterCall (Boundary.getSession keyId length)
  | .getSystemSession s keyId length => e.afterCall (Boundary.getSystemSession s keyId length)
  | .destructSession h =>
    if h.all fun h => h < e.world.handles.length then e.afterCall (Boundary.destructSession h)
    else e
  | .receive l => e.after (Action.receiveAll l)

/-- A list of deeds. -/
def steps (e : Tenancy σ) (deeds : List Deed) : Tenancy σ := deeds.foldl step e

/-- A list of deeds of a client that has not connected to the service yet. -/
def run (service : σ) (memory : SharedMemory) (libraries : Libraries) (deeds : List Deed) :
    Tenancy σ :=
  steps { world := { service := ⟨service⟩, memory, libraries } } deeds

/-- Whether a deed is a construction that comes to nothing. -/
def fails (e : Tenancy σ) : Deed → Bool
  | .createSession i licenseType initDataType initData cdmData listener =>
    !((Action.createSession i licenseType initDataType initData cdmData listener).exec
      e.world).1.isOk
  | .construct s o outIsNull => ((Boundary.construct s o outIsNull).run e.world).1.2.isNone
  | _ => false

/-! ## What every deed keeps -/

/-- The counts agree for the sessions that came with an ID, and no two sessions share a sink. -/
structure Settled (l m : Nat) (e : Tenancy σ) : Prop where
  tenure : Tenure (e.granted.filter isNamed) e.held l m e.world
  apart : Apart l e.granted

/-- Between the deeds the counts agree. -/
def Kept (e : Tenancy σ) : Prop := ∃ l m, e.Settled l m

variable {e e' : Tenancy σ} {l m : Nat}

omit [Service σ] in
/-- Nothing is handed out. -/
theorem Kept.congr (h : e.Kept) (hgranted : e'.granted = e.granted)
    (hw : ∀ {grants l m}, Tenure grants e.held l m e.world →
      ∃ m', Tenure grants e'.held l m' e'.world) : e'.Kept := by
  obtain ⟨l, m, h⟩ := h
  obtain ⟨m', hm'⟩ := hw h.tenure
  refine ⟨l, m', ?_, ?_⟩
  · rw [hgranted]
    exact hm'
  · rw [hgranted]
    exact h.apart

omit [Service σ] in
theorem Kept.after (h : e.Kept) {α : Type} {a : Action (Watched σ) α}
    (ha : ∀ {grants held l m}, a.Keeps (Tenure grants held l m)) : (e.after a).Kept :=
  h.congr rfl fun {_ _ m} hw => ⟨m, ha _ hw⟩

omit [Service σ] in
theorem Kept.cloned (h : e.Kept) (i : SessionRef) : (e.cloned i).Kept := by
  unfold Tenancy.cloned
  split_ifs with hlive
  · exact h.congr rfl fun {_ _ m} hw => ⟨m, hw.hold hlive⟩
  · exact h

omit [Service σ] in
/-- What comes of a construction. It may have ended early, and then a session that was handed out
had no ID. -/
theorem Settled.construct (h : e.Settled l m) {given : Except Failure Grant}
    {held : List SessionRef} {w : World (Watched σ)}
    (hmade : (∃ l' m', l ≤ l' ∧ Tenure (e.granted.filter isNamed) held l' m' w ∧
        ∀ g, given = .ok g → l' = l + 1 ∧ g.1 = l ∧ isNamed g = false) ∨
      ∃ x m', given = .ok (l, x) ∧ isNamed (l, x) = true ∧
        Tenure (e.granted.filter isNamed ++ [(l, x)]) held (l + 1) m' w) :
    Kept ⟨w, held, e.granted ++ given.toOption.toList⟩ := by
  rcases hmade with ⟨l', m', hl, hw, hgiven⟩ | ⟨x, m', rfl, hnamed, hw⟩
  · cases given with
    | error f =>
      refine ⟨l', m', ?_, ?_⟩
      · exact (List.append_nil e.granted).symm ▸ hw
      · exact (List.append_nil e.granted).symm ▸ h.apart.mono hl
    | ok g =>
      obtain ⟨rfl, hk, hnameless⟩ := hgiven g rfl
      refine ⟨l + 1, m', ?_, h.apart.concat hk⟩
      show Tenure ((e.granted ++ [g]).filter isNamed) held (l + 1) m' w
      rw [List.filter_append, List.filter_singleton, hnameless]
      exact (List.append_nil _).symm ▸ hw
  · refine ⟨l + 1, m', ?_, h.apart.concat rfl⟩
    show Tenure ((e.granted ++ [(l, x)]).filter isNamed) held (l + 1) m' w
    rw [List.filter_append, List.filter_singleton, hnamed]
    exact hw

theorem kept_createSession (h : e.Kept) (i : SystemRef) (licenseType : Int32)
    (initDataType : String) (initData cdmData : Bytes) (listener : Listener) :
    (e.step (.createSession i licenseType initDataType initData cdmData listener)).Kept := by
  obtain ⟨l, m, h⟩ := h
  refine h.construct ?_
  rcases h.tenure.createSession i licenseType initDataType initData cdmData listener with
    ⟨f, l', hf, hl, hw, hgiven⟩ | ⟨x, hx, hgiven, hnamed, hw, -⟩
  · rw [hf]
    exact .inl ⟨l', m, hl, hw, hgiven⟩
  · rw [hx]
    exact .inr ⟨x, m, hgiven, hnamed, hw⟩

omit [Service σ] in
theorem fresh_of_all {o : Boundary.SessionOrder}
    (h : (o.callbacks.all fun b => b.target == .pending []) = true) :
    ∀ b ∈ o.callbacks, b.target = .pending [] := by
  intro b hb
  rw [Option.all_eq_true] at h
  exact eq_of_beq (h b hb)

theorem kept_construct (h : e.Kept) (s : Option SystemRef) (o : Boundary.SessionOrder)
    (outIsNull : Bool) : (e.step (.construct s o outIsNull)).Kept := by
  simp only [step]
  split_ifs with hcallbacks hnull
  · rw [List.append_nil, hnull]
    exact h
  · obtain ⟨l, m, h⟩ := h
    refine h.construct ?_
    rw [Boundary.construct, if_neg hnull]
    rcases h.tenure.constructSession s (fresh_of_all hcallbacks) with
      ⟨l', m', hl, hw, hgiven⟩ | ⟨x, m', hgiven, hnamed, hw, -⟩
    · exact .inl ⟨l', m', hl, hw, hgiven⟩
    · exact .inr ⟨x, m', hgiven, hnamed, hw⟩
  · exact h

theorem kept_step (h : e.Kept) (d : Deed) : (e.step d).Kept := by
  cases d with
  | connect settings => exact h.after (keeps_connect settings)
  | changeConnection up => exact h.after (keeps_changeConnection up)
  | dropRegistry r => exact h.after (keeps_dropRegistry r)
  | install r => exact h.after (keeps_install r)
  | uninstall => exact h.after keeps_uninstall
  | createSystem r keySystem => exact h.after (keeps_createSystem r keySystem)
  | dropSystem i => exact h.after (keeps_dropSystem i)
  | createSession i licenseType initDataType initData cdmData listener =>
    exact kept_createSession h i licenseType initDataType initData cdmData listener
  | cloneSession i => exact h.cloned i
  | findSession r id system =>
    refine h.congr rfl fun {_ _ m} hw => ⟨m, ?_⟩
    simp only [step]
    rcases hw.findSession r id system with hnone | ⟨i, hi, hheld⟩
    · rw [hnone]
      exact hw
    · rw [hi]
      exact hheld
  | sessionById r id =>
    simp only [step]
    split
    · exact h.cloned _
    · exact h
  | dropSession i =>
    simp only [step]
    split_ifs with hi
    · exact h.congr rfl fun {_ _ m} hw => ⟨m, (hw.perm (List.perm_cons_erase hi)).dropSession⟩
    · exact h
  | construct s o outIsNull => exact kept_construct h s o outIsNull
  | getSession keyId length => exact h.congr rfl fun hw => hw.getSession keyId length
  | getSystemSession s keyId length =>
    exact h.congr rfl fun hw => hw.getSystemSession s keyId length
  | destructSession h' =>
    simp only [step]
    split_ifs with hh
    · refine h.congr rfl fun {_ _ m} hw => ⟨m, ?_⟩
      cases h' with
      | none => exact hw
      | some h' =>
        show Tenure _ _ _ _ ((Boundary.Call.status (Action.dropHandle h')).run e.world).2
        rw [Boundary.Call.world_status]
        exact keeps_dropHandle (hw.sized.handles ▸ of_decide_eq_true hh) _ hw
    · exact h
  | receive notices => exact h.after (keeps_receiveAll notices)

theorem kept_steps (h : e.Kept) (deeds : List Deed) : (e.steps deeds).Kept := by
  induction deeds generalizing e with
  | nil => exact h
  | cons d deeds ih => exact ih (kept_step h d)

omit [Service σ] in
/-- Nothing was handed out at the start. -/
theorem settled_start (service : σ) (memory : SharedMemory) (libraries : Libraries) :
    Settled 0 0 ({ world := { service := ⟨service⟩, memory, libraries } } : Tenancy σ) where
  tenure :=
    { made := rfl
      count := fun hs => nomatch hs
      revoked := fun hs => nomatch hs
      told := fun hk => nomatch hk
      apart := .nil 0
      known := fun _ hi => nomatch hi
      sinkCount := rfl
      sized := ⟨rfl, rfl, fun hh => (nomatch hh), fun hb => (nomatch hb)⟩ }
  apart := .nil 0

theorem kept_run (service : σ) (memory : SharedMemory) (libraries : Libraries)
    (deeds : List Deed) : (run service memory libraries deeds).Kept :=
  kept_steps ⟨0, 0, settled_start service memory libraries⟩ deeds

/-! ## Constructions that come to nothing -/

omit [Service σ] in
/-- What is handed out in a construction is what it was given. -/
theorem given_of_mem {given : Except Failure Grant} {g : Grant}
    (hg : g ∈ e.granted ++ given.toOption.toList) (hnew : g ∉ e.granted) : given = .ok g := by
  have hlast := (List.mem_append.1 hg).resolve_left hnew
  cases given with
  | error f => cases hlast
  | ok x => rw [List.mem_singleton.1 hlast]

/-- A construction that comes to nothing leaves no session behind that came with an ID. -/
theorem revoked_of_fails (h : e.Kept) {d : Deed} (hd : e.fails d = true) {g : Grant}
    (hg : g ∈ (e.step d).granted) (hnew : g ∉ e.granted) (hnamed : isNamed g = true) :
    (e.step d).world.revocations g.2.index g.1 = 1 := by
  obtain ⟨l, m, h⟩ := h
  cases d with
  | createSession i licenseType initDataType initData cdmData listener =>
    have hgiven := given_of_mem hg hnew
    rcases h.tenure.createSession i licenseType initDataType initData cdmData listener with
      ⟨f, l', -, -, -, hnameless⟩ | ⟨x, hx, -⟩
    · rw [(hnameless g hgiven).2.2] at hnamed
      cases hnamed
    · rw [fails, hx] at hd
      cases hd
  | construct s o outIsNull =>
    simp only [step] at hg ⊢
    split_ifs at hg ⊢ with hcallbacks hnull
    · rw [List.append_nil] at hg
      exact absurd hg hnew
    · have hgiven := given_of_mem hg hnew
      have hconstruct : Boundary.construct s o outIsNull =
          (Boundary.constructSession s o : Boundary.Call (Watched σ) _) := if_neg hnull
      rw [fails, hconstruct, Option.isNone_iff_eq_none] at hd
      rcases h.tenure.constructSession s (fresh_of_all hcallbacks) with
        ⟨l', m', -, -, hnameless⟩ | ⟨x, m', hx, -, hw, hnone⟩
      · rw [(hnameless g hgiven).2.2] at hnamed
        cases hnamed
      · cases hgiven.symm.trans hx
        rw [Tenancy.afterCall, hconstruct]
        exact hw.revoked_last h.tenure.known (hnone hd)
    · exact absurd hg hnew
  | _ => cases hd

/-! ## Revocations -/

/-- After any deeds: a session that came with an ID has been revoked, once, if and only if
neither the application nor a handle holds it; if the construction in which it was handed out
comes to nothing, it has been revoked; and nothing else has been revoked. -/
theorem revoked_once (service : σ) (memory : SharedMemory) (libraries : Libraries)
    (deeds : List Deed) :
    let e := run service memory libraries deeds
    (e.granted.map Prod.fst).Nodup ∧
    (∀ g ∈ e.granted, isNamed g = true → ∃ i s, e.world.sessions[i]? = some s ∧ s.grant = g ∧
      e.world.revocations g.2.index g.1 =
        if e.held.count i + e.world.handlesOn i = 0 then 1 else 0) ∧
    (∀ d, e.fails d = true → ∀ g ∈ (e.step d).granted, g ∉ e.granted → isNamed g = true →
      (e.step d).world.revocations g.2.index g.1 = 1) ∧
    ∀ remote k, 0 < e.world.revocations remote k →
      ∃ g ∈ e.granted, isNamed g = true ∧ g.2.index = remote ∧ g.1 = k := by
  intro e
  obtain ⟨l, m, h⟩ : e.Kept := kept_run service memory libraries deeds
  refine ⟨h.apart.nodup, fun g hg hnamed => ?_, fun d hd g hg hnew hnamed =>
    revoked_of_fails ⟨l, m, h⟩ hd hg hnew hnamed, fun remote k hk => ?_⟩
  · obtain ⟨i, hi⟩ := List.getElem?_of_mem (List.mem_filter.2 ⟨hg, hnamed⟩)
    obtain ⟨s, hs, hgrant, -, hrevoked⟩ := h.tenure.revocations_of_session hi
    exact ⟨i, s, hs, hgrant, hrevoked⟩
  · obtain ⟨g, hg, hindex, hsink⟩ := h.tenure.told hk
    obtain ⟨hg, hnamed⟩ := List.mem_filter.1 hg
    exact ⟨g, hg, hnamed, hindex, hsink⟩

/-- A service that gives every session the same ID. -/
def naming (id : String) : Scripted.Engine where
  script := { sessionId := fun _ => id, bufferId := fun _ => "b" }

/-- A client that has a key system and may ask for sessions. -/
def ready (id : String) : Tenancy Scripted.Engine :=
  run (naming id) {} [] [.connect { connector := "" }, .createSystem 0 "k"]

/-- A session is asked for across the boundary. -/
def order : Deed := .construct (some 0) ⟨0, some [0], none, 0, none, 0, none⟩ false

/-- A session whose ID holds a zero byte gets no handle, and is revoked. -/
theorem unterminated_revoked : (ready "x\x00").fails order = true ∧
    ((ready "x\x00").step order).world.revocations 0 0 = 1 := by
  have hfails : (ready "x\x00").fails order = true := by decide +kernel
  exact ⟨hfails, (revoked_once (naming "x\x00") {} [] _).2.2.1 order hfails
    (0, ⟨0, "x\x00", "b", false⟩) (by decide +kernel) (by decide +kernel) (by decide)⟩

/-- A session without an ID is handed out and turned away, and is not revoked. -/
theorem nameless_not_revoked : (ready "").fails order = true ∧
    ((ready "").step order).granted = [(0, ⟨0, "", "b", false⟩)] ∧
    ((ready "").step order).world.revocations 0 0 = 0 := by
  decide

end Tenancy

end Client

end ContentDecryption
