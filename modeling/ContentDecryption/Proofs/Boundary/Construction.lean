import ContentDecryption.Proofs.Client.Handover
import ContentDecryption.Scripted.Engine

/-!
# Constructions that fail

A construction can fail before the service is asked, on its answer, and as late as when the
session is registered and its texts turn out not to end at their first zero byte. Then the
session is taken out again. It may have found its ID taken, and not have been registered at
all; and its ID may have been that of a session that is gone, whose entry it took over. In each
case everybody finds the sessions that he would have found before.

The service may report to other sessions while it constructs one, and their callbacks may give
handles up. So this is about constructions in which no callback does.

Main definitions:

* `World.releases`: how often callbacks have given their handles up;
* `Undisturbed`: no table and no session has changed, unless by a callback;
* `World.FoundAlike`: who looks for sessions finds the same.

Main results:

* `undisturbed_createSession`: a session that is refused has changed no table;
* `foundAlike_drop_adopt`: a session that is taken up and given up again is not noticed;
* `Boundary.foundAlike_construct_of_failed`: nor is a construction that fails.
-/

namespace ContentDecryption

namespace Client

open Service

/-- Whether a callback has given its handle up. -/
def Entry.isRelease : Entry → Bool
  | .released _ _ => true
  | _ => false

namespace World

variable {σ : Type}

/-- How often callbacks have given their handles up. -/
def releases (w : World σ) : Nat := w.journal.countP Entry.isRelease

theorem releases_answered [Service σ] (w : World σ) (r : Request) :
    (w.answered r).releases = w.releases := by
  unfold releases answered
  split_ifs
  · exact List.countP_cons_of_neg (by simp [Entry.isRelease])
  · rfl

/-- The tables and the sessions of two worlds are the same. -/
structure SameSessions (w₀ w : World σ) : Prop where
  tables : ∀ r, (w.registry r).sessions = (w₀.registry r).sessions
  sessions : w.sessions = w₀.sessions

/-- Who looks for sessions finds the same in two worlds. -/
structure FoundAlike (w₀ w : World σ) : Prop where
  byId : ∀ r id, w.sessionById? r id = w₀.sessionById? r id
  living : ∀ r, w.livingSessions r = w₀.livingSessions r

namespace SameSessions

variable {w₀ w w' : World σ}

theorem refl (w : World σ) : SameSessions w w := ⟨fun _ => rfl, rfl⟩

theorem trans (h : SameSessions w₀ w) (h' : SameSessions w w') : SameSessions w₀ w' :=
  ⟨fun r => (h'.tables r).trans (h.tables r), h'.sessions.trans h.sessions⟩

/-- A connection is changed, but for its table. -/
theorem setRegistry (w : World σ) (r : RegistryRef) {f : Registry → Registry}
    (hf : ∀ x, (f x).sessions = x.sessions) : SameSessions w (w.setRegistry r f) :=
  ⟨fun _ => getD_modify_congr hf .., rfl⟩

theorem isLive_eq (h : SameSessions w₀ w) : w.isLive = w₀.isLive := by
  funext i
  rw [isLive, isLive, h.sessions]

theorem foundAlike (h : SameSessions w₀ w) : FoundAlike w₀ w where
  byId r id := by rw [sessionById?, sessionById?, h.tables, h.isLive_eq]
  living r := by rw [livingSessions, livingSessions, h.tables, h.isLive_eq]

end SameSessions

theorem FoundAlike.trans {w₀ w w' : World σ} (h : FoundAlike w₀ w) (h' : FoundAlike w w') :
    FoundAlike w₀ w' :=
  ⟨fun r id => (h'.byId r id).trans (h.byId r id), fun r => (h'.living r).trans (h.living r)⟩

end World

/-! ## Until the session is taken up -/

/-- No table and no session has changed since a world, unless by a callback that has given its
handle up. -/
structure Undisturbed {σ : Type} (w₀ w : World σ) : Prop where
  releases : w₀.releases ≤ w.releases
  same : w.releases = w₀.releases → w₀.SameSessions w

section

variable {σ : Type} {w₀ w w' : World σ}

namespace Undisturbed

theorem refl (w : World σ) : Undisturbed w w := ⟨Nat.le_refl _, fun _ => .refl w⟩

/-- The tables and the sessions decide. -/
theorem later (h : Undisturbed w₀ w) (hreleases : w.releases ≤ w'.releases)
    (hsame : w.SameSessions w') : Undisturbed w₀ w' where
  releases := Nat.le_trans h.releases hreleases
  same heq := (h.same (Nat.le_antisymm (heq ▸ hreleases) h.releases)).trans hsame

theorem congr (h : Undisturbed w₀ w) (hregistries : w'.registries = w.registries)
    (hsessions : w'.sessions = w.sessions) (hjournal : w'.journal = w.journal) :
    Undisturbed w₀ w' :=
  h.later (Nat.le_of_eq (by rw [World.releases, World.releases, hjournal]))
    ⟨fun r => by rw [World.registry, World.registry, hregistries], hsessions⟩

theorem setRegistry (h : Undisturbed w₀ w) (r : RegistryRef) {f : Registry → Registry}
    (hf : ∀ x, (f x).sessions = x.sessions) : Undisturbed w₀ (w.setRegistry r f) :=
  h.later (Nat.le_refl _) (.setRegistry w r hf)

variable [Service σ]

theorem answered (h : Undisturbed w₀ w) (r : Request) : Undisturbed w₀ (w.answered r) :=
  h.later (Nat.le_of_eq (w.releases_answered r).symm) ⟨fun _ => rfl, rfl⟩

end Undisturbed

variable [Service σ]

/-- What was written down stays when a session is given up. -/
theorem releases_le_dropSession (n : Nat) (i : SessionRef) :
    (Action.dropSession i : Action σ Unit).Keeps fun w => n ≤ w.releases :=
  .dropSession (fun hw => hw) (fun hw => hw) (.ask fun {w} hw => by rwa [w.releases_answered])
    (fun hw => hw) i

theorem releases_le_dropHandle (n : Nat) (h : HandleRef) :
    (Action.dropHandle h : Action σ Unit).Keeps fun w => n ≤ w.releases :=
  .dropHandle (fun hw => hw) (fun hw => hw) (releases_le_dropSession n) h

/-- Notices change tables and sessions only by callbacks that give handles up. -/
theorem tended_undisturbed (w₀ : World σ) :
    Tended (fun _ => True) (fun _ => True) (Undisturbed w₀) where
  attached := fun _ _ => trivial
  record := fun _ hw => hw.later (List.sublist_cons_self ..).countP_le ⟨fun _ => rfl, rfl⟩
  offer := fun _ _ hw => hw.congr rfl rfl rfl
  leave := fun _ hw => hw.congr rfl rfl rfl
  attach := fun _ _ _ hw => hw.congr rfl rfl rfl
  learnKey := fun _ _ _ hw => hw.congr rfl rfl rfl
  learnError := fun _ _ hw => hw.congr rfl rfl rfl
  signal := fun r hw =>
    (hw.setRegistry r (f := fun x => { x with signal := x.signal.notify }) fun _ => rfl).congr
      rfl rfl rfl
  holdRegistry := fun r hw => hw.setRegistry r fun _ => rfl
  release := fun {h} _ name w hw => by
    -- The count goes up, so nothing has to be said of tables and sessions any more.
    obtain ⟨status, w', hexec⟩ := Action.Succeeds.guarded (Action.dropHandle h) w
    have hkept := (releases_le_dropHandle w₀.releases h).guarded w hw.releases
    rw [hexec] at hkept
    rw [Action.exec_bind_of_ok hexec]
    have hmore : World.releases { w' with journal := .released name status :: w'.journal } =
      w'.releases + 1 := List.countP_cons_of_pos rfl
    refine ⟨?_, fun heq => absurd heq ?_⟩
    · exact hmore ▸ Nat.le_succ_of_le hkept
    · exact hmore ▸ Nat.ne_of_gt (Nat.lt_succ_of_le hkept)
  dropRegistry := fun r => .dropRegistry (fun hf hw => hw.setRegistry _ hf)
    (.ask fun hw => hw.answered _) r

/-- A session that is asked for is refused, or it is taken up. Nothing is disturbed until then. -/
theorem undisturbed_createSession (w : World σ) (i : SystemRef) (licenseType : Int32)
    (initDataType : String) (initData cdmData : Bytes) (listener : Listener) :
    let x := (Action.createSession i licenseType initDataType initData cdmData listener).exec w
    (∃ f w', x = (.error f, w') ∧ Undisturbed w w') ∨
      ∃ k y w', x = (Action.adoptSession i k y).exec w' ∧ Undisturbed w w' := by
  intro x
  let opened : World σ :=
    { w with sinks := w.sinks ++ [{ registry := (w.system i).registry, listener }] }
  have hopened : Undisturbed w opened := (Undisturbed.refl w).congr rfl rfl rfl
  have hasked (r : Request) : Undisturbed w (opened.answered r) := hopened.answered r
  have hreceived (l : List Delivery) (r : Request) :
      Undisturbed w ((Action.receiveAll l).exec (opened.answered r)).2 :=
    (tended_undisturbed w).receiveAll (fun _ => trivial) _ (hasked r)
  rcases Action.createSession_cases w i licenseType initDataType initData cdmData listener with
    ⟨-, f, hx⟩ | ⟨-, ⟨f, hx⟩ | ⟨reported, -, htaken⟩⟩
  · exact .inl ⟨f, w, hx, .refl w⟩
  · exact .inl ⟨f, _, hx, hasked _⟩
  · generalize hend : Action.exec _ w = y at htaken
    rw [show x = y from hend]
    cases htaken with
    | refused f => exact .inl ⟨f, _, rfl, hreceived _ _⟩
    | nameless _ f => exact .inl ⟨f, _, rfl, (hreceived _ _).congr rfl rfl rfl⟩
    | adopted _ => exact .inr ⟨_, _, _, rfl, hreceived _ _⟩

/-! ## Once it is taken up -/

/-- A session that is given up by the only one who holds it is taken out of its table. -/
theorem sameSessions_dropSession {i : SessionRef} {s : Session} (hs : w.sessions[i]? = some s)
    (hone : s.handles = 1) :
    World.SameSessions ((w.leaveSession i).setRegistry s.registry fun r =>
        { r with sessions := r.sessions.unregister s.id i })
      ((Action.dropSession i).exec w).2 := by
  have hleft : (w.leaveSession i).sessions[i]? = some { s with handles := 0 } := by
    show (w.sessions.modify i _)[i]? = _
    rw [List.getElem?_modify_eq, hs, ← Nat.sub_self 1, ← hone]
    rfl
  have hdead : ¬ (w.leaveSession i).isLive i = true := by
    rw [World.isLive, hleft]
    exact Bool.false_ne_true
  have hclosed {w₀ : World σ} : (Action.closeUnused : Action σ Unit).Keeps w₀.SameSessions :=
    .closeUnused (fun hf hw => hw.trans (.setRegistry _ _ hf))
      (.ask fun hw => hw.trans ⟨fun _ => rfl, rfl⟩)
  have hexec : ((Action.dropSession i).exec w).2 = if (w.leaveSession i).isLive i
      then w.leaveSession i else ((Action.endSession i).exec (w.leaveSession i)).2 :=
    exec_dropSession w i
  rw [hexec, if_neg hdead, exec_endSession, World.session_of_getElem? hleft]
  exact hclosed _ ⟨fun _ => rfl, rfl⟩

/-- A session that is taken up and given up again is not noticed. -/
theorem foundAlike_drop_adopt (w : World σ) (i : SystemRef) (k : SinkRef) (x : RemoteSession)
    (distinct : ∀ r, ((w.registry r).sessions.map Prod.fst).Nodup) :
    w.FoundAlike ((Action.dropSession w.sessions.length).exec
      ((Action.adoptSession i k x).exec w).2).2 := by
  let n := w.sessions.length
  let s : Session :=
    { id := x.id, bufferId := x.bufferId, keySystem := (w.system i).keySystem,
      registry := (w.system i).registry, system := i, remote := x.index, extended := x.extended,
      sink := k }
  let added : World σ := { w with sessions := w.sessions ++ [s] }
  let adopted := added.setRegistry s.registry fun r =>
    { r with sessions := r.sessions.register added.isLive s.id n }
  let out := (adopted.leaveSession n).setRegistry s.registry fun r =>
    { r with sessions := r.sessions.unregister s.id n }
  have hs : adopted.sessions[n]? = some s := List.getElem?_concat_length
  have hend : out.SameSessions ((Action.dropSession n).exec adopted).2 :=
    sameSessions_dropSession hs rfl
  refine .trans ?_ hend.foundAlike
  have hnew : w.isLive n = false := by
    rw [World.isLive, List.getElem?_eq_none (Nat.le_refl n)]
    rfl
  have hnow (j : SessionRef) (hj : j ≠ n) : added.isLive j = w.isLive j :=
    World.isLive_addSession s hj
  have halive : out.isLive = w.isLive := by
    funext j
    by_cases hj : j = n
    · rw [hj, hnew]
      show Option.any _ ((w.sessions ++ [s]).modify n _)[n]? = false
      rw [List.getElem?_modify_eq, List.getElem?_concat_length]
      rfl
    · exact (World.isLive_setSession_of_ne (w := adopted) (Ne.symm hj) _).trans (hnow j hj)
  have htable (r : RegistryRef) : (out.registry r).sessions = (w.registry r).sessions ∨
      (out.registry r).sessions =
        ((w.registry r).sessions.register added.isLive s.id n).unregister s.id n := by
    by_cases hr : s.registry < w.registries.length
    · have hlength : s.registry < (adopted.leaveSession n).registries.length := by
        rwa [show (adopted.leaveSession n).registries.length = w.registries.length from
          List.length_modify ..]
      have hadopted : (adopted.registry r).sessions = if s.registry = r then
          (w.registry r).sessions.register added.isLive s.id n else (w.registry r).sessions :=
        World.sessions_register (w := added) hr r
      rw [World.registry_setRegistry hlength]
      split_ifs at hadopted ⊢ with hown
      · subst hown
        exact .inr (congrArg (·.unregister s.id n) hadopted)
      · exact .inl hadopted
    · have hnone : out.registries = w.registries := by
        show (w.registries.modify s.registry _).modify s.registry _ = _
        rw [List.modify_eq_self (Nat.le_of_not_lt hr), List.modify_eq_self (Nat.le_of_not_lt hr)]
      exact .inl (by rw [World.registry, World.registry, hnone])
  constructor
  · intro r id
    rw [World.sessionById?, World.sessionById?, halive]
    rcases htable r with hsame | hundone
    · rw [hsame]
    · rw [hundone, SessionTable.find?_unregister_register hnew hnow]
  · intro r
    rw [World.livingSessions, World.livingSessions, halive]
    rcases htable r with hsame | hundone
    · rw [hsame]
    · rw [hundone, SessionTable.living_unregister_register (distinct r) hnew hnow]

end

end Client

namespace Boundary

open Client

/-- **A construction that fails leaves no trace.** Whatever the service does, and however late the
construction fails: no handle is returned, each ID is that of the same session as before, and the
same sessions live, so there are as many. No callback has given a handle up meanwhile, and tables
list each ID once, as they always do (`Owned.distinct`). -/
theorem sessions_construct_of_failed {σ : Type} [Service σ] (w : World σ) (s : Option SystemRef)
    (o : SessionOrder) {status : Status} {out : Option HandleRef} {w' : World σ}
    (distinct : ∀ r, ((w.registry r).sessions.map Prod.fst).Nodup)
    (called : (construct s o false).run w = ((status, out), w'))
    (failed : status ≠ Status.none) (undisturbed : w'.releases = w.releases) :
    out = none ∧ (∀ r id, w'.sessionById? r id = w.sessionById? r id) ∧
      ∀ r, w'.livingSessions r = w.livingSessions r := by
  suffices h : out = none ∧ w.FoundAlike w' from ⟨h.1, h.2.byId, h.2.living⟩
  rcases Action.constructSession_cases s o w with
    ⟨refusal, -, hrefused, -⟩ | ⟨i, initDataType, initData, cdmData, hasked, -⟩
  · cases hrefused.symm.trans called
    exact ⟨rfl, (World.SameSessions.refl w).foundAlike⟩
  · let bridged : World σ := { w with bridges := w.bridges ++ o.callbacks.toList }
    let b := o.callbacks.map fun _ => w.bridges.length
    have hbridged : w.SameSessions bridged := ⟨fun _ => rfl, rfl⟩
    have hend := hasked.symm.trans called
    rw [Call.run_statusAnd] at hend
    rcases undisturbed_createSession bridged i o.licenseType initDataType initData cdmData
        (Action.listenerOf b) with ⟨f, w₁, hcreated, hw₁⟩ | ⟨k, y, w₁, hcreated, hw₁⟩
    · rw [Action.exec_bind_of_error hcreated] at hend
      cases hend
      exact ⟨rfl, (hbridged.trans (hw₁.same undisturbed)).foundAlike⟩
    · let adopted := ((Action.adoptSession i k y).exec w₁).2
      have hadopted : (Action.adoptSession i k y).exec w₁ = (.ok w₁.sessions.length, adopted) := rfl
      rw [Action.exec_bind_of_ok (hcreated.trans hadopted), Action.exec_map] at hend
      rcases Action.openHandle_cases adopted w₁.sessions.length b with hopened | ⟨f, hrefused⟩
      · rw [hopened] at hend
        cases hend
        exact absurd rfl failed
      · rw [hrefused] at hend
        cases hend
        have hsame : w.SameSessions w₁ := hbridged.trans <| hw₁.same <|
          Nat.le_antisymm (undisturbed ▸ releases_le_dropSession _ _ adopted (Nat.le_refl _))
            hw₁.releases
        refine ⟨rfl, hsame.foundAlike.trans (foundAlike_drop_adopt w₁ i k y fun r => ?_)⟩
        rw [hsame.tables]
        exact distinct r

/-- A client with a session that lives, and a service that gives all sessions the ID of this one. No
handle can have the ID. -/
def occupied : World Scripted.Engine where
  service := { script := { sessionId := fun _ => "x\x00", bufferId := fun _ => "b" } }
  registries :=
    [{ accessor := some ⟨false⟩, sessions := [("x\x00", 0)], settings := { connector := "" } }]
  systems := [{ keySystem := "k" }]
  sinks := [{}]
  sessions := [{ id := "x\x00", bufferId := "b", keySystem := "k" }]

/-- A session is asked for with callbacks. -/
def order : SessionOrder :=
  ⟨0, some [0], none, 0, none, 0, some { name := "c", callbacks := [.challenge] }⟩

theorem sessions_construct_of_occupied :
    let x := (construct (some 0) order false).run occupied
    x.1.1 ≠ Status.none ∧ x.1.2 = none ∧ x.2.sessions.length = 2 ∧
      x.2.sessionById? 0 "x\x00" = some 0 ∧ x.2.livingSessions 0 = [0] := by
  intro x
  have hfailed : x.1.1 ≠ Status.none := by decide +kernel
  have hmade : x.2.sessions.length = 2 := by decide +kernel
  have hbefore : occupied.sessionById? 0 "x\x00" = some 0 := by decide +kernel
  have hdistinct : ∀ r, ((occupied.registry r).sessions.map Prod.fst).Nodup
    | 0 => List.nodup_singleton _
    | _ + 1 => List.nodup_nil
  have hcalled : (construct (some 0) order false).run occupied = ((x.1.1, x.1.2), x.2) := rfl
  obtain ⟨hout, hfound, hliving⟩ := sessions_construct_of_failed occupied (some 0) order hdistinct
    hcalled hfailed (by decide +kernel)
  exact ⟨hfailed, hout, hmade, (hfound 0 _).trans hbefore, hliving 0⟩

end Boundary

end ContentDecryption
