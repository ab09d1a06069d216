import ContentDecryption.Client.Connection
import ContentDecryption.Proofs.Client.Vigil

/-!
# Who owns an ID

The first session that is registered under an ID owns it for as long as it lives. The
table of a connection lists each ID once, with the session that owns it, so what is
found in the table is what the owners say: a session that lives and was not turned
away when it was registered.

A session that has lost its last handle may still be listed. Nobody finds it, and
another session may take its place.

Main definitions:

* `World.accepts`: whether a session would be registered under an ID;
* `Owned`: the tables list the owners, and nobody else.

Main results:

* `Owned.sessionById?_eq_some_iff`, `Owned.livingSessions_perm`: what is found is what is owned;
* `Owned.accepts_iff`: a session is accepted if no living owner has the ID;
* `Owned.of_later`: this survives whatever takes entries out of the tables;
* `Owned.adopt`: and it survives a new session, which may own its ID or not.
-/

namespace ContentDecryption

namespace Client

open Service

/-! ## Owners -/

namespace World

variable {σ : Type} (w : World σ)

/-- Whether a new session would be registered under an ID: there is a table, and no living session
is listed there under this ID. -/
def accepts (r : RegistryRef) (id : String) : Bool :=
  decide (r < w.registries.length) && !((w.registry r).sessions.lookup id).any w.isLive

/-- Whether a session lives at a connection. -/
def livesAt (r : RegistryRef) (i : SessionRef) : Bool :=
  w.isLive i && (w.session i).registry == r

/-- Whether a session lives at a connection and has this ID. -/
def answersTo (r : RegistryRef) (id : String) (i : SessionRef) : Bool :=
  w.livesAt r i && (w.session i).id == id

variable {w} {r : RegistryRef} {id : String} {i : SessionRef}

theorem livesAt_iff : w.livesAt r i = true ↔ w.isLive i = true ∧ (w.session i).registry = r := by
  rw [livesAt, Bool.and_eq_true, beq_iff_eq]

theorem answersTo_iff : w.answersTo r id i = true ↔
    w.isLive i = true ∧ (w.session i).registry = r ∧ (w.session i).id = id := by
  rw [answersTo, Bool.and_eq_true, livesAt_iff, beq_iff_eq, and_assoc]

theorem lt_of_isLive (h : w.isLive i = true) : i < w.sessions.length := by
  obtain ⟨s, hs, -⟩ := isLive_iff.1 h
  exact (List.getElem?_eq_some_iff.1 hs).1

theorem isLive_addSession (s : Session) (h : i ≠ w.sessions.length) :
    World.isLive { w with sessions := w.sessions ++ [s] } i = w.isLive i := by
  unfold isLive
  rcases Nat.lt_or_gt_of_ne h with hlt | hgt
  · rw [List.getElem?_append_left hlt]
  · rw [List.getElem?_eq_none (Nat.le_of_lt hgt),
      List.getElem?_eq_none (by rw [List.length_append]; exact hgt)]

theorem isLive_setSession_of_ne {j : SessionRef} (h : i ≠ j) (f : Session → Session) :
    (w.setSession i f).isLive j = w.isLive j :=
  congrArg (Option.any fun s : Session => decide (0 < s.handles)) (List.getElem?_modify_ne _ _ h)

theorem isLive_holdSession {j : SessionRef} (h : w.isLive j = true) :
    (w.holdSession i).isLive j = true := by
  by_cases hij : i = j
  · subst hij
    obtain ⟨s, hs, -⟩ := isLive_iff.1 h
    refine isLive_iff.2 ⟨{ s with handles := s.handles + 1 }, ?_, Nat.succ_pos s.handles⟩
    exact (List.getElem?_modify_eq ..).trans (congrArg _ hs)
  · rw [holdSession, isLive_setSession_of_ne hij]
    exact h

/-- A connection is changed, and no other. -/
theorem registry_setRegistry (hr : r < w.registries.length) (f : Registry → Registry)
    (r' : RegistryRef) :
    (w.setRegistry r f).registry r' = if r = r' then f (w.registry r) else w.registry r' := by
  simp only [setRegistry, registry, List.getD_eq_getElem?_getD, List.getElem?_modify]
  split_ifs with h
  · rw [← h, List.getElem?_eq_getElem hr]
    rfl
  · cases w.registries[r']? <;> rfl

/-- A session is registered at a connection, and at no other. -/
theorem sessions_register (hr : r < w.registries.length) (r' : RegistryRef)
    {alive : SessionRef → Bool} :
    ((w.setRegistry r fun x => { x with sessions := x.sessions.register alive id i }).registry
      r').sessions =
      if r = r' then (w.registry r').sessions.register alive id i
      else (w.registry r').sessions := by
  rw [registry_setRegistry hr]
  split_ifs with he
  · rw [he]
  · rfl

/-- There is no connection to change. -/
theorem setRegistry_of_le (hr : w.registries.length ≤ r) (f : Registry → Registry) :
    w.setRegistry r f = w := by
  rw [setRegistry, List.modify_eq_self hr]

/-- Only a connection that there is has a table. -/
theorem lt_of_mem_sessions {entry : String × SessionRef} (h : entry ∈ (w.registry r).sessions) :
    r < w.registries.length := by
  by_contra hr
  rw [registry, List.getD_eq_default _ _ (Nat.le_of_not_lt hr)] at h
  cases h

/-- What a change of a connection leaves alone in its table it leaves alone in all tables. -/
theorem tables_setRegistry {f : Registry → Registry}
    (hf : (f (w.registry r)).sessions.Sublist (w.registry r).sessions) (r' : RegistryRef) :
    ((w.setRegistry r f).registry r').sessions.Sublist (w.registry r').sessions := by
  by_cases hr : r < w.registries.length
  · rw [registry_setRegistry hr]
    split_ifs with he
    · exact he ▸ hf
    · exact .refl _
  · rw [setRegistry_of_le (Nat.le_of_not_lt hr)]

theorem getElem?_session (h : i < w.sessions.length) : w.sessions[i]? = some (w.session i) := by
  rw [session, List.getD_eq_getElem _ _ h, List.getElem?_eq_getElem h]

theorem sessionById?_eq_some_iff : w.sessionById? r id = some i ↔
    (w.registry r).sessions.lookup id = some i ∧ w.isLive i = true := by
  rw [sessionById?, SessionTable.find?, Option.filter_eq_some_iff]

/-- A wait that is over at once comes to what a look finds. -/
theorem waitForKey_eq_look (w : World σ) (r : RegistryRef) (q : KeyQuery) :
    w.waitForKey r q = w.look r q := by
  unfold waitForKey
  cases w.look r q <;> rfl

/-- Who is found by a key is alive. -/
theorem isLive_of_waitForKey {q : KeyQuery} (h : w.waitForKey r q = some i) :
    w.isLive i = true := by
  rw [waitForKey_eq_look] at h
  have hliving := (List.mem_filter.1 (List.mem_of_mem_head? h)).1
  exact (List.mem_filter.1 hliving).2

end World

/-- Each entry of a table is of a session that owns its ID. It lives, or is still to be taken out.
All owners that live are listed. -/
structure Owned {σ : Type} (owners late : List SessionRef) (w : World σ) : Prop where
  nodup : owners.Nodup
  known : ∀ {i : SessionRef}, i ∈ owners → i < w.sessions.length
  distinct : ∀ r, ((w.registry r).sessions.map Prod.fst).Nodup
  owner : ∀ {r : RegistryRef} {id : String} {i : SessionRef},
    (id, i) ∈ (w.registry r).sessions → i ∈ owners
  entry : ∀ {r : RegistryRef} {id : String} {i : SessionRef},
    (id, i) ∈ (w.registry r).sessions → (w.session i).registry = r ∧ (w.session i).id = id
  late : ∀ {r : RegistryRef} {id : String} {i : SessionRef},
    (id, i) ∈ (w.registry r).sessions → w.isLive i = true ∨ i ∈ late
  listed : ∀ {i : SessionRef}, i ∈ owners → w.isLive i = true → w.IsListed i

namespace Owned

variable {σ : Type} {w w' : World σ} {owners late : List SessionRef} {r : RegistryRef}
  {id : String} {i j : SessionRef}

/-- A living owner is what its table has under its ID. -/
theorem lookup_eq (h : Owned owners late w) (hi : i ∈ owners) (hlive : w.isLive i = true) :
    (w.registry (w.session i).registry).sessions.lookup (w.session i).id = some i := by
  obtain ⟨s, hs, hlookup⟩ := h.listed hi hlive
  rwa [World.session_of_getElem? hs]

/-- The session that is found under an ID is the living owner of the ID. -/
theorem sessionById?_eq_some_iff (h : Owned owners late w) :
    w.sessionById? r id = some i ↔ i ∈ owners ∧ w.answersTo r id i = true := by
  rw [World.sessionById?_eq_some_iff, World.answersTo_iff]
  constructor
  · rintro ⟨hlookup, hlive⟩
    have hmem := SessionTable.mem_of_lookup hlookup
    exact ⟨h.owner hmem, hlive, h.entry hmem⟩
  · rintro ⟨hi, hlive, rfl, rfl⟩
    exact ⟨h.lookup_eq hi hlive, hlive⟩

/-- No two living sessions own the same ID. -/
theorem eq_of_answersTo (h : Owned owners late w) (hi : i ∈ owners) (hj : j ∈ owners)
    (hiid : w.answersTo r id i = true) (hjid : w.answersTo r id j = true) : i = j :=
  Option.some.inj
    ((h.sessionById?_eq_some_iff.2 ⟨hi, hiid⟩).symm.trans (h.sessionById?_eq_some_iff.2 ⟨hj, hjid⟩))

theorem mem_sessions_iff (h : Owned owners late w) (hlive : w.isLive i = true) :
    i ∈ (w.registry r).sessions.map Prod.snd ↔ i ∈ owners ∧ (w.session i).registry = r := by
  constructor
  · intro hi
    obtain ⟨⟨id, i⟩, hmem, rfl⟩ := List.mem_map.1 hi
    exact ⟨h.owner hmem, (h.entry hmem).1⟩
  · rintro ⟨hi, rfl⟩
    exact List.mem_map_of_mem (SessionTable.mem_of_lookup (h.lookup_eq hi hlive))

/-- No session is listed twice. -/
theorem nodup_sessions (h : Owned owners late w) (r : RegistryRef) :
    ((w.registry r).sessions.map Prod.snd).Nodup := by
  refine List.Nodup.map_on ?_ (h.distinct r).of_map
  rintro ⟨id, i⟩ hi ⟨other, j⟩ hj rfl
  rw [← (h.entry hi).2, ← (h.entry hj).2]

/-- The living sessions of a connection are the living owners there. -/
theorem livingSessions_perm (h : Owned owners late w) (r : RegistryRef) :
    (w.livingSessions r).Perm (owners.filter (w.livesAt r)) := by
  refine (List.perm_ext_iff_of_nodup ((h.nodup_sessions r).filter _) (h.nodup.filter _)).2 ?_
  intro i
  rw [List.mem_filter, List.mem_filter, World.livesAt_iff]
  constructor
  · rintro ⟨hi, hlive⟩
    obtain ⟨hown, hr⟩ := (h.mem_sessions_iff hlive).1 hi
    exact ⟨hown, hlive, hr⟩
  · rintro ⟨hown, hlive, hr⟩
    exact ⟨(h.mem_sessions_iff hlive).2 ⟨hown, hr⟩, hlive⟩

/-- A new session is accepted if no living owner has its ID. -/
theorem accepts_iff (h : Owned owners late w) (hr : r < w.registries.length) :
    w.accepts r id = true ↔ ∀ j ∈ owners, ¬ w.answersTo r id j = true := by
  rw [World.accepts, decide_eq_true hr, Bool.true_and, Bool.not_eq_true', ← Bool.not_eq_true,
    Option.any_eq_true, not_exists]
  constructor
  · intro hfree j hj hid
    exact hfree j (World.sessionById?_eq_some_iff.1 (h.sessionById?_eq_some_iff.2 ⟨hj, hid⟩))
  · intro hfree j hj
    obtain ⟨hown, hid⟩ := h.sessionById?_eq_some_iff.1 (World.sessionById?_eq_some_iff.2 hj)
    exact hfree j hown hid

/-- A session that was taken out under its own ID is in no table. -/
theorem not_mem_unregister (h : Owned owners late w) : (id, i) ∉ ((w.setRegistry
    (w.session i).registry fun x =>
      { x with sessions := x.sessions.unregister (w.session i).id i }).registry r).sessions := by
  intro hmem
  have hold := (World.tables_setRegistry (SessionTable.unregister_sublist ..) r).subset hmem
  obtain ⟨rfl, rfl⟩ := h.entry hold
  rw [World.registry_setRegistry (World.lt_of_mem_sessions hold), if_pos rfl] at hmem
  exact SessionTable.not_mem_unregister (h.distinct _) hmem

/-! ## What keeps it so -/

/-- Nothing but the tables and the sessions matters. -/
theorem congr (h : Owned owners late w)
    (htables : ∀ r, (w'.registry r).sessions = (w.registry r).sessions)
    (hsessions : w'.sessions = w.sessions) : Owned owners late w' := by
  have hsession (i : SessionRef) : w'.session i = w.session i := by
    rw [World.session, World.session, hsessions]
  have hlive (i : SessionRef) : w'.isLive i = w.isLive i := by
    rw [World.isLive, World.isLive, hsessions]
  have hlisted {i : SessionRef} (hi : w.IsListed i) : w'.IsListed i := by
    obtain ⟨s, hs, hlookup⟩ := hi
    refine ⟨s, hsessions ▸ hs, ?_⟩
    rwa [htables]
  refine ⟨h.nodup, fun hi => ?_, fun r => ?_, fun hmem => ?_, fun hmem => ?_, fun hmem => ?_,
    fun hi hilive => hlisted (h.listed hi (hlive _ ▸ hilive))⟩
  · rw [hsessions]
    exact h.known hi
  · rw [htables]
    exact h.distinct r
  all_goals rw [htables] at hmem
  · exact h.owner hmem
  · rw [hsession]
    exact h.entry hmem
  · rw [hlive]
    exact h.late hmem

/-- Sessions are given up and entries go, and those that stay are of living sessions, or known to be
late. -/
theorem of_later {late' : List SessionRef} (h : Owned owners late w) (hlater : Later w w')
    (htables : ∀ r, (w'.registry r).sessions.Sublist (w.registry r).sessions)
    (hlate : ∀ {r : RegistryRef} {id : String} {i : SessionRef},
      (id, i) ∈ (w'.registry r).sessions → w'.isLive i = true ∨ i ∈ late') :
    Owned owners late' w' where
  nodup := h.nodup
  known := by
    intro i hi
    obtain ⟨s', hs', -⟩ := hlater.sessions (World.getElem?_session (h.known hi))
    exact (List.getElem?_eq_some_iff.1 hs').1
  distinct := fun r => (h.distinct r).sublist ((htables r).map _)
  owner := fun hmem => h.owner ((htables _).subset hmem)
  entry := by
    intro r id i hmem
    have hold := (htables r).subset hmem
    obtain ⟨s', hs', hsame⟩ := hlater.sessions (World.getElem?_session (h.known (h.owner hold)))
    rw [World.session_of_getElem? hs', hsame.registry, hsame.id]
    exact h.entry hold
  late := hlate
  listed := by
    intro i hi hlive
    have hlisted := h.listed hi (hlater.live (World.getElem?_session (h.known hi)) hlive)
    exact hlater.listed hlisted hlive

theorem mono_late {late' : List SessionRef} (h : Owned owners late w) (hsub : late ⊆ late') :
    Owned owners late' w :=
  h.of_later (.refl w) (fun _ => .refl _) fun hmem => (h.late hmem).imp_right fun hi => hsub hi

theorem holdSession (h : Owned owners late w) (hlive : w.isLive i = true) :
    Owned owners late (w.holdSession i) :=
  h.of_later (.holdSession hlive) (fun _ => .refl _) fun hmem =>
    (h.late hmem).imp_left World.isLive_holdSession

/-- A session is given up once more. If that was the last time, it is late. -/
theorem leaveSession (h : Owned owners late w) (i : SessionRef) :
    Owned owners (i :: late) (w.leaveSession i) := by
  refine h.of_later (.leaveSession i) (fun _ => .refl _) fun {r id j} hmem => ?_
  by_cases hij : i = j
  · exact .inr (hij ▸ List.mem_cons_self)
  · rw [World.leaveSession, World.isLive_setSession_of_ne hij]
    exact (h.late hmem).imp_right (List.mem_cons_of_mem i)

/-- A session that is late is taken out. -/
theorem unregister (h : Owned owners (i :: late) w) (hdead : ¬ w.isLive i = true) :
    Owned owners late (w.setRegistry (w.session i).registry fun x =>
      { x with sessions := x.sessions.unregister (w.session i).id i }) := by
  have htables := World.tables_setRegistry (r := (w.session i).registry)
    ((w.registry (w.session i).registry).sessions.unregister_sublist (w.session i).id i)
    (f := fun x => { x with sessions := x.sessions.unregister (w.session i).id i })
  refine h.of_later (.unregister hdead _ _) htables fun {r id j} hmem => ?_
  refine (h.late ((htables r).subset hmem)).imp_right fun hj => (List.mem_cons.1 hj).resolve_left ?_
  rintro rfl
  exact h.not_mem_unregister hmem

/-- A session is late only if nobody holds it. -/
theorem of_isLive (h : Owned owners (i :: late) w) (hlive : w.isLive i = true) :
    Owned owners late w :=
  h.of_later (.refl w) (fun _ => .refl _) fun hmem => by
    rcases h.late hmem with hj | hj
    · exact .inl hj
    · rcases List.mem_cons.1 hj with rfl | hj
      · exact .inl hlive
      · exact .inr hj

/-- A session is made, and not registered yet. -/
theorem addSession (h : Owned owners late w) (s : Session) :
    Owned owners late { w with sessions := w.sessions ++ [s] } := by
  refine h.of_later (.addSession s) (fun _ => .refl _) fun {r id i} hmem => ?_
  rw [World.isLive_addSession _ (Nat.ne_of_lt (h.known (h.owner hmem)))]
  exact h.late hmem

/-- A new session is turned away: the table stays as it is. -/
theorem register_of_not_accepts (h : Owned owners late w) {n : SessionRef}
    (hno : w.accepts r id = false) : Owned owners late (w.setRegistry r fun x =>
      { x with sessions := x.sessions.register w.isLive id n }) := by
  by_cases hr : r < w.registries.length
  · rw [World.accepts, decide_eq_true hr, Bool.true_and, Bool.not_eq_false'] at hno
    have hsame (r' : RegistryRef) : ((w.setRegistry r fun x =>
        { x with sessions := x.sessions.register w.isLive id n }).registry r').sessions =
          (w.registry r').sessions := by
      rw [World.sessions_register hr]
      split_ifs with he
      · exact SessionTable.register_of_taken (he ▸ hno)
      · rfl
    refine h.of_later ?_ (fun r' => ?_) fun {r' _ _} hmem => ?_
    · exact .setRegistry r fun hlive hlookup => SessionTable.lookup_register hlookup hlive
    · rw [hsame]
    · rw [hsame] at hmem
      exact h.late hmem
  · rw [World.setRegistry_of_le (Nat.le_of_not_lt hr)]
    exact h

/-- A new session is accepted: it takes the place of a session that is gone, if there is one. -/
theorem register_of_accepts (h : Owned owners late w) {n : SessionRef} {s : Session}
    (hs : w.sessions[n]? = some s) (hlive : w.isLive n = true) (hnew : n ∉ owners)
    (haccepts : w.accepts s.registry s.id = true) :
    Owned (owners ++ [n]) late (w.setRegistry s.registry fun x =>
      { x with sessions := x.sessions.register w.isLive s.id n }) := by
  rw [World.accepts, Bool.and_eq_true, decide_eq_true_eq, Bool.not_eq_true'] at haccepts
  obtain ⟨hr, hfree⟩ := haccepts
  let w' := w.setRegistry s.registry fun x =>
    { x with sessions := x.sessions.register w.isLive s.id n }
  have htable (r : RegistryRef) : (w'.registry r).sessions =
      if s.registry = r then (w.registry r).sessions.register w.isLive s.id n
      else (w.registry r).sessions := World.sessions_register hr r
  have hentry {r : RegistryRef} {id : String} {i : SessionRef}
      (hmem : (id, i) ∈ (w'.registry r).sessions) :
      (id, i) ∈ (w.registry r).sessions ∨ (s.registry = r ∧ s.id = id ∧ n = i) := by
    rw [htable] at hmem
    split_ifs at hmem with he
    · refine (SessionTable.mem_register_cases hmem).imp_right fun hnew => ?_
      cases hnew
      exact ⟨he, rfl, rfl⟩
    · exact .inl hmem
  have hdistinct (r : RegistryRef) : ((w'.registry r).sessions.map Prod.fst).Nodup := by
    rw [htable]
    split_ifs
    · exact SessionTable.nodup_register (h.distinct r)
    · exact h.distinct r
  have hsession : w.session n = s := World.session_of_getElem? hs
  refine ⟨?_, fun hi => ?_, hdistinct, fun hmem => ?_, fun hmem => ?_, fun hmem => ?_,
    fun {i} hi hilive => ?_⟩
  · exact h.nodup.append (List.nodup_singleton n) (List.disjoint_singleton.2 hnew)
  · rcases List.mem_append.1 hi with hi | hi
    · exact h.known hi
    · obtain rfl := List.mem_singleton.1 hi
      exact World.lt_of_isLive hlive
  · rcases hentry hmem with hold | ⟨-, -, rfl⟩
    · exact List.mem_append_left _ (h.owner hold)
    · exact List.mem_append_right _ (List.mem_singleton_self _)
  · rcases hentry hmem with hold | ⟨rfl, rfl, rfl⟩
    · exact h.entry hold
    · exact ⟨congrArg Session.registry hsession, congrArg Session.id hsession⟩
  · rcases hentry hmem with hold | ⟨-, -, rfl⟩
    · exact h.late hold
    · exact .inl hlive
  · rcases List.mem_append.1 hi with hi | hi
    · have hlater : Later w w' :=
        .setRegistry _ fun hlive hlookup => SessionTable.lookup_register hlookup hlive
      exact hlater.listed (h.listed hi hilive) hilive
    · obtain rfl := List.mem_singleton.1 hi
      refine ⟨s, hs, SessionTable.lookup_of_mem (hdistinct s.registry) ?_⟩
      rw [htable, if_pos rfl]
      exact SessionTable.mem_register_of_free hfree

/-- Whether an ID is free is not up to a session that is not registered yet. -/
theorem accepts_addSession (h : Owned owners late w) (s : Session) :
    World.accepts { w with sessions := w.sessions ++ [s] } r id = w.accepts r id := by
  unfold World.accepts
  show (decide (r < w.registries.length) && !((w.registry r).sessions.lookup id).any _) = _
  cases hlookup : (w.registry r).sessions.lookup id with
  | none => rfl
  | some j =>
    rw [Option.any_some, Option.any_some,
      World.isLive_addSession s
        (Nat.ne_of_lt (h.known (h.owner (SessionTable.mem_of_lookup hlookup))))]

/-- The client takes a session up. It owns its ID if it is accepted under it. -/
theorem adopt (h : Owned owners late w) (i : SystemRef) (k : SinkRef) (x : RemoteSession) :
    Owned (if w.accepts (w.system i).registry x.id then owners ++ [w.sessions.length] else owners)
      late ((Action.adoptSession i k x).exec w).2 := by
  split_ifs with haccepts
  · have hnew : w.sessions.length ∉ owners := fun hn => Nat.lt_irrefl _ (h.known hn)
    exact (h.addSession _).register_of_accepts List.getElem?_concat_length
      (World.isLive_iff.2 ⟨_, List.getElem?_concat_length, Nat.zero_lt_one⟩) hnew
      ((h.accepts_addSession _).trans haccepts)
  · exact (h.addSession _).register_of_not_accepts
      ((h.accepts_addSession _).trans (Bool.not_eq_true _ ▸ haccepts))

end Owned

end Client

end ContentDecryption
