import ContentDecryption.Proofs.Client.Changes
import Mathlib.Data.List.Nodup

/-!
# Who holds a session, and when it is revoked

A session is held by the application and by its handles across the boundary, each of them
once for every reference that it has. When nobody holds it any more the service is told, at
the sink that the session was made with, that no more notices are wanted. `Tenure` is what
all of this comes to between any two calls: a session counts those who hold it, and it has
been revoked once if that is nobody, and not at all if it is anybody.

A reference that is handed from one to the other on the way, and is nobody's for a moment,
is counted with those that the application holds. So each action says in its statement whose
reference it takes and whom it leaves it to.

Main definitions:

* `Watched`: a service of which every request is written down;
* `World.revocations`, `World.handlesOn`: how often a session was revoked, and who holds it;
* `Apart`: no two sessions were asked for with one sink;
* `Tenure`: the counts agree.

Main results:

* `Tenure.hold`, `Tenure.dropSession`: the application takes a reference, and gives one up;
* `Tenure.addHandle`, `Tenure.closeHandle`: a handle takes a reference over, and returns it;
* `keeps_dropHandle`, `keeps_receiveAll` and those beside them: the actions that leave the
  application's references as they are.
-/

namespace ContentDecryption

namespace Client

open Service

/-! ## A service that is watched -/

/-- A service of which every request is written down. -/
structure Watched (σ : Type) where
  inner : σ

instance {σ : Type} [Service σ] : Service (Watched σ) where
  respond r s m :=
    let x := Service.respond r s.inner m
    ⟨x.answer, ⟨x.service⟩, x.memory⟩
  hasSystemRequests s := Service.hasSystemRequests s.inner
  release remote s m :=
    let (service, memory) := Service.release remote s.inner m
    (⟨service⟩, memory)
  setConnected up s := ⟨Service.setConnected up s.inner⟩
  sinks s := Service.sinks s.inner
  decryptor? s := Service.decryptor? s.inner
  recorded _ := true

/-- A session as it was handed out, with the sink that it was asked for with. -/
abbrev Grant := SinkRef × RemoteSession

/-- What a session was made from. -/
def Session.grant (s : Session) : Grant := (s.sink, ⟨s.remote, s.id, s.bufferId, s.extended⟩)

namespace World

variable {σ : Type} (w : World σ)

/-- How often a session of the service was told that no more notices are wanted at a sink. -/
def revocations (remote : Nat) (k : SinkRef) : Nat :=
  w.journal.count (.asked (.session remote (.revoke k)))

/-- How many handles across the boundary hold a session. -/
def handlesOn (i : SessionRef) : Nat := w.handles.countP fun x => x.live && x.session == i

theorem revocations_record (e : Entry) (he : ∀ r, e ≠ .asked r) (remote : Nat) (k : SinkRef) :
    World.revocations { w with journal := e :: w.journal } remote k = w.revocations remote k :=
  List.count_cons_of_ne (he _)

variable [Service σ]

theorem revocations_answered (w : World (Watched σ)) {r : Request} {remote : Nat} {k : SinkRef}
    (hr : r ≠ .session remote (.revoke k)) :
    (w.answered r).revocations remote k = w.revocations remote k :=
  List.count_cons_of_ne fun h => hr (by injection h)

theorem revocations_revoked (w : World (Watched σ)) (remote : Nat) (k : SinkRef) :
    (w.answered (.session remote (.revoke k))).revocations remote k =
      w.revocations remote k + 1 :=
  List.count_cons_self

end World

/-! ## Grants -/

/-- Each session was asked for with a sink of its own, before there was the sink `l`. -/
structure Apart (l : SinkRef) (grants : List Grant) : Prop where
  nodup : (grants.map Prod.fst).Nodup
  lt : ∀ g ∈ grants, g.1 < l

namespace Apart

variable {l l' : SinkRef} {grants : List Grant}

theorem nil (l : SinkRef) : Apart l [] := ⟨List.nodup_nil, fun _ hg => nomatch hg⟩

theorem mono (h : Apart l grants) (hl : l ≤ l') : Apart l' grants :=
  ⟨h.nodup, fun g hg => Nat.lt_of_lt_of_le (h.lt g hg) hl⟩

/-- The next session is asked for with the next sink. -/
theorem concat (h : Apart l grants) {g : Grant} (hg : g.1 = l) :
    Apart (l + 1) (grants ++ [g]) := by
  refine ⟨?_, fun g' hg' => ?_⟩
  · rw [List.map_append, List.nodup_append]
    refine ⟨h.nodup, List.nodup_singleton _, fun k hk k' hk' => ?_⟩
    obtain ⟨g', hg', rfl⟩ := List.mem_map.1 hk
    obtain rfl := List.mem_singleton.1 hk'
    exact fun hsame => Nat.ne_of_lt (h.lt g' hg') (hsame.trans hg)
  · rcases List.mem_append.1 hg' with hold | hlast
    · exact Nat.lt_succ_of_lt (h.lt g' hold)
    · obtain rfl := List.mem_singleton.1 hlast
      exact Nat.lt_succ_of_le (Nat.le_of_eq hg)

end Apart

/-! ## The counts agree -/

/-- The sessions of a world were made from these grants; `held` are the references that the
application has, and there are so many sinks and handles. -/
structure Tenure {σ : Type} (grants : List Grant) (held : List SessionRef) (sinks handles : Nat)
    (w : World σ) : Prop where
  made : w.sessions.map Session.grant = grants
  /-- A session counts those who hold it. -/
  count : ∀ {i : SessionRef} {s : Session}, w.sessions[i]? = some s →
    s.handles = held.count i + w.handlesOn i
  /-- It has been revoked if that is nobody. -/
  revoked : ∀ {i : SessionRef} {s : Session}, w.sessions[i]? = some s →
    w.revocations s.remote s.sink = if s.handles = 0 then 1 else 0
  /-- Nothing else has been revoked. -/
  told : ∀ {remote : Nat} {k : SinkRef}, 0 < w.revocations remote k →
    ∃ g ∈ grants, g.2.index = remote ∧ g.1 = k
  apart : Apart sinks grants
  known : ∀ i ∈ held, i < grants.length
  sinkCount : w.sinks.length = sinks
  sized : Sized grants.length handles w

namespace Tenure

variable {σ : Type} {grants : List Grant} {held : List SessionRef} {l m : Nat}
  {w w' : World σ}

theorem length_sessions (h : Tenure grants held l m w) : w.sessions.length = grants.length := by
  rw [← h.made, List.length_map]

theorem grant_of_session (h : Tenure grants held l m w) {i : SessionRef} {s : Session}
    (hs : w.sessions[i]? = some s) : grants[i]? = some s.grant := by
  rw [← h.made, List.getElem?_map, hs, Option.map_some]

theorem exists_session (h : Tenure grants held l m w) {i : SessionRef} (hi : i < grants.length) :
    ∃ s, w.sessions[i]? = some s :=
  ⟨_, List.getElem?_eq_getElem (h.length_sessions ▸ hi)⟩

/-- Two sessions have two sinks. -/
theorem sink_ne (h : Tenure grants held l m w) {i j : SessionRef} {s t : Session}
    (hs : w.sessions[i]? = some s) (ht : w.sessions[j]? = some t) (hne : i ≠ j) :
    s.sink ≠ t.sink := by
  intro hsink
  have hi : (grants.map Prod.fst)[i]? = some s.sink := by
    rw [List.getElem?_map, h.grant_of_session hs]
    rfl
  have hj : (grants.map Prod.fst)[j]? = some s.sink := by
    rw [List.getElem?_map, h.grant_of_session ht, hsink]
    rfl
  obtain ⟨hlt, -⟩ := List.getElem?_eq_some_iff.1 hi
  exact hne ((List.getElem?_inj hlt h.apart.nodup).1 (hi.trans hj.symm))

/-- Sessions, handles, sinks and revocations decide, as long as references stay good. -/
theorem congr_sized (h : Tenure grants held l m w) (hsized : Sized grants.length m w')
    (hsessions : w'.sessions = w.sessions) (hhandles : w'.handles = w.handles)
    (hsinks : w'.sinks.length = w.sinks.length)
    (hrevocations : ∀ remote k, w'.revocations remote k = w.revocations remote k) :
    Tenure grants held l m w' where
  made := by rw [hsessions, h.made]
  count := by
    intro i s hs
    rw [World.handlesOn, hhandles]
    exact h.count (hsessions ▸ hs)
  revoked := by
    intro i s hs
    rw [hrevocations]
    exact h.revoked (hsessions ▸ hs)
  told := by
    intro remote k hk
    exact h.told (hrevocations remote k ▸ hk)
  apart := h.apart
  known := h.known
  sinkCount := hsinks.trans h.sinkCount
  sized := hsized

theorem congr (h : Tenure grants held l m w) (hsessions : w'.sessions = w.sessions)
    (hhandles : w'.handles = w.handles) (hbridges : w'.bridges = w.bridges)
    (hsinks : w'.sinks.length = w.sinks.length) (hjournal : w'.journal = w.journal) :
    Tenure grants held l m w' :=
  h.congr_sized (h.sized.congr (congrArg List.length hsessions) hhandles hbridges) hsessions
    hhandles hsinks fun remote k => by rw [World.revocations, hjournal, World.revocations]

/-- Something is written down that is no request. -/
theorem record (h : Tenure grants held l m w) {e : Entry} (he : ∀ r, e ≠ .asked r) :
    Tenure grants held l m { w with journal := e :: w.journal } :=
  h.congr_sized (h.sized.congr rfl rfl rfl) rfl rfl rfl (w.revocations_record e he)

/-- A bridge is changed. -/
theorem setBridge [Service σ] (h : Tenure grants held l m w) {b : BridgeRef}
    {f : Callback.Bridge → Callback.Bridge} (hc : Change (fun _ => True) w (w.setBridge b f)) :
    Tenure grants held l m (w.setBridge b f) :=
  h.congr_sized (h.sized.change hc) rfl rfl rfl fun _ _ => rfl

/-- In which order the application took its references does not matter. -/
theorem perm {held' : List SessionRef} (h : Tenure grants held l m w) (hp : held.Perm held') :
    Tenure grants held' l m w where
  made := h.made
  count := fun hs => hp.count_eq _ ▸ h.count hs
  revoked := h.revoked
  told := h.told
  apart := h.apart
  known := fun i hi => h.known i (hp.mem_iff.2 hi)
  sinkCount := h.sinkCount
  sized := h.sized

/-- The references to a session that somebody holds become others in number. The session is revoked
just if there are none left. -/
theorem recount {held' : List SessionRef} {i : SessionRef} {s : Session} {f : Nat → Nat}
    (h : Tenure grants held l m w) (hs : w.sessions[i]? = some s) (hpos : s.handles ≠ 0)
    (hsessions : w'.sessions = w.sessions.modify i fun s => { s with handles := f s.handles })
    (hhandles : w'.handles = w.handles) (hbridges : w'.bridges = w.bridges)
    (hsinks : w'.sinks = w.sinks)
    (hself : held'.count i + s.handles = held.count i + f s.handles)
    (hother : ∀ {j}, i ≠ j → held'.count j = held.count j)
    (hknown : ∀ j ∈ held', j < grants.length)
    (hrevocations : ∀ remote k, w'.revocations remote k = w.revocations remote k +
      if f s.handles = 0 ∧ remote = s.remote ∧ k = s.sink then 1 else 0) :
    Tenure grants held' l m w' := by
  have hon (j : SessionRef) : w'.handlesOn j = w.handlesOn j := by
    rw [World.handlesOn, hhandles, World.handlesOn]
  refine ⟨?_, fun {j t} ht => ?_, fun {j t} ht => ?_, fun {remote k} hk => ?_, h.apart,
    hknown, ?_, ?_⟩
  · have hgrant (s : Session) : Session.grant { s with handles := f s.handles } = s.grant := rfl
    rw [hsessions, map_modify_of_comp hgrant, h.made]
  · rw [hon]
    rw [hsessions] at ht
    rcases getElem?_modify_cases ht with ⟨hne, ht⟩ | ⟨rfl, s', hs', rfl⟩
    · rw [hother hne]
      exact h.count ht
    · cases hs.symm.trans hs'
      have hcount := h.count hs
      show f s.handles = _
      omega
  · rw [hsessions] at ht
    rcases getElem?_modify_cases ht with ⟨hne, ht⟩ | ⟨rfl, s', hs', rfl⟩
    · -- Its sink tells it from the session that the references are to.
      rw [hrevocations, if_neg fun hsame => h.sink_ne hs ht hne hsame.2.2.symm]
      exact h.revoked ht
    · cases hs.symm.trans hs'
      rw [hrevocations, h.revoked hs, if_neg hpos, Nat.zero_add]
      simp only [and_true]
  · rw [hrevocations] at hk
    by_cases hsame : f s.handles = 0 ∧ remote = s.remote ∧ k = s.sink
    · obtain ⟨-, rfl, rfl⟩ := hsame
      exact ⟨_, List.mem_of_getElem? (h.grant_of_session hs), rfl, rfl⟩
    · rw [if_neg hsame] at hk
      exact h.told hk
  · rw [hsinks]
    exact h.sinkCount
  · exact h.sized.congr (by rw [hsessions, List.length_modify]) hhandles hbridges

/-- The application takes one more reference to a session that somebody holds. -/
theorem hold {i : SessionRef} (h : Tenure grants held l m w) (hlive : w.isLive i = true) :
    Tenure grants (i :: held) l m
      (w.setSession i fun s => { s with handles := s.handles + 1 }) := by
  cases hs : w.sessions[i]? with
  | none =>
    rw [World.isLive, hs] at hlive
    cases hlive
  | some s =>
    rw [World.isLive, hs] at hlive
    have hpos : 0 < s.handles := of_decide_eq_true hlive
    refine h.recount hs (Nat.ne_of_gt hpos) rfl rfl rfl rfl ?_ (fun hne => ?_) (fun j hj => ?_)
      fun remote k => ?_
    · rw [List.count_cons_self]
      omega
    · rw [List.count_cons_of_ne hne]
    · rcases List.mem_cons.1 hj with rfl | hj
      · rw [← h.length_sessions]
        exact (List.getElem?_eq_some_iff.1 hs).1
      · exact h.known j hj
    · rw [if_neg fun hzero => absurd hzero.1 (Nat.succ_ne_zero _)]
      rfl

/-- The application gives a reference up. The session is revoked if it was the last one. -/
theorem leave {i : SessionRef} {s : Session} (h : Tenure grants (i :: held) l m w)
    (hs : w.sessions[i]? = some s)
    (hsessions : w'.sessions = w.sessions.modify i fun s => { s with handles := s.handles - 1 })
    (hhandles : w'.handles = w.handles) (hbridges : w'.bridges = w.bridges)
    (hsinks : w'.sinks = w.sinks)
    (hrevocations : ∀ remote k, w'.revocations remote k = w.revocations remote k +
      if s.handles - 1 = 0 ∧ remote = s.remote ∧ k = s.sink then 1 else 0) :
    Tenure grants held l m w' := by
  have hcount := h.count hs
  rw [List.count_cons_self] at hcount
  refine h.recount (f := fun n => n - 1) hs (by omega) hsessions hhandles hbridges hsinks ?_
    (fun hne => ?_) (fun j hj => h.known j (List.mem_cons_of_mem i hj)) hrevocations
  · rw [List.count_cons_self]
    omega
  · rw [List.count_cons_of_ne hne]

variable [Service σ]

/-- A handle across the boundary is closed. The application has to give its reference up. -/
theorem closeHandle {k : HandleRef} {x : Handle} (h : Tenure grants held l m w)
    (hx : w.handles[k]? = some x) (hlive : x.live = true) :
    Tenure grants (x.session :: held) l m (w.setHandle k fun x => { x with live := false }) := by
  have hk : k < m := by
    rw [← h.sized.handles]
    exact (List.getElem?_eq_some_iff.1 hx).1
  have hsession : (w.handle k).session = x.session := by rw [World.handle_of_getElem? hx]
  have hclose : Change (fun _ => True) w (w.setHandle k fun x => { x with live := false }) :=
    .closeHandle k
  refine ⟨h.made, fun {j s} hs => ?_, h.revoked, h.told, h.apart, fun j hj => ?_,
    h.sinkCount, h.sized.change hclose⟩
  · have hcount := h.count hs
    have hon := countP_modify (p := fun x => x.live && x.session == j)
      (f := fun x => { x with live := false }) hx
    show s.handles = _ + List.countP _ (w.handles.modify k _)
    rw [World.handlesOn] at hcount
    by_cases hj : x.session = j
    · subst hj
      rw [List.count_cons_self]
      simp only [hlive, beq_self_eq_true, Bool.and_self, if_true, Bool.false_and,
        Bool.false_eq_true, if_false] at hon
      omega
    · rw [List.count_cons_of_ne hj]
      simp only [beq_eq_false_iff_ne.2 hj, Bool.and_false, Bool.false_eq_true, if_false] at hon
      omega
  · rcases List.mem_cons.1 hj with rfl | hj
    · exact hsession ▸ h.sized.session hk
    · exact h.known j hj

omit [Service σ] in
/-- A handle is made, and takes over a reference that the application had. -/
theorem addHandle {x : Handle} (h : Tenure grants (x.session :: held) l m w)
    (hlive : x.live = true) :
    Tenure grants held l (m + 1) { w with handles := w.handles ++ [x] } := by
  refine ⟨h.made, fun {j s} hs => ?_, h.revoked, h.told, h.apart,
    fun j hj => h.known j (List.mem_cons_of_mem _ hj), h.sinkCount,
    h.sized.addHandle (h.known _ List.mem_cons_self)⟩
  have hcount := h.count hs
  show s.handles = _ + List.countP _ (w.handles ++ [x])
  rw [List.count_cons] at hcount
  rw [List.countP_append, List.countP_singleton, hcount, World.handlesOn, hlive, Bool.true_and]
  omega

end Tenure

/-! ## What actions do to the references -/

section Actions

variable {σ : Type} [Service σ] {grants : List Grant} {held : List SessionRef} {l m : Nat}

omit [Service σ] in
theorem keeps_setRegistry (r : RegistryRef) (f : Registry → Registry) :
    (modify fun w => w.setRegistry r f : Action σ Unit).Keeps (Tenure grants held l m) :=
  .modify fun _ hw => hw.congr rfl rfl rfl rfl rfl

/-- A request that revokes nothing. -/
theorem keeps_ask {r : Request} (hr : ∀ remote k, r ≠ .session remote (.revoke k)) :
    (Action.ask r : Action (Watched σ) r.Answer).Keeps (Tenure grants held l m) := by
  intro w hw
  rw [Action.world_ask]
  exact hw.congr_sized (hw.sized.congr rfl rfl rfl) rfl rfl rfl fun remote k =>
    w.revocations_answered (hr remote k)

theorem keeps_closeUnused :
    (Action.closeUnused : Action (Watched σ) Unit).Keeps (Tenure grants held l m) :=
  .closeUnused (fun _ h => h.congr rfl rfl rfl rfl rfl) (keeps_ask fun _ _ => nofun)

theorem keeps_dropRegistry (r : RegistryRef) :
    (Action.dropRegistry r : Action (Watched σ) Unit).Keeps (Tenure grants held l m) :=
  .bind (keeps_setRegistry r _) fun _ => keeps_closeUnused

theorem keeps_dropSystem (i : SystemRef) :
    (Action.dropSystem i : Action (Watched σ) Unit).Keeps (Tenure grants held l m) :=
  .bind (.modify fun _ hw => hw.congr rfl rfl rfl rfl rfl) fun _ => keeps_closeUnused

/-! ### Connections and key systems -/

theorem keeps_connect (settings : Settings) :
    (Action.connect settings : Action (Watched σ) RegistryRef).Keeps (Tenure grants held l m) :=
  .connect (fun _ _ aside _ => keeps_ask fun remote _ => aside remote _)
    (fun _ _ hw => hw.congr rfl rfl rfl rfl rfl) settings

theorem keeps_createSystem (r : RegistryRef) (keySystem : String) :
    (Action.createSystem r keySystem : Action (Watched σ) SystemRef).Keeps
      (Tenure grants held l m) :=
  .createSystem (fun _ _ aside _ => keeps_ask fun remote _ => aside remote _)
    (fun _ _ hw => hw.congr rfl rfl rfl rfl rfl) keySystem

theorem keeps_changeConnection (up : Bool) :
    (Action.changeConnection up : Action (Watched σ) Unit).Keeps (Tenure grants held l m) := by
  refine .bind (.modify fun _ hw => hw.congr rfl rfl rfl rfl rfl) fun _ => .get_bind fun w hw => ?_
  cases w.subscriber with
  | none => exact hw
  | some r =>
    refine Action.Keeps.ite (fun _ => ?_) (fun _ => .pure ()) w hw
    cases up with
    | true =>
      exact .bind (keeps_ask (r := .accessor) fun _ _ => nofun) fun _ => keeps_setRegistry r _
    | false => exact .bind (.pure none) fun _ => keeps_setRegistry r _

theorem keeps_install (r : RegistryRef) :
    (Boundary.install r : Action (Watched σ) Bool).Keeps (Tenure grants held l m) := by
  refine .get_bind fun w hw => ?_
  exact Action.Keeps.bind (.modify fun _ hw => hw.congr rfl rfl rfl rfl rfl)
    (fun _ => .bind (keeps_dropRegistry r) fun _ => .pure _) w hw

theorem keeps_uninstall :
    (Boundary.uninstall : Action (Watched σ) Bool).Keeps (Tenure grants held l m) := by
  refine .get_bind fun w hw => ?_
  exact Action.Keeps.bind (.modify fun _ hw => hw.congr rfl rfl rfl rfl rfl)
    (fun _ => .bind keeps_closeUnused fun _ => .pure _) w hw

/-! ### Giving references up -/

/-- The application gives a reference up. -/
theorem Tenure.dropSession {i : SessionRef} {w : World (Watched σ)}
    (h : Tenure grants (i :: held) l m w) :
    Tenure grants held l m ((Action.dropSession i).exec w).2 := by
  obtain ⟨s, hs⟩ := h.exists_session (h.known i List.mem_cons_self)
  let left := w.setSession i fun s => { s with handles := s.handles - 1 }
  have hleft : left.sessions[i]? = some { s with handles := s.handles - 1 } := by
    show (w.sessions.modify i _)[i]? = _
    rw [List.getElem?_modify_eq, hs]
    rfl
  have hlive : left.isLive i = decide (0 < s.handles - 1) := by
    rw [World.isLive, hleft]
    rfl
  rw [exec_dropSession]
  by_cases hlast : s.handles - 1 = 0
  · have hsession : left.session i = { s with handles := s.handles - 1 } :=
      World.session_of_getElem? hleft
    rw [if_neg (by rw [hlive, hlast]; decide), exec_endSession, hsession]
    refine keeps_closeUnused _ (h.leave hs rfl rfl rfl rfl fun remote k => ?_)
    show World.revocations (World.answered (left.setRegistry _ _) _) remote k = _
    by_cases hsame : remote = s.remote ∧ k = s.sink
    · obtain ⟨rfl, rfl⟩ := hsame
      rw [World.revocations_revoked, if_pos ⟨hlast, rfl, rfl⟩]
      rfl
    · rw [if_neg fun hall => hsame hall.2, World.revocations_answered]
      · rfl
      · intro heq
        injection heq with hremote hrequest
        injection hrequest with hsink
        exact hsame ⟨hremote.symm, hsink.symm⟩
  · rw [if_pos (by rw [hlive]; exact decide_eq_true (Nat.pos_of_ne_zero hlast))]
    exact h.leave hs rfl rfl rfl rfl fun remote k => by
      rw [if_neg fun hall => hlast hall.1]
      rfl

/-- No handle is closed when the application gives a reference up. -/
theorem handles_dropSession (w : World σ) (i : SessionRef) :
    ((Action.dropSession i).exec w).2.handles = w.handles :=
  Action.Keeps.dropSession (P := fun w' => w'.handles = w.handles) (fun h => h) (fun h => h)
    (.ask fun h => h) (fun h => h) i w rfl

/-- A handle gives its own reference up. -/
theorem keeps_dropHandle {h : HandleRef} (hh : h < m) :
    (Action.dropHandle h : Action (Watched σ) Unit).Keeps (Tenure grants held l m) := by
  refine .get_bind fun w hw => ?_
  have hx : w.handles[h]? = some (w.handle h) := by
    have hlt : h < w.handles.length := by rwa [hw.sized.handles]
    rw [World.handle_of_getElem? (List.getElem?_eq_getElem hlt), List.getElem?_eq_getElem hlt]
  dsimp only
  split
  · next hlive =>
    have hclosed := hw.closeHandle hx hlive
    rw [Action.exec_modify_bind]
    split
    · next b _ => exact (hclosed.setBridge (.detach b)).dropSession
    · exact hclosed.dropSession
  · exact hw

/-! ### Taking notices in -/

/-- No notice revokes anything but by a handle that is given up in a callback. -/
theorem tended (grants : List Grant) (held : List SessionRef) (l m : Nat) :
    Tended (σ := Watched σ) (fun _ => True) (· < m) (Tenure grants held l m) where
  attached := fun hw hb => hw.sized.attached hb
  record := fun he hw => hw.record he
  offer := fun b e hw => hw.setBridge (.offer b clientThread e)
  leave := fun b hw => hw.setBridge (.leave b clientThread)
  attach := fun b _ hh hw => hw.setBridge (.attach b _ (by rwa [hw.sized.handles]))
  learnKey := fun _ _ _ hw => hw.congr rfl rfl rfl (List.length_modify ..) rfl
  learnError := fun _ _ hw => hw.congr rfl rfl rfl (List.length_modify ..) rfl
  signal := fun _ hw => hw.congr rfl rfl rfl rfl rfl
  holdRegistry := fun _ hw => hw.congr rfl rfl rfl rfl rfl
  release := fun hh _ => .bind (.guarded (keeps_dropHandle hh)) fun _ =>
    .modify fun _ hw => hw.record fun _ => nofun
  dropRegistry := keeps_dropRegistry

theorem keeps_receiveAll (notices : List Delivery) :
    (Action.receiveAll notices : Action (Watched σ) Unit).Keeps (Tenure grants held l m) :=
  (tended grants held l m).receiveAll fun _ => trivial

theorem keeps_attachBridge (b : BridgeRef) {h : HandleRef} (hh : h < m) :
    (Action.attachBridge b h : Action (Watched σ) Unit).Keeps (Tenure grants held l m) :=
  (tended grants held l m).attachBridge b hh

end Actions

end Client

end ContentDecryption
