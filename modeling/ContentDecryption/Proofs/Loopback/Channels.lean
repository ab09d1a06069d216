import ContentDecryption.Loopback.Engine
import ContentDecryption.Proofs.Channel.Exchange

/-!
# The channels of the loopback engine

Each session of the loopback engine has a channel of its own, and the name of the
channel is good for as long as somebody holds the session. Whatever the engine is
asked, this stays so. Between two decrypt calls all channels are at rest.

Main definitions:

* `Engine.Sound`: the engine and the memory with its channels fit each other;
* `Engine.Alike`: the same sessions, with the same channels and holders.

Main results:

* `Engine.alike_respond`: a request for anything but a session changes no channel;
* `Engine.Sound.createSession_cases`: a new session has a channel of its own, under the name that
  the client is told;
* `Engine.Sound.release`: with the last holder goes the name of this channel and of no other;
* `Engine.Sound.setObject`: a decrypt call at one channel leaves the others alone;
* `Engine.Sound.decryptor_eq`: a held session serves its own channel with its own keys.
-/

namespace ContentDecryption

namespace Loopback

open Service (SessionRequest SessionSetup SinkRef)

namespace Session

/-- No key of the session is empty. -/
def Keyed (s : Session) : Prop := ∀ k ∈ s.keys, k.2 ≠ []

/-- The same session, with other contents perhaps, and held only if it was held before. -/
structure Within (s t : Session) : Prop where
  server : t.server = s.server
  held : 0 < t.holders → 0 < s.holders
  keyed : s.Keyed → t.Keyed

/-- The same session, with other contents perhaps, and held if it was held before. -/
structure Alike (s t : Session) : Prop extends Within s t where
  kept : 0 < s.holders → 0 < t.holders

theorem Alike.of_eq {s t : Session} (hserver : t.server = s.server)
    (hholders : t.holders = s.holders) (hkeyed : s.Keyed → t.Keyed) : s.Alike t where
  server := hserver
  held := fun h => by rwa [hholders] at h
  keyed := hkeyed
  kept := fun h => by rwa [hholders]

theorem Alike.refl (s : Session) : s.Alike s := .of_eq rfl rfl fun h => h

/-- A license has no empty keys. -/
theorem keys_of_decode? (b : Bytes) :
    ∀ {records : List KeyRecord}, License.decode? b = some records → ∀ k ∈ records, k.2 ≠ [] := by
  fun_induction License.decode? b with
  | case1 b h =>
    intro records hr
    cases hr
    exact fun k hk => nomatch hk
  | case2 | case3 | case4 => exact fun hr => nomatch hr
  | case5 b hb id afterId hid key rest hkey hne ih =>
    intro records hr
    obtain ⟨tail, htail, rfl⟩ := Option.map_eq_some_iff.1 hr
    intro k hk
    rcases List.mem_cons.1 hk with rfl | hk
    · simpa using hne
    · exact ih htail k hk

theorem alike_update (s : Session) (response : Bytes) : s.Alike (s.update response).2 := by
  unfold update
  split
  · exact .refl s
  · cases hr : License.decode? response with
    | none => exact .refl s
    | some records =>
      refine .of_eq rfl rfl fun h k hk => ?_
      rcases List.mem_append.1 hk with hk | hk
      · exact h k hk
      · exact keys_of_decode? response hr k hk

theorem alike_extend (s : Session) (f : Extension → Extension) : s.Alike (s.extend f).2 := by
  unfold extend
  split <;> exact .of_eq rfl rfl fun h => h

theorem alike_setParameter (s : Session) (name value : String) :
    s.Alike (s.setParameter name value).2 := by
  unfold setParameter
  split <;> exact .of_eq rfl rfl fun h => h

end Session

section Rel

variable {α β : Type} {R : α → β → Prop} {a : Option α} {b : Option β}

theorem exists_left_of_rel (h : Option.Rel R a b) {t : β} (ht : b = some t) :
    ∃ s, a = some s ∧ R s t := by
  cases h with
  | none => cases ht
  | some hst =>
    cases ht
    exact ⟨_, rfl, hst⟩

theorem exists_right_of_rel (h : Option.Rel R a b) {s : α} (hs : a = some s) :
    ∃ t, b = some t ∧ R s t := by
  cases h with
  | none => cases hs
  | some hst =>
    cases hs
    exact ⟨_, rfl, hst⟩

end Rel

namespace Engine

/-- The same sessions, with other contents perhaps. -/
def Alike (e e' : Engine) : Prop :=
  ∀ i : Nat, Option.Rel Session.Alike e.sessions[i]? e'.sessions[i]?

/-- The same sessions, with other contents perhaps, and some of them no longer held. -/
def Within (e e' : Engine) : Prop :=
  ∀ i : Nat, Option.Rel Session.Within e.sessions[i]? e'.sessions[i]?

theorem Alike.within {e e' : Engine} (h : e.Alike e') : e.Within e' := by
  have himp {a b : Option Session} (hr : Option.Rel Session.Alike a b) :
      Option.Rel Session.Within a b := by
    cases hr with
    | none => exact .none
    | some hst => exact .some hst.toWithin
  exact fun i => himp (h i)

theorem Alike.of_sessions {e e' : Engine} (h : e'.sessions = e.sessions) : e.Alike e' := by
  intro i
  rw [h]
  cases e.sessions[i]? with
  | none => exact .none
  | some s => exact .some (.refl s)

/-- What a change of one session makes of the sessions. -/
theorem rel_setSession {R : Session → Session → Prop} (hR : ∀ s, R s s) {e : Engine} {i : Nat}
    {s t : Session} (hs : e.sessions[i]? = some s) (h : R s t) (k : Nat) :
    Option.Rel R e.sessions[k]? (e.setSession i t).sessions[k]? := by
  by_cases hk : i = k
  · subst hk
    have hlt : i < e.sessions.length := (List.getElem?_eq_some_iff.1 hs).1
    rw [hs, setSession, List.getElem?_set_self hlt]
    exact .some h
  · rw [setSession, List.getElem?_set_ne hk]
    cases e.sessions[k]? with
    | none => exact .none
    | some u => exact .some (hR u)

theorem alike_respondSession (e : Engine) (s : Session) (r : SessionRequest) :
    s.Alike (e.respondSession s r).2.1 ∧ (e.respondSession s r).2.2.sessions = e.sessions := by
  cases r with
  | load | close | resetOutputProtection | error | revoke =>
    exact ⟨.of_eq rfl rfl fun h => h, rfl⟩
  | update response => exact ⟨s.alike_update response, rfl⟩
  | remove => exact ⟨.of_eq rfl rfl fun _ k hk => (nomatch hk), rfl⟩
  | setParameter name value => exact ⟨s.alike_setParameter name value, rfl⟩
  | setDrmHeader | challengeData | cancelChallengeData | selectKeyId | cleanDecryptContext =>
    exact ⟨s.alike_extend _, rfl⟩
  | storeLicenseData license =>
    refine ⟨.refl s, ?_⟩
    show (e.storeLicense license).2.sessions = e.sessions
    unfold storeLicense
    split <;> rfl

theorem respond_session {e : Engine} {i : Nat} {s : Session} (hs : e.sessions[i]? = some s)
    (q : SessionRequest) (m : SharedMemory) :
    let x := e.respondSession s q
    respond (.session i q) e m = ⟨some x.1, x.2.2.setSession i x.2.1, m⟩ := by
  simp only [respond, hs]

/-- A request about a session is not for a new one. -/
theorem session_ne_createSession (i : Nat) (q : SessionRequest) (setup : SessionSetup)
    (k : SinkRef) : Service.Request.session i q ≠ .createSession setup k := by
  intro h
  cases h

/-- A request for anything but a session changes one session at most, and nothing in the memory. -/
theorem respond_cases (r : Service.Request) (old : ∀ setup k, r ≠ .createSession setup k)
    (e : Engine) (m : SharedMemory) :
    (respond r e m).memory = m ∧
      ((respond r e m).service.sessions = e.sessions ∨
        ∃ i q s, r = .session i q ∧ e.sessions[i]? = some s ∧
          (respond r e m).service.sessions = e.sessions.set i (e.respondSession s q).2.1) := by
  cases r with
  | openConnection | accessor | closeConnection | isTypeSupported | metadata | system =>
    exact ⟨rfl, .inl rfl⟩
  | createSession setup k => exact absurd rfl (old setup k)
  | setServerCertificate keySystem certificate =>
    refine ⟨rfl, .inl ?_⟩
    show (e.setServerCertificate keySystem certificate).2.sessions = e.sessions
    unfold setServerCertificate
    split
    · rfl
    · split <;> rfl
  | session i q =>
    cases hs : e.sessions[i]? with
    | none =>
      have hr : respond (.session i q) e m = ⟨none, e, m⟩ := by simp only [respond, hs]
      rw [hr]
      exact ⟨rfl, .inl rfl⟩
    | some s =>
      have hsessions := (e.alike_respondSession s q).2
      rw [respond_session hs]
      exact ⟨rfl, .inr ⟨i, q, s, rfl, hs, by rw [setSession, hsessions]⟩⟩

/-- A request for anything but a session changes no channel, and nothing in the memory. -/
theorem alike_respond (r : Service.Request) (old : ∀ setup k, r ≠ .createSession setup k)
    (e : Engine) (m : SharedMemory) :
    e.Alike (respond r e m).service ∧ (respond r e m).memory = m := by
  obtain ⟨hmemory, hsame | ⟨i, q, s, -, hs, hset⟩⟩ := respond_cases r old e m
  · exact ⟨.of_sessions hsame, hmemory⟩
  · refine ⟨fun k => ?_, hmemory⟩
    rw [hset]
    exact rel_setSession .refl hs (e.alike_respondSession s q).1 k

/-! ## The engine and its memory -/

variable {e e' : Engine} {m : SharedMemory}

/-- The engine and the memory with its channels fit each other. -/
structure Sound (e : Engine) (m : SharedMemory) : Prop where
  capacity : ∀ {i : Nat} {s : Session}, e.sessions[i]? = some s →
    s.server.capacity = channelCapacity
  /-- Each session has a channel of its own. -/
  distinct : ∀ {i j : Nat} {s t : Session}, e.sessions[i]? = some s → e.sessions[j]? = some t →
    s.server.object = t.server.object → i = j
  known : ∀ {i : Nat} {s : Session}, e.sessions[i]? = some s → s.server.object < m.objects.length
  ready : ∀ {i : Nat} {s : Session}, e.sessions[i]? = some s →
    Channel.Ready channelCapacity (m.object s.server.object)
  /-- The channel of a held session is found under its name. -/
  named : ∀ {i : Nat} {s : Session}, e.sessions[i]? = some s → 0 < s.holders →
    ∃ path, SharedMemory.pathOf s.server.name = .ok path ∧
      m.names.lookup path = some s.server.object
  keyed : ∀ {i : Nat} {s : Session}, e.sessions[i]? = some s → s.Keyed

theorem sound_of_nil (h : e.sessions = []) (m : SharedMemory) : e.Sound m := by
  have hnone {i : Nat} {s : Session} (hs : e.sessions[i]? = some s) : False := by
    rw [h] at hs
    cases hs
  exact ⟨fun hs => (hnone hs).elim, fun hs => (hnone hs).elim, fun hs => (hnone hs).elim,
    fun hs => (hnone hs).elim, fun hs => (hnone hs).elim, fun hs => (hnone hs).elim⟩

namespace Sound

theorem within (h : e.Sound m) (hw : e.Within e') : e'.Sound m := by
  have hold {i : Nat} {t : Session} (ht : e'.sessions[i]? = some t) :
      ∃ s, e.sessions[i]? = some s ∧ s.Within t := exists_left_of_rel (hw i) ht
  refine ⟨fun ht => ?_, fun ht hu hobject => ?_, fun ht => ?_, fun ht => ?_, fun ht hheld => ?_,
    fun ht => ?_⟩
  · obtain ⟨s, hs, hst⟩ := hold ht
    rw [hst.server]
    exact h.capacity hs
  · obtain ⟨s, hs, hst⟩ := hold ht
    obtain ⟨v, hv, hvu⟩ := hold hu
    rw [hst.server, hvu.server] at hobject
    exact h.distinct hs hv hobject
  · obtain ⟨s, hs, hst⟩ := hold ht
    rw [hst.server]
    exact h.known hs
  · obtain ⟨s, hs, hst⟩ := hold ht
    rw [hst.server]
    exact h.ready hs
  · obtain ⟨s, hs, hst⟩ := hold ht
    rw [hst.server]
    exact h.named hs (hst.held hheld)
  · obtain ⟨s, hs, hst⟩ := hold ht
    exact hst.keyed (h.keyed hs)

/-- A decrypt call at the channel of one session leaves the others alone. -/
theorem setObject (h : e.Sound m) {k : Nat} {o : SharedObject}
    (ho : Channel.Ready channelCapacity o) : e.Sound (m.setObject k o) where
  capacity := h.capacity
  distinct := h.distinct
  known := by
    intro i s hs
    rw [SharedMemory.length_objects_setObject]
    exact h.known hs
  ready := by
    intro i s hs
    by_cases hk : k = s.server.object
    · rw [← hk, SharedMemory.object_setObject_self _ _ (by rw [hk]; exact h.known hs)]
      exact ho
    · rw [SharedMemory.object_setObject_of_ne _ _ hk]
      exact h.ready hs
  named := h.named
  keyed := h.keyed

/-- A held session serves its own channel with its own keys. -/
theorem decryptor_eq (h : e.Sound m) {i : Nat} {s : Session} (hs : e.sessions[i]? = some s)
    (hheld : 0 < s.holders) :
    e.decryptor? s.server.object = some (s.server, decryptSample s.keys) := by
  have hfind : e.sessions.find? (fun t => decide (0 < t.holders) &&
      t.server.object == s.server.object) = some s := by
    cases hf : e.sessions.find? (fun t => decide (0 < t.holders) &&
        t.server.object == s.server.object) with
    | none =>
      have := List.find?_eq_none.1 hf s (List.mem_of_getElem? hs)
      simp [hheld] at this
    | some t =>
      obtain ⟨j, hj⟩ := List.getElem?_of_mem (List.mem_of_find?_eq_some hf)
      have ht := List.find?_some hf
      simp only [Bool.and_eq_true, beq_iff_eq] at ht
      rw [h.distinct hj hs ht.2, hs] at hj
      rw [Option.some.inj hj]
  rw [decryptor?, hfind]
  rfl

/-! ### Letting a session go -/

/-- Taking a name away from the memory does no harm if it is not that of a held session. -/
theorem unlink (h : e.Sound m) {name : String}
    (hfree : ∀ {i : Nat} {s : Session}, e.sessions[i]? = some s → 0 < s.holders →
      SharedMemory.pathOf s.server.name ≠ SharedMemory.pathOf name) : e.Sound (m.unlink name) where
  capacity := h.capacity
  distinct := h.distinct
  known := by
    intro i s hs
    rw [SharedMemory.objects_unlink]
    exact h.known hs
  ready := by
    intro i s hs
    rw [SharedMemory.object, SharedMemory.objects_unlink]
    exact h.ready hs
  named := by
    intro i s hs hheld
    obtain ⟨path, hpath, hlookup⟩ := h.named hs hheld
    refine ⟨path, hpath, ?_⟩
    cases hname : SharedMemory.pathOf name with
    | error err =>
      have hsame : m.unlink name = m := by simp only [SharedMemory.unlink, hname]
      rwa [hsame]
    | ok other =>
      rw [SharedMemory.lookup_unlink m hname]
      · exact hlookup
      · rintro rfl
        exact hfree hs hheld (hpath.trans hname.symm)
  keyed := h.keyed

end Sound

/-- Nothing happens to a session that nobody holds. Any other loses a holder, and with the last one
goes the name of its channel. -/
theorem release_cases (e : Engine) (i : Nat) (m : SharedMemory) :
    e.release i m = (e, m) ∨
      ∃ s, e.sessions[i]? = some s ∧ 0 < s.holders ∧
        e.release i m = (e.setSession i { s with holders := s.holders - 1 },
          if s.holders = 1 then s.server.drop m else m) := by
  unfold release
  cases hs : e.session? i with
  | none => exact .inl rfl
  | some s =>
    obtain ⟨hi, hheld⟩ := Option.filter_eq_some_iff.1 hs
    exact .inr ⟨s, hi, of_decide_eq_true hheld, rfl⟩

theorem within_release (e : Engine) (i : Nat) (m : SharedMemory) : e.Within (e.release i m).1 := by
  rcases e.release_cases i m with he | ⟨s, hs, hheld, he⟩
  · rw [he]
    exact Alike.within (.of_sessions rfl)
  · rw [he]
    intro k
    exact rel_setSession (t := { s with holders := s.holders - 1 })
      (fun s => (Session.Alike.refl s).toWithin) hs ⟨rfl, fun _ => hheld, fun h => h⟩ k

/-- Sessions other than the one that is let go stay as they are. -/
theorem getElem?_release (e : Engine) {i k : Nat} (m : SharedMemory) (h : i ≠ k) :
    (e.release i m).1.sessions[k]? = e.sessions[k]? := by
  rcases e.release_cases i m with he | ⟨s, -, -, he⟩
  · rw [he]
  · rw [he, setSession, List.getElem?_set_ne h]

/-- With the last holder of a session goes the name of its channel and of no other. -/
theorem Sound.release (h : e.Sound m) (i : Nat) : (e.release i m).1.Sound (e.release i m).2 := by
  have hwithin := h.within (e.within_release i m)
  rcases e.release_cases i m with he | ⟨s, hs, hheld, he⟩
  · rw [he]
    exact h
  · rw [he] at hwithin ⊢
    dsimp only at hwithin ⊢
    split
    · next hlast =>
      refine hwithin.unlink fun {k t} ht htheld hpath => ?_
      obtain ⟨path, hname, hlookup⟩ := h.named hs hheld
      obtain ⟨path', hname', hlookup'⟩ := hwithin.named ht htheld
      rw [hname, hname'] at hpath
      cases hpath
      rw [hlookup] at hlookup'
      have hself : (e.setSession i { s with holders := s.holders - 1 }).sessions[i]? =
          some { s with holders := s.holders - 1 } :=
        List.getElem?_set_self (List.getElem?_eq_some_iff.1 hs).1
      have hik : i = k := hwithin.distinct hself ht (Option.some.inj hlookup')
      rw [← hik, hself] at ht
      cases ht
      simp only [hlast] at htheld
      omega
    · exact hwithin

/-! ### Making a session -/

/-- A new session with a channel of its own, at rest, under a name that led nowhere. -/
theorem Sound.concat (h : e.Sound m) {s : Session} {path : String} {m' : SharedMemory}
    (hsessions : e'.sessions = e.sessions ++ [s])
    (hserver : s.server = ⟨s.server.name, m.objects.length, channelCapacity⟩)
    (hkeys : s.keys = []) (hpath : SharedMemory.pathOf s.server.name = .ok path)
    (hfree : m.names.lookup path = none) (hlength : m'.objects.length = m.objects.length + 1)
    (hready : Channel.Ready channelCapacity (m'.object m.objects.length))
    (hold : ∀ {k : Nat}, k < m.objects.length → m'.object k = m.object k)
    (hlookup : ∀ other, m'.names.lookup other =
      if other = path then some m.objects.length else m.names.lookup other) : e'.Sound m' := by
  have hcases {i : Nat} {t : Session} (ht : e'.sessions[i]? = some t) :
      e.sessions[i]? = some t ∨ (i = e.sessions.length ∧ t = s) := by
    rw [hsessions] at ht
    exact getElem?_concat_cases ht
  have hobject : s.server.object = m.objects.length := by rw [hserver]
  have hne {i : Nat} {t : Session} (ht : e.sessions[i]? = some t) :
      t.server.object ≠ s.server.object := by
    have := h.known ht
    omega
  refine ⟨fun ht => ?_, fun ht hu heq => ?_, fun ht => ?_, fun ht => ?_, fun ht hheld => ?_,
    fun ht => ?_⟩
  · rcases hcases ht with ht | ⟨-, rfl⟩
    · exact h.capacity ht
    · rw [hserver]
  · rcases hcases ht with ht | ⟨rfl, rfl⟩ <;> rcases hcases hu with hu | ⟨rfl, rfl⟩
    · exact h.distinct ht hu heq
    · exact absurd heq (hne ht)
    · exact absurd heq.symm (hne hu)
    · rfl
  · rw [hlength]
    rcases hcases ht with ht | ⟨-, rfl⟩
    · have := h.known ht
      omega
    · omega
  · rcases hcases ht with ht | ⟨-, rfl⟩
    · rw [hold (h.known ht)]
      exact h.ready ht
    · rw [hobject]
      exact hready
  · rcases hcases ht with ht | ⟨-, rfl⟩
    · obtain ⟨other, hother, hfound⟩ := h.named ht hheld
      refine ⟨other, hother, ?_⟩
      rw [hlookup, if_neg]
      · exact hfound
      · rintro rfl
        rw [hfree] at hfound
        cases hfound
    · refine ⟨path, hpath, ?_⟩
      rw [hlookup, if_pos rfl, hobject]
  · rcases hcases ht with ht | ⟨-, rfl⟩
    · exact h.keyed ht
    · intro k hk
      rw [hkeys] at hk
      cases hk

/-- A session is refused, and nothing changes for the others. Or it gets a new channel and has no
keys yet, and the client is told its number and the name of the channel. -/
theorem Sound.createSession_cases (h : e.Sound m) (setup : SessionSetup) (sink : SinkRef) :
    (e.createSession m setup sink).2.1.Sound (e.createSession m setup sink).2.2 ∧
      (((∃ status, (e.createSession m setup sink).1.value = .error status) ∧
          (e.createSession m setup sink).2.1.sessions = e.sessions ∧
          (e.createSession m setup sink).2.2 = m) ∨
        ∃ (s : Session) (extended : Bool),
          (e.createSession m setup sink).1.value =
            .ok ⟨e.sessions.length, s.id, s.server.name, extended⟩ ∧
          (e.createSession m setup sink).2.1.sessions = e.sessions ++ [s] ∧ 0 < s.holders ∧
          s.sink = some sink ∧ s.keys = []) := by
  unfold createSession
  split
  · exact ⟨h, .inl ⟨⟨_, rfl⟩, rfl, rfl⟩⟩
  · dsimp only
    obtain ⟨err, herr⟩ | ⟨path, m', hok, hpath, hfree, hlength, hobject, hold, hlookup⟩ :=
      Channel.Server.create_cases m ("/ocdm-" ++ e.identifiers.text e.issued) channelCapacity
    · rw [herr]
      exact ⟨h.within (Alike.within (.of_sessions rfl)), .inl ⟨⟨_, rfl⟩, rfl, rfl⟩⟩
    · rw [hok]
      refine ⟨?_, .inr ⟨_, _, rfl, rfl, Nat.zero_lt_one, rfl, rfl⟩⟩
      exact h.concat rfl rfl rfl hpath hfree hlength (by rw [hobject]; exact Channel.ready_start _)
        hold hlookup

end Engine

end Loopback

end ContentDecryption
