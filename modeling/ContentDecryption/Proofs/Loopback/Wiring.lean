import ContentDecryption.Proofs.Client.Changes
import ContentDecryption.Proofs.Loopback.Channels

/-!
# Clients of the loopback engine

A client knows a session by what the engine has told it: a number, and the name of a
channel. It holds the session in the engine for as long as anybody holds it in the
client, and by the name it finds the channel of this session and no other.

Between the answer of the engine and the first handle of the new session lie the
notices that were sent before the answer, and what they make callbacks do. All that
while the session is nobody's yet. It is the one that `Wired` is told to keep.

Main definitions:

* `Bound`: a session of a client and the session of the engine behind it;
* `Wired`: the sessions of a client, the engine and the memory fit each other.

Main results:

* `Wired.answered`, `Wired.change`, `Wired.steps`: what a client does keeps it so;
* `Wired.ask_createSession`: so does asking for a session, and it keeps the new one apart;
* `Wired.adopt`, `Wired.release_kept`: it becomes one of the client, or is let go.
-/

namespace ContentDecryption

namespace Loopback

open Client Service

/-- A session of a client and the session of the engine behind it. -/
structure Bound (settings : Settings) (s : Client.Session) (x : Session) : Prop where
  name : x.server.name = s.bufferId
  held : 0 < s.handles → 0 < x.holders
  object : ∀ {a : Channel.Attachment}, s.attachment = some a → a.object = x.server.object
  capacity : ∀ {a : Channel.Attachment}, s.attachment = some a → a.capacity = channelCapacity
  timeoutMs : ∀ {a : Channel.Attachment}, s.attachment = some a →
    a.timeoutMs = settings.decryptTimeoutMs
  reserved : ∀ {a : Channel.Attachment}, s.attachment = some a →
    a.reserved = settings.reservedTokenSize

/-- The settings of a session's connection. -/
def settingsOf (w : World Engine) (s : Client.Session) : Settings :=
  (w.registry s.registry).settings

/-- The sessions of a client, the engine and the memory fit each other, and the session that is
nobody's yet is kept. -/
structure Wired (kept : Option RemoteSession) (w : World Engine) : Prop where
  sound : w.service.Sound w.memory
  bound : ∀ {i : SessionRef} {s : Client.Session}, w.sessions[i]? = some s →
    ∃ x, w.service.sessions[s.remote]? = some x ∧ Bound (settingsOf w s) s x
  distinct : ∀ {i j : SessionRef} {s t : Client.Session}, w.sessions[i]? = some s →
    w.sessions[j]? = some t → s.remote = t.remote → i = j
  registered : ∀ {i : SessionRef} {s : Client.Session}, w.sessions[i]? = some s →
    s.registry < w.registries.length
  systems : ∀ {i : SystemRef} {s : System}, w.systems[i]? = some s →
    s.registry < w.registries.length
  opened : kept.isSome = true → 0 < w.registries.length
  known : ∀ {k : RemoteSession}, kept = some k →
    ∃ x, w.service.sessions[k.index]? = some x ∧ x.server.name = k.bufferId ∧ 0 < x.holders
  apart : ∀ {k : RemoteSession}, kept = some k → ∀ {i : SessionRef} {s : Client.Session},
    w.sessions[i]? = some s → s.remote ≠ k.index

/-- The same session of a client, held only if it was held before. -/
structure Kin (s t : Client.Session) : Prop where
  bufferId : t.bufferId = s.bufferId
  registry : t.registry = s.registry
  remote : t.remote = s.remote
  attachment : t.attachment = s.attachment
  held : 0 < t.handles → 0 < s.handles

theorem Kin.refl (s : Client.Session) : Kin s s := ⟨rfl, rfl, rfl, rfl, fun h => h⟩

namespace Wired

variable {kept : Option RemoteSession} {w w' : World Engine}

/-- What neither the sessions nor the settings are touched by. -/
theorem congr (h : Wired kept w) (hmemory : w'.memory = w.memory)
    (hservice : w.service.Alike w'.service)
    (hlength : w.registries.length ≤ w'.registries.length)
    (hsettings : ∀ r < w.registries.length,
      (w'.registry r).settings = (w.registry r).settings)
    (hsystems : ∀ {i : SystemRef} {t : System}, w'.systems[i]? = some t →
      ∃ s, w.systems[i]? = some s ∧ t.registry = s.registry)
    (hsessions : ∀ {i : SessionRef} {t : Client.Session}, w'.sessions[i]? = some t →
      ∃ s, w.sessions[i]? = some s ∧ Kin s t) : Wired kept w' where
  sound := by
    rw [hmemory]
    exact h.sound.within hservice.within
  bound := by
    intro i t ht
    obtain ⟨s, hs, hkin⟩ := hsessions ht
    obtain ⟨x, hx, hbound⟩ := h.bound hs
    obtain ⟨y, hy, hxy⟩ := exists_right_of_rel (hservice s.remote) hx
    have hsame : settingsOf w' t = settingsOf w s := by
      rw [settingsOf, hkin.registry]
      exact hsettings s.registry (h.registered hs)
    rw [hkin.remote, hsame]
    refine ⟨y, hy, ?_, fun ht => hxy.kept (hbound.held (hkin.held ht)), ?_, ?_, ?_, ?_⟩
    · rw [hxy.server, hkin.bufferId]
      exact hbound.name
    all_goals
      intro a ha
      rw [hkin.attachment] at ha
    · rw [hxy.server]
      exact hbound.object ha
    · exact hbound.capacity ha
    · exact hbound.timeoutMs ha
    · exact hbound.reserved ha
  distinct := by
    intro i j s t hs ht hremote
    obtain ⟨u, hu, hsu⟩ := hsessions hs
    obtain ⟨v, hv, htv⟩ := hsessions ht
    exact h.distinct hu hv (by rw [← hsu.remote, ← htv.remote, hremote])
  registered := by
    intro i t ht
    obtain ⟨s, hs, hkin⟩ := hsessions ht
    rw [hkin.registry]
    exact Nat.lt_of_lt_of_le (h.registered hs) hlength
  systems := by
    intro i t ht
    obtain ⟨s, hs, hst⟩ := hsystems ht
    rw [hst]
    exact Nat.lt_of_lt_of_le (h.systems hs) hlength
  opened := fun hk => Nat.lt_of_lt_of_le (h.opened hk) hlength
  known := by
    intro k hk
    obtain ⟨x, hx, hname, hheld⟩ := h.known hk
    obtain ⟨y, hy, hxy⟩ := exists_right_of_rel (hservice k.index) hx
    exact ⟨y, hy, by rw [hxy.server, hname], hxy.kept hheld⟩
  apart := by
    intro k hk i t ht
    obtain ⟨s, hs, hkin⟩ := hsessions ht
    rw [hkin.remote]
    exact h.apart hk hs

/-- What changes nothing of a client but what no session depends on. -/
theorem congr_aside (h : Wired kept w) (hmemory : w'.memory = w.memory)
    (hservice : w'.service = w.service) (hregistries : w'.registries = w.registries)
    (hsystems : w'.systems = w.systems) (hsessions : w'.sessions = w.sessions) :
    Wired kept w' := by
  refine h.congr hmemory (.of_sessions (by rw [hservice])) (Nat.le_of_eq (by rw [hregistries]))
    (fun r _ => ?_) (fun {i t} ht => ?_) fun {i t} ht => ?_
  · rw [World.registry, World.registry, hregistries]
  · rw [hsystems] at ht
    exact ⟨t, ht, rfl⟩
  · rw [hsessions] at ht
    exact ⟨t, ht, .refl t⟩

/-- A connection changes, but not its settings. -/
theorem setRegistry (h : Wired kept w) (r : RegistryRef) {f : Registry → Registry}
    (hf : ∀ x, (f x).settings = x.settings) : Wired kept (w.setRegistry r f) := by
  refine h.congr rfl (.of_sessions rfl) ?_ (fun k _ => ?_) (fun ht => ⟨_, ht, rfl⟩)
    fun ht => ⟨_, ht, .refl _⟩
  · exact Nat.le_of_eq (List.length_modify ..).symm
  · exact getD_modify_congr (g := Registry.settings) hf w.registries r k _

/-- A session changes, but not what it is bound to. -/
theorem setSession (h : Wired kept w) (i : SessionRef) {f : Client.Session → Client.Session}
    (hf : ∀ s, w.sessions[i]? = some s → Kin s (f s)) : Wired kept (w.setSession i f) := by
  refine h.congr rfl (.of_sessions rfl) (Nat.le_refl _) (fun _ _ => rfl)
    (fun ht => ⟨_, ht, rfl⟩) fun {k t} ht => ?_
  rcases getElem?_modify_cases ht with ⟨-, ht⟩ | ⟨rfl, s, hs, rfl⟩
  · exact ⟨t, ht, .refl t⟩
  · exact ⟨s, hs, hf s hs⟩

/-- A session that nobody in the client holds is let go. -/
theorem release (h : Wired kept w) {i : SessionRef} (hi : i < w.sessions.length)
    (hdead : w.isLive i = false) : Wired kept (w.released (w.session i).remote) := by
  let e' := (w.service.release (w.session i).remote w.memory).1
  have hs : w.sessions[i]? = some (w.session i) := by
    rw [World.session, List.getD_eq_getElem _ _ hi, List.getElem?_eq_getElem hi]
  have hunheld : ¬ 0 < (w.session i).handles := by
    rw [World.isLive, hs] at hdead
    simpa using hdead
  have hsame {n : Nat} (hn : (w.session i).remote ≠ n) :
      e'.sessions[n]? = w.service.sessions[n]? := Engine.getElem?_release w.service w.memory hn
  have hserver {n : Nat} {x : Session} (hx : w.service.sessions[n]? = some x) :
      ∃ y, e'.sessions[n]? = some y ∧ y.server = x.server := by
    obtain ⟨y, hy, hxy⟩ := exists_right_of_rel
      (w.service.within_release (w.session i).remote w.memory n) hx
    exact ⟨y, hy, hxy.server⟩
  refine ⟨h.sound.release _, fun {k s} (hk : w.sessions[k]? = some s) => ?_, h.distinct,
    h.registered, h.systems, h.opened, fun {r} hr => ?_, h.apart⟩
  · obtain ⟨x, hx, hbound⟩ := h.bound hk
    by_cases hik : i = k
    · subst hik
      rw [hs] at hk
      cases hk
      obtain ⟨y, hy, hyx⟩ := hserver hx
      refine ⟨y, hy, by rw [hyx]; exact hbound.name, fun hheld => absurd hheld hunheld, ?_,
        hbound.capacity, hbound.timeoutMs, hbound.reserved⟩
      rw [hyx]
      exact hbound.object
    · refine ⟨x, ?_, hbound⟩
      rw [← hx]
      exact hsame fun hremote => hik (h.distinct hs hk hremote)
  · obtain ⟨x, hx, hname, hheld⟩ := h.known hr
    refine ⟨x, ?_, hname, hheld⟩
    rw [← hx]
    exact hsame (h.apart hr hs)

/-- The engine is asked for anything but a session. -/
theorem answered (h : Wired kept w) (r : Request) (old : ∀ setup k, r ≠ .createSession setup k) :
    Wired kept (w.answered r) := by
  obtain ⟨halike, hmemory⟩ := Engine.alike_respond r old w.service w.memory
  exact h.congr hmemory halike (Nat.le_refl _) (fun _ _ => rfl) (fun ht => ⟨_, ht, rfl⟩)
    fun ht => ⟨_, ht, .refl _⟩

/-- One handle of a session is given up. -/
theorem dropped (h : Wired kept w) (i : SessionRef) : Wired kept (w.dropped i) := by
  have hleft : Wired kept (w.setSession i fun s => { s with handles := s.handles - 1 }) :=
    h.setSession i fun s hs =>
      ⟨rfl, rfl, rfl, rfl, fun hheld => Nat.lt_of_lt_of_le hheld (Nat.sub_le _ _)⟩
  simp only [World.dropped]
  split
  · exact hleft
  · exact hleft.setRegistry _ fun _ => rfl

/-- What a client does keeps it so. -/
theorem change {told : SinkRef → Prop} (h : Wired kept w) (hc : Change told w w') :
    Wired kept w' := by
  cases hc with
  | revoke | closeConnection => exact h.answered _ fun _ _ => nofun
  | release i known dead => exact h.release known dead
  | holdSession i live =>
    refine h.setSession i fun s hs => ⟨rfl, rfl, rfl, rfl, fun _ => ?_⟩
    rw [World.isLive, hs] at live
    simpa using live
  | dropSession i => exact h.dropped i
  | holdRegistry r | leaveRegistry r | closeRegistry r =>
    exact h.setRegistry r fun _ => rfl
  | signal r =>
    have hnotified : Wired kept (w.setRegistry r fun x => { x with signal := x.signal.notify }) :=
      h.setRegistry r fun _ => rfl
    exact hnotified.congr_aside rfl rfl rfl rfl rfl
  | leaveSystem i =>
    refine h.congr rfl (.of_sessions rfl) (Nat.le_refl _) (fun _ _ => rfl) (fun ht => ?_)
      fun ht => ⟨_, ht, .refl _⟩
    rcases getElem?_modify_cases ht with ⟨-, ht⟩ | ⟨-, s, hs, rfl⟩
    · exact ⟨_, ht, rfl⟩
    · exact ⟨s, hs, rfl⟩
  | learnKey | learnError | closeHandle | detach | offer | leave | attach | record =>
    exact h.congr_aside rfl rfl rfl rfl rfl

theorem steps {told : SinkRef → Prop} (h : Wired kept w) (hs : Steps told w w') : Wired kept w' :=
  hs.keep (fun hc hw => hw.change hc) h

/-! ## New sessions -/

/-- The session that is nobody's yet need not be kept any longer. -/
theorem forget (h : Wired kept w) : Wired none w where
  sound := h.sound
  bound := h.bound
  distinct := h.distinct
  registered := h.registered
  systems := h.systems
  opened := fun hk => nomatch hk
  known := fun hk => nomatch hk
  apart := fun hk => nomatch hk

/-- The session that is nobody's yet is let go. -/
theorem release_kept {k : RemoteSession} (h : Wired (some k) w) :
    Wired none (w.released k.index) where
  sound := h.sound.release _
  bound := by
    intro i s (hs : w.sessions[i]? = some s)
    obtain ⟨x, hx, hbound⟩ := h.bound hs
    refine ⟨x, ?_, hbound⟩
    rw [← hx]
    exact Engine.getElem?_release w.service w.memory (h.apart rfl hs).symm
  distinct := h.distinct
  registered := h.registered
  systems := h.systems
  opened := fun hk => nomatch hk
  known := fun hk => nomatch hk
  apart := fun hk => nomatch hk

/-- The session that is nobody's yet becomes one of the client. -/
theorem adopt {k : RemoteSession} (h : Wired (some k) w) {s : Client.Session}
    (hremote : s.remote = k.index) (hname : s.bufferId = k.bufferId)
    (hregistry : s.registry < w.registries.length) (hattachment : s.attachment = none) :
    Wired none { w with sessions := w.sessions ++ [s] } := by
  have hcases {i : SessionRef} {t : Client.Session} (ht : (w.sessions ++ [s])[i]? = some t) :
      w.sessions[i]? = some t ∨ (i = w.sessions.length ∧ t = s) :=
    getElem?_concat_cases ht
  refine ⟨h.sound, fun ht => ?_, fun hs ht heq => ?_, fun ht => ?_, h.systems,
    fun hk => (nomatch hk), fun hk => (nomatch hk), fun hk => (nomatch hk)⟩
  · rcases hcases ht with ht | ⟨-, rfl⟩
    · exact h.bound ht
    · obtain ⟨x, hx, hbufferId, hheld⟩ := h.known rfl
      rw [hremote]
      refine ⟨x, hx, hbufferId.trans hname.symm, fun _ => hheld, ?_, ?_, ?_, ?_⟩
      all_goals
        intro a ha
        rw [hattachment] at ha
        cases ha
  · rcases hcases hs with hsold | ⟨rfl, rfl⟩ <;> rcases hcases ht with htold | ⟨rfl, rfl⟩
    · exact h.distinct hsold htold heq
    · exact absurd (heq.trans hremote) (h.apart rfl hsold)
    · exact absurd (heq.symm.trans hremote) (h.apart rfl htold)
    · rfl
  · rcases hcases ht with ht | ⟨-, rfl⟩
    · exact h.registered ht
    · exact hregistry

/-- The engine is asked for a session. If it makes one, that is nobody's yet. -/
theorem ask_createSession (h : Wired none w) (setup : SessionSetup) (sink : SinkRef)
    (hopen : 0 < w.registries.length) :
    ∃ reported, (Service.respond (.createSession setup sink) w.service w.memory).answer =
        some reported ∧
      Wired reported.value.toOption (w.answered (.createSession setup sink)) := by
  let made := w.service.createSession w.memory setup sink
  refine ⟨made.1, rfl, ?_⟩
  obtain ⟨hsound, ⟨⟨status, hvalue⟩, hsessions, hmemory⟩ |
    ⟨x, extended, hvalue, hsessions, hheld, -⟩⟩ :=
    h.sound.createSession_cases setup sink
  · rw [show made.1.value = _ from hvalue]
    refine h.congr hmemory (.of_sessions hsessions) (Nat.le_refl _) (fun _ _ => rfl)
      (fun ht => ⟨_, ht, rfl⟩) fun ht => ⟨_, ht, .refl _⟩
  · rw [show made.1.value = _ from hvalue]
    have hold {n : Nat} {y : Session} (hy : w.service.sessions[n]? = some y) :
        made.2.1.sessions[n]? = some y := by
      rw [show made.2.1.sessions = _ from hsessions, List.getElem?_append_left]
      · exact hy
      · exact (List.getElem?_eq_some_iff.1 hy).1
    refine ⟨hsound, fun {i s} (hs : w.sessions[i]? = some s) => ?_, h.distinct, h.registered,
      h.systems, fun _ => hopen, fun hk => ?_,
      fun {k} hk {i s} (hs : w.sessions[i]? = some s) => ?_⟩
    · obtain ⟨y, hy, hbound⟩ := h.bound hs
      exact ⟨y, hold hy, hbound⟩
    · cases hk
      refine ⟨x, ?_, rfl, hheld⟩
      show made.2.1.sessions[w.service.sessions.length]? = some x
      rw [show made.2.1.sessions = _ from hsessions, List.getElem?_concat_length]
    · cases hk
      obtain ⟨y, hy, -⟩ := h.bound hs
      have := (List.getElem?_eq_some_iff.1 hy).1
      exact Nat.ne_of_lt this

end Wired

end Loopback

end ContentDecryption
