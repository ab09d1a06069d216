import ContentDecryption.Proofs.Client.Owners
import ContentDecryption.Proofs.Loopback.Reach

/-!
# Where the reports of the engine go

The engine reports what becomes of the keys of a session to the sink that the client
has made for this session, until the client wants no more reports. No two sessions of
the engine report to the same sink.

Most of what a client does is no business of the keys. For a session that is held to
the end, `Passes` says that the engine has the same keys for it as before, reports to
the same sink, and that the ledger at this sink says the same.

Main definitions:

* `Engine.sinkOf`, `Engine.keysOf`: a session of the engine, as far as keys are concerned;
* `Passes`: what passes a session by;
* `Routed`: every session of the engine has a sink of its own.

Main results:

* `Passes.change`, `Call.passes`: what a client does passes the sessions by that it holds;
* `routed_of_reached`: reports go to sinks of their own in all worlds that are reached.
-/

namespace ContentDecryption

open Service

/-- Whether a request about a session leaves alone which keys it has and where it reports to. -/
def Service.SessionRequest.isPlain : SessionRequest → Bool
  | .update _ => false
  | .remove => false
  | .revoke _ => false
  | _ => true

namespace Loopback

open Client

/-! ## The engine -/

namespace Engine

/-- Where the reports about a session go. -/
def sinkOf (e : Engine) (n : Nat) : Option SinkRef := e.sessions[n]?.bind Session.sink

/-- The keys of a session. -/
def keysOf (e : Engine) (n : Nat) : List (KeyId × Bytes) := e.sessions[n]?.elim [] Session.keys

variable {e e' : Engine} {n : Nat}

theorem sinkOf_congr (h : e'.sessions[n]? = e.sessions[n]?) : e'.sinkOf n = e.sinkOf n := by
  rw [sinkOf, h, sinkOf]

theorem keysOf_congr (h : e'.sessions[n]? = e.sessions[n]?) : e'.keysOf n = e.keysOf n := by
  rw [keysOf, h, keysOf]

section Set

variable {i : Nat} {s t : Session} (hs : e.sessions[i]? = some s)
  (hset : e'.sessions = e.sessions.set i t)

include hs hset

theorem getElem?_of_set_self : e'.sessions[i]? = some t := by
  rw [hset, List.getElem?_set_self (List.getElem?_eq_some_iff.1 hs).1]

theorem sinkOf_of_set (ht : t.sink = s.sink) (n : Nat) : e'.sinkOf n = e.sinkOf n := by
  by_cases hn : i = n
  · subst hn
    rw [sinkOf, sinkOf, getElem?_of_set_self hs hset, hs]
    exact ht
  · exact sinkOf_congr (by rw [hset, List.getElem?_set_ne hn])

theorem keysOf_of_set (ht : t.keys = s.keys) (n : Nat) : e'.keysOf n = e.keysOf n := by
  by_cases hn : i = n
  · subst hn
    rw [keysOf, keysOf, getElem?_of_set_self hs hset, hs]
    exact ht
  · exact keysOf_congr (by rw [hset, List.getElem?_set_ne hn])

end Set

theorem sinkOf_lt {a : SinkRef} (h : e.sinkOf n = some a) : n < e.sessions.length := by
  obtain ⟨s, hs, -⟩ := Option.bind_eq_some_iff.1 h
  exact (List.getElem?_eq_some_iff.1 hs).1

section Concat

variable {s : Session} (hset : e'.sessions = e.sessions ++ [s])

include hset

theorem getElem?_of_concat (hn : n < e.sessions.length) : e'.sessions[n]? = e.sessions[n]? := by
  rw [hset, List.getElem?_append_left hn]

theorem getElem?_of_concat_self : e'.sessions[e.sessions.length]? = some s := by
  rw [hset, List.getElem?_concat_length]

/-- Reports go where they went, or they are those of the new session. -/
theorem sinkOf_concat_cases {a : SinkRef} (h : e'.sinkOf n = some a) :
    e.sinkOf n = some a ∨ (n = e.sessions.length ∧ s.sink = some a) := by
  obtain ⟨t, ht, hta⟩ := Option.bind_eq_some_iff.1 h
  rw [hset] at ht
  rcases getElem?_concat_cases ht with ht | ⟨hn, rfl⟩
  · exact .inl (Option.bind_eq_some_iff.2 ⟨t, ht, hta⟩)
  · exact .inr ⟨hn, hta⟩

end Concat

theorem sink_update (s : Session) (response : Bytes) :
    (s.update response).2.sink = s.sink := by
  unfold Session.update
  split
  · rfl
  · split <;> rfl

/-- A session reports where it has reported, or it reports no more. -/
theorem sink_respondSession (e : Engine) (s : Session) (q : SessionRequest) :
    (e.respondSession s q).2.1.sink = s.sink ∨ (e.respondSession s q).2.1.sink = none := by
  cases q with
  | revoke => exact .inr rfl
  | update response => exact .inl (sink_update s response)
  | setParameter name value =>
    refine .inl ?_
    show (s.setParameter name value).2.sink = s.sink
    unfold Session.setParameter
    split <;> rfl
  | setDrmHeader | challengeData | cancelChallengeData | selectKeyId | cleanDecryptContext =>
    refine .inl ?_
    show (s.extend _).2.sink = s.sink
    unfold Session.extend
    split <;> rfl
  | load | remove | close | resetOutputProtection | error | storeLicenseData => exact .inl rfl

theorem respondSession_of_isPlain (e : Engine) (s : Session) {q : SessionRequest}
    (hq : q.isPlain = true) :
    (e.respondSession s q).2.1.sink = s.sink ∧ (e.respondSession s q).2.1.keys = s.keys := by
  cases q with
  | update | remove | revoke => cases hq
  | setParameter name value =>
    show (s.setParameter name value).2.sink = s.sink ∧ (s.setParameter name value).2.keys = s.keys
    unfold Session.setParameter
    split <;> exact ⟨rfl, rfl⟩
  | setDrmHeader | challengeData | cancelChallengeData | selectKeyId | cleanDecryptContext =>
    show (s.extend _).2.sink = s.sink ∧ (s.extend _).2.keys = s.keys
    unfold Session.extend
    split <;> exact ⟨rfl, rfl⟩
  | load | close | resetOutputProtection | error | storeLicenseData => exact ⟨rfl, rfl⟩

section Respond

variable {r : Request} {m : SharedMemory} (old : ∀ setup k, r ≠ .createSession setup k)

include old

/-- No request but one for a session makes the engine report anywhere else. -/
theorem sinkOf_respond {a : SinkRef} (h : (respond r e m).service.sinkOf n = some a) :
    e.sinkOf n = some a := by
  rcases (respond_cases r old e m).2 with hsame | ⟨i, q, s, -, hs, hset⟩
  · rwa [sinkOf_congr (e := e) (by rw [hsame])] at h
  · rcases e.sink_respondSession s q with hsink | hnone
    · rwa [sinkOf_of_set hs hset hsink] at h
    · by_cases hn : i = n
      · subst hn
        rw [sinkOf, getElem?_of_set_self hs hset, Option.bind_some, hnone] at h
        cases h
      · rwa [sinkOf_congr (e := e) (by rw [hset, List.getElem?_set_ne hn])] at h

theorem respond_of_isPlain (hplain : ∀ i q, r = .session i q → q.isPlain = true) (n : Nat) :
    (respond r e m).service.sinkOf n = e.sinkOf n ∧
      (respond r e m).service.keysOf n = e.keysOf n := by
  rcases (respond_cases r old e m).2 with hsame | ⟨i, q, s, hr, hs, hset⟩
  · exact ⟨sinkOf_congr (by rw [hsame]), keysOf_congr (by rw [hsame])⟩
  · obtain ⟨hsink, hkeys⟩ := e.respondSession_of_isPlain s (hplain i q hr)
    exact ⟨sinkOf_of_set hs hset hsink n, keysOf_of_set hs hset hkeys n⟩

/-- A request about another session. -/
theorem respond_of_ne (hne : ∀ i q, r = .session i q → i ≠ n) :
    (respond r e m).service.sessions[n]? = e.sessions[n]? := by
  rcases (respond_cases r old e m).2 with hsame | ⟨i, q, s, hr, -, hset⟩
  · rw [hsame]
  · rw [hset, List.getElem?_set_ne (hne i q hr)]

end Respond

/-- A session that is let go keeps its keys, and reports where it has reported. -/
theorem release_eq (e : Engine) (i : Nat) (m : SharedMemory) (n : Nat) :
    (e.release i m).1.sinkOf n = e.sinkOf n ∧ (e.release i m).1.keysOf n = e.keysOf n := by
  rcases e.release_cases i m with he | ⟨s, hs, -, he⟩
  · rw [he]
    exact ⟨rfl, rfl⟩
  · rw [he]
    have hset : (e.setSession i { s with holders := s.holders - 1 }).sessions =
      e.sessions.set i { s with holders := s.holders - 1 } := rfl
    exact ⟨sinkOf_of_set hs hset rfl n, keysOf_of_set hs hset rfl n⟩

/-- Before a session is handed out, the engine reports no keys of it. -/
theorem not_mem_notices_createSession (e : Engine) (m : SharedMemory) (setup : SessionSetup)
    (sink k : SinkRef) (id : Bytes) (status : KeyStatus) :
    (k, .keyStatus id status) ∉ (e.createSession m setup sink).1.notices := by
  unfold createSession
  split
  · exact List.not_mem_nil
  · dsimp only
    split
    · exact List.not_mem_nil
    · dsimp only
      split
      · exact List.not_mem_nil
      · simp

end Engine

/-! ## Sinks -/

/-- Every session of the engine that reports anything has a sink of its own. -/
structure Routed (w : World Engine) : Prop where
  placed : ∀ {n : Nat} {a : SinkRef}, w.service.sinkOf n = some a → a < w.sinks.length
  apart : ∀ {n m : Nat} {a : SinkRef}, w.service.sinkOf n = some a →
    w.service.sinkOf m = some a → n = m

/-- It stays so if the sessions report to the same sinks, or some of them report no more. -/
theorem Routed.of_fewer {w w' : World Engine} (h : Routed w)
    (hsinks : w.sinks.length ≤ w'.sinks.length)
    (hfewer : ∀ {n : Nat} {a : SinkRef}, w'.service.sinkOf n = some a →
      w.service.sinkOf n = some a) : Routed w' where
  placed := fun ha => Nat.lt_of_lt_of_le (h.placed (hfewer ha)) hsinks
  apart := fun ha ha' => h.apart (hfewer ha) (hfewer ha')

/-- It stays so if there is a new session that reports to a new sink. -/
theorem Routed.concat {w w' : World Engine} (h : Routed w) {s : Session}
    (hset : w'.service.sessions = w.service.sessions ++ [s]) (hsink : s.sink = some w.sinks.length)
    (hsinks : w.sinks.length < w'.sinks.length) : Routed w' := by
  have hcases {n : Nat} {a : SinkRef} (ha : w'.service.sinkOf n = some a) :
      w.service.sinkOf n = some a ∨ (n = w.service.sessions.length ∧ a = w.sinks.length) :=
    (Engine.sinkOf_concat_cases hset ha).imp_right fun hnew =>
      ⟨hnew.1, Option.some.inj (hnew.2.symm.trans hsink)⟩
  refine ⟨fun {n a} ha => ?_, fun {n m a} ha ha' => ?_⟩
  · rcases hcases ha with hold | ⟨-, rfl⟩
    · exact Nat.lt_trans (h.placed hold) hsinks
    · exact hsinks
  · rcases hcases ha with hn | ⟨hn, rfl⟩ <;> rcases hcases ha' with hm | ⟨hm, hk⟩
    · exact h.apart hn hm
    · exact absurd (h.placed hn) (by rw [hk]; exact Nat.lt_irrefl _)
    · exact absurd (h.placed hm) (Nat.lt_irrefl _)
    · rw [hn, hm]

/-! ## What passes a session by -/

/-- A session of a client that stands for the same session of the engine and hears of it at the same
sink. It is held only if it was held before. -/
structure Follows (s t : Client.Session) : Prop where
  remote : t.remote = s.remote
  sink : t.sink = s.sink
  held : 0 < t.handles → 0 < s.handles

theorem Follows.refl (s : Client.Session) : Follows s s := ⟨rfl, rfl, id⟩

/-- The sessions that there were are there, perhaps with others. -/
def Continued (w w' : World Engine) : Prop :=
  ∀ (i : SessionRef) (s : Client.Session), w.sessions[i]? = some s →
    ∃ t, w'.sessions[i]? = some t ∧ Follows s t

/-- Whoever in the client has to do with a session of the engine holds it. -/
def Spared (w : World Engine) (n : Nat) : Prop :=
  ∀ (i : SessionRef) (s : Client.Session), w.sessions[i]? = some s → s.remote = n → 0 < s.handles

/-- What happens between two worlds passes the keys of those sessions by that are held to its end.
Ledgers stay as they are, but for those of the sinks that are told of keys. -/
structure Passes (told : SinkRef → Prop) (w w' : World Engine) : Prop where
  sinks : w.sinks.length ≤ w'.sinks.length
  ledger : ∀ {k : SinkRef}, k < w.sinks.length → ¬ told k → (w'.sink k).keys = (w.sink k).keys
  sessions : Continued w w'
  routed : Routed w → Routed w'
  spared : ∀ {n : Nat} {a : SinkRef}, w.service.sinkOf n = some a → Spared w' n →
    w'.service.sinkOf n = some a ∧ w'.service.keysOf n = w.service.keysOf n

namespace Continued

variable {w w' w'' : World Engine}

theorem of_eq (h : w'.sessions = w.sessions) : Continued w w' := by
  intro i s hs
  exact ⟨s, by rw [h, hs], .refl s⟩

theorem setSession {i : SessionRef} {f : Client.Session → Client.Session}
    (hf : ∀ s, w.sessions[i]? = some s → Follows s (f s)) : Continued w (w.setSession i f) := by
  intro k s hs
  refine ⟨_, (List.getElem?_modify ..).trans (congrArg _ hs), ?_⟩
  dsimp only
  split_ifs with hik
  · exact hf s (hik ▸ hs)
  · exact .refl s

theorem trans (h : Continued w w') (h' : Continued w' w'') : Continued w w'' := by
  intro i s hs
  obtain ⟨t, ht, hst⟩ := h i s hs
  obtain ⟨u, hu, htu⟩ := h' i t ht
  exact ⟨u, hu, htu.remote.trans hst.remote, htu.sink.trans hst.sink,
    fun hheld => hst.held (htu.held hheld)⟩

theorem spared (h : Continued w w') {n : Nat} (hn : Spared w' n) : Spared w n := by
  intro i s hs hremote
  obtain ⟨t, ht, hst⟩ := h i s hs
  exact hst.held (hn i t ht (hst.remote.trans hremote))

end Continued

namespace Passes

variable {told : SinkRef → Prop} {w w' w'' : World Engine}

protected theorem refl (w : World Engine) : Passes told w w :=
  ⟨Nat.le_refl _, fun _ _ => rfl, .of_eq rfl, id, fun ha _ => ⟨ha, rfl⟩⟩

theorem trans (h : Passes told w w') (h' : Passes told w' w'') : Passes told w w'' where
  sinks := Nat.le_trans h.sinks h'.sinks
  ledger := fun hk htold =>
    (h'.ledger (Nat.lt_of_lt_of_le hk h.sinks) htold).trans (h.ledger hk htold)
  sessions := h.sessions.trans h'.sessions
  routed := fun hw => h'.routed (h.routed hw)
  spared := by
    intro n a ha hn
    obtain ⟨hsink, hkeys⟩ := h.spared ha (h'.sessions.spared hn)
    obtain ⟨hsink', hkeys'⟩ := h'.spared hsink hn
    exact ⟨hsink', hkeys'.trans hkeys⟩

/-- What the engine has nothing to do with. -/
theorem aside (hservice : w'.service = w.service) (hsinks : w'.sinks = w.sinks)
    (hsessions : Continued w w') : Passes told w w' where
  sinks := Nat.le_of_eq (by rw [hsinks])
  ledger := fun _ _ => by rw [World.sink, hsinks, World.sink]
  sessions := hsessions
  routed := fun hw => hw.of_fewer (Nat.le_of_eq (by rw [hsinks])) fun ha => by rwa [hservice] at ha
  spared := fun ha _ => by rw [hservice]; exact ⟨ha, rfl⟩

/-- What no session of the client has to do with either. -/
theorem congr (hservice : w'.service = w.service) (hsinks : w'.sinks = w.sinks)
    (hsessions : w'.sessions = w.sessions) : Passes told w w' :=
  aside hservice hsinks (.of_eq hsessions)

/-- A sink changes. -/
theorem setSink (w : World Engine) (k : SinkRef) {f : Sink → Sink}
    (hf : told k ∨ ∀ x, (f x).keys = x.keys) : Passes told w (w.setSink k f) where
  sinks := Nat.le_of_eq (List.length_modify ..).symm
  ledger := by
    intro j _ htold
    rcases hf with hk | hkeys
    · rcases getD_modify_cases w.sinks k j f {} with he | ⟨rfl, -, -⟩
      · exact congrArg Sink.keys he
      · exact absurd hk htold
    · exact getD_modify_congr (g := Sink.keys) hkeys w.sinks k j {}
  sessions := .of_eq rfl
  routed := fun hw => hw.of_fewer (Nat.le_of_eq (List.length_modify ..).symm) id
  spared := fun ha _ => ⟨ha, rfl⟩

/-- The engine is asked something that has nothing to do with keys. -/
theorem answered (w : World Engine) {r : Request} (old : ∀ setup k, r ≠ .createSession setup k)
    (hplain : ∀ i q, r = .session i q → q.isPlain = true) : Passes told w (w.answered r) where
  sinks := Nat.le_refl _
  ledger := fun _ _ => rfl
  sessions := .of_eq rfl
  routed := fun hw => hw.of_fewer (Nat.le_refl _) (Engine.sinkOf_respond old)
  spared := by
    intro n a ha _
    obtain ⟨hsink, hkeys⟩ := Engine.respond_of_isPlain (e := w.service) (m := w.memory) old hplain n
    exact ⟨hsink.trans ha, hkeys⟩

/-- The engine is told that the client lets a session go. -/
theorem released (w : World Engine) (i : Nat) : Passes told w (w.released i) where
  sinks := Nat.le_refl _
  ledger := fun _ _ => rfl
  sessions := .of_eq rfl
  routed := fun hw => hw.of_fewer (Nat.le_refl _) fun {n a} ha =>
    (w.service.release_eq i w.memory n).1 ▸ ha
  spared := by
    intro n a ha _
    obtain ⟨hsink, hkeys⟩ := w.service.release_eq i w.memory n
    exact ⟨hsink.trans ha, hkeys⟩

/-- The client wants no more reports about a session that nobody in it holds. -/
theorem revoked (w : World Engine) {i : SessionRef} (known : i < w.sessions.length)
    (dead : w.isLive i = false) :
    Passes told w
      (w.answered (.session (w.session i).remote (.revoke (w.session i).sink))) := by
  have old := Engine.session_ne_createSession (w.session i).remote (.revoke (w.session i).sink)
  refine ⟨Nat.le_refl _, fun _ _ => rfl, .of_eq rfl,
    fun hw => hw.of_fewer (Nat.le_refl _) (Engine.sinkOf_respond old), fun {n a} ha hn => ?_⟩
  have hs : w.sessions[i]? = some (w.session i) := World.getElem?_session known
  have hne : (w.session i).remote ≠ n := by
    intro hremote
    rw [World.isLive_iff.2 ⟨_, hs, hn i _ hs hremote⟩] at dead
    cases dead
  have hsame : (Engine.respond (.session (w.session i).remote (.revoke (w.session i).sink))
      w.service w.memory).service.sessions[n]? = w.service.sessions[n]? :=
    Engine.respond_of_ne old fun j q hr => by
      cases hr
      exact hne
  exact ⟨(Engine.sinkOf_congr hsame).trans ha, Engine.keysOf_congr hsame⟩

/-- One thing that a client does. -/
theorem change (h : Change told w w') : Passes told w w' := by
  cases h with
  | revoke i known dead => exact revoked w known dead
  | closeConnection => exact answered w (fun _ _ => nofun) fun _ _ => nofun
  | release i => exact released w _
  | holdSession i live =>
    refine aside rfl rfl (.setSession fun s hs => ⟨rfl, rfl, fun _ => ?_⟩)
    obtain ⟨u, hu, hheld⟩ := World.isLive_iff.1 live
    obtain rfl : s = u := Option.some.inj (hs.symm.trans hu)
    exact hheld
  | dropSession i =>
    have hleft : Continued w (w.setSession i fun s => { s with handles := s.handles - 1 }) :=
      .setSession fun s _ => ⟨rfl, rfl, fun hheld => Nat.lt_of_lt_of_le hheld (Nat.sub_le ..)⟩
    simp only [World.dropped]
    split
    · exact aside rfl rfl hleft
    · exact aside rfl rfl hleft
  | learnKey k known => exact setSink w k (.inl known)
  | learnError k e => exact setSink w k (.inr fun _ => rfl)
  | leaveSystem | holdRegistry | leaveRegistry | closeRegistry | signal | closeHandle | detach
  | offer | leave | attach | record => exact congr rfl rfl rfl

theorem steps (h : Steps told w w') : Passes told w w' :=
  h.keep (fun hc hw => hw.trans (change hc)) (.refl w)

/-- An action that consists of changes. -/
theorem runs {α : Type} {a : Action Engine α} (h : Fit w)
    (ha : ∀ {n m : Nat}, Sized n m w → Runs told n m a) : Passes told w (a.exec w).2 := by
  obtain ⟨-, n, m, hsized⟩ := h
  exact steps (ha hsized w hsized)

theorem keeps_ask {r : Request} (old : ∀ setup k, r ≠ .createSession setup k)
    (hplain : ∀ i q, r = .session i q → q.isPlain = true) :
    (Action.ask r : Action Engine r.Answer).Keeps (Passes told w) := by
  intro w' hw
  rw [Action.world_ask]
  exact hw.trans (answered w' old hplain)

/-- Requests about no session. -/
theorem keeps_askAside (r : Request) (old : ∀ setup k, r ≠ .createSession setup k)
    (aside : ∀ i q, r ≠ .session i q) :
    (Action.ask r : Action Engine r.Answer).Keeps (Passes told w) :=
  keeps_ask old fun i q h => absurd h (aside i q)

theorem keeps_attachment (i : SessionRef) :
    (Action.attachment i : Action Engine Channel.Attachment).Keeps (Passes told w) := by
  refine .get_bind fun w' hw => ?_
  dsimp only
  split
  · exact hw
  · refine Action.Keeps.bind (.ofResult _) (fun a => ?_) w' hw
    refine .bind (.modify fun w' hw => hw.trans ?_) fun _ => .pure a
    exact aside rfl rfl (.setSession fun _ _ => ⟨rfl, rfl, id⟩)

theorem keeps_decrypt (i : SessionRef) (r : Channel.Request) :
    (Action.decrypt i r : Action Engine (Except Failure Unit × Bytes)).Keeps (Passes told w) := by
  refine .ite (fun _ => .pure _) fun _ => .bind (.attempt (keeps_attachment i)) fun attached => ?_
  cases attached with
  | error f => exact .pure _
  | ok a =>
    refine .bind (.get_bind fun w' hw => ?_) fun out => .pure _
    exact hw.trans (congr rfl rfl rfl)

theorem openHandle (h : Fit w) {i : SessionRef} (hi : i < w.sessions.length)
    (b : Option BridgeRef) : Passes told w ((Boundary.openHandle i b).exec w).2 := by
  obtain ⟨-, n, m, hsized⟩ := h
  rw [hsized.sessions] at hi
  obtain ⟨m', handles, -, hs⟩ := steps_openHandle told hsized hi b
  have hopened : Passes told w { w with handles } := congr rfl rfl rfl
  exact hopened.trans (steps hs)

theorem askSession (w : World Engine) (i : SessionRef) {q : SessionRequest}
    (hq : q.isPlain = true) : Passes told w ((Action.askSession i q).exec w).2 := by
  have hask : ((Action.askSession i q).exec w).2 =
      w.answered (.session (w.session i).remote q) := Action.world_ask _ w
  rw [hask]
  refine answered w (Engine.session_ne_createSession _ q) fun _ _ hr => ?_
  cases hr
  exact hq

theorem close (w : World Engine) (i : SessionRef) :
    Passes told w ((Action.close i).exec w).2 := by
  have hclose : (Action.close i : Action Engine Unit).Keeps (Passes told w) :=
    .bind (fun w' hw => hw.trans (askSession w' i rfl)) fun _ => .ofResult _
  exact hclose w (.refl w)

/-! ### New sessions -/

/-- The client opens a sink, and the engine is asked for a session that reports there. -/
theorem ask_createSession (h : Wired none w) (setup : SessionSetup) (x : Sink) :
    let k := w.sinks.length
    let asked :=
      World.answered { w with sinks := w.sinks ++ [x] } (.createSession setup k)
    Passes told w asked ∧ (asked.sink k).keys = x.keys ∧
      ∀ y, (w.service.createSession w.memory setup k).1.value = .ok y →
        asked.service.sinkOf y.index = some k ∧ asked.service.keysOf y.index = [] := by
  intro k asked
  have hlast : (asked.sink k).keys = x.keys := by
    show ((w.sinks ++ [x]).getD w.sinks.length {}).keys = x.keys
    rw [List.getD_append_right _ _ _ _ (Nat.le_refl _), Nat.sub_self]
    rfl
  have hledger {j : SinkRef} (hj : j < w.sinks.length) :
      (asked.sink j).keys = (w.sink j).keys :=
    congrArg Sink.keys (List.getD_append _ _ _ _ hj)
  have hsinks : w.sinks.length < asked.sinks.length := by
    rw [show asked.sinks.length = w.sinks.length + 1 from List.length_append]
    exact Nat.lt_succ_self _
  have hle : w.sinks.length ≤ asked.sinks.length := Nat.le_of_lt hsinks
  obtain ⟨-, ⟨⟨status, hvalue⟩, hsessions, -⟩ |
    ⟨s, extended, hvalue, hsessions, -, hsink, hkeys⟩⟩ := h.sound.createSession_cases setup k
  · have hset : asked.service.sessions = w.service.sessions := hsessions
    have hsame (n : Nat) : asked.service.sessions[n]? = w.service.sessions[n]? := by rw [hset]
    refine ⟨⟨hle, fun hj _ => hledger hj, .of_eq rfl, fun hw => ?_, fun {n a} ha _ => ?_⟩,
      hlast, fun y hy => ?_⟩
    · exact hw.of_fewer hle fun ha => by rwa [Engine.sinkOf_congr (hsame _)] at ha
    · exact ⟨(Engine.sinkOf_congr (hsame n)).trans ha, Engine.keysOf_congr (hsame n)⟩
    · rw [hvalue] at hy
      cases hy
  · have hset : asked.service.sessions = w.service.sessions ++ [s] := hsessions
    refine ⟨⟨hle, fun hj _ => hledger hj, .of_eq rfl, fun hw => ?_, fun {n a} ha _ => ?_⟩,
      hlast, fun y hy => ?_⟩
    · exact hw.concat hset hsink hsinks
    · have hn := Engine.getElem?_of_concat hset (Engine.sinkOf_lt ha)
      exact ⟨(Engine.sinkOf_congr hn).trans ha, Engine.keysOf_congr hn⟩
    · rw [hvalue] at hy
      cases hy
      rw [Engine.sinkOf, Engine.keysOf, Engine.getElem?_of_concat_self hset]
      exact ⟨hsink, hkeys⟩

/-- A session is taken up. -/
theorem adoptSession (w : World Engine) (i : SystemRef) (k : SinkRef) (x : RemoteSession) :
    Passes told w ((Action.adoptSession i k x).exec w).2 := by
  refine aside rfl rfl fun j s hs => ⟨s, ?_, .refl s⟩
  exact (List.getElem?_append_left (List.getElem?_eq_some_iff.1 hs).1).trans hs

end Passes

/-- A new session, of which no key was reported yet. -/
structure Blank (w : World Engine) (i : SessionRef) (s : Client.Session) : Prop where
  session : w.sessions[i]? = some s
  sink : w.service.sinkOf s.remote = some s.sink
  keys : w.service.keysOf s.remote = []
  ledger : (w.sink s.sink).keys = []

/-- What comes before the session is handed out are messages, and what the callbacks make of them.
The session itself is nobody's all that while. -/
theorem Passes.takeUp {told : SinkRef → Prop} {w : World Engine} {n m : Nat}
    {reported : Reported (Reply RemoteSession)} (hw : Wired reported.value.toOption w)
    (hsized : Sized n m w)
    (hquiet : ∀ l id status, (l, .keyStatus id status) ∉ reported.notices) {k : SinkRef}
    (hk : k < w.sinks.length) (hledger : (w.sink k).keys = [])
    (hmade : ∀ y, reported.value = .ok y →
      w.service.sinkOf y.index = some k ∧ w.service.keysOf y.index = [])
    {i : SystemRef} {x : Except Failure SessionRef × World Engine}
    (hx : TakenUp i k reported w x) :
    Passes told w x.2 ∧ ∀ j, x.1 = .ok j → ∃ s, Blank x.2 j s := by
  have hreceived {told : SinkRef → Prop} :
      Steps told w ((Action.receiveAll reported.notices).exec w).2 :=
    runs_receiveAll (fun hmem => absurd hmem (hquiet _ _ _)) w hsized
  cases hx with
  | refused e => exact ⟨.steps hreceived, fun j hj => nomatch hj⟩
  | nameless value e =>
    exact ⟨.trans (.steps hreceived) (.released _ _), fun j hj => nomatch hj⟩
  | @adopted y value =>
    let received := ((Action.receiveAll reported.notices).exec w).2
    refine ⟨.trans (.steps hreceived) (.adoptSession ..), fun j hj => ?_⟩
    obtain rfl : received.sessions.length = j := Except.ok.inj hj
    have hsteps : Steps (fun _ => False) w received := hreceived
    have hwired : Wired reported.value.toOption received := hw.steps hsteps
    rw [value] at hwired
    obtain ⟨hsink, hkeys⟩ := hmade y value
    have hpasses : Passes (fun _ => False) w received := .steps hsteps
    obtain ⟨hsink', hkeys'⟩ := hpasses.spared hsink fun l s hs hremote =>
      absurd hremote (hwired.apart rfl hs)
    exact ⟨_, List.getElem?_concat_length, hsink', hkeys'.trans hkeys,
      (hpasses.ledger hk id).trans hledger⟩

/-- A session is asked for. If the client gets one, it is new. -/
theorem Passes.createSession {told : SinkRef → Prop} {w : World Engine} (h : Fit w)
    (i : SystemRef) (licenseType : Int32) (initDataType : String) (initData cdmData : Bytes)
    (listener : Listener) :
    let x := (Action.createSession i licenseType initDataType initData cdmData listener).exec w
    Passes told w x.2 ∧ ∀ j, x.1 = .ok j → ∃ s, Blank x.2 j s := by
  intro x
  obtain ⟨hw, n, m, hsized⟩ := h
  rcases Action.createSession_cases w i licenseType initDataType initData cdmData listener with
    ⟨-, e, he⟩ | ⟨⟨a, ha⟩, hcases⟩
  · rw [show x = _ from he]
    exact ⟨.refl w, fun j hj => nomatch hj⟩
  let setup : SessionSetup :=
    ⟨(w.system i).keySystem, licenseType, initDataType, initData, cdmData⟩
  let sink : Sink := { registry := (w.system i).registry, listener }
  let opened : World Engine := { w with sinks := w.sinks ++ [sink] }
  have hopened : Wired none opened := hw.congr_aside rfl rfl rfl rfl rfl
  obtain ⟨reported, hanswer, hasked⟩ := hopened.ask_createSession setup w.sinks.length
    (Nat.zero_lt_of_lt (lt_of_accessor ha))
  have hreported : reported = (w.service.createSession w.memory setup w.sinks.length).1 :=
    (Option.some.inj hanswer).symm
  obtain ⟨hpasses, hledger, hmade⟩ := @Passes.ask_createSession told w hw setup sink
  rcases hcases with ⟨e, he⟩ | ⟨reported', hanswer', htaken⟩
  · rw [show x = _ from he]
    exact ⟨hpasses, fun j hj => nomatch hj⟩
  obtain rfl : reported = reported' := Option.some.inj (hanswer.symm.trans hanswer')
  have hquiet (l : SinkRef) (id : KeyId) (status : KeyStatus) :
      (l, .keyStatus id status) ∉ reported.notices := by
    rw [hreported]
    exact w.service.not_mem_notices_createSession w.memory setup w.sinks.length l id status
  have hlast : w.sinks.length < (w.sinks ++ [sink]).length := by
    rw [List.length_append]
    exact Nat.lt_succ_self _
  let asked := opened.answered (.createSession setup w.sinks.length)
  have htakeUp : Passes told asked x.2 ∧ ∀ j, x.1 = .ok j → ∃ s, Blank x.2 j s :=
    Passes.takeUp hasked (hsized.congr rfl rfl rfl) hquiet hlast hledger
      (fun y hy => hmade y (by rw [← hreported, hy])) htaken
  exact ⟨hpasses.trans htakeUp.1, htakeUp.2⟩

/-! ## Calls -/

/-- Whether a call leaves alone which keys the sessions have, and tells nobody of keys. -/
def Call.isPassing : Call → Bool
  | .update _ _ => false
  | .remove _ => false
  | .ask _ q => q.isPlain
  | .receive _ => false
  | _ => true

/-- Most calls pass all sessions by. -/
theorem Call.passes {told : SinkRef → Prop} {w : World Engine} (h : Fit w) {c : Call}
    (hc : c.Possible w) (hpassing : c.isPassing = true) : Passes told w (c.after w) := by
  cases c with
  | update | remove | receive => cases hpassing
  | connect settings =>
    exact Action.Keeps.connect (fun r old other _ => Passes.keeps_askAside r old other)
      (fun _ _ hw => hw.trans (.congr rfl rfl rfl)) settings w (.refl w)
  | createSystem r keySystem =>
    exact Action.Keeps.createSystem (fun r old other _ => Passes.keeps_askAside r old other)
      (fun _ _ hw => hw.trans (.congr rfl rfl rfl)) keySystem w (.refl w)
  | createSession i licenseType initDataType initData cdmData listener =>
    exact (Passes.createSession h i licenseType initDataType initData cdmData listener).1
  | addBridge => exact .congr rfl rfl rfl
  | openHandle i b => exact .openHandle h hc b
  | dropHandle x => exact .runs h fun hsized => runs_dropHandle (by rw [← hsized.handles]; exact hc)
  | holdSession i => exact .change (.holdSession i hc)
  | dropSession i =>
    exact .runs h fun hsized => runs_dropSession (by rw [← hsized.sessions]; exact hc)
  | dropSystem i => exact .runs h fun _ => runs_dropSystem i
  | dropRegistry r => exact .runs h fun _ => runs_dropRegistry r
  | close i => exact .close w i
  | ask i q => exact .askSession w i hpassing
  | decrypt i r => exact Passes.keeps_decrypt i r w (.refl w)

namespace Routed

/-- No request about a session changes where reports go. -/
theorem keeps_askSession (i : SessionRef) (q : SessionRequest) :
    (Action.askSession i q : Action Engine q.Answer).Keeps fun w => Fit w ∧ Routed w := by
  intro w hw
  refine ⟨hw.1.askSession i q, ?_⟩
  have hask : ((Action.askSession i q).exec w).2 =
      w.answered (.session (w.session i).remote q) := Action.world_ask _ w
  rw [hask]
  exact hw.2.of_fewer (Nat.le_refl _)
    (Engine.sinkOf_respond (Engine.session_ne_createSession _ q))

theorem keeps_receiveAll (l : List Delivery) :
    (Action.receiveAll l : Action Engine Unit).Keeps fun w => Fit w ∧ Routed w := by
  intro w hw
  have hpasses : Passes (fun _ => True) w ((Action.receiveAll l).exec w).2 :=
    .runs hw.1 fun _ => runs_receiveAll fun _ => trivial
  exact ⟨hw.1.receiveAll l, hpasses.routed hw.2⟩

theorem after {w : World Engine} (h : Routed w) (hw : Fit w) {c : Call} (hc : c.Possible w) :
    Routed (c.after w) := by
  by_cases hpassing : c.isPassing = true
  · have hpasses : Passes (fun _ => False) w (c.after w) := Call.passes hw hc hpassing
    exact hpasses.routed h
  · cases c with
    | update i response =>
      exact (Action.Keeps.bind (keeps_askSession i (.update response))
        (fun _ => .bind (keeps_receiveAll _) fun _ => .ofResult _) w ⟨hw, h⟩).2
    | remove i =>
      exact (Action.Keeps.bind (keeps_askSession i .remove)
        (fun _ => .bind (keeps_receiveAll _) fun _ => .ofResult _) w ⟨hw, h⟩).2
    | ask i q => exact (keeps_askSession i q w ⟨hw, h⟩).2
    | receive l => exact (keeps_receiveAll l w ⟨hw, h⟩).2
    | _ => exact absurd rfl hpassing

end Routed

theorem routed_of_reached {w : World Engine} (h : Reached w) : Routed w := by
  induction h with
  | start e memory libraries new =>
    have hnone {n : Nat} {a : SinkRef} (ha : e.sinkOf n = some a) : False := by
      rw [Engine.sinkOf, new] at ha
      cases ha
    exact ⟨fun ha => (hnone ha).elim, fun ha => (hnone ha).elim⟩
  | call c before possible ih => exact ih.after (fit_of_reached before) possible
  | overtime before session attached serving r turns meeting ended rested ih =>
    exact ⟨ih.placed, ih.apart⟩

end Loopback

end ContentDecryption
