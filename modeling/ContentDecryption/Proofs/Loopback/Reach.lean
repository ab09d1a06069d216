import ContentDecryption.Proofs.Loopback.Wiring

/-!
# The worlds of a loopback client

What a client can come to that is connected to the loopback engine: by any calls, in
any order, whether they succeed or fail, and whatever their callbacks do. In every
such world the sessions of the client, the engine and the memory fit each other.

Main definitions:

* `Fit`: what holds in all these worlds;
* `Call`, `Reached`: the calls, and the worlds that they lead to.

Main results:

* `Fit.createSession`, `Fit.decrypt`: the calls that are not made of changes;
* `exec_decrypt`: a decrypt call is a call at the channel of the session, met by the session of the
  engine behind it;
* `fit_of_reached`: all worlds that are reached fit together.
-/

namespace ContentDecryption

namespace Loopback

open Client Service

/-- The world fits together, and refers to no sessions and handles that are not there. -/
def Fit (w : World Engine) : Prop := Wired none w ∧ ∃ n m, Sized n m w

theorem Wired.system_lt {kept : Option RemoteSession} {w : World Engine} (h : Wired kept w)
    (hopen : 0 < w.registries.length) (i : SystemRef) :
    (w.system i).registry < w.registries.length := by
  unfold World.system
  by_cases hi : i < w.systems.length
  · rw [List.getD_eq_getElem _ _ hi]
    exact h.systems (List.getElem?_eq_getElem hi)
  · rw [List.getD_eq_default _ _ (Nat.le_of_not_lt hi)]
    exact hopen

namespace Fit

variable {w w' : World Engine}

theorem steps {told : SinkRef → Prop} (h : Fit w) (hs : Steps told w w') : Fit w' := by
  obtain ⟨hw, n, m, hsized⟩ := h
  exact ⟨hw.steps hs, n, m, hsized.steps hs⟩

/-- An action that consists of changes. -/
theorem runs {α : Type} {a : Action Engine α} (h : Fit w)
    (ha : ∀ {n m : Nat}, Sized n m w → Runs (fun _ => True) n m a) : Fit (a.exec w).2 := by
  obtain ⟨hw, n, m, hsized⟩ := h
  exact steps ⟨hw, n, m, hsized⟩ (ha hsized w hsized)

theorem answered (h : Fit w) (r : Request) (old : ∀ setup k, r ≠ .createSession setup k) :
    Fit (w.answered r) := by
  obtain ⟨hw, n, m, hsized⟩ := h
  exact ⟨hw.answered r old, n, m, hsized.congr rfl rfl rfl⟩

/-! ## Connections and key systems -/

theorem keeps_ask (r : Request) (old : ∀ setup k, r ≠ .createSession setup k) :
    (Action.ask r : Action Engine r.Answer).Keeps Fit := by
  intro w hw
  rw [Action.world_ask]
  exact hw.answered r old

/-- A new connection is nobody's business but its own. -/
theorem addRegistry (h : Fit w) (x : Registry) (subscriber : Option RegistryRef) :
    Fit { w with registries := w.registries ++ [x], subscriber } := by
  obtain ⟨hw, n, m, hsized⟩ := h
  refine ⟨?_, n, m, hsized.congr rfl rfl rfl⟩
  refine hw.congr rfl (.of_sessions rfl) ?_ (fun r hr => ?_) (fun ht => ⟨_, ht, rfl⟩)
    fun ht => ⟨_, ht, .refl _⟩
  · rw [List.length_append]
    exact Nat.le_add_right _ _
  · simp only [World.registry]
    rw [List.getD_append _ _ _ _ hr]

/-- A new key system is one of a connection that there is. -/
theorem addSystem (h : Fit w) {x : System} (hx : x.registry < w.registries.length) :
    Fit { w with systems := w.systems ++ [x] } := by
  obtain ⟨hw, n, m, hsized⟩ := h
  refine ⟨?_, n, m, hsized.congr rfl rfl rfl⟩
  refine ⟨hw.sound, hw.bound, hw.distinct, hw.registered, fun {i t} ht => ?_, hw.opened, hw.known,
    hw.apart⟩
  rcases getElem?_concat_cases ht with ht | ⟨-, rfl⟩
  · exact hw.systems ht
  · exact hx

theorem createSystem (h : Fit w) (r : RegistryRef) (keySystem : String) :
    Fit ((Action.createSystem r keySystem).exec w).2 := by
  cases ha : (w.registry r).accessor with
  | none =>
    rw [Action.createSystem, Action.exec_bind_of_error (Action.exec_accessor_of_none ha)]
    exact h
  | some a =>
    refine (Action.Keeps.createSystem (P := fun w => Fit w ∧ r < w.registries.length)
      (fun request old _ _ w hw => ?_) (fun x hx hw => ?_) keySystem w ⟨h, lt_of_accessor ha⟩).1
    · rw [Action.world_ask]
      exact ⟨hw.1.answered request old, hw.2⟩
    · exact ⟨hw.1.addSystem (hx.symm ▸ hw.2), hw.2⟩

end Fit

/-! ## Sessions -/

/-- The client takes up the session that is nobody's yet. -/
theorem Fit.adoptSession {w : World Engine} {n m : Nat} {x : RemoteSession}
    (h : Wired (some x) w) (hsized : Sized n m w) (i : SystemRef) (k : SinkRef) :
    Fit ((Action.adoptSession i k x).exec w).2 := by
  have hregistry := h.system_lt (h.opened rfl) i
  exact ⟨(h.adopt rfl rfl hregistry rfl).setRegistry _ fun _ => rfl, n + 1, m,
    hsized.adoptSession i k x⟩

/-- Once the engine has answered, the notices are taken in, and the session is taken up if there is
one. -/
theorem Fit.takeUp {w : World Engine} {n m : Nat} {reported : Reported (Reply RemoteSession)}
    (h : Wired reported.value.toOption w) (hsized : Sized n m w) {i : SystemRef} {k : SinkRef}
    {x : Except Failure SessionRef × World Engine} (hx : TakenUp i k reported w x) : Fit x.2 := by
  have hsteps : Steps (fun _ => True) w ((Action.receiveAll reported.notices).exec w).2 :=
    runs_receiveAll (fun _ => trivial) w hsized
  have hwired := h.steps hsteps
  have hsized' := hsized.steps hsteps
  cases hx with
  | refused e => exact ⟨hwired.forget, n, m, hsized'⟩
  | nameless value e =>
    rw [value] at hwired
    exact ⟨hwired.release_kept, n, m, hsized'.congr rfl rfl rfl⟩
  | adopted value =>
    rw [value] at hwired
    exact .adoptSession hwired hsized' i k

theorem Fit.createSession {w : World Engine} (h : Fit w) (i : SystemRef) (licenseType : Int32)
    (initDataType : String) (initData cdmData : Bytes) (listener : Listener) :
    Fit ((Action.createSession i licenseType initDataType initData cdmData listener).exec w).2 := by
  obtain ⟨hw, n, m, hsized⟩ := h
  rcases Action.createSession_cases w i licenseType initDataType initData cdmData listener with
    ⟨-, e, he⟩ | ⟨⟨a, ha⟩, hcases⟩
  · rw [he]
    exact ⟨hw, n, m, hsized⟩
  · let opened : World Engine :=
      { w with sinks := w.sinks ++ [{ registry := (w.system i).registry, listener }] }
    have hopened : Wired none opened := hw.congr_aside rfl rfl rfl rfl rfl
    obtain ⟨reported, hanswer, hasked⟩ := hopened.ask_createSession
      ⟨(w.system i).keySystem, licenseType, initDataType, initData, cdmData⟩ w.sinks.length
      (Nat.zero_lt_of_lt (lt_of_accessor ha))
    rcases hcases with ⟨e, he⟩ | ⟨reported', hanswer', htaken⟩
    · rw [he]
      exact ⟨hasked.forget, n, m, hsized.congr rfl rfl rfl⟩
    · obtain rfl : reported = reported' := Option.some.inj (hanswer.symm.trans hanswer')
      exact Fit.takeUp hasked (hsized.congr rfl rfl rfl) htaken

/-! ## Samples -/

/-- What meets in a decrypt call of a session: the client's end of the channel, and the session of
the engine that serves it. -/
structure Meets (w : World Engine) (s : Client.Session) (a : Channel.Attachment) (x : Session) :
    Prop where
  serving : w.service.sessions[s.remote]? = some x
  keyed : x.Keyed
  ready : Channel.Ready channelCapacity (w.memory.object x.server.object)
  object : a.object = x.server.object
  capacity : a.capacity = channelCapacity
  timeoutMs : a.timeoutMs = (settingsOf w s).decryptTimeoutMs
  reserved : a.reserved = (settingsOf w s).reservedTokenSize

/-- The end of the channel that a session gets with its first sample. -/
theorem Wired.setAttachment {w : World Engine} (h : Wired none w) {i : SessionRef}
    {s : Client.Session} (hs : w.sessions[i]? = some s) {a : Channel.Attachment} {x : Session}
    (hmeets : Meets w s a x) :
    Wired none (w.setSession i fun s => { s with attachment := some a }) := by
  have hcases {k : SessionRef} {t : Client.Session}
      (ht : (w.sessions.modify i fun s => { s with attachment := some a })[k]? = some t) :
      ∃ u, w.sessions[k]? = some u ∧ t.registry = u.registry ∧ t.remote = u.remote ∧
        ∃ x, w.service.sessions[u.remote]? = some x ∧ Bound (settingsOf w u) t x := by
    rcases getElem?_modify_cases ht with ⟨-, ht⟩ | ⟨rfl, u, hu, rfl⟩
    · exact ⟨t, ht, rfl, rfl, h.bound ht⟩
    · rw [hs] at hu
      cases hu
      obtain ⟨y, hy, hbound⟩ := h.bound hs
      have hyx : y = x := Option.some.inj (hy.symm.trans hmeets.serving)
      subst hyx
      refine ⟨s, hs, rfl, rfl, y, hy, hbound.name, hbound.held, ?_, ?_, ?_, ?_⟩
      all_goals
        intro b hb
        cases hb
      · exact hmeets.object
      · exact hmeets.capacity
      · exact hmeets.timeoutMs
      · exact hmeets.reserved
  refine ⟨h.sound, fun ht => ?_, fun ht hu heq => ?_, fun ht => ?_, h.systems,
    fun hk => (nomatch hk), fun hk => (nomatch hk), fun hk => (nomatch hk)⟩
  · obtain ⟨u, -, hregistry, hremote, x, hx, hbound⟩ := hcases ht
    rw [hremote]
    refine ⟨x, hx, ?_⟩
    have hsame : settingsOf (w.setSession i fun s => { s with attachment := some a }) _ =
        settingsOf w u := congrArg (fun r => (w.registry r).settings) hregistry
    rw [hsame]
    exact hbound
  · obtain ⟨u, hu', -, hremote, -⟩ := hcases ht
    obtain ⟨v, hv', -, hremote', -⟩ := hcases hu
    exact h.distinct hu' hv' (by rw [← hremote, ← hremote', heq])
  · obtain ⟨u, hu, hregistry, -⟩ := hcases ht
    rw [hregistry]
    exact h.registered hu

/-- A session that somebody holds is attached to its channel, or can be. -/
theorem Fit.exec_attachment {w : World Engine} (h : Fit w) {i : SessionRef} {s : Client.Session}
    (hs : w.sessions[i]? = some s) (hlive : 0 < s.handles) :
    ∃ a x w', (Action.attachment i).exec w = (.ok a, w') ∧ Meets w s a x ∧ 0 < x.holders ∧
      w'.service = w.service ∧ w'.memory = w.memory ∧ Fit w' := by
  obtain ⟨hw, n, m, hsized⟩ := h
  obtain ⟨x, hx, hbound⟩ := hw.bound hs
  have hheld : 0 < x.holders := hbound.held hlive
  have hready := hw.sound.ready hx
  have hkeyed := hw.sound.keyed hx
  have hsession : w.session i = s := World.session_of_getElem? hs
  unfold Action.attachment
  rw [Action.exec_get_bind]
  dsimp only
  rw [hsession]
  cases ha : s.attachment with
  | some a =>
    exact ⟨a, x, w, rfl, ⟨hx, hkeyed, hready, hbound.object ha, hbound.capacity ha,
      hbound.timeoutMs ha, hbound.reserved ha⟩, hheld, rfl, rfl, hw, n, m, hsized⟩
  | none =>
    obtain ⟨path, hpath, hlookup⟩ := hw.sound.named hx hheld
    have hattach := hready.attach (by decide) hpath hlookup (settingsOf w s).decryptTimeoutMs
      (settingsOf w s).reservedTokenSize (w.decryptLock i)
    rw [hbound.name] at hattach
    let a : Channel.Attachment := ⟨s.bufferId, x.server.object, channelCapacity,
      (settingsOf w s).decryptTimeoutMs, (settingsOf w s).reservedTokenSize, w.decryptLock i⟩
    have hmeets : Meets w s a x := ⟨hx, hkeyed, hready, rfl, rfl, rfl, rfl⟩
    refine ⟨a, x, w.setSession i fun s => { s with attachment := some a }, ?_, hmeets, hheld, rfl,
      rfl, hw.setAttachment hs hmeets, n, m, ?_⟩
    · have hresult : (Action.ofResult (Channel.Attachment.attach w.memory s.bufferId
          (settingsOf w s).decryptTimeoutMs (settingsOf w s).reservedTokenSize
          (w.decryptLock i))).exec w = (.ok a, w) := by
        rw [Action.exec_ofResult, hattach]
        rfl
      exact Action.exec_bind_of_ok hresult _
    · exact hsized.congr (List.length_modify ..) rfl rfl

/-- The call at the channel of a session, met by the session of the engine. -/
def callOn (w : World Engine) (a : Channel.Attachment) (x : Session) (r : Channel.Request) :
    Channel.Attachment.Outcome × SharedObject :=
  a.decryptOn false r (some (channelCapacity, decryptSample x.keys))
    (w.memory.object x.server.object)

/-- A decrypt call with data is a call at the channel of the session, met by the session of the
engine. -/
theorem Fit.exec_decrypt {w : World Engine} (h : Fit w) {i : SessionRef} {s : Client.Session}
    (hs : w.sessions[i]? = some s) (hlive : 0 < s.handles) {r : Channel.Request}
    (hdata : r.data ≠ []) :
    ∃ a x w', Meets w s a x ∧ Fit w' ∧ (Action.decrypt i r).exec w =
      (.ok ((callOn w a x r).1.result.mapError .error, (callOn w a x r).1.data), w') := by
  obtain ⟨a, x, w', hattached, hmeets, hheld, hservice, hmemory, hw', n, m, hsized⟩ :=
    h.exec_attachment hs hlive
  let after := w'.memory.setObject a.object (callOn w a x r).2
  have hserver : Service.decryptor? w'.service a.object =
      some (x.server, decryptSample x.keys) := by
    rw [hservice, hmeets.object]
    exact h.1.sound.decryptor_eq hmeets.serving hheld
  have hcapacity : x.server.capacity = channelCapacity := h.1.sound.capacity hmeets.serving
  have hexchange : a.decrypt false r (Service.decryptor? w'.service a.object) w'.memory =
      ((callOn w a x r).1, after) := by
    rw [hserver, Channel.Attachment.decrypt]
    dsimp only
    rw [if_pos hmeets.object.symm, hcapacity, hmeets.object, hmemory]
    simp only [callOn, after, hmeets.object, hmemory]
  have hready : Channel.Ready channelCapacity (callOn w a x r).2 :=
    Channel.Attachment.ready_decryptOn hmeets.ready (Nat.le_of_eq hmeets.capacity)
  refine ⟨a, x, { w' with memory := after }, hmeets, ⟨?_, n, m, hsized.congr rfl rfl rfl⟩, ?_⟩
  · exact ⟨hw'.sound.setObject hready, hw'.bound, hw'.distinct, hw'.registered, hw'.systems,
      hw'.opened, hw'.known, hw'.apart⟩
  · rw [Action.exec_decrypt_of_attached hdata hattached, hexchange]

/-- Whatever comes of a decrypt call of a session that somebody holds, the world still fits. -/
theorem Fit.decrypt {w : World Engine} (h : Fit w) {i : SessionRef} (hlive : w.isLive i = true)
    (r : Channel.Request) : Fit ((Action.decrypt i r).exec w).2 := by
  by_cases hdata : r.data = []
  · unfold Action.decrypt
    rw [if_pos (by rw [hdata]; rfl)]
    exact h
  · rw [World.isLive, Option.any_eq_true] at hlive
    obtain ⟨s, hs, hheld⟩ := hlive
    obtain ⟨a, x, w', -, hw', hend⟩ := h.exec_decrypt hs (of_decide_eq_true hheld) hdata
    rw [hend]
    exact hw'

/-! ## Calls -/

/-- The calls of an application. -/
inductive Call
  | connect (settings : Settings)
  | createSystem (r : RegistryRef) (keySystem : String)
  | createSession (i : SystemRef) (licenseType : Int32) (initDataType : String)
      (initData cdmData : Bytes) (listener : Listener)
  /-- Callbacks for a session that is still to be made. -/
  | addBridge (b : Callback.Bridge)
  | openHandle (i : SessionRef) (b : Option BridgeRef)
  | dropHandle (h : HandleRef)
  | holdSession (i : SessionRef)
  | dropSession (i : SessionRef)
  | dropSystem (i : SystemRef)
  | dropRegistry (r : RegistryRef)
  | update (i : SessionRef) (response : Bytes)
  | remove (i : SessionRef)
  | close (i : SessionRef)
  /-- Any other request about a session. -/
  | ask (i : SessionRef) (r : SessionRequest)
  | decrypt (i : SessionRef) (r : Channel.Request)
  /-- The engine reports something of its own accord. -/
  | receive (l : List Service.Delivery)

namespace Call

/-- The world after a call, whether it succeeds or fails. -/
def after (w : World Engine) : Call → World Engine
  | connect settings => ((Action.connect settings).exec w).2
  | createSystem r keySystem => ((Action.createSystem r keySystem).exec w).2
  | createSession i licenseType initDataType initData cdmData listener =>
    ((Action.createSession i licenseType initDataType initData cdmData listener).exec w).2
  | addBridge b => { w with bridges := w.bridges ++ [b] }
  | openHandle i b => ((Boundary.openHandle i b).exec w).2
  | dropHandle h => ((Action.dropHandle h).exec w).2
  | holdSession i => ((Action.holdSession i).exec w).2
  | dropSession i => ((Action.dropSession i).exec w).2
  | dropSystem i => ((Action.dropSystem i).exec w).2
  | dropRegistry r => ((Action.dropRegistry r).exec w).2
  | update i response => ((Action.update i response).exec w).2
  | remove i => ((Action.remove i).exec w).2
  | close i => ((Action.close i).exec w).2
  | ask i r => ((Action.askSession i r).exec w).2
  | decrypt i r => ((Action.decrypt i r).exec w).2
  | receive l => ((Action.receiveAll l).exec w).2

/-- Whether an application can make the call: it names what there is, and a session that it
holds. -/
def Possible (w : World Engine) : Call → Prop
  | addBridge b => b.target = .pending []
  | openHandle i _ => i < w.sessions.length
  | dropHandle h => h < w.handles.length
  | holdSession i => w.isLive i = true
  | dropSession i => i < w.sessions.length
  | decrypt i _ => w.isLive i = true
  | _ => True

end Call

namespace Fit

variable {w : World Engine}

theorem addBridge (h : Fit w) {b : Callback.Bridge} (hb : b.target = .pending []) :
    Fit { w with bridges := w.bridges ++ [b] } := by
  obtain ⟨hw, n, m, hsized⟩ := h
  exact ⟨hw.congr_aside rfl rfl rfl rfl rfl, n, m, hsized.addBridge hb⟩

theorem openHandle (h : Fit w) {i : SessionRef} (hi : i < w.sessions.length)
    (b : Option BridgeRef) : Fit ((Boundary.openHandle i b).exec w).2 := by
  obtain ⟨hw, n, m, hsized⟩ := h
  rw [hsized.sessions] at hi
  obtain ⟨m', handles, hsized', hs⟩ := steps_openHandle (fun _ => True) hsized hi b
  have hwired : Wired none { w with handles } := hw.congr_aside rfl rfl rfl rfl rfl
  exact steps ⟨hwired, n, m', hsized'⟩ hs

theorem receiveAll (h : Fit w) (l : List Service.Delivery) :
    Fit ((Action.receiveAll l).exec w).2 := h.runs fun _ => runs_receiveAll fun _ => trivial

theorem askSession (h : Fit w) (i : SessionRef) (r : SessionRequest) :
    Fit ((Action.askSession i r).exec w).2 :=
  keeps_ask (.session (w.session i).remote r) (Engine.session_ne_createSession _ r) w h

theorem update (h : Fit w) (i : SessionRef) (response : Bytes) :
    Fit ((Action.update i response).exec w).2 :=
  Action.Keeps.bind (fun _ hw => hw.askSession i (.update response))
    (fun _ => .bind (fun _ hw => hw.receiveAll _) fun _ => .ofResult _) w h

theorem remove (h : Fit w) (i : SessionRef) : Fit ((Action.remove i).exec w).2 :=
  Action.Keeps.bind (fun _ hw => hw.askSession i .remove)
    (fun _ => .bind (fun _ hw => hw.receiveAll _) fun _ => .ofResult _) w h

theorem close (h : Fit w) (i : SessionRef) : Fit ((Action.close i).exec w).2 :=
  Action.Keeps.bind (fun _ hw => hw.askSession i .close) (fun _ => .ofResult _) w h

theorem after (h : Fit w) {c : Call} (hc : c.Possible w) : Fit (c.after w) := by
  cases c with
  | connect settings =>
    exact Action.Keeps.connect (fun r old _ _ => keeps_ask r old) (fun x _ hw => hw.addRegistry x _)
      settings w h
  | createSystem r keySystem => exact h.createSystem r keySystem
  | createSession i licenseType initDataType initData cdmData listener =>
    exact h.createSession i licenseType initDataType initData cdmData listener
  | addBridge b => exact h.addBridge hc
  | openHandle i b => exact h.openHandle hc b
  | dropHandle h' => exact h.runs fun hsized => runs_dropHandle (by rw [← hsized.handles]; exact hc)
  | holdSession i =>
    have hhold : Change (fun _ => True) w _ := .holdSession i hc
    exact h.steps (.single hhold)
  | dropSession i =>
    exact h.runs fun hsized => runs_dropSession (by rw [← hsized.sessions]; exact hc)
  | dropSystem i => exact h.runs fun _ => runs_dropSystem i
  | dropRegistry r => exact h.runs fun _ => runs_dropRegistry r
  | update i response => exact h.update i response
  | remove i => exact h.remove i
  | close i => exact h.close i
  | ask i r => exact h.askSession i r
  | decrypt i r => exact h.decrypt hc r
  | receive l => exact h.receiveAll l

end Fit

/-! ## Worlds that are reached -/

/-- The worlds that calls lead to, from an engine without sessions. -/
inductive Reached : World Engine → Prop
  | start (e : Engine) (memory : SharedMemory) (libraries : Libraries) (new : e.sessions = []) :
    Reached { service := e, memory, libraries }
  | call {w : World Engine} (c : Call) (before : Reached w) (possible : c.Possible w) :
    Reached (c.after w)
  /-- A decrypt call that is not answered in time. Its deadline passes anywhere, and the engine may
  still be at the request then and answer it when nobody waits any more. -/
  | overtime {w : World Engine} {i : SessionRef} {s : Client.Session} {a : Channel.Attachment}
    {x : Session} {stop : Channel.Meeting} (before : Reached w) (session : w.sessions[i]? = some s)
    (attached : s.attachment = some a) (serving : w.service.sessions[s.remote]? = some x)
    (r : Channel.Request) (turns : List Channel.Turn)
    (meeting : Channel.Meeting.run (decryptSample x.keys)
      ⟨a.start false r, some { capacity := channelCapacity }, w.memory.object a.object⟩ turns =
        stop)
    (ended : stop.call.isOver = true)
    (rested : ∀ run, stop.server = some run → run.stage.phase? = none) :
    Reached { w with memory := w.memory.setObject a.object stop.object }

theorem fit_of_reached {w : World Engine} (h : Reached w) : Fit w := by
  induction h with
  | start e memory libraries new =>
    have hnone {α : Type} {i : Nat} {x : α} (hx : ([] : List α)[i]? = some x) : False := nomatch hx
    refine ⟨⟨Engine.sound_of_nil new memory, fun hs => (hnone hs).elim, fun hs => (hnone hs).elim,
      fun hs => (hnone hs).elim, fun hs => (hnone hs).elim, fun hk => (nomatch hk),
      fun hk => (nomatch hk), fun hk => (nomatch hk)⟩, 0, 0, rfl, rfl, fun hh => (nomatch hh),
      fun hb => (nomatch hb)⟩
  | call c before possible ih => exact ih.after possible
  | overtime before session attached serving r turns meeting ended rested ih =>
    obtain ⟨hw, n, m, hsized⟩ := ih
    obtain ⟨y, hy, hbound⟩ := hw.bound session
    have hready := hw.sound.ready hy
    rw [← hbound.object attached] at hready
    have hstop := hready.run _ false r _ turns meeting ended rested
    exact ⟨⟨hw.sound.setObject hstop, hw.bound, hw.distinct, hw.registered, hw.systems, hw.opened,
      hw.known, hw.apart⟩, n, m, hsized.congr rfl rfl rfl⟩

end Loopback

end ContentDecryption
