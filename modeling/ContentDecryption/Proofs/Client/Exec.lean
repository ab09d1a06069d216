import ContentDecryption.Client.Playback
import ContentDecryption.Proofs.Entries

/-!
# What an action comes to

An action is run in a world and leaves another one. `Action.exec` gives its end and
the world after it; the lemmas here take an action apart into its parts, so that no
proof has to open the monad.

Main results:

* `Action.exec_bind`: the second part runs in the world that the first has left;
* `Action.exec_andThen`: both parts run, whatever becomes of the first;
* `Action.Keeps.bind` and the rules beside it: what all parts of an action keep, the action keeps;
* `Action.FailsOnly.bind` and the rules beside it: an action fails with what its parts fail with;
* `Action.Succeeds.bind` and the rules beside it: if no part of an action fails, the action does
  not fail;
* `Action.exec_decrypt_of_attached`: what comes of a decrypt call, given the channel of its session;
* `Action.createSession_cases`: what can come of a session that is asked for.
-/

namespace ContentDecryption

namespace Client

open Service

namespace Action

variable {σ α β : Type}

/-- The end of an action in a world, and the world after it. -/
def exec (a : Action σ α) (w : World σ) : Except Failure α × World σ := a.run.run w

/-! ## Parts -/

@[simp] theorem exec_pure (x : α) (w : World σ) : (pure x : Action σ α).exec w = (.ok x, w) := rfl

@[simp] theorem exec_throw (f : Failure) (w : World σ) :
    (throw f : Action σ α).exec w = (.error f, w) := rfl

@[simp] theorem exec_fail (e : Error) (w : World σ) :
    (fail e : Action σ α).exec w = (.error (.error e), w) := rfl

@[simp] theorem exec_modify (f : World σ → World σ) (w : World σ) :
    (modify f : Action σ Unit).exec w = (.ok (), f w) := rfl

@[simp] theorem exec_ofResult (x : Except Error α) (w : World σ) :
    (ofResult x).exec w = (x.mapError .error, w) := by
  cases x <;> rfl

theorem exec_bind (a : Action σ α) (f : α → Action σ β) (w : World σ) :
    (a >>= f).exec w = match a.exec w with
      | (.ok x, w') => (f x).exec w'
      | (.error e, w') => (.error e, w') := by
  show (ExceptT.run (a >>= f)).run w = match (a.run.run w : Except Failure α × World σ) with
    | (.ok x, w') => (f x).exec w'
    | (.error e, w') => (.error e, w')
  rw [ExceptT.run_bind, StateT.run_bind]
  show _ = _
  cases a.run.run w with
  | mk x w' => cases x <;> rfl

theorem exec_bind_of_ok {a : Action σ α} {w w' : World σ} {x : α} (h : a.exec w = (.ok x, w'))
    (f : α → Action σ β) : (a >>= f).exec w = (f x).exec w' := by
  rw [exec_bind, h]

theorem exec_bind_of_error {a : Action σ α} {w w' : World σ} {e : Failure}
    (h : a.exec w = (.error e, w')) (f : α → Action σ β) : (a >>= f).exec w = (.error e, w') := by
  rw [exec_bind, h]

/-- What an action comes to that passes a status on. -/
theorem exec_ofStatus_of_ok {a : Action σ Status} {w w' : World σ} {status : Status}
    (h : a.exec w = (.ok status, w')) :
    (a >>= ofStatus).exec w = ((Error.ofStatus status).mapError .error, w') := by
  rw [exec_bind_of_ok h, ofStatus, exec_ofResult]

@[simp] theorem exec_get_bind (f : World σ → Action σ β) (w : World σ) :
    (get >>= f : Action σ β).exec w = (f w).exec w := rfl

@[simp] theorem exec_modify_bind (g : World σ → World σ) (f : Unit → Action σ β) (w : World σ) :
    (modify g >>= f : Action σ β).exec w = (f ()).exec (g w) := rfl

@[simp] theorem exec_attempt (a : Action σ α) (w : World σ) :
    (attempt a).exec w = (.ok (a.exec w).1, (a.exec w).2) := rfl

/-- The second part runs in any case. -/
theorem exec_andThen (first second : Action σ Unit) (w : World σ) :
    ((andThen first second).exec w).2 = (second.exec (first.exec w).2).2 := by
  unfold andThen
  rw [exec_bind_of_ok (exec_attempt first w)]
  cases (first.exec w).1 with
  | ok x => rfl
  | error f =>
    show ((attempt second >>= fun _ => throw f : Action σ Unit).exec _).2 = _
    rw [exec_bind_of_ok (exec_attempt second _)]
    rfl

/-! ## What actions keep -/

/-- A property of worlds that the action keeps, however it ends. -/
def Keeps (P : World σ → Prop) (a : Action σ α) : Prop := ∀ w, P w → P (a.exec w).2

namespace Keeps

variable {P : World σ → Prop} {a : Action σ α} {f : α → Action σ β}

theorem pure (x : α) : Keeps P (pure x : Action σ α) := fun _ h => h

theorem throw (e : Failure) : Keeps P (throw e : Action σ α) := fun _ h => h

theorem bind (ha : Keeps P a) (hf : ∀ x, Keeps P (f x)) : Keeps P (a >>= f) := by
  intro w hw
  have hfirst := ha w hw
  rw [exec_bind]
  cases he : a.exec w with
  | mk x w' =>
    rw [he] at hfirst
    cases x with
    | ok x => exact hf x w' hfirst
    | error e => exact hfirst

/-- An action that looks at the world first. -/
theorem get_bind {f : World σ → Action σ β} (hf : ∀ w, P w → P ((f w).exec w).2) :
    Keeps P (get >>= f) := hf

theorem modify {f : World σ → World σ} (hf : ∀ w, P w → P (f w)) : Keeps P (modify f) := hf

theorem ite {c : Prop} {_ : Decidable c} {a b : Action σ α} (ha : c → Keeps P a)
    (hb : ¬ c → Keeps P b) : Keeps P (if c then a else b) := by
  by_cases h : c
  · rw [if_pos h]
    exact ha h
  · rw [if_neg h]
    exact hb h

theorem ofResult (x : Except Error α) : Keeps P (ofResult x) := by
  cases x with
  | ok x => exact pure x
  | error e => exact throw _

theorem attempt (ha : Keeps P a) : Keeps P (attempt a) := ha

theorem guarded {a : Action σ Unit} (ha : Keeps P a) : Keeps P (guarded a) := by
  refine bind ha.attempt fun x => ?_
  cases x with
  | ok _ => exact pure _
  | error f => exact pure _

theorem andThen {first second : Action σ Unit} (h1 : Keeps P first) (h2 : Keeps P second) :
    Keeps P (andThen first second) := by
  intro w hw
  rw [exec_andThen]
  exact h2 _ (h1 w hw)

theorem forM {l : List α} {f : α → Action σ Unit} (h : ∀ x ∈ l, Keeps P (f x)) :
    Keeps P (l.forM f) := by
  induction l with
  | nil => exact pure ()
  | cons x l ih =>
    refine bind (h x List.mem_cons_self) fun _ => ih fun y hy => h y (List.mem_cons_of_mem x hy)

end Keeps

/-! ## How actions fail -/

/-- The action fails with these failures and no others. -/
def FailsOnly (P : Failure → Prop) (a : Action σ α) : Prop :=
  ∀ w f w', a.exec w = (.error f, w') → P f

/-- The action comes to its end in every world. -/
def Succeeds (a : Action σ α) : Prop := ∀ w, ∃ x w', a.exec w = (.ok x, w')

theorem Succeeds.failsOnly {a : Action σ α} (h : a.Succeeds) (P : Failure → Prop) :
    a.FailsOnly P := by
  intro w f w' hf
  obtain ⟨x, w'', hx⟩ := h w
  cases hx.symm.trans hf

/-- An action that can fail in no way does not fail. -/
theorem FailsOnly.succeeds {a : Action σ α} (h : a.FailsOnly fun _ => False) : a.Succeeds := by
  intro w
  rcases he : a.exec w with ⟨f | x, w'⟩
  · exact (h w f w' he).elim
  · exact ⟨x, w', rfl⟩

namespace FailsOnly

variable {P : Failure → Prop} {a : Action σ α} {f : α → Action σ β}

theorem pure (x : α) : (pure x : Action σ α).FailsOnly P := fun _ _ _ => nofun

theorem modify (f : World σ → World σ) : (modify f : Action σ Unit).FailsOnly P :=
  fun _ _ _ => nofun

theorem bind (ha : a.FailsOnly P) (hf : ∀ x, (f x).FailsOnly P) : (a >>= f).FailsOnly P := by
  intro w e w' h
  rcases he : a.exec w with ⟨e' | x, w₁⟩
  · rw [exec_bind_of_error he] at h
    cases h
    exact ha w _ _ he
  · rw [exec_bind_of_ok he] at h
    exact hf x w₁ e w' h

/-- An action that looks at the world first. -/
theorem get_bind {f : World σ → Action σ β} (hf : ∀ w, (f w).FailsOnly P) :
    (get >>= f : Action σ β).FailsOnly P := fun w e w' h => hf w w e w' h

theorem ite {c : Prop} {_ : Decidable c} {a b : Action σ α} (ha : a.FailsOnly P)
    (hb : b.FailsOnly P) : (if c then a else b).FailsOnly P := by
  by_cases h : c
  · rwa [if_pos h]
  · rwa [if_neg h]

theorem andThen {first second : Action σ Unit} (h1 : first.FailsOnly P)
    (h2 : second.FailsOnly P) : (andThen first second).FailsOnly P := by
  intro w e w' h
  unfold Action.andThen at h
  rw [exec_bind_of_ok (exec_attempt first w)] at h
  rcases he : first.exec w with ⟨e' | x, w₁⟩
  · rw [he] at h
    dsimp only at h
    rw [exec_bind_of_ok (exec_attempt second w₁)] at h
    cases h
    exact h1 w _ _ he
  · rw [he] at h
    exact h2 w₁ e w' h

theorem forM {l : List α} {f : α → Action σ Unit} (h : ∀ x, (f x).FailsOnly P) :
    (l.forM f).FailsOnly P := by
  induction l with
  | nil => exact pure ()
  | cons x l ih => exact bind (h x) fun _ => ih

end FailsOnly

namespace Succeeds

variable {a : Action σ α} {f : α → Action σ β}

theorem pure (x : α) : Succeeds (pure x : Action σ α) := (FailsOnly.pure x).succeeds

theorem modify (f : World σ → World σ) : Succeeds (modify f) := (FailsOnly.modify f).succeeds

theorem bind (ha : Succeeds a) (hf : ∀ x, Succeeds (f x)) : Succeeds (a >>= f) :=
  (FailsOnly.bind (ha.failsOnly _) fun x => (hf x).failsOnly _).succeeds

/-- An action that looks at the world first. -/
theorem get_bind {f : World σ → Action σ β}
    (hf : ∀ w, ∃ x w', (f w).exec w = (.ok x, w')) : Succeeds (get >>= f) := hf

theorem ite {c : Prop} {_ : Decidable c} {a b : Action σ α} (ha : Succeeds a) (hb : Succeeds b) :
    Succeeds (if c then a else b) := (FailsOnly.ite (ha.failsOnly _) (hb.failsOnly _)).succeeds

/-- What something ends with is known, even if that is a failure. -/
theorem guarded (a : Action σ Unit) : Succeeds (guarded a) := by
  intro w
  unfold Action.guarded
  rw [exec_bind_of_ok (exec_attempt a w)]
  cases (a.exec w).1 with
  | ok _ => exact ⟨_, _, rfl⟩
  | error f => exact ⟨_, _, rfl⟩

theorem forM {l : List α} {f : α → Action σ Unit} (h : ∀ x, Succeeds (f x)) :
    Succeeds (l.forM f) := (FailsOnly.forM fun x => (h x).failsOnly _).succeeds

end Succeeds

end Action

/-! ## What is found in a world -/

namespace World

variable {σ : Type} {w : World σ} {i : Nat}

theorem session_of_getElem? {s : Session} (h : w.sessions[i]? = some s) : w.session i = s := by
  rw [session, List.getD_eq_getElem?_getD, h]
  rfl

theorem sink_of_getElem? {s : Sink} (h : w.sinks[i]? = some s) : w.sink i = s := by
  rw [sink, List.getD_eq_getElem?_getD, h]
  rfl

theorem bridge_of_getElem? {y : Callback.Bridge} (h : w.bridges[i]? = some y) :
    w.bridge i = y := by
  rw [bridge, List.getD_eq_getElem?_getD, h]
  rfl

theorem handle_of_getElem? {z : Handle} (h : w.handles[i]? = some z) : w.handle i = z := by
  rw [handle, List.getD_eq_getElem?_getD, h]
  rfl

end World

/-! ## Requests -/

namespace World

variable {σ : Type} [Service σ]

/-- The world after a request. -/
def answered (w : World σ) (r : Request) : World σ :=
  let x := Service.respond r w.service w.memory
  let journal := if Service.recorded w.service then .asked r :: w.journal else w.journal
  { w with service := x.service, memory := x.memory, journal }

/-- The world after the service has been told that nobody here holds a session any more. -/
def released (w : World σ) (remote : Nat) : World σ :=
  let x := Service.release remote w.service w.memory
  { w with service := x.1, memory := x.2 }

end World

namespace Action

variable {σ : Type} [Service σ]

theorem exec_ask (r : Request) (w : World σ) : (ask r).exec w =
    (match (Service.respond r w.service w.memory).answer with
      | some a => .ok a
      | none => .error .aborted, w.answered r) := by
  show (match (Service.respond r w.service w.memory).answer with
    | some a => pure a
    | none => throw .aborted : Action σ r.Answer).exec (w.answered r) = _
  cases (Service.respond r w.service w.memory).answer <;> rfl

/-- A request fails only where the service gives up in the middle of it. -/
theorem failsOnly_ask (r : Request) :
    (ask r : Action σ r.Answer).FailsOnly fun f => f = .aborted := by
  intro w f w' h
  rw [exec_ask] at h
  cases hanswer : (Service.respond r w.service w.memory).answer with
  | some x =>
    rw [hanswer] at h
    cases h
  | none =>
    rw [hanswer] at h
    cases h
    rfl

theorem world_ask (r : Request) (w : World σ) : ((ask r).exec w).2 = w.answered r := by
  rw [exec_ask]

theorem exec_accessor_of_none {σ : Type} {w : World σ} {r : RegistryRef}
    (h : (w.registry r).accessor = none) :
    (accessor r).exec w = (.error (.error .invalidAccessor), w) := by
  unfold accessor
  rw [exec_get_bind, h]
  rfl

theorem exec_accessor_of_some {σ : Type} {w : World σ} {r : RegistryRef} {a : Accessor}
    (h : (w.registry r).accessor = some a) : (accessor r).exec w = (.ok a, w) := by
  unfold accessor
  rw [exec_get_bind, h]
  rfl

theorem exec_ask_of_answer {r : Request} {w : World σ} {x : r.Answer}
    (h : (Service.respond r w.service w.memory).answer = some x) :
    (ask r).exec w = (.ok x, w.answered r) := by
  rw [exec_ask, h]

/-- A service that knows requests about key systems is asked them. -/
theorem exec_askSystem_of_answer {w : World σ} {i : SystemRef} {a : Accessor}
    (ha : (w.registry (w.system i).registry).accessor = some a)
    (hknown : Service.hasSystemRequests w.service a = true) {r : SystemRequest} {x : r.Answer}
    (h : (Service.respond (.system (w.system i).keySystem r) w.service w.memory).answer = some x) :
    (askSystem i r).exec w = (.ok x, w.answered (.system (w.system i).keySystem r)) := by
  unfold askSystem
  rw [exec_get_bind]
  dsimp only
  rw [exec_bind_of_ok (exec_accessor_of_some ha), exec_get_bind]
  exact (congrArg (fun a => exec a w) (if_pos hknown)).trans (exec_ask_of_answer h)

/-- An extended session is asked what only such sessions know. -/
theorem exec_askExtended_of_answer {w : World σ} {i : SessionRef}
    (hextended : (w.session i).extended = true) {r : SessionRequest} {x : r.Answer}
    (h : (Service.respond (.session (w.session i).remote r) w.service w.memory).answer = some x) :
    (askExtended i r).exec w = (.ok x, w.answered (.session (w.session i).remote r)) := by
  unfold askExtended
  rw [exec_get_bind]
  exact (congrArg (fun a => exec a w) (if_pos hextended)).trans (exec_ask_of_answer h)

theorem Keeps.accessor {σ : Type} {P : World σ → Prop} (r : RegistryRef) :
    Keeps P (accessor r) := by
  intro w hw
  cases ha : (w.registry r).accessor with
  | none =>
    rw [exec_accessor_of_none ha]
    exact hw
  | some a =>
    rw [exec_accessor_of_some ha]
    exact hw

end Action

/-! ## Samples -/

namespace Action

variable {σ : Type} {w w' : World σ} {i : SessionRef} {a : Channel.Attachment}

/-- A session that has no channel yet is attached to the one under its name. Nothing changes for the
service. -/
theorem attachment_cases (h : (attachment i).exec w = (.ok a, w')) :
    w'.service = w.service ∧ w'.memory = w.memory ∧
      ((w.session i).attachment = some a ∨ ∃ timeoutMs reserved,
        Channel.Attachment.attach w.memory (w.session i).bufferId timeoutMs reserved
          (w.decryptLock i) = .ok a) := by
  unfold attachment at h
  rw [exec_get_bind] at h
  dsimp only at h
  cases hbefore : (w.session i).attachment with
  | some b =>
    rw [hbefore] at h
    cases h
    exact ⟨rfl, rfl, .inl rfl⟩
  | none =>
    rw [hbefore] at h
    dsimp only at h
    rw [exec_bind, exec_ofResult] at h
    cases hattach : Channel.Attachment.attach w.memory (w.session i).bufferId
        (w.registry (w.session i).registry).settings.decryptTimeoutMs
        (w.registry (w.session i).registry).settings.reservedTokenSize (w.decryptLock i) with
    | error e =>
      rw [hattach] at h
      cases h
    | ok b =>
      rw [hattach] at h
      cases h
      exact ⟨rfl, rfl, .inr ⟨_, _, hattach⟩⟩

/-- What comes of a decrypt call with data is what comes of its request at the channel of the
session. -/
theorem exec_decrypt_of_attached [Service σ] {r : Channel.Request} (hdata : r.data ≠ [])
    (h : (attachment i).exec w = (.ok a, w')) :
    let x := a.decrypt false r (Service.decryptor? w'.service a.object) w'.memory
    (decrypt i r).exec w =
      (.ok (x.1.result.mapError .error, x.1.data), { w' with memory := x.2 }) := by
  intro x
  have hempty : ¬ r.data.isEmpty = true := by simpa using hdata
  have hexchange : (exchange a r).exec w' = (.ok x.1, { w' with memory := x.2 }) := by
    unfold exchange
    rw [exec_get_bind]
    dsimp only
    rfl
  unfold decrypt
  rw [if_neg hempty, exec_bind_of_ok (exec_attempt _ w), h]
  dsimp only
  rw [exec_bind_of_ok hexchange]
  rfl

end Action

/-! ## Connections and key systems -/

namespace Action.Keeps

variable {σ : Type} [Service σ] {P : World σ → Prop}

/-- Connecting comes to a few requests about no session, and a connection without sessions. -/
theorem connectWith
    (hask : ∀ r : Request, (∀ setup k, r ≠ .createSession setup k) → (∀ i q, r ≠ .session i q) →
      (∀ keySystem q, r ≠ .system keySystem q) → (Action.ask r : Action σ r.Answer).Keeps P)
    (hadd : ∀ {w : World σ} (x : Registry), x.sessions = [] → P w →
      P { w with registries := w.registries ++ [x], subscriber := some w.registries.length })
    (settings : Settings) (transform : ClearTransform) :
    (Action.connectWith settings transform : Action σ RegistryRef).Keeps P := by
  unfold Action.connectWith
  refine .bind (hask _ (fun _ _ => nofun) (fun _ _ => nofun) fun _ _ => nofun) fun reachable => ?_
  refine .ite (fun _ _ hw => hw) fun _ => ?_
  refine .bind (hask .accessor (fun _ _ => nofun) (fun _ _ => nofun) fun _ _ => nofun)
    fun accessor => ?_
  match accessor with
  | none =>
    exact .bind (hask (.closeConnection _) (fun _ _ => nofun) (fun _ _ => nofun) fun _ _ => nofun)
      fun _ => .throw _
  | some a => exact .get_bind fun w hw => hadd { accessor := some a, transform, settings } rfl hw

/-- A library is loaded first, and nothing is asked if that fails. -/
theorem connect
    (hask : ∀ r : Request, (∀ setup k, r ≠ .createSession setup k) → (∀ i q, r ≠ .session i q) →
      (∀ keySystem q, r ≠ .system keySystem q) → (Action.ask r : Action σ r.Answer).Keeps P)
    (hadd : ∀ {w : World σ} (x : Registry), x.sessions = [] → P w →
      P { w with registries := w.registries ++ [x], subscriber := some w.registries.length })
    (settings : Settings) : (Action.connect settings : Action σ RegistryRef).Keeps P := by
  refine .get_bind fun w hw => ?_
  cases settings.secureBufferLibrary with
  | none => exact connectWith hask hadd settings _ w hw
  | some path =>
    exact Keeps.bind (.ofResult _) (fun transform => connectWith hask hadd settings transform) w hw

/-- Two requests about no session, and a key system of the connection. -/
theorem createSystem {r : RegistryRef}
    (hask : ∀ r : Request, (∀ setup k, r ≠ .createSession setup k) → (∀ i q, r ≠ .session i q) →
      (∀ keySystem q, r ≠ .system keySystem q) → (Action.ask r : Action σ r.Answer).Keeps P)
    (hadd : ∀ {w : World σ} (x : System), x.registry = r → P w →
      P { w with systems := w.systems ++ [x] })
    (keySystem : String) : (Action.createSystem r keySystem : Action σ SystemRef).Keeps P := by
  unfold Action.createSystem
  refine .bind (.accessor r) fun _ => ?_
  refine .bind (hask (.isTypeSupported keySystem "") (fun _ _ => nofun) (fun _ _ => nofun)
    fun _ _ => nofun) fun status => ?_
  refine .ite (fun _ _ hw => hw) fun _ => ?_
  refine .bind (hask (.metadata keySystem) (fun _ _ => nofun) (fun _ _ => nofun) fun _ _ => nofun)
    fun description => ?_
  exact .get_bind fun w hw => hadd { registry := r, keySystem, metadata := _ } rfl hw

end Action.Keeps

/-! ## Asking for a session -/

/-- The service is reached through a connection that there is. -/
theorem lt_of_accessor {σ : Type} {w : World σ} {r : RegistryRef} {a : Accessor}
    (h : (w.registry r).accessor = some a) : r < w.registries.length := by
  refine Nat.lt_of_not_le fun hr => ?_
  rw [World.registry, List.getD_eq_default _ _ hr] at h
  cases h

/-- What can come of a session that was asked for, once the service has answered. -/
inductive TakenUp {σ : Type} [Service σ] (i : SystemRef) (k : SinkRef)
    (reported : Reported (Reply RemoteSession)) (w : World σ) :
    Except Failure SessionRef × World σ → Prop
  /-- There is no session, or a notice could not be taken in. -/
  | refused (e : Failure) :
      TakenUp i k reported w (.error e, ((Action.receiveAll reported.notices).exec w).2)
  /-- The session has no ID and is let go. -/
  | nameless {x : RemoteSession} (value : reported.value = .ok x) (e : Failure) :
      TakenUp i k reported w
        (.error e, World.released ((Action.receiveAll reported.notices).exec w).2 x.index)
  /-- The session is taken up. -/
  | adopted {x : RemoteSession} (value : reported.value = .ok x) :
      TakenUp i k reported w
        ((Action.adoptSession i k x).exec ((Action.receiveAll reported.notices).exec w).2)

namespace Action

variable {σ : Type} [Service σ]

theorem takenUp_takeUp (i : SystemRef) (k : SinkRef) (reported : Reported (Reply RemoteSession))
    (w : World σ) : TakenUp i k reported w ((do
      receiveAll reported.notices
      let x ← ofReply reported.value
      if x.id.isEmpty then
        modify fun w => w.released x.index
        fail .invalidSession
      adoptSession i k x : Action σ SessionRef).exec w) := by
  cases hr : (receiveAll reported.notices).exec w with
  | mk result w' =>
    have hw' : w' = ((receiveAll reported.notices).exec w).2 := by rw [hr]
    cases result with
    | error e =>
      rw [exec_bind_of_error hr, hw']
      exact .refused e
    | ok _ =>
      rw [exec_bind_of_ok hr, hw']
      cases hvalue : reported.value with
      | error status => exact .refused _
      | ok x =>
        show TakenUp i k reported w ((if x.id.isEmpty then _ else _ : Action σ SessionRef).exec _)
        split
        · exact .nameless hvalue _
        · exact .adopted hvalue

/-- A session is asked for through a connection to the service. Its sink is there before the service
answers. -/
theorem createSession_cases (w : World σ) (i : SystemRef) (licenseType : Int32)
    (initDataType : String) (initData cdmData : Bytes) (listener : Listener) :
    let s := w.system i
    let k := w.sinks.length
    let request : Request :=
      .createSession ⟨s.keySystem, licenseType, initDataType, initData, cdmData⟩ k
    let opened : World σ := { w with sinks := w.sinks ++ [{ registry := s.registry, listener }] }
    let x := (createSession i licenseType initDataType initData cdmData listener).exec w
    ((w.registry s.registry).accessor = none ∧ ∃ e, x = (.error e, w)) ∨
      (∃ a, (w.registry s.registry).accessor = some a) ∧
        ((∃ e, x = (.error e, opened.answered request)) ∨
          ∃ reported, (Service.respond request w.service w.memory).answer = some reported ∧
            TakenUp i k reported (opened.answered request) x) := by
  intro s k request opened x
  cases ha : (w.registry s.registry).accessor with
  | none => exact .inl ⟨rfl, _, exec_bind_of_error (exec_accessor_of_none ha) _⟩
  | some a =>
    refine .inr ⟨⟨a, rfl⟩, ?_⟩
    have hx : x = (ask request >>= fun reported => do
        receiveAll reported.notices
        let x ← ofReply reported.value
        if x.id.isEmpty then
          modify fun w => w.released x.index
          fail .invalidSession
        adoptSession i k x : Action σ SessionRef).exec opened :=
      exec_bind_of_ok (exec_accessor_of_some ha) _
    have hask := exec_ask request opened
    cases hanswer : (Service.respond request w.service w.memory).answer with
    | none =>
      rw [show (Service.respond request opened.service opened.memory).answer = none from hanswer]
        at hask
      exact .inl ⟨_, hx.trans (exec_bind_of_error hask _)⟩
    | some reported =>
      rw [show (Service.respond request opened.service opened.memory).answer = some reported
        from hanswer] at hask
      refine .inr ⟨reported, rfl, ?_⟩
      rw [hx, exec_bind_of_ok hask]
      exact takenUp_takeUp i k reported _

end Action

end Client

end ContentDecryption
