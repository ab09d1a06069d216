import ContentDecryption.Boundary.SessionCall
import ContentDecryption.Proofs.Client.Exec

/-!
# Taking notices in, and giving things up

A notice is taken in step by step: a ledger learns of it, a bridge lets it pass or keeps it
back, a callback is called and may give its handle up, and those who wait are woken. All of
these steps are small, and a property that each of them keeps is kept by everything that
notices bring about.

Main definitions:

* `Tended`: a property that the steps keep.

Main results:

* `Action.Keeps.closeUnused`, `Action.Keeps.dropSession` and the rules beside them: what is kept when
  something is given up;
* `Tended.receiveAll`, `Tended.attachBridge`: it is kept by notices, and by a bridge that delivers
  what it has kept back;
* `Action.succeeds_takeIn`: a notice is taken in whatever becomes of it;
* `Action.failsOnly_receiveAll`: notices fail only where the service cannot be left;
* `Action.openHandle_cases`: a handle is made, or the session is given up.
-/

namespace ContentDecryption

namespace Client

open Service

/-! ## What giving things up keeps -/

namespace Action.Keeps

variable {σ : Type} [Service σ] {P : World σ → Prop}

theorem ask {r : Request} (h : ∀ {w : World σ}, P w → P (w.answered r)) :
    (Action.ask r : Action σ r.Answer).Keeps P := by
  intro w hw
  rw [world_ask]
  exact h hw

section Registries

variable (hset : ∀ {w : World σ} {r : RegistryRef} {f : Registry → Registry},
    (∀ x, (f x).sessions = x.sessions) → P w → P (w.setRegistry r f))
  (hask : ∀ {timeoutMs : Nat}, (Action.ask (.closeConnection timeoutMs) : Action σ _).Keeps P)

include hset hask

/-- Connections are closed one by one, and the service is asked to. -/
theorem closeUnused : (Action.closeUnused : Action σ Unit).Keeps P := by
  refine .get_bind fun w hw => Keeps.forM (fun r _ => .get_bind fun w hw => ?_) w hw
  have hclosed : P (w.setRegistry r fun x => { x with isOpen := false, accessor := none }) :=
    hset (fun _ => rfl) hw
  exact Keeps.ite (fun _ => .bind (fun _ _ => hclosed) fun _ => hask) (fun _ => .pure ()) w hw

theorem dropRegistry (r : RegistryRef) : (Action.dropRegistry r : Action σ Unit).Keeps P :=
  .bind (.modify fun _ hw => hset (fun _ => rfl) hw) fun _ => closeUnused hset hask

end Registries

/-- A session loses a handle, and is let go if that was the last one. -/
theorem dropSession (hsession : ∀ {w : World σ} {i : SessionRef} {f : Session → Session}, P w →
      P (w.setSession i f))
    (hset : ∀ {w : World σ} {r : RegistryRef} {f : Registry → Registry}, P w →
      P (w.setRegistry r f))
    (hask : ∀ {r : Request}, (Action.ask r : Action σ r.Answer).Keeps P)
    (hrelease : ∀ {w : World σ} {remote : Nat}, P w → P (w.released remote)) (i : SessionRef) :
    (Action.dropSession i : Action σ Unit).Keeps P := by
  have hend : (Action.endSession i : Action σ Unit).Keeps P := by
    refine .get_bind fun w hw => Keeps.bind (.modify fun _ hw => hset hw) (fun _ => ?_) w hw
    exact .andThen hask (.bind (.modify fun _ hw => hrelease hw) fun _ =>
      .closeUnused (fun _ hw => hset hw) hask)
  refine .bind (.modify fun _ hw => hsession hw) fun _ => .get_bind fun w hw => ?_
  exact Keeps.ite (fun _ => hend) (fun _ => .pure ()) w hw

/-- A handle goes, its bridge is detached, and its session loses a handle. -/
theorem dropHandle (hhandle : ∀ {w : World σ} {h : HandleRef} {f : Handle → Handle}, P w →
      P (w.setHandle h f))
    (hbridge : ∀ {w : World σ} {b : BridgeRef} {f : Callback.Bridge → Callback.Bridge}, P w →
      P (w.setBridge b f))
    (hdrop : ∀ i, (Action.dropSession i : Action σ Unit).Keeps P) (h : HandleRef) :
    (Action.dropHandle h : Action σ Unit).Keeps P := by
  refine .get_bind fun w hw => ?_
  dsimp only
  split
  · refine Keeps.bind (.modify fun _ hw => hhandle hw) (fun _ => ?_) w hw
    split
    · exact .bind (.modify fun _ hw => hbridge hw) fun _ => hdrop _
    · exact hdrop _
  · exact hw

end Action.Keeps

/-! ## What notices keep -/

/-- A property that is kept by the steps in which notices are taken in. Only handles that are `known`
are attached to bridges, and only the sinks that are `told` learn of keys. -/
structure Tended {σ : Type} [Service σ] (told : SinkRef → Prop) (known : HandleRef → Prop)
    (P : World σ → Prop) : Prop where
  attached : ∀ {w : World σ} {b : BridgeRef} {h : HandleRef}, P w →
    (w.bridge b).target = .attached h → known h
  record : ∀ {w : World σ} {e : Entry}, (∀ r, e ≠ .asked r) → P w →
    P { w with journal := e :: w.journal }
  offer : ∀ {w : World σ} (b : BridgeRef) (e : SessionEvent), P w →
    P (w.setBridge b fun _ => ((w.bridge b).offer clientThread e).2)
  leave : ∀ {w : World σ} (b : BridgeRef), P w → P (w.setBridge b fun x => x.leave clientThread)
  attach : ∀ {w : World σ} (b : BridgeRef) {h : HandleRef}, known h → P w →
    P (w.setBridge b fun _ => ((w.bridge b).attach h).2)
  learnKey : ∀ {w : World σ} {k : SinkRef} (id : Bytes) (status : KeyStatus), told k → P w →
    P (w.setSink k fun s => { s with keys := s.keys.report id status })
  learnError : ∀ {w : World σ} (k : SinkRef) (e : SessionError), P w →
    P (w.setSink k fun s => { s with lastError := some e })
  signal : ∀ {w : World σ} (r : RegistryRef), P w → P (w.notifyKeys r)
  holdRegistry : ∀ {w : World σ} (r : RegistryRef), P w →
    P (w.setRegistry r fun x => { x with handles := x.handles + 1 })
  /-- A callback gives its handle up, and that is written down. -/
  release : ∀ {h : HandleRef}, known h → ∀ name : String, (do
    let status ← Action.guarded (Action.dropHandle h)
    Action.record (.released name status) : Action σ Unit).Keeps P
  dropRegistry : ∀ r : RegistryRef, (Action.dropRegistry r : Action σ Unit).Keeps P

namespace Tended

variable {σ : Type} [Service σ] {told : SinkRef → Prop} {known : HandleRef → Prop}
  {P : World σ → Prop}

/-- A callback may give up the handle that it was called with. -/
theorem deliver (hP : Tended told known P) {h : HandleRef} (hh : known h) (b : BridgeRef)
    (e : SessionEvent) : (Action.deliver h b e : Action σ Unit).Keeps P := by
  refine .get_bind fun w hw => ?_
  dsimp only
  split
  · exact hw
  · refine Action.Keeps.bind (.modify fun _ hw => hP.record ?_ hw) (fun _ => ?_) w hw
    · exact fun _ => nofun
    split
    · exact hP.release hh _
    · exact .pure _

/-- An event is only passed on to a handle that there is. -/
theorem dispatch (hP : Tended told known P) (b : BridgeRef) (e : SessionEvent) :
    (Action.dispatch b e : Action σ Unit).Keeps P := by
  refine .get_bind fun w hw => ?_
  have hoffered := hP.offer b e hw
  have hhandle {h : HandleRef} (ho : ((w.bridge b).offer clientThread e).1 = some h) :
      known h := by
    unfold Callback.Bridge.offer at ho
    split at ho
    · cases ho
    · next h' ht =>
      cases ho
      exact hP.attached hw ht
    · cases ho
  cases heq : (w.bridge b).offer clientThread e with
  | mk offered left =>
    rw [heq] at hoffered hhandle
    cases offered with
    | none => exact hoffered
    | some h =>
      exact Action.Keeps.bind (hP.deliver (hhandle rfl) b e)
        (fun _ => .modify fun _ hw => hP.leave b hw) _ hoffered

theorem announce (hP : Tended told known P) (k : SinkRef) (e : SessionEvent) :
    (Action.announce k e : Action σ Unit).Keeps P := by
  refine .get_bind fun w hw => ?_
  cases (w.sink k).listener with
  | nobody => exact hw
  | journal name => exact hP.record (fun _ => nofun) hw
  | bridge b => exact hP.dispatch b e w hw

/-- What there is to do about a key status once it is in the ledger. -/
theorem afterKey (hP : Tended told known P) (k : SinkRef) (id : Bytes) (status : KeyStatus) :
    (do
      if !status.isPending then Action.announce k (.keyUpdated id)
      Action.signalKeys k : Action σ Unit).Keeps P := by
  have hsignal : (Action.signalKeys k : Action σ Unit).Keeps P :=
    .modify fun w hw => hP.signal (w.sink k).registry hw
  dsimp only
  split
  · exact .bind (hP.announce k _) fun _ => hsignal
  · exact hsignal

theorem takeIn (hP : Tended told known P) (k : SinkRef) (n : Notice)
    (hk : ∀ id status, n = .keyStatus id status → told k) :
    (Action.takeIn k n : Action σ Unit).Keeps P := by
  cases n with
  | message url challenge => exact hP.announce k _
  | keyStatus id status =>
    exact .bind (.modify fun _ hw => hP.learnKey id status (hk id status rfl) hw) fun _ =>
      hP.afterKey k id status
  | keyStatusesComplete => exact hP.announce k _
  | error error systemError message =>
    exact .bind (.modify fun _ hw => hP.learnError k _ hw) fun _ => hP.announce k _

theorem receive (hP : Tended told known P) (k : SinkRef) (n : Notice)
    (hk : ∀ id status, n = .keyStatus id status → told k) :
    (Action.receive k n : Action σ Unit).Keeps P :=
  .get_bind fun w hw =>
    Action.Keeps.bind (.modify fun _ hw => hP.holdRegistry (w.sink k).registry hw)
      (fun _ => .andThen (hP.takeIn k n hk) (hP.dropRegistry _)) w hw

theorem receiveAll (hP : Tended told known P) {l : List Delivery}
    (hl : ∀ {k id status}, (k, .keyStatus id status) ∈ l → told k) :
    (Action.receiveAll l : Action σ Unit).Keeps P :=
  .forM fun d hd => hP.receive d.1 d.2 fun _ _ he => hl (by rw [← he]; exact hd)

theorem attachBridge (hP : Tended told known P) (b : BridgeRef) {h : HandleRef} (hh : known h) :
    (Action.attachBridge b h : Action σ Unit).Keeps P :=
  .get_bind fun _ hw =>
    Action.Keeps.forM (fun e _ => hP.deliver hh b e) _ (hP.attach b hh hw)

end Tended

/-! ## Notices do not fail -/

namespace Action

variable {σ : Type} [Service σ]

/-- A callback that fails to give its handle up says so, and nothing else comes of it. -/
theorem succeeds_deliver (h : HandleRef) (b : BridgeRef) (e : SessionEvent) :
    (deliver h b e : Action σ Unit).Succeeds := by
  refine .get_bind fun w => ?_
  dsimp only
  split
  · exact ⟨(), w, rfl⟩
  · exact Succeeds.bind (.modify _)
      (fun _ => .ite (.bind (.guarded _) fun _ => .modify _) (.pure ())) w

theorem succeeds_announce (k : SinkRef) (e : SessionEvent) :
    (announce k e : Action σ Unit).Succeeds := by
  refine .get_bind fun w => ?_
  cases (w.sink k).listener with
  | nobody => exact ⟨(), w, rfl⟩
  | journal name => exact ⟨(), _, rfl⟩
  | bridge b =>
    refine Succeeds.get_bind (fun w => ?_) w
    cases (w.bridge b).offer clientThread e with
    | mk offered left =>
      refine Succeeds.bind (.modify _) (fun _ => ?_) w
      cases offered with
      | none => exact .pure ()
      | some h => exact .bind (succeeds_deliver h b e) fun _ => .modify _

theorem succeeds_takeIn (k : SinkRef) (n : Notice) :
    (takeIn k n : Action σ Unit).Succeeds := by
  cases n with
  | message | keyStatusesComplete => exact succeeds_announce k _
  | keyStatus id status =>
    refine .bind (.modify _) fun _ => ?_
    dsimp only
    split
    · exact .bind (succeeds_announce k _) fun _ => .modify _
    · exact .modify _
  | error => exact .bind (.modify _) fun _ => succeeds_announce k _

theorem succeeds_attachBridge (b : BridgeRef) (h : HandleRef) :
    (attachBridge b h : Action σ Unit).Succeeds :=
  .get_bind fun w => Succeeds.bind (.modify _) (fun _ => .forM fun e => succeeds_deliver h b e) w

section Leaving

variable {P : Failure → Prop}
  (hleave : ∀ timeoutMs, (ask (.closeConnection timeoutMs) : Action σ Unit).FailsOnly P)

include hleave

/-- Connections are closed as far as the service lets itself be left. -/
theorem failsOnly_closeUnused : (closeUnused : Action σ Unit).FailsOnly P := by
  refine .get_bind fun w => .forM fun r => .get_bind fun w => ?_
  have hset (w' : World σ) : (set w' : Action σ PUnit).FailsOnly P := fun _ _ _ => nofun
  exact .ite (.bind (hset _) fun _ => hleave _) (.pure ())

/-- Nothing else goes wrong with a notice. -/
theorem failsOnly_receive (k : SinkRef) (n : Notice) :
    (receive k n : Action σ Unit).FailsOnly P := by
  refine .get_bind fun w => .bind (.modify _) fun _ => ?_
  refine .andThen ((succeeds_takeIn k n).failsOnly P) ?_
  exact .bind (.modify _) fun _ => failsOnly_closeUnused hleave

theorem failsOnly_receiveAll (l : List Delivery) : (receiveAll l : Action σ Unit).FailsOnly P :=
  .forM fun d => failsOnly_receive hleave d.1 d.2

end Leaving

/-- What comes of a request that is answered with a status and notices. -/
theorem exec_reported {w w₁ w₂ : World σ} {a : Action σ (Reported Status)}
    {reported : Reported Status} (ha : a.exec w = (.ok reported, w₁))
    (hnotices : (receiveAll reported.notices).exec w₁ = (.ok (), w₂)) :
    (do
      let reported ← a
      receiveAll reported.notices
      ofStatus reported.value : Action σ Unit).exec w =
    ((Error.ofStatus reported.value).mapError .error, w₂) := by
  rw [exec_bind_of_ok ha, exec_bind_of_ok hnotices, ofStatus, exec_ofResult]

/-- A handle is made and its bridge is attached to it, or the session is given up. -/
theorem openHandle_cases (w : World σ) (i : SessionRef) (b : Option BridgeRef) :
    let h := w.handles.length
    let x : Handle := ⟨i, (w.session i).id, (w.session i).bufferId, b, true⟩
    let opened : World σ := { w with handles := w.handles ++ [x] }
    (Boundary.openHandle i b).exec w = (.ok h, match b with
        | some b => ((attachBridge b h).exec opened).2
        | none => opened) ∨
      ∃ f, (Boundary.openHandle i b).exec w = (.error f, ((dropSession i).exec w).2) := by
  intro h x opened
  have hrefuse (e : Error) : ∃ f,
      (dropSession i >>= fun _ => (fail e : Action σ HandleRef)).exec w =
        (.error f, ((dropSession i).exec w).2) := by
    cases hexec : (dropSession i).exec w with
    | mk result w' =>
      cases result with
      | ok _ => exact ⟨_, exec_bind_of_ok hexec _⟩
      | error f => exact ⟨f, exec_bind_of_error hexec _⟩
  unfold Boundary.openHandle
  rw [exec_get_bind]
  dsimp only
  split
  · left
    rw [exec_get_bind, exec_modify_bind]
    cases b with
    | none => rfl
    | some b =>
      obtain ⟨_, w', hexec⟩ := succeeds_attachBridge b h opened
      show (attachBridge b h >>= fun _ => (pure h : Action σ HandleRef)).exec opened = _
      rw [exec_bind_of_ok hexec]
      dsimp only
      rw [hexec]
      rfl
  · exact .inr (hrefuse _)
  · exact .inr (hrefuse _)

end Action

end Client

end ContentDecryption
