import ContentDecryption.Proofs.Boundary.Samples
import ContentDecryption.Proofs.Channel.Statuses
import ContentDecryption.Proofs.Loopback.Licenses
import ContentDecryption.Scripted.Engine

/-!
# What a caller is told of a status

A call that forwards a request to the service returns the status of the answer, whichever of the
2^32 it is: what a status becomes inside the library has this status as its code. A decrypt call
returns the status that the handler of the server has returned, if the channel takes the request
and the answer comes in time.

Main definitions:

* `Forwarded`: the session calls that tell the status of one request;
* `Replied`: the service has answered a request of a session with a status;
* `Completed`: a decrypt call is let through and answered in time;
* `Attended`: a server waits for it.

Main results:

* `Forwarded.run_call`: a forwarded call returns the status of the answer;
* `decrypt_of_completed`: a completed decrypt call returns the status of the handler;
* `Attended.completed`: a call that a server waits for is completed;
* `statuses_verbatim`: every status passes through the stack as it is.
-/

namespace ContentDecryption

namespace Service.SessionRequest

/-- Whether a request is for extended sessions alone. -/
def isExtended : SessionRequest → Bool
  | setDrmHeader _ | challengeData _ | cancelChallengeData | storeLicenseData _ | selectKeyId _
  | cleanDecryptContext => true
  | _ => false

/-- The status that an answer tells, with the notices that come before it. An answer that is a value
tells none. -/
def reported? : (r : SessionRequest) → r.Answer → Option (Reported Status)
  | update _, reported | remove, reported => some reported
  | load, status | close, status | resetOutputProtection, status | setParameter _ _, status
  | setDrmHeader _, status | cancelChallengeData, status | selectKeyId _, status
  | cleanDecryptContext, status => some { value := status }
  | error, _ | revoke _, _ | challengeData _, _ | storeLicenseData _, _ => none

end Service.SessionRequest

namespace Boundary

open Client Service

/-! ## Forwarded calls -/

/-- A session call that forwards one request, and tells the status of the answer. -/
inductive Forwarded
  | load
  | update (response : Pointer) (length : UInt16)
  | remove
  | close
  | resetOutputProtection
  | setParameter (name value : Pointer)
  | setDrmHeader (header : Pointer) (length : UInt32)
  | cancelChallengeData
  | selectKeyId (keyId : Pointer) (length : UInt8)
  | cleanDecryptContext

namespace Forwarded

/-- The request, if no pointer is at fault. -/
def request : Forwarded → Except Error SessionRequest
  | load => .ok .load
  | update response length => (bytesAt response length.toNat).map .update
  | remove => .ok .remove
  | close => .ok .close
  | resetOutputProtection => .ok .resetOutputProtection
  | setParameter name value => do pure (.setParameter (← textAt name) (← textAt value))
  | setDrmHeader header length => (bytesAt header length.toNat).map .setDrmHeader
  | cancelChallengeData => .ok .cancelChallengeData
  | selectKeyId keyId length => (bytesAt keyId length.toNat).map .selectKeyId
  | cleanDecryptContext => .ok .cleanDecryptContext

/-- The call with a handle. -/
def call {σ : Type} [Service σ] (q : Forwarded) (h : Option HandleRef) : Call σ Status :=
  match q with
  | load => Boundary.load h
  | update response length => Boundary.update h response length
  | remove => Boundary.remove h
  | close => Boundary.close h
  | resetOutputProtection => Boundary.resetOutputProtection h
  | setParameter name value => Boundary.setParameter h name value
  | setDrmHeader header length => Boundary.setDrmHeader h header length
  | cancelChallengeData => Boundary.cancelChallengeData h
  | selectKeyId keyId length => Boundary.selectKeyId h keyId length
  | cleanDecryptContext => Boundary.cleanDecryptContext h

end Forwarded

section

variable {σ : Type} [Service σ]

/-- The service has answered a request of a session with this status. The notices that came before
the answer are taken in, which leaves the world `w'`, and the service does not give up meanwhile. -/
inductive Replied (w : World σ) (i : SessionRef) (r : SessionRequest) (status : Status)
    (w' : World σ) : Prop
  | intro {x : r.Answer} {notices : List Service.Delivery} {result : Except Failure Unit}
      (extended : r.isExtended = true → (w.session i).extended = true)
      (answer : (Service.respond (.session (w.session i).remote r) w.service w.memory).answer =
        some x)
      (told : r.reported? x = some ⟨status, notices⟩)
      (heard : (Action.receiveAll notices).exec (w.answered (.session (w.session i).remote r)) =
        (result, w'))
      (kept : result ≠ .error .aborted)

variable {w w' : World σ} {status : Status}

omit [Service σ] in
/-- A call with a handle goes on with the session behind it. -/
theorem Call.run_status_of_session {h : HandleRef} {f : SessionRef → Action σ Unit}
    (hf : (f (w.handle h).session).exec w = ((Error.ofStatus status).mapError .error, w')) :
    (Call.status (sessionAt (some h) >>= f)).run w = (status, w') := by
  have hsession : (sessionAt (some h) : Action σ SessionRef).exec w =
    (.ok (w.handle h).session, w) := rfl
  exact Call.run_status_of_ofStatus ((Action.exec_bind_of_ok hsession f).trans hf)

omit [Service σ] in
/-- Bytes that a pointer stands for are passed on. -/
theorem Call.run_status_of_bytes {h : HandleRef} {p : Pointer} {length : Nat} {bytes : Bytes}
    (hbytes : bytesAt p length = .ok bytes) {f : SessionRef → Bytes → Action σ Unit}
    (hf : (f (w.handle h).session bytes).exec w =
      ((Error.ofStatus status).mapError .error, w')) :
    (Call.status (do
      let i ← sessionAt (some h)
      let bytes ← Action.ofResult (bytesAt p length)
      f i bytes)).run w = (status, w') := by
  refine Call.run_status_of_session ?_
  rw [hbytes]
  exact hf

namespace Forwarded

variable {q : Forwarded} {r : SessionRequest} {h : HandleRef}

/-- A forwarded call returns the status of the answer. -/
theorem run_call (hrequest : q.request = .ok r)
    (hreplied : Replied w (w.handle h).session r status w') :
    (q.call (some h)).run w = (status, w') := by
  obtain @⟨x, notices, result, hextended, hanswer, htold, hheard, hkept⟩ := hreplied
  have htaken : (Action.receiveAll notices).exec
      (w.answered (.session (w.session (w.handle h).session).remote r)) = (.ok (), w') := by
    cases result with
    | ok _ => exact hheard
    | error f =>
      have haborted : f = .aborted :=
        Action.failsOnly_receiveAll (fun _ => Action.failsOnly_ask _) notices _ f w' hheard
      exact absurd (congrArg Except.error haborted) hkept
  have hask := Action.exec_ask_of_answer hanswer
  cases q with
  | load | close | resetOutputProtection =>
    cases hrequest
    cases htold
    cases htaken
    exact Call.run_status_of_session (Action.exec_ofStatus_of_ok hask)
  | remove =>
    cases hrequest
    cases htold
    exact Call.run_status_of_session (Action.exec_reported hask htaken)
  | update response length =>
    obtain ⟨bytes, hbytes, rfl⟩ := exists_bytes_of_map hrequest
    cases htold
    exact Call.run_status_of_bytes hbytes (Action.exec_reported hask htaken)
  | setParameter name value =>
    cases hname : textAt name <;> rw [request, hname] at hrequest
    · cases hrequest
    cases hvalue : textAt value <;> rw [hvalue] at hrequest <;> cases hrequest
    cases htold
    cases htaken
    refine Call.run_status_of_session ?_
    rw [hname, hvalue]
    exact Action.exec_ofStatus_of_ok hask
  | setDrmHeader header length =>
    obtain ⟨bytes, hbytes, rfl⟩ := exists_bytes_of_map hrequest
    cases htold
    cases htaken
    exact Call.run_status_of_bytes hbytes
      (Action.exec_ofStatus_of_ok (Action.exec_askExtended_of_answer (hextended rfl) hanswer))
  | cancelChallengeData | cleanDecryptContext =>
    cases hrequest
    cases htold
    cases htaken
    exact Call.run_status_of_session
      (Action.exec_ofStatus_of_ok (Action.exec_askExtended_of_answer (hextended rfl) hanswer))
  | selectKeyId keyId length =>
    obtain ⟨bytes, hbytes, rfl⟩ := exists_bytes_of_map hrequest
    cases htold
    cases htaken
    exact Call.run_status_of_bytes hbytes
      (Action.exec_ofStatus_of_ok (Action.exec_askExtended_of_answer (hextended rfl) hanswer))

end Forwarded

end

/-! ## Decrypt calls -/

/-- The request of a decrypt call, if no pointer is at fault. -/
def decryptRequest (data : Pointer) (length : UInt32) (x : SampleWords) (initWithLast15 : UInt32) :
    Except Error Channel.Request := do
  pure ⟨← bytesAt data length.toNat, ← x.toInfo?, initWithLast15 != 0, none⟩

section

variable {σ : Type} [Service σ] {w : World σ} {i : SessionRef} {a : Channel.Attachment}
  {r : Channel.Request} {server : Channel.Server} {handler : Channel.Handler}

/-- What comes of a sample at an attached channel. -/
def exchanged (w : World σ) (a : Channel.Attachment) (r : Channel.Request) :
    Channel.Attachment.Outcome :=
  (a.decrypt false r (Service.decryptor? w.service a.object) w.memory).1

/-- A decrypt call of a session is completed: the channel takes its request, and the answer comes in
time. -/
structure Completed (w : World σ) (i : SessionRef) (a : Channel.Attachment) (r : Channel.Request) :
    Prop where
  /-- An empty sample needs no channel. -/
  sample : r.data ≠ []
  attached : ((Action.attachment i).exec w).1 = .ok a
  /-- The channel that the session has been attached to by an earlier call is still there. -/
  room : (w.session i).attachment = some a → Channel.dataOffset ≤ (w.memory.object a.object).size
  taken : ∃ header, a.headerFor false r = .ok header
  inTime : (exchanged w a r).result ≠ .error .timeout

/-- A server waits at the channel that takes the request of a decrypt call. Nobody else is there, and
there is time. -/
structure Attended (w : World σ) (i : SessionRef) (a : Channel.Attachment) (r : Channel.Request)
    (server : Channel.Server) (handler : Channel.Handler) : Prop where
  sample : r.data ≠ []
  attached : ((Action.attachment i).exec w).1 = .ok a
  taken : ∃ header, a.headerFor false r = .ok header
  serving : Service.decryptor? w.service a.object = some (server, handler)
  object : server.object = a.object
  ready : Channel.Ready server.capacity (w.memory.object a.object)
  capacity : a.capacity ≤ server.capacity
  time : a.timeoutMs ≠ 0

namespace Completed

theorem exec_attachment (h : Completed w i a r) :
    (Action.attachment i).exec w = (.ok a, ((Action.attachment i).exec w).2) :=
  Prod.ext h.attached rfl

/-- What comes of a completed call is the status that the decryptor of its channel has returned. -/
theorem exists_handler (h : Completed w i a r) :
    ∃ server handler d, Service.decryptor? w.service a.object = some (server, handler) ∧
      (exchanged w a r).seen = some d ∧
      (exchanged w a r).result = Error.ofStatus (handler d).1 := by
  obtain ⟨header, hheader⟩ := h.taken
  have hroom : Channel.dataOffset ≤ (w.memory.object a.object).size := by
    obtain ⟨-, -, hbefore | ⟨_, _, hattach⟩⟩ := Action.attachment_cases h.exec_attachment
    · exact h.room hbefore
    · exact (Channel.Attachment.attach_cases hattach).2.1
  exact Channel.Attachment.decrypt_answered hheader hroom h.inTime

theorem exec_decrypt (h : Completed w i a r) :
    ((Action.decrypt i r).exec w).1 =
      .ok ((exchanged w a r).result.mapError .error, (exchanged w a r).data) := by
  obtain ⟨hservice, hmemory, -⟩ := Action.attachment_cases h.exec_attachment
  rw [Action.exec_decrypt_of_attached h.sample h.exec_attachment, exchanged, hservice, hmemory]

end Completed

namespace Attended

/-- The handler is given the request of the call. -/
theorem exchanged_eq (h : Attended w i a r server handler) :
    exchanged w a r = ⟨Error.ofStatus (handler r.delivery).1,
      Channel.ServerRun.left handler r.delivery, some r.delivery⟩ := by
  obtain ⟨header, hheader⟩ := h.taken
  rw [exchanged, h.serving, Channel.Attachment.decrypt]
  dsimp only
  rw [if_pos h.object]
  exact Channel.Attachment.decryptOn_of_header h.ready h.capacity h.time hheader

theorem completed (h : Attended w i a r server handler) : Completed w i a r where
  sample := h.sample
  attached := h.attached
  room := fun _ => by
    rw [h.ready.size, Channel.objectSize]
    exact Nat.le_add_right _ _
  taken := h.taken
  inTime := by
    rw [h.exchanged_eq]
    exact Channel.ofStatus_ne_timeout _

end Attended

/-- A caller is told the status that a result stands for. -/
theorem status_answerOf (data : Pointer) (result : Except Error Unit) (sample : Bytes) :
    (answerOf data (.ok (result.mapError .error, sample))).1 = Error.statusOf result := by
  cases result <;> rfl

/-- A decrypt call with a handle comes to the decryption of its request. -/
theorem decrypt_of_request {h : HandleRef} {data : Pointer} {length : UInt32} {x : SampleWords}
    {initWithLast15 : UInt32} (hrequest : decryptRequest data length x initWithLast15 = .ok r) :
    (decrypt (some h) data length x initWithLast15 w).1 =
      answerOf data ((Action.decrypt (w.handle h).session r).exec w).1 := by
  rcases bytesAt_cases data length.toNat with hdata | ⟨sample, hdata⟩ <;>
    rw [decryptRequest, hdata] at hrequest
  · cases hrequest
  cases hinfo : x.toInfo? <;> rw [hinfo] at hrequest <;> cases hrequest
  rw [decrypt, hinfo]
  exact decryptAt_of_ok w h _ _ hdata _

/-- A completed decrypt call returns the status that the handler has returned. -/
theorem decrypt_of_completed {h : HandleRef} {data : Pointer} {length : UInt32} {x : SampleWords}
    {initWithLast15 : UInt32} (hrequest : decryptRequest data length x initWithLast15 = .ok r)
    (hcompleted : Completed w (w.handle h).session a r) :
    ∃ server handler d, Service.decryptor? w.service a.object = some (server, handler) ∧
      (exchanged w a r).seen = some d ∧
      (decrypt (some h) data length x initWithLast15 w).1.1 = (handler d).1 := by
  obtain ⟨server, handler, d, hdecryptor, hseen, hresult⟩ := hcompleted.exists_handler
  refine ⟨server, handler, d, hdecryptor, hseen, ?_⟩
  rw [decrypt_of_request hrequest, hcompleted.exec_decrypt, status_answerOf, hresult,
    Error.statusOf_ofStatus]

end

/-- The loopback engine waits at the channel of a session that somebody holds. -/
theorem attended_of_reached {w : World Loopback.Engine} (h : Loopback.Reached w) {i : SessionRef}
    (hlive : w.isLive i = true)
    (htime : (Loopback.settingsOf w (w.session i)).decryptTimeoutMs ≠ 0) {r : Channel.Request}
    (hdata : r.data ≠ []) (hr : Channel.Header.Describable r)
    (hroom : r.data.length + (Loopback.settingsOf w (w.session i)).reservedTokenSize ≤
      Loopback.channelCapacity) : ∃ a server handler, Attended w i a r server handler := by
  obtain ⟨s, hs, hheld⟩ := (Option.any_eq_true _ _).1 hlive
  rw [World.session_of_getElem? hs] at htime hroom
  have hfit := Loopback.fit_of_reached h
  obtain ⟨a, x, w', hattached, hmeets, hheld, -⟩ :=
    hfit.exec_attachment hs (of_decide_eq_true hheld)
  have hcapacity : x.server.capacity = Loopback.channelCapacity :=
    hfit.1.sound.capacity hmeets.serving
  refine ⟨a, x.server, Loopback.decryptSample x.keys, hdata, by rw [hattached], ?_, ?_,
    hmeets.object.symm, ?_, ?_, by rw [hmeets.timeoutMs]; exact htime⟩
  · rcases a.headerFor_cases false r with ⟨hlarge, -⟩ | ⟨-, hnot, -⟩ | ⟨-, -, hok⟩
    · rw [hmeets.capacity, hmeets.reserved] at hlarge
      exact absurd hroom (Nat.not_le.2 hlarge)
    · exact absurd hr hnot
    · exact ⟨_, hok⟩
  · rw [hmeets.object]
    exact hfit.1.sound.decryptor_eq hmeets.serving hheld
  · rw [hmeets.object, hcapacity]
    exact hmeets.ready
  · exact Nat.le_of_eq (hmeets.capacity.trans hcapacity.symm)

/-! ## All together -/

/-- **Statuses pass through the stack as they are.**

* What a status becomes inside the library has this status as its code, no two statuses become the
  same, zero alone is a success, and none becomes a deadline that has passed.
* In every run of any calls and servers at a channel, with whatever locks, a call that is answered
  and over amounts to the status that a handler run has returned. Under one lock that is the one
  run that its own request was given to.
* In every world, a completed decrypt call returns the status that the handler of the server at its
  channel has returned. Where a server waits at a channel that is at rest, and there is time, the
  call is completed, and the handler is given its request.
* In every world, a forwarded call returns the status that the service has answered with. -/
theorem statuses_verbatim {σ : Type} [Service σ] :
    ((∀ s : Status, Error.statusOf (Error.ofStatus s) = s) ∧ Function.Injective Error.ofStatus ∧
      (∀ s : Status, Error.ofStatus s = .ok () ↔ s = 0) ∧
      ∀ s : Status, Error.ofStatus s ≠ .error .timeout) ∧
    (∀ (capacity : Nat) (acts : List Channel.Act) (i : Nat) (c : Channel.Caller)
        (result : Except Error Unit),
      (Channel.Traffic.run capacity acts).callers[i]? = some c → c.answered = true →
      c.call.result? = some result →
      ∃ x, (Channel.Traffic.run capacity acts).service? x.worker = some x ∧
        Error.statusOf result = x.status ∧
        ∀ lock, (Channel.Traffic.run capacity acts).SharesLock lock →
          (Channel.Traffic.run capacity acts).services c = [x]) ∧
    (∀ (w : World σ) (h : HandleRef) (data : Pointer) (length : UInt32) (x : SampleWords)
        (initWithLast15 : UInt32) (r : Channel.Request) (a : Channel.Attachment),
      decryptRequest data length x initWithLast15 = .ok r →
      (Completed w (w.handle h).session a r →
        ∃ server handler d, Service.decryptor? w.service a.object = some (server, handler) ∧
          (exchanged w a r).seen = some d ∧
          (decrypt (some h) data length x initWithLast15 w).1.1 = (handler d).1) ∧
      ∀ server handler, Attended w (w.handle h).session a r server handler →
        Completed w (w.handle h).session a r ∧ (exchanged w a r).seen = some r.delivery) ∧
    ∀ (w w' : World σ) (h : HandleRef) (q : Forwarded) (r : SessionRequest) (status : Status),
      q.request = .ok r → Replied w (w.handle h).session r status w' →
      (q.call (some h)).run w = (status, w') := by
  refine ⟨⟨Error.statusOf_ofStatus, Error.ofStatus_injective, fun _ => Error.ofStatus_eq_ok_iff,
    Channel.ofStatus_ne_timeout⟩, ?_, ?_, ?_⟩
  · intro capacity acts i c result hc hanswered hresult
    obtain ⟨x, hx, rfl, hlocked⟩ :=
      Channel.Traffic.exists_service_of_answered hc hanswered hresult
    exact ⟨x, hx, Error.statusOf_ofStatus x.status, hlocked⟩
  · intro w h data length x initWithLast15 r a hrequest
    refine ⟨decrypt_of_completed hrequest, fun server handler hattended => ?_⟩
    exact ⟨hattended.completed, by rw [hattended.exchanged_eq]⟩
  · intro w w' h q r status hrequest hreplied
    exact Forwarded.run_call hrequest hreplied

/-- A client with a handle of an extended session, of a service that answers two of its requests
with this status. -/
def refusing (status : Status) : World Scripted.Engine where
  service :=
    { script :=
      { sessionId := fun _ => "s"
        bufferId := fun _ => "b"
        statuses := [("update", status), ("select_key_id", status)] } }
  sessions := [{ extended := true }]
  handles := [{}]

/-- All of it at once: a status without a cause of its own comes back from an extended session; so
does the answer to a license, with the notices that come before it; the engine has no key for a
sample; and a second call at a channel is answered after the first has given up. -/
theorem statuses_verbatim_unassigned :
    ((Forwarded.selectKeyId (some [1]) 1).call (some 0)).run (refusing 0xdeadbeef) =
        (0xdeadbeef, (refusing 0xdeadbeef).answered (.session 0 (.selectKeyId [1]))) ∧
      (∃ w', ((Forwarded.update (some (License.encode [([2], [7])])) 8).call (some 0)).run handled =
        (Status.none, w')) ∧
      (∃ (a : Channel.Attachment) (server : Channel.Server) (handler : Channel.Handler),
        Service.decryptor? handled.service a.object = some (server, handler) ∧
        (decrypt (some 0) (some [9, 9]) 2 (recordFor 1 [2]).toWords 0 handled).1.1 =
          (handler ⟨{ scheme := .aesCtrCenc, keyId := [2] }, false, none, [9, 9]⟩).1 ∧
        (handler ⟨{ scheme := .aesCtrCenc, keyId := [2] }, false, none, [9, 9]⟩).1 =
          Status.serverInternalError) ∧
      ∃ c x result, (Channel.Traffic.run 8 Channel.Traffic.lateAnswer).callers[1]? = some c ∧
        c.call.result? = some result ∧ Error.statusOf result = x.status ∧
        (Channel.Traffic.run 8 Channel.Traffic.lateAnswer).services c = [x] := by
  refine ⟨?_, ?_, ?_, ?_⟩
  · exact statuses_verbatim.2.2.2 (refusing 0xdeadbeef) _ 0 (.selectKeyId (some [1]) 1) _ _ rfl
      ⟨fun _ => rfl, rfl, rfl, rfl, nofun⟩
  · let license := License.encode [([2], [7])]
    have hvalue : (Service.respond (.session (handled.session (handled.handle 0).session).remote
        (.update license)) handled.service handled.memory).answer.map Reported.value =
          some Status.none := by decide +kernel
    obtain ⟨reported, hanswer, hstatus⟩ := Option.map_eq_some_iff.1 hvalue
    obtain ⟨_, w', hheard⟩ := Loopback.succeeds_receiveAll reported.notices (handled.answered
      (.session (handled.session (handled.handle 0).session).remote (.update license)))
    have hreplied : Replied handled (handled.handle 0).session (.update license) Status.none w' :=
      ⟨nofun, hanswer, by rw [← hstatus]; rfl, hheard, nofun⟩
    exact ⟨w', statuses_verbatim.2.2.2 handled w' 0 (.update (some license) 8) _ _ rfl hreplied⟩
  · let r : Channel.Request := ⟨[9, 9], some { scheme := .aesCtrCenc, keyId := [2] }, false, none⟩
    have hr : Channel.Header.Describable r := by
      refine ⟨by decide, ?_⟩
      rintro _ ⟨⟩
      decide
    obtain ⟨a, server, handler, hattended⟩ := attended_of_reached reached_handled
      (i := (handled.handle 0).session) (by decide +kernel) (by decide +kernel) (by decide) hr
      (by decide +kernel)
    obtain ⟨hstatus, hattends⟩ := statuses_verbatim.2.2.1 handled 0 (some [9, 9]) 2
      (recordFor 1 [2]).toWords 0 r a rfl
    obtain ⟨hcompleted, hgiven⟩ := hattends server handler hattended
    obtain ⟨server', handler', d, hserver, hseen, hstatus⟩ := hstatus hcompleted
    cases hattended.serving.symm.trans hserver
    cases hgiven.symm.trans hseen
    refine ⟨a, server, handler, hserver, hstatus, hstatus.symm.trans ?_⟩
    decide +kernel
  · have hsecond : ((Channel.Traffic.run 8 Channel.Traffic.lateAnswer).callers[1]?).map
        (fun c => (c.answered, c.call.result?.isSome)) = some (true, true) := by decide +kernel
    obtain ⟨c, hc, hpair⟩ := Option.map_eq_some_iff.1 hsecond
    obtain ⟨hanswered, hover⟩ := Prod.mk.inj hpair
    obtain ⟨result, hresult⟩ := Option.isSome_iff_exists.1 hover
    obtain ⟨x, -, hstatus, hlocked⟩ := (statuses_verbatim (σ := Scripted.Engine)).2.1 8
      Channel.Traffic.lateAnswer 1 c result hc hanswered hresult
    exact ⟨c, x, result, hc, hresult, hstatus, hlocked "lock" Channel.Traffic.sharesLock_lateAnswer⟩

end Boundary

end ContentDecryption
