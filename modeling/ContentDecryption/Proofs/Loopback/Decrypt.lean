import ContentDecryption.Proofs.Channel.Schedules
import ContentDecryption.Proofs.Loopback.Reach
import ContentDecryption.Proofs.Loopback.Regions

/-!
# Decrypting a sample with the loopback engine

What comes of a decrypt call, from the call of the application to the bytes in its
buffer: the ways in which a call is refused, in the order in which they count, and
which bytes are decrypted with which key. It does not depend on what happened in the
session before, except for the keys that the session has.

Main definitions:

* `DecryptsTo`: the result of a decrypt call and the buffer after it;
* `Scheduled`: a decrypt call of a session, and everything that happens at its channel;
* `NeedsNoKey`: a sample that is clear, with or without a description.

Main results:

* `decrypt_of_reached`: a decrypt call that is answered in time comes to just that;
* `exec_decrypt_of_inTime`: so it does under any schedule in which it is answered in time;
* `decrypt_of_needsNoKey`: what a call comes to that needs no key, in time or not.
-/

namespace ContentDecryption

namespace Loopback

open Client

/-- Whether a description has no room in the header of a request. -/
def IsWide (i : SampleInfo) : Prop :=
  Channel.maxIvLength < i.iv.length ∨ Channel.maxKeyIdLength < i.keyId.length ∨
    Channel.maxSubsamples < i.subsamples.length

instance (i : SampleInfo) : Decidable (IsWide i) := by unfold IsWide; infer_instance

/-- The first of the keys that goes by this key ID, in either byte order. -/
def firstKey? (keys : List (KeyId × Bytes)) (id : KeyId) : Option (KeyId × Bytes) :=
  keys.find? fun k => KeyId.agrees k.1 id

/-- The result of a decrypt call of a session with these keys, and the buffer after it. A key is
applied to the runs in front of the first one that ends past the sample. -/
def DecryptsTo (keys : List (KeyId × Bytes)) (reserved : Nat) (r : Channel.Request)
    (result : Except Error Unit) (after : Bytes) : Prop :=
  if r.data = [] then result = .ok () ∧ after = r.data
  else if channelCapacity < r.data.length + reserved then
    result = .error .bufferTooSmall ∧ after = r.data
  else
    match r.info with
    | none => result = .ok () ∧ after = r.data
    | some i =>
      if IsWide i then result = .error .invalidArg ∧ after = r.data
      else if i.scheme = .clear then result = .ok () ∧ after = r.data
      else
        match firstKey? keys i.keyId with
        | none => result = .error .serverInternalError ∧ after = r.data
        | some k =>
          k.2 ≠ [] ∧
            Applied k.2 0 (decryptedPositions r.data.length i.subsamples) r.data after ∧
            result = if SubSample.totalLength i.subsamples ≤ r.data.length then .ok ()
              else .error .invalidDecryptBuffer

/-! ## What the engine makes of a request -/

theorem left_decryptSample (keys : List (KeyId × Bytes)) (d : Channel.Delivery) :
    Channel.ServerRun.left (decryptSample keys) d = (decryptSample keys d).2 := by
  have hlength := length_decryptSample keys d
  unfold Channel.ServerRun.left Bytes.overwrite
  rw [List.take_zero, List.nil_append, Nat.sub_zero, List.take_of_length_le (Nat.le_of_eq hlength),
    Nat.zero_add, List.drop_of_length_le (Nat.le_of_eq hlength.symm), List.append_nil]

/-- With a description that is not clear, the first key that goes by its key ID decides. -/
theorem findKey?_eq (keys : List (KeyId × Bytes)) (id : KeyId) :
    findKey? keys id = (firstKey? keys id).map Prod.snd := rfl

theorem not_isWide_iff {i : SampleInfo} : ¬ IsWide i ↔ Channel.Header.fits i = true := by
  rw [IsWide, Channel.Header.fits_eq_true_iff]
  omega

theorem exists_isWide_of_not_describable {r : Channel.Request}
    (hlength : r.data.length < 4294967296) (h : ¬ Channel.Header.Describable r) :
    ∃ i, r.info = some i ∧ IsWide i := by
  obtain ⟨i, hi, hfits⟩ := Channel.Header.exists_fits_eq_false hlength h
  exact ⟨i, hi, Channel.Header.fits_eq_false_iff.1 hfits⟩

/-- A request that the channel has room for comes to what the keys make of it. -/
theorem decryptsTo_decryptSample {x : Session} (hkeyed : x.Keyed) {reserved : Nat}
    {r : Channel.Request} (hdata : r.data ≠ [])
    (hroom : ¬ channelCapacity < r.data.length + reserved) (hr : Channel.Header.Describable r) :
    DecryptsTo x.keys reserved r (Error.ofStatus (decryptSample x.keys r.delivery).1)
      (decryptSample x.keys r.delivery).2 := by
  rw [DecryptsTo, if_neg hdata, if_neg hroom]
  cases hi : r.info with
  | none =>
    have hclear : decryptSample x.keys r.delivery = (Status.none, r.data) :=
      if_pos (by rw [Channel.Request.delivery, hi]; rfl)
    rw [hclear]
    exact ⟨rfl, rfl⟩
  | some i =>
    have hinfo : r.delivery.info = i := by
      rw [Channel.Request.delivery, hi]
      rfl
    have hfits : ¬ IsWide i := not_isWide_iff.2 (hr.2 i hi)
    dsimp only
    rw [if_neg hfits]
    by_cases hscheme : i.scheme = .clear
    · have hclear : decryptSample x.keys r.delivery = (Status.none, r.data) :=
        if_pos (by rw [hinfo]; exact hscheme)
      rw [if_pos hscheme, hclear]
      exact ⟨rfl, rfl⟩
    · rw [if_neg hscheme]
      cases hk : firstKey? x.keys i.keyId with
      | none =>
        have hmissing : decryptSample x.keys r.delivery =
            (Status.serverInternalError, r.data) := by
          rw [decryptSample, hinfo, if_neg hscheme, findKey?_eq, hk]
          rfl
        rw [hmissing]
        exact ⟨rfl, rfl⟩
      | some k =>
        have hfound : findKey? x.keys r.delivery.info.keyId = some k.2 := by
          rw [hinfo, findKey?_eq, hk]
          rfl
        obtain ⟨happlied, hstatus⟩ :=
          applied_decryptSample (by rw [hinfo]; exact hscheme) hfound
        rw [hinfo] at happlied hstatus
        refine ⟨hkeyed k (List.mem_of_find?_eq_some hk), happlied, ?_⟩
        rw [hstatus]
        show Error.ofStatus
          (if SubSample.totalLength i.subsamples ≤ r.data.length then _ else _) = _
        split
        · rfl
        · rfl

/-! ## What comes of a call -/

theorem decryptsTo_callOn {w : World Engine} {s : Client.Session} {a : Channel.Attachment}
    {x : Session} (h : Meets w s a x) (htime : (settingsOf w s).decryptTimeoutMs ≠ 0)
    {r : Channel.Request} (hdata : r.data ≠ []) :
    DecryptsTo x.keys (settingsOf w s).reservedTokenSize r (callOn w a x r).1.result
      (callOn w a x r).1.data := by
  have hcapacity := h.capacity
  have hreserved := h.reserved
  rw [← hreserved]
  rcases a.headerFor_cases false r with ⟨hlarge, he⟩ | ⟨hroom, hr, he⟩ | ⟨hroom, hr, hok⟩
  · rw [hcapacity] at hlarge
    rw [DecryptsTo, if_neg hdata, if_pos hlarge, callOn,
      Channel.Attachment.decryptOn_of_error h.ready he]
    exact ⟨rfl, rfl⟩
  · rw [hcapacity] at hroom
    have hlength : r.data.length < 4294967296 := by
      rw [channelCapacity] at hroom
      omega
    obtain ⟨i, hi, hwide⟩ := exists_isWide_of_not_describable hlength hr
    rw [DecryptsTo, if_neg hdata, if_neg (Nat.not_lt.2 hroom), hi]
    dsimp only
    rw [if_pos hwide, callOn, Channel.Attachment.decryptOn_of_error h.ready he]
    exact ⟨rfl, rfl⟩
  · have hcall : (callOn w a x r).1 = ⟨Error.ofStatus (decryptSample x.keys r.delivery).1,
        Channel.ServerRun.left (decryptSample x.keys) r.delivery, some r.delivery⟩ :=
      Channel.Attachment.decryptOn_of_header h.ready (Nat.le_of_eq hcapacity)
        (by rw [h.timeoutMs]; exact htime) hok
    rw [hcapacity] at hroom
    rw [hcall, left_decryptSample]
    exact decryptsTo_decryptSample h.keyed hdata (Nat.not_lt.2 hroom) hr

/-- A decrypt call of a session that somebody holds, and that is answered in time, comes to just
what the keys of the session make of the sample. -/
theorem decrypt_of_reached {w : World Engine} (h : Reached w) {i : SessionRef} {s : Client.Session}
    (hs : w.sessions[i]? = some s) (hlive : 0 < s.handles)
    (htime : (settingsOf w s).decryptTimeoutMs ≠ 0) (r : Channel.Request) :
    ∃ x result after w', w.service.sessions[s.remote]? = some x ∧
      (Action.decrypt i r).exec w = (.ok (result.mapError .error, after), w') ∧
      DecryptsTo x.keys (settingsOf w s).reservedTokenSize r result after := by
  have hfit := fit_of_reached h
  by_cases hdata : r.data = []
  · obtain ⟨x, hx, -⟩ := hfit.1.bound hs
    refine ⟨x, .ok (), r.data, w, hx, ?_, ?_⟩
    · unfold Action.decrypt
      rw [if_pos (by rw [hdata]; rfl)]
      rfl
    · rw [DecryptsTo, if_pos hdata]
      exact ⟨rfl, rfl⟩
  · obtain ⟨a, x, w', hmeets, -, hend⟩ := hfit.exec_decrypt hs hlive hdata
    exact ⟨x, _, _, w', hmeets.serving, hend, decryptsTo_callOn hmeets htime hdata⟩

/-- A client with one session that has one key, of two bytes. -/
def licensed : World Engine :=
  [Call.connect { connector := "" }, .createSystem 0 "clear",
    .createSession 0 0 "" [] [] .nobody,
    .update 0 (License.encode [([1], [5, 6])])].foldl Call.after
      { service := { keySystems := ["clear"] } }

/-- A sample of five bytes that ends in its second run. -/
def truncated : Channel.Request where
  data := [0, 0, 0, 0, 0]
  info := some { scheme := .aesCtrCenc, keyId := [1], subsamples := [⟨1, 2⟩, ⟨0, 9⟩] }

/-- Of a sample that ends too early, the runs before its end are decrypted. -/
theorem decrypt_truncated : ∃ after w', (Action.decrypt 0 truncated).exec licensed =
      (.ok (.error (.error .invalidDecryptBuffer), after), w') ∧
    Applied [5, 6] 0 [1, 2] [0, 0, 0, 0, 0] after := by
  have hreached : Reached licensed :=
    .call (.update 0 _) (.call (.createSession ..) (.call (.createSystem ..)
      (.call (.connect _) (.start _ {} [] rfl) trivial) trivial) trivial) trivial
  have hsome : 0 < licensed.sessions.length := by decide +kernel
  have hs : licensed.sessions[0]? = some (licensed.session 0) := by
    rw [World.session, List.getD_eq_getElem _ _ hsome, List.getElem?_eq_getElem hsome]
  obtain ⟨x, result, after, w', hx, hend, hto⟩ :=
    decrypt_of_reached hreached hs (by decide +kernel) (by decide +kernel) truncated
  have hkeys : x.keys = [([1], [5, 6])] := by
    have h : (licensed.service.sessions[(licensed.session 0).remote]?).map Session.keys =
        some [([1], [5, 6])] := by decide +kernel
    rw [hx] at h
    exact Option.some.inj h
  have hreserved : (settingsOf licensed (licensed.session 0)).reservedTokenSize = 16 := by
    decide +kernel
  rw [hkeys, hreserved, DecryptsTo, if_neg (by decide), if_neg (by decide)] at hto
  obtain ⟨-, happlied, hresult⟩ := hto
  refine ⟨after, w', ?_, happlied⟩
  rw [hend, hresult]
  rfl

/-! ## Any schedule -/

/-- A decrypt call of a session as one of the calls at its channel. The channel is as the call finds
it. Other calls under the lock of the session can come before it, and the session of the engine can
wait for requests any number of times; the acts of all of them are in any order, and deadlines pass
anywhere. -/
structure Scheduled (w : World Engine) (a : Channel.Attachment) (x : Session)
    (r : Channel.Request) (y : Channel.Attempt) (later : List Channel.Act) : Prop where
  object : y.object = w.memory.object x.server.object
  client : y.client = a
  poisoned : y.poisoned = false
  request : y.request = r
  lock : (y.after later).SharesLock a.lock
  served : ∀ v ∈ (y.after later).workers, v.handler = decryptSample x.keys

section Scheduled

variable {w : World Engine} {s : Client.Session} {a : Channel.Attachment} {x : Session}
  {r : Channel.Request} {y : Channel.Attempt} {later : List Channel.Act} {c : Channel.Caller}
  {result : Except Error Unit}

/-- The call that meets one wait of the session of the engine is such a call, whatever their turns
are. -/
theorem exists_scheduled (h : Meets w s a x) (r : Channel.Request) (turns : List Channel.Turn) :
    ∃ y later c, Scheduled w a x r y later ∧ y.caller? later = some c ∧
      c.call = (Channel.Meeting.run (decryptSample x.keys)
        ⟨a.start false r, some { capacity := channelCapacity }, w.memory.object x.server.object⟩
          turns).call := by
  obtain ⟨y, hobject, hclient, hpoisoned, hrequest, hmirrors⟩ := Channel.Attempt.exists_mirrors
    h.ready (h.capacity.trans (h.ready.capacityOf_eq (by decide)).symm) false r
    (decryptSample x.keys)
  obtain ⟨-, ⟨d, hcallers, hcall⟩, v, hworkers, hhandler, -⟩ := hmirrors turns
  obtain ⟨c, hc, hcclient, -⟩ := Channel.Attempt.exists_caller? (x := y)
    (.serve (decryptSample x.keys) :: turns.map Channel.Turn.act)
  obtain rfl : c = d := by
    have hmem := List.mem_of_getElem? hc
    rw [hcallers] at hmem
    exact List.mem_singleton.1 hmem
  refine ⟨y, _, c, ⟨hobject, hclient, hpoisoned, hrequest, fun e he => ?_, fun u hu => ?_⟩, hc,
    hcall⟩
  · rw [hcallers] at he
    rw [List.mem_singleton.1 he, hcclient, hclient]
  · rw [hworkers] at hu
    rw [List.mem_singleton.1 hu, hhandler]

theorem callOn_of_inTime (h : Meets w s a x) (htime : (settingsOf w s).decryptTimeoutMs ≠ 0)
    (hy : Scheduled w a x r y later) (hc : y.caller? later = some c)
    (hresult : c.call.result? = some result) (hin : result ≠ .error .timeout) :
    (callOn w a x r).1.result = result ∧ (callOn w a x r).1.data = c.call.data := by
  obtain ⟨hobject, hclient, hpoisoned, hrequest, hlock, hserved⟩ := hy
  have hready := h.ready
  rw [← hobject] at hready
  have hsame := Channel.Attempt.decryptOn_of_inTime hready hlock hserved hc hresult hin
    (by rw [hclient, h.timeoutMs]; exact htime) h.ready
  rw [hclient, hpoisoned, hrequest] at hsame
  exact hsame

/-- What a call comes to under any schedule in which it is answered in time is what the keys of the
session make of the sample. -/
theorem decryptsTo_of_inTime (h : Meets w s a x) (htime : (settingsOf w s).decryptTimeoutMs ≠ 0)
    (hdata : r.data ≠ []) (hy : Scheduled w a x r y later) (hc : y.caller? later = some c)
    (hresult : c.call.result? = some result) (hin : result ≠ .error .timeout) :
    DecryptsTo x.keys (settingsOf w s).reservedTokenSize r result c.call.data := by
  obtain ⟨hsame, hafter⟩ := callOn_of_inTime h htime hy hc hresult hin
  rw [← hsame, ← hafter]
  exact decryptsTo_callOn h htime hdata

/-- **A decrypt call does not depend on its schedule.** Whatever the order is in which the call, the
session of the engine and the calls before it take their steps: if the call is over and not out of
time, it has the result and the buffer that `Action.decrypt` has. -/
theorem exec_decrypt_of_inTime (h : Reached w) {i : SessionRef} (hs : w.sessions[i]? = some s)
    (hlive : 0 < s.handles) (htime : (settingsOf w s).decryptTimeoutMs ≠ 0) (hdata : r.data ≠ []) :
    ∃ a x, Meets w s a x ∧ ∀ {y later c result}, Scheduled w a x r y later →
      y.caller? later = some c → c.call.result? = some result → result ≠ .error .timeout →
        ((Action.decrypt i r).exec w).1 = .ok (result.mapError .error, c.call.data) := by
  obtain ⟨a, x, w', hmeets, -, hend⟩ := (fit_of_reached h).exec_decrypt hs hlive hdata
  refine ⟨a, x, hmeets, fun {y later c result} hy hc hresult hin => ?_⟩
  obtain ⟨hsame, hafter⟩ := callOn_of_inTime hmeets htime hy hc hresult hin
  rw [hend, hsame, hafter]

end Scheduled

/-! ## Samples that need no key -/

/-- A sample without a description, or with a clear one that has room in a header. -/
def NeedsNoKey (r : Channel.Request) : Prop :=
  ∀ i, r.info = some i → i.scheme = .clear ∧ ¬ IsWide i

/-- The result of a decrypt call with `n` bytes that need no key. -/
def clearResult (settings : Settings) (n : Nat) : Except Error Unit :=
  if n = 0 then .ok ()
  else if channelCapacity < n + settings.reservedTokenSize then .error .bufferTooSmall
  else if settings.decryptTimeoutMs = 0 then .error .timeout
  else .ok ()

theorem NeedsNoKey.decryptSample {r : Channel.Request} (h : NeedsNoKey r)
    (keys : List (KeyId × Bytes)) : decryptSample keys r.delivery = (Status.none, r.data) := by
  refine if_pos ?_
  rw [Channel.Request.delivery]
  cases hi : r.info with
  | none => rfl
  | some i => exact (h i hi).1

/-- Whatever its description, a sample that needs no key is handed back as it is. -/
theorem callOn_of_needsNoKey {w : World Engine} {s : Client.Session} {a : Channel.Attachment}
    {x : Session} (h : Meets w s a x) {r : Channel.Request} (hclear : NeedsNoKey r)
    (hdata : r.data ≠ []) :
    (callOn w a x r).1.result = clearResult (settingsOf w s) r.data.length ∧
      (callOn w a x r).1.data = r.data := by
  have hsome : r.data.length ≠ 0 := fun h0 => hdata (List.length_eq_zero_iff.1 h0)
  rw [clearResult, if_neg hsome, ← h.reserved, ← h.timeoutMs]
  rcases a.headerFor_cases false r with ⟨hlarge, he⟩ | ⟨hroom, hr, he⟩ | ⟨hroom, hr, hok⟩
  · rw [h.capacity] at hlarge
    rw [if_pos hlarge, callOn, Channel.Attachment.decryptOn_of_error h.ready he]
    exact ⟨rfl, rfl⟩
  · rw [h.capacity] at hroom
    have hlength : r.data.length < 4294967296 := by
      rw [channelCapacity] at hroom
      omega
    obtain ⟨i, hi, hwide⟩ := exists_isWide_of_not_describable hlength hr
    exact absurd hwide (hclear i hi).2
  · have hfits : ¬ channelCapacity < r.data.length + a.reserved := by
      rw [← h.capacity]
      exact Nat.not_lt.2 hroom
    rw [if_neg hfits, callOn]
    by_cases htime : a.timeoutMs = 0
    · rw [if_pos htime, Channel.Attachment.decryptOn_of_expired h.ready (Nat.le_of_eq h.capacity)
        htime hok]
      exact ⟨rfl, rfl⟩
    · rw [if_neg htime, Channel.Attachment.decryptOn_of_header h.ready (Nat.le_of_eq h.capacity)
        htime hok, left_decryptSample, hclear.decryptSample]
      exact ⟨rfl, rfl⟩

/-- A sample that needs no key comes back as it is, in time or not. -/
theorem decrypt_of_needsNoKey {w : World Engine} (h : Reached w) {i : SessionRef}
    {s : Client.Session} (hs : w.sessions[i]? = some s) (hlive : 0 < s.handles)
    {r : Channel.Request} (hclear : NeedsNoKey r) :
    ((Action.decrypt i r).exec w).1 =
      .ok ((clearResult (settingsOf w s) r.data.length).mapError .error, r.data) := by
  by_cases hdata : r.data = []
  · unfold Action.decrypt
    rw [if_pos (by rw [hdata]; rfl), hdata]
    rfl
  · obtain ⟨a, x, w', hmeets, -, hend⟩ := (fit_of_reached h).exec_decrypt hs hlive hdata
    obtain ⟨hresult, hafter⟩ := callOn_of_needsNoKey hmeets hclear hdata
    rw [hend, hresult, hafter]

end Loopback

end ContentDecryption
