import ContentDecryption.Proofs.Loopback.Decrypt
import ContentDecryption.Proofs.Loopback.Licenses

/-!
# Which key is used

A session of the engine puts the keys of a license behind those that it has, and a sample
is decrypted with the first key that goes by its key ID. So a key stays in use until all
keys are removed: a license that renews it is taken, and reported, and the sample is still
decrypted with the key of the earliest license that names it. Inside a license the first
record for a key counts.

The client goes by the last report instead. For it the key is usable, and nothing tells
it that it is not the key of the last license.

Main definitions:

* `Stocked`: the worlds that a session lives through, and the licenses that it has accepted since
  its keys were last removed.

Main results:

* `keysOf_of_stocked`: the keys of the engine are those of the licenses, in order;
* `earliest_license_decrypts`: a sample is decrypted with the key of the earliest license;
* `renewal_not_used`: a key that is renewed stays in use.
-/

namespace ContentDecryption

open Service

namespace Loopback

open Client

/-! ## Keys of licenses -/

/-- A license that is accepted adds its records. -/
theorem Session.keys_update (x : Session) (response : Bytes) :
    (x.update response).2.keys =
      if (Error.ofStatus (x.update response).1.value).isOk = true then
        x.keys ++ (License.decode? response).getD []
      else x.keys := by
  unfold Session.update
  split
  · rfl
  · cases License.decode? response with
    | none => rfl
    | some records => rfl

/-- The licenses of a session after a call, if it had these. -/
def Call.stock (i : SessionRef) (w : World Engine) (granted : List (List KeyRecord)) :
    Call → List (List KeyRecord)
  | .update j response =>
    if j = i ∧ ((Action.update j response).exec w).1.isOk = true then
      granted ++ [(License.decode? response).getD []]
    else granted
  | .remove j => if j = i then [] else granted
  | _ => granted

/-- The worlds that a session lives through from when the client gets it, with the licenses that it
has accepted since its keys were last removed. -/
inductive Stocked (i : SessionRef) : World Engine → List (List KeyRecord) → Prop
  | created {w : World Engine} (before : Reached w) (system : SystemRef) (licenseType : Int32)
      (initDataType : String) (initData cdmData : Bytes) (listener : Listener)
      (made : ((Action.createSession system licenseType initDataType initData cdmData
        listener).exec w).1 = .ok i) :
      Stocked i
        (Call.after w (.createSession system licenseType initDataType initData cdmData listener)) []
  | call {w : World Engine} {granted : List (List KeyRecord)} (c : Call)
      (before : Stocked i w granted) (possible : c.Possible w) (orderly : c.IsOrderly i w) :
      Stocked i (c.after w) (c.stock i w granted)
  /-- A decrypt call that is not answered in time changes the memory. -/
  | overtime {w : World Engine} {granted : List (List KeyRecord)} {memory : SharedMemory}
      (before : Stocked i w granted) (reached : Reached { w with memory }) :
      Stocked i { w with memory } granted

/-- These are worlds of a session that has accepted licenses. -/
theorem Stocked.licensed {i : SessionRef} {w : World Engine} {granted : List (List KeyRecord)}
    (h : Stocked i w granted) : ∃ named, Licensed i w named := by
  induction h with
  | created before system licenseType initDataType initData cdmData listener made =>
    exact ⟨[], .created before system licenseType initDataType initData cdmData listener made⟩
  | call c before possible orderly ih =>
    obtain ⟨named, h⟩ := ih
    exact ⟨_, .call c h possible orderly⟩
  | overtime before reached ih =>
    obtain ⟨named, h⟩ := ih
    exact ⟨named, .overtime h reached⟩

/-- As long as the session is held, the engine has the keys of these licenses, in order. -/
theorem Stocked.upheld {i : SessionRef} {w : World Engine} {granted : List (List KeyRecord)}
    (h : Stocked i w granted) : Upheld i (fun _ keys => keys = granted.flatten) w := by
  induction h with
  | created before system licenseType initDataType initData cdmData listener made =>
    have hcreated := @Passes.createSession (fun _ => False) _ (fit_of_reached before) system
      licenseType initDataType initData cdmData listener
    obtain ⟨s, hs⟩ := hcreated.2 i made
    exact hs.upheld rfl
  | @call w granted c before possible orderly ih =>
    obtain ⟨named, hlicensed⟩ := before.licensed
    refine ih.after (fit_of_reached hlicensed.reached) (routed_of_reached hlicensed.reached)
      possible orderly (fun hfor l keys hkeys => ?_) (fun response hresponse x l k _ hok hkeys => ?_)
      fun hremove x l k _ _ => ?_
    · cases c with
      | update j response =>
        rw [Call.stock, if_neg fun hboth => beq_eq_false_iff_ne.1 hfor hboth.1]
        exact hkeys
      | remove j =>
        rw [Call.stock, if_neg (beq_eq_false_iff_ne.1 hfor)]
        exact hkeys
      | _ => exact hkeys
    · rw [hresponse, Call.stock, x.keys_update, hok, hkeys]
      simp only [true_and]
      split
      · rw [List.flatten_append, List.flatten_singleton]
      · rfl
    · rw [hremove, Call.stock, if_pos rfl]
      rfl
  | overtime before reached ih => exact ih

/-- The keys of the engine are those of the licenses. -/
theorem keysOf_of_stocked {i : SessionRef} {w : World Engine} {granted : List (List KeyRecord)}
    (h : Stocked i w granted) {s : Client.Session} (hs : w.sessions[i]? = some s)
    (hlive : 0 < s.handles) : w.service.keysOf s.remote = granted.flatten := by
  obtain ⟨t, ht, hholds⟩ := h.upheld
  obtain rfl : s = t := Option.some.inj (hs.symm.trans ht)
  exact (hholds hlive).2

/-! ## Samples that are decrypted -/

/-- A call that succeeds was given time. -/
theorem timeout_ne_zero_of_ok {w : World Engine} {s : Client.Session} {a : Channel.Attachment}
    {x : Session} (h : Meets w s a x) {r : Channel.Request}
    (hok : (callOn w a x r).1.result = .ok ()) : (settingsOf w s).decryptTimeoutMs ≠ 0 := by
  intro htime
  rw [← h.timeoutMs] at htime
  rw [callOn] at hok
  rcases a.headerFor_cases false r with ⟨-, he⟩ | ⟨-, -, he⟩ | ⟨-, -, hheader⟩
  · rw [Channel.Attachment.decryptOn_of_error h.ready he] at hok
    cases hok
  · rw [Channel.Attachment.decryptOn_of_error h.ready he] at hok
    cases hok
  · rw [Channel.Attachment.decryptOn_of_expired h.ready (Nat.le_of_eq h.capacity) htime hheader]
      at hok
    cases hok

/-- Where a sample is decrypted that is not clear, there is a key, and the first one is applied. -/
theorem DecryptsTo.applied {keys : List KeyRecord} {reserved : Nat} {r : Channel.Request}
    {after : Bytes} (h : DecryptsTo keys reserved r (.ok ()) after) (hdata : r.data ≠ [])
    {info : SampleInfo} (hinfo : r.info = some info) (hscheme : info.scheme ≠ .clear) :
    ∃ k, firstKey? keys info.keyId = some k ∧ k.2 ≠ [] ∧
      Applied k.2 0 (decryptedPositions r.data.length info.subsamples) r.data after := by
  rw [DecryptsTo, if_neg hdata, hinfo] at h
  split at h
  · cases h.1
  · dsimp only at h
    split at h
    · cases h.1
    · cases hk : firstKey? keys info.keyId with
      | none =>
        rw [hk] at h
        cases h.1
      | some k =>
        rw [hk] at h
        exact ⟨k, rfl, h.1, h.2.1⟩

/-- The first key of several licenses is the first one of the first license that has any. -/
theorem firstKey?_flatten_eq_some {granted : List (List KeyRecord)} {id : KeyId} {k : KeyRecord}
    (h : firstKey? granted.flatten id = some k) :
    ∃ older license newer, granted = older ++ license :: newer ∧
      (∀ other ∈ older, ∀ r ∈ other, r.1.agrees id = false) ∧ firstKey? license id = some k := by
  rw [firstKey?, List.find?_flatten, List.findSome?_eq_some_iff] at h
  obtain ⟨older, license, newer, rfl, hlicense, holder⟩ := h
  refine ⟨older, license, newer, rfl, fun other hother r hr => ?_, hlicense⟩
  simpa using List.find?_eq_none.1 (holder other hother) r hr

/-- **The earliest license decides.** Whatever calls a client of the loopback engine has made since
it got a session, with any licenses accepted or refused: if a sample with data that is not clear is
decrypted, then

* of the licenses accepted since the keys were last removed, it is the earliest one that names the
  key whose key is used, and there the first record for it, in either byte order;
* the client says of the key that it is usable, as the last license has it. -/
theorem earliest_license_decrypts {i : SessionRef} {w : World Engine}
    {granted : List (List KeyRecord)} (h : Stocked i w granted) {s : Client.Session}
    (hs : w.sessions[i]? = some s) (hlive : 0 < s.handles) {r : Channel.Request}
    (hdata : r.data ≠ []) {info : SampleInfo} (hinfo : r.info = some info)
    (hscheme : info.scheme ≠ .clear) {after : Bytes} {w' : World Engine}
    (hok : (Action.decrypt i r).exec w = (.ok (.ok (), after), w')) :
    ∃ older license newer k, granted = older ++ license :: newer ∧
      (∀ other ∈ older, ∀ record ∈ other, record.1.agrees info.keyId = false) ∧
      license.find? (fun record => record.1.agrees info.keyId) = some k ∧ k.2 ≠ [] ∧
      Applied k.2 0 (decryptedPositions r.data.length info.subsamples) r.data after ∧
      (w.ledger i).status info.keyId = .usable := by
  obtain ⟨named, hlicensed⟩ := h.licensed
  obtain ⟨a, x, w'', hmeets, -, hend⟩ :=
    (fit_of_reached hlicensed.reached).exec_decrypt hs hlive hdata
  obtain ⟨hresult, -⟩ := Prod.mk.inj (hend.symm.trans hok)
  obtain ⟨hresult, hafter⟩ := Prod.mk.inj (Except.ok.inj hresult)
  have hsuccess : (callOn w a x r).1.result = .ok () := by
    cases hcall : (callOn w a x r).1.result with
    | ok _ => rfl
    | error e =>
      rw [hcall] at hresult
      cases hresult
  have hto := decryptsTo_callOn hmeets (timeout_ne_zero_of_ok hmeets hsuccess) hdata
  rw [hsuccess, hafter] at hto
  obtain ⟨k, hk, hkeyed, happlied⟩ := hto.applied hdata hinfo hscheme
  have hkeys : x.keys = granted.flatten := by
    have hkeysOf := keysOf_of_stocked h hs hlive
    rwa [Engine.keysOf, hmeets.serving] at hkeysOf
  rw [hkeys] at hk
  obtain ⟨older, license, newer, hgranted, holder, hlicense⟩ := firstKey?_flatten_eq_some hk
  refine ⟨older, license, newer, k, hgranted, holder, hlicense, hkeyed, happlied, ?_⟩
  obtain ⟨t, ht, htracks⟩ := tracked_of_licensed hlicensed
  obtain rfl : s = t := Option.some.inj (hs.symm.trans ht)
  have hstatus := ((htracks hlive).2.status_eq_usable_iff info.keyId).2
  rw [keysOf_of_stocked h hs hlive, ← World.session_of_getElem? hs] at hstatus
  refine hstatus ⟨k.1, List.mem_map_of_mem (List.mem_of_find?_eq_some hk), ?_⟩
  simpa using List.find?_some (p := fun k : KeyRecord => KeyId.agrees k.1 info.keyId) hk

/-- A session gets a key, and then another one under the other spelling of its ID. -/
def renewedOnce : World Engine :=
  [Call.update 0 (License.encode [(guid, [5])]),
    .update 0 (License.encode [(KeyId.swapped guid, [6])])].foldl Call.after unlicensed

/-- A sample of one byte that is encrypted with the key. -/
def zeroByte : Channel.Request where
  data := [0]
  info := some { scheme := .aesCtrCenc, keyId := guid }

theorem stocked_renewedOnce :
    Stocked 0 renewedOnce [[(guid, [5])], [(KeyId.swapped guid, [6])]] := by
  have hopened : Reached opened :=
    .call (.createSystem ..) (.call (.connect _) (.start _ {} [] rfl) trivial) trivial
  have hunlicensed : Stocked 0 unlicensed [] :=
    .created hopened 0 0 "" [] [] .nobody (by decide +kernel)
  have hupdate (w : World Engine) (response : Bytes) (h : 0 < w.sessions.length) :
      Call.IsOrderly 0 w (.update 0 response) := h
  have hstocked : ∃ granted, Stocked 0 renewedOnce granted ∧
      granted = [[(guid, [5])], [(KeyId.swapped guid, [6])]] := by
    refine ⟨_, .call (.update 0 _) (.call (.update 0 _) hunlicensed trivial (hupdate _ _ ?_))
      trivial (hupdate _ _ ?_), ?_⟩
    all_goals decide +kernel
  obtain ⟨granted, hgranted, rfl⟩ := hstocked
  exact hgranted

theorem getElem?_renewedOnce : renewedOnce.sessions[0]? = some (renewedOnce.session 0) :=
  World.getElem?_session (by decide +kernel)

/-- The sample comes out under the first of the two keys. -/
theorem decrypt_renewedOnce : ∃ w',
    (Action.decrypt 0 zeroByte).exec renewedOnce = (.ok (.ok (), [5]), w') := by
  obtain ⟨named, hlicensed⟩ := stocked_renewedOnce.licensed
  have hlive : 0 < (renewedOnce.session 0).handles := by decide +kernel
  obtain ⟨a, x, w', hmeets, -, hend⟩ := (fit_of_reached hlicensed.reached).exec_decrypt
    getElem?_renewedOnce hlive (r := zeroByte) (by decide)
  have hto := decryptsTo_callOn hmeets (by decide +kernel) (r := zeroByte) (by decide)
  have hkeys : x.keys = [(guid, [5]), (KeyId.swapped guid, [6])] := by
    have hkeysOf := keysOf_of_stocked stocked_renewedOnce getElem?_renewedOnce hlive
    rwa [Engine.keysOf, hmeets.serving] at hkeysOf
  have hreserved : (settingsOf renewedOnce (renewedOnce.session 0)).reservedTokenSize = 16 := by
    decide +kernel
  rw [hkeys, hreserved, DecryptsTo, if_neg (by decide), if_neg (by decide)] at hto
  obtain ⟨-, happlied, hresult⟩ := hto
  have hafter : (callOn renewedOnce a x zeroByte).1.data = [5] := by
    have hlength := happlied.length
    have hbyte := happlied.encrypted (j := 0) (p := 0) (by decide)
    obtain ⟨b, hb⟩ := List.length_eq_one_iff.1 hlength
    rw [hb] at hbyte ⊢
    exact congrArg (fun b => [b]) hbyte
  refine ⟨w', ?_⟩
  rw [hend, hresult, hafter]
  rfl

/-- The license that the sample is decrypted with is the older one of two, and the client takes the
key for usable. -/
theorem earliest_license_renewedOnce :
    ∃ older license newer k, [[(guid, [5])], [(KeyId.swapped guid, [6])]] =
        older ++ license :: newer ∧
      license.find? (fun record => record.1.agrees guid) = some k ∧
      Applied k.2 0 (decryptedPositions 1 []) [0] [5] ∧
      (renewedOnce.ledger 0).status guid = .usable := by
  obtain ⟨w', hok⟩ := decrypt_renewedOnce
  obtain ⟨older, license, newer, k, hgranted, -, hlicense, -, happlied, hstatus⟩ :=
    earliest_license_decrypts stocked_renewedOnce getElem?_renewedOnce (by decide +kernel)
      (by decide) rfl (by decide) hok
  exact ⟨older, license, newer, k, hgranted, hlicense, happlied, hstatus⟩

/-- The last record for a key in the last license that names it. -/
def latestKey? (granted : List (List KeyRecord)) (id : KeyId) : Option KeyRecord :=
  granted.reverse.findSome? fun license => license.reverse.find? fun record => record.1.agrees id

/-- **The latest license does not decide.** The key of the last license is another one than that
with which the sample is decrypted. -/
theorem renewal_not_used :
    ∃ granted k w', Stocked 0 renewedOnce granted ∧ latestKey? granted guid = some k ∧
      (Action.decrypt 0 zeroByte).exec renewedOnce = (.ok (.ok (), [5]), w') ∧
      ¬ Applied k.2 0 (decryptedPositions 1 []) [0] [5] := by
  obtain ⟨w', hok⟩ := decrypt_renewedOnce
  refine ⟨_, (KeyId.swapped guid, [6]), w', stocked_renewedOnce, by decide, hok, fun h => ?_⟩
  have hbyte := h.encrypted (j := 0) (p := 0) (by decide)
  exact absurd hbyte (by decide)

end Loopback

end ContentDecryption
