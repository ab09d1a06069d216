import ContentDecryption.Proofs.Loopback.Decrypt
import ContentDecryption.Proofs.Subsample.Walks

/-!
# Decrypting the gathered bytes of a sample

A service that has the encrypted bytes of a sample in one piece decrypts them as a
sample of their own, with a region for each run, and puts them back. The loopback
engine makes the same of them as of the sample with its map: its key runs on from one
run to the next, and clear bytes do not move it.

Main definitions:

* `decryptGathered`: gathering, decrypting and scattering a sample;
* `answer`: what a decrypt call of a session comes to.

Main results:

* `decryptRuns_gathered`: the cipher on the gathered bytes and the cipher on the sample;
* `exec_decrypt_of_describable`: a request that the channel has room for comes to just `answer`;
* `decryptGathered_eq_decrypt`: both ways end alike, with the same bytes.
-/

namespace ContentDecryption

namespace Loopback

open Client Subsample

/-! ## The cipher -/

theorem isEmpty_regions (runs : List SubSample) : (regions runs).isEmpty = runs.isEmpty := by
  cases runs <;> rfl

section Run

variable {s : SubSample} {clear encrypted : Bytes} (hencrypted : encrypted.length = s.encrypted)
  (key : Bytes) (runs : List SubSample) (index : Nat) (rest : Bytes)

include hencrypted

/-- The first entry of a sample: the key goes over its encrypted bytes. -/
theorem decryptRuns_cons (hclear : clear.length = s.clear) :
    (decryptRuns key (s :: runs) index (clear ++ encrypted ++ rest)).2 =
      clear ++ applyKey key index encrypted ++
        (decryptRuns key runs (index + s.encrypted) rest).2 := by
  rw [decryptRuns, split?_first hclear hencrypted]
  dsimp only
  rw [← hclear, List.take_left, List.drop_left]

/-- The first region of the gathered bytes has no clear bytes. -/
theorem decryptRuns_region :
    (decryptRuns key (⟨0, s.encryptedBytes⟩ :: runs) index (encrypted ++ rest)).2 =
      applyKey key index encrypted ++ (decryptRuns key runs (index + s.encrypted) rest).2 := by
  have hclear : ([] : Bytes).length = (⟨0, s.encryptedBytes⟩ : SubSample).clear := rfl
  exact decryptRuns_cons (s := ⟨0, s.encryptedBytes⟩) hencrypted key runs index rest hclear

end Run

/-- The gathered bytes of a sample, decrypted region by region and put back, are the sample
decrypted run by run. -/
theorem decryptRuns_gathered {runs : List SubSample} {sample data : Bytes}
    (h : SubSample.totalLength runs ≤ sample.length) (hdata : collect runs sample = .ok data)
    (key : Bytes) (index : Nat) (more : Bytes) :
    place runs ((decryptRuns key (regions runs) index data).2 ++ more) sample =
      (none, (decryptRuns key runs index sample).2) := by
  refine covered_induction (P := fun runs sample => ∀ index data, collect runs sample = .ok data →
    place runs ((decryptRuns key (regions runs) index data).2 ++ more) sample =
      (none, (decryptRuns key runs index sample).2)) ?_ ?_ h index data hdata
  · exact fun _ _ _ _ => rfl
  · intro s runs clear encrypted rest hclear hencrypted hrest ih index data hdata
    obtain ⟨later, hlater, -⟩ := exists_collect hrest
    rw [collect_cons hclear hencrypted runs rest hlater] at hdata
    cases hdata
    have hregions : regions (s :: runs) = ⟨0, s.encryptedBytes⟩ :: regions runs := rfl
    rw [hregions, decryptRuns_region hencrypted, decryptRuns_cons hencrypted _ _ _ _ hclear,
      List.append_assoc]
    refine place_cons hclear hencrypted runs rest ?_ (ih _ later hlater)
    rw [length_applyKey, hencrypted]

/-- What the handler of the engine makes of the gathered bytes is what it makes of the sample. If
that is a failure, both are as they were. -/
theorem decryptSample_gathered (keys : List (KeyId × Bytes)) {d g : Channel.Delivery}
    (hruns : d.info.subsamples ≠ [])
    (hcovered : SubSample.totalLength d.info.subsamples ≤ d.data.length)
    (hdata : collect d.info.subsamples d.data = .ok g.data)
    (hlength : g.data.length = SubSample.totalEncrypted d.info.subsamples)
    (hinfo : g.info = { d.info with subsamples := regions d.info.subsamples }) :
    (decryptSample keys g).1 = (decryptSample keys d).1 ∧
      ((decryptSample keys d).1 = Status.none ∨ (decryptSample keys d).2 = d.data) ∧
      ∀ more, place d.info.subsamples ((decryptSample keys g).2 ++ more) d.data =
        (none, (decryptSample keys d).2) := by
  have hdivided : d.info.subsamples.isEmpty = false := List.isEmpty_eq_false_iff.2 hruns
  simp only [decryptSample, hinfo, isEmpty_regions, hdivided]
  by_cases hscheme : d.info.scheme = .clear
  · rw [if_pos hscheme, if_pos hscheme]
    exact ⟨rfl, .inl rfl, place_collect hcovered hdata⟩
  · rw [if_neg hscheme, if_neg hscheme]
    cases findKey? keys d.info.keyId with
    | none => exact ⟨rfl, .inr rfl, place_collect hcovered hdata⟩
    | some key =>
      have hwhole : (decryptRuns key d.info.subsamples 0 d.data).1 = Status.none := by
        rw [status_decryptRuns, if_pos hcovered]
      have hpart : (decryptRuns key (regions d.info.subsamples) 0 g.data).1 = Status.none := by
        rw [status_decryptRuns, totalLength_regions, hlength, if_pos (Nat.le_refl _)]
      exact ⟨hpart.trans hwhole.symm, .inl hwhole, decryptRuns_gathered hcovered hdata key 0⟩

/-! ## Calls -/

/-- The result of a decrypt call of a session with these keys, and the bytes in its buffer after
it. -/
def answer (keys : List (KeyId × Bytes)) (timeoutMs : Nat) (r : Channel.Request) :
    Except Error Unit × Bytes :=
  if timeoutMs = 0 then (.error .timeout, r.data)
  else
    let (status, data) := decryptSample keys r.delivery
    (Error.ofStatus status, data)

/-- A decrypt call with a request that the channel and the header have room for. -/
theorem exec_decrypt_of_describable {w : World Engine} (h : Fit w) {i : SessionRef}
    {s : Client.Session} {x : Session} (hs : w.sessions[i]? = some s) (hlive : 0 < s.handles)
    (hx : w.service.sessions[s.remote]? = some x) {r : Channel.Request} (hdata : r.data ≠ [])
    (hroom : r.data.length + (settingsOf w s).reservedTokenSize ≤ channelCapacity)
    (hr : Channel.Header.Describable r) :
    ∃ w', (Action.decrypt i r).exec w =
      (.ok (let (result, after) := answer x.keys (settingsOf w s).decryptTimeoutMs r
        (result.mapError .error, after)), w') := by
  obtain ⟨a, y, w', hmeets, -, hend⟩ := h.exec_decrypt hs hlive hdata
  obtain rfl : x = y := Option.some.inj (hx.symm.trans hmeets.serving)
  refine ⟨w', ?_⟩
  have hheader : a.headerFor false r = .ok (Channel.Header.describe r) := by
    rcases a.headerFor_cases false r with ⟨hlarge, -⟩ | ⟨-, hwide, -⟩ | ⟨-, -, hok⟩
    · rw [hmeets.capacity, hmeets.reserved] at hlarge
      omega
    · exact absurd hr hwide
    · exact hok
  have hcapacity : a.capacity ≤ channelCapacity := Nat.le_of_eq hmeets.capacity
  rw [hend, answer, callOn, ← hmeets.timeoutMs]
  by_cases htime : a.timeoutMs = 0
  · rw [if_pos htime, Channel.Attachment.decryptOn_of_expired hmeets.ready hcapacity htime hheader]
  · rw [if_neg htime, Channel.Attachment.decryptOn_of_header hmeets.ready hcapacity htime hheader,
      left_decryptSample]

/-- Decrypts a divided sample by way of its encrypted bytes alone: they are gathered, decrypted as a
sample of their own, and scattered with the bytes kept free behind them. -/
def decryptGathered (i : SessionRef) (r : Channel.Request) (map : Reader) (count reserved : Nat) :
    Action Engine (Except Failure Unit × Bytes) := do
  match gather r.data map count reserved with
  | (.error e, _) => pure (.error (.error e), r.data)
  | (.ok g, map) =>
    let info := r.info.map fun i => { i with subsamples := g.regions }
    match ← Action.decrypt i { r with data := g.payload, info } with
    | (.error f, _) => pure (.error f, r.data)
    | (.ok _, payload) =>
      let (result, _, sample) := scatter (payload ++ g.data.drop g.encryptedLength) map count r.data
      pure (result.mapError .error, sample)

/-- What is sent of a sample whose encrypted bytes are these. -/
def gatheredRequest (r : Channel.Request) (info : SampleInfo) (data : Bytes) : Channel.Request :=
  { r with data, info := some { info with subsamples := regions info.subsamples } }

theorem describable_gatheredRequest {r : Channel.Request} {info : SampleInfo} {data : Bytes}
    (hwide : ¬ IsWide info) (hlength : data.length < 4294967296) :
    Channel.Header.Describable (gatheredRequest r info data) := by
  refine ⟨hlength, fun i hi => ?_⟩
  obtain rfl : { info with subsamples := regions info.subsamples } = i := Option.some.inj hi
  rw [← not_isWide_iff]
  simpa only [IsWide, regions, List.length_map] using hwide

/-- The answer to the gathered bytes and the answer to the sample: the same failure, or bytes that
are those of the sample once they are put back. -/
theorem answer_gathered (keys : List (KeyId × Bytes)) (timeoutMs : Nat) {r : Channel.Request}
    {info : SampleInfo} {data : Bytes} (hinfo : r.info = some info) (hruns : info.subsamples ≠ [])
    (hcovered : SubSample.totalLength info.subsamples ≤ r.data.length)
    (hdata : collect info.subsamples r.data = .ok data)
    (hlength : data.length = SubSample.totalEncrypted info.subsamples) :
    (∃ e payload, answer keys timeoutMs (gatheredRequest r info data) = (.error e, payload) ∧
        answer keys timeoutMs r = (.error e, r.data)) ∨
      ∃ payload after, answer keys timeoutMs (gatheredRequest r info data) = (.ok (), payload) ∧
        answer keys timeoutMs r = (.ok (), after) ∧
        ∀ more, place info.subsamples (payload ++ more) r.data = (none, after) := by
  unfold answer
  by_cases htime : timeoutMs = 0
  · rw [if_pos htime, if_pos htime]
    exact .inl ⟨_, _, rfl, rfl⟩
  have hdelivered : r.delivery.info = info := by
    rw [Channel.Request.delivery, hinfo]
    rfl
  obtain ⟨hstatus, hfailed, hplace⟩ := decryptSample_gathered keys (d := r.delivery)
    (g := (gatheredRequest r info data).delivery) (by rw [hdelivered]; exact hruns)
    (by rw [hdelivered]; exact hcovered) (by rw [hdelivered]; exact hdata)
    (by rw [hdelivered]; exact hlength) (by rw [hdelivered]; rfl)
  rw [hdelivered] at hplace
  rw [if_neg htime, if_neg htime]
  dsimp only
  rw [hstatus]
  rcases hfailed with hnone | hsame
  · rw [hnone]
    exact .inr ⟨_, _, rfl, rfl, hplace⟩
  · cases hresult : Error.ofStatus (decryptSample keys r.delivery).1 with
    | ok _ => exact .inr ⟨_, _, rfl, rfl, hplace⟩
    | error e => exact .inl ⟨e, _, rfl, Prod.ext rfl hsame⟩

/-- Gathering, decrypting and scattering a sample ends as decrypting it in place does, for every
session that somebody holds: with the same result, and with the same bytes in the sample. -/
theorem decryptGathered_eq_decrypt {w : World Engine} (h : Reached w) {i : SessionRef}
    {s : Client.Session} (hs : w.sessions[i]? = some s) (hlive : 0 < s.handles)
    {r : Channel.Request} {info : SampleInfo} (hinfo : r.info = some info) (hwide : ¬ IsWide info)
    (hencrypted : 0 < SubSample.totalEncrypted info.subsamples)
    (hcovered : SubSample.totalLength info.subsamples ≤ r.data.length)
    (hroom : r.data.length + (settingsOf w s).reservedTokenSize ≤ channelCapacity)
    {map : Reader} {rest : Bytes} (hmap : map.map = encode info.subsamples ++ rest)
    (reserved : Nat) :
    ∃ outcome w₁ w₂, (Action.decrypt i r).exec w = (.ok outcome, w₁) ∧
      (decryptGathered i r map info.subsamples.length reserved).exec w = (.ok outcome, w₂) := by
  have hfit := fit_of_reached h
  obtain ⟨x, hx, -⟩ := hfit.1.bound hs
  obtain ⟨data, hdata, hlength⟩ := exists_collect hcovered
  have hle : data.length ≤ r.data.length := by
    rw [hlength]
    exact Nat.le_trans (totalEncrypted_le_totalLength _) hcovered
  have hbound : channelCapacity < 4294967296 := by decide
  have hruns : info.subsamples ≠ [] := by
    intro hnil
    rw [hnil] at hencrypted
    exact absurd hencrypted (Nat.lt_irrefl 0)
  -- Both calls are let through, and what they come to is told by the handler of the engine.
  have hwhole : Channel.Header.Describable r := by
    refine ⟨by omega, fun j hj => ?_⟩
    obtain rfl : info = j := Option.some.inj (hinfo.symm.trans hj)
    exact not_isWide_iff.1 hwide
  obtain ⟨w₁, hfirst⟩ := exec_decrypt_of_describable hfit hs hlive hx
    (List.ne_nil_of_length_pos (by omega)) hroom hwhole
  obtain ⟨w₂, hsecond⟩ := exec_decrypt_of_describable hfit hs hlive hx
    (r := gatheredRequest r info data)
    (List.ne_nil_of_length_pos (Nat.lt_of_lt_of_eq hencrypted hlength.symm))
    (Nat.le_trans (Nat.add_le_add_right hle _) hroom)
    (describable_gatheredRequest hwide (by omega))
  refine ⟨_, w₁, w₂, hfirst, ?_⟩
  unfold decryptGathered
  rw [gather_encode hmap hdata hlength]
  dsimp only [Gathered.payload]
  rw [List.take_left, List.drop_left, hinfo]
  refine (Action.exec_bind_of_ok hsecond _).trans ?_
  rcases answer_gathered x.keys (settingsOf w s).decryptTimeoutMs hinfo hruns hcovered hdata
    hlength with ⟨e, payload, hpart, hall⟩ | ⟨payload, after, hpart, hall, hplace⟩
  · rw [hpart, hall]
    rfl
  · rw [hpart, hall]
    dsimp only [Except.mapError]
    rw [scatter_encode (r := map.rewind) hmap (hplace _)]
    rfl

/-- A sample of seven bytes with two runs and a byte after them. -/
def divided : Channel.Request where
  data := [1, 2, 3, 4, 5, 6, 7]
  info := some { scheme := .aesCbcCbcs, keyId := [1], subsamples := [⟨1, 3⟩, ⟨0, 0⟩, ⟨1, 1⟩] }

/-- The packed map of the sample, with a cursor in its middle and a byte too many. -/
def dividedMap : Reader := ⟨encode [⟨1, 3⟩, ⟨0, 0⟩, ⟨1, 1⟩] ++ [0], 7⟩

/-- Both ways with a session that has a key. -/
theorem decryptGathered_divided : ∃ outcome w₁ w₂,
    (Action.decrypt 0 divided).exec licensed = (.ok outcome, w₁) ∧
      (decryptGathered 0 divided dividedMap 3 16).exec licensed = (.ok outcome, w₂) := by
  have hreached : Reached licensed :=
    .call (.update 0 _) (.call (.createSession ..) (.call (.createSystem ..)
      (.call (.connect _) (.start _ {} [] rfl) trivial) trivial) trivial) trivial
  have hsome : 0 < licensed.sessions.length := by decide +kernel
  have hs : licensed.sessions[0]? = some (licensed.session 0) := by
    rw [World.session, List.getD_eq_getElem _ _ hsome, List.getElem?_eq_getElem hsome]
  exact decryptGathered_eq_decrypt (r := divided) hreached hs (by decide +kernel) rfl (by decide)
    (by decide) (by decide) (by decide +kernel) rfl 16

end Loopback

end ContentDecryption
