import ContentDecryption.Boundary.SessionCall
import ContentDecryption.Proofs.Boundary.Calls
import ContentDecryption.Proofs.Loopback.Decrypt

/-!
# Two ways to describe a sample

A caller describes a sample in the words of the call or by a record. Here the two
calls are compared for what both can say: a sample that is not divided, without a
size hint, with an IV and a key ID of at most 255 bytes each.

The calls agree on every sample that has an IV or a key ID, and on every sample whose
scheme is clear. A bare sample, which has neither, has no description in the words of
a call, so its scheme is not looked at there; a record is checked first, and then sent
as it is. A bare sample with a scheme then passes for a scrambled one without a key ID,
although a description with nothing in it to decrypt with is that of a clear sample
(`SampleInfo.isClearPassthrough`).

Main definitions:

* `SampleRecord.toWords`: the words that say the same as a record;
* `SampleRecord.IsBare`: neither IV nor key ID.

Main results:

* `SampleRecord.toInfo_eq_toInfo?`: for a sample that is not bare both give one description;
* `decryptAt_of_ok`: a call comes to the decryption of the session behind its handle;
* `decryptRecord_agrees`: where the two calls agree, and what each does with a bare sample;
* `bare_disagrees`: a bare sample on which they do not;
* `decryptRecord_of_bare`: what each comes to with a bare sample that has a scheme.
-/

namespace ContentDecryption

namespace Boundary

open Client Loopback

/-! ## Descriptions -/

theorem schemeAt_cases (word : UInt32) :
    schemeAt word = .error .invalidArg ∨ ∃ s, schemeAt word = .ok s := by
  unfold schemeAt
  split
  · exact .inr ⟨_, rfl⟩
  · exact .inl rfl

namespace SampleRecord

variable {x : SampleRecord}

/-- The same sample in the words of a call. -/
def toWords (x : SampleRecord) : SampleWords where
  scheme := x.scheme
  pattern := x.pattern
  iv := x.iv
  ivLength := x.ivLength.toUInt16
  keyId := x.keyId
  keyIdLength := x.keyIdLength.toUInt16

/-- The sample has neither IV nor key ID. -/
def IsBare (x : SampleRecord) : Prop :=
  bytesAt x.iv x.ivLength.toNat = .ok [] ∧ bytesAt x.keyId x.keyIdLength.toNat = .ok []

theorem isBare_of_length_eq_zero (hiv : x.ivLength = 0) (hkeyId : x.keyIdLength = 0) :
    x.IsBare := by
  rw [IsBare, hiv, hkeyId]
  exact ⟨rfl, rfl⟩

theorem bytesAt_toWords_iv :
    bytesAt x.toWords.iv x.toWords.ivLength.toNat = bytesAt x.iv x.ivLength.toNat :=
  congrArg (bytesAt x.iv) (UInt8.toNat_toUInt16 _)

theorem bytesAt_toWords_keyId :
    bytesAt x.toWords.keyId x.toWords.keyIdLength.toNat = bytesAt x.keyId x.keyIdLength.toNat :=
  congrArg (bytesAt x.keyId) (UInt8.toNat_toUInt16 _)

/-- What the record says if no pointer is at fault. -/
theorem toInfo_of_ok (hwhole : x.subsampleCount = 0) {iv keyId : Bytes}
    (hiv : bytesAt x.iv x.ivLength.toNat = .ok iv)
    (hkeyId : bytesAt x.keyId x.keyIdLength.toNat = .ok keyId) :
    x.toInfo = (schemeAt x.scheme).map fun scheme =>
      { scheme, pattern := x.pattern, iv, keyId } := by
  have hmap : x.map? = .ok [] := if_pos hwhole
  unfold toInfo
  rw [hmap, hiv, hkeyId]
  cases schemeAt x.scheme <;> rfl

/-- What the words say if no pointer is at fault. -/
theorem toInfo?_of_ok {iv keyId : Bytes} (hiv : bytesAt x.iv x.ivLength.toNat = .ok iv)
    (hkeyId : bytesAt x.keyId x.keyIdLength.toNat = .ok keyId) :
    x.toWords.toInfo? = if iv = [] ∧ keyId = [] then .ok none
      else (schemeAt x.scheme).map fun scheme =>
        some { scheme, pattern := x.pattern, iv, keyId } := by
  unfold SampleWords.toInfo?
  rw [bytesAt_toWords_iv, bytesAt_toWords_keyId, hiv, hkeyId]
  show (if iv.isEmpty && keyId.isEmpty then _ else _) = _
  simp only [Bool.and_eq_true, List.isEmpty_iff]
  split
  · rfl
  · show (schemeAt x.scheme >>= _) = _
    cases schemeAt x.scheme <;> rfl

/-- A pointer at fault is an invalid argument in both, whatever else is wrong. -/
theorem toInfo_of_fault (hwhole : x.subsampleCount = 0)
    (hfault : bytesAt x.iv x.ivLength.toNat = .error .invalidArg ∨
      bytesAt x.keyId x.keyIdLength.toNat = .error .invalidArg) :
    x.toInfo = .error .invalidArg ∧ x.toWords.toInfo? = .error .invalidArg := by
  have hmap : x.map? = .ok [] := if_pos hwhole
  unfold toInfo SampleWords.toInfo?
  rw [hmap, bytesAt_toWords_iv, bytesAt_toWords_keyId]
  rcases hfault with hiv | hkeyId
  · rw [hiv]
    refine ⟨?_, rfl⟩
    rcases schemeAt_cases x.scheme with hs | ⟨s, hs⟩ <;> rw [hs] <;> rfl
  · rw [hkeyId]
    rcases bytesAt_cases x.iv x.ivLength.toNat with hiv | ⟨iv, hiv⟩ <;>
      rcases schemeAt_cases x.scheme with hs | ⟨s, hs⟩ <;> rw [hiv, hs] <;> exact ⟨rfl, rfl⟩

/-- With an IV or a key ID, the words and the record give the same description or the same fault. -/
theorem toInfo_eq_toInfo? (hwhole : x.subsampleCount = 0) (hbare : ¬ x.IsBare) :
    x.toInfo.map some = x.toWords.toInfo? := by
  rcases bytesAt_cases x.iv x.ivLength.toNat with hiv | ⟨iv, hiv⟩
  · obtain ⟨hrecord, hwords⟩ := toInfo_of_fault hwhole (.inl hiv)
    rw [hrecord, hwords]
    rfl
  rcases bytesAt_cases x.keyId x.keyIdLength.toNat with hkeyId | ⟨keyId, hkeyId⟩
  · obtain ⟨hrecord, hwords⟩ := toInfo_of_fault hwhole (.inr hkeyId)
    rw [hrecord, hwords]
    rfl
  have hnone : ¬ (iv = [] ∧ keyId = []) := fun ⟨hi, hk⟩ =>
    hbare ⟨by rw [hiv, hi], by rw [hkeyId, hk]⟩
  rw [toInfo_of_ok hwhole hiv hkeyId, toInfo?_of_ok hiv hkeyId, if_neg hnone]
  cases schemeAt x.scheme <;> rfl

end SampleRecord

/-! ## Calls -/

/-- The status that a caller gets, and its buffer. -/
def answerOf (data : Pointer) :
    Except Failure (Except Failure Unit × Bytes) → Status × Pointer
  | .error f => (f.status, data)
  | .ok (.ok _, sample) => (Status.none, data.map fun memory => Bytes.overwrite memory 0 sample)
  | .ok (.error f, sample) => (f.status, data.map fun memory => Bytes.overwrite memory 0 sample)

/-- A call comes to what its action comes to, once handle, data and description are known. -/
theorem decryptAt_eq {σ : Type} [Service σ] (w : World σ) (h : Option HandleRef) (data : Pointer)
    (length : UInt32) (info : Except Error (Option SampleInfo)) (initWithLast15 : Bool)
    (properties : Option MediaProperties) :
    (decryptAt h data length info initWithLast15 properties w).1 =
      answerOf data ((do
        let i ← sessionAt h
        let sample ← Action.ofResult (bytesAt data length.toNat)
        let info ← Action.ofResult info
        Action.decrypt i ⟨sample, info, initWithLast15, properties⟩ : Action σ _).exec w).1 := by
  unfold decryptAt
  simp only [bind_assoc, pure_bind]
  rw [run_bind]
  rcases Action.exec _ w with ⟨f | ⟨result, sample⟩, w'⟩
  · rfl
  · cases result <;> rfl

section

variable {σ : Type} [Service σ] (w : World σ) (h : HandleRef) {data : Pointer} {length : UInt32}
  (initWithLast15 : Bool) (properties : Option MediaProperties)

theorem decryptAt_none (data : Pointer) (length : UInt32)
    (info : Except Error (Option SampleInfo)) :
    (decryptAt none data length info initWithLast15 properties w).1 =
      (Status.invalidSession, data) := by
  have hsession : (sessionAt none : Action σ SessionRef).exec w =
    (.error (.error .invalidSession), w) := rfl
  rw [decryptAt_eq, Action.exec_bind_of_error hsession]
  rfl

theorem decryptAt_of_fault (hdata : bytesAt data length.toNat = .error .invalidArg)
    (info : Except Error (Option SampleInfo)) :
    (decryptAt (some h) data length info initWithLast15 properties w).1 =
      (Status.invalidArg, data) := by
  have hsession : (sessionAt (some h)).exec w = (.ok (w.handle h).session, w) := rfl
  have hsample : (Action.ofResult (.error .invalidArg) : Action σ Bytes).exec w =
    (.error (.error .invalidArg), w) := rfl
  rw [decryptAt_eq, Action.exec_bind_of_ok hsession, hdata, Action.exec_bind_of_error hsample]
  rfl

/-- Data and description at fault are the same to the caller. -/
theorem decryptAt_of_info_fault (data : Pointer) (length : UInt32) :
    (decryptAt (some h) data length (.error .invalidArg) initWithLast15 properties w).1 =
      (Status.invalidArg, data) := by
  rcases bytesAt_cases data length.toNat with hdata | ⟨sample, hdata⟩
  · exact decryptAt_of_fault w h initWithLast15 properties hdata _
  · have hsession : (sessionAt (some h)).exec w = (.ok (w.handle h).session, w) := rfl
    have hsample : (Action.ofResult (.ok sample) : Action σ Bytes).exec w = (.ok sample, w) := rfl
    have hinfo : (Action.ofResult (.error .invalidArg) : Action σ (Option SampleInfo)).exec w =
      (.error (.error .invalidArg), w) := rfl
    rw [decryptAt_eq, Action.exec_bind_of_ok hsession, hdata, Action.exec_bind_of_ok hsample,
      Action.exec_bind_of_error hinfo]
    rfl

theorem decryptAt_of_ok {sample : Bytes} (hdata : bytesAt data length.toNat = .ok sample)
    (info : Option SampleInfo) :
    (decryptAt (some h) data length (.ok info) initWithLast15 properties w).1 =
      answerOf data ((Action.decrypt (w.handle h).session
        ⟨sample, info, initWithLast15, properties⟩).exec w).1 := by
  have hsession : (sessionAt (some h)).exec w = (.ok (w.handle h).session, w) := rfl
  have hsample : (Action.ofResult (.ok sample) : Action σ Bytes).exec w = (.ok sample, w) := rfl
  have hinfo : (Action.ofResult (.ok info) : Action σ (Option SampleInfo)).exec w =
    (.ok info, w) := rfl
  rw [decryptAt_eq, Action.exec_bind_of_ok hsession, hdata, Action.exec_bind_of_ok hsample,
    Action.exec_bind_of_ok hinfo]

end

/-! ## The two calls -/

/-- The session behind a handle is held, if there is a handle. -/
def IsHeld (w : World Engine) (h : Option HandleRef) : Prop :=
  ∀ k, h = some k → w.isLive (w.handle k).session = true

/-- Without any description the sample comes back as it does with a clear one. -/
theorem decryptAt_of_needsNoKey {w : World Engine} (hw : Reached w) {h : Option HandleRef}
    (hheld : IsHeld w h) (data : Pointer) (length : UInt32) {i : SampleInfo}
    (hscheme : i.scheme = .clear) (hfits : ¬ IsWide i) :
    (decryptAt h data length (.ok (some i)) false none w).1 =
      (decryptAt h data length (.ok none) false none w).1 := by
  cases h with
  | none => rw [decryptAt_none, decryptAt_none]
  | some k =>
    obtain ⟨s, hs, hlive⟩ := (Option.any_eq_true _ _).1 (hheld k rfl)
    rcases bytesAt_cases data length.toNat with hdata | ⟨sample, hdata⟩
    · rw [decryptAt_of_fault w k _ _ hdata, decryptAt_of_fault w k _ _ hdata]
    · have hcall (info : Option SampleInfo) (hclear : NeedsNoKey ⟨sample, info, false, none⟩) :
          ((Action.decrypt (w.handle k).session ⟨sample, info, false, none⟩).exec w).1 =
            .ok ((clearResult (settingsOf w s) sample.length).mapError .error, sample) :=
        decrypt_of_needsNoKey hw hs (of_decide_eq_true hlive) hclear
      rw [decryptAt_of_ok w k _ _ hdata, decryptAt_of_ok w k _ _ hdata,
        hcall none (fun _ hnone => nomatch hnone),
        hcall (some i) fun j hj => by cases hj; exact ⟨hscheme, hfits⟩]

/-- What a caller is told, and has in its buffer, does not depend on the way in which it describes
the sample, unless that is bare. Of a bare sample the words of a call do not even name a scheme,
while a record has to name one that there is. -/
theorem decryptRecord_agrees {w : World Engine} (hw : Reached w) {h : Option HandleRef}
    (hheld : IsHeld w h) (data : Pointer) (length : UInt32) {x : SampleRecord}
    (hwhole : x.subsampleCount = 0) :
    (¬ x.IsBare ∨ x.scheme = 0 →
      (decryptRecord h data length (some x) none w).1 = (decrypt h data length x.toWords 0 w).1) ∧
    (x.IsBare → (decrypt h data length x.toWords 0 w).1 =
      (decrypt h data length { x.toWords with scheme := 0 } 0 w).1) ∧
    (h.isSome → EncryptionScheme.ofRaw? x.scheme = none →
      (decryptRecord h data length (some x) none w).1 = (Status.invalidArg, data)) := by
  refine ⟨fun hcase => ?_, fun hbare => ?_, fun hhandle hunknown => ?_⟩
  · show (decryptAt h data length (x.toInfo.map some) false none w).1 =
      (decryptAt h data length x.toWords.toInfo? false none w).1
    by_cases hbare : x.IsBare
    · have hclear : schemeAt x.scheme = .ok .clear := by
        rw [hcase.resolve_left (not_not_intro hbare)]
        rfl
      rw [SampleRecord.toInfo_of_ok hwhole hbare.1 hbare.2,
        SampleRecord.toInfo?_of_ok hbare.1 hbare.2, if_pos ⟨rfl, rfl⟩, hclear]
      exact decryptAt_of_needsNoKey hw hheld data length rfl (by simp [IsWide])
    · rw [SampleRecord.toInfo_eq_toInfo? hwhole hbare]
  · show (decryptAt h data length x.toWords.toInfo? false none w).1 =
      (decryptAt h data length
        (SampleRecord.toWords { x with scheme := 0 }).toInfo? false none w).1
    have hbare' : SampleRecord.IsBare { x with scheme := 0 } := hbare
    rw [SampleRecord.toInfo?_of_ok hbare.1 hbare.2, SampleRecord.toInfo?_of_ok hbare'.1 hbare'.2,
      if_pos ⟨rfl, rfl⟩, if_pos ⟨rfl, rfl⟩]
  · obtain ⟨k, rfl⟩ := Option.isSome_iff_exists.1 hhandle
    have hscheme : schemeAt x.scheme = .error .invalidArg := by
      rw [schemeAt, hunknown]
    have hinfo : x.toInfo = .error .invalidArg := by
      unfold SampleRecord.toInfo
      rw [hscheme]
      rfl
    show (decryptAt (some k) data length (x.toInfo.map some) false none w).1 = _
    rw [hinfo]
    exact decryptAt_of_info_fault w k false none data length

/-- The client of `licensed`, with a handle to its session. -/
def handled : World Engine := (Call.openHandle 0 none).after licensed

theorem reached_handled : Reached handled :=
  .call (.openHandle 0 none) (.call (.update 0 _) (.call (.createSession ..)
    (.call (.createSystem ..) (.call (.connect _) (.start _ {} [] rfl) trivial) trivial) trivial)
      trivial) (show 0 < licensed.sessions.length by decide +kernel)

theorem isHeld_handled : IsHeld handled (some 0) := by
  intro k hk
  cases hk
  decide +kernel

/-- A record with a key ID and without an IV. -/
def recordFor (scheme : UInt32) (keyId : Bytes) : SampleRecord where
  scheme
  pattern := ⟨0, 0⟩
  iv := none
  ivLength := 0
  keyId := some keyId
  keyIdLength := UInt8.ofNat keyId.length
  subsamples := none
  subsampleCount := 0

/-- With a key ID, the record gets the sample decrypted that the words get decrypted. -/
theorem decryptRecord_agrees_keyed :
    (decryptRecord (some 0) (some [9, 9]) 2 (some (recordFor 1 [1])) none handled).1 =
      (Status.none, some [12, 15]) := by
  have hagrees := decryptRecord_agrees reached_handled isHeld_handled (some [9, 9]) 2
    (x := recordFor 1 [1]) rfl
  rw [hagrees.1 (.inl fun hbare => by have := hbare.2; cases this)]
  decide +kernel

/-- On a bare sample with a word that stands for no scheme the calls disagree. -/
theorem bare_disagrees :
    Reached handled ∧ IsHeld handled (some 0) ∧ (recordFor 9 []).IsBare ∧
      (decrypt (some 0) (some [9, 9]) 2 (recordFor 9 []).toWords 0 handled).1 =
        (Status.none, some [9, 9]) ∧
      (decryptRecord (some 0) (some [9, 9]) 2 (some (recordFor 9 [])) none handled).1 =
        (Status.invalidArg, some [9, 9]) := by
  refine ⟨reached_handled, isHeld_handled, SampleRecord.isBare_of_length_eq_zero rfl rfl, ?_⟩
  decide +kernel

/-! ## Bare samples with a scheme -/

theorem overwrite_take_self (b : Bytes) (n : Nat) : Bytes.overwrite b 0 (b.take n) = b := by
  unfold Bytes.overwrite
  rw [List.take_zero, List.nil_append, Nat.sub_zero, Nat.zero_add,
    List.take_of_length_le (List.length_take_le' n b), List.length_take]
  rcases Nat.le_total n b.length with hle | hle
  · rw [Nat.min_eq_left hle, List.take_append_drop]
  · rw [Nat.min_eq_right hle, List.take_of_length_le hle, List.drop_length, List.append_nil]

/-- Nothing changes in a buffer that gets back what was read from it. -/
theorem map_overwrite_of_bytesAt {data : Pointer} {n : Nat} {sample : Bytes}
    (h : bytesAt data n = .ok sample) :
    data.map (fun memory => Bytes.overwrite memory 0 sample) = data := by
  cases data with
  | none => rfl
  | some memory =>
    have htaken : sample = memory.take n := by
      unfold bytesAt at h
      split_ifs at h with hn
      · cases h
        rw [hn, List.take_zero]
      · cases h
        rfl
    rw [Option.map_some, htaken, overwrite_take_self]

/-- A bare sample with a scheme that is not clear. In the words of a call it comes back as it is. By
a record it goes to the engine with its scheme and no key ID, and the call fails unless the session
has a key that goes by none; the sample comes back as it is all the same. -/
theorem decryptRecord_of_bare {w : World Engine} (hw : Reached w) {k : HandleRef}
    {s : Client.Session} (hs : w.sessions[(w.handle k).session]? = some s) (hlive : 0 < s.handles)
    (htime : (settingsOf w s).decryptTimeoutMs ≠ 0) {y : Loopback.Session}
    (hy : w.service.sessions[s.remote]? = some y) (hkey : firstKey? y.keys [] = none)
    {data : Pointer} {length : UInt32} {sample : Bytes}
    (hdata : bytesAt data length.toNat = .ok sample) (hsome : sample ≠ [])
    (hroom : sample.length + (settingsOf w s).reservedTokenSize ≤ channelCapacity)
    {x : SampleRecord} (hwhole : x.subsampleCount = 0) (hbare : x.IsBare)
    {scheme : EncryptionScheme} (hscheme : EncryptionScheme.ofRaw? x.scheme = some scheme)
    (hscrambled : scheme ≠ .clear) :
    (decrypt (some k) data length x.toWords 0 w).1 = (Status.none, data) ∧
      (decryptRecord (some k) data length (some x) none w).1 =
        (Status.serverInternalError, data) := by
  have hlength : sample.length ≠ 0 := fun h0 => hsome (List.length_eq_zero_iff.1 h0)
  constructor
  · have hclear : clearResult (settingsOf w s) sample.length = .ok () := by
      rw [clearResult, if_neg hlength, if_neg (Nat.not_lt.2 hroom), if_neg htime]
    have hneeds : NeedsNoKey ⟨sample, none, false, none⟩ := by
      intro i hi
      cases hi
    have hcall : ((Action.decrypt (w.handle k).session ⟨sample, none, false, none⟩).exec w).1 =
        .ok (.ok (), sample) := by
      rw [decrypt_of_needsNoKey hw hs hlive hneeds]
      dsimp only
      rw [hclear]
      rfl
    show (decryptAt (some k) data length x.toWords.toInfo? false none w).1 = _
    rw [SampleRecord.toInfo?_of_ok hbare.1 hbare.2, if_pos ⟨rfl, rfl⟩,
      decryptAt_of_ok w k _ _ hdata, hcall]
    exact congrArg _ (map_overwrite_of_bytesAt hdata)
  · have hinfo : x.toInfo = .ok { scheme, pattern := x.pattern } := by
      rw [SampleRecord.toInfo_of_ok hwhole hbare.1 hbare.2, schemeAt, hscheme]
      rfl
    obtain ⟨a, z, w', hmeets, -, hend⟩ := (fit_of_reached hw).exec_decrypt hs hlive
      (r := ⟨sample, some { scheme, pattern := x.pattern }, false, none⟩) hsome
    obtain rfl : y = z := Option.some.inj (hy.symm.trans hmeets.serving)
    have hto := decryptsTo_callOn hmeets htime
      (r := ⟨sample, some { scheme, pattern := x.pattern }, false, none⟩) hsome
    rw [DecryptsTo, if_neg hsome, if_neg (Nat.not_lt.2 hroom)] at hto
    dsimp only at hto
    rw [if_neg (by simp [IsWide]), if_neg hscrambled, hkey] at hto
    show (decryptAt (some k) data length (x.toInfo.map some) false none w).1 = _
    rw [hinfo, Except.map, decryptAt_of_ok w k _ _ hdata, hend, hto.1, hto.2]
    exact congrArg _ (map_overwrite_of_bytesAt hdata)

end Boundary

end ContentDecryption
