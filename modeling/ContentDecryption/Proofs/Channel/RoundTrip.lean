import ContentDecryption.Channel.Handshake
import Mathlib.Data.List.GetD
import Mathlib.Tactic.ByContra

/-!
# A request arrives as it was sent

The header of a request is written in full and read back field by field. A reader
cuts and corrects what it reads, but a header that the writer let through needs no
correction, so the reader gets the request that was meant.

Main results:

* `Header.decode_encode`: a header whose byte strings fill their fields is read back as it is;
* `Header.ofRequest_eq_ok_iff`: which requests have a header;
* `Header.sampleInfo_describe`, `Header.mediaProperties_describe`: what the header of a request
  says of the sample;
* `Request.delivery_of_reads`: a server that finds the header and the data of a request in the
  memory is given that request.
-/

namespace ContentDecryption

namespace Channel

namespace Header

/-! ## The words of a header -/

/-- The `i`-th of the words that a byte string starts with. -/
theorem toWord_drop_flatMap (l : List UInt32) (rest : Bytes) (i : Nat) (h : i < l.length) :
    Bytes.toWord ((l.flatMap Bytes.ofWord ++ rest).drop (4 * i)) = l[i] := by
  induction l generalizing i with
  | nil => simp at h
  | cons w l ih =>
    rw [List.flatMap_cons, List.append_assoc]
    cases i with
    | zero =>
      rw [Nat.mul_zero, List.drop_zero, Bytes.toWord_ofWord_append]
      rfl
    | succ i =>
      rw [show 4 * (i + 1) = (Bytes.ofWord w).length + 4 * i by rw [Bytes.length_ofWord]; omega,
        ← List.drop_drop, List.drop_left]
      exact ih i (by simpa using h)

/-- A header whose byte strings fill their fields. -/
structure Framed (h : Header) : Prop where
  iv : h.iv.length = maxIvLength
  keyId : h.keyId.length = maxKeyIdLength
  subsamples : h.subsamples.length = 8 * maxSubsamples

theorem Framed.encode_eq {h : Header} (hf : h.Framed) :
    h.encode = h.words.flatMap Bytes.ofWord ++ (h.iv ++ (h.keyId ++ h.subsamples)) := by
  rw [encode, ← hf.iv, ← hf.keyId, ← hf.subsamples, Bytes.fit_length, Bytes.fit_length,
    Bytes.fit_length, List.append_assoc, List.append_assoc]

theorem fit_append {n : Nat} {b rest : Bytes} (h : b.length = n) : Bytes.fit n (b ++ rest) = b := by
  subst h
  rw [Bytes.fit, List.take_left, Nat.sub_self]
  exact List.append_nil b

theorem drop_append_of_eq {n : Nat} {b rest : Bytes} (h : n = b.length) :
    (b ++ rest).drop n = rest := by
  rw [h, List.drop_left]

theorem decode_encode {h : Header} (hf : h.Framed) : decode h.encode = h := by
  have hwords := length_flatMap_ofWord h.words
  have hiv : h.encode.drop ivOffset = h.iv ++ (h.keyId ++ h.subsamples) := by
    rw [hf.encode_eq]
    exact drop_append_of_eq (by rw [hwords]; rfl)
  have hkeyId : h.encode.drop keyIdOffset = h.keyId ++ h.subsamples := by
    rw [show keyIdOffset = ivOffset + maxIvLength from rfl, ← List.drop_drop, hiv]
    exact drop_append_of_eq hf.iv.symm
  have hsubsamples : h.encode.drop subsamplesOffset = h.subsamples := by
    rw [show subsamplesOffset = keyIdOffset + maxKeyIdLength from rfl, ← List.drop_drop, hkeyId]
    exact drop_append_of_eq hf.keyId.symm
  have hword (i : Nat) (hi : i < headerWords) :
      Bytes.toWord (h.encode.drop (4 * i)) = h.words.getD i 0 := by
    rw [hf.encode_eq, List.getD_eq_getElem _ _ hi]
    exact toWord_drop_flatMap h.words _ i hi
  unfold decode
  simp only [hiv, hkeyId, hsubsamples, fit_append hf.iv, fit_append hf.keyId]
  rw [← hf.subsamples, Bytes.fit_length, hword 0 (by decide), hword 1 (by decide),
    hword 2 (by decide), hword 3 (by decide), hword 4 (by decide), hword 5 (by decide),
    hword 6 (by decide), hword 7 (by decide), hword 8 (by decide), hword 9 (by decide),
    hword 10 (by decide), hword 11 (by decide)]
  rfl

/-! ## The header of a request -/

/-- The header of a request that has room in one. -/
def describe (r : Request) : Header :=
  let h := { plain r.data.length with initWithLast15 := if r.initWithLast15 then 1 else 0 }
  let h := match r.info with
    | some i => h.withInfo i
    | none => h
  match r.properties with
  | some p => h.withProperties p
  | none => h

/-- Whether a request has room in a header. -/
def Describable (r : Request) : Prop :=
  r.data.length < 4294967296 ∧ ∀ i, r.info = some i → fits i = true

theorem ofRequest_of_describable {r : Request} (h : Describable r) :
    ofRequest r = .ok (describe r) := by
  unfold ofRequest
  rw [if_neg (by have := h.1; omega), if_neg]
  · rfl
  · cases hinfo : r.info with
    | none => simp
    | some i => simp [h.2 i hinfo]

/-- A request without a header is refused as an invalid argument. -/
theorem ofRequest_of_not_describable {r : Request} (h : ¬ Describable r) :
    ofRequest r = .error .invalidArg := by
  unfold ofRequest
  split
  · rfl
  · next hlength =>
    rw [if_pos]
    by_contra hany
    refine h ⟨by omega, fun i hi => ?_⟩
    simpa [hi] using hany

/-- Data of which the length has a word: what has no room is the description. -/
theorem exists_fits_eq_false {r : Request} (hlength : r.data.length < 4294967296)
    (h : ¬ Describable r) : ∃ i, r.info = some i ∧ fits i = false := by
  by_contra hnone
  refine h ⟨hlength, fun i hi => ?_⟩
  cases hfits : fits i with
  | true => rfl
  | false => exact absurd ⟨i, hi, hfits⟩ hnone

theorem fits_eq_true_iff {i : SampleInfo} : fits i = true ↔
    i.iv.length ≤ maxIvLength ∧ i.keyId.length ≤ maxKeyIdLength ∧
      i.subsamples.length ≤ maxSubsamples := by
  simp only [fits, Bool.and_eq_true, decide_eq_true_eq, and_assoc]

theorem fits_eq_false_iff {i : SampleInfo} : fits i = false ↔
    maxIvLength < i.iv.length ∨ maxKeyIdLength < i.keyId.length ∨
      maxSubsamples < i.subsamples.length := by
  rw [← Bool.not_eq_true, fits_eq_true_iff]
  omega

theorem ofRequest_eq_ok_iff {r : Request} {h : Header} :
    ofRequest r = .ok h ↔ Describable r ∧ h = describe r := by
  constructor
  · intro hr
    by_cases hd : Describable r
    · rw [ofRequest_of_describable hd] at hr
      exact ⟨hd, (Except.ok.inj hr).symm⟩
    · rw [ofRequest_of_not_describable hd] at hr
      cases hr
  · rintro ⟨hd, rfl⟩
    exact ofRequest_of_describable hd

theorem framed_describe (r : Request) : (describe r).Framed := by
  unfold describe
  cases r.info <;> cases r.properties <;>
    exact ⟨by simp [withInfo, withProperties, plain], by simp [withInfo, withProperties, plain],
      by simp [withInfo, withProperties, plain]⟩

/-! ## What the header of a request says -/

theorem dataLength_describe {r : Request} (h : Describable r) :
    (describe r).dataLength.toNat = r.data.length := by
  have hlength : (UInt32.ofNat r.data.length).toNat = r.data.length :=
    UInt32.toNat_ofNat_of_lt' h.1
  unfold describe
  cases r.info <;> cases r.properties <;> exact hlength

theorem initWithLast15_describe (r : Request) :
    ((describe r).initWithLast15 != 0) = r.initWithLast15 := by
  unfold describe
  cases r.info <;> cases r.properties <;> cases r.initWithLast15 <;> rfl

theorem mediaProperties_describe (r : Request) : (describe r).mediaProperties = r.properties := by
  unfold describe
  cases r.info <;> cases r.properties <;>
    simp [mediaProperties, withProperties, withInfo, plain, MediaProperties.ofWords,
      MediaType.ofRaw_raw]

theorem decodeSubsample_encodeSubsample (s : SubSample) (rest : Bytes) :
    decodeSubsample (encodeSubsample s ++ rest) = s := by
  unfold decodeSubsample encodeSubsample
  rw [List.append_assoc, Bytes.toWord_ofWord_append,
    drop_append_of_eq (Bytes.length_ofWord _).symm, Bytes.toWord_ofWord_append]
  have hclear : UInt16.ofNat s.clearBytes.toUInt32.toNat = s.clearBytes := by
    rw [UInt16.toNat_toUInt32, UInt16.ofNat_toNat]
  rw [hclear]

theorem decodeSubsamples_encode (l : List SubSample) (rest : Bytes) :
    decodeSubsamples l.length (l.flatMap encodeSubsample ++ rest) = l := by
  induction l with
  | nil => rfl
  | cons s l ih =>
    rw [List.flatMap_cons, List.append_assoc, List.length_cons, decodeSubsamples,
      decodeSubsample_encodeSubsample, drop_append_of_eq (by rfl), ih]

theorem length_flatMap_encodeSubsample (l : List SubSample) :
    (l.flatMap encodeSubsample).length = 8 * l.length := by
  induction l with
  | nil => rfl
  | cons s l ih =>
    rw [List.flatMap_cons, List.length_append, ih, List.length_cons]
    simp only [encodeSubsample, List.length_append, Bytes.length_ofWord]
    omega

/-- A field that is wide enough for a byte string starts with it. -/
theorem fit_of_le {n : Nat} {b : Bytes} (h : b.length ≤ n) :
    Bytes.fit n b = b ++ Bytes.zeros (n - b.length) := by
  rw [Bytes.fit, List.take_of_length_le h]

theorem take_fit {n : Nat} {b : Bytes} (h : b.length ≤ n) (hn : n < UInt32.size) :
    (Bytes.fit n b).take (min (UInt32.ofNat b.length).toNat n) = b := by
  rw [UInt32.toNat_ofNat_of_lt' (Nat.lt_of_le_of_lt h hn), Nat.min_eq_left h, fit_of_le h,
    List.take_left]

theorem sampleInfo_withInfo (h : Header) {i : SampleInfo} (hi : fits i = true) :
    (h.withInfo i).sampleInfo = i := by
  obtain ⟨hiv, hkeyId, hsubsamples⟩ := fits_eq_true_iff.1 hi
  have hcount : min (UInt32.ofNat i.subsamples.length).toNat maxSubsamples =
      i.subsamples.length := by
    rw [UInt32.toNat_ofNat_of_lt' (Nat.lt_of_le_of_lt hsubsamples (by decide))]
    exact Nat.min_eq_left hsubsamples
  have hmap : (i.subsamples.flatMap encodeSubsample).length ≤ 8 * maxSubsamples := by
    rw [length_flatMap_encodeSubsample]
    omega
  simp only [sampleInfo, withInfo, EncryptionScheme.ofRaw?_raw, Option.getD_some,
    take_fit hiv (by decide), take_fit hkeyId (by decide), hcount, fit_of_le hmap,
    decodeSubsamples_encode]

/-- What a header says of a sample that is not described: the sample is clear. -/
def undescribed : SampleInfo := { scheme := .clear }

theorem sampleInfo_describe {r : Request} (h : Describable r) :
    (describe r).sampleInfo = r.info.getD undescribed := by
  unfold describe
  cases hinfo : r.info with
  | none => cases r.properties <;> rfl
  | some i =>
    have hi := sampleInfo_withInfo
      { plain r.data.length with initWithLast15 := if r.initWithLast15 then 1 else 0 } (h.2 i hinfo)
    cases r.properties <;> exact hi

end Header

/-! ## What a server is given -/

/-- The request as a server is to be given it. -/
def Request.delivery (r : Request) : Delivery where
  info := r.info.getD Header.undescribed
  initWithLast15 := r.initWithLast15
  properties := r.properties
  data := r.data

theorem Request.delivery_of_reads {r : Request} {capacity : Nat} {o : SharedObject}
    (hr : Header.Describable r) (hfits : r.data.length ≤ capacity)
    (hheader : o.read headerOffset headerSize = (Header.describe r).encode)
    (hdata : o.read dataOffset r.data.length = r.data) :
    Delivery.ofObject capacity o = r.delivery := by
  simp only [Delivery.ofObject, Request.delivery]
  rw [hheader, Header.decode_encode (Header.framed_describe r), Header.sampleInfo_describe hr,
    Header.initWithLast15_describe, Header.mediaProperties_describe,
    Header.dataLength_describe hr, Nat.min_eq_left hfits, hdata]

end Channel

end ContentDecryption
