import ContentDecryption.Proofs.Channel.Record

/-!
# The header in the memory

A call writes its header in full, and nobody writes there but a call. So the header
that stands in the memory is a function of the call that wrote last: whatever was
longer in an earlier request has gone with it. A handler that runs finds there what
its own call has said of the sample, and with it the data of that call.

A request that a handler is given has room in a header. `Header.ofRequest` refuses the
others, and it refuses no request that has room.

Main definitions:

* `Traffic.Written`: the header in the memory is that of the call which wrote last.

Main results:

* `Traffic.written_run`: this holds in every run;
* `Header.ofRequest_eq_error_iff`, `Header.ofRequest_eq_describe_iff`: which requests are refused;
* `Traffic.request_fidelity`: a handler is given what its call has sent.
-/

namespace ContentDecryption

namespace Channel

/-! ## Which requests have a header -/

namespace Header

section

variable {r : Request} (h : r.data.length < UInt32.size)

include h

theorem ofRequest_eq_error_iff :
    ofRequest r = .error .invalidArg ↔ ∃ i, r.info = some i ∧ fits i = false := by
  constructor
  · intro herror
    refine exists_fits_eq_false h fun hr => ?_
    rw [ofRequest_of_describable hr] at herror
    cases herror
  · rintro ⟨i, hi, hfits⟩
    refine ofRequest_of_not_describable fun hr => ?_
    rw [hr.2 i hi] at hfits
    cases hfits

theorem ofRequest_eq_describe_iff :
    ofRequest r = .ok (describe r) ↔ ∀ i, r.info = some i → fits i = true := by
  rw [ofRequest_eq_ok_iff, Describable, and_iff_left rfl]
  exact and_iff_right h

end

end Header

/-- The length of data that has room at a channel has a word. -/
theorem Attachment.capacityOf_lt (o : SharedObject) : capacityOf o < UInt32.size :=
  Nat.lt_of_le_of_lt (Nat.min_le_left ..) (o.word capacityOffset).toNat_lt

/-! ## What a move does to the header -/

/-- A call writes its header in full, or the header in the memory stays as it is. -/
theorem ClientCall.Move.header_cases {c : ClientCall} {o : SharedObject}
    {next : ClientCall × SharedObject} (move : c.Move o next) (hsize : dataOffset ≤ o.size) :
    (c.stage = .filling ∧ next.2.read headerOffset headerSize = c.header.encode) ∨
      (c.stage.isFilling = false ∧
        next.2.read headerOffset headerSize = o.read headerOffset headerSize) := by
  have hpublish (p : Phase) : (publish o p).read headerOffset headerSize =
      o.read headerOffset headerSize := read_publish o p (by decide)
  cases move with
  | fill stage => exact .inl ⟨stage, c.read_fill_header hsize⟩
  | acquire stage | discard stage | submit stage | collect stage | withdraw stage | drop stage
  | release stage => exact .inr ⟨by rw [stage]; rfl, hpublish _⟩
  | notice stage | giveUp stage | overtaken stage | expire stage | miss stage | abandon stage
  | read stage => exact .inr ⟨by rw [stage]; rfl, rfl⟩
  | rest stage => exact .inr ⟨ClientStage.isFilling_of_phase? stage, rfl⟩

/-- A server leaves the header alone. -/
theorem ServerRun.Move.read_header {handler : Handler} {s : ServerRun} {o : SharedObject}
    {next : ServerRun × SharedObject} (move : s.Move handler o next) :
    next.2.read headerOffset headerSize = o.read headerOffset headerSize := by
  cases move with
  | take | complete => exact read_publish o _ (by decide)
  | expire | rest => rfl
  | handle =>
    refine SharedObject.read_congr (size_answerIn handler s.capacity o) fun k _ hk => ?_
    exact byte_answerIn handler s.capacity o (Nat.lt_of_lt_of_le hk headerEnd_le_dataOffset)
  | report =>
    exact SharedObject.read_write_of_disjoint o (.inr (by rw [Bytes.length_ofWord]; decide))

namespace Traffic

/-! ## The call that wrote last -/

/-- The header in the memory is that of the call which wrote last, in full. -/
def Written (t : Traffic) : Prop :=
  ∀ (i : Nat) (c : Caller), t.writer = some i → t.callers[i]? = some c →
    t.object.read headerOffset headerSize = (Header.describe c.request).encode

theorem Written.client {t : Traffic} (h : t.Written) (hg : t.Guarded) (hsound : t.Sound) {i : Nat}
    {c : Caller} {next : ClientCall × SharedObject} (hc : t.callers[i]? = some c)
    (move : c.call.Move t.object next) : (t.afterClient i c next).Written := by
  have hroom : dataOffset ≤ t.object.size := by
    rw [hg.size, objectSize]
    omega
  intro k d hk hd
  rw [callers_afterClient hc] at hd
  rcases move.header_cases hroom with ⟨hfilling, hread⟩ | ⟨hfilling, hread⟩
  · rw [afterClient, hfilling] at hk
    cases hk
    rw [if_pos rfl] at hd
    cases hd
    obtain ⟨-, hheader, -⟩ := (hsound.callers c (List.mem_of_getElem? hc)).header (by
      rw [ClientCall.isOver, ClientCall.result?, hfilling]
      rfl)
    exact hread.trans (congrArg Header.encode hheader)
  · rw [afterClient, hfilling] at hk
    refine Eq.trans hread ?_
    split_ifs at hd with hik
    · subst hik
      cases hd
      exact h i c hk hc
    · exact h k d hk hd

theorem Written.server {t : Traffic} (h : t.Written) {j : Nat} {w : Worker}
    {next : ServerRun × SharedObject} (move : w.run.Move w.handler t.object next) :
    (t.afterServer j w next).Written := by
  intro k d hk hd
  rw [callers_afterServer] at hd
  refine Eq.trans move.read_header ?_
  split_ifs at hd
  · obtain ⟨c, hc, rfl⟩ := Option.map_eq_some_iff.1 hd
    rw [request_credit]
    exact h k c hk hc
  · exact h k d hk hd

theorem Written.step {t t' : Traffic} (h : t.Written) (hg : t.Guarded) (hsound : t.Sound)
    (hrecorded : t.Recorded) (hs : Step t t') : t'.Written := by
  cases hs with
  | stay => exact h
  | serve => exact h
  | call =>
    intro i c hwriter hc
    rcases getElem?_concat_cases hc with hold | ⟨rfl, -⟩
    · exact h i c hwriter hold
    · exact absurd (hrecorded.writer hwriter) (Nat.lt_irrefl _)
  | client caller move => exact h.client hg hsound caller move
  | server worker move => exact h.server move

theorem written_run (capacity : Nat) (acts : List Act) : (run capacity acts).Written := by
  have h : (run capacity acts).Sound ∧ (run capacity acts).Recorded ∧
      (run capacity acts).Written := by
    refine guarded_induction (P := fun t => t.Sound ∧ t.Recorded ∧ t.Written)
      ⟨sound_run capacity [], recorded_start capacity, fun _ _ hwriter => nomatch hwriter⟩ ?_ acts
    rintro t t' hg ⟨hsound, hrecorded, hwritten⟩ hs
    exact ⟨hsound.step hg.lent hs, hrecorded.step hg hsound hs, hwritten.step hg hsound hrecorded hs⟩
  exact h.2.2

/-! ## What a handler is given -/

/-- A server whose handler is to run has the request of the call that wrote last. -/
theorem Recorded.handling {t : Traffic} (h : t.Recorded) {j : Nat} {w : Worker}
    (hw : t.workers[j]? = some w) (hstage : w.run.stage = .handling) :
    ∃ (i : Nat) (c : Caller), t.writer = some i ∧ t.callers[i]? = some c ∧ c.takenBy = [j] ∧
      Delivery.ofObject t.capacity t.object = c.request.delivery := by
  obtain ⟨i, e, hwriter, he, htaken, hdelivery⟩ := h.shows (s := .taken j)
    (.inr ⟨.server j, by rw [shows?, said_server hw, hstage]; rfl⟩)
  rw [getElem?_ledger] at he
  obtain ⟨c, hc, rfl⟩ := Option.map_eq_some_iff.1 he
  exact ⟨i, c, hwriter, hc, htaken, hdelivery⟩

/-- A server has the request of one call at most. -/
theorem Recorded.eq_of_mem_takenBy {t : Traffic} (h : t.Recorded) {i k j : Nat} {c d : Caller}
    (hc : t.callers[i]? = some c) (hd : t.callers[k]? = some d) (hj : j ∈ c.takenBy)
    (hj' : j ∈ d.takenBy) : i = k ∧ c = d := by
  have hik : i = k := h.booked.apart (e := c.entry) (f := d.entry)
    (by rw [getElem?_ledger, hc]; rfl) (by rw [getElem?_ledger, hd]; rfl) hj hj'
  subst hik
  exact ⟨rfl, Option.some.inj (hc.symm.trans hd)⟩

/-- A server that has run its handler, or is to run it, has the request of a call. -/
theorem Recorded.exists_mem_takenBy {t : Traffic} (h : t.Recorded) (hsound : t.Sound) {j : Nat}
    {w : Worker} (hw : t.workers[j]? = some w)
    (hran : w.run.stage = .handling ∨ w.run.seen.isSome) :
    ∃ (i : Nat) (c : Caller), t.callers[i]? = some c ∧ j ∈ c.takenBy := by
  have htaken : w.run.stage.hasTaken = true := by
    rcases hran with hstage | hseen
    · rw [hstage]
      rfl
    · obtain ⟨d, hd⟩ := Option.isSome_iff_exists.1 hseen
      exact hsound.hasTaken hw (x := ⟨j, w.handler, d⟩) (by rw [service?_of_worker hw, hd]; rfl)
  obtain ⟨i, e, he, hj⟩ := h.booked.credited hw htaken
  rw [getElem?_ledger] at he
  obtain ⟨c, hc, rfl⟩ := Option.map_eq_some_iff.1 he
  exact ⟨i, c, hc, hj⟩

/-- What a handler was given is the request of the call that the server has. -/
theorem Recorded.given_eq {t : Traffic} (h : t.Recorded) {i j : Nat} {c : Caller} {x : Service}
    (hc : t.callers[i]? = some c) (hx : t.service? j = some x) (hj : j ∈ c.takenBy) :
    x.given = c.request.delivery := by
  obtain ⟨v, hv, -, hdelivery⟩ := h.booked.taken (i := i) (e := c.entry)
    (by rw [getElem?_ledger, hc]; rfl) hj
  rw [service?_of_worker hv] at hx
  obtain ⟨d, hseen, rfl⟩ := Option.map_eq_some_iff.1 hx
  exact hdelivery d hseen

/-- **A handler is given what its call has sent.** In every run of any servers at a channel and any
calls, whatever came before, was served, failed or was taken back:

* from when a call has written its request until another one writes, the header in the memory is
  the one that this call's request alone describes, to the last byte;
* when a server runs its handler for a call, this is the header in the memory, and the description,
  the size hint, the flag and the data that it gives to the handler are those of the call, with a
  clear sample where the call describes none;
* the same holds of every handler run that is over, and no handler runs for no call;
* a request with data that has room at a channel is refused as an invalid argument exactly if its
  description is longer than the fields of a header. -/
theorem request_fidelity (capacity : Nat) (acts : List Act) :
    (∀ (i : Nat) (c : Caller), (run capacity acts).writer = some i →
      (run capacity acts).callers[i]? = some c →
      (run capacity acts).object.read headerOffset headerSize =
        (Header.describe c.request).encode) ∧
    (∀ (i j : Nat) (c : Caller) (w : Worker), (run capacity acts).callers[i]? = some c →
      (run capacity acts).workers[j]? = some w → j ∈ c.takenBy → w.run.stage = .handling →
      (run capacity acts).writer = some i ∧
      Delivery.ofObject w.run.capacity (run capacity acts).object =
        { info := c.request.info.getD { scheme := .clear }
          initWithLast15 := c.request.initWithLast15
          properties := c.request.properties
          data := c.request.data }) ∧
    (∀ (i j : Nat) (c : Caller) (x : Service), (run capacity acts).callers[i]? = some c →
      (run capacity acts).service? j = some x → j ∈ c.takenBy →
      x.given =
        { info := c.request.info.getD { scheme := .clear }
          initWithLast15 := c.request.initWithLast15
          properties := c.request.properties
          data := c.request.data }) ∧
    (∀ (j : Nat) (w : Worker), (run capacity acts).workers[j]? = some w →
      w.run.stage = .handling ∨ w.run.seen.isSome →
      ∃ (i : Nat) (c : Caller), (run capacity acts).callers[i]? = some c ∧ j ∈ c.takenBy) ∧
    (∀ (o : SharedObject) (r : Request), r.data.length ≤ Attachment.capacityOf o →
      (Header.ofRequest r = .error .invalidArg ↔ ∃ i, r.info = some i ∧
        (16 < i.iv.length ∨ 16 < i.keyId.length ∨ 256 < i.subsamples.length)) ∧
      (Header.ofRequest r = .ok (Header.describe r) ↔ ∀ i, r.info = some i →
        i.iv.length ≤ 16 ∧ i.keyId.length ≤ 16 ∧ i.subsamples.length ≤ 256)) := by
  have hrecorded := recorded_run capacity acts
  have hsound := sound_run capacity acts
  refine ⟨written_run capacity acts, fun i j c w hc hw hj hstage => ?_,
    fun i j c x hc hx hj => hrecorded.given_eq hc hx hj,
    fun j w hw hran => hrecorded.exists_mem_takenBy hsound hw hran, fun o r hroom => ?_⟩
  · obtain ⟨k, d, hwriter, hd, htaken, hdelivery⟩ := hrecorded.handling hw hstage
    obtain ⟨rfl, rfl⟩ := hrecorded.eq_of_mem_takenBy hc hd hj
      (by rw [htaken]; exact List.mem_singleton.2 rfl)
    refine ⟨hwriter, ?_⟩
    rw [(hsound.workers w (List.mem_of_getElem? hw)).capacity]
    exact hdelivery
  · have hlength := Nat.lt_of_le_of_lt hroom (Attachment.capacityOf_lt o)
    constructor
    · rw [Header.ofRequest_eq_error_iff hlength]
      simp only [Header.fits_eq_false_iff]
      rfl
    · rw [Header.ofRequest_eq_describe_iff hlength]
      simp only [Header.fits_eq_true_iff]
      rfl

/-- A call fills every field of its header and takes it back. The next call has a shorter IV, no
key ID and no sub-samples, and a server takes it. -/
def shorterAfterLonger : List Act :=
  let client : Attachment := ⟨"/channel", 0, 8, 10, 0, "lock"⟩
  [.call client false
      { data := [1, 2, 3, 4]
        info := some
          { scheme := .aesCbcCbcs
            pattern := ⟨1, 9⟩
            iv := List.replicate 16 255
            keyId := List.replicate 16 238
            subsamples := [⟨5, 10⟩, ⟨7, 70000⟩] }
        properties := some ⟨720, 1280, .video⟩ },
    .client 0 false, .client 0 false, .client 0 false, .client 0 true, .client 0 true,
    .call client false
      { data := [9], info := some { scheme := .aesCtrCenc, iv := [1, 2] }, initWithLast15 := true },
    .serve fun _ => (Status.none, []), .client 1 false, .client 1 false, .client 1 false,
    .server 0 false]

theorem request_fidelity_shorterAfterLonger :
    let t := run 8 shorterAfterLonger
    let info : SampleInfo := { scheme := .aesCtrCenc, iv := [1, 2] }
    t.object.read headerOffset headerSize =
        (Header.describe { data := [9], info := some info, initWithLast15 := true }).encode ∧
      Delivery.ofObject 8 t.object =
        { info, initWithLast15 := true, properties := none, data := [9] } := by
  have hcaller : ((run 8 shorterAfterLonger).callers[1]?).map
      (fun c => (c.request, c.takenBy)) =
      some ({ data := [9]
              info := some { scheme := .aesCtrCenc, iv := [1, 2] }
              initWithLast15 := true }, [0]) := by decide +kernel
  have hworker : ((run 8 shorterAfterLonger).workers[0]?).map
      (fun w => (w.run.capacity, w.run.stage)) = some (8, .handling) := by decide +kernel
  obtain ⟨c, hc, hrequest⟩ := Option.map_eq_some_iff.1 hcaller
  obtain ⟨w, hw, hserver⟩ := Option.map_eq_some_iff.1 hworker
  obtain ⟨hrequest, htaken⟩ := Prod.mk.inj hrequest
  obtain ⟨hcapacity, hstage⟩ := Prod.mk.inj hserver
  obtain ⟨hwritten, hhandling, -⟩ := request_fidelity 8 shorterAfterLonger
  obtain ⟨hwriter, hdelivery⟩ := hhandling 1 0 c w hc hw
    (by rw [htaken]; exact List.mem_singleton.2 rfl) hstage
  have hheader := hwritten 1 c hwriter hc
  rw [hrequest] at hheader hdelivery
  rw [hcapacity] at hdelivery
  exact ⟨hheader, hdelivery⟩

end Traffic

end Channel

end ContentDecryption
