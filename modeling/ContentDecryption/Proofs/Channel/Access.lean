import ContentDecryption.Proofs.Channel.Program

/-!
# What the two ends touch

Whatever other processes write into a channel, the two ends stay inside its object. A client
trusts the capacity that it has found there only as far as there is room, and a server trusts
no length of a header. What each of them may change is fixed by its own request or by the
header that it has read, which it reads once.

Main results:

* `Attachment.keeps_probe`: what a client takes for the capacity is inside the object;
* `ClientCall.Bounded.step`, `ServerRun.Bounded.step`: what the accesses of one step keep to;
* `accesses_inside`: what the accesses of attaching, decrypting and serving keep to.
-/

namespace ContentDecryption

namespace Channel

/-! ## What single accesses keep to -/

/-- An access inside an object of this size that changes only such bytes. -/
structure Access.Within (size : Nat) (May : Nat → Prop) (x : Access) : Prop where
  inside : x.stop ≤ size
  changes : ∀ {o k}, (Event.mk x o).Changes k → May k

namespace Access

variable {size : Nat} {May : Nat → Prop}

theorem within_read {start length : Nat} (h : start + length ≤ size) :
    (read start length).Within size May :=
  ⟨h, fun hk => absurd rfl hk⟩

theorem within_of_range {x : Access} (h : x.stop ≤ size)
    (hmay : ∀ k, x.start ≤ k → k < x.stop → May k) : x.Within size May :=
  ⟨h, fun hk => hmay _ hk.within.1 hk.within.2⟩

end Access

/-! ## Attaching -/

namespace Attachment

/-- A probe reads the control block, if the object has one, and changes nothing. What it takes for
the capacity is inside the object, whatever the object says. -/
theorem keeps_probe (size : Nat) :
    (probe size).Keeps size
      (fun x => dataOffset ≤ size ∧ x.Within (headerOffset + headerSize) fun _ => False)
      (fun result => ∀ capacity, result = .ok capacity → dataOffset + capacity ≤ size) := by
  unfold probe
  split_ifs with hsize
  · exact Program.keeps_done fun capacity h => nomatch h
  have hroom : dataOffset ≤ size := by omega
  refine Program.keeps_access ⟨hroom, Access.within_read (by decide)⟩ fun o _ => ?_
  split_ifs with hmark
  · exact Program.keeps_done fun capacity h => nomatch h
  refine Program.keeps_access ⟨hroom, Access.within_read (by decide)⟩ fun o' _ => ?_
  refine Program.keeps_done fun capacity h => ?_
  cases h
  have hle := Nat.min_le_right (Bytes.toWord ((Access.read capacityOffset 4).reply o')).toNat
    (size - dataOffset)
  omega

end Attachment

/-! ## Decrypting -/

/-- Where a decrypt call may change the object: the handshake word, the header, and as many bytes
of data as the request has, all of them before the reserved ones. -/
def Attachment.MayChange (a : Attachment) (r : Request) (k : Nat) : Prop :=
  (stateOffset ≤ k ∧ k < stateOffset + 4) ∨
    (headerOffset ≤ k ∧ k < headerOffset + headerSize) ∨
    (dataOffset ≤ k ∧ k < dataOffset + r.data.length ∧ k + a.reserved < dataOffset + a.capacity)

namespace ClientCall

/-- A call of a client with this request: its buffer has the length of the data, and the data has
room unless the call is over. -/
structure Bounded (a : Attachment) (r : Request) (c : ClientCall) : Prop where
  data : c.data.length = r.data.length
  room : c.result? = none → r.data.length + a.reserved ≤ a.capacity

variable {a : Attachment} {r : Request} {size : Nat} {c : ClientCall}

theorem bounded_start (a : Attachment) (poisoned : Bool) (r : Request) :
    Bounded a r (a.start poisoned r) := by
  cases hheader : a.headerFor poisoned r with
  | error e =>
    rw [Attachment.start_of_error hheader]
    exact ⟨rfl, fun h => nomatch h⟩
  | ok header =>
    rw [Attachment.start_of_ok hheader]
    exact ⟨rfl, fun _ => (Attachment.describable_of_header hheader).2.2⟩

/-- A call that goes on without reading the data. -/
theorem Bounded.to_stage (h : Bounded a r c) (hc : c.result? = none) (stage : ClientStage) :
    Bounded a r { c with stage } :=
  ⟨h.data, fun _ => h.room hc⟩

/-- One step of a call, in an object that the client's capacity is inside of. -/
theorem Bounded.step (h : Bounded a r c) (hsize : dataOffset + a.capacity ≤ size)
    (expired : Bool) :
    (c.program expired).Keeps size (fun x => x.Within size (a.MayChange r)) (Bounded a r) := by
  have hstate : stateOffset + 4 ≤ size := by
    simp only [stateOffset, dataOffset_eq] at hsize ⊢
    omega
  have hmove (source target : Phase) : (Access.move source target).Within size (a.MayChange r) :=
    Access.within_of_range hstate fun k h1 h2 => .inl ⟨h1, h2⟩
  have hpublish (p : Phase) : (Access.publish p).Within size (a.MayChange r) :=
    Access.within_of_range hstate fun k h1 h2 => .inl ⟨h1, h2⟩
  obtain ⟨result, hfinished⟩ | hlive :
      (∃ result, c.stage = .finished result) ∨ c.result? = none := by
    cases hstage : c.stage with
    | finished result => exact .inl ⟨result, rfl⟩
    | _ => exact .inr (by rw [result?, hstage])
  · rw [program, hfinished]
    exact Program.keeps_done h
  have hroom := h.room hlive
  have hdata := h.data
  have hheader := Header.length_encode c.header
  have hto := h.to_stage hlive
  cases hstage : c.stage with
  | acquiring =>
    rw [program, hstage]
    refine Program.keeps_access (hmove ..) fun o _ => Program.keeps_done ?_
    split_ifs
    exacts [hto _, hto _, hto _, h]
  | discarding =>
    rw [program, hstage]
    exact Program.keeps_access (hmove ..) fun o _ => Program.keeps_done (hto _)
  | filling =>
    rw [program, hstage]
    refine Program.keeps_access (Access.within_of_range ?_ fun k h1 h2 => ?_) fun o _ =>
      Program.keeps_access (Access.within_of_range ?_ fun k h1 h2 => ?_) fun o' _ =>
        Program.keeps_done (hto _)
    · simp only [Access.stop, hheader]
      have := headerEnd_le_dataOffset
      omega
    · simp only [Access.start, Access.stop, hheader] at h1 h2
      exact .inr (.inl ⟨h1, h2⟩)
    · simp only [Access.stop]
      omega
    · simp only [Access.start, Access.stop] at h1 h2
      exact .inr (.inr ⟨h1, by omega, by omega⟩)
  | submitting =>
    rw [program, hstage]
    exact Program.keeps_access (hpublish _) fun o _ => Program.keeps_done (hto _)
  | awaiting =>
    rw [program, hstage]
    refine Program.keeps_access (hmove ..) fun o _ => Program.keeps_done ?_
    split_ifs
    exacts [hto _, hto _, h]
  | withdrawing =>
    rw [program, hstage]
    refine Program.keeps_access (hmove ..) fun o _ => Program.keeps_done ?_
    split_ifs
    exacts [hto _, hto _]
  | dropping =>
    rw [program, hstage]
    exact Program.keeps_access (hmove ..) fun o _ => Program.keeps_done (hto _)
  | collecting =>
    rw [program, hstage]
    refine Program.keeps_access (Access.within_read (by omega)) fun o ho =>
      Program.keeps_access (Access.within_read ?_) fun o' _ =>
        Program.keeps_done ⟨?_, fun _ => hroom⟩
    · simp only [statusOffset, dataOffset_eq] at hsize ⊢
      omega
    · -- The object reaches as far as the data, so the buffer is filled.
      simp only [Access.reply, SharedObject.length_read]
      omega
  | releasing status =>
    rw [program, hstage]
    exact Program.keeps_access (hpublish _) fun o _ => Program.keeps_done (hto _)
  | finished result =>
    rw [program, hstage]
    exact Program.keeps_done h

end ClientCall

/-! ## Serving -/

/-- The headers that are read by a list of accesses. -/
def headersRead (trace : List Event) : List Header :=
  trace.filterMap fun e =>
    if e.access = .read headerOffset headerSize then some (Header.decode (e.access.reply e.found))
    else none

theorem headersRead_append (l r : List Event) :
    headersRead (l ++ r) = headersRead l ++ headersRead r := List.filterMap_append

/-- What a header says about a sample is no longer than its fields, whatever it holds. -/
theorem Header.lengths_sampleInfo (h : Header) :
    h.sampleInfo.iv.length ≤ 16 ∧ h.sampleInfo.keyId.length ≤ 16 ∧
      h.sampleInfo.subsamples.length ≤ 256 := by
  refine ⟨?_, ?_, ?_⟩
  · exact Nat.le_trans (List.length_take_le ..) (Nat.min_le_right ..)
  · exact Nat.le_trans (List.length_take_le ..) (Nat.min_le_right ..)
  · rw [sampleInfo, length_decodeSubsamples]
    exact Nat.min_le_right ..

namespace ServerRun

/-- Where a server may change the object once it has read these headers: the handshake word, the
status word, and as much of the data as it takes from one of the requests. -/
def MayChange (capacity : Nat) (headers : List Header) (k : Nat) : Prop :=
  (stateOffset ≤ k ∧ k < stateOffset + 4) ∨ (statusOffset ≤ k ∧ k < statusOffset + 4) ∨
    ∃ h ∈ headers, dataOffset ≤ k ∧ k < dataOffset + h.taken capacity

theorem MayChange.mono {capacity : Nat} {before after : List Header} {k : Nat}
    (h : MayChange capacity before k) (hsub : ∀ x ∈ before, x ∈ after) :
    MayChange capacity after k := by
  rcases h with hstate | hstatus | ⟨x, hx, hk⟩
  · exact .inl hstate
  · exact .inr (.inl hstatus)
  · exact .inr (.inr ⟨x, hsub x hx, hk⟩)

/-- A server that has made these accesses, in an object of this size: it has read at most one
header, and what it has changed and what it has seen is what that header allows. -/
structure Bounded (size capacity : Nat) (past : List Event) (s : ServerRun) : Prop where
  own : s.capacity = capacity
  inside : ∀ e ∈ past, e.access.stop ≤ size
  changes : ∀ e ∈ past, ∀ k, e.Changes k → MayChange capacity (headersRead past) k
  once : (headersRead past).length ≤ 1
  unread : s.stage = .waiting ∨ s.stage = .handling → headersRead past = []
  seen : ∀ d, s.seen = some d → ∃ h ∈ headersRead past, d.info = h.sampleInfo

variable {size capacity : Nat} {past now : List Event} {s s' : ServerRun} {handler : Handler}

theorem bounded_start (size capacity : Nat) : Bounded size capacity [] { capacity } where
  own := rfl
  inside := fun _ he => nomatch he
  changes := fun _ he => nomatch he
  once := Nat.zero_le 1
  unread := fun _ => rfl
  seen := fun _ hd => nomatch hd

/-- Some more accesses. What the server may change by them is what the headers read so far
allow. -/
theorem Bounded.extend (h : Bounded size capacity past s) (hown : s'.capacity = s.capacity)
    (hnow : ∀ e ∈ now, e.access.Within size (MayChange capacity (headersRead (past ++ now))))
    (honce : (headersRead (past ++ now)).length ≤ 1)
    (hunread : s'.stage = .waiting ∨ s'.stage = .handling → headersRead (past ++ now) = [])
    (hseen : ∀ d, s'.seen = some d → ∃ h ∈ headersRead (past ++ now), d.info = h.sampleInfo) :
    Bounded size capacity (past ++ now) s' := by
  refine ⟨hown.trans h.own, fun e he => ?_, fun e he k hk => ?_, honce, hunread, hseen⟩
  · rcases List.mem_append.1 he with hpast | hlast
    · exact h.inside e hpast
    · exact (hnow e hlast).inside
  · rcases List.mem_append.1 he with hpast | hlast
    · refine (h.changes e hpast k hk).mono fun x hx => ?_
      rw [headersRead_append]
      exact List.mem_append_left _ hx
    · exact (hnow e hlast).changes hk

/-- An access that reads no header and changes no data. -/
theorem Bounded.quiet (h : Bounded size capacity past s) {x : Access} {o : SharedObject}
    (hown : s'.capacity = s.capacity) (hseen : s'.seen = s.seen)
    (hread : headersRead [⟨x, o⟩] = [])
    (hstage : s'.stage = .waiting ∨ s'.stage = .handling → s.stage = .waiting)
    (hx : x.Within size (MayChange capacity [])) :
    Bounded size capacity (past ++ [⟨x, o⟩]) s' := by
  have hheaders : headersRead (past ++ [⟨x, o⟩]) = headersRead past := by
    rw [headersRead_append, hread, List.append_nil]
  refine h.extend hown (fun e he => ?_) ?_ (fun hs => ?_) (fun d hd => ?_)
  · obtain rfl := List.mem_singleton.1 he
    exact ⟨hx.inside, fun hk => (hx.changes hk).mono fun y hy => nomatch hy⟩
  · rw [hheaders]
    exact h.once
  · rw [hheaders]
    exact h.unread (.inl (hstage hs))
  · rw [hheaders]
    exact h.seen d (hseen ▸ hd)

/-- The accesses that serve a request, and what comes of them. -/
theorem under_handling (hstage : s.stage = .handling) {expired : Bool}
    (hu : (s.program handler expired).Under size now s') :
    ∃ (header : Header) (data : Bytes) (o o' o'' : SharedObject),
      header = .decode (o.read headerOffset headerSize) ∧
      data = o'.read dataOffset (header.taken s.capacity) ∧
      now = [⟨.read headerOffset headerSize, o⟩, ⟨.read dataOffset (header.taken s.capacity), o'⟩,
        ⟨.write dataOffset ((handler (.ofHeader header data)).2.take data.length), o''⟩] ∧
      s' = { s with
        seen := some (.ofHeader header data)
        stage := .reporting (handler (.ofHeader header data)).1 } := by
  rw [program, hstage] at hu
  obtain ⟨o, rest, -, hrest, rfl⟩ := Program.under_access_iff.1 hu
  obtain ⟨o', last, -, hlast, rfl⟩ := Program.under_access_iff.1 hrest
  obtain ⟨o'', none, -, hnone, rfl⟩ := Program.under_access_iff.1 hlast
  obtain ⟨rfl, rfl⟩ := Program.under_done_iff.1 hnone
  exact ⟨_, _, o, o', o'', rfl, rfl, rfl, rfl⟩

/-- A request is served. The server takes no more than it has room for, and hands back no more than
it took. -/
theorem Bounded.serve (h : Bounded size capacity past s) (hsize : size = objectSize capacity)
    (hstage : s.stage = .handling) {expired : Bool}
    (hu : (s.program handler expired).Under size now s') :
    Bounded size capacity (past ++ now) s' := by
  obtain ⟨header, data, o, o', o'', hheader, hdata, rfl, rfl⟩ := under_handling hstage hu
  rw [h.own] at hdata ⊢
  generalize (handler (.ofHeader header data)).2 = answer
  have htaken : dataOffset + header.taken capacity ≤ size := by
    have := Nat.min_le_right header.dataLength.toNat capacity
    rw [hsize, objectSize, Header.taken]
    omega
  have hlength : (answer.take data.length).length ≤ header.taken capacity := by
    rw [hdata, SharedObject.length_read]
    exact Nat.le_trans (List.length_take_le ..) (Nat.min_le_left ..)
  have hread : headersRead (past ++
      [⟨.read headerOffset headerSize, o⟩, ⟨.read dataOffset (header.taken capacity), o'⟩,
        ⟨.write dataOffset (answer.take data.length), o''⟩]) = [header] := by
    have hoffset : dataOffset ≠ headerOffset := by decide
    rw [headersRead_append, h.unread (.inr hstage)]
    simp [headersRead, hoffset, hheader, Access.reply]
  refine h.extend h.own.symm ?_ ?_ ?_ ?_
  · rw [hread]
    have hend := headerEnd_le_dataOffset
    intro e he
    rcases List.mem_cons.1 he with rfl | he
    · exact Access.within_read (by omega)
    rcases List.mem_cons.1 he with rfl | he
    · exact Access.within_read htaken
    obtain rfl := List.mem_singleton.1 he
    refine Access.within_of_range ?_ fun k h1 h2 => .inr (.inr ⟨header, by simp, h1, ?_⟩)
    · simp only [Access.stop]
      omega
    · simp only [Access.stop] at h2
      omega
  · rw [hread]
    exact Nat.le_refl 1
  · intro hs
    rcases hs with hs | hs <;> cases hs
  · rw [hread]
    intro d hd
    cases hd
    exact ⟨header, by simp, rfl⟩

/-- One step of a server, in an object of the size that it has made. -/
theorem Bounded.step (h : Bounded size capacity past s) (hsize : size = objectSize capacity)
    {expired : Bool} (hu : (s.program handler expired).Under size now s') :
    Bounded size capacity (past ++ now) s' := by
  have hstate : stateOffset + 4 ≤ size := by
    rw [hsize, objectSize, dataOffset_eq, stateOffset]
    omega
  have hstatus : statusOffset + 4 ≤ size := by
    rw [hsize, objectSize, dataOffset_eq, statusOffset]
    omega
  cases hstage : s.stage with
  | waiting =>
    rw [program, hstage] at hu
    obtain ⟨o, rest, -, hrest, rfl⟩ := Program.under_access_iff.1 hu
    obtain ⟨rfl, rfl⟩ := Program.under_done_iff.1 hrest
    have hmove : (Access.move .produced .decrypting).Within size (MayChange capacity []) :=
      Access.within_of_range hstate fun k h1 h2 => .inl ⟨h1, h2⟩
    split_ifs
    all_goals exact h.quiet rfl rfl rfl (fun _ => hstage) hmove
  | handling => exact h.serve hsize hstage hu
  | reporting status =>
    rw [program, hstage] at hu
    obtain ⟨o, rest, -, hrest, rfl⟩ := Program.under_access_iff.1 hu
    obtain ⟨rfl, rfl⟩ := Program.under_done_iff.1 hrest
    refine h.quiet rfl rfl rfl (fun hs => ?_)
      (Access.within_of_range hstatus fun k h1 h2 => .inr (.inl ⟨h1, h2⟩))
    rcases hs with hs | hs <;> cases hs
  | completing =>
    rw [program, hstage] at hu
    obtain ⟨o, rest, -, hrest, rfl⟩ := Program.under_access_iff.1 hu
    obtain ⟨rfl, rfl⟩ := Program.under_done_iff.1 hrest
    refine h.quiet rfl rfl rfl (fun hs => ?_)
      (Access.within_of_range hstate fun k h1 h2 => .inl ⟨h1, h2⟩)
    rcases hs with hs | hs <;> cases hs
  | finished served =>
    rw [program, hstage] at hu
    obtain ⟨rfl, rfl⟩ := Program.under_done_iff.1 hu
    rw [List.append_nil]
    exact h

end ServerRun

/-! ## All accesses -/

/-- Each access of a call is inside the object, if the capacity is, and changes only what a call may
change. -/
theorem ClientCall.within_of_under {a : Attachment} {size : Nat} {poisoned : Bool} {r : Request}
    {clock : List Bool} {trace : List Event} {c : ClientCall}
    (hsize : dataOffset + a.capacity ≤ size)
    (h : (Program.along program (a.start poisoned r) clock).Under size trace c) :
    ∀ e ∈ trace, e.access.Within size (a.MayChange r) := by
  let Kept (past : List Event) (c : ClientCall) : Prop :=
    (∀ e ∈ past, e.access.Within size (a.MayChange r)) ∧ c.Bounded a r
  have hstep {past : List Event} {c : ClientCall} {expired : Bool} {now : List Event}
      {c' : ClientCall} (hc : Kept past c) (hnow : (c.program expired).Under size now c') :
      Kept (past ++ now) c' := by
    obtain ⟨hwithin, hc'⟩ := hc.2.step hsize expired now c' hnow
    refine ⟨fun e he => ?_, hc'⟩
    rcases List.mem_append.1 he with hpast | hlast
    · exact hc.1 e hpast
    · exact hwithin e hlast
  have hstart : Kept [] (a.start poisoned r) :=
    ⟨fun e he => (nomatch he), bounded_start a poisoned r⟩
  exact (Program.along_induction hstep hstart h).1

/-- A server's object has the size that goes with its capacity. -/
theorem Server.size_of_create {m m' : SharedMemory} {name : String} {capacity : Nat} {s : Server}
    {mappable : Bool} (h : Server.create m name capacity mappable = (.ok s, m')) :
    (m'.object s.object).size = objectSize s.capacity := by
  rcases Server.create_cases m name capacity mappable with
    ⟨e, he⟩ | ⟨path, m₁, hok, -, -, -, hobject, -⟩
  · rw [he] at h
    cases h
  · rw [hok] at h
    cases h
    rw [hobject]
    exact (Traffic.guarded_start capacity).size

/-- The accesses of the two ends, in objects of any size whose contents anybody may change between
any two of them. They are the accesses that attaching, the steps of a call and the steps of a
server consist of. A client that attaches reads the control block and only where there is one. With
the capacity that it takes from there, its calls stay inside the object, and change the handshake
word, the header and the first bytes of the data, as many as the request has and never one of the
reserved ones. A server stays inside the object that it has made, reads one header at most, and
changes the handshake word, the status word and the data that it takes by that header. What a
header says about a sample is no longer than its fields. -/
theorem accesses_inside :
    ((∀ m name timeoutMs reserved lock mappable,
        Attachment.attach m name timeoutMs reserved lock mappable =
          match m.attach name mappable with
          | .error e => .error e
          | .ok i => ((Attachment.probe (m.object i).size).run (m.object i)).1.map fun capacity =>
              ⟨name, i, capacity, timeoutMs, reserved, lock⟩) ∧
      (∀ (c : ClientCall) clock o, (Program.along ClientCall.program c clock).run o =
        clock.foldl (fun p expired => p.1.step expired p.2) (c, o)) ∧
      ∀ handler (s : ServerRun) clock o,
        (Program.along (ServerRun.program handler) s clock).run o =
          clock.foldl (fun p expired => p.1.step handler expired p.2) (s, o)) ∧
    (∀ size trace result, (Attachment.probe size).Under size trace result →
      (∀ e ∈ trace, dataOffset ≤ size ∧ e.access.stop ≤ headerOffset + headerSize ∧
        ∀ k, ¬ e.Changes k) ∧
      ∀ a : Attachment, result = .ok a.capacity → ∀ poisoned r clock trace c,
        (Program.along ClientCall.program (a.start poisoned r) clock).Under size trace c →
          ∀ e ∈ trace, e.access.stop ≤ size ∧ ∀ k, e.Changes k →
            (stateOffset ≤ k ∧ k < stateOffset + 4) ∨
            (headerOffset ≤ k ∧ k < headerOffset + headerSize) ∨
            (dataOffset ≤ k ∧ k < dataOffset + r.data.length ∧
              k + a.reserved < dataOffset + a.capacity)) ∧
    (∀ m m' name capacity mappable s, Server.create m name capacity mappable = (.ok s, m') →
      ∀ handler clock trace run,
        (Program.along (ServerRun.program handler) { capacity := s.capacity } clock).Under
            (m'.object s.object).size trace run →
          (headersRead trace).length ≤ 1 ∧
          (∀ e ∈ trace, e.access.stop ≤ (m'.object s.object).size ∧ ∀ k, e.Changes k →
            (stateOffset ≤ k ∧ k < stateOffset + 4) ∨ (statusOffset ≤ k ∧ k < statusOffset + 4) ∨
            ∃ h ∈ headersRead trace,
              dataOffset ≤ k ∧ k < dataOffset + min h.dataLength.toNat s.capacity) ∧
          ∀ d, run.seen = some d → ∃ h ∈ headersRead trace, d.info = h.sampleInfo) ∧
    ∀ h : Header, h.sampleInfo.iv.length ≤ 16 ∧ h.sampleInfo.keyId.length ≤ 16 ∧
      h.sampleInfo.subsamples.length ≤ 256 := by
  refine ⟨⟨Attachment.attach_eq_probe, Program.run_along ClientCall.run_program,
    fun handler => Program.run_along (ServerRun.run_program handler)⟩,
    fun size probing result hprobe => ?_,
    fun m m' name capacity mappable s hcreate handler clock trace run hrun => ?_,
    Header.lengths_sampleInfo⟩
  · obtain ⟨hblock, hroom⟩ := Attachment.keeps_probe size probing result hprobe
    refine ⟨fun e he => ?_, fun a ha poisoned r clock trace c hcall e he => ?_⟩
    · obtain ⟨hsize, hwithin⟩ := hblock e he
      exact ⟨hsize, hwithin.inside, fun k hk => hwithin.changes hk⟩
    · have hwithin := ClientCall.within_of_under (hroom a.capacity ha) hcall e he
      exact ⟨hwithin.inside, fun k hk => hwithin.changes hk⟩
  · have hsize := Server.size_of_create hcreate
    have hall := Program.along_induction (fun h hnow => ServerRun.Bounded.step h hsize hnow)
      (ServerRun.bounded_start _ s.capacity) hrun
    exact ⟨hall.once, fun e he => ⟨hall.inside e he, fun k hk => hall.changes e he k hk⟩, hall.seen⟩

/-- A channel whose capacity word says far more than there is room for. -/
def boastful : SharedObject :=
  ⟨2180, [.data [0x4d, 0x44, 0x43, 0x4f, 0, 0, 0, 0, 255, 255, 255, 255]]⟩

/-- A request in a channel, with more data than any channel has room for. -/
def boundless : SharedObject :=
  ⟨2180, [.data [0x4d, 0x44, 0x43, 0x4f, 2, 0, 0, 0], .hole 8, .data [255, 255, 255, 255]]⟩

/-- A client of three bytes and one reserved byte, and the server, where the memory lies. -/
theorem accesses_inside_boundless :
    (∃ probing trace c, (Attachment.probe 2180).Under 2180 probing (.ok 4) ∧
      (Program.along ClientCall.program
        (Attachment.start ⟨"/channel", 0, 4, 10, 1, "lock"⟩ false { data := [1, 2, 3] })
        [false, false]).Under 2180 trace c ∧
      trace.length = 3 ∧ ∀ e ∈ trace, ¬ e.Changes 2179) ∧
    ∃ s m' trace run, Server.create {} "/channel" 4 = (.ok s, m') ∧
      (Program.along (ServerRun.program fun d => (Status.none, d.data ++ d.data))
        { capacity := s.capacity } [false, false]).Under (m'.object s.object).size trace run ∧
      trace.length = 4 ∧ ∀ e ∈ trace, e.access.stop ≤ 2180 := by
  obtain ⟨-, hclient, hserver, -⟩ := accesses_inside
  refine ⟨?_, ?_⟩
  · have hprobe : (Attachment.probe 2180).Under 2180 _ (.ok 4) :=
      .access boastful rfl (.access boastful rfl (.done _))
    have hcall : (Program.along ClientCall.program
        (Attachment.start ⟨"/channel", 0, 4, 10, 1, "lock"⟩ false { data := [1, 2, 3] })
        [false, false]).Under 2180 _ _ :=
      .access boastful rfl (.access boundless rfl (.access boastful rfl (.done _)))
    refine ⟨_, _, _, hprobe, hcall, rfl, fun e he hk => ?_⟩
    obtain ⟨-, hchanges⟩ := (hclient 2180 _ _ hprobe).2 _ rfl _ _ _ _ _ hcall e he
    have := hchanges 2179 hk
    simp [stateOffset, headerOffset, headerSize_eq, dataOffset_eq] at this
  · obtain ⟨s, m', hcreate, hcapacity⟩ : ∃ s m', Server.create {} "/channel" 4 = (.ok s, m') ∧
        s.capacity = 4 := by
      have hmade : (Server.create {} "/channel" 4).1.toOption.isSome = true := by decide +kernel
      rcases Server.create_cases {} "/channel" 4 with ⟨e, he⟩ | ⟨path, m', hok, -⟩
      · rw [he] at hmade
        cases hmade
      · exact ⟨_, m', hok, rfl⟩
    have hsize : (m'.object s.object).size = 2180 := by
      rw [Server.size_of_create hcreate, hcapacity]
      rfl
    have hserve : (Program.along (ServerRun.program fun d => (Status.none, d.data ++ d.data))
        { capacity := 4 } [false, false]).Under 2180 _ _ :=
      .access boundless rfl (.access boundless rfl (.access boastful rfl
        (.access boundless rfl (.done _))))
    rw [← hcapacity, ← hsize] at hserve
    refine ⟨s, m', _, _, hcreate, hserve, rfl, fun e he => ?_⟩
    have hinside := ((hserver _ _ _ _ _ _ hcreate _ _ _ _ hserve).2.1 e he).1
    rwa [hsize] at hinside

end Channel

end ContentDecryption
