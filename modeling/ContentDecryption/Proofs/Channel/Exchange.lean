import ContentDecryption.Proofs.Channel.Order

/-!
# One call and one server

A call that meets a server which serves the channel. Whatever the turns are, a channel
that was at rest is at rest again when the call is over and the server is not at a
request. With the turns of a call that gives the server time, the call gets the status
and the data that the handler has made of its request, also when an answer that nobody
waited for stands in its way.

Main definitions:

* `Ready`: an object that is a channel, at rest;
* `Mirrors`: a meeting as a channel with one call and one server.

Main results:

* `Ready.run`: any turns leave a channel that is at rest again;
* `Ready.run_patientTurns`: what comes of a call that gives the server time;
* `Attachment.decryptOn_of_header`, `Attachment.decryptOn_of_expired`,
  `Attachment.decryptOn_of_error`: what comes of a whole call;
* `Attachment.ready_decryptOn`: a whole call leaves a channel at rest.
-/

namespace ContentDecryption

namespace Channel

/-- An object that is a channel of this capacity, and nobody is at it. -/
structure Ready (capacity : Nat) (o : SharedObject) : Prop where
  size : o.size = objectSize capacity
  mark : o.word markOffset = mark
  capacity : o.word capacityOffset = UInt32.ofNat capacity
  word : stateOf o = Phase.idle.word ∨ stateOf o = Phase.completed.word

theorem ready_start (capacity : Nat) : Ready capacity (Traffic.start capacity).object where
  size := (Traffic.guarded_start capacity).size
  mark := by
    apply SharedObject.word_writeWord_self
    simp only [SharedObject.size_writeWord, objectSize, dataOffset_eq, markOffset]
    omega
  capacity := by
    unfold Traffic.start Server.format SharedObject.writeWord
    rw [SharedObject.word_write_of_disjoint _ (.inr (by decide)),
      SharedObject.word_write_of_disjoint _ (.inl (by decide))]
    apply SharedObject.word_writeWord_self
    simp only [objectSize, dataOffset_eq, capacityOffset]
    omega
  word := .inl (Traffic.stateOf_start capacity)

theorem Ready.room {capacity : Nat} {o : SharedObject} (h : Ready capacity o) :
    dataOffset ≤ o.size := by
  rw [h.size, objectSize]
  omega

/-- A channel at rest shows its capacity. -/
theorem Ready.capacityOf_eq {capacity : Nat} {o : SharedObject} (h : Ready capacity o)
    (hcapacity : capacity < 4294967296) : Attachment.capacityOf o = capacity := by
  rw [Attachment.capacityOf, h.capacity, UInt32.toNat_ofNat_of_lt' hcapacity, h.size, objectSize,
    Nat.add_sub_cancel_left, Nat.min_self]

/-- A client that attaches to a channel at rest finds its capacity. -/
theorem Ready.attach {capacity : Nat} (hcapacity : capacity < 4294967296) {m : SharedMemory}
    {i : Nat} (h : Ready capacity (m.object i)) {name path : String}
    (hpath : SharedMemory.pathOf name = .ok path) (hlookup : m.names.lookup path = some i)
    (timeoutMs reserved : Nat) (lock : String) :
    Attachment.attach m name timeoutMs reserved lock =
      .ok ⟨name, i, capacity, timeoutMs, reserved, lock⟩ := by
  have hsize := h.room
  have hfound : m.attach name = .ok i :=
    SharedMemory.attach_of_lookup hpath hlookup (by rw [dataOffset_eq] at hsize; omega)
  rw [Attachment.attach, hfound]
  dsimp only
  rw [if_neg (by omega), if_neg (by rw [h.mark]; simp), h.capacityOf_eq hcapacity]

/-! ## What no step touches -/

/-- A call leaves the mark and the capacity alone. -/
theorem ClientCall.Move.byte_eq {c : ClientCall} {o : SharedObject}
    {next : ClientCall × SharedObject} (h : c.Move o next) {k : Nat}
    (hk : k < stateOffset ∨ (capacityOffset ≤ k ∧ k < statusOffset)) :
    next.2.byte k = o.byte k := by
  simp only [stateOffset, capacityOffset, statusOffset] at hk
  cases h with
  | fill => exact byte_fill c o (by simp only [headerOffset]; omega)
  | acquire | discard | submit | collect | withdraw | drop | release =>
    exact byte_publish o _ (by omega)
  | notice | giveUp | rest | overtaken | expire | miss | abandon | read => rfl

/-- A server leaves the mark and the capacity alone. -/
theorem ServerRun.Move.byte_eq {handler : Handler} {s : ServerRun} {o : SharedObject}
    {next : ServerRun × SharedObject} (h : s.Move handler o next) {k : Nat}
    (hk : k < stateOffset ∨ (capacityOffset ≤ k ∧ k < statusOffset)) :
    next.2.byte k = o.byte k := by
  simp only [stateOffset, capacityOffset, statusOffset] at hk
  cases h with
  | handle => exact byte_answerIn handler s.capacity o (by rw [dataOffset_eq]; omega)
  | report =>
    rw [SharedObject.writeWord, SharedObject.byte_write,
      if_neg (by rw [Bytes.length_ofWord, statusOffset]; omega)]
  | take | complete => exact byte_publish o _ (by omega)
  | expire | rest => rfl

theorem Traffic.Step.byte_eq {t t' : Traffic} (h : Step t t') {k : Nat}
    (hk : k < stateOffset ∨ (capacityOffset ≤ k ∧ k < statusOffset)) :
    t'.object.byte k = t.object.byte k := by
  cases h with
  | stay | call | serve => rfl
  | client _ move => exact move.byte_eq hk
  | server _ move => exact move.byte_eq hk

/-! ## A meeting as a channel -/

/-- The turn as an act at a channel with one call and one server. -/
def Turn.act : Turn → Act
  | .client expired => .client 0 expired
  | .server expired => .server 0 expired

/-- The channel has the call and the server of the meeting, and no others. -/
def Mirrors (handler : Handler) (t : Traffic) (m : Meeting) : Prop :=
  t.object = m.object ∧ (∃ c, t.callers = [c] ∧ c.call = m.call) ∧
    ∃ w, t.workers = [w] ∧ w.handler = handler ∧ m.server = some w.run

theorem Mirrors.turn {handler : Handler} {t : Traffic} {m : Meeting} (h : Mirrors handler t m)
    (x : Turn) : Mirrors handler (t.step x.act) (m.turn handler x) := by
  obtain ⟨hobject, ⟨c, hcallers, hcall⟩, w, hworkers, hhandler, hserver⟩ := h
  cases x with
  | client expired =>
    have hc : t.callers[0]? = some c := by
      rw [hcallers]
      rfl
    simp only [Turn.act, Traffic.step, hc, Meeting.turn]
    refine ⟨?_, ⟨c.advance (c.call.step expired t.object).1, ?_, ?_⟩, w, hworkers, hhandler,
      hserver⟩
    · rw [← hcall, ← hobject]
      rfl
    · rw [Traffic.afterClient, hcallers]
      rfl
    · rw [← hcall, ← hobject]
      rfl
  | server expired =>
    have hw : t.workers[0]? = some w := by
      rw [hworkers]
      rfl
    simp only [Turn.act, Traffic.step, hw, Meeting.turn, hserver]
    refine ⟨?_, ?_, { w with run := (w.run.step w.handler expired t.object).1 }, ?_, hhandler, ?_⟩
    · rw [← hhandler, ← hobject]
      rfl
    · rw [Traffic.afterServer, hcallers]
      cases t.writer with
      | none => exact ⟨c, rfl, hcall⟩
      | some i =>
        cases i with
        | zero => exact ⟨w.credit 0 (w.run.step w.handler expired t.object).1 c, rfl,
            (Traffic.call_credit ..).trans hcall⟩
        | succ i => exact ⟨c, by simp, hcall⟩
    · rw [Traffic.afterServer, hworkers]
      rfl
    · rw [← hhandler, ← hobject]

/-- While a call and a server are at their start, nobody owns the memory. -/
theorem Traffic.phase?_of_fresh {t : Traffic} {a : Attachment} {poisoned : Bool} {r : Request}
    {handler : Handler} {capacity : Nat}
    (hcallers : t.callers = [{ client := a, request := r, call := a.start poisoned r }])
    (hworkers : t.workers = [{ handler, run := { capacity } }]) (p : Party) : t.phase? p = none := by
  cases p with
  | client i =>
    rw [phase?, said, hcallers]
    cases i with
    | zero => exact phase?_start a poisoned r
    | succ i => rfl
  | server j =>
    rw [phase?, said, hworkers]
    cases j <;> rfl

/-! ## Channels at rest -/

/-- A call at a channel at rest that a server waits at. -/
def Ready.traffic (capacity : Nat) (o : SharedObject) (a : Attachment) (poisoned : Bool)
    (r : Request) (handler : Handler) : Traffic where
  capacity
  object := o
  callers := [{ client := a, request := r, call := a.start poisoned r }]
  workers := [{ handler, run := { capacity } }]

section Rest

variable {capacity : Nat} {o : SharedObject} {a : Attachment} {poisoned : Bool} {r : Request}
  {handler : Handler}

theorem Ready.exists_free (h : Ready capacity o) :
    ∃ f ∈ betweenCalls, f.isFree = true ∧ stateOf o = f.word := by
  rcases h.word with hidle | hcompleted
  · exact ⟨.idle, by simp [betweenCalls], rfl, hidle⟩
  · exact ⟨.completed, by simp [betweenCalls], rfl, hcompleted⟩

theorem Ready.guarded (h : Ready capacity o) :
    (Ready.traffic capacity o a poisoned r handler).Guarded := by
  have hphase (p : Party) : (Ready.traffic capacity o a poisoned r handler).phase? p = none :=
    Traffic.phase?_of_fresh rfl rfl p
  obtain ⟨f, -, hfree, hword⟩ := h.exists_free
  refine ⟨h.size, fun {p f} hp => ?_, fun {p q f g} hp => ?_, f, hword, .inl hfree⟩
  · rw [hphase] at hp
    cases hp
  · rw [hphase] at hp
    cases hp

theorem Ready.orderly (h : Ready capacity o) :
    (Ready.traffic capacity o a poisoned r handler).Orderly := by
  have hfirst {i : Nat} {c : Caller}
      (hc : (Ready.traffic capacity o a poisoned r handler).callers[i]? = some c) :
      i = 0 ∧ c.call = a.start poisoned r := by
    cases i with
    | zero =>
      cases hc
      exact ⟨rfl, rfl⟩
    | succ i => cases hc
  have hstage : (a.start poisoned r).stage.words = betweenCalls ∧
      (a.start poisoned r).stage.isSent = false := by
    unfold Attachment.start
    split <;> exact ⟨rfl, rfl⟩
  have hword : WordIn o betweenCalls := by
    obtain ⟨f, hf, -, hstate⟩ := h.exists_free
    exact ⟨f, hf, hstate⟩
  refine ⟨fun hc hd _ _ => ?_, fun hc _ => ?_, fun _ => hword, fun hc hs => ?_⟩
  · rw [(hfirst hc).1, (hfirst hd).1]
  · rw [(hfirst hc).2, hstage.1]
    exact hword
  · rw [(hfirst hc).2, hstage.2] at hs
    cases hs

end Rest

/-- What a meeting at a channel that was at rest keeps: the order of the channel, and the words that
make it one. -/
structure Kept (handler : Handler) (capacity : Nat) (t : Traffic) (m : Meeting) : Prop where
  mirrors : Mirrors handler t m
  guarded : t.Guarded
  orderly : t.Orderly
  size : t.object.size = objectSize capacity
  mark : t.object.word markOffset = mark
  capacity : t.object.word capacityOffset = UInt32.ofNat capacity

theorem Kept.turn {handler : Handler} {capacity : Nat} {t : Traffic} {m : Meeting}
    (h : Kept handler capacity t m) (x : Turn) :
    Kept handler capacity (t.step x.act) (m.turn handler x) := by
  have hs : Traffic.Step t (t.step x.act) := t.step_step x.act
  have hword {start : Nat} (hstart : start + 4 ≤ stateOffset ∨
      (capacityOffset ≤ start ∧ start + 4 ≤ statusOffset)) :
      (t.step x.act).object.word start = t.object.word start := by
    unfold SharedObject.word
    rw [SharedObject.read_congr hs.size]
    intro k hk hk'
    exact hs.byte_eq (by simp only [stateOffset, capacityOffset, statusOffset] at *; omega)
  refine ⟨h.mirrors.turn x, h.guarded.step hs, ?_, hs.size.trans h.size,
    (hword (.inl (by decide))).trans h.mark, (hword (.inr (by decide))).trans h.capacity⟩
  cases x with
  | client expired =>
    simp only [Turn.act, Traffic.step]
    split
    · next c hc => exact h.orderly.client h.guarded hc (c.call.move_step expired t.object)
    · exact h.orderly
  | server expired =>
    simp only [Turn.act, Traffic.step]
    split
    · next w hw =>
      exact h.orderly.server h.guarded hw (w.run.move_step w.handler expired t.object)
    · exact h.orderly

theorem Kept.run {handler : Handler} {capacity : Nat} {t : Traffic} {m : Meeting}
    (h : Kept handler capacity t m) (turns : List Turn) :
    ∃ t', Kept handler capacity t' (m.run handler turns) := by
  induction turns generalizing t m with
  | nil => exact ⟨t, h⟩
  | cons x turns ih => exact ih (h.turn x)

/-- A call that is over, at a server that is not at a request, leaves the channel at rest, whatever
their turns were. -/
theorem Ready.run {capacity : Nat} {o : SharedObject} (h : Ready capacity o) (a : Attachment)
    (poisoned : Bool) (r : Request) (handler : Handler) (turns : List Turn) {stop : Meeting}
    (hstop : Meeting.run handler ⟨a.start poisoned r, some { capacity }, o⟩ turns = stop)
    (hover : stop.call.isOver = true)
    (hserver : ∀ s, stop.server = some s → s.stage.phase? = none) : Ready capacity stop.object := by
  have hstart : Kept handler capacity (Ready.traffic capacity o a poisoned r handler)
      ⟨a.start poisoned r, some { capacity }, o⟩ :=
    ⟨⟨rfl, ⟨_, rfl, rfl⟩, _, rfl, rfl, rfl⟩, h.guarded, h.orderly, h.size, h.mark, h.capacity⟩
  obtain ⟨t, hkept⟩ := hstart.run turns
  rw [hstop] at hkept
  obtain ⟨hobject, ⟨c, hcallers, hcall⟩, w, hworkers, -, hw⟩ := hkept.mirrors
  have hbetween : WordIn t.object betweenCalls := by
    refine hkept.orderly.between fun d hd => ?_
    rw [hcallers] at hd
    obtain rfl := List.mem_singleton.1 hd
    rw [hcall]
    exact hover
  rw [← hobject]
  refine ⟨hkept.size, hkept.mark, hkept.capacity, ?_⟩
  obtain ⟨f, hf, hword⟩ := hbetween
  simp only [betweenCalls, List.mem_cons, List.not_mem_nil, or_false] at hf
  rcases hf with rfl | rfl | rfl
  · exact .inl hword
  · obtain ⟨j, v, hv, hphase⟩ := hkept.guarded.exists_serving hword
    rw [hworkers] at hv
    obtain rfl := List.mem_singleton.1 (List.mem_of_getElem? hv)
    rw [hserver v.run hw] at hphase
    cases hphase
  · exact .inr hword

/-! ## A call that gives the server time -/

namespace Meeting

theorem run_append (handler : Handler) (m : Meeting) (first second : List Turn) :
    m.run handler (first ++ second) = (m.run handler first).run handler second :=
  List.foldl_append

theorem run_cons (handler : Handler) (m : Meeting) (x : Turn) (turns : List Turn) :
    m.run handler (x :: turns) = (m.turn handler x).run handler turns := rfl

/-- The turn of a client, given what its step does. -/
theorem turn_client (handler : Handler) {expired : Bool} {c c' : ClientCall}
    {s : Option ServerRun} {o o' : SharedObject} (h : c.step expired o = (c', o')) :
    turn handler ⟨c, s, o⟩ (.client expired) = ⟨c', s, o'⟩ := by
  simp only [turn, h]

/-- The turn of a server, given what its step does. -/
theorem turn_server {handler : Handler} {expired : Bool} {c : ClientCall} {s s' : ServerRun}
    {o o' : SharedObject} (h : s.step handler expired o = (s', o')) :
    turn handler ⟨c, some s, o⟩ (.server expired) = ⟨c, some s', o'⟩ := by
  simp only [turn, h]

/-- Turns that leave a meeting as it is. -/
theorem run_replicate_of_turn_eq {handler : Handler} {m : Meeting} {x : Turn}
    (h : m.turn handler x = m) (n : Nat) : m.run handler (List.replicate n x) = m := by
  induction n with
  | zero => rfl
  | succ n ih => rw [List.replicate_succ, run_cons, h, ih]

end Meeting

section Served

variable (handler : Handler) {capacity : Nat} {o : SharedObject} {c : ClientCall} {r : Request}

/-- A request stands in the memory, and it is what a server is to be given. -/
structure Submitted (capacity : Nat) (r : Request) (o : SharedObject) : Prop where
  size : o.size = objectSize capacity
  word : stateOf o = Phase.produced.word
  delivery : Delivery.ofObject capacity o = r.delivery

/-- A call at an idle channel hands its request over in three turns. -/
theorem run_submit (hsize : o.size = objectSize capacity) (hidle : stateOf o = Phase.idle.word)
    (hstage : c.stage = .acquiring) (hr : Header.Describable r)
    (hheader : c.header = Header.describe r) (hdata : c.data = r.data)
    (hlength : r.data.length ≤ capacity) (s : Option ServerRun) (expired : Bool) :
    ∃ o', Meeting.run handler ⟨c, s, o⟩ (List.replicate 3 (.client expired)) =
        ⟨{ c with stage := .awaiting }, s, o'⟩ ∧ Submitted capacity r o' := by
  let taken := publish o .producing
  let filled := ClientCall.fill { c with stage := .filling } taken
  have htaken : taken.size = objectSize capacity := (size_publish o _).trans hsize
  have hfilled : filled.size = objectSize capacity := (ClientCall.size_fill _ _).trans htaken
  have hacquire : c.step expired o = ({ c with stage := .filling }, taken) := by
    simp only [ClientCall.step, hstage, exchange?_of_eq _ hidle]
    rfl
  refine ⟨publish filled .produced, ?_, (size_publish filled _).trans hfilled, ?_, ?_⟩
  · rw [List.replicate_succ, Meeting.run_cons, Meeting.turn_client handler hacquire]
    rfl
  · apply stateOf_publish
    rw [hfilled, objectSize, dataOffset_eq, stateOffset]
    omega
  · rw [delivery_publish]
    exact ClientCall.delivery_fill hr hheader hdata hlength htaken

/-- A call at a channel at rest hands its request over, whatever stands in its way. -/
theorem Ready.run_submit (h : Ready capacity o) (hstage : c.stage = .acquiring)
    (hr : Header.Describable r) (hheader : c.header = Header.describe r) (hdata : c.data = r.data)
    (hlength : r.data.length ≤ capacity) (s : Option ServerRun) (expired : Bool) :
    ∃ n ≤ 5, ∃ o', Meeting.run handler ⟨c, s, o⟩ (List.replicate n (.client expired)) =
        ⟨{ c with stage := .awaiting }, s, o'⟩ ∧ Submitted capacity r o' := by
  rcases h.word with hidle | hcompleted
  · exact ⟨3, by decide,
      Channel.run_submit handler h.size hidle hstage hr hheader hdata hlength s expired⟩
  · have hnotice : c.step expired o = ({ c with stage := .discarding }, o) := by
      have hne : stateOf o ≠ Phase.idle.word := by
        rw [hcompleted]
        decide
      simp only [ClientCall.step, hstage, exchange?_of_ne _ hne, if_pos hcompleted]
    have hdiscard : ClientCall.step expired { c with stage := .discarding } o =
        ({ c with stage := .acquiring }, publish o .idle) := by
      simp only [ClientCall.step, exchange?_of_eq _ hcompleted, Option.getD_some]
    have hidle : stateOf (publish o .idle) = Phase.idle.word := by
      apply stateOf_publish
      rw [h.size, objectSize, dataOffset_eq, stateOffset]
      omega
    obtain ⟨o', hrun, hsubmitted⟩ := Channel.run_submit handler
      (c := { c with stage := .acquiring }) ((size_publish o _).trans h.size) hidle rfl hr hheader
      hdata hlength s expired
    refine ⟨5, by decide, o', ?_, hsubmitted⟩
    rw [List.replicate_succ, Meeting.run_cons, Meeting.turn_client handler hnotice,
      List.replicate_succ, Meeting.run_cons, Meeting.turn_client handler hdiscard, hrun]

/-- With the request handed over, a call that still has time waits. -/
theorem Submitted.turn_client (h : Submitted capacity r o) (s : Option ServerRun) :
    Meeting.turn handler ⟨{ c with stage := .awaiting }, s, o⟩ (.client false) =
      ⟨{ c with stage := .awaiting }, s, o⟩ := by
  have hne : stateOf o ≠ Phase.completed.word := by
    rw [h.word]
    decide
  apply Meeting.turn_client handler
  simp only [ClientCall.step, exchange?_of_ne _ hne]
  rfl

/-- A server takes the request that was handed over, and its answer stands in the memory. -/
theorem Submitted.run_serverTurns (h : Submitted capacity r o) (c : ClientCall) :
    ∃ o', Meeting.run handler ⟨c, some { capacity }, o⟩ (Meeting.serverTurns false) =
        ⟨c, some { capacity, seen := some r.delivery, stage := .finished true }, o'⟩ ∧
      stateOf o' = Phase.completed.word ∧ o'.word statusOffset = (handler r.delivery).1 ∧
      o'.read dataOffset r.data.length = ServerRun.left handler r.delivery := by
  let taken := publish o .decrypting
  let answered := ServerRun.answerIn handler capacity taken
  let reported := answered.writeWord statusOffset (handler r.delivery).1
  have htaken : taken.size = objectSize capacity := (size_publish o _).trans h.size
  have hgiven : Delivery.ofObject capacity taken = r.delivery :=
    (delivery_publish capacity o _).trans h.delivery
  have hreported : reported.size = objectSize capacity := by
    rw [SharedObject.size_writeWord, ServerRun.size_answerIn, htaken]
  have htake : ServerRun.step handler false { capacity } o =
      ({ capacity, stage := .handling }, taken) := by
    simp only [ServerRun.step, exchange?_of_eq _ h.word]
    rfl
  have hhandle : ServerRun.step handler false { capacity, stage := .handling } taken =
      ({ capacity, seen := some r.delivery, stage := .reporting (handler r.delivery).1 },
        answered) := by
    simp only [ServerRun.step, hgiven, answered, ServerRun.answerIn]
  refine ⟨publish reported .completed, ?_, ?_, ?_, ?_⟩
  · rw [Meeting.serverTurns, List.replicate_succ, Meeting.run_cons, Meeting.turn_server htake,
      List.replicate_succ, Meeting.run_cons, Meeting.turn_server hhandle]
    rfl
  · apply stateOf_publish
    rw [hreported, objectSize, dataOffset_eq, stateOffset]
    omega
  · rw [word_publish _ _ (by decide)]
    apply SharedObject.word_writeWord_self
    rw [ServerRun.size_answerIn, htaken, objectSize, dataOffset_eq, statusOffset]
    omega
  · rw [read_publish _ _ (by decide)]
    have hbelow : statusOffset + (Bytes.ofWord (handler r.delivery).1).length ≤ dataOffset := by
      rw [Bytes.length_ofWord]
      decide
    refine (SharedObject.read_write_of_disjoint answered (.inr hbelow)).trans ?_
    exact ServerRun.read_answerIn handler hgiven htaken

/-- A call that finds its answer in the memory takes it over. -/
theorem run_collect (hword : stateOf o = Phase.completed.word) (hstage : c.stage = .awaiting)
    (s : Option ServerRun) :
    ∃ o', Meeting.run handler ⟨c, s, o⟩ (Meeting.clientTurns false) =
      ⟨{ c with
          data := o.read dataOffset c.data.length
          stage := .finished (Error.ofStatus (o.word statusOffset)) }, s, o'⟩ := by
  have hcollect : c.step false o = ({ c with stage := .collecting }, publish o .consuming) := by
    simp only [ClientCall.step, hstage, exchange?_of_eq _ hword]
  have hdata : (publish o .consuming).read dataOffset c.data.length =
      o.read dataOffset c.data.length := read_publish o _ (by decide)
  have hstatus : (publish o .consuming).word statusOffset = o.word statusOffset :=
    word_publish o _ (by decide)
  have hread : ClientCall.step false { c with stage := .collecting } (publish o .consuming) =
      ({ c with
          data := o.read dataOffset c.data.length
          stage := .releasing (o.word statusOffset) }, publish o .consuming) := by
    simp only [ClientCall.step, hdata, hstatus]
  refine ⟨publish (publish o .consuming) .idle, ?_⟩
  rw [Meeting.clientTurns, List.replicate_succ, Meeting.run_cons,
    Meeting.turn_client handler hcollect, List.replicate_succ, Meeting.run_cons,
    Meeting.turn_client handler hread]
  rfl

/-- A call that gives the server time gets what the handler has made of its request. -/
theorem Ready.run_patientTurns (h : Ready capacity o) (hstage : c.stage = .acquiring)
    (hr : Header.Describable r) (hheader : c.header = Header.describe r) (hdata : c.data = r.data)
    (hlength : r.data.length ≤ capacity) :
    ∃ o', Meeting.run handler ⟨c, some { capacity }, o⟩ Meeting.patientTurns =
      ⟨{ c with
          data := ServerRun.left handler r.delivery
          stage := .finished (Error.ofStatus (handler r.delivery).1) },
        some { capacity, seen := some r.delivery, stage := .finished true }, o'⟩ := by
  obtain ⟨n, hn, o₁, hrun, hsubmitted⟩ := h.run_submit handler hstage hr hheader hdata hlength
    (some { capacity }) false
  have hclient : Meeting.clientTurns false =
      List.replicate n (.client false) ++ List.replicate (5 - n) (.client false) := by
    rw [List.replicate_append_replicate, Nat.add_sub_cancel' hn, Meeting.clientTurns]
  obtain ⟨o₂, hserve, hword, hstatus, hleft⟩ :=
    hsubmitted.run_serverTurns handler { c with stage := .awaiting }
  obtain ⟨o₃, hcollect⟩ := run_collect handler (c := { c with stage := .awaiting })
    hword rfl (some { capacity, seen := some r.delivery, stage := .finished true })
  have hfirst : Meeting.run handler ⟨c, some { capacity }, o⟩ (Meeting.clientTurns false) =
      ⟨{ c with stage := .awaiting }, some { capacity }, o₁⟩ := by
    rw [hclient, Meeting.run_append, hrun]
    exact Meeting.run_replicate_of_turn_eq (hsubmitted.turn_client handler _) _
  refine ⟨o₃, ?_⟩
  simp only [Meeting.patientTurns, Meeting.run_append]
  rw [hfirst, hserve, hcollect, hdata, hstatus, hleft]
  rfl

/-- A call whose deadline has passed hands its request over and takes it back at once. -/
theorem Ready.run_hastyTurns (h : Ready capacity o) (hstage : c.stage = .acquiring)
    (hr : Header.Describable r) (hheader : c.header = Header.describe r) (hdata : c.data = r.data)
    (hlength : r.data.length ≤ capacity) :
    ∃ o', Meeting.run handler ⟨c, some { capacity }, o⟩ Meeting.hastyTurns =
      ⟨{ c with stage := .finished (.error .timeout) },
        some { capacity, stage := .finished false }, o'⟩ := by
  obtain ⟨n, hn, o₁, hrun, hsubmitted⟩ := h.run_submit handler hstage hr hheader hdata hlength
    (some { capacity }) true
  have hclient : Meeting.clientTurns true ++ Meeting.clientTurns true =
      List.replicate n (.client true) ++
        (.client true :: .client true :: List.replicate (8 - n) (.client true)) := by
    rw [← List.replicate_succ, ← List.replicate_succ, List.replicate_append_replicate,
      Meeting.clientTurns, List.replicate_append_replicate]
    congr 1
    omega
  have hexpire : ClientCall.step true { c with stage := .awaiting } o₁ =
      ({ c with stage := .withdrawing }, o₁) := by
    have hne : stateOf o₁ ≠ Phase.completed.word := by
      rw [hsubmitted.word]
      decide
    simp only [ClientCall.step, exchange?_of_ne _ hne]
    rfl
  have hwithdraw : ClientCall.step true { c with stage := .withdrawing } o₁ =
      ({ c with stage := .finished (.error .timeout) }, publish o₁ .idle) := by
    simp only [ClientCall.step, exchange?_of_eq _ hsubmitted.word]
  have hover : Meeting.run handler ⟨c, some { capacity }, o⟩
      (Meeting.clientTurns true ++ Meeting.clientTurns true) =
        ⟨{ c with stage := .finished (.error .timeout) }, some { capacity }, publish o₁ .idle⟩ := by
    rw [hclient, Meeting.run_append, hrun, Meeting.run_cons, Meeting.turn_client handler hexpire,
      Meeting.run_cons, Meeting.turn_client handler hwithdraw]
    exact Meeting.run_replicate_of_turn_eq rfl _
  have hmiss : ServerRun.step handler true { capacity } (publish o₁ .idle) =
      ({ capacity, stage := .finished false }, publish o₁ .idle) := by
    have hidle : stateOf (publish o₁ .idle) ≠ Phase.produced.word := by
      rw [stateOf_publish (by rw [hsubmitted.size, objectSize, dataOffset_eq, stateOffset]; omega)]
      decide
    simp only [ServerRun.step, exchange?_of_ne _ hidle]
    rfl
  refine ⟨publish o₁ .idle, ?_⟩
  rw [Meeting.hastyTurns, Meeting.run_append, hover, Meeting.serverTurns, List.replicate_succ,
    Meeting.run_cons, Meeting.turn_server hmiss]
  exact Meeting.run_replicate_of_turn_eq rfl _

/-- A call that is over at its start leaves the memory to itself, and the server gets nothing. -/
theorem Ready.run_refused (h : Ready capacity o) {result : Except Error Unit}
    (hover : c.stage = .finished result) {stage : ServerStage}
    (hstage : stage = .waiting ∨ stage = .finished false) (turns : List Turn) :
    ∃ last : ServerStage, (last = .waiting ∨ last = .finished false) ∧
      Meeting.run handler ⟨c, some { capacity, stage }, o⟩ turns =
        ⟨c, some { capacity, stage := last }, o⟩ := by
  have hclient (expired : Bool) : c.step expired o = (c, o) := by
    simp only [ClientCall.step, hover]
  have hserver (expired : Bool) {stage : ServerStage}
      (hstage : stage = .waiting ∨ stage = .finished false) :
      ∃ last : ServerStage, (last = .waiting ∨ last = .finished false) ∧
        ServerRun.step handler expired { capacity, stage } o =
          ({ capacity, stage := last }, o) := by
    rcases hstage with rfl | rfl
    · have hne : stateOf o ≠ Phase.produced.word := by
        rcases h.word with hw | hw <;> rw [hw] <;> decide
      refine ⟨if expired then .finished false else .waiting, ?_, ?_⟩
      · cases expired <;> simp
      · simp only [ServerRun.step, exchange?_of_ne _ hne]
        cases expired <;> rfl
    · exact ⟨.finished false, .inr rfl, rfl⟩
  induction turns generalizing stage with
  | nil => exact ⟨stage, hstage, rfl⟩
  | cons x turns ih =>
    cases x with
    | client expired =>
      rw [Meeting.run_cons, Meeting.turn_client handler (hclient expired)]
      exact ih hstage
    | server expired =>
      obtain ⟨next, hnext, hstep⟩ := hserver expired hstage
      rw [Meeting.run_cons, Meeting.turn_server hstep]
      exact ih hnext

end Served

/-! ## Whole calls -/

namespace Attachment

variable {capacity : Nat} {o : SharedObject} {a : Attachment} {poisoned : Bool} {r : Request}
  {handler : Handler}

/-- A call that is refused comes to nothing: the server gets no request, and the memory is as it
was. -/
theorem decryptOn_of_error (h : Ready capacity o) {e : Error}
    (hheader : a.headerFor poisoned r = .error e) :
    a.decryptOn poisoned r (some (capacity, handler)) o = (⟨.error e, r.data, none⟩, o) := by
  obtain ⟨last, -, hrun⟩ := h.run_refused handler (c := a.start poisoned r)
    (by rw [start_of_error hheader]) (.inl rfl) (Meeting.turnsWithin a.timeoutMs)
  simp only [decryptOn, Option.map_some, hrun]
  rw [start_of_error hheader]
  rfl

/-- A call that is let through, and gives the server time, gets what the handler has made of its
request. -/
theorem decryptOn_of_header (h : Ready capacity o) (hcapacity : a.capacity ≤ capacity)
    (htime : a.timeoutMs ≠ 0) {header : Header} (hheader : a.headerFor poisoned r = .ok header) :
    (a.decryptOn poisoned r (some (capacity, handler)) o).1 =
      ⟨Error.ofStatus (handler r.delivery).1, ServerRun.left handler r.delivery,
        some r.delivery⟩ := by
  obtain ⟨hr, rfl, hlength⟩ := describable_of_header hheader
  have hlength' : r.data.length ≤ capacity := by omega
  obtain ⟨o', hrun⟩ := h.run_patientTurns handler (c := a.start poisoned r)
    (by rw [start_of_ok hheader]) hr (by rw [start_of_ok hheader]) (by rw [start_of_ok hheader])
    hlength'
  simp only [decryptOn, Option.map_some, Meeting.turnsWithin, if_neg htime, hrun]
  rfl

/-- A call that is let through when its deadline has passed already is out of time, and its data is
as it was. -/
theorem decryptOn_of_expired (h : Ready capacity o) (hcapacity : a.capacity ≤ capacity)
    (htime : a.timeoutMs = 0) {header : Header} (hheader : a.headerFor poisoned r = .ok header) :
    (a.decryptOn poisoned r (some (capacity, handler)) o).1 = ⟨.error .timeout, r.data, none⟩ := by
  obtain ⟨hr, rfl, hlength⟩ := describable_of_header hheader
  have hlength' : r.data.length ≤ capacity := by omega
  obtain ⟨o', hrun⟩ := h.run_hastyTurns handler (c := a.start poisoned r)
    (by rw [start_of_ok hheader]) hr (by rw [start_of_ok hheader]) (by rw [start_of_ok hheader])
    hlength'
  simp only [decryptOn, Option.map_some, Meeting.turnsWithin, if_pos htime, hrun]
  rw [start_of_ok hheader]
  rfl

/-- A call of a client leaves a channel at rest, also when its deadline has passed at its start. -/
theorem ready_decryptOn (h : Ready capacity o) (hcapacity : a.capacity ≤ capacity) :
    Ready capacity (a.decryptOn poisoned r (some (capacity, handler)) o).2 := by
  cases hheader : a.headerFor poisoned r with
  | error e =>
    rw [decryptOn_of_error h hheader]
    exact h
  | ok header =>
    obtain ⟨hr, rfl, hlength⟩ := describable_of_header hheader
    have hlength' : r.data.length ≤ capacity := by omega
    have hstart := start_of_ok hheader
    have hstop : ∃ result data run o', run.stage.phase? = none ∧
        Meeting.run handler ⟨a.start poisoned r, some { capacity }, o⟩
          (Meeting.turnsWithin a.timeoutMs) =
          ⟨{ header := Header.describe r, data, stage := .finished result }, some run, o'⟩ := by
      rw [Meeting.turnsWithin, hstart]
      split_ifs
      · obtain ⟨o', hrun⟩ := h.run_hastyTurns handler (c := a.start poisoned r)
          (by rw [hstart]) hr (by rw [hstart]) (by rw [hstart]) hlength'
        rw [hstart] at hrun
        exact ⟨_, _, _, o', rfl, hrun⟩
      · obtain ⟨o', hrun⟩ := h.run_patientTurns handler (c := a.start poisoned r)
          (by rw [hstart]) hr (by rw [hstart]) (by rw [hstart]) hlength'
        rw [hstart] at hrun
        exact ⟨_, _, _, o', rfl, hrun⟩
    obtain ⟨result, data, run, o', hphase, hrun⟩ := hstop
    have hready : Ready capacity o' := by
      refine h.run a poisoned r handler _ hrun rfl fun s hs => ?_
      cases hs
      exact hphase
    simp only [decryptOn, Option.map_some, hrun]
    exact hready

end Attachment

end Channel

end ContentDecryption
