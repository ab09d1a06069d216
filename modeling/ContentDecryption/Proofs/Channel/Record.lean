import ContentDecryption.Proofs.Channel.Callers

/-!
# Whose request is where

The memory of a channel holds one request at a time: that of the call which wrote last.
What the control word and the owner of the memory show of it, its way from the call to
a server and back, is what the record has of that call. So a request is taken once at
most, by a server that is then given this request and no other, and the answer that
stands in the memory is what the handler of that server made of it.

Nothing here depends on the locks of the clients.

Main definitions:

* `Traffic.ledger`: each call's request and the servers that took it;
* `Booked`: the ledger and the servers agree;
* `Traffic.Shows`, `Traffic.Holds`: how far a request is on its way, and what the record then says.

Main results:

* `Traffic.recorded_run`: ledger, servers and memory agree in every run;
* `Traffic.Recorded.services_cases`: a call has one handler run at most, on its own request;
* `Traffic.Recorded.exists_services`: every handler run is that of a call.
-/

namespace ContentDecryption

namespace Channel

/-- Whether a server has taken a request. -/
def ServerStage.hasTaken : ServerStage → Bool
  | .waiting => false
  | .finished served => served
  | _ => true

theorem ServerStage.hasTaken_of_phase? {s : ServerStage} {p : Phase} (h : s.phase? = some p) :
    s.hasTaken = true := by
  cases s with
  | handling | reporting | completing => rfl
  | waiting | finished => cases h

/-! ## The ledger -/

/-- What the record has of a call: its request, and the servers that took it. -/
structure Entry where
  request : Request
  takenBy : List Nat

/-- The entry of a call. -/
def Caller.entry (c : Caller) : Entry := ⟨c.request, c.takenBy⟩

/-- The ledger agrees with the servers: a request was taken once at most, by a server that has seen
this request or nothing yet, and every server that took a request stands in the ledger once. -/
structure Booked (ledger : List Entry) (workers : List Worker) : Prop where
  once : ∀ {i : Nat} {e : Entry}, ledger[i]? = some e → e.takenBy.length ≤ 1
  taken : ∀ {i : Nat} {e : Entry} {j : Nat}, ledger[i]? = some e → j ∈ e.takenBy →
    ∃ w : Worker, workers[j]? = some w ∧ w.run.stage.hasTaken = true ∧
      ∀ d, w.run.seen = some d → d = e.request.delivery
  credited : ∀ {j : Nat} {w : Worker}, workers[j]? = some w → w.run.stage.hasTaken = true →
    ∃ (i : Nat) (e : Entry), ledger[i]? = some e ∧ j ∈ e.takenBy
  apart : ∀ {i k : Nat} {e f : Entry} {j : Nat}, ledger[i]? = some e → ledger[k]? = some f →
    j ∈ e.takenBy → j ∈ f.takenBy → i = k

namespace Booked

variable {ledger : List Entry} {workers : List Worker}

theorem nil : Booked [] [] where
  once := fun h => nomatch h
  taken := fun h => nomatch h
  credited := fun h => nomatch h
  apart := fun h => nomatch h

/-- A call begins. -/
theorem call (h : Booked ledger workers) (r : Request) :
    Booked (ledger ++ [⟨r, []⟩]) workers := by
  have hold {i : Nat} {e : Entry} {j : Nat} (he : (ledger ++ [⟨r, []⟩])[i]? = some e)
      (hj : j ∈ e.takenBy) : ledger[i]? = some e := by
    rcases getElem?_concat_cases he with hold | ⟨-, rfl⟩
    · exact hold
    · cases hj
  refine ⟨fun he => ?_, fun he hj => h.taken (hold he hj) hj, fun hw htaken => ?_,
    fun he hf hj hj' => h.apart (hold he hj) (hold hf hj') hj hj'⟩
  · rcases getElem?_concat_cases he with hold | ⟨-, rfl⟩
    · exact h.once hold
    · exact Nat.zero_le 1
  · obtain ⟨i, e, he, hj⟩ := h.credited hw htaken
    obtain ⟨hi, -⟩ := List.getElem?_eq_some_iff.1 he
    exact ⟨i, e, by rw [List.getElem?_append_left hi, he], hj⟩

/-- A server begins to wait. -/
theorem serve (h : Booked ledger workers) {w : Worker} (hw : w.run.stage.hasTaken = false) :
    Booked ledger (workers ++ [w]) := by
  refine ⟨h.once, fun he hj => ?_, fun {j v} hv htaken => ?_, h.apart⟩
  · obtain ⟨v, hv, hrest⟩ := h.taken he hj
    obtain ⟨hi, -⟩ := List.getElem?_eq_some_iff.1 hv
    exact ⟨v, by rw [List.getElem?_append_left hi, hv], hrest⟩
  · rcases getElem?_concat_cases hv with hold | ⟨-, rfl⟩
    · exact h.credited hold htaken
    · rw [hw] at htaken
      cases htaken

/-- A server goes on. What it has seen now is the request that it took. -/
theorem move (h : Booked ledger workers) {j : Nat} {w w' : Worker} (hw : workers[j]? = some w)
    (hstage : w'.run.stage.hasTaken = w.run.stage.hasTaken)
    (hseen : ∀ (i : Nat) (e : Entry) d, ledger[i]? = some e → j ∈ e.takenBy →
      w'.run.seen = some d → d = e.request.delivery) :
    Booked ledger (workers.set j w') := by
  obtain ⟨hj, -⟩ := List.getElem?_eq_some_iff.1 hw
  refine ⟨h.once, fun {i e k} he hk => ?_, fun {k v} hv htaken => ?_, h.apart⟩
  · obtain ⟨v, hv, htaken, hd⟩ := h.taken he hk
    by_cases hjk : j = k
    · subst hjk
      rw [hw] at hv
      cases hv
      exact ⟨w', List.getElem?_set_self hj, hstage.trans htaken, fun d => hseen i e d he hk⟩
    · exact ⟨v, by rw [List.getElem?_set_ne hjk, hv], htaken, hd⟩
  · by_cases hjk : j = k
    · subst hjk
      rw [List.getElem?_set_self hj] at hv
      cases hv
      exact h.credited hw (hstage.symm.trans htaken)
    · rw [List.getElem?_set_ne hjk] at hv
      exact h.credited hv htaken

/-- A server takes a request that nobody has taken. -/
theorem take (h : Booked ledger workers) {i j : Nat} {r : Request} {w w' : Worker}
    {ledger' : List Entry} (hi : ledger[i]? = some ⟨r, []⟩) (hw : workers[j]? = some w)
    (hbefore : w.run.stage.hasTaken = false) (hafter : w'.run.stage.hasTaken = true)
    (hseen : w'.run.seen = none)
    (hledger : ∀ k, ledger'[k]? = if i = k then some ⟨r, [j]⟩ else ledger[k]?) :
    Booked ledger' (workers.set j w') := by
  obtain ⟨hj, -⟩ := List.getElem?_eq_some_iff.1 hw
  -- The server has just been waiting, so it stands in no other entry.
  have hfresh {k : Nat} {e : Entry} (he : ledger[k]? = some e) : j ∉ e.takenBy := by
    intro hmem
    obtain ⟨v, hv, htaken, -⟩ := h.taken he hmem
    rw [hw] at hv
    cases hv
    rw [hbefore] at htaken
    cases htaken
  have hcases {k : Nat} {e : Entry} (he : ledger'[k]? = some e) :
      (i = k ∧ e = ⟨r, [j]⟩) ∨ (i ≠ k ∧ ledger[k]? = some e) := by
    rw [hledger] at he
    split_ifs at he with hik
    · exact .inl ⟨hik, (Option.some.inj he).symm⟩
    · exact .inr ⟨hik, he⟩
  refine ⟨fun he => ?_, fun {k e l} he hl => ?_, fun {l v} hv htaken => ?_,
    fun {k l e f m} he hf hm hm' => ?_⟩
  · rcases hcases he with ⟨-, rfl⟩ | ⟨-, hold⟩
    · exact Nat.le_refl 1
    · exact h.once hold
  · rcases hcases he with ⟨-, rfl⟩ | ⟨-, hold⟩
    · obtain rfl := List.mem_singleton.1 hl
      refine ⟨w', List.getElem?_set_self hj, hafter, fun d hd => ?_⟩
      rw [hseen] at hd
      cases hd
    · obtain ⟨v, hv, hrest⟩ := h.taken hold hl
      have hjl : j ≠ l := by
        rintro rfl
        exact hfresh hold hl
      exact ⟨v, by rw [List.getElem?_set_ne hjl, hv], hrest⟩
  · by_cases hjl : j = l
    · subst hjl
      exact ⟨i, ⟨r, [j]⟩, by rw [hledger, if_pos rfl], List.mem_singleton.2 rfl⟩
    · rw [List.getElem?_set_ne hjl] at hv
      obtain ⟨k, e, he, hl⟩ := h.credited hv htaken
      have hik : i ≠ k := by
        rintro rfl
        rw [hi] at he
        cases he
        cases hl
      exact ⟨k, e, by rw [hledger, if_neg hik, he], hl⟩
  · rcases hcases he with ⟨rfl, rfl⟩ | ⟨-, hold⟩
    · rcases hcases hf with ⟨rfl, -⟩ | ⟨-, hold'⟩
      · rfl
      · obtain rfl := List.mem_singleton.1 hm
        exact absurd hm' (hfresh hold')
    · rcases hcases hf with ⟨-, rfl⟩ | ⟨-, hold'⟩
      · obtain rfl := List.mem_singleton.1 hm'
        exact absurd hm (hfresh hold)
      · exact h.apart hold hold' hm hm'

end Booked

namespace Traffic

/-- The entries of all calls. -/
def ledger (t : Traffic) : List Entry := t.callers.map Caller.entry

theorem getElem?_ledger (t : Traffic) (i : Nat) :
    t.ledger[i]? = (t.callers[i]?).map Caller.entry := List.getElem?_map ..

theorem ledger_afterClient {t : Traffic} {i : Nat} {c : Caller} {next : ClientCall × SharedObject}
    (hc : t.callers[i]? = some c) : (t.afterClient i c next).ledger = t.ledger := by
  apply List.ext_getElem?
  intro k
  rw [getElem?_ledger, getElem?_ledger, callers_afterClient hc]
  split_ifs with hik
  · rw [← hik, hc]
    rfl
  · rfl

/-- Whether the step of a server is that it takes the request. -/
def takes (w : Worker) (run : ServerRun) : Prop :=
  w.run.stage = .waiting ∧ run.stage = .handling

theorem credit_of_not_takes {w : Worker} {run : ServerRun} (h : ¬ takes w run) (j : Nat)
    (c : Caller) : w.credit j run c = c := by
  unfold Worker.credit
  split
  · next hbefore hafter => exact absurd ⟨hbefore, hafter⟩ h
  · rfl

theorem ledger_afterServer_of_not_takes {t : Traffic} {j : Nat} {w : Worker}
    {next : ServerRun × SharedObject} (h : ¬ takes w next.1) :
    (t.afterServer j w next).ledger = t.ledger := by
  apply List.ext_getElem?
  intro k
  rw [getElem?_ledger, getElem?_ledger, callers_afterServer, funext (credit_of_not_takes h j)]
  split_ifs
  · rw [Option.map_id']
  · rfl

theorem ledger_afterServer_of_takes {t : Traffic} {j : Nat} {w : Worker}
    {next : ServerRun × SharedObject} (h : takes w next.1) {i : Nat} {e : Entry}
    (hwriter : t.writer = some i) (he : t.ledger[i]? = some e) (k : Nat) :
    (t.afterServer j w next).ledger[k]? =
      if i = k then some ⟨e.request, e.takenBy ++ [j]⟩ else t.ledger[k]? := by
  rw [getElem?_ledger, callers_afterServer, hwriter]
  by_cases hik : i = k
  · subst hik
    rw [getElem?_ledger] at he
    obtain ⟨c, hc, rfl⟩ := Option.map_eq_some_iff.1 he
    rw [if_pos rfl, if_pos rfl, hc]
    simp only [Option.map_some, Worker.credit, h.1, h.2]
    rfl
  · rw [if_neg fun hk => hik (Option.some.inj hk), if_neg hik, ← getElem?_ledger]

/-! ## How far a request is -/

/-- How far the request in the memory is on its way. -/
inductive Standing
  | posted
  /-- at a server whose handler has not run -/
  | taken (j : Nat)
  /-- at a server whose handler has run -/
  | handled (j : Nat)
  | answered

/-- What one sees of it by the stage of a call. -/
def showsClient? : ClientStage → Option Standing
  | .submitting => some .posted
  | .collecting => some .answered
  | _ => none

/-- What one sees of it by the stage of the server `j`. -/
def showsServer? (j : Nat) : ServerStage → Option Standing
  | .handling => some (.taken j)
  | .reporting _ => some (.handled j)
  | .completing => some .answered
  | _ => none

/-- What one sees of it by the word. -/
def showsWord? : Phase → Option Standing
  | .produced => some .posted
  | .completed => some .answered
  | _ => none

/-- What one sees of it by a party. -/
def shows? (t : Traffic) : Party → Option Standing := t.said showsClient? showsServer?

/-- One sees by the word or by a party that the request is so far. -/
def Shows (t : Traffic) (s : Standing) : Prop :=
  (∃ f : Phase, stateOf t.object = f.word ∧ showsWord? f = some s) ∨ ∃ p, t.shows? p = some s

theorem showsClient?_of_phase? {stage : ClientStage} (h : stage.phase? = none) :
    showsClient? stage = none := by
  cases stage <;> first | rfl | cases h

theorem showsServer?_of_phase? {stage : ServerStage} (h : stage.phase? = none) (j : Nat) :
    showsServer? j stage = none := by
  cases stage <;> first | rfl | cases h

/-- By a party one sees something only while the memory is its own. -/
theorem phase?_of_shows? {t : Traffic} {p : Party} {s : Standing} (h : t.shows? p = some s) :
    ∃ f, t.phase? p = some f := by
  cases hp : t.phase? p with
  | some f => exact ⟨f, rfl⟩
  | none =>
    cases p with
    | client i =>
      obtain ⟨c, hc, hs⟩ := Option.bind_eq_some_iff.1 h
      rw [phase?, said_client hc] at hp
      rw [showsClient?_of_phase? hp] at hs
      cases hs
    | server j =>
      obtain ⟨w, hw, hs⟩ := Option.bind_eq_some_iff.1 h
      rw [phase?, said_server hw] at hp
      rw [showsServer?_of_phase? hp] at hs
      cases hs

theorem Guarded.shows?_of_phase? {t : Traffic} (h : t.Guarded) {p : Party} {f : Phase}
    (hp : t.phase? p = some f) {s : Standing} (hs : t.Shows s) : t.shows? p = some s := by
  rcases hs with ⟨g, hword, hg⟩ | ⟨q, hq⟩
  · have hfg : g = f := Phase.word_injective (hword.symm.trans (h.word hp))
    have hheld := phase?_isFree hp
    rw [← hfg] at hheld
    cases g with
    | produced | completed => cases hheld
    | _ => cases hg
  · obtain ⟨g, hg⟩ := phase?_of_shows? hq
    rw [h.alone hp hg, hq]

theorem Guarded.showsWord?_of_free {t : Traffic} (h : t.Guarded) {f : Phase} (hf : f.isFree)
    (hword : stateOf t.object = f.word) {s : Standing} (hs : t.Shows s) :
    showsWord? f = some s := by
  rcases hs with ⟨g, hg, hshows⟩ | ⟨q, hq⟩
  · rw [Phase.word_injective (hword.symm.trans hg), hshows]
  · obtain ⟨g, hg⟩ := phase?_of_shows? hq
    rw [h.phase?_of_free hf hword q] at hg
    cases hg

/-- What the memory then holds for the entry of the call that wrote last. -/
def Agrees (t : Traffic) (e : Entry) : Standing → Prop
  | .posted => e.takenBy = [] ∧ Delivery.ofObject t.capacity t.object = e.request.delivery
  | .taken j => e.takenBy = [j] ∧ Delivery.ofObject t.capacity t.object = e.request.delivery
  | .handled j => e.takenBy = [j] ∧ ∃ x, t.service? j = some x ∧
      t.object.read dataOffset e.request.data.length = x.left
  | .answered => ∃ j x, e.takenBy = [j] ∧ t.service? j = some x ∧
      t.object.read dataOffset e.request.data.length = x.left ∧
      t.object.word statusOffset = x.status

/-- The memory agrees with the entry of the call that wrote last. -/
def Holds (t : Traffic) (s : Standing) : Prop :=
  ∃ i e, t.writer = some i ∧ t.ledger[i]? = some e ∧ t.Agrees e s

/-- Nothing of this depends on the word, on new calls and on new servers. -/
theorem Holds.mono {t t' : Traffic} {s : Standing} (h : t.Holds s)
    (hwriter : t'.writer = t.writer)
    (hledger : ∀ {i : Nat} {e : Entry}, t.ledger[i]? = some e → t'.ledger[i]? = some e)
    (hservice : ∀ {j : Nat} {x : Service}, t.service? j = some x → t'.service? j = some x)
    (hcapacity : t'.capacity = t.capacity)
    (hobject : t'.object = t.object ∨ ∃ p, t'.object = publish t.object p) : t'.Holds s := by
  obtain ⟨i, e, hi, he, hagrees⟩ := h
  have hdelivery : Delivery.ofObject t'.capacity t'.object =
      Delivery.ofObject t.capacity t.object := by
    rcases hobject with hsame | ⟨p, hpublish⟩
    · rw [hcapacity, hsame]
    · rw [hcapacity, hpublish, delivery_publish]
  have hread (n : Nat) : t'.object.read dataOffset n = t.object.read dataOffset n := by
    rcases hobject with hsame | ⟨p, hpublish⟩
    · rw [hsame]
    · rw [hpublish, read_publish _ _ (by decide)]
  have hstatus : t'.object.word statusOffset = t.object.word statusOffset := by
    rcases hobject with hsame | ⟨p, hpublish⟩
    · rw [hsame]
    · rw [hpublish, word_publish _ _ (by decide)]
  refine ⟨i, e, hwriter.trans hi, hledger he, ?_⟩
  cases s with
  | posted | taken j => exact ⟨hagrees.1, hdelivery.trans hagrees.2⟩
  | handled j =>
    obtain ⟨htaken, x, hx, hleft⟩ := hagrees
    exact ⟨htaken, x, hservice hx, (hread _).trans hleft⟩
  | answered =>
    obtain ⟨j, x, htaken, hx, hleft, hword⟩ := hagrees
    exact ⟨j, x, htaken, hservice hx, (hread _).trans hleft, hstatus.trans hword⟩

/-! ## The invariant -/

/-- Ledger, servers and memory agree. -/
structure Recorded (t : Traffic) : Prop where
  booked : Booked t.ledger t.workers
  writer : ∀ {i : Nat}, t.writer = some i → i < t.callers.length
  unsent : ∀ {i : Nat} {c : Caller}, t.callers[i]? = some c → c.call.stage.isUnsent = true →
    c.takenBy = [] ∧ t.writer ≠ some i
  shows : ∀ {s : Standing}, t.Shows s → t.Holds s

theorem recorded_start (capacity : Nat) : (start capacity).Recorded where
  booked := Booked.nil
  writer := fun h => nomatch h
  unsent := fun h => nomatch h
  shows := by
    intro s hs
    have h :=
      (guarded_start capacity).showsWord?_of_free (f := .idle) rfl (stateOf_start capacity) hs
    cases h

/-- A call begins that nobody has taken. -/
theorem Recorded.call {t : Traffic} (h : t.Recorded) {c : Caller} (htaken : c.takenBy = [])
    (hphase : c.call.stage.phase? = none) :
    Recorded { t with callers := t.callers ++ [c] } := by
  have hledger : ledger { t with callers := t.callers ++ [c] } = t.ledger ++ [⟨c.request, []⟩] := by
    simp only [ledger, List.map_append, List.map_cons, List.map_nil, Caller.entry, htaken]
  refine ⟨?_, fun {i} hi => ?_, fun {i d} hd hstage => ?_, fun {s} hs => ?_⟩
  · rw [hledger]
    exact h.booked.call c.request
  · rw [List.length_append]
    exact Nat.lt_add_right 1 (h.writer hi)
  · rcases getElem?_concat_cases hd with hold | ⟨rfl, rfl⟩
    · exact h.unsent hold hstage
    · exact ⟨htaken, fun hi => Nat.lt_irrefl _ (h.writer hi)⟩
  · have hshows : t.Shows s := by
      rw [Shows, shows?, said_append_caller t (showsClient?_of_phase? hphase)] at hs
      exact hs
    refine (h.shows hshows).mono rfl (fun {i e} he => ?_) id rfl (.inl rfl)
    obtain ⟨hi, -⟩ := List.getElem?_eq_some_iff.1 he
    rw [hledger, List.getElem?_append_left hi, he]

/-- A server begins to wait. -/
theorem Recorded.serve {t : Traffic} (h : t.Recorded) {w : Worker}
    (hstage : w.run.stage = .waiting) :
    Recorded { t with workers := t.workers ++ [w] } := by
  refine ⟨h.booked.serve (by rw [hstage]; rfl), h.writer, h.unsent, fun {s} hs => ?_⟩
  have hshows : t.Shows s := by
    rw [Shows, shows?, said_append_worker t fun j => by rw [hstage]; rfl] at hs
    exact hs
  refine (h.shows hshows).mono rfl id (fun {j x} hx => ?_) rfl (.inl rfl)
  obtain ⟨v, hv, -⟩ := Option.bind_eq_some_iff.1 hx
  obtain ⟨hj, -⟩ := List.getElem?_eq_some_iff.1 hv
  rw [← hx, service?, service?, List.getElem?_append_left hj]

/-! ### Steps of a call -/

theorem isUnsent_of_move {c : ClientCall} {o : SharedObject} {next : ClientCall × SharedObject}
    (move : c.Move o next) (h : next.1.stage.isUnsent = true) :
    c.stage.isUnsent = true ∧ c.stage.isFilling = false := by
  cases move with
  | rest stage => exact ⟨h, ClientStage.isFilling_of_phase? stage⟩
  | acquire stage | notice stage | discard stage | overtaken stage =>
    rw [stage]
    exact ⟨rfl, rfl⟩
  | _ => cases h

/-- A step of a call that is in none of its phases before and after it, and changes nothing, shows
what was seen before. -/
theorem Shows.of_afterClient {t : Traffic} {i : Nat} {c : Caller}
    {next : ClientCall × SharedObject} (hc : t.callers[i]? = some c)
    (hphase : next.1.stage.phase? = none) (hobject : next.2 = t.object) {s : Standing}
    (h : (t.afterClient i c next).Shows s) : t.Shows s := by
  rcases h with ⟨f, hword, hf⟩ | ⟨p, hp⟩
  · exact .inl ⟨f, by rw [← hobject]; exact hword, hf⟩
  · rw [shows?, said_afterClient hc] at hp
    split_ifs at hp
    · rw [showsClient?_of_phase? hphase] at hp
      cases hp
    · exact .inr ⟨p, hp⟩

theorem Recorded.shows_afterClient {t : Traffic} (h : t.Recorded) (hg : t.Guarded)
    (hsound : t.Sound) {i : Nat} {c : Caller} {next : ClientCall × SharedObject}
    (hc : t.callers[i]? = some c) (move : c.call.Move t.object next) {s : Standing}
    (hs : (t.afterClient i c next).Shows s) : (t.afterClient i c next).Holds s := by
  have hg' : (t.afterClient i c next).Guarded := hg.step (.client hc move)
  have howner {f : Phase} (hf : next.1.stage.phase? = some f) :
      showsClient? next.1.stage = some s := by
    have hp : (t.afterClient i c next).phase? (.client i) = some f := by
      rw [phase?, said_afterClient hc, if_pos rfl, hf]
    have := hg'.shows?_of_phase? hp hs
    rwa [shows?, said_afterClient hc, if_pos rfl] at this
  have hfree {f : Phase} (hf : f.isFree = true) (hobject : next.2 = publish t.object f) :
      showsWord? f = some s := by
    refine hg'.showsWord?_of_free hf ?_ hs
    rw [afterClient, hobject]
    exact stateOf_publish hg.room f
  have hkept (hfilling : c.call.stage.isFilling = false)
      (hobject : next.2 = t.object ∨ ∃ p, next.2 = publish t.object p) (hbefore : t.Shows s) :
      (t.afterClient i c next).Holds s := by
    refine (h.shows hbefore).mono ?_ (fun he => ?_) id rfl hobject
    · rw [afterClient, hfilling]
      rfl
    · rw [ledger_afterClient hc, he]
  cases move with
  | acquire => cases howner rfl
  | read => cases howner rfl
  | discard | withdraw | drop | release => cases hfree (f := .idle) rfl rfl
  | fill stage =>
    cases howner rfl
    refine ⟨i, c.entry, ?_, ?_, ?_, ?_⟩
    · rw [afterClient, stage]
      rfl
    · rw [ledger_afterClient hc, getElem?_ledger, hc]
      rfl
    · exact (h.unsent hc (by rw [stage]; rfl)).1
    · have hsc := hsound.callers c (List.mem_of_getElem? hc)
      obtain ⟨hr, hheader, hlength⟩ := hsc.header (by
        rw [ClientCall.isOver, ClientCall.result?, stage]
        rfl)
      have hdata := hsc.unread (hsc.unanswered (by rw [stage]; rfl))
      exact ClientCall.delivery_fill hr hheader hdata hlength hg.size
  | submit stage =>
    cases hfree (f := .produced) rfl rfl
    refine hkept (by rw [stage]; rfl) (.inr ⟨_, rfl⟩) (.inr ⟨.client i, ?_⟩)
    rw [shows?, said_client hc, stage]
    rfl
  | collect stage word =>
    cases howner rfl
    exact hkept (by rw [stage]; rfl) (.inr ⟨_, rfl⟩) (.inl ⟨.completed, word, rfl⟩)
  | rest stage =>
    exact hkept (ClientStage.isFilling_of_phase? stage) (.inl rfl)
      (Shows.of_afterClient hc stage rfl hs)
  | notice stage | giveUp stage | overtaken stage | expire stage | miss stage | abandon stage =>
    exact hkept (by rw [stage]; rfl) (.inl rfl) (Shows.of_afterClient hc rfl rfl hs)

theorem Recorded.client {t : Traffic} (h : t.Recorded) (hg : t.Guarded) (hsound : t.Sound)
    {i : Nat} {c : Caller} {next : ClientCall × SharedObject} (hc : t.callers[i]? = some c)
    (move : c.call.Move t.object next) : (t.afterClient i c next).Recorded := by
  obtain ⟨hi, -⟩ := List.getElem?_eq_some_iff.1 hc
  refine ⟨?_, fun {k} hk => ?_, fun {k d} hd hstage => ?_, h.shows_afterClient hg hsound hc move⟩
  · rw [ledger_afterClient hc]
    exact h.booked
  · rw [afterClient, List.length_set]
    rw [afterClient] at hk
    dsimp only at hk
    split_ifs at hk
    · cases hk
      exact hi
    · exact h.writer hk
  · rw [callers_afterClient hc] at hd
    split_ifs at hd with hik
    · subst hik
      cases hd
      obtain ⟨hunsent, hfilling⟩ := isUnsent_of_move move hstage
      obtain ⟨htaken, hwriter⟩ := h.unsent hc hunsent
      rw [afterClient, hfilling]
      exact ⟨htaken, hwriter⟩
    · obtain ⟨htaken, hwriter⟩ := h.unsent hd hstage
      refine ⟨htaken, ?_⟩
      rw [afterClient]
      dsimp only
      split_ifs
      · exact fun hk => hik (Option.some.inj hk)
      · exact hwriter

/-! ### Steps of a server -/

theorem service?_afterServer {t : Traffic} {j : Nat} {w : Worker} {next : ServerRun × SharedObject}
    (hw : t.workers[j]? = some w) (k : Nat) : (t.afterServer j w next).service? k =
      if j = k then next.1.seen.map fun d => ⟨j, w.handler, d⟩ else t.service? k := by
  rw [service?, workers_afterServer hw]
  split_ifs with hjk
  · subst hjk
    rfl
  · rfl

theorem service?_of_worker {t : Traffic} {j : Nat} {w : Worker} (hw : t.workers[j]? = some w) :
    t.service? j = w.run.seen.map fun d => ⟨j, w.handler, d⟩ := by
  rw [service?, hw]
  rfl

theorem service?_afterServer_of_seen {t : Traffic} {j : Nat} {w : Worker}
    {next : ServerRun × SharedObject} (hw : t.workers[j]? = some w)
    (hseen : next.1.seen = w.run.seen) : (t.afterServer j w next).service? = t.service? := by
  funext k
  rw [service?_afterServer hw]
  split_ifs with hjk
  · rw [← hjk, service?_of_worker hw, hseen]
  · rfl

/-- A server of which one sees nothing, and that changes nothing, shows what was seen before. -/
theorem Shows.of_afterServer {t : Traffic} {j : Nat} {w : Worker}
    {next : ServerRun × SharedObject} (hw : t.workers[j]? = some w)
    (hphase : next.1.stage.phase? = none) (hobject : next.2 = t.object) {s : Standing}
    (h : (t.afterServer j w next).Shows s) : t.Shows s := by
  rcases h with ⟨f, hword, hf⟩ | ⟨p, hp⟩
  · exact .inl ⟨f, by rw [← hobject]; exact hword, hf⟩
  · rw [shows?, said_afterServer hw] at hp
    split_ifs at hp
    · rw [showsServer?_of_phase? hphase] at hp
      cases hp
    · exact .inr ⟨p, hp⟩

theorem not_takes_of_stage {w : Worker} {run : ServerRun} (h : w.run.stage ≠ .waiting) :
    ¬ takes w run := fun ht => h ht.1

theorem not_takes_of_phase? {w : Worker} {run : ServerRun} (h : run.stage.phase? = none) :
    ¬ takes w run := by
  intro ht
  rw [ht.2] at h
  cases h

theorem Recorded.shows_afterServer {t : Traffic} (h : t.Recorded) (hg : t.Guarded)
    (hsound : t.Sound) {j : Nat} {w : Worker} {next : ServerRun × SharedObject}
    (hw : t.workers[j]? = some w) (move : w.run.Move w.handler t.object next) {s : Standing}
    (hs : (t.afterServer j w next).Shows s) : (t.afterServer j w next).Holds s := by
  have hg' : (t.afterServer j w next).Guarded := hg.step (.server hw move)
  have howner {f : Phase} (hf : next.1.stage.phase? = some f) :
      showsServer? j next.1.stage = some s := by
    have hp : (t.afterServer j w next).phase? (.server j) = some f := by
      rw [phase?, said_afterServer hw, if_pos rfl, hf]
    have := hg'.shows?_of_phase? hp hs
    rwa [shows?, said_afterServer hw, if_pos rfl] at this
  have hstage {e : Standing} (he : showsServer? j w.run.stage = some e) : t.Holds e :=
    h.shows (.inr ⟨.server j, by rw [shows?, said_server hw, he]⟩)
  obtain ⟨hcapacity, hseen⟩ := hsound.workers w (List.mem_of_getElem? hw)
  cases move with
  | take stage word =>
    cases howner rfl
    obtain ⟨i, e, hi, he, htaken, hdelivery⟩ := h.shows (.inl ⟨.produced, word, rfl⟩)
    refine ⟨i, ⟨e.request, e.takenBy ++ [j]⟩, hi, ?_, ?_, ?_⟩
    · rw [ledger_afterServer_of_takes ⟨stage, rfl⟩ hi he, if_pos rfl]
    · rw [htaken]
      rfl
    · exact (delivery_publish ..).trans hdelivery
  | handle stage =>
    cases howner rfl
    obtain ⟨i, e, hi, he, htaken, hdelivery⟩ := hstage (by rw [stage]; rfl)
    refine ⟨i, e, hi, ?_, htaken, ⟨j, w.handler, e.request.delivery⟩, ?_, ?_⟩
    · rw [ledger_afterServer_of_not_takes (not_takes_of_stage (by simp [stage])), he]
    · rw [service?_afterServer hw, if_pos rfl, hcapacity, hdelivery]
      rfl
    · rw [afterServer, hcapacity]
      exact ServerRun.read_answerIn w.handler hdelivery hg.size
  | @report status stage =>
    cases howner rfl
    obtain ⟨i, e, hi, he, htaken, x, hx, hleft⟩ := hstage (by rw [stage]; rfl)
    refine ⟨i, e, hi, ?_, j, x, htaken, ?_, ?_, ?_⟩
    · rw [ledger_afterServer_of_not_takes (not_takes_of_stage (by simp [stage])), he]
    · rw [service?_afterServer_of_seen hw rfl, hx]
    · rw [← hleft]
      exact SharedObject.read_write_of_disjoint _ (.inr (by
        rw [Bytes.length_ofWord, dataOffset_eq, statusOffset]
        omega))
    · rw [stage] at hseen
      obtain ⟨d, hd, hstatus⟩ := hseen
      rw [service?_of_worker hw, hd] at hx
      cases hx
      refine (SharedObject.word_writeWord_self _ ?_).trans hstatus.symm
      rw [hg.size, objectSize, dataOffset_eq, statusOffset]
      omega
  | complete stage =>
    have hword : showsWord? .completed = some s :=
      hg'.showsWord?_of_free rfl (stateOf_publish hg.room _) hs
    cases hword
    refine (hstage (by rw [stage]; rfl)).mono rfl (fun he => ?_) (fun hx => ?_) rfl (.inr ⟨_, rfl⟩)
    · rw [ledger_afterServer_of_not_takes (not_takes_of_phase? rfl), he]
    · rw [service?_afterServer_of_seen hw rfl, hx]
  | expire stage =>
    refine (h.shows (Shows.of_afterServer hw rfl rfl hs)).mono rfl (fun he => ?_) (fun hx => ?_) rfl
      (.inl rfl)
    · rw [ledger_afterServer_of_not_takes (not_takes_of_phase? rfl), he]
    · rw [service?_afterServer_of_seen hw rfl, hx]
  | rest stage =>
    refine (h.shows (Shows.of_afterServer hw stage rfl hs)).mono rfl (fun he => ?_) (fun hx => ?_)
      rfl (.inl rfl)
    · rw [ledger_afterServer_of_not_takes (not_takes_of_phase? stage), he]
    · rw [service?_afterServer_of_seen hw rfl, hx]

theorem Recorded.booked_afterServer {t : Traffic} (h : t.Recorded) (hsound : t.Sound) {j : Nat}
    {w : Worker} {next : ServerRun × SharedObject} (hw : t.workers[j]? = some w)
    (move : w.run.Move w.handler t.object next) :
    Booked (t.afterServer j w next).ledger (t.afterServer j w next).workers := by
  obtain ⟨hcapacity, hseen⟩ := hsound.workers w (List.mem_of_getElem? hw)
  have hsame {run : ServerRun} (hrun : run.seen = w.run.seen) (i : Nat) (e : Entry) (d : Delivery)
      (he : t.ledger[i]? = some e) (hj : j ∈ e.takenBy) (hd : run.seen = some d) :
      d = e.request.delivery := by
    obtain ⟨v, hv, -, hdelivery⟩ := h.booked.taken he hj
    rw [hw] at hv
    cases hv
    exact hdelivery d (hrun.symm.trans hd)
  cases move with
  | take stage word =>
    obtain ⟨i, e, hi, he, htaken, -⟩ := h.shows (.inl ⟨.produced, word, rfl⟩)
    obtain ⟨r, l⟩ := e
    cases htaken
    rw [stage] at hseen
    exact h.booked.take he hw (by rw [stage]; rfl) rfl hseen
      (ledger_afterServer_of_takes ⟨stage, rfl⟩ hi he)
  | handle stage =>
    rw [ledger_afterServer_of_not_takes (not_takes_of_stage (by simp [stage]))]
    refine h.booked.move hw (by rw [stage]; rfl) fun k f d hf hj hd => ?_
    obtain ⟨i, e, -, he, htaken, hdelivery⟩ := h.shows (s := .taken j)
      (.inr ⟨.server j, by rw [shows?, said_server hw, stage]; rfl⟩)
    have hik : i = k := h.booked.apart he hf (by rw [htaken]; exact List.mem_singleton.2 rfl) hj
    rw [← hik, he] at hf
    cases hf
    cases hd
    rw [hcapacity]
    exact hdelivery
  | report stage =>
    rw [ledger_afterServer_of_not_takes (not_takes_of_stage (by simp [stage]))]
    exact h.booked.move hw (by rw [stage]; rfl) (hsame rfl)
  | complete stage =>
    rw [ledger_afterServer_of_not_takes (not_takes_of_phase? rfl)]
    exact h.booked.move hw (by rw [stage]; rfl) (hsame rfl)
  | expire stage =>
    rw [ledger_afterServer_of_not_takes (not_takes_of_phase? rfl)]
    exact h.booked.move hw (by rw [stage]; rfl) (hsame rfl)
  | rest stage =>
    rw [ledger_afterServer_of_not_takes (not_takes_of_phase? stage)]
    exact h.booked.move hw rfl (hsame rfl)

theorem Recorded.server {t : Traffic} (h : t.Recorded) (hg : t.Guarded) (hsound : t.Sound)
    {j : Nat} {w : Worker} {next : ServerRun × SharedObject} (hw : t.workers[j]? = some w)
    (move : w.run.Move w.handler t.object next) : (t.afterServer j w next).Recorded := by
  refine ⟨h.booked_afterServer hsound hw move, fun {i} hi => ?_, fun {k d} hd hstage => ?_,
    h.shows_afterServer hg hsound hw move⟩
  · have hlength : (t.afterServer j w next).callers.length = t.callers.length := by
      unfold afterServer
      dsimp only
      split
      · exact List.length_modify ..
      · rfl
    rw [hlength]
    exact h.writer hi
  · rw [callers_afterServer] at hd
    split_ifs at hd with hwriter
    · obtain ⟨c, hc, rfl⟩ := Option.map_eq_some_iff.1 hd
      rw [call_credit] at hstage
      exact absurd hwriter (h.unsent hc hstage).2
    · exact h.unsent hd hstage

theorem Recorded.step {t t' : Traffic} (h : t.Recorded) (hg : t.Guarded) (hsound : t.Sound)
    (hs : Step t t') : t'.Recorded := by
  cases hs with
  | stay => exact h
  | call attached lock => exact h.call rfl (phase?_start ..)
  | serve handler => exact h.serve rfl
  | client caller move => exact h.client hg hsound caller move
  | server worker move => exact h.server hg hsound worker move

theorem recorded_run (capacity : Nat) (acts : List Act) : (run capacity acts).Recorded := by
  have h : (run capacity acts).Sound ∧ (run capacity acts).Recorded := by
    refine guarded_induction (P := fun t => t.Sound ∧ t.Recorded)
      ⟨sound_run capacity [], recorded_start capacity⟩ ?_ acts
    intro t t' hg h hs
    exact ⟨h.1.step hg.lent hs, h.2.step hg h.1 hs⟩
  exact h.2

/-! ## The handler runs of a call -/

/-- A call's request was given to no handler, or it was given to one, as the call has made it. -/
theorem Recorded.services_cases {t : Traffic} (h : t.Recorded) {i : Nat} {c : Caller}
    (hc : t.callers[i]? = some c) :
    t.services c = [] ∨ ∃ x, t.services c = [x] ∧ t.service? x.worker = some x ∧
      c.takenBy = [x.worker] ∧ x.given = c.request.delivery := by
  have he : t.ledger[i]? = some c.entry := by
    rw [getElem?_ledger, hc]
    rfl
  cases htaken : c.takenBy with
  | nil =>
    refine .inl ?_
    rw [services, htaken]
    rfl
  | cons j rest =>
    have hrest : rest = [] := by
      have := h.booked.once he
      rw [Caller.entry, htaken, List.length_cons] at this
      exact List.length_eq_zero_iff.1 (by omega)
    subst hrest
    obtain ⟨w, hw, -, hseen⟩ := h.booked.taken he (show j ∈ c.takenBy by
      rw [htaken]
      exact List.mem_singleton.2 rfl)
    cases hd : w.run.seen with
    | none =>
      refine .inl ?_
      rw [services, htaken, List.filterMap_cons, service?_of_worker hw, hd]
      rfl
    | some d =>
      have hservice : t.service? j = some ⟨j, w.handler, d⟩ := by
        rw [service?_of_worker hw, hd]
        rfl
      refine .inr ⟨⟨j, w.handler, d⟩, ?_, hservice, rfl, hseen d hd⟩
      rw [services, htaken, List.filterMap_cons, hservice]
      rfl

theorem worker_of_service? {t : Traffic} {j : Nat} {x : Service} (hx : t.service? j = some x) :
    x.worker = j := by
  obtain ⟨w, -, hmap⟩ := Option.bind_eq_some_iff.1 hx
  obtain ⟨d, -, rfl⟩ := Option.map_eq_some_iff.1 hmap
  rfl

theorem mem_takenBy_of_mem_services {t : Traffic} {c : Caller} {x : Service}
    (hx : x ∈ t.services c) : x.worker ∈ c.takenBy := by
  obtain ⟨j, hj, hservice⟩ := List.mem_filterMap.1 hx
  rwa [worker_of_service? hservice]

/-- A server whose handler has run has taken a request. -/
theorem Sound.hasTaken {t : Traffic} (h : t.Sound) {j : Nat} {w : Worker} {x : Service}
    (hw : t.workers[j]? = some w) (hx : t.service? j = some x) :
    w.run.stage.hasTaken = true := by
  rw [service?_of_worker hw] at hx
  obtain ⟨d, hd, -⟩ := Option.map_eq_some_iff.1 hx
  have hseen := (h.workers w (List.mem_of_getElem? hw)).seen
  cases hs : w.run.stage with
  | waiting =>
    rw [hs] at hseen
    rw [show w.run.seen = none from hseen] at hd
    cases hd
  | finished served =>
    cases served with
    | true => rfl
    | false =>
      rw [hs] at hseen
      rw [show w.run.seen = none from hseen] at hd
      cases hd
  | _ => rfl

/-- Every handler run is that of one call, and of no other. -/
theorem Recorded.exists_services {t : Traffic} (h : t.Recorded) (hsound : t.Sound) {j : Nat}
    {x : Service} (hx : t.service? j = some x) :
    ∃ (i : Nat) (c : Caller), t.callers[i]? = some c ∧ t.services c = [x] ∧
      ∀ (k : Nat) (d : Caller), t.callers[k]? = some d → x ∈ t.services d → k = i := by
  obtain ⟨w, hw, -⟩ := Option.bind_eq_some_iff.1 hx
  obtain ⟨i, e, he, hj⟩ := h.booked.credited hw (hsound.hasTaken hw hx)
  have hentry := he
  rw [getElem?_ledger] at he
  obtain ⟨c, hc, rfl⟩ := Option.map_eq_some_iff.1 he
  refine ⟨i, c, hc, ?_, fun k d hd hmem => ?_⟩
  · have hmem : x ∈ t.services c := List.mem_filterMap.2 ⟨j, hj, hx⟩
    rcases h.services_cases hc with hnone | ⟨y, hservices, -⟩
    · rw [hnone] at hmem
      cases hmem
    · rw [hservices] at hmem ⊢
      rw [List.mem_singleton.1 hmem]
  · have htaken := mem_takenBy_of_mem_services hmem
    rw [worker_of_service? hx] at htaken
    exact h.booked.apart (e := d.entry) (by rw [getElem?_ledger, hd]; rfl) hentry htaken hj

end Traffic

end Channel

end ContentDecryption
