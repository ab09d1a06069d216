import ContentDecryption.Proofs.Boundary.Calls
import ContentDecryption.Proofs.Client.Reports

/-!
# What a bridge delivers

The callbacks of an application are called for what is reported to their bridge, as long as the
handle that the bridge is for has not been given up. An event can take three ways: it is kept
back until there is a handle, it is handed out at once, or it is dropped. Whichever it takes,
the callbacks see the same: each event once, in the order of the reports, and with the handle,
except those that there is no callback for and those whose lengths do not fit.

So this does not depend on when the handle is made, and it is over with the handle, whoever
else holds the session.

Main definitions:

* `SessionEvent.fits`, `SessionEvent.worded`: what of an event a callback can be given;
* `World.calls`: the calls of callbacks that were written down;
* `Awaits`, `Told`: a bridge before it has a handle, and from then on;
* `Serving`: a bridge between a session and its application, report by report.

Main results:

* `Told.deliver`, `Told.dispatch`: what one event comes to;
* `Awaits.attach`: what was kept back is delivered;
* `Serving.receive`: a notice is a report to the bridge that listens;
* `Serving.calls_eq`: what the callbacks have been called with.
-/

namespace ContentDecryption

/-! ## What a callback is called with -/

namespace SessionEvent

/-- Whether the lengths in an event fit in the words that its callback takes. -/
def fits : SessionEvent → Bool
  | challenge _ bytes => decide (bytes.length ≤ 4294967295)
  | keyUpdated id => decide (id.length ≤ 255)
  | error _ => true
  | keysUpdated => true

/-- An event in the words of its callback: a text with a zero byte is empty. -/
def worded : SessionEvent → SessionEvent
  | challenge url bytes => challenge (terminated url) bytes
  | keyUpdated id => keyUpdated id
  | error message => error (terminated message)
  | keysUpdated => keysUpdated

theorem forCallback?_eq (e : SessionEvent) :
    e.forCallback? = if e.fits then some e.worded else none := by
  cases e with
  | challenge url bytes => simp [forCallback?, fits, worded, Nat.lt_succ_iff]
  | keyUpdated id => simp [forCallback?, fits, worded, Nat.lt_succ_iff]
  | error message => rfl
  | keysUpdated => rfl

end SessionEvent

namespace Callback.Bridge

/-- Whether a callback is called for an event: there is one, and the lengths fit. -/
def heeds (b : Bridge) (e : SessionEvent) : Bool := b.callbacks.contains e.kind && e.fits

/-- The calls that events come to, with a handle. -/
def callsFor (b : Bridge) (k : HandleRef) (events : List SessionEvent) :
    List (HandleRef × SessionEvent) :=
  (events.filter b.heeds).map fun e => (k, e.worded)

theorem invocation?_eq (b : Bridge) (e : SessionEvent) :
    b.invocation? e = if b.heeds e then some e.worded else none := by
  rw [invocation?, SessionEvent.forCallback?_eq, heeds]
  cases b.callbacks.contains e.kind <;> rfl

theorem callsFor_append (b : Bridge) (k : HandleRef) (events later : List SessionEvent) :
    b.callsFor k (events ++ later) = b.callsFor k events ++ b.callsFor k later := by
  rw [callsFor, List.filter_append, List.map_append, callsFor, callsFor]

theorem callsFor_of_invocation? {b : Bridge} {e e' : SessionEvent} (k : HandleRef)
    (h : b.invocation? e = some e') : b.callsFor k [e] = [(k, e')] := by
  rw [invocation?_eq] at h
  split_ifs at h with hheeds
  cases h
  rw [callsFor, List.filter_cons_of_pos hheeds]
  rfl

theorem callsFor_of_not_invocation? {b : Bridge} {e : SessionEvent} (k : HandleRef)
    (h : b.invocation? e = none) : b.callsFor k [e] = [] := by
  rw [invocation?_eq] at h
  split_ifs at h with hheeds
  rw [callsFor, List.filter_cons_of_neg hheeds]
  rfl

theorem attach_of_pending {b : Bridge} {queue : List SessionEvent}
    (h : b.target = .pending queue) (k : HandleRef) : (b.attach k).1 = queue := by
  rw [attach, h]

end Callback.Bridge

namespace Client

open Service Callback

/-- What a journal entry says that a callback of this name was called with. -/
def Entry.call? (name : String) : Entry → Option (HandleRef × SessionEvent)
  | .called other handle _ event => if other = name then some (handle, event) else none
  | _ => none

namespace World

variable {σ : Type} (w : World σ)

/-- The calls of the callbacks of this name, first first: with which handle, and for which event. -/
def calls (name : String) : List (HandleRef × SessionEvent) :=
  w.journal.reverse.filterMap (Entry.call? name)

theorem calls_cons (name : String) (e : Entry) :
    World.calls { w with journal := e :: w.journal } name =
      w.calls name ++ (e.call? name).toList := by
  rw [calls, filterMap_reverse_cons, calls]

theorem calls_answered [Service σ] (r : Request) (name : String) :
    (w.answered r).calls name = w.calls name :=
  w.filterMap_journal_answered r rfl

end World

/-! ## Where a bridge stands -/

section

variable {σ : Type} {x : Bridge} {b : BridgeRef} {k : HandleRef} {t : Target}
  {events : List SessionEvent} {said : List (HandleRef × SessionEvent)} {w w' : World σ}

/-- A bridge has the name and the callbacks of `x`, and this target. -/
def Stands (x : Bridge) (b : BridgeRef) (t : Target) (w : World σ) : Prop :=
  ∃ y, w.bridges[b]? = some y ∧ y.name = x.name ∧ y.callbacks = x.callbacks ∧ y.target = t

theorem Stands.setBridge (h : Stands x b t w) {t' : Target} {f : Bridge → Bridge}
    (hname : (f (w.bridge b)).name = (w.bridge b).name)
    (hcallbacks : (f (w.bridge b)).callbacks = (w.bridge b).callbacks)
    (htarget : (f (w.bridge b)).target = t') : Stands x b t' (w.setBridge b f) := by
  obtain ⟨y, hy, hyname, hycallbacks, -⟩ := h
  rw [World.bridge_of_getElem? hy] at hname hcallbacks htarget
  refine ⟨f y, ?_, hname.trans hyname, hcallbacks.trans hycallbacks, htarget⟩
  show (w.bridges.modify b f)[b]? = some (f y)
  rw [List.getElem?_modify_eq, hy]
  rfl

theorem Stands.name_eq (h : Stands x b t w) : (w.bridge b).name = x.name := by
  obtain ⟨y, hy, hname, -⟩ := h
  rw [World.bridge_of_getElem? hy, hname]

theorem Stands.target_eq (h : Stands x b t w) : (w.bridge b).target = t := by
  obtain ⟨y, hy, -, -, htarget⟩ := h
  rw [World.bridge_of_getElem? hy, htarget]

theorem Stands.invocation?_eq (h : Stands x b t w) (e : SessionEvent) :
    (w.bridge b).invocation? e = x.invocation? e := by
  obtain ⟨y, hy, -, hcallbacks, -⟩ := h
  rw [World.bridge_of_getElem? hy, Bridge.invocation?, Bridge.invocation?, hcallbacks]

/-- A bridge that is kept until there is a handle, with the events that it has kept back. -/
structure Awaits (x : Bridge) (b : BridgeRef) (events : List SessionEvent)
    (said : List (HandleRef × SessionEvent)) (w : World σ) : Prop where
  bridge : Stands x b (.pending events) w
  calls : w.calls x.name = said

/-- A bridge that has had a handle, and the calls of its callbacks. -/
structure Told (x : Bridge) (b : BridgeRef) (k : HandleRef)
    (said : List (HandleRef × SessionEvent)) (w : World σ) : Prop where
  bridge : Stands x b (if (w.handle k).live then .attached k else .detached) w
  handle : ∃ z, w.handles[k]? = some z ∧ z.bridge = some b
  calls : w.calls x.name = said

/-! ## What is done at a bridge -/

/-- A handle that nobody has any more is given up in vain. -/
theorem exec_dropHandle_of_not_live [Service σ] {z : Handle} (hz : w.handles[k]? = some z)
    (hlive : z.live = false) : (Action.dropHandle k).exec w = (.ok (), w) := by
  unfold Action.dropHandle
  rw [Action.exec_get_bind, World.handle_of_getElem? hz]
  dsimp only
  rw [hlive]
  rfl

theorem exec_dropHandle_of_bridge [Service σ] {z : Handle} (hz : w.handles[k]? = some z)
    (hlive : z.live = true) (hbridge : z.bridge = some b) :
    (Action.dropHandle k).exec w = (Action.dropSession z.session).exec
      ((w.setHandle k fun z => { z with live := false }).setBridge b Bridge.detach) := by
  unfold Action.dropHandle
  rw [Action.exec_get_bind, World.handle_of_getElem? hz]
  dsimp only
  rw [hlive, hbridge]
  rfl

theorem world_destructSession [Service σ] (k : HandleRef) (w : World σ) :
    ((Boundary.destructSession (some k)).run w).2 = ((Action.dropHandle k).exec w).2 :=
  Boundary.Call.world_status _ w

/-- An event is kept back until there is a handle. -/
theorem exec_dispatch_of_pending [Service σ] (h : (w.bridge b).target = .pending events)
    (e : SessionEvent) : (Action.dispatch b e).exec w =
      (.ok (), w.setBridge b fun _ => { w.bridge b with target := .pending (events ++ [e]) }) := by
  unfold Action.dispatch
  rw [Action.exec_get_bind, Bridge.offer, h]
  rfl

/-- An event is handed out, and meanwhile the thread is inside a callback. -/
theorem exec_dispatch_of_attached [Service σ] (h : (w.bridge b).target = .attached k)
    (e : SessionEvent) :
    let entered := w.setBridge b fun _ =>
      { w.bridge b with
        target := .attached k, delivering := clientThread :: (w.bridge b).delivering }
    ((Action.dispatch b e).exec w).2 =
      ((Action.deliver k b e).exec entered).2.setBridge b fun x => x.leave clientThread := by
  intro entered
  obtain ⟨_, w', hexec⟩ := Action.succeeds_deliver k b e entered
  have hdispatch : (Action.dispatch b e).exec w = (Action.deliver k b e >>= fun _ =>
      modify fun w => w.setBridge b fun x => x.leave clientThread : Action σ Unit).exec entered := by
    unfold Action.dispatch
    rw [Action.exec_get_bind, Bridge.offer, h]
    rfl
  rw [hdispatch, Action.exec_bind_of_ok hexec, hexec]
  rfl

/-- An event is dropped. -/
theorem exec_dispatch_of_detached [Service σ] (h : (w.bridge b).target = .detached)
    (e : SessionEvent) :
    (Action.dispatch b e).exec w = (.ok (), w.setBridge b fun _ => w.bridge b) := by
  unfold Action.dispatch
  rw [Action.exec_get_bind, Bridge.offer, h]
  rfl

/-! ## What becomes of an event -/

namespace Told

/-- Its bridge, its handle and its calls decide. -/
theorem congr (h : Told x b k said w) (hbridge : w'.bridges[b]? = w.bridges[b]?)
    (hhandle : w'.handles[k]? = w.handles[k]?) (hcalls : w'.calls x.name = w.calls x.name) :
    Told x b k said w' where
  bridge := by
    rw [World.handle, List.getD_eq_getElem?_getD, hhandle, ← List.getD_eq_getElem?_getD]
    obtain ⟨y, hy, hstands⟩ := h.bridge
    exact ⟨y, hbridge.trans hy, hstands⟩
  handle := by
    rw [hhandle]
    exact h.handle
  calls := hcalls.trans h.calls

/-- Something is written down. -/
theorem record (h : Told x b k said w) (e : Entry) :
    Told x b k (said ++ (e.call? x.name).toList) { w with journal := e :: w.journal } where
  bridge := h.bridge
  handle := h.handle
  calls := by rw [World.calls_cons, h.calls]

variable [Service σ]

/-- Its session may lose a handle. -/
theorem keeps_dropSession (i : SessionRef) :
    (Action.dropSession i : Action σ Unit).Keeps (Told x b k said) :=
  .dropSession (fun hw => hw.congr rfl rfl rfl) (fun hw => hw.congr rfl rfl rfl)
    (.ask fun {w} hw => hw.congr rfl rfl (w.calls_answered _ _)) (fun hw => hw.congr rfl rfl rfl) i

/-- The handle is given up. Nobody has it any more, and the bridge is detached. -/
theorem dropHandle (h : Told x b k said w) :
    let w' := ((Action.dropHandle k).exec w).2
    Told x b k said w' ∧ (w'.handle k).live = false := by
  intro w'
  obtain ⟨z, hz, hzbridge⟩ := h.handle
  cases hlive : z.live with
  | true =>
    let closed := (w.setHandle k fun z => { z with live := false }).setBridge b Bridge.detach
    have hexec : w' = ((Action.dropSession z.session).exec closed).2 :=
      congrArg Prod.snd (exec_dropHandle_of_bridge hz hlive hzbridge)
    have hclosed : closed.handles[k]? = some { z with live := false } := by
      show (w.handles.modify k _)[k]? = _
      rw [List.getElem?_modify_eq, hz]
      rfl
    have hgone : (closed.handle k).live = false := by rw [World.handle_of_getElem? hclosed]
    have htold : Told x b k said closed := by
      refine ⟨?_, ⟨_, hclosed, hzbridge⟩, h.calls⟩
      rw [hgone]
      exact h.bridge.setBridge rfl rfl rfl
    rw [hexec]
    refine ⟨keeps_dropSession _ closed htold, ?_⟩
    rw [World.handle, handles_dropSession]
    exact hgone
  | false =>
    have hexec : w' = w := congrArg Prod.snd (exec_dropHandle_of_not_live hz hlive)
    rw [hexec]
    exact ⟨h, by rw [World.handle_of_getElem? hz, hlive]⟩

/-- The callback for an event is called if there is one. It may give the handle up. -/
theorem deliver (h : Told x b k said w) (e : SessionEvent) :
    Told x b k (said ++ x.callsFor k [e]) ((Action.deliver k b e).exec w).2 := by
  unfold Action.deliver
  rw [Action.exec_get_bind]
  dsimp only
  rw [h.bridge.invocation?_eq, h.bridge.name_eq]
  cases hinvocation : x.invocation? e with
  | none =>
    rw [Bridge.callsFor_of_not_invocation? k hinvocation, List.append_nil]
    exact h
  | some e' =>
    have hcalled := h.record (.called x.name k (w.handle k).id e')
    rw [Entry.call?, if_pos rfl] at hcalled
    rw [Bridge.callsFor_of_invocation? k hinvocation]
    have hrelease : (do
        let status ← Action.guarded (Action.dropHandle k)
        Action.record (.released x.name status) : Action σ Unit).Keeps
          (Told x b k (said ++ [(k, e')])) :=
      .bind (.guarded fun _ hw => hw.dropHandle.1) fun _ => .modify fun _ hw => by
        simpa [Entry.call?] using hw.record (.released x.name _)
    exact Action.Keeps.ite (fun _ => hrelease) (fun _ => .pure ()) _ hcalled

/-- What was kept back is delivered in order. -/
theorem deliverAll (h : Told x b k said w) (events : List SessionEvent) :
    Told x b k (said ++ x.callsFor k events) ((events.forM (Action.deliver k b)).exec w).2 := by
  induction events generalizing said w with
  | nil => exact (List.append_nil said).symm ▸ h
  | cons e events ih =>
    obtain ⟨_, w', hexec⟩ := Action.succeeds_deliver k b e w
    have hfirst := h.deliver e
    rw [hexec] at hfirst
    have hrest := ih hfirst
    rw [List.append_assoc, ← Bridge.callsFor_append] at hrest
    have hall : ((e :: events).forM (Action.deliver k b)).exec w =
        (events.forM (Action.deliver k b)).exec w' := Action.exec_bind_of_ok hexec _
    rw [hall]
    exact hrest

omit [Service σ] in
/-- The bridge changes in what is not its name, its callbacks or its target. -/
theorem setBridge (h : Told x b k said w) {f : Bridge → Bridge}
    (hname : (f (w.bridge b)).name = (w.bridge b).name)
    (hcallbacks : (f (w.bridge b)).callbacks = (w.bridge b).callbacks)
    (htarget : (f (w.bridge b)).target = (w.bridge b).target) :
    Told x b k said (w.setBridge b f) :=
  ⟨h.bridge.setBridge hname hcallbacks (htarget.trans h.bridge.target_eq), h.handle, h.calls⟩

/-- An event is handed out if there is still the handle. -/
theorem dispatch (h : Told x b k said w) (hlive : (w.handle k).live = true) (e : SessionEvent) :
    Told x b k (said ++ x.callsFor k [e]) ((Action.dispatch b e).exec w).2 := by
  have htarget := h.bridge.target_eq
  rw [if_pos hlive] at htarget
  rw [exec_dispatch_of_attached htarget]
  have hentered := h.setBridge (f := fun _ => { w.bridge b with
    target := .attached k, delivering := clientThread :: (w.bridge b).delivering })
    rfl rfl htarget.symm
  exact (hentered.deliver e).setBridge rfl rfl rfl

/-- An event is dropped if there is no handle any more. -/
theorem drop (h : Told x b k said w) (hgone : (w.handle k).live = false) (e : SessionEvent) :
    Told x b k said ((Action.dispatch b e).exec w).2 := by
  have htarget := h.bridge.target_eq
  rw [hgone] at htarget
  rw [exec_dispatch_of_detached htarget]
  exact h.setBridge rfl rfl rfl

end Told

namespace Awaits

variable [Service σ]

/-- An event is kept back. -/
theorem dispatch (h : Awaits x b events said w) (e : SessionEvent) :
    Awaits x b (events ++ [e]) said ((Action.dispatch b e).exec w).2 := by
  rw [exec_dispatch_of_pending h.bridge.target_eq]
  exact ⟨h.bridge.setBridge rfl rfl rfl, h.calls⟩

/-- There is a handle, and what was kept back is delivered with it. -/
theorem attach (h : Awaits x b events said w) {i : SessionRef}
    (hopened : ((Boundary.openHandle i (some b)).exec w).1 = .ok k) :
    Told x b k (said ++ x.callsFor k events) ((Boundary.openHandle i (some b)).exec w).2 := by
  rcases Action.openHandle_cases w i (some b) with hcase | ⟨f, hcase⟩
  · rw [hcase] at hopened ⊢
    cases hopened
    let z : Handle := ⟨i, (w.session i).id, (w.session i).bufferId, some b, true⟩
    let opened : World σ := { w with handles := w.handles ++ [z] }
    have hz : opened.handles[w.handles.length]? = some z := List.getElem?_concat_length
    let attached := opened.setBridge b fun _ => ((opened.bridge b).attach w.handles.length).2
    have hattached : Told x b w.handles.length said attached := by
      refine ⟨?_, ⟨z, hz, rfl⟩, h.calls⟩
      rw [show attached.handle _ = z from World.handle_of_getElem? hz]
      exact h.bridge.setBridge rfl rfl rfl
    have hqueue : ((opened.bridge b).attach w.handles.length).1 = events :=
      Bridge.attach_of_pending h.bridge.target_eq _
    rw [← hqueue]
    exact hattached.deliverAll _
  · rw [hcase] at hopened
    cases hopened

end Awaits

end

/-! ## Reports one after the other -/

/-- What was reported to a bridge is kept back, or it was delivered with the handle. -/
def Served {σ : Type} (x : Bridge) (b : BridgeRef) (events : List SessionEvent)
    (said : List (HandleRef × SessionEvent)) : Option HandleRef → World σ → Prop
  | none => Awaits x b events said
  | some k => Told x b k (said ++ x.callsFor k events)

/-- What is none of a bridge's business: it stays as it is, and so does the handle that it has been
attached to, and its callbacks are not called. -/
structure Aside {σ : Type} (b : BridgeRef) (attached : Option HandleRef) (w w' : World σ) :
    Prop where
  bridge : w'.bridges[b]? = w.bridges[b]?
  handle : ∀ k, attached = some k → w'.handles[k]? = w.handles[k]?
  calls : w'.calls (w.bridge b).name = w.calls (w.bridge b).name

/-- The worlds that a bridge goes through from a first one on, with the events that were reported to
it while it had no handle or a living one, and the handle that it has been attached to. In between
anything may go on that is none of its business. -/
inductive Serving {σ : Type} [Service σ] (b : BridgeRef) (first : World σ) :
    World σ → List SessionEvent → Option HandleRef → Prop
  | start : Serving b first first [] none
  | report {w : World σ} {events : List SessionEvent} {attached : Option HandleRef}
      (before : Serving b first w events attached)
      (living : ∀ k, attached = some k → (w.handle k).live = true) (e : SessionEvent) :
      Serving b first ((Action.dispatch b e).exec w).2 (events ++ [e]) attached
  /-- There is a handle now. -/
  | attach {w : World σ} {events : List SessionEvent} {k : HandleRef}
      (before : Serving b first w events none) (i : SessionRef)
      (opened : ((Boundary.openHandle i (some b)).exec w).1 = .ok k) :
      Serving b first ((Boundary.openHandle i (some b)).exec w).2 events (some k)
  /-- The handle is given up. -/
  | destruct {w : World σ} {events : List SessionEvent} {k : HandleRef}
      (before : Serving b first w events (some k)) :
      Serving b first ((Boundary.destructSession (some k)).run w).2 events (some k)
  /-- A report that comes after that. -/
  | late {w : World σ} {events : List SessionEvent} {k : HandleRef}
      (before : Serving b first w events (some k)) (gone : (w.handle k).live = false)
      (e : SessionEvent) : Serving b first ((Action.dispatch b e).exec w).2 events (some k)
  | aside {w w' : World σ} {events : List SessionEvent} {attached : Option HandleRef}
      (before : Serving b first w events attached) (aside : Aside b attached w w') :
      Serving b first w' events attached

namespace Serving

variable {σ : Type} [Service σ] {b : BridgeRef} {first w w' : World σ} {x : Bridge}
  {events : List SessionEvent} {attached : Option HandleRef} {k k' : HandleRef}

theorem served (h : Serving b first w events attached) (made : first.bridges[b]? = some x)
    (unused : x.target = .pending []) : Served x b events (first.calls x.name) attached w := by
  induction h with
  | start => exact ⟨⟨x, made, rfl, rfl, unused⟩, rfl⟩
  | @report w events attached _ living e ih =>
    cases attached with
    | none => exact Awaits.dispatch ih e
    | some k =>
      have htold := Told.dispatch ih (living k rfl) e
      rwa [List.append_assoc, ← Bridge.callsFor_append] at htold
  | attach _ _ opened ih => exact Awaits.attach ih opened
  | @destruct w _ k _ ih =>
    rw [world_destructSession]
    exact (Told.dropHandle ih).1
  | late _ gone e ih => exact Told.drop ih gone e
  | @aside w w' events attached _ aside ih =>
    obtain ⟨hbridge, hhandle, hcalls⟩ := aside
    cases attached with
    | none =>
      obtain ⟨hstands, hsaid⟩ : Awaits x b events (first.calls x.name) w := ih
      rw [hstands.name_eq] at hcalls
      obtain ⟨y, hy, hsame⟩ := hstands
      exact ⟨⟨y, hbridge.trans hy, hsame⟩, hcalls.trans hsaid⟩
    | some k =>
      have htold : Told x b k (first.calls x.name ++ x.callsFor k events) w := ih
      rw [htold.bridge.name_eq] at hcalls
      exact htold.congr hbridge (hhandle k rfl) hcalls

/-- Nothing but the bridge, the handle and the calls matters. -/
theorem aside_of_eq (h : Serving b first w events attached) (hbridges : w'.bridges = w.bridges)
    (hhandles : w'.handles = w.handles) (hjournal : w'.journal = w.journal) :
    Serving b first w' events attached :=
  h.aside ⟨by rw [hbridges], fun _ _ => by rw [hhandles], by rw [World.calls, hjournal, World.calls]⟩

theorem keeps_dropRegistry (r : RegistryRef) :
    (Action.dropRegistry r : Action σ Unit).Keeps fun w => Serving b first w events attached :=
  .dropRegistry (fun _ hw => hw.aside_of_eq rfl rfl rfl)
    (.ask fun {w} hw => hw.aside ⟨rfl, fun _ _ => rfl, w.calls_answered _ _⟩) r

/-- What is heard of a notice is reported to the bridge that listens. -/
theorem receive (h : Serving b first w events attached) {s : SinkRef}
    (listening : (w.sink s).listener = .bridge b)
    (living : ∀ k, attached = some k → (w.handle k).live = true) (n : Notice) :
    Serving b first ((Action.receive s n).exec w).2 (events ++ n.event?.toList) attached := by
  let held := w.setRegistry (w.sink s).registry fun x => { x with handles := x.handles + 1 }
  let learned := held.setSink s fun y => y.hear n
  have hlearned : Serving b first learned events attached := h.aside_of_eq rfl rfl rfl
  have hlistening : (learned.sink s).listener = .bridge b :=
    (listener_setSink held s fun y => y.listener_hear n).trans listening
  have htold : Serving b first
      (n.event?.elim learned fun e => ((Action.announce s e).exec learned).2)
      (events ++ n.event?.toList) attached := by
    cases n.event? with
    | none => exact (List.append_nil events).symm ▸ hlearned
    | some e =>
      show Serving b first ((Action.announce s e).exec learned).2 (events ++ [e]) attached
      unfold Action.announce
      rw [Action.exec_get_bind, hlistening]
      exact hlearned.report living e
  rw [exec_receive]
  refine keeps_dropRegistry _ _ ?_
  rw [world_takeIn]
  split
  · exact htold.aside_of_eq rfl rfl rfl
  · exact htold

/-- **Callbacks are called for what is reported while the handle lives.** Whatever events are
reported to a bridge, whenever it is attached to its handle, and whatever else goes on meanwhile:

* before there is a handle no callback is called; from then on the calls are those for the events
  that were reported until the handle was given up, each once, in the order of the reports and with
  this handle, except those that there is no callback for, challenges of more than 4294967295 bytes
  and key IDs of more than 255;
* with the same events the same calls are made, wherever the handle was made in between;
* whoever gives the handle up, it is gone, and no report that comes later is delivered. -/
theorem calls_eq (h : Serving b first w events attached) (made : first.bridges[b]? = some x)
    (unused : x.target = .pending []) :
    (w.calls x.name = first.calls x.name ++ attached.elim [] fun k =>
      (events.filter fun e => x.callbacks.contains e.kind && e.fits).map fun e => (k, e.worded)) ∧
    (∀ {w' k k'}, attached = some k → Serving b first w' events (some k') →
      (w'.calls x.name).map Prod.snd = (w.calls x.name).map Prod.snd) ∧
    ∀ {k}, attached = some k →
      let w' := ((Boundary.destructSession (some k)).run w).2
      ((w'.handle k).live = false ∧ w'.calls x.name = w.calls x.name) ∧
      ((w.handle k).live = false → ∀ e,
        ((Action.dispatch b e).exec w).2.calls x.name = w.calls x.name) := by
  have hserved := h.served made unused
  refine ⟨?_, fun {w' k k'} hk h' => ?_, fun {k} hk => ?_⟩
  · cases attached with
    | none => exact (Awaits.calls hserved).trans (List.append_nil _).symm
    | some k => exact Told.calls hserved
  · subst hk
    have hother : Served x b events (first.calls x.name) (some k') w' := h'.served made unused
    rw [Told.calls hother, Told.calls hserved, List.map_append, List.map_append, Bridge.callsFor,
      Bridge.callsFor, List.map_map, List.map_map]
    rfl
  · subst hk
    intro w'
    have htold : Told x b k (first.calls x.name ++ x.callsFor k events) w := hserved
    have hgone := htold.dropHandle
    rw [show w' = _ from world_destructSession k w]
    exact ⟨⟨hgone.2, hgone.1.calls.trans htold.calls.symm⟩,
      fun hlive e => (htold.drop hlive e).calls.trans htold.calls.symm⟩

end Serving

/-- A session whose callbacks have a bridge, and no handle yet. -/
def unopened : World Scripted.Engine where
  service := { script := { sessionId := fun _ => "s", bufferId := fun _ => "b" } }
  registries := [{ settings := { connector := "" } }]
  sinks := [{ listener := .bridge 0 }]
  sessions := [{ id := "s", bufferId := "b", handles := 2 }]
  bridges := [{ name := "c", callbacks := [.challenge, .keyUpdated] }]

/-- A message is kept back until there is a handle. Another handle to the session is made, and holds
it when the first one is given up. -/
theorem calls_unopened :
    let asked := ((Action.receive 0 (.message "u" [1])).exec unopened).2
    let opened := ((Boundary.openHandle 0 (some 0)).exec asked).2
    let long := ((Action.dispatch 0 (.keyUpdated (List.replicate 256 0))).exec opened).2
    let other := ((Boundary.openHandle 0 none).exec long).2
    let key := ((Action.receive 0 (.keyStatus [2] .usable)).exec other).2
    let given := ((Boundary.destructSession (some 0)).run key).2
    given.isLive 0 = true ∧ key.calls "c" = [(0, .challenge "u" [1]), (0, .keyUpdated [2])] ∧
      ((Action.dispatch 0 (.keyUpdated [3])).exec given).2.calls "c" = key.calls "c" := by
  intro asked opened long other key given
  have hasked : Serving 0 unopened asked [.challenge "u" [1]] none :=
    Serving.start.receive rfl (fun _ => nofun) (.message "u" [1])
  have hopened : Serving 0 unopened opened [.challenge "u" [1]] (some 0) :=
    hasked.attach 0 (by decide +kernel)
  have hliving : ∀ k, some 0 = some k → (opened.handle k).live = true := by
    rintro _ ⟨⟩
    decide +kernel
  have hlong : Serving 0 unopened long _ (some 0) :=
    hopened.report hliving (.keyUpdated (List.replicate 256 0))
  have hsame : ∀ k, some 0 = some k → other.handles[k]? = long.handles[k]? := by
    rintro _ ⟨⟩
    decide +kernel
  have hother : Serving 0 unopened other _ (some 0) :=
    hlong.aside ⟨by decide +kernel, hsame, by decide +kernel⟩
  have hstill : ∀ k, some 0 = some k → (other.handle k).live = true := by
    rintro _ ⟨⟩
    decide +kernel
  have hkey : Serving 0 unopened key _ (some 0) :=
    hother.receive (by decide +kernel) hstill (.keyStatus [2] .usable)
  have hgone : (given.handle 0).live = false := by decide +kernel
  have hmade : unopened.bridges[0]? = some { name := "c", callbacks := [.challenge, .keyUpdated] } :=
    rfl
  refine ⟨by decide +kernel, (hkey.calls_eq hmade rfl).1.trans (by decide +kernel), ?_⟩
  have hgiven := hkey.destruct.calls_eq hmade rfl
  exact ((hgiven.2.2 rfl).2 hgone _).trans ((hkey.calls_eq hmade rfl).2.2 rfl).1.2

end Client

end ContentDecryption
