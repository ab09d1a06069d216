import ContentDecryption.Proofs.Channel.Network

/-!
# Whose the names and the objects are

Of servers and clients that come and go under any names it is told here who does what where:
a call is at the object that its client attached to, a handler runs at the object that its
server made, and neither changes when the name comes to lead elsewhere.

Main definitions:

* `Network.Traced`: the calls and waits at the objects, and the deeds that began them.

Main results:

* `Network.getElem?_members_run`: a client keeps the object that it attached to;
* `Network.Traced.step`, `Network.traced_run`: who calls at an object, and who serves there;
* `Network.name_ownership`: whose the names and the objects are, in every run.
-/

namespace ContentDecryption

namespace Channel

namespace Traffic

/-! ## Who calls and who waits at a channel -/

/-- A call keeps its client and its request. An act that adds a call is its beginning. -/
theorem mem_callers_step {t : Traffic} {x : Act} {c : Caller} (h : c ∈ (t.step x).callers) :
    (∃ d ∈ t.callers, c.client = d.client ∧ c.request = d.request) ∨
      ∃ poisoned, x = .call c.client poisoned c.request := by
  have hold (hc : c ∈ t.callers) : ∃ d ∈ t.callers, c.client = d.client ∧ c.request = d.request :=
    ⟨c, hc, rfl, rfl⟩
  cases x with
  | call a poisoned r =>
    simp only [step] at h
    split_ifs at h
    · rcases List.mem_append.1 h with hc | hnew
      · exact .inl (hold hc)
      · obtain rfl := List.mem_singleton.1 hnew
        exact .inr ⟨poisoned, rfl⟩
    · exact .inl (hold h)
  | serve handler => exact .inl (hold h)
  | client i expired =>
    simp only [step] at h
    cases hi : t.callers[i]? with
    | none =>
      rw [hi] at h
      exact .inl (hold h)
    | some d =>
      rw [hi] at h
      rcases List.mem_or_eq_of_mem_set h with hc | rfl
      · exact .inl (hold hc)
      · exact .inl ⟨d, List.mem_of_getElem? hi, rfl, rfl⟩
  | server j expired =>
    simp only [step] at h
    cases hj : t.workers[j]? with
    | none =>
      rw [hj] at h
      exact .inl (hold h)
    | some w =>
      rw [hj] at h
      obtain ⟨k, hk⟩ := List.mem_iff_getElem?.1 h
      rw [callers_afterServer] at hk
      split_ifs at hk
      · obtain ⟨d, hd, rfl⟩ := Option.map_eq_some_iff.1 hk
        exact .inl ⟨d, List.mem_of_getElem? hd, client_credit .., request_credit ..⟩
      · exact .inl (hold (List.mem_of_getElem? hk))

/-- A server keeps its handler. An act that adds a server is the beginning of its wait. -/
theorem mem_workers_step {t : Traffic} {x : Act} {w : Worker} (h : w ∈ (t.step x).workers) :
    (∃ v ∈ t.workers, w.handler = v.handler) ∨ x = .serve w.handler := by
  have hold (hw : w ∈ t.workers) : ∃ v ∈ t.workers, w.handler = v.handler := ⟨w, hw, rfl⟩
  cases x with
  | call a poisoned r =>
    simp only [step] at h
    split_ifs at h
    · exact .inl (hold h)
    · exact .inl (hold h)
  | serve handler =>
    rcases List.mem_append.1 h with hw | hnew
    · exact .inl (hold hw)
    · obtain rfl := List.mem_singleton.1 hnew
      exact .inr rfl
  | client i expired =>
    simp only [step] at h
    cases hi : t.callers[i]? with
    | none =>
      rw [hi] at h
      exact .inl (hold h)
    | some d =>
      rw [hi] at h
      exact .inl (hold h)
  | server j expired =>
    simp only [step] at h
    cases hj : t.workers[j]? with
    | none =>
      rw [hj] at h
      exact .inl (hold h)
    | some v =>
      rw [hj] at h
      rcases List.mem_or_eq_of_mem_set h with hw | rfl
      · exact .inl (hold hw)
      · exact .inl ⟨v, List.mem_of_getElem? hj, rfl⟩

end Traffic

/-- A server that cannot be made leaves the memory as it was. -/
theorem Server.eq_of_create_error {m m' : SharedMemory} {name : String} {capacity : Nat}
    {mappable : Bool} {e : Error}
    (h : Server.create m name capacity mappable = (.error e, m')) : m' = m := by
  rcases Server.create_cases m name capacity mappable with ⟨e', he⟩ | ⟨path, m₁, hok, -⟩
  · rw [he] at h
    cases h
    rfl
  · rw [hok] at h
    cases h

namespace Network

variable {N : Network}

/-! ## Calls and waits -/

/-- A client that has attached keeps its attachment. -/
theorem getElem?_members_step (N : Network) (d : Deed) {i : Nat} {c : Member}
    (hc : N.members[i]? = some c) :
    ∃ c', (N.step d).members[i]? = some c' ∧ c'.attachment = c.attachment := by
  have hact (n : Nat) (x : Act) : (N.act n x).members = N.members := by
    unfold act
    split <;> rfl
  have hkept {M : Network} (hM : M.members = N.members) :
      ∃ c', M.members[i]? = some c' ∧ c'.attachment = c.attachment := ⟨c, by rw [hM, hc], rfl⟩
  cases d with
  | create name capacity sizeLimit mappable =>
    apply hkept
    show (N.create name capacity sizeLimit mappable).members = N.members
    unfold create
    split <;> rfl
  | dropServer n =>
    apply hkept
    show (N.dropServer n).members = N.members
    unfold dropServer
    split <;> rfl
  | attach name timeoutMs reserved lock mappable =>
    show ∃ c', (N.attach name timeoutMs reserved lock mappable).members[i]? = some c' ∧ _
    unfold attach
    split
    · exact ⟨c, hc, rfl⟩
    · refine ⟨c, ?_, rfl⟩
      rw [List.getElem?_append_left (List.getElem?_eq_some_iff.1 hc).1, hc]
  | dropClient k =>
    show ∃ c', (N.members.modify k _)[i]? = some c' ∧ _
    rw [List.getElem?_modify, hc]
    refine ⟨_, rfl, ?_⟩
    split_ifs <;> rfl
  | decrypt k poisoned r =>
    apply hkept
    show (N.decrypt k poisoned r).members = N.members
    unfold decrypt
    split
    · exact hact _ _
    · rfl
  | serve n handler =>
    apply hkept
    show (N.serve n handler).members = N.members
    unfold serve
    split
    · exact hact _ _
    · rfl
  | client n k expired => exact hkept (hact n _)
  | server n k expired => exact hkept (hact n _)

theorem getElem?_members_run (deeds later : List Deed) {i : Nat} {c : Member}
    (hc : (run deeds).members[i]? = some c) :
    ∃ c', (run (deeds ++ later)).members[i]? = some c' ∧ c'.attachment = c.attachment := by
  rw [run, List.foldl_append]
  change (run deeds).members[i]? = some c at hc
  change ∃ c', (later.foldl step (run deeds)).members[i]? = some c' ∧ _
  generalize run deeds = N at hc
  induction later generalizing N c with
  | nil => exact ⟨c, hc, rfl⟩
  | cons d later ih =>
    obtain ⟨c', hc', hsame⟩ := N.getElem?_members_step d hc
    obtain ⟨c'', hc'', hsame'⟩ := ih _ hc'
    exact ⟨c'', hc'', hsame'.trans hsame⟩

/-- Every call at an object was begun by a client that is attached to it, and every wait there by
the server that made it. -/
structure Traced (deeds : List Deed) (N : Network) : Prop where
  calls : ∀ {n : Nat} {t : Traffic} {c : Caller}, N.channels[n]? = some t → c ∈ t.callers →
    c.client.object = n ∧ ∃ (i : Nat) (poisoned : Bool) (d : Member), N.members[i]? = some d ∧
      d.attachment = c.client ∧ Deed.decrypt i poisoned c.request ∈ deeds
  waits : ∀ {n : Nat} {t : Traffic} {w : Worker}, N.channels[n]? = some t → w ∈ t.workers →
    Deed.serve n w.handler ∈ deeds

namespace Traced

variable {deeds : List Deed}

theorem empty : Traced [] {} where
  calls := fun h => nomatch h
  waits := fun h => nomatch h

/-- What is known of the beginnings of calls and waits stays known. -/
theorem mono (h : Traced deeds N) {later : List Deed} {M : Network}
    (hchannels : M.channels = N.channels)
    (hmembers : ∀ {i : Nat} {c : Member}, N.members[i]? = some c →
      ∃ c', M.members[i]? = some c' ∧ c'.attachment = c.attachment) :
    Traced (deeds ++ later) M where
  calls := by
    intro n t c ht hc
    rw [hchannels] at ht
    obtain ⟨hobject, i, poisoned, d, hd, hclient, hdeed⟩ := h.calls ht hc
    obtain ⟨d', hd', hsame⟩ := hmembers hd
    exact ⟨hobject, i, poisoned, d', hd', hsame.trans hclient, List.mem_append_left _ hdeed⟩
  waits := by
    intro n t w ht hw
    rw [hchannels] at ht
    exact List.mem_append_left _ (h.waits ht hw)

/-- An act at a channel, which may be the beginning of a call or of a wait. -/
theorem act (h : Traced deeds N) {n : Nat} {x : Act}
    (hcall : ∀ a poisoned r, x = .call a poisoned r → a.object = n ∧
      ∃ (i : Nat) (d : Member), N.members[i]? = some d ∧ d.attachment = a ∧
        Deed.decrypt i poisoned r ∈ deeds)
    (hserve : ∀ handler, x = .serve handler → Deed.serve n handler ∈ deeds) :
    Traced deeds (N.act n x) := by
  unfold Network.act
  cases ht : N.channels[n]? with
  | none => exact h
  | some t =>
    have hn : n < N.channels.length := (List.getElem?_eq_some_iff.1 ht).1
    dsimp only
    refine ⟨fun {k u c} hu hc => ?_, fun {k u w} hu hw => ?_⟩
    · by_cases hnk : n = k
      · subst hnk
        rw [List.getElem?_set_self hn] at hu
        cases hu
        rcases Traffic.mem_callers_step hc with ⟨d, hd, hclient, hrequest⟩ | ⟨poisoned, hx⟩
        · rw [hclient, hrequest]
          exact h.calls ht hd
        · obtain ⟨hobject, i, d, hd, hattachment, hdeed⟩ := hcall _ _ _ hx
          exact ⟨hobject, i, poisoned, d, hd, hattachment, hdeed⟩
      · rw [List.getElem?_set_ne hnk] at hu
        exact h.calls hu hc
    · by_cases hnk : n = k
      · subst hnk
        rw [List.getElem?_set_self hn] at hu
        cases hu
        rcases Traffic.mem_workers_step hw with ⟨v, hv, hhandler⟩ | hx
        · rw [hhandler]
          exact h.waits ht hv
        · exact hserve _ hx
      · rw [List.getElem?_set_ne hnk] at hu
        exact h.waits hu hw

/-- A channel that was just made has neither calls nor waits. -/
theorem create (h : Traced deeds N) (name : String) (capacity : Nat) (sizeLimit : Option Nat)
    (mappable : Bool) : Traced deeds (N.create name capacity sizeLimit mappable) := by
  unfold Network.create
  split
  · exact ⟨h.calls, h.waits⟩
  · refine ⟨fun {n t c} ht hc => ?_, fun {n t w} ht hw => ?_⟩
    · rcases getElem?_concat_cases ht with ht | ⟨-, rfl⟩
      · exact h.calls ht hc
      · cases hc
    · rcases getElem?_concat_cases ht with ht | ⟨-, rfl⟩
      · exact h.waits ht hw
      · cases hw

theorem step (h : Traced deeds N) (hsound : N.Sound) (d : Deed) :
    Traced (deeds ++ [d]) (N.step d) := by
  have hgrown : Traced (deeds ++ [d]) N := h.mono rfl fun hc => ⟨_, hc, rfl⟩
  have hlast : d ∈ deeds ++ [d] := List.mem_append_right _ (List.mem_singleton.2 rfl)
  have hsilent {n : Nat} {x : Act} (hcall : ∀ a poisoned r, x ≠ .call a poisoned r)
      (hserve : ∀ handler, x ≠ .serve handler) : Traced (deeds ++ [d]) (N.act n x) :=
    hgrown.act (fun a poisoned r hx => absurd hx (hcall a poisoned r))
      fun handler hx => absurd hx (hserve handler)
  cases d with
  | create name capacity sizeLimit mappable =>
    exact hgrown.create name capacity sizeLimit mappable
  | dropServer n =>
    refine h.mono ?_ fun hc => N.getElem?_members_step (.dropServer n) hc
    show (N.dropServer n).channels = N.channels
    unfold Network.dropServer
    split <;> rfl
  | attach name timeoutMs reserved lock mappable =>
    refine h.mono ?_ fun hc =>
      N.getElem?_members_step (.attach name timeoutMs reserved lock mappable) hc
    show (N.attach name timeoutMs reserved lock mappable).channels = N.channels
    unfold Network.attach
    split <;> rfl
  | dropClient i => exact h.mono rfl fun hc => N.getElem?_members_step (.dropClient i) hc
  | decrypt i poisoned r =>
    show Traced _ (N.decrypt i poisoned r)
    unfold Network.decrypt
    split
    · next a ha =>
      refine hgrown.act (fun b p q hx => ?_) fun handler hx => nomatch hx
      cases hx
      exact ⟨rfl, i, _, ha, rfl, hlast⟩
    · exact hgrown
  | serve n handler =>
    show Traced _ (N.serve n handler)
    unfold Network.serve
    split
    · next server hserver =>
      refine hgrown.act (fun b p q hx => nomatch hx) fun handler hx => ?_
      cases hx
      rw [show server.object = n from (hsound.numbered hserver).1]
      exact hlast
    · exact hgrown
  | client n k expired => exact hsilent (fun _ _ _ => nofun) fun _ => nofun
  | server n k expired => exact hsilent (fun _ _ _ => nofun) fun _ => nofun

end Traced

theorem traced_run (deeds : List Deed) : Traced deeds (run deeds) := by
  induction deeds using List.reverseRecOn with
  | nil => exact Traced.empty
  | append_singleton deeds d ih =>
    rw [run, List.foldl_append]
    exact ih.step (sound_run deeds) d

/-! ## Whose the names and the objects are -/

namespace Sound

/-- The names lead to the objects that the live servers have made. -/
theorem lookup_iff (h : N.Sound) {path : String} {n : Nat} :
    N.memory.names.lookup path = some n ↔
      ∃ server : Server, N.owners[n]? = some ⟨server, true⟩ ∧ server.object = n ∧
        SharedMemory.pathOf server.name = .ok path := by
  rw [h.names]
  constructor
  · rintro ⟨server, hserver, hname⟩
    exact ⟨server, hserver, (h.numbered hserver).1, hname⟩
  · rintro ⟨server, hserver, -, hname⟩
    exact ⟨server, hserver, hname⟩

/-- The object of a server is in the memory. -/
theorem lt_of_owner (h : N.Sound) {n : Nat} {o : Owner} (ho : N.owners[n]? = some o) :
    n < N.memory.objects.length := by
  rw [h.objects]
  exact (List.getElem?_eq_some_iff.1 ho).1

/-- A server that is made had a free name, and its object is nobody else's. -/
theorem new_of_create (h : N.Sound) {name : String} {capacity : Nat} {sizeLimit : Option Nat}
    {mappable : Bool} {server : Server} {m : SharedMemory}
    (hok : Server.create (N.limited sizeLimit) name capacity mappable = (.ok server, m)) :
    (∃ path : String, SharedMemory.pathOf name = .ok path ∧ N.memory.names.lookup path = none) ∧
      (∀ (k : Nat) (o : Owner), N.owners[k]? = some o → o.server.object ≠ server.object) ∧
      ∀ (i : Nat) (c : Member), N.members[i]? = some c →
        c.attachment.object ≠ server.object := by
  rcases Server.create_cases (N.limited sizeLimit) name capacity mappable with
    ⟨e, he⟩ | ⟨path, m', hok', hpath, hfree, -⟩
  · rw [he] at hok
    cases hok
  · rw [hok'] at hok
    cases hok
    refine ⟨⟨path, hpath, hfree⟩, fun k o ho => ?_, fun i c hc => ?_⟩
    · rw [(h.numbered ho).1]
      exact Nat.ne_of_lt (h.lt_of_owner ho)
    · obtain ⟨o, ho, -⟩ := h.members hc
      exact Nat.ne_of_lt (h.lt_of_owner ho)

/-- A handler that runs at an object was given the request of one of the calls there. -/
theorem service (h : N.Sound) {n j : Nat} {t : Traffic} {x : Service}
    (ht : N.channels[n]? = some t) (hx : t.service? j = some x) :
    ∃ (k : Nat) (c : Caller), t.callers[k]? = some c ∧ t.services c = [x] ∧
      x.given = c.request.delivery := by
  obtain ⟨-, o, acts, -, rfl⟩ := h.traffic ht
  have hrecorded := Traffic.recorded_run o.server.capacity acts
  obtain ⟨k, c, hc, hservices, -⟩ :=
    hrecorded.exists_services (Traffic.sound_run o.server.capacity acts) hx
  refine ⟨k, c, hc, hservices, ?_⟩
  rcases hrecorded.services_cases hc with hnone | ⟨y, hy, -, -, hgiven⟩
  · rw [hservices] at hnone
    cases hnone
  · rw [hservices] at hy
    cases hy
    exact hgiven

end Sound

/-- A handler that runs at an object is one that its server waits with. -/
theorem Traced.serve_of_service {deeds : List Deed} (h : Traced deeds N) {n j : Nat} {t : Traffic}
    {x : Service} (ht : N.channels[n]? = some t) (hx : t.service? j = some x) :
    Deed.serve n x.handler ∈ deeds := by
  obtain ⟨w, hw, hseen⟩ := Option.bind_eq_some_iff.1 hx
  obtain ⟨d, -, rfl⟩ := Option.map_eq_some_iff.1 hseen
  exact h.waits ht (List.mem_of_getElem? hw)

/-- **Names and objects have one owner.** In every run of servers that are made and go, clients
that attach and go, and calls and waits at their channels, under any names:

* the names are exactly those of the servers that are there, and lead to the objects that these
  servers have made;
* no two servers that are there have the same name;
* a server that cannot be made leaves the names as they were; a server that is made had a free name
  and a new object, of a size that the system granted, which no client is attached to;
* a client attaches only to the object of a server that is there and has the name;
* a client keeps the object that it attached to, in whatever way the run goes on;
* a call of a client begins at this object, if its lock is free there;
* no call is at another object than that of its client;
* a handler that runs at an object is one that the server which made the object waits with, and was
  given the request of a call of a client that is attached to this object. -/
theorem name_ownership (deeds : List Deed) :
    (∀ (path : String) (n : Nat), (run deeds).memory.names.lookup path = some n ↔
      ∃ server : Server, (run deeds).owners[n]? = some ⟨server, true⟩ ∧ server.object = n ∧
        SharedMemory.pathOf server.name = .ok path) ∧
    (∀ (n k : Nat) (server other : Server) (path : String),
      (run deeds).owners[n]? = some ⟨server, true⟩ →
      (run deeds).owners[k]? = some ⟨other, true⟩ → SharedMemory.pathOf server.name = .ok path →
      SharedMemory.pathOf other.name = .ok path → n = k) ∧
    (∀ (name : String) (capacity : Nat) (sizeLimit : Option Nat) (mappable : Bool),
      (∀ (e : Error) (m : SharedMemory),
        Server.create ((run deeds).limited sizeLimit) name capacity mappable = (.error e, m) →
        m.names = (run deeds).memory.names) ∧
      (∀ (server : Server) (m : SharedMemory),
        Server.create ((run deeds).limited sizeLimit) name capacity mappable = (.ok server, m) →
        (∃ path : String, SharedMemory.pathOf name = .ok path ∧
          (run deeds).memory.names.lookup path = none) ∧
        (∀ limit, sizeLimit = some limit → objectSize capacity ≤ limit) ∧ mappable = true ∧
        (∀ (k : Nat) (o : Owner), (run deeds).owners[k]? = some o →
          o.server.object ≠ server.object) ∧
        ∀ (i : Nat) (c : Member), (run deeds).members[i]? = some c →
          c.attachment.object ≠ server.object)) ∧
    (∀ (name : String) (timeoutMs reserved : Nat) (lock : String) (mappable : Bool)
      (a : Attachment),
      Attachment.attach (run deeds).memory name timeoutMs reserved lock mappable = .ok a →
      ∃ (path : String) (server : Server), SharedMemory.pathOf name = .ok path ∧
        (run deeds).owners[a.object]? = some ⟨server, true⟩ ∧
        SharedMemory.pathOf server.name = .ok path ∧ a.capacity = server.capacity) ∧
    (∀ (later : List Deed) (i : Nat) (c : Member), (run deeds).members[i]? = some c →
      ∃ c' : Member, (run (deeds ++ later)).members[i]? = some c' ∧
        c'.attachment = c.attachment) ∧
    (∀ (i : Nat) (a : Attachment) (poisoned : Bool) (r : Request) (t : Traffic),
      (run deeds).members[i]? = some ⟨a, true⟩ → (run deeds).channels[a.object]? = some t →
      (∀ c ∈ t.callers, c.client.lock = a.lock → c.call.isOver = true) →
      (run (deeds ++ [.decrypt i poisoned r])).channels[a.object]? = some { t with
        callers := t.callers ++ [{ client := a, request := r, call := a.start poisoned r }] }) ∧
    (∀ (n k : Nat) (t : Traffic) (c : Caller), (run deeds).channels[n]? = some t →
      t.callers[k]? = some c → c.client.object = n ∧
        ∃ (i : Nat) (poisoned : Bool) (d : Member), (run deeds).members[i]? = some d ∧
          d.attachment = c.client ∧ Deed.decrypt i poisoned c.request ∈ deeds) ∧
    (∀ (n j : Nat) (t : Traffic) (x : Service), (run deeds).channels[n]? = some t →
      t.service? j = some x → Deed.serve n x.handler ∈ deeds ∧
        ∃ (k : Nat) (c : Caller), t.callers[k]? = some c ∧ c.client.object = n ∧
          t.services c = [x] ∧ x.given = c.request.delivery) := by
  have hsound := sound_run deeds
  have htraced := traced_run deeds
  refine ⟨fun path n => hsound.lookup_iff, fun n k server other path hn hk hname hname' =>
      hsound.eq_of_holds ⟨server, hn, hname⟩ ⟨other, hk, hname'⟩,
    fun name capacity sizeLimit mappable => ⟨fun e m he => ?_, fun server m hok => ?_⟩,
    fun name timeoutMs reserved lock mappable a ha => hsound.holds_of_attach ha,
    fun later i c hc => getElem?_members_run deeds later hc,
    fun i a poisoned r t hi ht hfree => ?_,
    fun n k t c ht hc => htraced.calls ht (List.mem_of_getElem? hc), fun n j t x ht hx => ?_⟩
  · rw [Server.eq_of_create_error he]
    rfl
  · obtain ⟨hfree, howners, hmembers⟩ := hsound.new_of_create hok
    obtain ⟨-, hmappable, hlimit⟩ := Server.granted_of_create hok
    exact ⟨hfree, hlimit, hmappable, howners, hmembers⟩
  · rw [run, List.foldl_append]
    exact hsound.decrypt_channel poisoned r hi ht hfree
  · obtain ⟨k, c, hc, hservices, hgiven⟩ := hsound.service ht hx
    exact ⟨htraced.serve_of_service ht hx, k, c, hc,
      (htraced.calls ht (List.mem_of_getElem? hc)).1, hservices, hgiven⟩

/-- A server goes while a client is attached to its channel, and another one takes the name. Both
clients call, and the new server waits for a request. -/
def reused : List Deed :=
  [.create "/channel" 4 none true, .attach "/channel" 10 0 "old" true, .dropServer 0,
    .create "/channel" 4 (some 4096) true, .attach "/channel" 10 0 "new" true,
    .decrypt 0 false { data := [1] }, .decrypt 1 false { data := [2] },
    .client 0 0 false, .client 0 0 false, .client 0 0 false,
    .client 1 0 false, .client 1 0 false, .client 1 0 false,
    .serve 1 fun d => (Status.none, d.data), .server 1 0 false, .server 1 0 false]

theorem name_ownership_reused : ∃ t x c, (run reused).channels[1]? = some t ∧
    t.service? 0 = some x ∧ c ∈ t.callers ∧ c.client.object = 1 ∧
    x.given = c.request.delivery ∧ x.given.data = [2] := by
  have hgiven : ((run reused).channels[1]?.bind fun t => t.service? 0).map
      (fun x => x.given.data) = some [2] := by decide +kernel
  obtain ⟨x, hx, hdata⟩ := Option.map_eq_some_iff.1 hgiven
  obtain ⟨t, ht, hx⟩ := Option.bind_eq_some_iff.1 hx
  obtain ⟨-, -, -, -, -, -, -, hserved⟩ := name_ownership reused
  obtain ⟨-, k, c, hc, hobject, -, hrequest⟩ := hserved 1 0 t x ht hx
  exact ⟨t, x, c, ht, hx, List.mem_of_getElem? hc, hobject, hrequest, hdata⟩

end Network

end Channel

end ContentDecryption
