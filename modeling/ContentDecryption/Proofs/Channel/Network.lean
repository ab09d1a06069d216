import ContentDecryption.Proofs.Channel.Exchange
import Mathlib.Data.List.Induction

/-!
# Channels that share one namespace

Servers make channels and go, clients attach to them and go, under any names, and names
are used again. Names, objects and clients last differently: a name lasts as long as its
server, an object as long as anybody has it mapped, and a client keeps the object that it
attached to, whatever becomes of the name.

A `Deed` is one of the things that can happen next, with the size limit and the room for
mappings that the system grants at that moment. What happens at one object is the traffic
of its channel, one atomic step at a time, and the steps at different objects mix in any
order. Nobody else gives names or takes them away.

Main definitions:

* `Network`, `Deed`, `Network.step`, `Network.run`.

Main results:

* `Traffic.capacityOf_run`: a channel always shows the capacity that it was made with;
* `Network.Sound.step`, `Network.sound_run`: the names are those of the live servers, and the
  objects are those of all servers;
* `Network.Sound.decrypt_channel`: a call begins at the object that its client attached to.
-/

namespace ContentDecryption

namespace Channel

namespace Traffic

/-! ## What acts leave as it was -/

theorem capacity_run (capacity : Nat) (acts : List Act) : (run capacity acts).capacity = capacity :=
  run_induction (P := fun t => t.capacity = capacity) rfl
    (fun _ _ h hs => hs.capacity.trans h) acts

/-- The capacity that a channel shows is the one it was made with. -/
theorem capacityOf_run {capacity : Nat} (acts : List Act) (h : capacity < 4294967296) :
    Attachment.capacityOf (run capacity acts).object = capacity := by
  have hsize : (run capacity acts).object.size = objectSize capacity := by
    rw [(guarded_run capacity acts).size, capacity_run]
  have hbytes : ∀ k, capacityOffset ≤ k → k < capacityOffset + 4 →
      (run capacity acts).object.byte k = (start capacity).object.byte k := by
    refine run_induction (P := fun t => ∀ k, capacityOffset ≤ k → k < capacityOffset + 4 →
      t.object.byte k = (start capacity).object.byte k) (fun _ _ _ => rfl)
      (fun t t' ht hs k h1 h2 => ?_) acts
    exact (hs.byte_eq (.inr ⟨h1, h2⟩)).trans (ht k h1 h2)
  have hread := SharedObject.read_congr (hsize.trans (guarded_start capacity).size.symm) hbytes
  have hword : (run capacity acts).object.word capacityOffset = UInt32.ofNat capacity := by
    rw [SharedObject.word, hread]
    exact (ready_start capacity).capacity
  rw [Attachment.capacityOf, hword, UInt32.toNat_ofNat_of_lt' h, hsize, objectSize,
    Nat.add_sub_cancel_left, Nat.min_self]

end Traffic

/-- A channel is only made if its capacity fits in a word and the system grants its object. -/
theorem Server.granted_of_create {m m' : SharedMemory} {name : String} {capacity : Nat}
    {mappable : Bool} {s : Server} (h : Server.create m name capacity mappable = (.ok s, m')) :
    capacity < 4294967296 ∧ mappable = true ∧
      ∀ limit, m.sizeLimit = some limit → objectSize capacity ≤ limit := by
  unfold Server.create at h
  by_cases hlarge : 4294967296 ≤ capacity
  · rw [if_pos hlarge] at h
    cases h
  · rw [if_neg hlarge] at h
    cases hcreated : m.create name (objectSize capacity) mappable with
    | mk result m₁ =>
      rw [hcreated] at h
      cases result with
      | error e => cases h
      | ok i => exact ⟨Nat.lt_of_not_le hlarge, SharedMemory.granted_of_create hcreated⟩

/-! ## Deeds -/

/-- A server that was made. -/
structure Owner where
  server : Server
  live : Bool := true

/-- A client that has attached. -/
structure Member where
  attachment : Attachment
  live : Bool := true

/-- All servers and clients that share a memory. The servers stand in the order of their making,
each with the traffic at its object. -/
structure Network where
  memory : SharedMemory := {}
  owners : List Owner := []
  members : List Member := []
  channels : List Traffic := []

/-- What can happen next. -/
inductive Deed
  | create (name : String) (capacity : Nat) (sizeLimit : Option Nat) (mappable : Bool)
  | dropServer (n : Nat)
  | attach (name : String) (timeoutMs reserved : Nat) (lock : String) (mappable : Bool)
  | dropClient (i : Nat)
  /-- A client begins a call. -/
  | decrypt (i : Nat) (poisoned : Bool) (request : Request)
  /-- A server begins to wait for a request. -/
  | serve (n : Nat) (handler : Handler)
  /-- The next step of a call at a channel. -/
  | client (n k : Nat) (expired : Bool)
  /-- The next step of a wait at a channel. -/
  | server (n k : Nat) (expired : Bool)

namespace Network

variable {N : Network}

/-- The memory, with the limit that the system has just now. -/
def limited (N : Network) (sizeLimit : Option Nat) : SharedMemory := { N.memory with sizeLimit }

def create (N : Network) (name : String) (capacity : Nat) (sizeLimit : Option Nat)
    (mappable : Bool) : Network :=
  match Server.create (N.limited sizeLimit) name capacity mappable with
  | (.error _, memory) => { N with memory }
  | (.ok server, memory) =>
    { N with
      memory
      owners := N.owners ++ [{ server }]
      channels := N.channels ++ [Traffic.start capacity] }

/-- A server goes. Calls and waits at its channel that are under way need not be over. -/
def dropServer (N : Network) (n : Nat) : Network :=
  match N.owners[n]? with
  | some ⟨server, true⟩ =>
    { N with memory := server.drop N.memory, owners := N.owners.set n ⟨server, false⟩ }
  | _ => N

def attach (N : Network) (name : String) (timeoutMs reserved : Nat) (lock : String)
    (mappable : Bool) : Network :=
  match Attachment.attach N.memory name timeoutMs reserved lock mappable with
  | .error _ => N
  | .ok attachment => { N with members := N.members ++ [{ attachment }] }

/-- A client goes. It has no name to take away. -/
def dropClient (N : Network) (i : Nat) : Network :=
  { N with members := N.members.modify i fun c => { c with live := false } }

/-- One act at a channel. What its parties find there is what the memory holds. -/
def act (N : Network) (n : Nat) (x : Act) : Network :=
  match N.channels[n]? with
  | none => N
  | some t =>
    let t' := Traffic.step { t with object := N.memory.object n } x
    { N with memory := N.memory.setObject n t'.object, channels := N.channels.set n t' }

def decrypt (N : Network) (i : Nat) (poisoned : Bool) (r : Request) : Network :=
  match N.members[i]? with
  | some ⟨a, true⟩ => N.act a.object (.call a poisoned r)
  | _ => N

def serve (N : Network) (n : Nat) (handler : Handler) : Network :=
  match N.owners[n]? with
  | some ⟨server, true⟩ => N.act server.object (.serve handler)
  | _ => N

/-- One deed. One that cannot happen changes nothing. -/
def step (N : Network) : Deed → Network
  | .create name capacity sizeLimit mappable => N.create name capacity sizeLimit mappable
  | .dropServer n => N.dropServer n
  | .attach name timeoutMs reserved lock mappable =>
    N.attach name timeoutMs reserved lock mappable
  | .dropClient i => N.dropClient i
  | .decrypt i poisoned r => N.decrypt i poisoned r
  | .serve n handler => N.serve n handler
  | .client n k expired => N.act n (.client k expired)
  | .server n k expired => N.act n (.server k expired)

/-- A list of deeds, from when there are neither names nor objects. -/
def run (deeds : List Deed) : Network := deeds.foldl step {}

/-! ## Names and objects -/

/-- The server `n` is there and has this path. -/
def Holds (N : Network) (n : Nat) (path : String) : Prop :=
  ∃ server, N.owners[n]? = some ⟨server, true⟩ ∧ SharedMemory.pathOf server.name = .ok path

/-- The names are those of the live servers, and the objects are those of all servers. -/
structure Sound (N : Network) : Prop where
  objects : N.memory.objects.length = N.owners.length
  channels : N.channels.length = N.owners.length
  numbered : ∀ {n : Nat} {o : Owner}, N.owners[n]? = some o →
    o.server.object = n ∧ o.server.capacity < 4294967296
  names : ∀ {path : String} {n : Nat}, N.memory.names.lookup path = some n ↔ N.Holds n path
  traffic : ∀ {n : Nat} {t : Traffic}, N.channels[n]? = some t →
    t.object = N.memory.object n ∧
      ∃ o acts, N.owners[n]? = some o ∧ t = Traffic.run o.server.capacity acts
  members : ∀ {i : Nat} {c : Member}, N.members[i]? = some c →
    ∃ o, N.owners[c.attachment.object]? = some o ∧ c.attachment.capacity = o.server.capacity

theorem sound_empty : Sound {} where
  objects := rfl
  channels := rfl
  numbered := fun h => nomatch h
  names := ⟨fun h => (nomatch h), fun ⟨_, h, _⟩ => nomatch h⟩
  traffic := fun h => nomatch h
  members := fun h => nomatch h

namespace Sound

/-- The object of a server shows the capacity that the server gave it. -/
theorem capacityOf_object (h : N.Sound) {n : Nat} {o : Owner} (ho : N.owners[n]? = some o) :
    Attachment.capacityOf (N.memory.object n) = o.server.capacity := by
  obtain ⟨hn, -⟩ := List.getElem?_eq_some_iff.1 ho
  obtain ⟨t, ht⟩ : ∃ t, N.channels[n]? = some t :=
    ⟨_, List.getElem?_eq_getElem (by rw [h.channels]; exact hn)⟩
  obtain ⟨hobject, o', acts, ho', rfl⟩ := h.traffic ht
  rw [ho] at ho'
  cases ho'
  rw [← hobject, Traffic.capacityOf_run acts (h.numbered ho).2]

/-- A client that attaches does so at the object of a live server that has the path. -/
theorem holds_of_attach (h : N.Sound) {name lock : String} {timeoutMs reserved : Nat}
    {mappable : Bool} {a : Attachment}
    (ha : Attachment.attach N.memory name timeoutMs reserved lock mappable = .ok a) :
    ∃ path server, SharedMemory.pathOf name = .ok path ∧ N.owners[a.object]? = some ⟨server, true⟩ ∧
      SharedMemory.pathOf server.name = .ok path ∧ a.capacity = server.capacity := by
  obtain ⟨hfound, -, hcapacity⟩ := Attachment.attach_cases ha
  obtain ⟨path, hpath, hlookup⟩ := SharedMemory.lookup_of_attach hfound
  obtain ⟨server, hserver, hname⟩ := h.names.1 hlookup
  exact ⟨path, server, hpath, hserver, hname, hcapacity.trans (h.capacityOf_object hserver)⟩

/-- No two servers that are there have the same path. -/
theorem eq_of_holds (h : N.Sound) {n k : Nat} {path : String} (hn : N.Holds n path)
    (hk : N.Holds k path) : n = k :=
  Option.some.inj ((h.names.2 hn).symm.trans (h.names.2 hk))

/-- Once a server has gone, its path leads nowhere, and all others lead where they led. -/
theorem lookup_drop (h : N.Sound) {n : Nat} {server : Server}
    (hserver : N.owners[n]? = some ⟨server, true⟩) (path : String) (k : Nat) :
    (server.drop N.memory).names.lookup path = some k ↔ n ≠ k ∧ N.Holds k path := by
  unfold Server.drop
  cases hname : SharedMemory.pathOf server.name with
  | error e =>
    have hnone : ¬ N.Holds n path := by
      rintro ⟨other, hother, hpath⟩
      rw [hserver] at hother
      cases hother
      rw [hname] at hpath
      cases hpath
    rw [SharedMemory.unlink, hname]
    refine h.names.trans (iff_and_self.2 ?_)
    rintro hk rfl
    exact hnone hk
  | ok own =>
    have hown : N.Holds n own := ⟨server, hserver, hname⟩
    by_cases hpath : own = path
    · subst hpath
      rw [SharedMemory.lookup_unlink_self _ hname]
      exact iff_of_false (fun hk => nomatch hk) fun ⟨hne, hk⟩ => hne (h.eq_of_holds hown hk)
    · rw [SharedMemory.lookup_unlink _ hname hpath, h.names]
      refine iff_and_self.2 ?_
      rintro ⟨other, hother, hk⟩ rfl
      rw [hserver] at hother
      cases hother
      rw [hname] at hk
      cases hk
      exact hpath rfl

/-! ### One deed -/

/-- What happens at one object leaves the names and the other objects alone. -/
theorem act (h : N.Sound) (n : Nat) (x : Act) : (N.act n x).Sound := by
  unfold Network.act
  cases ht : N.channels[n]? with
  | none => exact h
  | some t =>
    obtain ⟨hobject, o, acts, ho, htraffic⟩ := h.traffic ht
    have hn : n < N.channels.length := (List.getElem?_eq_some_iff.1 ht).1
    have hsame : ({ t with object := N.memory.object n } : Traffic) = t := by rw [← hobject]
    dsimp only
    rw [hsame]
    refine ⟨?_, ?_, h.numbered, h.names, fun {k u} hu => ?_, h.members⟩
    · exact (SharedMemory.length_objects_setObject ..).trans h.objects
    · exact List.length_set.trans h.channels
    · by_cases hnk : n = k
      · subst hnk
        rw [List.getElem?_set_self hn] at hu
        cases hu
        rw [h.channels, ← h.objects] at hn
        refine ⟨(SharedMemory.object_setObject_self _ _ hn).symm, o, acts ++ [x], ho, ?_⟩
        rw [htraffic, Traffic.run, Traffic.run, List.foldl_append]
        rfl
      · rw [List.getElem?_set_ne hnk] at hu
        obtain ⟨hu, hrest⟩ := h.traffic hu
        exact ⟨hu.trans (SharedMemory.object_setObject_of_ne _ _ hnk).symm, hrest⟩

/-- A server that joins has the next number, and a path that nobody had. -/
theorem join (h : N.Sound) (server : Server) {m : SharedMemory} {path : String}
    (hobjectNumber : server.object = N.owners.length) (hcapacity : server.capacity < 4294967296)
    (hpath : SharedMemory.pathOf server.name = .ok path)
    (hfree : N.memory.names.lookup path = none)
    (hlength : m.objects.length = N.memory.objects.length + 1)
    (hobject : m.object N.memory.objects.length = (Traffic.start server.capacity).object)
    (hold : ∀ {k : Nat}, k < N.memory.objects.length → m.object k = N.memory.object k)
    (hlookup : ∀ other, m.names.lookup other =
      if other = path then some N.memory.objects.length else N.memory.names.lookup other) :
    Sound { N with
      memory := m
      owners := N.owners ++ [⟨server, true⟩]
      channels := N.channels ++ [Traffic.start server.capacity] } := by
  have hnew : (N.owners ++ [⟨server, true⟩])[N.owners.length]? = some ⟨server, true⟩ :=
    List.getElem?_concat_length
  have hkept {n : Nat} {o : Owner} (ho : N.owners[n]? = some o) :
      (N.owners ++ [⟨server, true⟩])[n]? = some o := by
    rw [List.getElem?_append_left (List.getElem?_eq_some_iff.1 ho).1, ho]
  have hcases {n : Nat} {o : Owner} (ho : (N.owners ++ [⟨server, true⟩])[n]? = some o) :
      N.owners[n]? = some o ∨ (n = N.owners.length ∧ o = ⟨server, true⟩) :=
    getElem?_concat_cases ho
  refine ⟨?_, ?_, fun {n o} ho => ?_, fun {other n} => ?_, fun {n t} ht => ?_, fun {i c} hc => ?_⟩
  · rw [List.length_append, hlength, h.objects]
    rfl
  · rw [List.length_append, List.length_append, h.channels]
    rfl
  · rcases hcases ho with ho | ⟨rfl, rfl⟩
    · exact h.numbered ho
    · exact ⟨hobjectNumber, hcapacity⟩
  · rw [hlookup]
    split_ifs with hother
    · subst hother
      constructor
      · intro hn
        cases hn
        rw [h.objects]
        exact ⟨server, hnew, hpath⟩
      · rintro ⟨other, ho, hname⟩
        rcases hcases ho with ho | ⟨rfl, -⟩
        · rw [h.names.2 ⟨other, ho, hname⟩] at hfree
          cases hfree
        · rw [h.objects]
    · rw [h.names]
      constructor
      · rintro ⟨other, ho, hname⟩
        exact ⟨other, hkept ho, hname⟩
      · rintro ⟨other, ho, hname⟩
        rcases hcases ho with ho | ⟨-, he⟩
        · exact ⟨other, ho, hname⟩
        · cases he
          rw [hpath] at hname
          cases hname
          exact absurd rfl hother
  · rcases getElem?_concat_cases ht with ht | ⟨rfl, rfl⟩
    · obtain ⟨hmemory, o, acts, ho, hrun⟩ := h.traffic ht
      have hn : n < N.memory.objects.length := by
        rw [h.objects, ← h.channels]
        exact (List.getElem?_eq_some_iff.1 ht).1
      exact ⟨hmemory.trans (hold hn).symm, o, acts, hkept ho, hrun⟩
    · refine ⟨?_, ⟨server, true⟩, [], ?_, rfl⟩
      · rw [h.channels, ← h.objects]
        exact hobject.symm
      · rw [h.channels]
        exact hnew
  · obtain ⟨o, ho, hcapacity⟩ := h.members hc
    exact ⟨o, hkept ho, hcapacity⟩

/-- A server joins, or nothing has changed. -/
theorem create (h : N.Sound) (name : String) (capacity : Nat) (sizeLimit : Option Nat)
    (mappable : Bool) : (N.create name capacity sizeLimit mappable).Sound := by
  unfold Network.create
  rcases Server.create_cases (N.limited sizeLimit) name capacity mappable with
    ⟨e, he⟩ | ⟨path, m, hok, hpath, hfree, hlength, hobject, hold, hlookup⟩
  · rw [he]
    exact ⟨h.objects, h.channels, h.numbered, h.names, h.traffic, h.members⟩
  · rw [hok]
    exact h.join ⟨name, N.memory.objects.length, capacity⟩ h.objects
      (Server.granted_of_create hok).1 hpath hfree hlength hobject hold hlookup

/-- A server takes its own path away and no other. -/
theorem dropServer (h : N.Sound) (n : Nat) : (N.dropServer n).Sound := by
  unfold Network.dropServer
  split
  · next server hserver =>
    obtain ⟨hn, -⟩ := List.getElem?_eq_some_iff.1 hserver
    have hset (k : Nat) : (N.owners.set n ⟨server, false⟩)[k]? =
        if n = k then some ⟨server, false⟩ else N.owners[k]? := by
      split_ifs with hnk
      · rw [← hnk, List.getElem?_set_self hn]
      · exact List.getElem?_set_ne hnk
    have hkept {k : Nat} {o : Owner} (ho : N.owners[k]? = some o) :
        ∃ o', (N.owners.set n ⟨server, false⟩)[k]? = some o' ∧ o'.server = o.server := by
      rw [hset]
      split_ifs with hnk
      · subst hnk
        rw [hserver] at ho
        cases ho
        exact ⟨_, rfl, rfl⟩
      · exact ⟨o, ho, rfl⟩
    have hholds (k : Nat) (path : String) :
        Holds { N with owners := N.owners.set n ⟨server, false⟩ } k path ↔
          n ≠ k ∧ N.Holds k path := by
      unfold Holds
      simp only [hset]
      split_ifs with hnk
      · exact iff_of_false (fun ⟨_, ho, _⟩ => by cases ho) fun hne => hne.1 hnk
      · exact (and_iff_right hnk).symm
    refine ⟨?_, ?_, fun {k o} ho => ?_, fun {path k} => ?_, fun {k t} ht => ?_, fun {i c} hc => ?_⟩
    · exact (congrArg List.length (SharedMemory.objects_unlink ..)).trans
        (h.objects.trans List.length_set.symm)
    · exact h.channels.trans List.length_set.symm
    · rw [hset] at ho
      split_ifs at ho with hnk
      · cases ho
        have hnumbered := h.numbered hserver
        rwa [← hnk]
      · exact h.numbered ho
    · exact (h.lookup_drop hserver path k).trans (hholds k path).symm
    · obtain ⟨hmemory, o, acts, ho, hrun⟩ := h.traffic ht
      obtain ⟨o', ho', hsame⟩ := hkept ho
      refine ⟨hmemory.trans ?_, o', acts, ho', by rw [hsame, hrun]⟩
      rw [Server.drop, SharedMemory.object, SharedMemory.object, SharedMemory.objects_unlink]
    · obtain ⟨o, ho, hcapacity⟩ := h.members hc
      obtain ⟨o', ho', hsame⟩ := hkept ho
      exact ⟨o', ho', by rw [hsame, hcapacity]⟩
  · exact h

theorem attach (h : N.Sound) (name : String) (timeoutMs reserved : Nat) (lock : String)
    (mappable : Bool) : (N.attach name timeoutMs reserved lock mappable).Sound := by
  unfold Network.attach
  cases ha : Attachment.attach N.memory name timeoutMs reserved lock mappable with
  | error e => exact h
  | ok a =>
    refine ⟨h.objects, h.channels, h.numbered, h.names, h.traffic, fun {i c} hc => ?_⟩
    rcases getElem?_concat_cases hc with hc | ⟨-, rfl⟩
    · exact h.members hc
    · obtain ⟨-, server, -, hserver, -, hcapacity⟩ := h.holds_of_attach ha
      exact ⟨⟨server, true⟩, hserver, hcapacity⟩

theorem dropClient (h : N.Sound) (i : Nat) : (N.dropClient i).Sound := by
  refine ⟨h.objects, h.channels, h.numbered, h.names, h.traffic, fun {k c} hc => ?_⟩
  rw [Network.dropClient, List.getElem?_modify] at hc
  obtain ⟨d, hd, rfl⟩ := Option.map_eq_some_iff.1 hc
  obtain ⟨o, ho, hcapacity⟩ := h.members hd
  refine ⟨o, ?_, ?_⟩ <;> split_ifs <;> assumption

theorem step (h : N.Sound) (d : Deed) : (N.step d).Sound := by
  cases d with
  | create name capacity sizeLimit mappable => exact h.create name capacity sizeLimit mappable
  | dropServer n => exact h.dropServer n
  | attach name timeoutMs reserved lock mappable =>
    exact h.attach name timeoutMs reserved lock mappable
  | dropClient i => exact h.dropClient i
  | decrypt i poisoned r =>
    show (N.decrypt i poisoned r).Sound
    unfold Network.decrypt
    split
    · exact h.act _ _
    · exact h
  | serve n handler =>
    show (N.serve n handler).Sound
    unfold Network.serve
    split
    · exact h.act _ _
    · exact h
  | client n k expired => exact h.act n _
  | server n k expired => exact h.act n _

/-- A call of a client that is there begins at the object of the client. -/
theorem decrypt_channel (h : N.Sound) {i : Nat} {a : Attachment} (poisoned : Bool) (r : Request)
    {t : Traffic} (hi : N.members[i]? = some ⟨a, true⟩) (ht : N.channels[a.object]? = some t)
    (hfree : ∀ c ∈ t.callers, c.client.lock = a.lock → c.call.isOver = true) :
    (N.decrypt i poisoned r).channels[a.object]? = some { t with
      callers := t.callers ++ [{ client := a, request := r, call := a.start poisoned r }] } := by
  obtain ⟨hobject, -⟩ := h.traffic ht
  obtain ⟨o, ho, hcapacity⟩ := h.members hi
  have hsame : ({ t with object := N.memory.object a.object } : Traffic) = t := by rw [← hobject]
  have hadmits : t.admits a poisoned r = true := by
    simp only [Traffic.admits, Bool.and_eq_true, decide_eq_true_eq, Bool.or_eq_true,
      List.all_eq_true, bne_iff_ne]
    refine ⟨?_, .inr fun c hc => or_iff_not_imp_left.2 fun hlock => ?_⟩
    · rw [hobject, h.capacityOf_object ho]
      exact hcapacity
    · exact hfree c hc (not_not.1 hlock)
  have hn : a.object < N.channels.length := (List.getElem?_eq_some_iff.1 ht).1
  unfold Network.decrypt Network.act
  rw [hi]
  dsimp only
  rw [ht]
  dsimp only
  rw [hsame, List.getElem?_set_self hn, Traffic.step, if_pos hadmits]

end Sound

theorem sound_run (deeds : List Deed) : (run deeds).Sound := by
  induction deeds using List.reverseRecOn with
  | nil => exact sound_empty
  | append_singleton deeds d ih =>
    rw [run, List.foldl_append]
    exact ih.step d

end Network

end Channel

end ContentDecryption
