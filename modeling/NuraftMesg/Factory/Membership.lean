import NuraftMesg.DataService.Destination
import NuraftMesg.Factory.Sharing

/-!
# Who receives a request to all peers

A request to all peers goes over the clients that the factory has in its cache. The cache
grows with the calls of `create_client` and with the data requests that find no client,
and it never shrinks; the configuration of the group does not enter. This file puts the
factories together with the configurations of their groups and says when the two agree.
-/

namespace NuraftMesg.Factory.Membership

open Transition

/-- The factories, and what the Raft server of each factory's group tells. -/
structure State where
  factories : Factory.State
  views : ℕ → RaftView

inductive Label where
  | factory (l : Factory.Label)
  /-- The Raft server of the group comes to another configuration or leader. -/
  | configure (f : ℕ) (view : RaftView)

/-- The factories before their first call. -/
def start (groups : ℕ → GroupId × GroupType) (views : ℕ → RaftView) : State :=
  ⟨.init groups, views⟩

def step (text : UuidText) (s : State) : Label → Option State
  | .factory l => (Factory.step text s.factories l).map fun x => { s with factories := x }
  | .configure f view => some { s with views := Function.update s.views f view }

/-- The peers that a factory has a client for or is being asked for. -/
def engaged (factory : MesgFactory) : List PeerId :=
  factory.clients.keys ++ factory.busy.toList.map Pending.peer

/-- The factory that a step asks for a client, and the peer. -/
def asks : Factory.Label → Option (ℕ × PeerId)
  | .request f p _ _ _ => some (f, p)
  | _ => none

/-- The condition on a step: a client is only asked for if its peer is in the
configuration, and `make` does not throw; no peer for which there is a client leaves the
configuration. -/
def Confined (text : UuidText) (s : State) : Label → Prop
  | .factory l => NoThrow l ∧ ∀ call ∈ asks l, (s.views call.1).HasMember text call.2
  | .configure f view => ∀ p ∈ engaged (s.factories.factories f), view.HasMember text p

/-! ## The cache and the configuration -/

variable {text : UuidText} {groups : ℕ → GroupId × GroupType} {views : ℕ → RaftView}
  {x x' : Factory.State} {s s' : State} {f : ℕ} {p q : PeerId}

/-- A peer is engaged if it has an entry or a call that holds the lock. -/
theorem mem_engaged {factory : MesgFactory} :
    q ∈ engaged factory ↔
      q ∈ factory.clients ∨ ∃ pending, factory.busy = some pending ∧ pending.peer = q := by
  simp [engaged, AList.mem_keys]

/-- A call that takes the lock brings its own peer and no other. -/
theorem engaged_lock {f' : ℕ} {busy : Option Pending}
    (hpeer : ∀ pending, busy = some pending → pending.peer = p)
    (hq : q ∈ engaged ((x.setFactory f' (Table.emplace (x.factories f').clients p none)
      busy).factories f)) : q ∈ engaged (x.factories f) ∨ f = f' ∧ q = p := by
  by_cases hf : f = f'
  · subst hf
    rw [Factory.State.setFactory_self] at hq
    rcases mem_engaged.mp hq with hclient | ⟨pending, hbusy, rfl⟩
    · by_cases hqp : q = p
      · exact Or.inr ⟨rfl, hqp⟩
      · refine Or.inl (mem_engaged.mpr (Or.inl ?_))
        rw [← AList.lookup_isSome, lookup_emplace_none, if_neg hqp] at hclient
        exact AList.lookup_isSome.mp hclient
    · exact Or.inr ⟨rfl, hpeer pending hbusy⟩
  · rw [Factory.State.setFactory_of_ne _ _ _ hf] at hq
    exact Or.inl hq

/-- The end of a call brings none. -/
theorem engaged_finish {slot : Slot} (hfinish : x.finish text f = some (x', slot)) {f' : ℕ}
    (hq : q ∈ engaged (x'.factories f')) : q ∈ engaged (x.factories f') := by
  obtain ⟨p, plan, purpose, h, slot, hbusy, hdone⟩ := finish_done hfinish
  by_cases hf : f' = f
  · subst hf
    rcases mem_engaged.mp hq with hclient | ⟨pending, hpending, -⟩
    · by_cases hqp : q = p
      · exact mem_engaged.mpr (Or.inr ⟨_, hbusy, hqp.symm⟩)
      · refine mem_engaged.mpr (Or.inl ?_)
        rw [← AList.lookup_isSome, hdone.lookup, if_neg hqp] at hclient
        exact AList.lookup_isSome.mp hclient
    · rw [hdone.free] at hpending
      cases hpending
  · rw [hdone.others f' hf] at hq
    exact hq

/-- Only a request brings a peer into the cache. -/
theorem engaged_of_step {l : Factory.Label} (hstep : Factory.step text x l = some x')
    (hq : q ∈ engaged (x'.factories f)) :
    q ∈ engaged (x.factories f) ∨ asks l = some (f, q) := by
  rcases step_cases hstep with ⟨f', p, force, purpose, around, rfl, hrequest⟩ |
    ⟨f', returned, rfl, hfinish⟩ | ⟨p, force, around, h, groupClients, returned, rfl, hcall, rfl⟩ |
    ⟨-, hquiet, -⟩
  · have hlocked : q ∈ engaged (x.factories f) ∨ f = f' ∧ q = p := by
      obtain ⟨-, h, groupClients, busy, rfl, hpeer⟩ := request_locks hrequest
      exact engaged_lock (x := { x with heap := h, groupClients := groupClients }) hpeer hq
    rcases hlocked with hold | ⟨rfl, rfl⟩
    · exact Or.inl hold
    · exact Or.inr rfl
  · exact Or.inl (engaged_finish hfinish hq)
  · exact Or.inl hq
  · rw [hquiet.factories] at hq
    exact Or.inl hq

/-- Every peer that a factory is engaged with is in the configuration. -/
def Within (text : UuidText) (s : State) : Prop :=
  ∀ f, ∀ p ∈ engaged (s.factories.factories f), (s.views f).HasMember text p

/-- The peers that a factory is engaged with stay within its configuration, when NuRaft asks
for members only and removes the others. -/
theorem Within.step {l : Label} (hs : Within text s) (hconfined : Confined text s l)
    (hstep : Membership.step text s l = some s') : Within text s' := by
  cases l with
  | factory l =>
    obtain ⟨x, hx, rfl⟩ := Option.map_eq_some_iff.mp hstep
    intro f p hp
    rcases engaged_of_step hx hp with hold | hasks
    · exact hs f p hold
    · exact hconfined.2 (f, p) hasks
  | configure f' view =>
    cases hstep
    intro f p hp
    change (Function.update s.views f' view f).HasMember text p
    by_cases hf : f = f'
    · subst hf
      rw [Function.update_self]
      exact hconfined p hp
    · rw [Function.update_of_ne hf]
      exact hs f p hp

/-! ## Where the wrappers send -/

/-- Every wrapper sends over a transport to an endpoint of its peer, and a call that
holds its lock has got such a transport for its peer. -/
structure Aimed (text : UuidText) (x : Factory.State) : Prop where
  wrappers : ∀ (w : ℕ) (wrapper : Wrapper), x.heap.wrappers[w]? = some wrapper →
    ∃ p t, wrapper.clientAddr = text.toString p ∧ wrapper.client = some t ∧
      IsTransport x.heap p (some (.messaging t))
  plans : ∀ f pending t checked, (x.factories f).busy = some pending →
    pending.plan.selected = some (t, checked) →
      IsTransport x.heap pending.peer (some (.messaging t))

/-- A heap that has grown and kept its wrappers. -/
theorem Aimed.wrappers_of_grows {h : Heap} (hx : Aimed text x) (hgrows : x.heap.Grows h)
    (hwrappers : h.wrappers = x.heap.wrappers) (w : ℕ) (wrapper : Wrapper)
    (hw : h.wrappers[w]? = some wrapper) :
    ∃ p t, wrapper.clientAddr = text.toString p ∧ wrapper.client = some t ∧
      IsTransport h p (some (.messaging t)) := by
  rw [hwrappers] at hw
  obtain ⟨p, t, haddr, hclient, htransport⟩ := hx.wrappers w wrapper hw
  exact ⟨p, t, haddr, hclient, htransport.grow hgrows⟩

/-- The first half of a call gets a transport for its peer from the cache of the group
factory. -/
theorem Aimed.request {force : Bool} {purpose : Purpose} {around : Surroundings}
    (hx : Aimed text x) (hrep : Represents text groups x')
    (hrequest : x.request f p force purpose around = some x') : Aimed text x' := by
  have hselects : ∀ pending t checked, (x'.factories f).busy = some pending →
      pending.plan.selected = some (t, checked) →
        x'.groupClients.lookup p = some (some (.messaging t)) :=
    fun pending t checked hbusy hselected => (request_selects hrequest hbusy hselected).2.1
  obtain ⟨hgrows, hwrappers⟩ := request_grows hrequest
  obtain ⟨-, h, groupClients, busy, rfl, hpeer⟩ := request_locks hrequest
  refine ⟨hx.wrappers_of_grows hgrows hwrappers, fun f' pending t checked hbusy hselected => ?_⟩
  by_cases hf : f' = f
  · subst hf
    -- the transport is the one that the group factory now has for the peer
    have hentry := hselects pending t checked hbusy hselected
    rw [Factory.State.setFactory_self] at hbusy
    rw [hpeer pending hbusy]
    exact hrep.group p _ hentry
  · rw [Factory.State.setFactory_of_ne _ _ _ hf] at hbusy
    exact (hx.plans f' pending t checked hbusy hselected).grow hgrows

/-- The second half gives the transport to the wrapper of the same peer. -/
theorem Aimed.finish {slot : Slot} (hx : Aimed text x) (hrep : Represents text groups x)
    (hfinish : x.finish text f = some (x', slot)) : Aimed text x' := by
  have hgrows := finish_grows hfinish
  refine ⟨fun w wrapper hw => ?_, fun f' pending t checked hpending hselected => ?_⟩
  · obtain ⟨p, plan, purpose, hbusy, hplan⟩ := finish_cases hfinish
    cases plan with
    | refuse code failed =>
      refine hx.wrappers_of_grows hgrows ?_ w wrapper hw
      rw [hplan.2.heap]
      rfl
    | create t checked =>
      have htransport := hx.plans f _ t checked hbusy rfl
      rw [hplan.2.heap] at hw
      rcases Cells.getElem?_alloc_cases hw with hold | ⟨-, rfl⟩
      · obtain ⟨q, u, haddr, hclient, hu⟩ := hx.wrappers w wrapper hold
        exact ⟨q, u, haddr, hclient, hu.grow hgrows⟩
      · exact ⟨p, t, rfl, rfl, htransport.grow hgrows⟩
    | reinit v t checked =>
      have htransport := hx.plans f _ t checked hbusy rfl
      obtain ⟨-, hentry⟩ := (hrep.factories f).plan _ hbusy
      obtain ⟨v', cached, hv, hcached, haddr', -⟩ := (hrep.factories f).own_of_some hentry
      cases hv
      rw [hplan.2.heap] at hw
      obtain ⟨old, hold, rfl⟩ := Cells.getElem?_update_cases hw
      split
      · next hwv =>
        -- the wrapper is the one that is cached for the peer
        subst hwv
        obtain rfl := Option.some.inj (hold.symm.trans hcached)
        exact ⟨p, t, haddr', rfl, htransport.grow hgrows⟩
      · obtain ⟨q, u, haddr, hclient, hu⟩ := hx.wrappers w old hold
        exact ⟨q, u, haddr, hclient, hu.grow hgrows⟩
  · obtain ⟨p, plan, purpose, h, slot', -, hdone⟩ := finish_done hfinish
    by_cases hf : f' = f
    · subst hf
      rw [hdone.free] at hpending
      cases hpending
    · rw [hdone.others f' hf] at hpending
      exact (hx.plans f' pending t checked hpending hselected).grow hgrows

/-- No other step changes the transport of a wrapper. -/
theorem Aimed.step {l : Factory.Label} (hx : Aimed text x) (hrep : Represents text groups x)
    (hrep' : Represents text groups x') (hstep : Factory.step text x l = some x') :
    Aimed text x' := by
  have hgrows := step_grows hstep
  rcases step_cases hstep with ⟨f, p, force, purpose, around, rfl, hrequest⟩ |
    ⟨f, returned, rfl, hfinish⟩ | ⟨p, force, around, h, groupClients, returned, rfl, hcall, rfl⟩ |
    ⟨-, hquiet, -⟩
  · exact hx.request hrep' hrequest
  · exact hx.finish hrep hfinish
  · refine ⟨hx.wrappers_of_grows hgrows (groupMoves_of_groupCall hcall).grows.2,
      fun f pending t checked hbusy hselected => ?_⟩
    exact (hx.plans f pending t checked hbusy hselected).grow hgrows
  · refine ⟨hx.wrappers_of_grows hgrows hquiet.wrappers,
      fun f pending t checked hbusy hselected => ?_⟩
    rw [hquiet.factories] at hbusy
    exact (hx.plans f pending t checked hbusy hselected).grow hgrows

/-! ## The broadcast -/

/-- The request goes to the peer: it is sent over the wrapper that is cached for the peer
and bears its address, and its transport leads to an endpoint that was looked up for it. -/
def Reaches (text : UuidText) (h : Heap) (clients : Clients) (p : PeerId) (send : DataSend) :
    Prop :=
  ∃ (w : ℕ) (wrapper : Wrapper) (transport : Transport),
    clients.lookup p = some (some (.proto w)) ∧ h.wrappers[w]? = some wrapper ∧
    wrapper.clientAddr = text.toString p ∧ wrapper.client = some send.transport ∧
    h.transports[send.transport]? = some transport ∧ (p, transport.endpoint) ∈ h.lookups ∧
    send.bidirectional = false

/-- Over an entry with this client, a request is sent to the peer. -/
def Sends (text : UuidText) (h : Heap) (clients : Clients) (p : PeerId) (slot : Slot) : Prop :=
  ∃ w t, Factory.State.castProto slot = some w ∧ Reaches text h clients p ⟨false, t, none⟩ ∧
    ∀ y : Factory.State, y.heap = h → y.sendData false w (fun _ _ => none) =
      some { y with sent := y.sent ++ [⟨false, t, none⟩] }

/-- A cached wrapper can send to its peer. -/
theorem sends_of_lookup {slot : Slot} (hx : Aimed text x) (hrep : Represents text groups x)
    (hfree : (x.factories f).busy = none)
    (hslot : (x.factories f).clients.lookup p = some slot) :
    Sends text x.heap (x.factories f).clients p slot := by
  obtain ⟨w, wrapper, rfl, hw, haddr, -, -⟩ := (hrep.factories f).own_of_free hfree hslot
  obtain ⟨q, t, haddr', hclient, t', transport, ht', htransport, hlookup⟩ :=
    hx.wrappers w wrapper hw
  cases ht'
  obtain rfl : p = q := text.toString_injective (haddr.symm.trans haddr')
  refine ⟨w, t, rfl, ⟨w, wrapper, transport, hslot, hw, haddr, hclient, htransport, hlookup, rfl⟩,
    fun y hy => ?_⟩
  simp [Factory.State.sendData, hy, hw, hclient, htransport]

/-- The loop over the clients sends one request for each entry. -/
theorem exists_sends {h : Heap} {clients : Clients} {entries : List (Sigma fun _ : PeerId => Slot)}
    (hentries : ∀ e ∈ entries, Sends text h clients e.1 e.2) (hheap : x.heap = h) :
    ∃ sends : List (PeerId × DataSend),
      (entries.map fun e => e.2).foldlM (fun (y : Factory.State) slot =>
        (Factory.State.castProto slot).bind fun w => y.sendData false w fun _ _ => none) x =
          some { x with sent := x.sent ++ sends.map Prod.snd } ∧
      sends.map Prod.fst = entries.map Sigma.fst ∧
      ∀ z ∈ sends, Reaches text h clients z.1 z.2 := by
  induction entries generalizing x with
  | nil => exact ⟨[], by simp, rfl, fun z hz => by cases hz⟩
  | cons e entries ih =>
    obtain ⟨w, t, hcast, hreaches, hsend⟩ := hentries e List.mem_cons_self
    obtain ⟨sends, hrest, hpeers, hall⟩ := ih (x := { x with sent := x.sent ++ [⟨false, t, none⟩] })
      (fun e' he' => hentries e' (List.mem_cons_of_mem e he')) hheap
    refine ⟨(e.1, ⟨false, t, none⟩) :: sends, ?_, ?_, fun z hz => ?_⟩
    · rw [List.map_cons, List.foldlM_cons, hcast, Option.bind_some, hsend x hheap]
      refine hrest.trans ?_
      simp
    · rw [List.map_cons, hpeers, List.map_cons]
    · rcases List.mem_cons.mp hz with rfl | hmem
      · exact hreaches
      · exact hall z hmem

/-- A request to all peers is sent once for each peer in the cache. -/
theorem broadcast_sends (hx : Aimed text x) (hrep : Represents text groups x)
    (hfree : (x.factories f).busy = none) :
    ∃ sends : List (PeerId × DataSend),
      Factory.step text x (.broadcast f) =
        some { x with sent := x.sent ++ sends.map Prod.snd } ∧
      sends.map Prod.fst = (x.factories f).clients.keys ∧
      ∀ z ∈ sends, Reaches text x.heap (x.factories f).clients z.1 z.2 := by
  have hentries : ∀ e ∈ (x.factories f).clients.entries,
      Sends text x.heap (x.factories f).clients e.1 e.2 := by
    intro e he
    exact sends_of_lookup hx hrep hfree (AList.mem_lookup_iff.mpr he)
  obtain ⟨sends, hsend, hpeers, hall⟩ := exists_sends hentries rfl
  refine ⟨sends, ?_, hpeers, hall⟩
  simp only [Factory.step, hfree, Option.isSome_none, Bool.false_eq_true, if_false]
  exact hsend

/-! ## Whole runs -/

/-- The invariant of the runs whose steps are confined. -/
structure Sound (text : UuidText) (groups : ℕ → GroupId × GroupType) (s : State) : Prop where
  represents : Represents text groups s.factories
  aimed : Aimed text s.factories
  within : Within text s

/-- At the beginning there are no clients. -/
theorem sound_start : Sound text groups (start groups views) := by
  refine ⟨represents_init text groups,
    ⟨fun w wrapper hw => ?_, fun f pending t checked hbusy => ?_⟩, fun f p hp => ?_⟩
  · cases hw
  · cases hbusy
  · cases hp

/-- Each field is kept by every confined step. -/
theorem Sound.step {l : Label} (hs : Sound text groups s) (hconfined : Confined text s l)
    (hstep : Membership.step text s l = some s') : Sound text groups s' := by
  have hwithin := hs.within.step hconfined hstep
  cases l with
  | factory l =>
    obtain ⟨x, hx, rfl⟩ := Option.map_eq_some_iff.mp hstep
    have hrep := hs.represents.step hconfined.1 hx
    exact ⟨hrep, hs.aimed.step hs.represents hrep hx, hwithin⟩
  | configure f view =>
    cases hstep
    exact ⟨hs.represents, hs.aimed, hwithin⟩

/-- In every run in which clients are only asked for if their peers are in the
configuration of the group, no peer with a client leaves it and `make` does not throw:
whenever the lock of the factory is free, a request to all peers is sent, exactly once to
each peer of the configuration that the factory has a client for, and to no peer that is
not in the configuration. -/
theorem broadcast_within_configuration {labels : List Label}
    (hrun : run (step text) (start groups views) labels = some s)
    (hconfined : Meets (step text) (Confined text) (start groups views) labels)
    (hfree : (s.factories.factories f).busy = none) :
    ∃ l x, ReplServiceCtx.dataServiceRequestUnidirectional text ⟨some (s.views f), some f⟩
        (.role .all) = some (.ok l) ∧
      Factory.step text s.factories l = some x ∧ ∃ sends : List (PeerId × DataSend),
        x.sent = s.factories.sent ++ sends.map Prod.snd ∧
        (∀ z ∈ sends,
          Reaches text s.factories.heap (s.factories.factories f).clients z.1 z.2) ∧
        (∀ p, (s.views f).HasMember text p → p ∈ (s.factories.factories f).clients →
          (sends.map Prod.fst).count p = 1) ∧
        ∀ p, ¬ (s.views f).HasMember text p → (sends.map Prod.fst).count p = 0 := by
  have hs : Sound text groups s := run_invariant_of_meets
    (fun _ _ _ hs hl hstep => Sound.step hs hl hstep) sound_start hconfined hrun
  obtain ⟨sends, hsend, hpeers, hall⟩ := broadcast_sends hs.aimed hs.represents hfree
  have hall_peers : ReplServiceCtx.dataServiceRequestUnidirectional text
      ⟨some (s.views f), some f⟩ (.role .all) = some (.ok (.broadcast f)) :=
    ReplServiceCtx.request_eq_broadcast_iff.mpr ⟨rfl, Option.some_ne_none _, rfl⟩
  refine ⟨_, _, hall_peers, hsend, sends, rfl, hall, fun p _ hp => ?_, fun p hp => ?_⟩
  · rw [hpeers]
    exact List.count_eq_one_of_mem (s.factories.factories f).clients.keys_nodup
      (AList.mem_keys.mp hp)
  · rw [hpeers]
    refine List.count_eq_zero_of_not_mem fun hmem => hp ?_
    exact hs.within f p (mem_engaged.mpr (Or.inl (AList.mem_keys.mpr hmem)))

/-- A configuration with the given peers. -/
def viewOf (peers : List PeerId) : RaftView where
  config := peers.map fun p => (1, canonicalText.toString p)
  leader := 1
  isLeader := true

/-- The members of a view are the peers that it is made from. -/
theorem hasMember_viewOf {peers : List PeerId} :
    (viewOf peers).HasMember canonicalText p ↔ p ∈ peers := by
  simp [RaftView.HasMember, viewOf, canonicalText.toString_injective.eq_iff]

/-- A peer is added to the group, and then a data request is sent to it. -/
def growing : List Label :=
  createOnce.map .factory ++ .configure 0 (viewOf [5, 6]) ::
    [.request 0 6 false (.data false) connected, .finish 0, .dispatch false 1].map .factory

/-- All steps of the run are confined. -/
theorem confined_growing : Meets (step canonicalText) (Confined canonicalText)
    (start (fun f => (f, "raft")) fun _ => viewOf [5]) growing := by
  have hrequest : ∀ {s : State} {p : PeerId} {force : Bool} {purpose : Purpose},
      (s.views 0).HasMember canonicalText p →
        Confined canonicalText s (.factory (.request 0 p force purpose connected)) := by
    intro s p force purpose hp
    refine ⟨fun constructed hthrows => ?_, fun call hcall => ?_⟩
    · cases hthrows
    · cases hcall
      exact hp
  have hother : ∀ {s : State} {l : Factory.Label}, NoThrow l → asks l = none →
      Confined canonicalText s (.factory l) := by
    intro s l hl hasks
    refine ⟨hl, fun call hcall => ?_⟩
    rw [hasks] at hcall
    cases hcall
  refine .cons rfl (hrequest (hasMember_viewOf.mpr (by simp))) ?_
  refine .cons rfl (hother trivial rfl) ?_
  refine .cons rfl (fun p hp => ?_) ?_
  · have hp : p ∈ [(5 : PeerId)] := hp
    exact hasMember_viewOf.mpr (List.mem_cons.mpr (Or.inl (List.mem_singleton.mp hp)))
  refine .cons rfl (hrequest (hasMember_viewOf.mpr (by simp))) ?_
  refine .cons rfl (hother trivial rfl) ?_
  exact .cons rfl (hother trivial rfl) trivial

/-- Both peers get the next request to all peers. -/
theorem sent_to_both_by_growing :
    ∃ s l x, run (step canonicalText) (start (fun f => (f, "raft")) fun _ => viewOf [5]) growing =
        some s ∧
      ReplServiceCtx.dataServiceRequestUnidirectional canonicalText ⟨some (s.views 0), some 0⟩
        (.role .all) = some (.ok l) ∧
      Factory.step canonicalText s.factories l = some x ∧ ∃ sends : List (PeerId × DataSend),
        x.sent = s.factories.sent ++ sends.map Prod.snd ∧
        (sends.map Prod.fst).count 5 = 1 ∧ (sends.map Prod.fst).count 6 = 1 ∧
        (sends.map Prod.fst).count 7 = 0 := by
  obtain ⟨s, hrun, hfree, hviews, hkeys⟩ : ∃ s,
      run (step canonicalText) (start (fun f => (f, "raft")) fun _ => viewOf [5]) growing = some s ∧
      (s.factories.factories 0).busy = none ∧ s.views 0 = viewOf [5, 6] ∧
      (s.factories.factories 0).clients.keys = [6, 5] :=
    ⟨_, rfl, rfl, rfl, rfl⟩
  obtain ⟨l, x, hl, hx, sends, hsent, -, hmembers, hothers⟩ :=
    broadcast_within_configuration hrun confined_growing hfree
  rw [hviews] at hmembers hothers
  refine ⟨s, l, x, hrun, hl, hx, sends, hsent, ?_, ?_, ?_⟩
  · exact hmembers 5 (hasMember_viewOf.mpr (by decide)) (AList.mem_keys.mpr (by simp [hkeys]))
  · exact hmembers 6 (hasMember_viewOf.mpr (by decide)) (AList.mem_keys.mpr (by simp [hkeys]))
  · exact hothers 7 fun h => absurd (hasMember_viewOf.mp h) (by decide)

/-- A peer for which NuRaft has asked for a client is removed from the group. -/
def removing : List Label := createOnce.map .factory ++ [.configure 0 (viewOf [])]

/-- A data request is addressed to a peer that was never in the group. -/
def straying : List Label :=
  [.request 0 5 false (.data false) connected, .finish 0, .dispatch false 0].map .factory

/-- After the run the next request to all peers goes to peer 5, which is not in the
configuration. -/
def SentOutside (view : RaftView) (labels : List Label) : Prop :=
  ∃ s x, run (step canonicalText) (start (fun f => (f, "raft")) fun _ => view) labels = some s ∧
    ¬ (s.views 0).HasMember canonicalText 5 ∧
    Factory.step canonicalText s.factories (.broadcast 0) = some x ∧
    x.sent = s.factories.sent ++ [⟨false, 0, none⟩] ∧
    Reaches canonicalText s.factories.heap (s.factories.factories 0).clients 5 ⟨false, 0, none⟩

/-- A removed peer and one that was never in the group get the request. -/
theorem sent_outside_configuration :
    SentOutside (viewOf [5]) removing ∧ SentOutside (viewOf [6]) straying := by
  constructor
  · exact ⟨_, _, rfl, by decide, rfl, rfl, 0, _, _, rfl, rfl, rfl, rfl, rfl, by decide, rfl⟩
  · exact ⟨_, _, rfl, by decide, rfl, rfl, 0, _, _, rfl, rfl, rfl, rfl, rfl, by decide, rfl⟩

end NuraftMesg.Factory.Membership
