import NuraftMesg.Factory.Growth
import NuraftMesg.UuidText

/-!
# What the caches hold

`create_or_reinit_client` inserts a null pointer before it calls the virtual
functions that fill it. Outside the lock of a factory no such placeholder is left,
provided that `make` does not throw: every entry of a `mesg_factory` is a wrapper made
for its peer and group, and every entry of the group factory is a transport to an
endpoint of its peer. The casts on the data path rely on this.
-/

namespace NuraftMesg.Factory

variable {text : UuidText} {groups : ℕ → GroupId × GroupType} {h h' : Heap}
  {clients clients' : Clients} {p q : PeerId} {force : Bool} {around : Surroundings}
  {returned : Returned} {s s' : State} {f : ℕ}

/-- `make` does not throw in this step. -/
def NoThrow : Label → Prop
  | .request _ _ _ _ around => ∀ constructed, around.made ≠ .throws constructed
  | .group _ _ around => ∀ constructed, around.made ≠ .throws constructed
  | _ => True

/-- The slot holds a transport to an endpoint that was looked up for the peer. -/
def IsTransport (h : Heap) (p : PeerId) (slot : Slot) : Prop :=
  ∃ t transport, slot = some (.messaging t) ∧ h.transports[t]? = some transport ∧
    (p, transport.endpoint) ∈ h.lookups

/-- The slot holds a wrapper made for the peer and the group. -/
def IsWrapper (text : UuidText) (h : Heap) (group : GroupId × GroupType) (p : PeerId)
    (slot : Slot) : Prop :=
  ∃ w wrapper, slot = some (.proto w) ∧ h.wrappers[w]? = some wrapper ∧
    wrapper.clientAddr = text.toString p ∧ wrapper.groupId = group.1 ∧ wrapper.groupType = group.2

/-- What a call that holds the lock of its factory is going to use. -/
def PlanFits (h : Heap) (clients : Clients) (p : PeerId) : Plan → Prop
  | .refuse _ _ => True
  | .create t _ => t < h.transports.length
  | .reinit w t _ => t < h.transports.length ∧ clients.lookup p = some (some (.proto w))

/-- A `mesg_factory` in order. A null slot is the placeholder of the call that holds
the lock. -/
structure FactoryFits (text : UuidText) (h : Heap) (group : GroupId × GroupType)
    (factory : MesgFactory) : Prop where
  groupId : factory.groupId = group.1
  groupType : factory.groupType = group.2
  own : ∀ p slot, factory.clients.lookup p = some slot → IsWrapper text h group p slot ∨
    slot = none ∧ ∃ pending, factory.busy = some pending ∧ pending.peer = p
  plan : ∀ pending, factory.busy = some pending →
    PlanFits h factory.clients pending.peer pending.plan

/-- The representation invariant. -/
structure Represents (text : UuidText) (groups : ℕ → GroupId × GroupType) (s : State) : Prop where
  group : ∀ p slot, s.groupClients.lookup p = some slot → IsTransport s.heap p slot
  factories : ∀ f, FactoryFits text s.heap (groups f) (s.factories f)
  wrappers : ∀ (w : ℕ) (wrapper : Wrapper), s.heap.wrappers[w]? = some wrapper →
    ∃ t, wrapper.client = some t ∧ t < s.heap.transports.length
  toSend : ∀ x ∈ s.toSend, x.2 < s.heap.wrappers.length

/-! ## Growth keeps what is represented -/

/-- A slot stays a transport. -/
theorem IsTransport.grow {slot : Slot} (hslot : IsTransport h p slot) (hgrows : h.Grows h') :
    IsTransport h' p slot := by
  obtain ⟨t, transport, rfl, ht, hlookup⟩ := hslot
  obtain ⟨transport', ht', -, hendpoint⟩ := hgrows.transports t transport ht
  exact ⟨t, transport', rfl, ht', by rw [hendpoint]; exact hgrows.lookups _ hlookup⟩

/-- A slot stays a wrapper of its peer and group. -/
theorem IsWrapper.grow {slot : Slot} {group : GroupId × GroupType}
    (hslot : IsWrapper text h group p slot) (hgrows : h.Grows h') :
    IsWrapper text h' group p slot := by
  obtain ⟨w, wrapper, rfl, hw, haddr, hg, hty⟩ := hslot
  obtain ⟨wrapper', hw', -, hg', hty', haddr'⟩ := hgrows.wrappers w wrapper hw
  exact ⟨w, wrapper', rfl, hw', haddr'.trans haddr, hg'.trans hg, hty'.trans hty⟩

/-- A plan stays possible. -/
theorem PlanFits.grow {plan : Plan} (hplan : PlanFits h clients p plan) (hgrows : h.Grows h') :
    PlanFits h' clients p plan := by
  cases plan with
  | refuse code failed => trivial
  | create t checked => exact hgrows.lt_transports hplan
  | reinit w t checked => exact ⟨hgrows.lt_transports hplan.1, hplan.2⟩

/-- The cast to `grpc_proto_client` succeeds on a wrapper. -/
theorem IsWrapper.castProto {slot : Slot} {group : GroupId × GroupType}
    (hslot : IsWrapper text h group p slot) : State.castProto slot ≠ none := by
  obtain ⟨w, wrapper, rfl, -⟩ := hslot
  exact Option.some_ne_none w

/-- A factory that is not touched stays in order. -/
theorem FactoryFits.grow {group : GroupId × GroupType} {factory : MesgFactory}
    (hfits : FactoryFits text h group factory) (hgrows : h.Grows h') :
    FactoryFits text h' group factory where
  groupId := hfits.groupId
  groupType := hfits.groupType
  own p slot hslot := (hfits.own p slot hslot).imp_left (·.grow hgrows)
  plan pending hbusy := (hfits.plan pending hbusy).grow hgrows

/-! ## The lock of a `mesg_factory` -/

section Lock

variable {group : GroupId × GroupType} {factory factory' : MesgFactory} {slot : Slot}

/-- Outside the lock every entry is a wrapper. -/
theorem FactoryFits.own_of_free (hfits : FactoryFits text h group factory)
    (hfree : factory.busy = none) (hslot : factory.clients.lookup p = some slot) :
    IsWrapper text h group p slot := by
  rcases hfits.own p slot hslot with hwrapper | ⟨-, pending, hbusy, -⟩
  · exact hwrapper
  · rw [hfree] at hbusy
    cases hbusy

/-- So is an entry that is not null. -/
theorem FactoryFits.own_of_some {c : Client} (hfits : FactoryFits text h group factory)
    (hslot : factory.clients.lookup p = some (some c)) : IsWrapper text h group p (some c) := by
  rcases hfits.own p (some c) hslot with hwrapper | ⟨hnull, -⟩
  · exact hwrapper
  · cases hnull

/-- A call takes the lock and puts a placeholder into the cache. -/
theorem FactoryFits.lock (pending : Pending) (hfits : FactoryFits text h group factory)
    (hfree : factory.busy = none)
    (hplan : PlanFits h (Table.emplace factory.clients pending.peer none) pending.peer
      pending.plan) :
    FactoryFits text h group { factory with
      clients := Table.emplace factory.clients pending.peer none, busy := some pending } := by
  refine ⟨hfits.groupId, hfits.groupType, fun q slot hslot => ?_, fun pending' hbusy => ?_⟩
  · have hslot : (Table.emplace factory.clients pending.peer none).lookup q = some slot := hslot
    rw [lookup_emplace_none] at hslot
    split at hslot
    · next hq =>
      cases hold : factory.clients.lookup pending.peer with
      | none =>
        rw [hold] at hslot
        cases hslot
        exact Or.inr ⟨rfl, pending, rfl, hq.symm⟩
      | some slot' =>
        -- An entry that was there is a wrapper, and `emplace` keeps it.
        have hwrapper := hfits.own_of_free hfree hold
        rw [hold] at hslot
        cases hslot
        rw [hq]
        exact Or.inl hwrapper
    · exact Or.inl (hfits.own_of_free hfree hslot)
  · cases hbusy
    exact hplan

/-- The end of the call replaces the placeholder and releases the lock. -/
theorem FactoryFits.unlock {plan : Plan} {purpose : Purpose}
    (hfits : FactoryFits text h group factory) (hbusy : factory.busy = some ⟨p, plan, purpose⟩)
    (hgrows : h.Grows h') (hgroupId : factory'.groupId = factory.groupId)
    (hgroupType : factory'.groupType = factory.groupType) (hfree : factory'.busy = none)
    (hlookup : ∀ q, factory'.clients.lookup q =
      if q = p then slot.map some else factory.clients.lookup q)
    (hslot : slot ≠ none → IsWrapper text h' group p slot) :
    FactoryFits text h' group factory' := by
  refine ⟨hgroupId.trans hfits.groupId, hgroupType.trans hfits.groupType, fun q slot' hq => ?_,
    fun pending hpending => ?_⟩
  · rw [hlookup q] at hq
    split at hq
    · next heq =>
      obtain ⟨c, rfl, rfl⟩ := Option.map_eq_some_iff.mp hq
      rw [heq]
      exact Or.inl (hslot (Option.some_ne_none c))
    · next hne =>
      -- The only placeholder was the one for `p`.
      rcases hfits.own q slot' hq with hwrapper | ⟨-, pending, hpending, hpeer⟩
      · exact Or.inl (hwrapper.grow hgrows)
      · rw [hbusy] at hpending
        cases hpending
        exact absurd hpeer.symm hne
  · rw [hfree] at hpending
    cases hpending

end Lock

/-! ## The steps -/

/-- A call on the group factory keeps its cache in order and answers with a
transport or an error client. -/
theorem GroupMoves.represents
    (hmoves : GroupMoves h clients p force around h' clients' returned)
    (hgroup : ∀ q slot, clients.lookup q = some slot → IsTransport h q slot)
    (hmade : ∀ constructed, around.made ≠ .throws constructed) :
    (∀ q slot, clients'.lookup q = some slot → IsTransport h' q slot) ∧
      ((∃ t, returned = .client (some (.messaging t)) ∧ t < h'.transports.length) ∨
        ∃ id, returned = .client (some (.error id))) := by
  have hgrows := hmoves.grows.1
  have hold : ∀ q slot, clients.lookup q = some slot → IsTransport h' q slot :=
    fun q slot hslot => (hgroup q slot hslot).grow hgrows
  cases hmoves with
  | reuse t transport hforce hentry htransport hready hgood hclients =>
    refine ⟨fun q slot hslot => hold q slot ((hclients q).symm.trans hslot), Or.inl ⟨t, rfl, ?_⟩⟩
    exact Cells.lt_of_getElem? htransport
  | fresh hrenews hendpoint hclient hclients =>
    have hlength : h.transports.length <
        ((h.record p around.endpoint).newTransport around.endpoint).transports.length := by
      simp [Heap.newTransport, Heap.record]
    refine ⟨fun q slot hslot => ?_, Or.inl ⟨_, rfl, hlength⟩⟩
    rw [hclients q] at hslot
    split at hslot
    · next hq =>
      subst hq
      cases hslot
      refine ⟨_, _, rfl, List.getElem?_concat_length, ?_⟩
      exact List.mem_append_right _ (List.mem_singleton.mpr rfl)
    · exact hold q slot hslot
  | noEndpoint hrenews hendpoint hclients =>
    refine ⟨fun q slot hslot => ?_, Or.inr ⟨_, rfl⟩⟩
    rw [hclients q] at hslot
    split at hslot
    · next hq =>
      subst hq
      obtain ⟨c, hc, rfl⟩ := Option.map_eq_some_iff.mp hslot
      exact hold q (some c) (Option.join_eq_some_iff.mp hc)
    · exact hold q slot hslot
  | null constructed hrenews hnull hclients =>
    refine ⟨fun q slot hslot => ?_, Or.inr ⟨_, rfl⟩⟩
    rw [hclients q] at hslot
    split at hslot
    · cases hslot
    · exact hold q slot hslot
  | threw constructed hrenews hthrows hclients => exact absurd hthrows (hmade constructed)

/-- The invariant for a larger heap and another cache of the group factory. -/
theorem Represents.grow (hs : Represents text groups s) (hgrows : s.heap.Grows h)
    (hwrappers : h.wrappers = s.heap.wrappers)
    (hgroup : ∀ p slot, clients.lookup p = some slot → IsTransport h p slot) :
    Represents text groups { s with heap := h, groupClients := clients } where
  group := hgroup
  factories f := (hs.factories f).grow hgrows
  wrappers w wrapper hw := by
    obtain ⟨t, hclient, ht⟩ := hs.wrappers w wrapper (by rw [← hwrappers]; exact hw)
    exact ⟨t, hclient, hgrows.lt_transports ht⟩
  toSend x hx := by
    change x.2 < h.wrappers.length
    rw [hwrappers]
    exact hs.toSend x hx

/-- A step that leaves the caches alone. -/
theorem Represents.quiet {bumps : ℕ → Prop} (hs : Represents text groups s)
    (hquiet : Quiet bumps s s') : Represents text groups s' := by
  have hgrows := hquiet.grows
  refine ⟨fun p slot hslot => ?_, fun f => ?_, fun w wrapper hw => ?_, fun x hx => ?_⟩
  · rw [hquiet.groupClients] at hslot
    exact (hs.group p slot hslot).grow hgrows
  · rw [hquiet.factories]
    exact (hs.factories f).grow hgrows
  · rw [hquiet.wrappers] at hw
    obtain ⟨t, hclient, ht⟩ := hs.wrappers w wrapper hw
    exact ⟨t, hclient, hgrows.lt_transports ht⟩
  · rw [hquiet.wrappers]
    exact hs.toSend x (hquiet.toSend x hx)

/-- A step that changes one factory. -/
theorem Represents.setFactory {busy : Option Pending} (hs : Represents text groups s)
    (hfits : FactoryFits text s.heap (groups f)
      { s.factories f with clients := clients, busy := busy }) :
    Represents text groups (s.setFactory f clients busy) where
  group := hs.group
  factories := (Function.forall_update_iff _ fun f => FactoryFits text s.heap (groups f)).mpr
    ⟨hfits, fun f' _ => hs.factories f'⟩
  wrappers := hs.wrappers
  toSend := hs.toSend

/-- The first half of a call on a `mesg_factory`. -/
theorem Represents.request {purpose : Purpose} (hs : Represents text groups s)
    (hrequest : s.request f p force purpose around = some s')
    (hmade : ∀ constructed, around.made ≠ .throws constructed) : Represents text groups s' := by
  obtain ⟨hfree, ⟨plan, h, groupClients, returned, hchooses, hcall, rfl⟩ |
    ⟨slot, hslot, hcast, -⟩⟩ := request_cases hrequest
  · have hmoves := groupMoves_of_groupCall hcall
    obtain ⟨hgroup, hanswer⟩ := hmoves.represents hs.group hmade
    have hgrown := hs.grow hmoves.grows.1 hmoves.grows.2 hgroup
    rcases hanswer with ⟨t, rfl, ht⟩ | ⟨id, rfl⟩
    · refine hgrown.setFactory ((hgrown.factories f).lock ⟨p, plan t _, purpose⟩ hfree ?_)
      cases hchooses with
      | create hcreate => exact ht
      | reinit w hentry hforce =>
        refine ⟨ht, ?_⟩
        rw [lookup_emplace_none, if_pos rfl, hentry]
        rfl
    · exact hgrown.setFactory ((hgrown.factories f).lock
        ⟨p, .refuse .cancelled (by decide), purpose⟩ hfree trivial)
  · exact absurd hcast ((hs.factories f).own_of_free hfree hslot).castProto

/-- The end of a call replaces the placeholder. -/
theorem Represents.finished {plan : Plan} {purpose : Purpose} {slot returned : Slot}
    (hs : Represents text groups s) (hbusy : (s.factories f).busy = some ⟨p, plan, purpose⟩)
    (hdone : Finished s f p h slot returned s') (hgrows : s.heap.Grows h)
    (hwrappers : ∀ (w : ℕ) (wrapper : Wrapper), h.wrappers[w]? = some wrapper →
      ∃ t, wrapper.client = some t ∧ t < h.transports.length)
    (hslot : slot ≠ none → IsWrapper text h (groups f) p slot)
    (hreturned : ∀ w, returned = some (.proto w) → w < h.wrappers.length) :
    Represents text groups s' := by
  have hfactories := hdone.forall_factories (P := fun f => FactoryFits text h (groups f))
    ((hs.factories f).unlock hbusy hgrows hdone.groupId hdone.groupType hdone.free hdone.lookup
      hslot)
    fun f' _ => (hs.factories f').grow hgrows
  obtain ⟨rfl, hgroupClients, -, -, -, -, -, htoSend, -⟩ := hdone
  refine ⟨fun q slot' hq => ?_, hfactories, hwrappers, fun x hx => ?_⟩
  · rw [hgroupClients] at hq
    exact (hs.group q slot' hq).grow hgrows
  · rcases htoSend x hx with hold | hnew
    · exact hgrows.lt_wrappers (hs.toSend x hold)
    · exact hreturned x.2 hnew

/-- The second half of a call on a `mesg_factory`. -/
theorem Represents.finish {returned : Slot} (hs : Represents text groups s)
    (hfinish : s.finish text f = some (s', returned)) : Represents text groups s' := by
  obtain ⟨p, plan, purpose, hbusy, hplan⟩ := finish_cases hfinish
  have hfits := (hs.factories f).plan _ hbusy
  cases plan with
  | refuse code failed =>
    obtain ⟨rfl, hdone⟩ := hplan
    refine hs.finished hbusy hdone (grows_newError _) hs.wrappers (fun hslot => ?_) nofun
    obtain ⟨c, hc⟩ := Option.ne_none_iff_exists'.mp hslot
    rw [hc]
    exact (hs.factories f).own_of_some (Option.join_eq_some_iff.mp hc)
  | create t checked =>
    obtain ⟨rfl, hdone⟩ := hplan
    refine hs.finished hbusy hdone (grows_newWrapper ..) (fun w wrapper hw => ?_) (fun _ => ?_) ?_
    · rcases Cells.getElem?_alloc_cases hw with hold | ⟨-, rfl⟩
      · exact hs.wrappers w wrapper hold
      · exact ⟨t, rfl, hfits⟩
    · exact ⟨_, _, rfl, Heap.getElem?_newWrapper .., rfl, (hs.factories f).groupId,
        (hs.factories f).groupType⟩
    · intro w hw
      cases hw
      exact Cells.lt_of_getElem? (Heap.getElem?_newWrapper ..)
  | reinit w t checked =>
    obtain ⟨ht, hentry⟩ := hfits
    obtain ⟨hreturned, hdone⟩ := hplan
    have hgrows := grows_setClient s.heap w t checked
    have hwrapper := (hs.factories f).own_of_some hentry
    rw [hentry, Option.join_some] at hreturned
    subst hreturned
    refine hs.finished hbusy hdone hgrows (fun v wrapper hv => ?_)
      (fun _ => hwrapper.grow hgrows) ?_
    · obtain ⟨old, hold, rfl⟩ := Cells.getElem?_update_cases hv
      split
      · exact ⟨t, rfl, ht⟩
      · exact hs.wrappers v old hold
    · obtain ⟨v, wrapper, heq, hv, -⟩ := hwrapper.grow hgrows
      cases heq
      rintro _ ⟨⟩
      exact Cells.lt_of_getElem? hv

/-- At the beginning all caches are empty. -/
theorem represents_init (text : UuidText) (groups : ℕ → GroupId × GroupType) :
    Represents text groups (State.init groups) :=
  ⟨nofun, fun _ => ⟨rfl, rfl, nofun, nofun⟩, nofun, nofun⟩

/-- Each field is kept by every step in which `make` does not throw. -/
theorem Represents.step {l : Label} (hs : Represents text groups s) (hl : NoThrow l)
    (hstep : step text s l = some s') : Represents text groups s' := by
  rcases step_cases hstep with ⟨f, p, force, purpose, around, rfl, hrequest⟩ |
    ⟨f, returned, rfl, hfinish⟩ | ⟨p, force, around, h, groupClients, returned, rfl, hcall, rfl⟩ |
    ⟨-, hquiet, -⟩
  · exact hs.request hrequest hl
  · exact hs.finish hfinish
  · have hmoves := groupMoves_of_groupCall hcall
    exact hs.grow hmoves.grows.1 hmoves.grows.2 (hmoves.represents hs.group hl).1
  · exact hs.quiet hquiet

/-! ## No cast yields null -/

/-- Every wrapper can send. -/
theorem Represents.sendData_isSome {w : ℕ} (hs : Represents text groups s)
    (hw : w < s.heap.wrappers.length) (bidirectional : Bool)
    (checked : Transport → Wrapper → Option UInt32) :
    (s.sendData bidirectional w checked).isSome := by
  have hwrapper := List.getElem?_eq_getElem hw
  obtain ⟨t, hclient, ht⟩ := hs.wrappers w _ hwrapper
  simp [State.sendData, hwrapper, hclient, List.getElem?_eq_getElem ht]

/-- The cast yields a wrapper of the heap. -/
theorem IsWrapper.exists_castProto {slot : Slot} {group : GroupId × GroupType}
    (hslot : IsWrapper text h group p slot) :
    ∃ w, State.castProto slot = some w ∧ w < h.wrappers.length := by
  obtain ⟨w, wrapper, rfl, hw, -⟩ := hslot
  exact ⟨w, rfl, Cells.lt_of_getElem? hw⟩

/-- The loop of a broadcast goes through when all casts succeed. -/
theorem Represents.broadcast_isSome {slots : List Slot} (hs : Represents text groups s)
    (hslots : ∀ slot ∈ slots, ∃ w, State.castProto slot = some w ∧ w < s.heap.wrappers.length) :
    (slots.foldlM (fun (s : State) slot =>
      (State.castProto slot).bind fun w => s.sendData false w fun _ _ => none) s).isSome := by
  induction slots generalizing s with
  | nil => rfl
  | cons slot slots ih =>
    obtain ⟨w, hcast, hw⟩ := hslots slot List.mem_cons_self
    obtain ⟨mid, hmid⟩ := Option.isSome_iff_exists.mp
      (hs.sendData_isSome hw false fun _ _ => none)
    have hquiet : Quiet (fun _ => False) s mid := by
      obtain ⟨-, -, -, -, -, -, hquiet, -⟩ := sendData_cases hmid
      exact hquiet
    rw [List.foldlM_cons, hcast, Option.bind_some, hmid]
    refine ih (hs.quiet hquiet) fun slot' hslot' => ?_
    rw [hquiet.wrappers]
    exact hslots slot' (List.mem_cons_of_mem slot hslot')

/-- The data path of a factory whose lock is free finds wrappers only. -/
theorem Represents.reads_isSome (hs : Represents text groups s)
    (hfree : (s.factories f).busy = none) (p : PeerId) :
    (Factory.step text s (.unidirectional f p)).isSome ∧
      (Factory.step text s (.bidirectional f p)).isSome ∧
      (Factory.step text s (.broadcast f)).isSome := by
  simp only [Factory.step, hfree, Option.isSome_none, Bool.false_eq_true, if_false]
  refine ⟨?_, ?_, hs.broadcast_isSome fun slot hslot => ?_⟩
  · rw [State.unidirectional]
    cases hlookup : (s.factories f).clients.lookup p with
    | none => rfl
    | some slot =>
      obtain ⟨w, hcast, hw⟩ := ((hs.factories f).own_of_free hfree hlookup).exists_castProto
      simpa [hcast] using hs.sendData_isSome hw false _
  · rw [State.bidirectional]
    cases hlookup : (s.factories f).clients.lookup p with
    | none => rfl
    | some slot =>
      obtain ⟨w, hcast, hw⟩ := ((hs.factories f).own_of_free hfree hlookup).exists_castProto
      have hwrapper := List.getElem?_eq_getElem hw
      obtain ⟨t, hclient, ht⟩ := hs.wrappers w _ hwrapper
      simp only [hcast, Option.bind_some, hwrapper, hclient, List.getElem?_eq_getElem ht]
      split
      · rfl
      · exact hs.sendData_isSome hw true _
  · obtain ⟨q, hlookup⟩ := Table.mem_values.mp hslot
    exact ((hs.factories f).own_of_free hfree hlookup).exists_castProto

/-- `group_factory::reinit_client` finds a transport. -/
theorem Represents.groupCall_isSome (hs : Represents text groups s) (p : PeerId) (force : Bool)
    (around : Surroundings) : (groupCall s.heap s.groupClients p force around).isSome := by
  simp only [groupCall, Option.isSome_map]
  split
  · rfl
  next hreinit =>
  obtain ⟨hmem, -⟩ : p ∈ s.groupClients ∧ force = false := by simpa using hreinit
  obtain ⟨slot, hentry⟩ := Option.isSome_iff_exists.mp (AList.lookup_isSome.mpr hmem)
  obtain ⟨t, transport, rfl, ht, -⟩ := hs.group p slot hentry
  rw [lookup_emplace_none, if_pos rfl, hentry]
  simp [groupReinit, ht]

/-- A call on a factory whose lock is free gets an answer from the group factory. -/
theorem Represents.request_isSome (hs : Represents text groups s)
    (hfree : (s.factories f).busy = none) (p : PeerId) (force : Bool) (purpose : Purpose)
    (around : Surroundings) : (s.request f p force purpose around).isSome := by
  simp only [State.request, hfree, Option.isSome_none, Bool.false_eq_true, if_false, State.askGroup]
  split
  · rw [Option.isSome_map]
    exact hs.groupCall_isSome p false around
  · split
    · rw [Option.isSome_map]
      exact hs.groupCall_isSome p false around
    · rfl

/-- In every run in which `make` never throws: outside the lock of a `mesg_factory`
each of its entries is a wrapper made for its peer and group, over a transport; each
entry of the group factory is a transport to an endpoint looked up for its peer; and
none of the casts on these entries fails. -/
theorem caches_represented (text : UuidText) (groups : ℕ → GroupId × GroupType) (ls : List Label)
    (s : State) (hmade : ∀ l ∈ ls, NoThrow l)
    (hrun : Transition.run (step text) (State.init groups) ls = some s) :
    (∀ f, (s.factories f).busy = none → ∀ p slot, (s.factories f).clients.lookup p = some slot →
      ∃ (w : ℕ) (wrapper : Wrapper) (t : ℕ) (transport : Transport),
        slot = some (.proto w) ∧ s.heap.wrappers[w]? = some wrapper ∧
        wrapper.clientAddr = text.toString p ∧ wrapper.groupId = (groups f).1 ∧
        wrapper.groupType = (groups f).2 ∧ wrapper.client = some t ∧
        s.heap.transports[t]? = some transport) ∧
    (∀ p slot, s.groupClients.lookup p = some slot →
      ∃ (t : ℕ) (transport : Transport), slot = some (.messaging t) ∧
        s.heap.transports[t]? = some transport ∧ (p, transport.endpoint) ∈ s.heap.lookups) ∧
    (∀ f, (s.factories f).busy = none → ∀ p, (step text s (.unidirectional f p)).isSome ∧
      (step text s (.bidirectional f p)).isSome ∧ (step text s (.broadcast f)).isSome) ∧
    (∀ f, (s.factories f).busy = none → ∀ p force purpose around,
      (step text s (.request f p force purpose around)).isSome) ∧
    (∀ p force around, (step text s (.group p force around)).isSome) ∧
    (∀ bidirectional w, (bidirectional, w) ∈ s.toSend →
      (step text s (.dispatch bidirectional w)).isSome) := by
  have hs : Represents text groups s :=
    Transition.run_invariant_of_labels (fun _ _ _ hs hl hstep => hs.step hl hstep)
      (represents_init text groups) hmade hrun
  refine ⟨fun f hfree p slot hslot => ?_, hs.group, fun f hfree p => hs.reads_isSome hfree p,
    fun f hfree p force purpose around => hs.request_isSome hfree p force purpose around,
    fun p force around => ?_, fun bidirectional w hqueued => ?_⟩
  · obtain ⟨w, wrapper, hproto, hw, haddr, hg, hty⟩ := (hs.factories f).own_of_free hfree hslot
    obtain ⟨t, hclient, ht⟩ := hs.wrappers w wrapper hw
    exact ⟨w, wrapper, t, _, hproto, hw, haddr, hg, hty, hclient, List.getElem?_eq_getElem ht⟩
  · rw [step, Option.isSome_map]
    exact hs.groupCall_isSome p force around
  · rw [step, if_pos hqueued]
    have hdequeued : Represents text groups
        { s with toSend := s.toSend.erase (bidirectional, w) } :=
      ⟨hs.group, hs.factories, hs.wrappers, fun x hx => hs.toSend x (List.mem_of_mem_erase hx)⟩
    exact hdequeued.sendData_isSome (hs.toSend _ hqueued) bidirectional _

/-- A peer that is found and a connection that is up. -/
def connected : Surroundings where
  endpoint := "10.0.0.5:4000"
  ready := true
  made := .client

/-- NuRaft asks the first factory for a client of peer `5`. -/
def createOnce : List Label := [.request 0 5 true .caller connected, .finish 0]

/-- Then NuRaft asks the factory of another group for the same peer. -/
def createTwice : List Label :=
  createOnce ++ [.request 1 5 true .caller connected, .finish 1]

/-- After it the peer is cached by both factories, as two wrappers made for the two groups over
one transport, and a data request to it finds the wrapper of its group. -/
theorem represented_after_createTwice :
    ∃ (s : State) (first second : Wrapper),
      Transition.run (step canonicalText) (State.init fun f => (f, "raft")) createTwice = some s ∧
      (s.factories 0).clients.lookup 5 = some (some (.proto 0)) ∧
      (s.factories 1).clients.lookup 5 = some (some (.proto 1)) ∧
      s.heap.wrappers[0]? = some first ∧ s.heap.wrappers[1]? = some second ∧
      first.groupId = 0 ∧ second.groupId = 1 ∧ first.client = some 0 ∧ second.client = some 0 ∧
      ∀ f < 2, (step canonicalText s (.bidirectional f 5)).isSome := by
  have hmade : ∀ l ∈ createTwice, NoThrow l := by
    simp [createTwice, createOnce, NoThrow, connected]
  obtain ⟨s, hrun, hfree, hentry, hlength⟩ : ∃ s : State,
      Transition.run (step canonicalText) (State.init fun f => (f, "raft")) createTwice = some s ∧
      (∀ f < 2, (s.factories f).busy = none) ∧
      (∀ f < 2, (s.factories f).clients.lookup 5 = some (some (.proto f))) ∧
      s.heap.transports.length = 1 :=
    ⟨_, rfl, by decide, by decide, rfl⟩
  obtain ⟨hentries, -, hreads, -⟩ := caches_represented canonicalText _ createTwice s hmade hrun
  have hwrapper : ∀ f : ℕ, f < 2 → ∃ wrapper : Wrapper, s.heap.wrappers[f]? = some wrapper ∧
      wrapper.groupId = (f : GroupId) ∧ wrapper.client = some 0 := by
    intro f hf
    obtain ⟨w, wrapper, t, x, hslot, hwrapper, -, hgroup, -, hclient, hx⟩ :=
      hentries f (hfree f hf) 5 _ (hentry f hf)
    cases hslot
    obtain ⟨ht, -⟩ := List.getElem?_eq_some_iff.mp hx
    obtain rfl : t = 0 := by omega
    exact ⟨wrapper, hwrapper, hgroup, hclient⟩
  obtain ⟨first, hfirst, hgroup, hclient⟩ := hwrapper 0 (by decide)
  obtain ⟨second, hsecond, hgroup', hclient'⟩ := hwrapper 1 (by decide)
  exact ⟨s, first, second, hrun, hentry 0 (by decide), hentry 1 (by decide), hfirst, hsecond,
    hgroup, hgroup', hclient, hclient', fun f hf => (hreads f (hfree f hf) 5).2.1⟩

end NuraftMesg.Factory
