import NuraftMesg.Base.PartialMap
import NuraftMesg.Factory.Representation

/-!
# The ids of the clients

NuRaft compares `get_id()` of the client that a response came from with that of its
current client. A forced call must therefore return a new id, and a call that only
refreshes the transport must keep the wrapper and its id. The history variable of
this file remembers the ids of all clients that were ever returned and, for each
factory and peer, the wrapper of the latest creation.

Nothing is assumed about `GrpcAsyncClient::make`: it may also return null or throw,
which leaves a placeholder in a cache.
-/

namespace NuraftMesg.Factory

variable {text : UuidText} {groups : ℕ → GroupId × GroupType} {h h' : Heap}
  {clients clients' : Clients} {p q : PeerId} {force : Bool} {around : Surroundings} {s s' : State}
  {f : ℕ}

/-! ## What was returned and created -/

/-- The history of the ids. -/
structure Issued where
  /-- The ids of the clients returned by a factory, the group factory included. -/
  returned : List UInt64
  /-- The wrapper of the latest creation for a peer in a factory, and its id then. -/
  created : PartialMap (ℕ × PeerId) (ℕ × UInt64)

/-- The client that a call returned. -/
def Returned.toList : Returned → List Client
  | .client slot => slot.toList
  | .threw => []

/-- The client that the group factory returns to this call. -/
def groupAnswer (s : State) (p : PeerId) (force : Bool) (around : Surroundings) : List Client :=
  match groupCall s.heap s.groupClients p force around with
  | some (_, _, returned) => returned.toList
  | none => []

/-- The call on a `mesg_factory` gets as far as asking the group factory. -/
def AsksGroup (s : State) (f : ℕ) (p : PeerId) (force : Bool) : Prop :=
  (s.factories f).clients.lookup p = none ∨ force = true ∨
    State.castProto ((s.factories f).clients.lookup p).join ≠ none

instance (s : State) (f : ℕ) (p : PeerId) (force : Bool) : Decidable (AsksGroup s f p force) :=
  inferInstanceAs (Decidable (_ ∨ _))

/-- The clients that a step returns to somebody. -/
def returnedBy (text : UuidText) (s : State) : Label → List Client
  | .request f p force _ around =>
    if AsksGroup s f p force then groupAnswer s p false around else []
  | .group p force around => groupAnswer s p force around
  | .finish f =>
    match s.finish text f with
    | some (_, slot) => slot.toList
    | none => []
  | _ => []

/-- The wrapper that the call on a factory creates when it ends, and for which peer. -/
def creation (text : UuidText) (s : State) (f : ℕ) : Option (PeerId × ℕ × UInt64) :=
  match (s.factories f).busy, s.finish text f with
  | some ⟨p, .create _ _, _⟩, some (s', some (.proto w)) =>
    (s'.heap.getId (.proto w)).map fun id => (p, w, id)
  | _, _ => none

/-- What a step adds to the history. -/
def observe (text : UuidText) (s : State) (l : Label) (s' : State) (issued : Issued) : Issued where
  returned := issued.returned ++ (returnedBy text s l).filterMap s'.heap.getId
  created :=
    match l with
    | .finish f =>
      match creation text s f with
      | some (p, w, id) => issued.created.assign (f, p) (w, id)
      | none => issued.created
    | _ => issued.created

/-- A step that keeps the history. -/
def trackedStep (text : UuidText) : State × Issued → Label → Option (State × Issued) :=
  Transition.track (step text) (observe text)

/-- The start of every run. -/
def trackedStart (groups : ℕ → GroupId × GroupType) : State × Issued :=
  (State.init groups, { returned := [], created := fun _ => none })

/-! ## The invariant -/

/-- The id was drawn from the counter. -/
def Drawn (h : Heap) (id : UInt64) : Prop := ∃ k < h.constructed, id = UInt64.ofNat k

/-- The client was returned once. -/
def WasReturned (h : Heap) (issued : Issued) (client : Client) : Prop :=
  ∃ id ∈ issued.returned, h.getId client = some id

/-- The slot of a factory for a peer holds the wrapper of the latest creation, or
nothing. -/
def IsLatest (h : Heap) (issued : Issued) (f : ℕ) (p : PeerId) (slot : Slot) : Prop :=
  ∀ client, slot = some client → ∃ w id, client = .proto w ∧ issued.created (f, p) = some (w, id) ∧
    h.getId (.proto w) = some id ∧ id ∈ issued.returned

/-- Every slot of a factory does so, and a call only reinitialises a wrapper that is
cached. -/
structure FollowsCreation (h : Heap) (issued : Issued) (f : ℕ) (factory : MesgFactory) : Prop where
  own : ∀ p, IsLatest h issued f p (factory.clients.lookup p).join
  plan : ∀ p w t checked purpose, factory.busy = some ⟨p, .reinit w t checked, purpose⟩ →
    factory.clients.lookup p = some (some (.proto w))

/-- All clients that can be seen have ids from the counter. -/
structure Identified (c : State × Issued) : Prop where
  drawn : ∀ id ∈ c.2.returned, Drawn c.1.heap id
  group : ∀ p client, c.1.groupClients.lookup p = some (some client) →
    WasReturned c.1.heap c.2 client
  factories : ∀ f, FollowsCreation c.1.heap c.2 f (c.1.factories f)

/-- An id that was drawn stays drawn. -/
theorem Drawn.grow {id : UInt64} (hid : Drawn h id) (hgrows : h.Grows h') : Drawn h' id := by
  obtain ⟨k, hk, rfl⟩ := hid
  exact ⟨k, Nat.lt_of_lt_of_le hk hgrows.constructed, rfl⟩

/-- The next id is new, as long as the counter has not wrapped. -/
theorem Drawn.ne_nextId {id : UInt64} (hid : Drawn h id) (hcount : h.constructed < 2 ^ 64) :
    id ≠ h.nextId := by
  obtain ⟨k, hk, rfl⟩ := hid
  intro heq
  have hnat := congrArg UInt64.toNat heq
  rw [Heap.nextId, UInt64.toNat_ofNat_of_lt' hcount,
    UInt64.toNat_ofNat_of_lt' (Nat.lt_trans hk hcount)] at hnat
  omega

/-- A client keeps its id. -/
theorem Heap.Grows.getId {client : Client} {id : UInt64} (hgrows : h.Grows h')
    (hid : h.getId client = some id) : h'.getId client = some id := by
  cases client with
  | messaging t =>
    obtain ⟨x, hx, rfl⟩ := Option.map_eq_some_iff.mp hid
    obtain ⟨x', hx', hsame, -⟩ := hgrows.transports t x hx
    rw [Heap.getId, hx', Option.map_some, hsame]
  | proto w =>
    obtain ⟨x, hx, rfl⟩ := Option.map_eq_some_iff.mp hid
    obtain ⟨x', hx', hsame, -⟩ := hgrows.wrappers w x hx
    rw [Heap.getId, hx', Option.map_some, hsame]
  | error id => exact hid

/-- The history has all ids from before and that of the client just returned. -/
def Issued.Extends (issued issued' : Issued) : Prop :=
  ∀ id ∈ issued.returned, id ∈ issued'.returned

/-- A client that was returned stays one. -/
theorem WasReturned.grow {issued issued' : Issued} {client : Client}
    (hclient : WasReturned h issued client) (hgrows : h.Grows h')
    (hissued : issued.Extends issued') : WasReturned h' issued' client := by
  obtain ⟨id, hmem, hid⟩ := hclient
  exact ⟨id, hissued id hmem, hgrows.getId hid⟩

/-- A slot stays the latest one of its peer until another is created for it. -/
theorem IsLatest.grow {issued issued' : Issued} {slot : Slot}
    (hslot : IsLatest h issued f p slot) (hgrows : h.Grows h') (hissued : issued.Extends issued')
    (hcreated : issued'.created (f, p) = issued.created (f, p)) : IsLatest h' issued' f p slot := by
  intro client hclient
  obtain ⟨w, id, rfl, hw, hid, hmem⟩ := hslot client hclient
  exact ⟨w, id, rfl, hcreated.trans hw, hgrows.getId hid, hissued id hmem⟩

/-- So do all slots of a factory. -/
theorem FollowsCreation.grow {issued issued' : Issued} {factory : MesgFactory}
    (hfollows : FollowsCreation h issued f factory) (hgrows : h.Grows h')
    (hissued : issued.Extends issued')
    (hcreated : ∀ p, issued'.created (f, p) = issued.created (f, p)) :
    FollowsCreation h' issued' f factory where
  own p := (hfollows.own p).grow hgrows hissued (hcreated p)
  plan := hfollows.plan

/-- Emplacing a placeholder changes no client. -/
theorem FollowsCreation.lock {issued : Issued} {factory : MesgFactory} {busy : Option Pending}
    (hfollows : FollowsCreation h issued f factory)
    (hplan : ∀ q w t checked purpose, busy = some ⟨q, .reinit w t checked, purpose⟩ →
      (Table.emplace factory.clients p none).lookup q = some (some (.proto w))) :
    FollowsCreation h issued f
      { factory with clients := Table.emplace factory.clients p none, busy := busy } := by
  refine ⟨fun q => ?_, hplan⟩
  have hslot : ((Table.emplace factory.clients p none).lookup q).join =
      (factory.clients.lookup q).join := by
    rw [lookup_emplace_none]
    split
    · next hq => rw [hq]; rfl
    · rfl
  change IsLatest h issued f q ((Table.emplace factory.clients p none).lookup q).join
  rw [hslot]
  exact hfollows.own q

/-- The end of a call leaves its slot in order. -/
theorem FollowsCreation.unlock {issued issued' : Issued} {factory factory' : MesgFactory}
    {slot : Slot} (hfollows : FollowsCreation h issued f factory) (hgrows : h.Grows h')
    (hextends : issued.Extends issued') (hfree : factory'.busy = none)
    (hlookup : ∀ q, factory'.clients.lookup q =
      if q = p then slot.map some else factory.clients.lookup q)
    (hcreated : ∀ k, k ≠ (f, p) → issued'.created k = issued.created k)
    (hslot : IsLatest h' issued' f p slot) : FollowsCreation h' issued' f factory' := by
  refine ⟨fun q => ?_, fun q w t checked purpose hbusy => ?_⟩
  · rw [hlookup q]
    split
    · next hq =>
      rw [hq]
      cases slot <;> exact hslot
    · next hq =>
      have hne : (f, q) ≠ (f, p) := fun heq => hq (Prod.mk.inj heq).2
      exact (hfollows.own q).grow hgrows hextends (hcreated _ hne)
  · rw [hfree] at hbusy
    cases hbusy

/-! ## Calls on the group factory -/

/-- An entry of the group factory was there before the call or is what it returned. -/
theorem GroupMoves.entries {returned : Returned} {client : Client}
    (hmoves : GroupMoves h clients p force around h' clients' returned)
    (hentry : clients'.lookup q = some (some client)) :
    clients.lookup q = some (some client) ∨ client ∈ returned.toList := by
  cases hmoves with
  | reuse t transport hforce hold htransport hready hgood hclients =>
    exact Or.inl ((hclients q).symm.trans hentry)
  | fresh hrenews hendpoint hmade hclients =>
    rw [hclients q] at hentry
    split at hentry
    · cases hentry
      exact Or.inr List.mem_cons_self
    · exact Or.inl hentry
  | noEndpoint hrenews hendpoint hclients =>
    rw [hclients q] at hentry
    split at hentry
    · next hq =>
      obtain ⟨old, hold, heq⟩ := Option.map_eq_some_iff.mp hentry
      cases heq
      rw [hq]
      exact Or.inl (Option.join_eq_some_iff.mp hold)
    · exact Or.inl hentry
  | null constructed hrenews hmade hclients =>
    rw [hclients q] at hentry
    split at hentry
    · cases hentry
    · exact Or.inl hentry
  | threw constructed hrenews hmade hclients =>
    rw [hclients q] at hentry
    split at hentry
    · next hq =>
      rw [hq]
      exact Or.inl (Option.join_eq_some_iff.mp (Option.some.inj hentry))
    · exact Or.inl hentry

/-- The id of an error client is drawn, too. -/
theorem drawn_newError (h : Heap) : Drawn h.newError.1 h.nextId :=
  ⟨h.constructed, Nat.lt_succ_self _, rfl⟩

/-- What the group factory returns has an id. -/
theorem GroupMoves.answer_drawn {returned : Returned} {client : Client} {issued : Issued}
    (hmoves : GroupMoves h clients p force around h' clients' returned)
    (hdrawn : ∀ id ∈ issued.returned, Drawn h id)
    (hgroup : ∀ q client, clients.lookup q = some (some client) → WasReturned h issued client)
    (hclient : client ∈ returned.toList) : ∃ id, h'.getId client = some id ∧ Drawn h' id := by
  cases hmoves with
  | reuse t transport hforce hold htransport hready hgood hclients =>
    obtain rfl := List.mem_singleton.mp hclient
    obtain ⟨id, hmem, hid⟩ := hgroup p _ hold
    exact ⟨id, hid, hdrawn id hmem⟩
  | fresh hrenews hendpoint hmade hclients =>
    obtain rfl := List.mem_singleton.mp hclient
    refine ⟨h.nextId, ?_, h.constructed, Nat.lt_succ_self _, rfl⟩
    exact congrArg (Option.map Transport.id) List.getElem?_concat_length
  | noEndpoint hrenews hendpoint hclients =>
    obtain rfl := List.mem_singleton.mp hclient
    exact ⟨_, rfl, drawn_newError _⟩
  | null constructed hrenews hmade hclients =>
    obtain rfl := List.mem_singleton.mp hclient
    exact ⟨_, rfl, drawn_newError _⟩
  | threw => cases hclient

/-- The history after a call on the group factory. -/
theorem GroupMoves.identified {returned : Returned} {issued issued' : Issued}
    (hmoves : GroupMoves h clients p force around h' clients' returned)
    (hdrawn : ∀ id ∈ issued.returned, Drawn h id)
    (hgroup : ∀ q client, clients.lookup q = some (some client) → WasReturned h issued client)
    (hissued : issued'.returned = issued.returned ++ returned.toList.filterMap h'.getId) :
    issued.Extends issued' ∧ (∀ id ∈ issued'.returned, Drawn h' id) ∧
      ∀ q client, clients'.lookup q = some (some client) → WasReturned h' issued' client := by
  have hextends : issued.Extends issued' := fun id hid => by
    rw [hissued]
    exact List.mem_append_left _ hid
  refine ⟨hextends, fun id hid => ?_, fun q client hentry => ?_⟩
  · rw [hissued] at hid
    rcases List.mem_append.mp hid with hold | hnew
    · exact (hdrawn id hold).grow hmoves.grows.1
    · obtain ⟨client, hclient, hget⟩ := List.mem_filterMap.mp hnew
      obtain ⟨id', hget', hid'⟩ := hmoves.answer_drawn hdrawn hgroup hclient
      obtain rfl := Option.some.inj (hget.symm.trans hget')
      exact hid'
  · rcases hmoves.entries hentry with hold | hnew
    · exact (hgroup q client hold).grow hmoves.grows.1 hextends
    · obtain ⟨id, hget, -⟩ := hmoves.answer_drawn hdrawn hgroup hnew
      refine ⟨id, ?_, hget⟩
      rw [hissued]
      exact List.mem_append_right _ (List.mem_filterMap.mpr ⟨client, hnew, hget⟩)

/-- The invariant after the group factory returned. -/
theorem Identified.grow {returned : Returned} {issued issued' : Issued}
    (hs : Identified (s, issued))
    (hmoves : GroupMoves s.heap s.groupClients p force around h clients returned)
    (hissued : issued'.returned = issued.returned ++ returned.toList.filterMap h.getId)
    (hcreated : issued'.created = issued.created) :
    Identified ({ s with heap := h, groupClients := clients }, issued') := by
  obtain ⟨hextends, hdrawn, hgroup⟩ := hmoves.identified hs.drawn hs.group hissued
  refine ⟨hdrawn, hgroup, fun f => ?_⟩
  exact (hs.factories f).grow hmoves.grows.1 hextends fun p => by rw [hcreated]

/-! ## Calls on a `mesg_factory` -/

/-- A step that changes one factory. -/
theorem Identified.setFactory {issued : Issued} {busy : Option Pending}
    (hs : Identified (s, issued))
    (hfollows : FollowsCreation s.heap issued f
      { s.factories f with clients := clients, busy := busy }) :
    Identified (s.setFactory f clients busy, issued) where
  drawn := hs.drawn
  group := hs.group
  factories := (Function.forall_update_iff _ (FollowsCreation s.heap issued)).mpr
    ⟨hfollows, fun f' _ => hs.factories f'⟩

/-- A call that makes a plan has asked the group factory. -/
theorem Chooses.asksGroup {plan : ℕ → UInt32 → Plan} (hchooses : Chooses s f p force plan) :
    AsksGroup s f p force := by
  cases hchooses with
  | create hcreate => exact hcreate.imp_right Or.inl
  | reinit w hentry hforce =>
    refine Or.inr (Or.inr ?_)
    rw [hentry]
    exact Option.some_ne_none w

/-- The first half of a call. -/
theorem Identified.request {issued : Issued} {purpose : Purpose} (hs : Identified (s, issued))
    (hrequest : s.request f p force purpose around = some s') :
    Identified (s', observe text s (.request f p force purpose around) s' issued) := by
  obtain ⟨hfree, ⟨plan, h, groupClients, returned, hchooses, hcall, rfl⟩ |
    ⟨slot, hslot, hcast, hforce, rfl⟩⟩ := request_cases hrequest
  · have hmoves := groupMoves_of_groupCall hcall
    generalize hissued : observe text s (.request f p force purpose around) _ issued = issued'
    have hreturned : issued'.returned =
        issued.returned ++ returned.toList.filterMap h.getId := by
      rw [← hissued]
      simp only [observe, returnedBy, if_pos hchooses.asksGroup, groupAnswer, hcall]
      rfl
    have hcreated : issued'.created = issued.created := by
      rw [← hissued]
      rfl
    have hgrown := hs.grow hmoves hreturned hcreated
    refine hgrown.setFactory ((hgrown.factories f).lock fun q w t checked purpose' hbusy => ?_)
    -- Only a call that found a wrapper plans to reinitialise one.
    rcases pendingAfter_eq_some hbusy with ⟨u, -, heq⟩ | heq
    · cases hchooses with
      | create hcreate => cases heq
      | reinit w' hentry hforce =>
        cases heq
        change (Table.emplace _ p none).lookup p = _
        rw [lookup_emplace_none, if_pos rfl, hentry]
        rfl
    · cases heq
  · have hquiet : ¬ AsksGroup s f p force := by
      rintro (hnone | htrue | hwrapper)
      · rw [hslot] at hnone
        cases hnone
      · rw [hforce] at htrue
        cases htrue
      · rw [hslot] at hwrapper
        exact hwrapper hcast
    have hsame : observe text s (.request f p force purpose around)
        (s.setFactory f (Table.emplace (s.factories f).clients p none)
          (some ⟨p, .refuse .badRequest (by decide), purpose⟩)) issued = issued := by
      simp [observe, returnedBy, hquiet]
    rw [hsame]
    refine hs.setFactory ((hs.factories f).lock fun q w t checked purpose' hbusy => ?_)
    cases hbusy

/-- The invariant after the second half of a call, from what it returned and what it
left in the slot. -/
theorem Identified.finished {issued issued' : Issued} {slot returned : Slot}
    (hs : Identified (s, issued)) (hdone : Finished s f p h slot returned s')
    (hgrows : s.heap.Grows h) (hextends : issued.Extends issued')
    (hdrawn : ∀ id ∈ issued'.returned, Drawn h id)
    (hcreated : ∀ k, k ≠ (f, p) → issued'.created k = issued.created k)
    (hslot : IsLatest h issued' f p slot) : Identified (s', issued') := by
  have hfactories := hdone.forall_factories (P := FollowsCreation h issued')
    ((hs.factories f).unlock hgrows hextends hdone.free hdone.lookup hcreated hslot)
    fun f' hf' => (hs.factories f').grow hgrows hextends
      fun q => hcreated _ fun heq => hf' (Prod.mk.inj heq).1
  obtain ⟨rfl, hgroupClients, -⟩ := hdone
  refine ⟨hdrawn, fun q client hentry => ?_, hfactories⟩
  rw [hgroupClients] at hentry
  exact (hs.group q client hentry).grow hgrows hextends

/-- The second half of a call. -/
theorem Identified.finish {issued : Issued} {returned : Slot} (hs : Identified (s, issued))
    (hfinish : s.finish text f = some (s', returned)) :
    Identified (s', observe text s (.finish f) s' issued) := by
  have hgrows := finish_grows hfinish
  obtain ⟨p, plan, purpose, hbusy, hplan⟩ := finish_cases hfinish
  generalize hissued : observe text s (.finish f) s' issued = issued'
  have hreturned : issued'.returned =
      issued.returned ++ returned.toList.filterMap s'.heap.getId := by
    simp [← hissued, observe, returnedBy, hfinish]
  have hextends : issued.Extends issued' := fun id hid => by
    rw [hreturned]
    exact List.mem_append_left _ hid
  have hdrawn : (∀ client ∈ returned.toList, ∀ id, s'.heap.getId client = some id →
      Drawn s'.heap id) → ∀ id ∈ issued'.returned, Drawn s'.heap id := by
    intro hnew id hid
    rw [hreturned] at hid
    rcases List.mem_append.mp hid with hold | hid
    · exact (hs.drawn id hold).grow hgrows
    · obtain ⟨client, hclient, hget⟩ := List.mem_filterMap.mp hid
      exact hnew client hclient id hget
  cases plan with
  | refuse code failed =>
    obtain ⟨rfl, hdone⟩ := hplan
    have hcreated : issued'.created = issued.created := by
      simp [← hissued, observe, creation, hbusy]
    rw [hdone.heap] at hgrows hdrawn
    refine hs.finished hdone hgrows hextends (hdrawn fun client hclient id hget => ?_)
      (fun k _ => by rw [hcreated])
      (((hs.factories f).own p).grow hgrows hextends (by rw [hcreated]))
    obtain rfl := List.mem_singleton.mp hclient
    cases hget
    exact drawn_newError _
  | create t checked =>
    obtain ⟨rfl, hdone⟩ := hplan
    have hget : s'.heap.getId (.proto s.heap.wrappers.length) = some s.heap.nextId := by
      rw [hdone.heap]
      exact congrArg (Option.map Wrapper.id) (Heap.getElem?_newWrapper ..)
    have hcreated : issued'.created =
        issued.created.assign (f, p) (s.heap.wrappers.length, s.heap.nextId) := by
      simp [← hissued, observe, creation, hbusy, hfinish, hget]
    have hmem : s.heap.nextId ∈ issued'.returned := by
      simp [hreturned, hget]
    rw [hdone.heap] at hgrows hdrawn hget
    refine hs.finished hdone hgrows hextends (hdrawn fun client hclient id hid => ?_)
      (fun k hk => by rw [hcreated, PartialMap.assign_of_ne hk]) fun client hclient => ?_
    · obtain rfl := List.mem_singleton.mp hclient
      obtain rfl := Option.some.inj (hget.symm.trans hid)
      exact ⟨s.heap.constructed, Nat.lt_succ_self _, rfl⟩
    · cases hclient
      exact ⟨_, _, rfl, by rw [hcreated, PartialMap.assign_self], hget, hmem⟩
  | reinit w t checked =>
    obtain ⟨rfl, hdone⟩ := hplan
    have hcreated : issued'.created = issued.created := by
      simp [← hissued, observe, creation, hbusy]
    rw [hdone.heap] at hgrows hdrawn
    have hlatest := ((hs.factories f).own p).grow hgrows hextends (by rw [hcreated])
    refine hs.finished hdone hgrows hextends (hdrawn fun client hclient id hid => ?_)
      (fun k _ => by rw [hcreated]) hlatest
    -- The wrapper is an old one, and so is its id.
    obtain ⟨v, id', rfl, -, hid', hmem⟩ :=
      (hs.factories f).own p client (Option.mem_toList.mp hclient)
    obtain rfl := Option.some.inj ((hgrows.getId hid').symm.trans hid)
    exact (hs.drawn _ hmem).grow hgrows

/-- At the beginning no client exists. -/
theorem identified_start (groups : ℕ → GroupId × GroupType) : Identified (trackedStart groups) :=
  ⟨nofun, nofun, fun _ => ⟨fun _ => nofun, nofun⟩⟩

/-- A step outside the calls returns nothing. -/
theorem observe_of_not_isCall {l : Label} {issued : Issued} (hl : ¬ l.IsCall) :
    observe text s l s' issued = issued := by
  cases l <;> first | exact absurd trivial hl | simp [observe, returnedBy]

/-- Each field is kept by every step, with the ids that it returns. -/
theorem Identified.step {c c' : State × Issued} {l : Label} (hc : Identified c)
    (htracked : trackedStep text c l = some c') : Identified c' := by
  obtain ⟨s, issued⟩ := c
  obtain ⟨s', issued'⟩ := c'
  obtain ⟨hstep, hissued⟩ := Transition.track_eq_some.mp htracked
  dsimp only at hstep hissued
  subst hissued
  rcases step_cases hstep with ⟨f, p, force, purpose, around, rfl, hrequest⟩ |
    ⟨f, returned, rfl, hfinish⟩ | ⟨p, force, around, h, groupClients, returned, rfl, hcall, rfl⟩ |
    ⟨hl, hquiet, -⟩
  · exact hc.request hrequest
  · exact hc.finish hfinish
  · refine hc.grow (groupMoves_of_groupCall hcall) ?_ rfl
    simp only [observe, returnedBy, groupAnswer, hcall]
  · rw [observe_of_not_isCall hl]
    have hgrows := hquiet.grows
    refine ⟨fun id hid => (hc.drawn id hid).grow hgrows, fun p client hentry => ?_, fun f => ?_⟩
    · rw [hquiet.groupClients] at hentry
      exact (hc.group p client hentry).grow hgrows fun _ hid => hid
    · rw [hquiet.factories]
      exact (hc.factories f).grow hgrows (fun _ hid => hid) fun _ => rfl

/-! ## The ids over whole runs -/

/-- The client is in the cache of a `mesg_factory` or of the group factory. -/
def Cached (s : State) (client : Client) : Prop :=
  (∃ f p, (s.factories f).clients.lookup p = some (some client)) ∨
    ∃ p, s.groupClients.lookup p = some (some client)

/-- A cached client was returned. -/
theorem Identified.wasReturned {c : State × Issued} {client : Client} (hc : Identified c)
    (hcached : Cached c.1 client) : WasReturned c.1.heap c.2 client := by
  rcases hcached with ⟨f, p, hentry⟩ | ⟨p, hentry⟩
  · obtain ⟨w, id, rfl, -, hid, hmem⟩ := (hc.factories f).own p client (by rw [hentry]; rfl)
    exact ⟨id, hmem, hid⟩
  · exact hc.group p client hentry

/-- No client that was cached somewhere earlier in a run has the next id. -/
theorem cached_ne_nextId {ls front back : List Label} {past c : State × Issued} {client : Client}
    (hrun : Transition.run (trackedStep text) (trackedStart groups) ls = some c)
    (hcount : c.1.heap.constructed < 2 ^ 64) (hls : ls = front ++ back)
    (hpast : Transition.run (trackedStep text) (trackedStart groups) front = some past)
    (hcached : Cached past.1 client) : past.1.heap.getId client ≠ some c.1.heap.nextId := by
  have hidentified : Identified past :=
    Transition.run_invariant (fun _ _ _ hc hstep => hc.step hstep) (identified_start groups) hpast
  rw [hls, Transition.run_append, hpast, Option.bind_some] at hrun
  have hgrows := run_grows (Transition.run_of_track hrun)
  obtain ⟨id, hmem, hid⟩ := hidentified.wasReturned hcached
  rw [hid]
  intro heq
  exact ((hidentified.drawn id hmem).grow hgrows).ne_nextId hcount (Option.some.inj heq)

/-! ## The end of a call -/

/-- A call that does not reinitialise a wrapper draws a new id for what it returns. -/
theorem finish_nextId {plan : Plan} {purpose : Purpose} {returned : Slot}
    (hbusy : (s.factories f).busy = some ⟨p, plan, purpose⟩)
    (hplan : ∀ w t checked, plan ≠ .reinit w t checked)
    (hfinish : s.finish text f = some (s', returned)) :
    ∃ client, returned = some client ∧ s'.heap.getId client = some s.heap.nextId := by
  obtain ⟨p', plan', purpose', hbusy', hends⟩ := finish_cases hfinish
  cases hbusy.symm.trans hbusy'
  cases plan with
  | refuse code failed => exact ⟨_, hends.1, rfl⟩
  | create t checked =>
    refine ⟨_, hends.1, ?_⟩
    rw [hends.2.heap]
    exact congrArg (Option.map Wrapper.id) (Heap.getElem?_newWrapper ..)
  | reinit w t checked => exact absurd rfl (hplan w t checked)

/-- A call that reinitialises a wrapper returns the one of the latest creation. -/
theorem Identified.finish_latest {c : State × Issued} {w t : ℕ} {checked : UInt32}
    {purpose : Purpose} {returned : Slot} (hc : Identified c)
    (hbusy : (c.1.factories f).busy = some ⟨p, .reinit w t checked, purpose⟩)
    (hfinish : c.1.finish text f = some (s', returned)) :
    returned = some (.proto w) ∧
      ∃ id, c.2.created (f, p) = some (w, id) ∧ s'.heap.getId (.proto w) = some id := by
  obtain ⟨p', plan', purpose', hbusy', hends⟩ := finish_cases hfinish
  cases hbusy.symm.trans hbusy'
  have hentry : ((c.1.factories f).clients.lookup p).join = some (.proto w) := by
    rw [(hc.factories f).plan p w t checked purpose hbusy]
    rfl
  obtain ⟨v, id, hproto, hcreated, hid, -⟩ := (hc.factories f).own p _ hentry
  cases hproto
  exact ⟨hends.1.trans hentry, id, hcreated, (finish_grows hfinish).getId hid⟩

/-- A call that fails leaves the client of its slot. -/
theorem Identified.finish_error {c : State × Issued} {plan : Plan} {purpose : Purpose}
    {id : UInt64} (hc : Identified c) (hbusy : (c.1.factories f).busy = some ⟨p, plan, purpose⟩)
    (hfinish : c.1.finish text f = some (s', some (.error id))) :
    ((s'.factories f).clients.lookup p).join = ((c.1.factories f).clients.lookup p).join := by
  obtain ⟨p', plan', purpose', hbusy', hends⟩ := finish_cases hfinish
  cases hbusy.symm.trans hbusy'
  cases plan with
  | refuse code failed =>
    rw [hends.2.lookup, if_pos rfl]
    cases ((c.1.factories f).clients.lookup p).join <;> rfl
  | create t checked => cases hends.1
  | reinit w t checked => cases (hc.finish_latest hbusy hfinish).1

/-- In every run that constructs fewer than `2 ^ 64` clients, for every call: if it is
forced, it returns a client whose id nobody has seen; if it is not and the peer is
cached, it fails or returns the wrapper of the latest creation with its id; if it
fails, the cached client and its id stay as they were. -/
theorem ids_follow_creation {ls mid : List Label} {purpose : Purpose} {c before : State × Issued}
    {asked : State} {returned : Slot}
    (hrun : Transition.run (trackedStep text) (trackedStart groups) ls = some c)
    (hrequest : c.1.request f p force purpose around = some asked)
    (hlocked : (asked.factories f).busy ≠ none)
    (hmid : Transition.run (trackedStep text) c (.request f p force purpose around :: mid) =
      some before)
    (hothers : .finish f ∉ mid) (hfinish : before.1.finish text f = some (s', returned))
    (hcount : s'.heap.constructed < 2 ^ 64) :
    (force = true → ∃ client id, returned = some client ∧ s'.heap.getId client = some id ∧
      id ∉ before.2.returned ∧ ∀ front back past,
        ls ++ .request f p force purpose around :: mid = front ++ back →
        Transition.run (trackedStep text) (trackedStart groups) front = some past →
        ∀ client', Cached past.1 client' → past.1.heap.getId client' ≠ some id) ∧
    (force = false → (c.1.factories f).clients.lookup p ≠ none →
      (∃ id, returned = some (.error id)) ∨
        ∃ w id, returned = some (.proto w) ∧ before.2.created (f, p) = some (w, id) ∧
          s'.heap.getId (.proto w) = some id) ∧
    (∀ id, returned = some (.error id) →
      ((s'.factories f).clients.lookup p).join = ((c.1.factories f).clients.lookup p).join ∧
        ∀ client id', ((c.1.factories f).clients.lookup p).join = some client →
          c.1.heap.getId client = some id' → s'.heap.getId client = some id') := by
  have hwhole := Transition.run_trans hrun hmid
  have hbefore : Identified before :=
    Transition.run_invariant (fun _ _ _ hc hstep => hc.step hstep) (identified_start groups) hwhole
  have hgrows := finish_grows hfinish
  have hlt : before.1.heap.constructed < 2 ^ 64 := Nat.lt_of_le_of_lt hgrows.constructed hcount
  -- The call holds the lock all the time, so it ends as it was planned.
  have hasked : step text c.1 (.request f p force purpose around) = some asked := hrequest
  have hbetween := Transition.run_of_track hmid
  rw [Transition.run_cons, hasked, Option.bind_some] at hbetween
  obtain ⟨plan, purpose', -, hbusy, hfits, hslot⟩ :=
    call_pending hrequest hlocked hothers hbetween
  have hfresh : before.1.heap.nextId ∉ before.2.returned := fun hmem =>
    (hbefore.drawn _ hmem).ne_nextId hlt rfl
  refine ⟨fun hforce => ?_, fun hforce hcached => ?_, fun id herror => ?_⟩
  · have hnew : ∀ w t checked, plan ≠ .reinit w t checked := by
      rintro w t checked rfl
      cases hforce.symm.trans hfits.2
    obtain ⟨client, hclient, hid⟩ := finish_nextId hbusy hnew hfinish
    exact ⟨client, _, hclient, hid, hfresh, fun front back past hls hpast client' =>
      cached_ne_nextId hwhole hlt hls hpast⟩
  · cases plan with
    | refuse code failed =>
      obtain ⟨p', plan', purpose', hbusy', hends⟩ := finish_cases hfinish
      cases hbusy.symm.trans hbusy'
      exact Or.inl ⟨_, hends.1⟩
    | create t checked =>
      rcases hfits with hnone | htrue
      · exact absurd hnone hcached
      · cases hforce.symm.trans htrue
    | reinit w t checked =>
      obtain ⟨hreturned, id, hlatest, hid⟩ := hbefore.finish_latest hbusy hfinish
      exact Or.inr ⟨w, id, hreturned, hlatest, hid⟩
  · subst herror
    refine ⟨(hbefore.finish_error hbusy hfinish).trans hslot, fun client id' _ hid => ?_⟩
    exact hgrows.getId ((run_grows (Transition.run_of_track hmid)).getId hid)

/-- A forced call on the peer of `createOnce`. -/
theorem new_id_after_createOnce :
    ∃ c asked before s', Transition.run (trackedStep canonicalText)
        (trackedStart fun f => (f, "raft")) createOnce = some c ∧
      c.1.request 0 5 true .caller connected = some asked ∧
      Transition.run (trackedStep canonicalText) c [.request 0 5 true .caller connected] =
        some before ∧
      before.1.finish canonicalText 0 = some (s', some (.proto 1)) ∧
      ∃ id, s'.heap.getId (.proto 1) = some id ∧ id ∉ before.2.returned := by
  obtain ⟨c, asked, before, s', hrun, hrequest, hlocked, hmid, hfinish, hcount⟩ :
      ∃ c asked before s', Transition.run (trackedStep canonicalText)
          (trackedStart fun f => (f, "raft")) createOnce = some c ∧
        c.1.request 0 5 true .caller connected = some asked ∧ (asked.factories 0).busy ≠ none ∧
        Transition.run (trackedStep canonicalText) c [.request 0 5 true .caller connected] =
          some before ∧
        before.1.finish canonicalText 0 = some (s', some (.proto 1)) ∧
        s'.heap.constructed < 2 ^ 64 :=
    ⟨_, _, _, _, rfl, rfl, Option.some_ne_none _, rfl, rfl, by decide⟩
  refine ⟨c, asked, before, s', hrun, hrequest, hmid, hfinish, ?_⟩
  obtain ⟨client, id, hclient, hid, hnew, -⟩ :=
    (ids_follow_creation hrun hrequest hlocked hmid (by simp) hfinish hcount).1 rfl
  cases hclient
  exact ⟨id, hid, hnew⟩

end NuraftMesg.Factory
