import NuraftMesg.Base.Simulation
import NuraftMesg.Factory.Rules

/-!
# States that differ in ids only

The ids of clients come from a counter that failed calls draw from as well, and no
decision of a factory depends on them. Two states with the same caches, and with the
same clients up to their ids, therefore allow the same steps and stay alike. The
relation can leave one factory out, which is then left alone by the steps.
-/

namespace NuraftMesg.Factory

open Simulation

/-- A transport without its id. -/
def Transport.anonymous (x : Transport) : Transport := { x with id := 0 }

/-- A wrapper without its id. -/
def Wrapper.anonymous (x : Wrapper) : Wrapper := { x with id := 0 }

/-- The same clients up to their ids. -/
structure Heap.Alike (h h' : Heap) : Prop where
  transports : h.transports.map Transport.anonymous = h'.transports.map Transport.anonymous
  wrappers : h.wrappers.map Wrapper.anonymous = h'.wrappers.map Wrapper.anonymous

/-- The same factory, up to the order of the entries in its cache. -/
structure MesgFactory.Alike (x x' : MesgFactory) : Prop where
  groupId : x.groupId = x'.groupId
  groupType : x.groupType = x'.groupType
  lookup : ∀ q, x.clients.lookup q = x'.clients.lookup q
  busy : x.busy = x'.busy

/-- The same factories, except the one that is left out, over the same clients, with the
same data requests sent and still to be sent. -/
structure AlikeBut (off : Option ℕ) (s s' : State) : Prop where
  heap : s.heap.Alike s'.heap
  group : ∀ q, s.groupClients.lookup q = s'.groupClients.lookup q
  factories : ∀ f, off ≠ some f → (s.factories f).Alike (s'.factories f)
  toSend : s.toSend = s'.toSend
  sent : s.sent.Perm s'.sent

/-- The factory that a step locks or reads. -/
def Label.factory : Label → Option ℕ
  | .request f _ _ _ _ | .finish f => some f
  | .unidirectional f _ | .bidirectional f _ | .broadcast f => some f
  | _ => none

variable {text : UuidText} {h h' : Heap} {clients clients' : Clients} {p : PeerId}
  {around : Surroundings} {s s' : State} {f : ℕ} {off : Option ℕ} {slot : Slot}

/-! ## Clients -/

/-- What the steps read of a transport. -/
theorem Transport.values_of_anonymous {x x' : Transport} (hx : x.anonymous = x'.anonymous) :
    x.badService = x'.badService ∧ x.raftCalls = x'.raftCalls ∧ x.dataCalls = x'.dataCalls := by
  unfold Transport.anonymous at hx
  injection hx with hid hendpoint hbad hraft hdata
  exact ⟨hbad, hraft, hdata⟩

/-- What the steps read of a wrapper. -/
theorem Wrapper.values_of_anonymous {x x' : Wrapper} (hx : x.anonymous = x'.anonymous) :
    x.client = x'.client ∧ x.checked = x'.checked := by
  unfold Wrapper.anonymous at hx
  injection hx with hid hclient hgroup htype haddr hchecked
  exact ⟨hclient, hchecked⟩

/-- Counting a bad answer keeps two transports equal up to their ids. -/
theorem Transport.bump_anonymous {x x' : Transport} (hx : x.anonymous = x'.anonymous)
    (bad : Bool) : (x.bump bad).anonymous = (x'.bump bad).anonymous := by
  cases bad with
  | false => exact hx
  | true => exact congrArg (fun y : Transport => { y with badService := y.badService + 1 }) hx

/-- A heap is alike to itself. -/
theorem Heap.Alike.refl (h : Heap) : h.Alike h := ⟨rfl, rfl⟩

/-- A factory is alike to itself. -/
theorem MesgFactory.Alike.refl (x : MesgFactory) : x.Alike x := ⟨rfl, rfl, fun _ => rfl, rfl⟩

namespace Heap.Alike

/-- At each address both heaps have transports that differ in their ids only, or none. -/
theorem transport (hheap : h.Alike h') (t : ℕ) :
    Option.Rel (fun x x' => x.anonymous = x'.anonymous) h.transports[t]? h'.transports[t]? :=
  Cells.rel_getElem? hheap.transports t

/-- At each address both heaps have wrappers that differ in their ids only, or none. -/
theorem wrapper (hheap : h.Alike h') (w : ℕ) :
    Option.Rel (fun x x' => x.anonymous = x'.anonymous) h.wrappers[w]? h'.wrappers[w]? :=
  Cells.rel_getElem? hheap.wrappers w

/-- A new transport gets the same address on both sides. -/
theorem length_transports (hheap : h.Alike h') : h.transports.length = h'.transports.length := by
  simpa using congrArg List.length hheap.transports

/-- A new wrapper gets the same address on both sides. -/
theorem length_wrappers (hheap : h.Alike h') : h.wrappers.length = h'.wrappers.length := by
  simpa using congrArg List.length hheap.wrappers

/-- The `bad_service` that a selected transport has. -/
theorem badService (hheap : h.Alike h') (t : ℕ) :
    (h.transports[t]?.map (·.badService)).getD 0 =
      (h'.transports[t]?.map (·.badService)).getD 0 := by
  have hrel := hheap.transport t
  generalize h.transports[t]? = x, h'.transports[t]? = x' at hrel
  cases hrel with
  | none => rfl
  | some hx => exact (Transport.values_of_anonymous hx).1

/-- The next id goes to the new transport, which is the same without it. -/
theorem newTransport (hheap : h.Alike h') (endpoint : String) :
    (h.newTransport endpoint).Alike (h'.newTransport endpoint) := by
  refine ⟨?_, hheap.wrappers⟩
  simp only [Heap.newTransport, List.map_append, hheap.transports]
  rfl

/-- The next id goes to the new wrapper, which is the same without it. -/
theorem newWrapper (hheap : h.Alike h') (t : ℕ) (g : GroupId) (ty : GroupType) (addr : String)
    (checked : UInt32) :
    (h.newWrapper t g ty addr checked).Alike (h'.newWrapper t g ty addr checked) := by
  refine ⟨hheap.transports, ?_⟩
  simp only [Heap.newWrapper, List.map_append, hheap.wrappers]
  rfl

/-- `setClient` writes the same transport and the same count on both sides. -/
theorem setClient (hheap : h.Alike h') (w t : ℕ) (checked : UInt32) :
    (h.setClient w t checked).Alike (h'.setClient w t checked) := by
  refine ⟨hheap.transports, Cells.map_update hheap.wrappers (fun a b hab => ?_) w⟩
  exact congrArg (fun x : Wrapper => { x with client := some t, checked := checked }) hab

end Heap.Alike

/-- A recorded search, a spent id and an error client do not show. -/
theorem alike_record (h : Heap) (p : PeerId) (endpoint : String) : (h.record p endpoint).Alike h :=
  ⟨rfl, rfl⟩

/-- An id that a throwing constructor drew is in no client. -/
theorem alike_spend (h : Heap) (constructed : Bool) : (h.spend constructed).Alike h := by
  cases constructed <;> exact ⟨rfl, rfl⟩

/-- The id of an error client is kept outside the two lists. -/
theorem alike_newError (h : Heap) : h.newError.1.Alike h := ⟨rfl, rfl⟩

/-- Likeness is kept along two changes. -/
theorem Heap.Alike.trans {h'' : Heap} (hheap : h.Alike h') (hheap' : h'.Alike h'') : h.Alike h'' :=
  ⟨hheap.transports.trans hheap'.transports, hheap.wrappers.trans hheap'.wrappers⟩

/-- Likeness can be read in both directions. -/
theorem Heap.Alike.symm (hheap : h.Alike h') : h'.Alike h :=
  ⟨hheap.transports.symm, hheap.wrappers.symm⟩

/-- Operations that do not show, on both sides. -/
theorem Heap.Alike.both {k k' : Heap} (hheap : h.Alike h') (hk : k.Alike h) (hk' : k'.Alike h') :
    k.Alike k' :=
  (hk.trans hheap).trans hk'.symm

/-! ## Calls on the group factory -/

/-- The same answer of a virtual function. -/
inductive Virtual.Alike : Virtual → Virtual → Prop
  | done {h h' : Heap} (hheap : h.Alike h') (slot : Slot) (code : CmdResultCode) :
      Virtual.Alike (.done h slot code) (.done h' slot code)
  | threw {h h' : Heap} (hheap : h.Alike h') : Virtual.Alike (.threw h) (.threw h')

/-- The same answer of a call: an error client is as good as any other. -/
inductive Returned.Alike : Returned → Returned → Prop
  | client (slot : Slot) : Returned.Alike (.client slot) (.client slot)
  | error (id id' : UInt64) :
      Returned.Alike (.client (some (.error id))) (.client (some (.error id')))
  | threw : Returned.Alike .threw .threw

/-- The same result of a call on the group factory. -/
structure Answer.Alike (x x' : Heap × Clients × Returned) : Prop where
  heap : x.1.Alike x'.1
  lookup : ∀ q, x.2.1.lookup q = x'.2.1.lookup q
  returned : x.2.2.Alike x'.2.2

/-- `group_factory::create_client` looks at no id. -/
theorem groupCreate_alike (hheap : h.Alike h') (p : PeerId) (slot : Slot) (around : Surroundings) :
    (groupCreate h p slot around).Alike (groupCreate h' p slot around) := by
  have hrecord : (h.record p around.endpoint).Alike (h'.record p around.endpoint) :=
    hheap.both (alike_record ..) (alike_record ..)
  unfold groupCreate
  split
  · exact .done hrecord slot .badRequest
  · cases around.made with
    | client =>
      have hplace : h.transports.length = h'.transports.length := hheap.length_transports
      simp only [hplace]
      exact .done (hrecord.newTransport around.endpoint) _ .ok
    | null constructed =>
      exact .done (hrecord.both (alike_spend ..) (alike_spend ..)) none .cancelled
    | throws constructed => exact .threw (hrecord.both (alike_spend ..) (alike_spend ..))

/-- Nor does its `reinit_client`, which reads the readiness and `bad_service` of the transport. -/
theorem groupReinit_alike (hheap : h.Alike h') (p : PeerId) (slot : Slot) (around : Surroundings) :
    Option.Rel Virtual.Alike (groupReinit h p slot around) (groupReinit h' p slot around) := by
  unfold groupReinit
  split
  · next t =>
    refine rel_map (hheap.transport t) fun x x' hx => ?_
    rw [(Transport.values_of_anonymous hx).1]
    split
    · exact groupCreate_alike hheap ..
    · exact .done hheap _ .ok
  · exact .none

/-- What `create_or_reinit_client` does with the outcome depends on the code and on the slot. -/
theorem settle_alike (hheap : h.Alike h') (hlookup : ∀ q, clients.lookup q = clients'.lookup q)
    (p : PeerId) (slot : Slot) (code : CmdResultCode) :
    (settle h clients p slot code).1.Alike (settle h' clients' p slot code).1 ∧
      (∀ q, (settle h clients p slot code).2.1.lookup q =
        (settle h' clients' p slot code).2.1.lookup q) ∧
      Returned.Alike (.client (settle h clients p slot code).2.2)
        (.client (settle h' clients' p slot code).2.2) := by
  refine ⟨?_, fun q => ?_, ?_⟩
  · by_cases hcode : code = .ok
    · simpa [settle, hcode] using hheap
    · rw [(settle_failed hcode).1, (settle_failed hcode).1]
      exact hheap.both (alike_newError h) (alike_newError h')
  · rw [lookup_settle, lookup_settle, hlookup q]
  · by_cases hcode : code = .ok
    · simpa [settle, hcode] using Returned.Alike.client slot
    · rw [(settle_failed hcode).2, (settle_failed hcode).2]
      exact .error h.nextId h'.nextId

/-- So does the handling of a virtual call that returned or threw. -/
theorem Virtual.Alike.settle {x x' : Virtual} (hx : x.Alike x')
    (hlookup : ∀ q, clients.lookup q = clients'.lookup q) (p : PeerId) :
    Answer.Alike (x.settle clients p) (x'.settle clients' p) := by
  cases hx with
  | done hheap slot code =>
    obtain ⟨hheap, hfound, hreturned⟩ := Factory.settle_alike hheap hlookup p slot code
    exact ⟨hheap, hfound, hreturned⟩
  | threw hheap => exact ⟨hheap, hlookup, .threw⟩

/-- What is in a cache, by what a search finds. -/
theorem mem_iff_of_lookup (hlookup : ∀ q, clients.lookup q = clients'.lookup q) :
    p ∈ clients ↔ p ∈ clients' := by
  rw [← AList.lookup_isSome, ← AList.lookup_isSome, hlookup p]

/-- Emplacing the placeholder keeps the lookups of two caches equal. -/
theorem lookup_emplace_congr (hlookup : ∀ q, clients.lookup q = clients'.lookup q) (p q : PeerId) :
    (Table.emplace clients p none).lookup q = (Table.emplace clients' p none).lookup q := by
  rw [lookup_emplace_none, lookup_emplace_none, hlookup p, hlookup q]

/-- On alike heaps and caches the group factory answers alike. -/
theorem groupCall_alike (hheap : h.Alike h') (hlookup : ∀ q, clients.lookup q = clients'.lookup q)
    (p : PeerId) (force : Bool) (around : Surroundings) :
    Option.Rel Answer.Alike (groupCall h clients p force around)
      (groupCall h' clients' p force around) := by
  have hemplaced := lookup_emplace_congr hlookup p
  simp only [groupCall, mem_iff_of_lookup hlookup, hemplaced p]
  refine rel_map (R := Virtual.Alike) ?_ fun x x' hx => hx.settle hemplaced p
  split
  · exact .some (groupCreate_alike hheap ..)
  · exact groupReinit_alike hheap ..

/-! ## Calls on a `mesg_factory` -/

/-- The plan for the second half is made from the address of the transport and its
`bad_service`. -/
theorem pendingAfter_alike {x x' : Heap × Clients × Returned} (hx : Answer.Alike x x') (p : PeerId)
    (purpose : Purpose) (plan : ℕ → UInt32 → Plan) :
    State.pendingAfter p purpose plan x.1 x.2.2 =
      State.pendingAfter p purpose plan x'.1 x'.2.2 := by
  obtain ⟨h, clients, returned⟩ := x
  obtain ⟨h', clients', returned'⟩ := x'
  obtain ⟨hheap, -, hreturned⟩ := hx
  have hbad := hheap.badService
  cases hreturned with
  | client slot =>
    rcases slot with _ | t | w | id
    · rfl
    · simp only [State.pendingAfter]
      rw [hbad t]
    · rfl
    · rfl
  | error => rfl
  | threw => rfl

namespace AlikeBut

/-- Leaving out the same factory, likeness is kept along two changes. -/
theorem trans {s'' : State} (hs : AlikeBut off s s') (hs' : AlikeBut off s' s'') :
    AlikeBut off s s'' := by
  refine ⟨hs.heap.trans hs'.heap, fun q => (hs.group q).trans (hs'.group q), fun f hf => ?_,
    hs.toSend.trans hs'.toSend, hs.sent.trans hs'.sent⟩
  have hfirst := hs.factories f hf
  have hsecond := hs'.factories f hf
  exact ⟨hfirst.groupId.trans hsecond.groupId, hfirst.groupType.trans hsecond.groupType,
    fun q => (hfirst.lookup q).trans (hsecond.lookup q), hfirst.busy.trans hsecond.busy⟩

/-- A factory that is changed in the same way on both sides. -/
theorem setFactory {busy : Option Pending} (hs : AlikeBut off s s')
    (hf : off ≠ some f) (hlookup : ∀ q, clients.lookup q = clients'.lookup q) :
    AlikeBut off (s.setFactory f clients busy) (s'.setFactory f clients' busy) := by
  refine ⟨hs.heap, hs.group, fun f' hf' => ?_, hs.toSend, hs.sent⟩
  by_cases heq : f' = f
  · rw [heq, State.setFactory_self, State.setFactory_self]
    exact ⟨(hs.factories f hf).groupId, (hs.factories f hf).groupType, hlookup, rfl⟩
  · rw [State.setFactory_of_ne s clients busy heq, State.setFactory_of_ne s' clients' busy heq]
    exact hs.factories f' hf'

/-- Another heap and another cache of the group factory. -/
theorem withGroup (hs : AlikeBut off s s') (hheap : h.Alike h')
    (hlookup : ∀ q, clients.lookup q = clients'.lookup q) :
    AlikeBut off { s with heap := h, groupClients := clients }
      { s' with heap := h', groupClients := clients' } :=
  ⟨hheap, hlookup, hs.factories, hs.toSend, hs.sent⟩

/-- A factory that both states have can ask the group factory, with like answers. -/
theorem askGroup (hs : AlikeBut off s s') (hf : off ≠ some f)
    (hlookup : ∀ q, clients.lookup q = clients'.lookup q) (p : PeerId) (purpose : Purpose)
    (around : Surroundings) (plan : ℕ → UInt32 → Plan) :
    Option.Rel (AlikeBut off) (s.askGroup f clients p purpose around plan)
      (s'.askGroup f clients' p purpose around plan) := by
  refine rel_map (groupCall_alike hs.heap hs.group p false around) fun x x' hx => ?_
  have hpending := pendingAfter_alike hx p purpose plan
  obtain ⟨h, groupClients, returned⟩ := x
  obtain ⟨h', groupClients', returned'⟩ := x'
  simp only at hpending ⊢
  rw [hpending]
  exact (hs.withGroup hx.heap hx.lookup).setFactory hf hlookup

/-- The first half of a call chooses between a new and a reinitialised wrapper by the cache
alone. -/
theorem request (hs : AlikeBut off s s') (hf : off ≠ some f) (p : PeerId) (force : Bool)
    (purpose : Purpose) (around : Surroundings) :
    Option.Rel (AlikeBut off) (s.request f p force purpose around)
      (s'.request f p force purpose around) := by
  have hfactory := hs.factories f hf
  have hemplaced := lookup_emplace_congr hfactory.lookup p
  simp only [State.request, mem_iff_of_lookup hfactory.lookup, hfactory.busy, hemplaced p]
  split
  · exact .none
  split
  · exact hs.askGroup hf hemplaced ..
  split
  · exact hs.askGroup hf hemplaced ..
  · exact .some (hs.setFactory hf hemplaced)

/-- A data request that waits for its client is queued for the same wrapper. -/
theorem queueData {returned returned' : Slot} (hs : AlikeBut off s s') (purpose : Purpose)
    (hreturned : Returned.Alike (.client returned) (.client returned')) :
    AlikeBut off (s.queueData purpose returned) (s'.queueData purpose returned') := by
  cases hreturned with
  | client =>
    unfold State.queueData
    split
    · exact ⟨hs.heap, hs.group, hs.factories, by rw [hs.toSend], hs.sent⟩
    · exact hs
  | error id id' =>
    cases purpose with
    | caller => exact hs
    | data bidirectional => exact hs

/-- The second half of a call writes a wrapper that differs in its id only. -/
theorem finish (hs : AlikeBut off s s') (hf : off ≠ some f) :
    Option.Rel (AlikeBut off) ((s.finish text f).map Prod.fst)
      ((s'.finish text f).map Prod.fst) := by
  have hfactory := hs.factories f hf
  have hconclude : ∀ p plan,
      (s.conclude text (s.factories f) p plan).1.Alike
          (s'.conclude text (s'.factories f) p plan).1 ∧
        (s.conclude text (s.factories f) p plan).2 =
          (s'.conclude text (s'.factories f) p plan).2 := by
    intro p plan
    cases plan with
    | refuse code failed => exact ⟨hs.heap, by simp only [State.conclude, hfactory.lookup p]⟩
    | create t checked =>
      simp only [State.conclude, hfactory.groupId, hfactory.groupType, hs.heap.length_wrappers]
      exact ⟨hs.heap.newWrapper .., trivial⟩
    | reinit w t checked =>
      simp only [State.conclude, hfactory.lookup p]
      exact ⟨hs.heap.setClient .., trivial⟩
  simp only [State.finish, hfactory.busy, Option.map_map]
  cases (s'.factories f).busy with
  | none => exact .none
  | some pending =>
    obtain ⟨hheap, hresult⟩ := hconclude pending.peer pending.plan
    simp only [Option.map_some, Function.comp_apply, hresult]
    obtain ⟨hheap, hlookup, hreturned⟩ := settle_alike hheap hfactory.lookup pending.peer
      (s'.conclude text (s'.factories f) pending.peer pending.plan).2.1
      (s'.conclude text (s'.factories f) pending.peer pending.plan).2.2
    refine .some (queueData ?_ pending.purpose hreturned)
    exact (hs.withGroup hheap hs.group).setFactory hf hlookup

/-! ## All other steps -/

/-- The counters of one transport. -/
theorem updateTransport {change : Transport → Transport} (hs : AlikeBut off s s') (t : ℕ)
    (hchange : ∀ x x' : Transport, x.anonymous = x'.anonymous →
      (change x).anonymous = (change x').anonymous) :
    AlikeBut off (s.updateTransport t change) (s'.updateTransport t change) :=
  ⟨⟨Cells.map_update hs.heap.transports hchange t, hs.heap.wrappers⟩, hs.group, hs.factories,
    hs.toSend, hs.sent⟩

/-- A send goes over the transport of the wrapper and is logged alike, if what is logged does
not depend on ids. -/
theorem sendData {bidirectional : Bool} {checked : Transport → Wrapper → Option UInt32}
    (hs : AlikeBut off s s') (w : ℕ)
    (hchecked : ∀ (x x' : Transport) (y y' : Wrapper), x.anonymous = x'.anonymous →
      y.anonymous = y'.anonymous → checked x y = checked x' y') :
    Option.Rel (AlikeBut off) (s.sendData bidirectional w checked)
      (s'.sendData bidirectional w checked) := by
  unfold State.sendData
  refine rel_bind (hs.heap.wrapper w) fun y y' hy => ?_
  rw [(Wrapper.values_of_anonymous hy).1]
  refine rel_bind (rel_refl y'.client) fun t t' ht => ?_
  subst ht
  refine rel_bind (hs.heap.transport t) fun x x' hx => .some ?_
  have hlogged : AlikeBut off { s with sent := s.sent ++ [⟨bidirectional, t, checked x y⟩] }
      { s' with sent := s'.sent ++ [⟨bidirectional, t, checked x' y'⟩] } := by
    rw [hchecked x x' y y' hx hy]
    exact ⟨hs.heap, hs.group, hs.factories, hs.toSend, hs.sent.append_right _⟩
  cases bidirectional with
  | false => exact hlogged
  | true =>
    refine hlogged.updateTransport t fun a b hab => ?_
    exact congrArg (fun x : Transport => { x with dataCalls := x.dataCalls + 1 }) hab

/-- A unidirectional request finds the same wrapper. -/
theorem unidirectional (hs : AlikeBut off s s') (hf : off ≠ some f) (p : PeerId) :
    Option.Rel (AlikeBut off) (s.unidirectional f p) (s'.unidirectional f p) := by
  unfold State.unidirectional
  rw [(hs.factories f hf).lookup p]
  split
  · exact .some hs
  next slot _ =>
  refine rel_bind (rel_refl (State.castProto slot)) fun w w' hw => ?_
  subst hw
  exact hs.sendData w fun _ _ _ _ _ _ => rfl

/-- A bidirectional request reads the same `bad_service`. -/
theorem bidirectional (hs : AlikeBut off s s') (hf : off ≠ some f) (p : PeerId) :
    Option.Rel (AlikeBut off) (s.bidirectional f p) (s'.bidirectional f p) := by
  unfold State.bidirectional
  rw [(hs.factories f hf).lookup p]
  split
  · exact .some hs
  next slot _ =>
  refine rel_bind (rel_refl (State.castProto slot)) fun w w' hw => ?_
  subst hw
  refine rel_bind (hs.heap.wrapper w) fun y y' hy => ?_
  rw [(Wrapper.values_of_anonymous hy).1]
  split
  · exact .some hs
  next t _ =>
  refine rel_bind (hs.heap.transport t) fun x x' hx => ?_
  rw [(Transport.values_of_anonymous hx).1]
  split
  · exact .some hs
  · refine hs.sendData w fun a b _ _ hab _ => ?_
    rw [(Transport.values_of_anonymous hab).1]

end AlikeBut

/-- The transport that a request without a check goes over. -/
def Heap.target (h : Heap) (slot : Slot) : Option ℕ :=
  (State.castProto slot).bind fun w => h.wrappers[w]?.bind fun wrapper =>
    wrapper.client.bind fun t => h.transports[t]?.map fun _ => t

/-- The target of a broadcast is an address. -/
theorem target_alike (hheap : h.Alike h') (slot : Slot) : h.target slot = h'.target slot := by
  have hrel : Option.Rel (· = ·) (h.target slot) (h'.target slot) := by
    refine rel_bind (rel_refl (State.castProto slot)) fun w w' hw => ?_
    subst hw
    refine rel_bind (hheap.wrapper w) fun y y' hy => ?_
    rw [(Wrapper.values_of_anonymous hy).1]
    refine rel_bind (rel_refl y'.client) fun t t' ht => ?_
    subst ht
    exact rel_map (hheap.transport t) fun _ _ _ => rfl
  generalize h.target slot = x, h'.target slot = x' at hrel
  cases hrel with
  | none => rfl
  | some heq => rw [heq]

/-- The loop over the cached clients, by the transports it sends over. -/
theorem broadcast_eq (s : State) (slots : List Slot) :
    slots.foldlM (fun (s : State) slot =>
      (State.castProto slot).bind fun w => s.sendData false w fun _ _ => none) s =
    (slots.mapM s.heap.target).map fun targets =>
      { s with sent := s.sent ++ targets.map fun t => ⟨false, t, none⟩ } := by
  have hsend : ∀ (s : State) slot,
      ((State.castProto slot).bind fun w => s.sendData false w fun _ _ => none) =
        (s.heap.target slot).map fun t => { s with sent := s.sent ++ [⟨false, t, none⟩] } := by
    intro s slot
    simp only [Heap.target, State.sendData, Function.comp_def, Option.map_eq_bind,
      Option.bind_assoc, Option.bind_some, Bool.false_eq_true, if_false, Option.bind_eq_bind]
  induction slots generalizing s with
  | nil => simp
  | cons slot slots ih =>
    rw [List.foldlM_cons, hsend, List.mapM_cons]
    cases s.heap.target slot with
    | none => rfl
    | some t =>
      refine (ih _).trans ?_
      cases slots.mapM s.heap.target with
      | none => rfl
      | some targets => simp

namespace AlikeBut

/-- A broadcast sends to all wrappers of the cache. Its order may differ, so that the logs are
equal up to a permutation. -/
theorem broadcast (hs : AlikeBut off s s') (hf : off ≠ some f) :
    Option.Rel (AlikeBut off) (s.broadcast f) (s'.broadcast f) := by
  have htarget : s.heap.target = s'.heap.target := funext (target_alike hs.heap)
  unfold State.broadcast
  rw [broadcast_eq, broadcast_eq, htarget]
  have hvalues := Table.values_perm (hs.factories f hf).lookup
  refine rel_map (rel_mapM_perm hvalues) fun targets targets' htargets => ?_
  exact ⟨hs.heap, hs.group, hs.factories, hs.toSend, hs.sent.append (htargets.map _)⟩

/-- Each label is enabled on both sides or on neither, and leads to states that are alike
again. -/
theorem step (hs : AlikeBut off s s') (l : Label) (hl : ∀ f, l.factory = some f → off ≠ some f) :
    Option.Rel (AlikeBut off) (Factory.step text s l) (Factory.step text s' l) := by
  cases l with
  | request f p force purpose around => exact hs.request (hl f rfl) ..
  | finish f => exact hs.finish (hl f rfl)
  | group p force around =>
    exact rel_map (groupCall_alike hs.heap hs.group p force around) fun x x' hx =>
      hs.withGroup hx.heap hx.lookup
  | unidirectional f p =>
    simp only [Factory.step, (hs.factories f (hl f rfl)).busy]
    split
    · exact .none
    · exact hs.unidirectional (hl f rfl) p
  | bidirectional f p =>
    simp only [Factory.step, (hs.factories f (hl f rfl)).busy]
    split
    · exact .none
    · exact hs.bidirectional (hl f rfl) p
  | broadcast f =>
    simp only [Factory.step, (hs.factories f (hl f rfl)).busy]
    split
    · exact .none
    · exact hs.broadcast (hl f rfl)
  | dispatch bidirectional w =>
    simp only [Factory.step, hs.toSend]
    split
    · have hdequeued : AlikeBut off
          { s with toSend := s'.toSend.erase (bidirectional, w) }
          { s' with toSend := s'.toSend.erase (bidirectional, w) } :=
        ⟨hs.heap, hs.group, hs.factories, rfl, hs.sent⟩
      refine hdequeued.sendData w fun _ _ y y' _ hy => ?_
      rw [(Wrapper.values_of_anonymous hy).2]
    · exact .none
  | sendRaft w =>
    refine rel_bind (hs.heap.wrapper w) fun y y' hy => ?_
    rw [(Wrapper.values_of_anonymous hy).1]
    refine rel_bind (rel_refl y'.client) fun t t' ht => ?_
    subst ht
    refine .some (hs.updateTransport t fun a b hab => ?_)
    exact congrArg (fun x : Transport => { x with raftCalls := x.raftCalls + 1 }) hab
  | raftDone t status =>
    refine rel_bind (hs.heap.transport t) fun x x' hx => ?_
    rw [(Transport.values_of_anonymous hx).2.1]
    split
    · exact .none
    · refine .some (hs.updateTransport t fun a b hab => ?_)
      apply Transport.bump_anonymous
      exact congrArg (fun x : Transport => { x with raftCalls := x.raftCalls - 1 }) hab
  | dataDone t failed =>
    refine rel_bind (hs.heap.transport t) fun x x' hx => ?_
    rw [(Transport.values_of_anonymous hx).2.2]
    split
    · exact .none
    · refine .some (hs.updateTransport t fun a b hab => ?_)
      apply Transport.bump_anonymous
      exact congrArg (fun x : Transport => { x with dataCalls := x.dataCalls - 1 }) hab

end AlikeBut

end NuraftMesg.Factory
