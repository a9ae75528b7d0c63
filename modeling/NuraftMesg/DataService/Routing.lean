import NuraftMesg.DataService.Binding
import NuraftMesg.Factory.Rules
import NuraftMesg.UuidText

/-!
# Routing of data-service requests

A `mesg_factory` sends every data request under the name that it computes from the
request name and its own group; the receiving server looks for a handler under
exactly this name. A request therefore reaches the handler that was bound first for
its request name and group, and no other.
-/

namespace NuraftMesg

/-- The method name of a data request on a factory. All paths of
`data_service_request_unidirectional` and `data_service_request_bidirectional` use it. -/
def Factory.MesgFactory.methodName (text : UuidText) (factory : MesgFactory)
    (requestName : String) : String :=
  getGenericMethodName text requestName factory.groupId

/-- A call of `bind_data_service_request` with a handler. -/
structure BindCall where
  requestName : String
  group : GroupId
  handler : HandlerId
  deriving DecidableEq

/-- The call is for the given request name and group. -/
def BindCall.IsFor (b : BindCall) (r : String) (g : GroupId) : Prop :=
  b.requestName = r ∧ b.group = g

instance (b : BindCall) (r : String) (g : GroupId) : Decidable (b.IsFor r g) :=
  inferInstanceAs (Decidable (_ ∧ _))

/-- A sequence of bind calls and their answers. -/
def DataService.bindAll (text : UuidText) (d : DataService) :
    List BindCall → DataService × List Bound
  | [] => (d, [])
  | b :: bs =>
    let result := d.bind text b.requestName b.group (some b.handler)
    let rest := bindAll text result.1 bs
    (rest.1, result.2 :: rest.2)

namespace DataService

variable {text : UuidText} {d : DataService} {r : String} {g : GroupId} {b : BindCall}

/-- One bind: what is found for a request name and a group afterwards, and what the
call answers. -/
theorem bind_routes (htext : ∀ id, (text.toString id).length = 36)
    (hregistered : Registered d.requestMap d.server)
    (hok : (d.bind text b.requestName b.group (some b.handler)).2 ≠ .threw) :
    Registered (d.bind text b.requestName b.group (some b.handler)).1.requestMap
        (d.bind text b.requestName b.group (some b.handler)).1.server ∧
      (∀ r g, (d.bind text b.requestName b.group (some b.handler)).1.requestMap.lookup
          (getGenericMethodName text r g) =
        (d.requestMap.lookup (getGenericMethodName text r g)).or
          (if b.IsFor r g then some b.handler else none)) ∧
      (d.bind text b.requestName b.group (some b.handler)).2 =
        if getGenericMethodName text b.requestName b.group ∈ d.requestMap then .refused
        else .bound := by
  obtain ⟨hkept, hanswer⟩ := registered_bindHandler hregistered hok
  refine ⟨hkept, fun r g => ?_, hanswer⟩
  refine lookup_bindHandler.trans ?_
  congr 1
  refine if_congr ⟨fun h => getGenericMethodName_injective htext h, ?_⟩ rfl rfl
  rintro ⟨rfl, rfl⟩
  rfl

/-- After a sequence of binds: for each request name and group the server and the map
have what they had before, or else the first handler of the sequence. -/
theorem bindAll_routes (htext : ∀ id, (text.toString id).length = 36) {binds : List BindCall}
    (hregistered : Registered d.requestMap d.server)
    (hok : Bound.threw ∉ (d.bindAll text binds).2) :
    Registered (d.bindAll text binds).1.requestMap (d.bindAll text binds).1.server ∧
      ∀ r g, (d.bindAll text binds).1.requestMap.lookup (getGenericMethodName text r g) =
        (d.requestMap.lookup (getGenericMethodName text r g)).or
          ((binds.find? fun b => b.IsFor r g).map (·.handler)) := by
  induction binds generalizing d with
  | nil => exact ⟨hregistered, fun r g => by simp [bindAll]⟩
  | cons b bs ih =>
    simp only [bindAll, List.mem_cons, not_or] at hok
    obtain ⟨hkept, hlookup, -⟩ := bind_routes htext hregistered (Ne.symm hok.1)
    obtain ⟨hend, hrest⟩ := ih hkept hok.2
    refine ⟨hend, fun r g => ?_⟩
    simp only [bindAll, hrest r g, hlookup r g, Option.or_assoc]
    congr 1
    by_cases hb : b.IsFor r g
    · simp [hb]
    · simp [hb]

/-- The answers of a sequence of binds: a call is refused if its request name and
group were bound before, by an earlier call or already at the start. -/
theorem bindAll_answers (htext : ∀ id, (text.toString id).length = 36) {binds : List BindCall}
    (hregistered : Registered d.requestMap d.server)
    (hok : Bound.threw ∉ (d.bindAll text binds).2) {i : ℕ} (hb : binds[i]? = some b) :
    (d.bindAll text binds).2[i]? = some
      (if getGenericMethodName text b.requestName b.group ∈ d.requestMap ∨
          ∃ earlier ∈ binds.take i, earlier.IsFor b.requestName b.group then .refused
        else .bound) := by
  induction binds generalizing d i with
  | nil => cases hb
  | cons first bs ih =>
    simp only [bindAll, List.mem_cons, not_or] at hok
    obtain ⟨hkept, hlookup, hanswer⟩ := bind_routes htext hregistered (Ne.symm hok.1)
    cases i with
    | zero =>
      obtain rfl := Option.some.inj hb
      simp [bindAll, hanswer]
    | succ i =>
      simp only [bindAll, List.getElem?_cons_succ]
      rw [ih hkept hok.2 hb]
      congr 1
      refine if_congr ?_ rfl rfl
      rw [List.take_succ_cons, List.exists_mem_cons_iff, ← or_assoc]
      refine or_congr ?_ Iff.rfl
      rw [← AList.lookup_isSome, ← AList.lookup_isSome, hlookup, Option.isSome_or]
      by_cases hfirst : first.IsFor b.requestName b.group <;> simp [hfirst]

end DataService

/-- For every sequence of binds whose registrations succeed: names tell request names
and groups apart; a request of a factory under `r` reaches the handler that was bound
first for `r` and the factory's group, if there is one, and none otherwise; the map has
the same handlers; and a bind is refused if its request name and group were bound
before. -/
theorem data_request_routed {text : UuidText} {groups : ℕ → GroupId × GroupType}
    {ls : List Factory.Label} {s : Factory.State} {server : GrpcServer} {binds : List BindCall}
    (htext : ∀ id, (text.toString id).length = 36)
    (hrun : Transition.run (Factory.step text) (Factory.State.init groups) ls = some s)
    (hclean : server.genericRpcs = [])
    (hok : Bound.threw ∉ (DataService.bindAll text ⟨∅, server⟩ binds).2) (f : ℕ) :
    (∀ r r' g g', getGenericMethodName text r g = getGenericMethodName text r' g' →
      r = r' ∧ g = g') ∧
    (∀ r, (DataService.bindAll text ⟨∅, server⟩ binds).1.server.handlerFor
        ((s.factories f).methodName text r) =
      (binds.find? fun b => b.IsFor r (groups f).1).map (·.handler)) ∧
    (∀ r g, (DataService.bindAll text ⟨∅, server⟩ binds).1.requestMap.lookup
        (getGenericMethodName text r g) =
      (binds.find? fun b => b.IsFor r g).map (·.handler)) ∧
    ∀ i b, binds[i]? = some b → (DataService.bindAll text ⟨∅, server⟩ binds).2[i]? = some
      (if ∃ earlier ∈ binds.take i, earlier.IsFor b.requestName b.group then .refused
        else .bound) := by
  have hempty := registered_empty hclean
  obtain ⟨hregistered, hlookup⟩ := DataService.bindAll_routes htext hempty hok
  have hmap : ∀ r g, (DataService.bindAll text ⟨∅, server⟩ binds).1.requestMap.lookup
      (getGenericMethodName text r g) =
        (binds.find? fun b => b.IsFor r g).map (·.handler) := by
    intro r g
    rw [hlookup r g, AList.lookup_empty, Option.none_or]
  refine ⟨fun r r' g g' h => getGenericMethodName_injective htext h, fun r => ?_, hmap,
    fun i b hb => ?_⟩
  · rw [hregistered, Factory.MesgFactory.methodName, Factory.run_groupId hrun f]
    exact hmap r (groups f).1
  · rw [DataService.bindAll_answers htext hempty hok hb]
    simp

/-- Two groups bind the same request name, and the first one tries again. -/
def sampleBinds : List BindCall := [⟨"read|1", 1, 10⟩, ⟨"read|1", 2, 20⟩, ⟨"read|1", 1, 30⟩]

/-- The second factory's request reaches the second group's handler. -/
theorem routed_by_sampleBinds :
    ∃ s, Transition.run (Factory.step canonicalText)
        (Factory.State.init fun f => (BitVec.ofNat 128 f, "raft")) [] = some s ∧
      (DataService.bindAll canonicalText ⟨∅, { running := true }⟩ sampleBinds).1.server.handlerFor
        ((s.factories 2).methodName canonicalText "read|1") = some 20 := by
  obtain ⟨s, hrun, hok⟩ : ∃ s, Transition.run (Factory.step canonicalText)
        (Factory.State.init fun f => (BitVec.ofNat 128 f, "raft")) [] = some s ∧
      Bound.threw ∉
        (DataService.bindAll canonicalText ⟨∅, { running := true }⟩ sampleBinds).2 :=
    ⟨_, rfl, by decide⟩
  refine ⟨s, hrun, ?_⟩
  obtain ⟨-, hhandler, -, -⟩ := data_request_routed canonicalText_length hrun rfl hok 2
  rw [hhandler "read|1"]
  decide

end NuraftMesg
