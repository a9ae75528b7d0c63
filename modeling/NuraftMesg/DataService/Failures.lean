import NuraftMesg.Base.Transition
import NuraftMesg.DataService.Binding
import NuraftMesg.UuidText

/-!
# Binds whose registration fails

`data_service_grpc::bind` puts the handler into `_request_map` and then registers it on the
server, which can refuse for reasons of its own. The call then throws, but the entry stays:
it is not registered anywhere, and a later bind of the same name is turned down because of
it. As long as the server takes every registration that it is asked for, the map and the
server have the same names.
-/

namespace NuraftMesg

open Transition

/-- `register_generic_rpc` on a server that may refuse a registration at will. -/
def GrpcServer.tryRegister (server : GrpcServer) (accepts : Bool) (name : String)
    (cb : HandlerId) : Option GrpcServer :=
  if accepts then server.registerGenericRpc name cb else none

namespace DataService

/-- A call of `bind` and what the server would say to its registration. -/
structure Attempt where
  requestName : String
  group : GroupId
  /-- The handler, which can be null. -/
  handler : Option HandlerId
  /-- The server has no reason of its own to refuse. -/
  accepts : Bool
  deriving DecidableEq

/-- The name that the call binds. -/
def Attempt.name (text : UuidText) (a : Attempt) : String :=
  getGenericMethodName text a.requestName a.group

/-- `data_service_grpc::bind`. -/
def attempt (text : UuidText) (d : DataService) (a : Attempt) : DataService × Bound :=
  match a.handler with
  | none => (d, .refused)
  | some cb =>
    if a.name text ∈ d.requestMap then (d, .refused)
    else match d.server.tryRegister a.accepts (a.name text) cb with
      | some server => (⟨d.requestMap.emplace (a.name text) cb, server⟩, .bound)
      -- the entry was emplaced before the registration
      | none => (⟨d.requestMap.emplace (a.name text) cb, d.server⟩, .threw)

/-- One call. -/
def attemptStep (text : UuidText) (d : DataService) (a : Attempt) : Option DataService :=
  some (d.attempt text a).1

/-- The server takes the registration of a handler that is new. -/
def Accepted (text : UuidText) (d : DataService) (a : Attempt) : Prop :=
  ∀ cb ∈ a.handler, a.name text ∉ d.requestMap →
    (d.server.tryRegister a.accepts (a.name text) cb).isSome

instance (text : UuidText) (d : DataService) (a : Attempt) : Decidable (Accepted text d a) :=
  inferInstanceAs (Decidable (∀ cb ∈ a.handler, _))

/-- The call is repeated when the server does not refuse. -/
def repeated (text : UuidText) (d : DataService) (a : Attempt) : DataService × Bound :=
  (d.attempt text a).1.attempt text { a with accepts := true }

/-- A call that fails leaves the map alone; and one that threw succeeds and installs its
handler if it is repeated. -/
def FailsCleanly (text : UuidText) (d : DataService) (a : Attempt) : Prop :=
  ((d.attempt text a).2 ≠ .bound → (d.attempt text a).1.requestMap = d.requestMap) ∧
  ((d.attempt text a).2 = .threw → (d.repeated text a).2 = .bound ∧
    (d.repeated text a).1.requestMap.lookup (a.name text) = a.handler ∧
    (d.repeated text a).1.server.handlerFor (a.name text) = a.handler)

variable {text : UuidText} {d d' : DataService} {a : Attempt}

/-- With a server that does not refuse, this is the bind of a data service. -/
theorem attempt_eq_bind (haccepts : a.accepts = true) :
    d.attempt text a = d.bind text a.requestName a.group a.handler := by
  unfold attempt DataService.bind bindHandler Attempt.name GrpcServer.tryRegister
  rw [haccepts]
  cases a.handler with
  | none => rfl
  | some cb =>
    simp only [if_true]
    split_ifs
    · rfl
    · cases d.server.registerGenericRpc (getGenericMethodName text a.requestName a.group) cb <;>
        rfl

/-- What a call can come to. -/
theorem attempt_cases (text : UuidText) (d : DataService) (a : Attempt) :
    ((∀ cb ∈ a.handler, a.name text ∈ d.requestMap) ∧ d.attempt text a = (d, .refused)) ∨
    ∃ cb ∈ a.handler, a.name text ∉ d.requestMap ∧
      ((∃ server, d.server.tryRegister a.accepts (a.name text) cb = some server ∧
        d.attempt text a = (⟨d.requestMap.emplace (a.name text) cb, server⟩, .bound)) ∨
      (d.server.tryRegister a.accepts (a.name text) cb = none ∧
        d.attempt text a = (⟨d.requestMap.emplace (a.name text) cb, d.server⟩, .threw))) := by
  unfold attempt
  cases hhandler : a.handler with
  | none =>
    refine Or.inl ⟨fun cb hcb => ?_, rfl⟩
    cases hcb
  | some cb =>
    by_cases hname : a.name text ∈ d.requestMap
    · exact Or.inl ⟨fun _ _ => hname, if_pos hname⟩
    · refine Or.inr ⟨cb, rfl, hname, ?_⟩
      simp only [if_neg hname]
      cases hregister : d.server.tryRegister a.accepts (a.name text) cb with
      | none => exact Or.inr ⟨rfl, rfl⟩
      | some server => exact Or.inl ⟨server, rfl, rfl⟩

/-- A registration that is taken. -/
theorem tryRegister_eq_some {server server' : GrpcServer} {accepts : Bool} {name : String}
    {cb : HandlerId} (hregister : server.tryRegister accepts name cb = some server') :
    server' = { server with genericRpcs := server.genericRpcs ++ [(name, cb)] } := by
  unfold GrpcServer.tryRegister at hregister
  split at hregister
  · exact (GrpcServer.registerGenericRpc_eq_some hregister).2.2
  · cases hregister

theorem mem_emplace_self (requestMap : Table String HandlerId) (name : String) (cb : HandlerId) :
    name ∈ requestMap.emplace name cb := by
  rw [← AList.lookup_isSome, Table.lookup_emplace_ite, if_pos rfl]
  rfl

/-- A call fails cleanly exactly if it does not meet a server that refuses a new handler. -/
theorem failsCleanly_iff_accepted : FailsCleanly text d a ↔ Accepted text d a := by
  rcases attempt_cases text d a with ⟨hknown, heq⟩ | ⟨cb, hcb, hname, ⟨server, hregister, heq⟩ |
    ⟨hregister, heq⟩⟩
  · have hclean : FailsCleanly text d a := by
      unfold FailsCleanly
      rw [heq]
      exact ⟨fun _ => rfl, fun hthrew => by cases hthrew⟩
    exact ⟨fun _ cb hcb hnew => absurd (hknown cb hcb) hnew, fun _ => hclean⟩
  · have hclean : FailsCleanly text d a := by
      unfold FailsCleanly
      rw [heq]
      exact ⟨fun hfails => absurd rfl hfails, fun hthrew => by cases hthrew⟩
    have haccepted : Accepted text d a := by
      intro cb' hcb' _
      obtain rfl : cb = cb' := Option.some.inj (hcb.symm.trans hcb')
      rw [hregister]
      rfl
    exact ⟨fun _ => haccepted, fun _ => hclean⟩
  · constructor
    · rintro ⟨hkept, -⟩
      rw [heq] at hkept
      have hthrew : Bound.threw ≠ .bound := by decide
      have hsame : d.requestMap.emplace (a.name text) cb = d.requestMap := hkept hthrew
      have hmem := mem_emplace_self d.requestMap (a.name text) cb
      rw [hsame] at hmem
      exact absurd hmem hname
    · intro haccepted
      have htaken := haccepted cb hcb hname
      rw [hregister] at htaken
      cases htaken

/-- The map and the server stay in step as long as no registration is refused. -/
theorem registered_attempt (hregistered : Registered d.requestMap d.server)
    (haccepted : Accepted text d a) :
    Registered (d.attempt text a).1.requestMap (d.attempt text a).1.server := by
  rcases attempt_cases text d a with ⟨-, heq⟩ | ⟨cb, hcb, hname, ⟨server, hregister, heq⟩ |
    ⟨hregister, heq⟩⟩
  · rw [heq]
    exact hregistered
  · rw [heq, tryRegister_eq_some hregister]
    intro other
    have hfree : d.requestMap.lookup (a.name text) = none := AList.lookup_eq_none.mpr hname
    rw [GrpcServer.handlerFor_append, hregistered other, Table.lookup_emplace_ite]
    by_cases hother : other = a.name text
    · rw [hother, hfree]
      simp
    · have hne : a.name text ≠ other := fun heq => hother heq.symm
      rw [if_neg hother, if_neg hne, Option.or_none]
  · have htaken := haccepted cb hcb hname
    rw [hregister] at htaken
    cases htaken

/-- For every sequence of binds on one server: every call that fails leaves the map
alone, one that threw can be repeated with success, and the names of the map are those that
are registered, exactly if the server takes every new handler that it is asked to register. -/
theorem binds_fail_cleanly_iff {server : GrpcServer} {attempts : List Attempt}
    (hclean : server.genericRpcs = [])
    (hrun : run (attemptStep text) ⟨∅, server⟩ attempts = some d) :
    (Meets (attemptStep text) (FailsCleanly text) ⟨∅, server⟩ attempts ∧
      ∀ name, name ∈ d.requestMap ↔ (d.server.handlerFor name).isSome) ↔
    Meets (attemptStep text) (Accepted text) ⟨∅, server⟩ attempts := by
  constructor
  · rintro ⟨hfails, -⟩
    exact hfails.imp fun _ _ => failsCleanly_iff_accepted.mp
  · intro haccepted
    refine ⟨haccepted.imp fun _ _ => failsCleanly_iff_accepted.mpr, fun name => ?_⟩
    have hregistered : Registered d.requestMap d.server := by
      refine run_invariant_of_meets (I := fun d => Registered d.requestMap d.server)
        (fun x a x' hx hcond hstep => ?_) (registered_empty hclean) haccepted hrun
      obtain rfl := Option.some.inj hstep
      exact registered_attempt hx hcond
    rw [hregistered name, AList.lookup_isSome]

/-- Two groups bind a request, and the first one once more. -/
def acceptedAttempts : List Attempt :=
  [⟨"read", 1, some 10, true⟩, ⟨"read", 2, some 20, true⟩, ⟨"read", 1, some 30, false⟩]

/-- Both names are registered, and the third call changed nothing. -/
theorem registered_by_acceptedAttempts :
    ∃ d, run (attemptStep canonicalText) ⟨∅, { running := true }⟩ acceptedAttempts = some d ∧
      (∀ name, name ∈ d.requestMap ↔ (d.server.handlerFor name).isSome) ∧
      d.server.genericRpcs.map Prod.snd = [10, 20] := by
  obtain ⟨d, hrun, hhandlers⟩ : ∃ d,
      run (attemptStep canonicalText) ⟨∅, { running := true }⟩ acceptedAttempts = some d ∧
        d.server.genericRpcs.map Prod.snd = [10, 20] := ⟨_, rfl, by decide⟩
  have haccepted : Meets (attemptStep canonicalText) (Accepted canonicalText)
      ⟨∅, { running := true }⟩ acceptedAttempts := by decide
  exact ⟨d, hrun, ((binds_fail_cleanly_iff rfl hrun).mpr haccepted).2, hhandlers⟩

/-- A bind whose registration is refused. -/
def refusedAttempt : Attempt := ⟨"read", 1, some 10, false⟩

/-- The call throws and leaves its entry in the map, though nothing is registered; when it
is repeated and the server would take the registration, it answers `false`. -/
theorem entry_left_by_refusedAttempt :
    ∃ d, run (attemptStep canonicalText) ⟨∅, { running := true }⟩ [refusedAttempt] = some d ∧
      (attempt canonicalText ⟨∅, { running := true }⟩ refusedAttempt).2 = .threw ∧
      refusedAttempt.name canonicalText ∈ d.requestMap ∧
      d.server.handlerFor (refusedAttempt.name canonicalText) = none ∧
      (repeated canonicalText ⟨∅, { running := true }⟩ refusedAttempt).2 = .refused :=
  ⟨_, rfl, by decide, by decide, by decide, by decide⟩

end DataService

end NuraftMesg
