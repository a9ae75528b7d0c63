import NuraftMesg.Base.Table
import NuraftMesg.Common

/-!
# Handlers of data-service requests

An application binds a handler for each pair of a request name and a group.
`data_service_grpc` keeps the handlers in one map, under a text made from both, and
registers each of them on the gRPC server under the same text. The server is the one
of `sisl`; it is modelled as far as registrations on it can succeed or fail.
-/

namespace NuraftMesg

/-- The identity of a request handler. -/
abbrev HandlerId := ℕ

/-- `get_generic_method_name`. -/
def getGenericMethodName (text : UuidText) (requestName : String) (g : GroupId) : String :=
  requestName ++ "|" ++ text.toString g

/-- `sisl::GrpcServer`. -/
structure GrpcServer where
  /-- `run()` was called. -/
  running : Bool := false
  /-- `register_async_generic_service()` was called. -/
  genericService : Bool := false
  /-- The generic RPCs and their handlers, in the order of registration. -/
  genericRpcs : List (String × HandlerId) := []
  /-- The RPC `RaftStep` is registered. -/
  raftStep : Bool := false
  deriving DecidableEq

namespace GrpcServer

/-- The handler that a generic request under `name` is given to. -/
def handlerFor (server : GrpcServer) (name : String) : Option HandlerId :=
  (server.genericRpcs.find? fun rpc => rpc.1 = name).map Prod.snd

/-- `register_generic_rpc`; `none` stands for its answer `false`. It needs a running
server and a name that is not taken. -/
def registerGenericRpc (server : GrpcServer) (name : String) (cb : HandlerId) :
    Option GrpcServer :=
  if server.running ∧ server.handlerFor name = none then
    some { server with genericRpcs := server.genericRpcs ++ [(name, cb)] }
  else none

end GrpcServer

/-- What a call of `bind_data_service_request` came to. -/
inductive Bound where
  /-- It answered `true`. -/
  | bound
  /-- It answered `false`. -/
  | refused
  /-- The registration failed, and the call threw. -/
  | threw
  deriving DecidableEq

/-- The critical section of `data_service_grpc::bind`, with the server that
`_grpc_server` points to. The entry stays when the registration fails. -/
def bindHandler (requestMap : Table String HandlerId) (server : GrpcServer) (name : String)
    (cb : HandlerId) : Table String HandlerId × GrpcServer × Bound :=
  if name ∈ requestMap then (requestMap, server, .refused)
  else match server.registerGenericRpc name cb with
    | some server => (requestMap.emplace name cb, server, .bound)
    | none => (requestMap.emplace name cb, server, .threw)

/-- `data_service_grpc` together with the server it registers on. -/
structure DataService where
  /-- `_request_map`. -/
  requestMap : Table String HandlerId
  /-- `_grpc_server`. -/
  server : GrpcServer

/-- A data service that nothing was bound on, with a server that is running. -/
def DataService.init : DataService := ⟨∅, { running := true, genericService := true }⟩

/-- `data_service_grpc::bind`; a null handler is not bound. -/
def DataService.bind (text : UuidText) (d : DataService) (requestName : String) (g : GroupId) :
    Option HandlerId → DataService × Bound
  | none => (d, .refused)
  | some cb =>
    let result := bindHandler d.requestMap d.server (getGenericMethodName text requestName g) cb
    (⟨result.1, result.2.1⟩, result.2.2)

/-! ## The name under which a handler is found -/

/-- As all groups have texts of one length, the text tells the request name and the
group apart, whatever the request name contains. -/
theorem getGenericMethodName_injective {text : UuidText} {r r' : String} {g g' : GroupId}
    (htext : ∀ id, (text.toString id).length = 36)
    (hname : getGenericMethodName text r g = getGenericMethodName text r' g') :
    r = r' ∧ g = g' := by
  have hlists := congrArg String.toList hname
  simp only [getGenericMethodName, String.toList_append] at hlists
  have hlength : (text.toString g).toList.length = (text.toString g').toList.length := by
    rw [String.length_toList, String.length_toList, htext, htext]
  obtain ⟨hfront, hgroup⟩ := List.append_inj' hlists hlength
  obtain ⟨hrequest, -⟩ := List.append_inj' hfront rfl
  exact ⟨String.toList_inj.mp hrequest, text.toString_injective (String.toList_inj.mp hgroup)⟩

/-! ## What a registration and a bind change -/

namespace GrpcServer

variable {server server' : GrpcServer} {name : String} {cb : HandlerId}

theorem registerGenericRpc_eq_some (h : server.registerGenericRpc name cb = some server') :
    server.running ∧ server.handlerFor name = none ∧
      server' = { server with genericRpcs := server.genericRpcs ++ [(name, cb)] } := by
  unfold registerGenericRpc at h
  split at h
  · next hok => exact ⟨hok.1, hok.2, (Option.some.inj h).symm⟩
  · cases h

/-- The new handler is found under its name, the others as before. -/
theorem handlerFor_append (server : GrpcServer) (name other : String) (cb : HandlerId) :
    handlerFor { server with genericRpcs := server.genericRpcs ++ [(name, cb)] } other =
      (server.handlerFor other).or (if name = other then some cb else none) := by
  unfold handlerFor
  rw [List.find?_append]
  cases server.genericRpcs.find? fun rpc => rpc.1 = other with
  | some rpc => rfl
  | none => by_cases h : name = other <;> simp [List.find?, h]

end GrpcServer

variable {requestMap : Table String HandlerId} {server : GrpcServer} {name other : String}
  {cb : HandlerId}

/-- What a bind does: nothing for a name that is taken, and otherwise an entry and a
registration, which can fail. -/
theorem bindHandler_cases (requestMap : Table String HandlerId) (server : GrpcServer)
    (name : String) (cb : HandlerId) :
    (name ∈ requestMap ∧ bindHandler requestMap server name cb = (requestMap, server, .refused)) ∨
    (name ∉ requestMap ∧ server.running ∧ server.handlerFor name = none ∧
      bindHandler requestMap server name cb = (requestMap.emplace name cb,
        { server with genericRpcs := server.genericRpcs ++ [(name, cb)] }, .bound)) ∨
    (name ∉ requestMap ∧ server.registerGenericRpc name cb = none ∧
      bindHandler requestMap server name cb = (requestMap.emplace name cb, server, .threw)) := by
  unfold bindHandler
  by_cases hmem : name ∈ requestMap
  · exact Or.inl ⟨hmem, if_pos hmem⟩
  · rw [if_neg hmem]
    cases hregister : server.registerGenericRpc name cb with
    | none => exact Or.inr (Or.inr ⟨hmem, rfl, rfl⟩)
    | some server' =>
      obtain ⟨hrunning, hfree, rfl⟩ := GrpcServer.registerGenericRpc_eq_some hregister
      exact Or.inr (Or.inl ⟨hmem, hrunning, hfree, rfl⟩)

/-- The map keeps the first handler of each name. -/
theorem lookup_bindHandler :
    (bindHandler requestMap server name cb).1.lookup other =
      (requestMap.lookup other).or (if name = other then some cb else none) := by
  have hemplace : (requestMap.emplace name cb).lookup other =
      (requestMap.lookup other).or (if name = other then some cb else none) := by
    rw [Table.lookup_emplace_ite]
    by_cases h : other = name
    · subst h
      cases requestMap.lookup other <;> simp
    · simp [h, Ne.symm h]
  rcases bindHandler_cases requestMap server name cb with
    ⟨hmem, heq⟩ | ⟨-, -, -, heq⟩ | ⟨-, -, heq⟩
  · rw [heq, ← hemplace, Table.emplace, if_pos hmem]
  · rw [heq, hemplace]
  · rw [heq, hemplace]

/-- A bind leaves the registrations under other names alone. -/
theorem handlerFor_bindHandler_of_ne (hne : name ≠ other) :
    (bindHandler requestMap server name cb).2.1.handlerFor other = server.handlerFor other := by
  rcases bindHandler_cases requestMap server name cb with
    ⟨-, heq⟩ | ⟨-, -, -, heq⟩ | ⟨-, -, heq⟩
  · rw [heq]
  · rw [heq, GrpcServer.handlerFor_append, if_neg hne, Option.or_none]
  · rw [heq]

/-- What a bind answers depends on the entries under its name only. -/
theorem answer_bindHandler :
    (bindHandler requestMap server name cb).2.2 =
      if (requestMap.lookup name).isSome then .refused
      else if server.running ∧ server.handlerFor name = none then .bound else .threw := by
  unfold bindHandler GrpcServer.registerGenericRpc
  simp only [AList.lookup_isSome]
  split_ifs <;> rfl

/-- What is registered under the name of a bind. -/
theorem handlerFor_bindHandler_self :
    (bindHandler requestMap server name cb).2.1.handlerFor name =
      if (bindHandler requestMap server name cb).2.2 = .bound then some cb
      else server.handlerFor name := by
  rcases bindHandler_cases requestMap server name cb with
    ⟨-, heq⟩ | ⟨-, -, hfree, heq⟩ | ⟨-, -, heq⟩
  · rw [heq]
    rfl
  · rw [heq, GrpcServer.handlerFor_append, hfree]
    simp
  · rw [heq]
    rfl

/-- A bind does not start or stop the server. -/
theorem running_bindHandler :
    (bindHandler requestMap server name cb).2.1.running = server.running := by
  rcases bindHandler_cases requestMap server name cb with
    ⟨-, heq⟩ | ⟨-, -, -, heq⟩ | ⟨-, -, heq⟩ <;> rw [heq]

/-- The server has the handlers of the map, and no others. -/
def Registered (requestMap : Table String HandlerId) (server : GrpcServer) : Prop :=
  ∀ name, server.handlerFor name = requestMap.lookup name

/-- Nothing is bound in the beginning. -/
theorem registered_empty (hclean : server.genericRpcs = []) :
    Registered ∅ server := by
  intro name
  rw [GrpcServer.handlerFor, hclean, AList.lookup_empty]
  rfl

/-- A bind that does not throw keeps the server in step with the map, and answers
whether the name was new. -/
theorem registered_bindHandler (hregistered : Registered requestMap server)
    (hok : (bindHandler requestMap server name cb).2.2 ≠ .threw) :
    Registered (bindHandler requestMap server name cb).1
        (bindHandler requestMap server name cb).2.1 ∧
      (bindHandler requestMap server name cb).2.2 =
        if name ∈ requestMap then .refused else .bound := by
  rcases bindHandler_cases requestMap server name cb with
    ⟨hmem, heq⟩ | ⟨hmem, -, -, heq⟩ | ⟨-, -, heq⟩
  · rw [heq]
    exact ⟨hregistered, (if_pos hmem).symm⟩
  · refine ⟨fun other => ?_, by rw [heq, if_neg hmem]⟩
    rw [lookup_bindHandler, ← hregistered other, heq]
    exact GrpcServer.handlerFor_append ..
  · rw [heq] at hok
    exact absurd rfl hok

end NuraftMesg
