import NuraftMesg.Base.Cells
import NuraftMesg.Base.Table
import NuraftMesg.Wire.Messages

/-!
# Clients and the factories that cache them

A `group_factory` caches one transport (`messaging_client`) for each peer; each
`mesg_factory` caches for each peer a wrapper (`grpc_proto_client`) that adds the
group to every message and sends it over a shared transport. Objects are named by
their place in the heap. All clients draw their ids from one static counter.
-/

namespace NuraftMesg.Factory

open Proto

/-- `messaging_client`. -/
structure Transport where
  id : UInt64
  /-- `_addr`. -/
  endpoint : String
  /-- `bad_service`, which wraps. -/
  badService : UInt32
  /-- Raft messages sent and not yet completed. -/
  raftCalls : ℕ
  /-- Bidirectional data requests sent and not yet completed. -/
  dataCalls : ℕ
  deriving DecidableEq

/-- `grpc_proto_client`. -/
structure Wrapper where
  id : UInt64
  /-- `_client`. -/
  client : Option ℕ
  groupId : GroupId
  groupType : GroupType
  /-- `_client_addr`. -/
  clientAddr : String
  /-- The `bad_service` of the transport when it was selected for this wrapper
  (history). -/
  checked : UInt32
  deriving DecidableEq

/-- What a `std::shared_ptr<nuraft::rpc_client>` can point to. -/
inductive Client where
  | messaging (transport : ℕ)
  | proto (wrapper : ℕ)
  | error (id : UInt64)
  deriving DecidableEq

/-- A `std::shared_ptr<nuraft::rpc_client>`. -/
abbrev Slot := Option Client

/-- `grpc_factory::_clients`. -/
abbrev Clients := Table PeerId Slot

/-- The objects shared by all factories. -/
structure Heap where
  /-- How many clients were constructed; `_client_counter` is this number modulo
  `2 ^ 64`. -/
  constructed : ℕ
  transports : List Transport
  wrappers : List Wrapper
  /-- What `lookupEndpoint` returned for which peer (history). -/
  lookups : List (PeerId × String)

/-- What `GrpcAsyncClient::make` came to. A failure can come before or after the
base class drew an id. -/
inductive Made where
  | client
  | null (constructed : Bool)
  | throws (constructed : Bool)
  deriving DecidableEq

/-- What a call depends on besides the factories. -/
structure Surroundings where
  /-- The result of `lookupEndpoint`, empty if there is none. -/
  endpoint : String
  /-- `is_connection_ready` of the cached transport. -/
  ready : Bool
  made : Made
  deriving DecidableEq

/-- The result of a virtual `create_client` or `reinit_client`: the slot it was
given by reference, and its return value. -/
inductive Virtual where
  | done (h : Heap) (slot : Slot) (code : CmdResultCode)
  | threw (h : Heap)

/-- The result of `create_or_reinit_client`. -/
inductive Returned where
  | client (slot : Slot)
  | threw
  deriving DecidableEq

namespace Heap

/-- `_client_counter++` in the constructor of `grpc_base_client`. -/
def nextId (h : Heap) : UInt64 := UInt64.ofNat h.constructed

/-- A constructor that drew an id and then failed. -/
def spend (h : Heap) (constructed : Bool) : Heap :=
  if constructed then { h with constructed := h.constructed + 1 } else h

/-- Construct a `messaging_client`. -/
def newTransport (h : Heap) (endpoint : String) : Heap :=
  { h with
    constructed := h.constructed + 1
    transports := h.transports ++
      [{ id := h.nextId, endpoint := endpoint, badService := 0, raftCalls := 0, dataCalls := 0 }] }

/-- Construct a `grpc_proto_client`. -/
def newWrapper (h : Heap) (transport : ℕ) (g : GroupId) (ty : GroupType) (addr : String)
    (checked : UInt32) : Heap :=
  { h with
    constructed := h.constructed + 1
    wrappers := h.wrappers ++
      [{ id := h.nextId, client := some transport, groupId := g, groupType := ty,
         clientAddr := addr, checked := checked }] }

/-- The new wrapper is at the next address. -/
@[simp] theorem getElem?_newWrapper (h : Heap) (t : ℕ) (g : GroupId) (ty : GroupType)
    (addr : String) (checked : UInt32) :
    (h.newWrapper t g ty addr checked).wrappers[h.wrappers.length]? =
      some { id := h.nextId, client := some t, groupId := g, groupType := ty,
             clientAddr := addr, checked := checked } :=
  List.getElem?_concat_length

/-- Construct a `grpc_error_client`. -/
def newError (h : Heap) : Heap × Client :=
  ({ h with constructed := h.constructed + 1 }, .error h.nextId)

/-- `grpc_proto_client::setClient`. -/
def setClient (h : Heap) (wrapper transport : ℕ) (checked : UInt32) : Heap :=
  { h with
    wrappers := h.wrappers.modify wrapper fun w =>
      { w with client := some transport, checked := checked } }

/-- `setClient` reaches the wrapper that it names. -/
theorem getElem?_setClient {h : Heap} {w : ℕ} {x : Wrapper} (t : ℕ) (checked : UInt32)
    (hx : h.wrappers[w]? = some x) :
    (h.setClient w t checked).wrappers[w]? =
      some { x with client := some t, checked := checked } := by
  rw [setClient, Cells.getElem?_update hx, if_pos rfl]

/-- `get_id()`. -/
def getId (h : Heap) : Client → Option UInt64
  | .messaging t => h.transports[t]?.map (·.id)
  | .proto w => h.wrappers[w]?.map (·.id)
  | .error id => some id

end Heap

/-! ## `grpc_factory::create_or_reinit_client`, without the virtual call -/

/-- The end of the call: an error is answered with an error client, and a slot
that is still null is erased. -/
def settle (h : Heap) (clients : Clients) (p : PeerId) (slot : Slot) (code : CmdResultCode) :
    Heap × Clients × Slot :=
  let stored := if slot = none then clients.erase p else clients.insert p slot
  if code = .ok then (h, stored, slot) else (h.newError.1, stored, some h.newError.2)

/-! ## `group_factory` -/

/-- `group_factory::create_client`. -/
def groupCreate (h : Heap) (p : PeerId) (slot : Slot) (around : Surroundings) : Virtual :=
  let h := { h with lookups := h.lookups ++ [(p, around.endpoint)] }
  if around.endpoint = "" then .done h slot .badRequest
  else match around.made with
    | .client => .done (h.newTransport around.endpoint) (some (.messaging h.transports.length)) .ok
    | .null constructed => .done (h.spend constructed) none .cancelled
    | .throws constructed => .threw (h.spend constructed)

/-- `group_factory::reinit_client`; a null or foreign client has no behaviour. -/
def groupReinit (h : Heap) (p : PeerId) (slot : Slot) (around : Surroundings) : Option Virtual :=
  match slot with
  | some (.messaging t) =>
    h.transports[t]?.map fun transport =>
      if !around.ready || 0 < transport.badService then groupCreate h p slot around
      else .done h slot .ok
  | _ => none

/-- The end of a call on the group factory; an exception leaves the placeholder. -/
def Virtual.settle (emplaced : Clients) (p : PeerId) : Virtual → Heap × Clients × Returned
  | .threw h => (h, emplaced, .threw)
  | .done h slot code =>
    let settled := Factory.settle h emplaced p slot code
    (settled.1, settled.2.1, .client settled.2.2)

/-- `create_or_reinit_client(p, force)` on the group factory, whose lock is held
throughout. -/
def groupCall (h : Heap) (clients : Clients) (p : PeerId) (force : Bool) (around : Surroundings) :
    Option (Heap × Clients × Returned) :=
  let emplaced := clients.emplace p none
  let slot := (emplaced.lookup p).join
  let result :=
    if p ∉ clients ∨ force then some (groupCreate h p slot around)
    else groupReinit h p slot around
  result.map (Virtual.settle emplaced p)

end NuraftMesg.Factory
