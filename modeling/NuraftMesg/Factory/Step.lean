import NuraftMesg.Base.Transition
import NuraftMesg.Factory.State

/-!
# Runs over factories that share their transports

Any number of `mesg_factory` objects, numbered by `ℕ`, share one `group_factory`.
A call on a `mesg_factory` holds the lock of that factory from its first to its last
step, but the lock of the group factory only while it asks for a transport; calls on
other factories and completions of RPCs happen in between.
-/

namespace NuraftMesg.Factory

open Proto

/-- What a call on a `mesg_factory` will do when it goes on. -/
inductive Plan where
  /-- `create_client` or `reinit_client` returned an error. -/
  | refuse (code : CmdResultCode) (failed : code ≠ .ok)
  /-- Make a new wrapper over the transport. -/
  | create (transport : ℕ) (checked : UInt32)
  /-- Put the transport into the wrapper. -/
  | reinit (wrapper transport : ℕ) (checked : UInt32)
  deriving DecidableEq

/-- What a client is asked for. -/
inductive Purpose where
  /-- To be handed to the caller. -/
  | caller
  /-- To send a data request. -/
  | data (bidirectional : Bool)
  deriving DecidableEq

/-- A call that holds the lock of its factory. -/
structure Pending where
  peer : PeerId
  plan : Plan
  purpose : Purpose
  deriving DecidableEq

/-- `mesg_factory`. -/
structure MesgFactory where
  groupId : GroupId
  groupType : GroupType
  clients : Clients
  /-- The call that holds `_client_lock`. -/
  busy : Option Pending

/-- A data request that was sent. -/
structure DataSend where
  bidirectional : Bool
  transport : ℕ
  /-- The `bad_service` that was read on the way to this send, if any (history). -/
  checked : Option UInt32
  deriving DecidableEq

/-- All factories and their clients. -/
structure State where
  heap : Heap
  /-- `_clients` of the group factory. -/
  groupClients : Clients
  factories : ℕ → MesgFactory
  /-- Data requests that have got their wrapper and not yet used it. -/
  toSend : List (Bool × ℕ)
  sent : List DataSend

/-- The factories before their first call, for the given groups and types. -/
def State.init (groups : ℕ → GroupId × GroupType) : State where
  heap := { constructed := 0, transports := [], wrappers := [], lookups := [] }
  groupClients := ∅
  factories f := { groupId := (groups f).1, groupType := (groups f).2, clients := ∅, busy := none }
  toSend := []
  sent := []

namespace State

variable (s : State)

/-- Change one factory. -/
def setFactory (f : ℕ) (clients : Clients) (busy : Option Pending) : State :=
  { s with
    factories := Function.update s.factories f
      { s.factories f with clients := clients, busy := busy } }

/-- The factory that is written to. -/
@[simp] theorem setFactory_self (f : ℕ) (clients : Clients) (busy : Option Pending) :
    (s.setFactory f clients busy).factories f =
      { s.factories f with clients := clients, busy := busy } :=
  Function.update_self ..

/-- The other factories keep their caches and locks. -/
theorem setFactory_of_ne {f f' : ℕ} (clients : Clients) (busy : Option Pending) (hne : f' ≠ f) :
    (s.setFactory f clients busy).factories f' = s.factories f' :=
  Function.update_of_ne hne ..

/-- Change one transport. -/
def updateTransport (t : ℕ) (change : Transport → Transport) : State :=
  { s with heap := { s.heap with transports := s.heap.transports.modify t change } }

/-- What a call has to do with the answer of the group factory. An exception ends
the call. -/
def pendingAfter (p : PeerId) (purpose : Purpose) (plan : ℕ → UInt32 → Plan) (h : Heap) :
    Returned → Option Pending
  | .threw => none
  | .client (some (.messaging t)) =>
    some ⟨p, plan t ((h.transports[t]?.map (·.badService)).getD 0), purpose⟩
  | .client _ => some ⟨p, .refuse .cancelled (by decide), purpose⟩

/-- Ask the group factory for a transport; the placeholder in `clients` stays
whatever the answer is. -/
def askGroup (f : ℕ) (clients : Clients) (p : PeerId) (purpose : Purpose) (around : Surroundings)
    (plan : ℕ → UInt32 → Plan) : Option State :=
  (groupCall s.heap s.groupClients p false around).map fun (h, groupClients, returned) =>
    { s with heap := h, groupClients := groupClients }.setFactory f clients
      (pendingAfter p purpose plan h returned)

/-- `create_or_reinit_client(p, force)` on a `mesg_factory`, from taking the lock to
the answer of the group factory. -/
def request (f : ℕ) (p : PeerId) (force : Bool) (purpose : Purpose) (around : Surroundings) :
    Option State :=
  let factory := s.factories f
  let clients := factory.clients.emplace p none
  if factory.busy.isSome then none
  else if p ∉ factory.clients ∨ force then s.askGroup f clients p purpose around .create
  else match (clients.lookup p).join with
    | some (.proto w) => s.askGroup f clients p purpose around (.reinit w)
    | _ => some (s.setFactory f clients (some ⟨p, .refuse .badRequest (by decide), purpose⟩))

/-- What the call does after the answer of the group factory: the heap, the slot
and the return value of the virtual function. -/
def conclude (text : UuidText) (factory : MesgFactory) (p : PeerId) : Plan →
    Heap × Slot × CmdResultCode
  | .refuse code _ => (s.heap, (factory.clients.lookup p).join, code)
  | .create t checked =>
    (s.heap.newWrapper t factory.groupId factory.groupType (text.toString p) checked,
      some (.proto s.heap.wrappers.length), .ok)
  | .reinit w t checked =>
    (s.heap.setClient w t checked, (factory.clients.lookup p).join, .ok)

/-- A data request goes on with the wrapper that was returned. -/
def queueData (purpose : Purpose) (returned : Slot) : State :=
  match purpose, returned with
  | .data bidirectional, some (.proto w) =>
    { s with toSend := s.toSend ++ [(bidirectional, w)] }
  | _, _ => s

/-- The rest of the call, up to the release of the lock, and what it returns. -/
def finish (text : UuidText) (f : ℕ) : Option (State × Slot) :=
  (s.factories f).busy.map fun pending =>
    let concluded := s.conclude text (s.factories f) pending.peer pending.plan
    let settled := settle concluded.1 (s.factories f).clients pending.peer concluded.2.1
      concluded.2.2
    (({ s with heap := settled.1 }.setFactory f settled.2.1 none).queueData pending.purpose
      settled.2.2, settled.2.2)

/-- Send a data request over a wrapper; a null transport has no behaviour. -/
def sendData (bidirectional : Bool) (w : ℕ) (checked : Transport → Wrapper → Option UInt32) :
    Option State := do
  let wrapper ← s.heap.wrappers[w]?
  let t ← wrapper.client
  let transport ← s.heap.transports[t]?
  let s := { s with sent := s.sent ++ [⟨bidirectional, t, checked transport wrapper⟩] }
  some (if bidirectional then s.updateTransport t fun x => { x with dataCalls := x.dataCalls + 1 }
    else s)

/-- The unchecked cast of a cached client to `grpc_proto_client`. -/
def castProto : Slot → Option ℕ
  | some (.proto w) => some w
  | _ => none

/-- `data_service_request_unidirectional` to one peer, as far as the read lock is
held. A peer without an entry is left to `request`. -/
def unidirectional (f : ℕ) (p : PeerId) : Option State :=
  match (s.factories f).clients.lookup p with
  | none => some s
  | some slot => (castProto slot).bind fun w => s.sendData false w fun _ _ => none

/-- `data_service_request_bidirectional`, as far as the read lock is held. A peer
without an entry, or whose transport is bad, is left to `request`. -/
def bidirectional (f : ℕ) (p : PeerId) : Option State :=
  match (s.factories f).clients.lookup p with
  | none => some s
  | some slot => (castProto slot).bind fun w =>
    s.heap.wrappers[w]?.bind fun wrapper =>
      match wrapper.client with
      | none => some s
      | some t => s.heap.transports[t]?.bind fun transport =>
        if 0 < transport.badService then some s
        else s.sendData true w fun transport _ => some transport.badService

/-- `data_service_request_unidirectional` to all cached peers. -/
def broadcast (f : ℕ) : Option State :=
  (s.factories f).clients.values.foldlM
    (fun s slot => (castProto slot).bind fun w => s.sendData false w fun _ _ => none) s

end State

/-- One step of the system. -/
inductive Label where
  /-- Take the lock of a `mesg_factory` and ask for a transport. -/
  | request (f : ℕ) (p : PeerId) (force : Bool) (purpose : Purpose) (around : Surroundings)
  /-- Finish the call and release the lock. -/
  | finish (f : ℕ)
  /-- A call of `create_or_reinit_client` on the group factory itself. -/
  | group (p : PeerId) (force : Bool) (around : Surroundings)
  | unidirectional (f : ℕ) (p : PeerId)
  | bidirectional (f : ℕ) (p : PeerId)
  | broadcast (f : ℕ)
  /-- A data request uses the wrapper that `create_or_reinit_client` returned. -/
  | dispatch (bidirectional : Bool) (w : ℕ)
  /-- `grpc_proto_client::send_raft`. -/
  | sendRaft (w : ℕ)
  /-- The completion of a Raft message. -/
  | raftDone (t : ℕ) (status : StatusCode)
  /-- The completion of a bidirectional data request. -/
  | dataDone (t : ℕ) (failed : Bool)
  deriving DecidableEq

/-- `fetch_add(1)` on `bad_service`, if the completion calls for it. -/
def Transport.bump (x : Transport) (bad : Bool) : Transport :=
  if bad then { x with badService := x.badService + 1 } else x

/-- The effect of one step. A reader of `_clients` needs the lock of the factory to
be free. -/
def step (text : UuidText) (s : State) : Label → Option State
  | .request f p force purpose around => s.request f p force purpose around
  | .finish f => (s.finish text f).map Prod.fst
  | .group p force around =>
    (groupCall s.heap s.groupClients p force around).map fun (h, groupClients, _) =>
      { s with heap := h, groupClients := groupClients }
  | .unidirectional f p => if (s.factories f).busy.isSome then none else s.unidirectional f p
  | .bidirectional f p => if (s.factories f).busy.isSome then none else s.bidirectional f p
  | .broadcast f => if (s.factories f).busy.isSome then none else s.broadcast f
  | .dispatch bidirectional w =>
    if (bidirectional, w) ∈ s.toSend then
      { s with toSend := s.toSend.erase (bidirectional, w) }.sendData bidirectional w
        fun _ wrapper => some wrapper.checked
    else none
  | .sendRaft w => do
    let wrapper ← s.heap.wrappers[w]?
    let t ← wrapper.client
    some (s.updateTransport t fun x => { x with raftCalls := x.raftCalls + 1 })
  | .raftDone t status => do
    let transport ← s.heap.transports[t]?
    if transport.raftCalls = 0 then none
    else some (s.updateTransport t fun x =>
      { x with raftCalls := x.raftCalls - 1 }.bump (decide (status = StatusCode.invalidArgument)))
  | .dataDone t failed => do
    let transport ← s.heap.transports[t]?
    if transport.dataCalls = 0 then none
    else some (s.updateTransport t fun x => { x with dataCalls := x.dataCalls - 1 }.bump failed)

/-- The message that `send_raft` puts into its envelope. -/
def Wrapper.groupMsg (text : UuidText) (w : Wrapper) (message : RaftMessage) : RaftGroupMsg where
  intendedAddr := w.clientAddr
  groupId := text.toString w.groupId
  groupType := w.groupType
  msg := message

end NuraftMesg.Factory
