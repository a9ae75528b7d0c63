import NuraftMesg.Factory.Growth
import NuraftMesg.Handlers
import NuraftMesg.Network.System

/-!
# Data requests over the network

A data request goes over the clients of a factory, like a Raft message, but without the
address of the node it is meant for: whatever node it arrives at looks for a handler
under the name made from the request name and the group. The handler answers when it
likes. The futures of the three kinds of requests take different notice of what became of
their calls: the bidirectional one has the response or a code, the unidirectional one to
one peer a code, and the one to all peers nothing at all.
-/

namespace NuraftMesg

/-- `nuraft::SERVER_ALREADY_EXISTS`. -/
def CmdResultCode.serverAlreadyExists : CmdResultCode := ⟨-5⟩

/-- `nuraft::TERM_MISMATCH`. -/
def CmdResultCode.termMismatch : CmdResultCode := ⟨-11⟩

/-- `nuraft::FAILED`. -/
def CmdResultCode.failed : CmdResultCode := ⟨-32768⟩

namespace Network.DataPath

open Transition

/-- `grpc_status_to_nuraft_code`. -/
def grpcStatusToNuraftCode (status : Status) : CmdResultCode :=
  match status.code with
  | .ok => .ok
  | .deadlineExceeded => .timeout
  | .unavailable | .notFound => .serverNotFound
  | .cancelled | .aborted => .cancelled
  | .failedPrecondition => .termMismatch
  | .alreadyExists => .serverAlreadyExists
  | .invalidArgument | .unimplemented | .unauthenticated | .permissionDenied
  | .resourceExhausted | .outOfRange => .badRequest
  | .dataLoss | .unknown | .internal => .failed

/-- No error is reported as a success. -/
theorem grpcStatusToNuraftCode_eq_ok {status : Status} :
    grpcStatusToNuraftCode status = .ok ↔ status.code = .ok := by
  unfold grpcStatusToNuraftCode
  cases status.code <;> decide

/-- `io_blob_list_t`, put together. -/
abbrev Bytes := List UInt8

/-- What the future of a data request holds. -/
inductive Value where
  | failed (code : CmdResultCode)
  | unit
  | response (bytes : Bytes)
  deriving DecidableEq

/-- Where a data request stands. -/
inductive Stage where
  /-- Before the section under the read lock. -/
  | looks
  /-- That has not found a client to use, and `create_or_reinit_client` is called. -/
  | asks (p : PeerId)
  /-- The call holds the lock of the factory. -/
  | asked (p : PeerId)
  /-- The call has returned a wrapper. -/
  | holds (w : ℕ)
  | waits
  | done (value : Value)
  /-- `make` threw, and so did the request. -/
  | threw
  deriving DecidableEq

/-- Nothing was sent yet. -/
def Stage.unsent : Stage → Bool
  | .looks | .asks _ | .asked _ | .holds _ => true
  | .waits | .done _ | .threw => false

/-- A call of `data_service_request_unidirectional` or `data_service_request_bidirectional` of a
factory. -/
structure Request where
  node : ℕ
  factory : ℕ
  bidirectional : Bool
  /-- The peer, the error of finding it out, or none for all peers. -/
  dest : Option (Except CmdResultCode PeerId)
  name : String
  body : Bytes
  stage : Stage
  /-- The RPCs of the request. -/
  calls : List ℕ

/-- A generic RPC. -/
structure Rpc where
  /-- The request that it belongs to (history). -/
  request : ℕ
  sender : ℕ
  transport : ℕ
  /-- The method is `get_generic_method_name(name, group)`. -/
  name : String
  group : GroupId
  body : Bytes
  bidirectional : Bool
  /-- The node that it arrived at, and the handler that it was given to there. -/
  arrival : Option (ℕ × Option HandlerId)
  /-- What the handler has sent back. -/
  response : Option Bytes
  completion : Option (Except Status Bytes)

/-- A node with its clients and its handlers. -/
structure Machine where
  factories : Factory.State
  handlers : Handlers.State

/-- All nodes, all data requests and all RPCs. -/
structure State where
  machines : ℕ → Machine
  requests : List Request
  rpcs : List Rpc

def start (types : ℕ → List GroupType) (groups : ℕ → ℕ → GroupId × GroupType) : State where
  machines n := ⟨.init (groups n), Handlers.start (types n) true⟩
  requests := []
  rpcs := []

namespace Request

variable (req : Request)

/-- What is settled before any client is looked for. -/
def firstStage : Stage :=
  match req.dest with
  | none => if req.bidirectional then .done (.failed .badRequest) else .looks
  | some (.error code) => .done (.failed code)
  | some (.ok _) => .looks

/-- The section under the read lock. -/
def lookup : Option Factory.Label :=
  match req.dest with
  | none => some (.broadcast req.factory)
  | some (.ok p) => some
      (if req.bidirectional then .bidirectional req.factory p else .unidirectional req.factory p)
  | some (.error _) => none

/-- A request to one peer that has not sent anything asks for a client. -/
def afterLookup (sent : List Factory.DataSend) : Stage :=
  match req.dest, sent with
  | some (.ok p), [] => .asks p
  | _, _ => .waits

/-- The value of the future once all calls have completed. `collectAll` over the calls to all
peers drops their results. -/
def value (completions : List (Except Status Bytes)) : Option Value :=
  match req.dest, completions with
  | none, _ => if req.bidirectional then none else some .unit
  | some _, [.ok bytes] => some (if req.bidirectional then .response bytes else .unit)
  | some _, [.error status] => some (.failed (grpcStatusToNuraftCode status))
  | some _, _ => none

end Request

namespace State

variable (s : State)

def setFactories (n : ℕ) (x : Factory.State) : State :=
  { s with machines := Function.update s.machines n { s.machines n with factories := x } }

def setHandlers (n : ℕ) (h : Handlers.State) : State :=
  { s with machines := Function.update s.machines n { s.machines n with handlers := h } }

def setRequest (i : ℕ) (req : Request) : State :=
  { s with requests := s.requests.modify i fun _ => req }

def updateRpc (k : ℕ) (f : Rpc → Rpc) : State := { s with rpcs := s.rpcs.modify k f }

/-- What the factories of the node have sent on the way to `x`. -/
def newSends (n : ℕ) (x : Factory.State) : List Factory.DataSend :=
  x.sent.drop (s.machines n).factories.sent.length

/-- Request `i` brings the factories of its node to `x`; what is sent on the way are its RPCs. -/
def post (i : ℕ) (req : Request) (x : Factory.State) (stage : Stage) : State :=
  let sends := s.newSends req.node x
  { s.setFactories req.node x with
    rpcs := s.rpcs ++ sends.map fun send =>
      { request := i, sender := req.node, transport := send.transport, name := req.name
        group := (x.factories req.factory).groupId, body := req.body
        bidirectional := req.bidirectional, arrival := none, response := none
        completion := none }
    requests := s.requests.modify i fun _ =>
      { req with
        stage := stage
        calls := req.calls ++ List.range' s.rpcs.length sends.length } }

/-- The end of a call for a client that belongs to a data request. -/
def reserved (n : ℕ) : Factory.Label → Bool
  | .finish f => s.requests.any fun req =>
    req.node = n && req.factory = f && match req.stage with
      | .asked _ => true
      | _ => false
  | _ => false

end State

inductive Label where
  /-- The clients of a node do something else than serve a data request. -/
  | factory (n : ℕ) (l : Factory.Label)
  /-- A node does something else than receive a data request. -/
  | handlers (n : ℕ) (l : Handlers.Label)
  | begin (n f : ℕ) (bidirectional : Bool) (dest : Option (Except CmdResultCode PeerId))
      (name : String) (body : Bytes)
  | look (i : ℕ)
  | ask (i : ℕ) (around : Factory.Surroundings)
  | get (i : ℕ)
  | dispatch (i : ℕ)
  /-- An RPC comes to a node. -/
  | arrive (k n : ℕ)
  /-- The handler calls `send_data_service_response`. -/
  | respond (k : ℕ) (bytes : Bytes)
  /-- The response comes to the sender. -/
  | complete (k : ℕ)
  /-- gRPC ends the call by itself, or there is no handler. -/
  | fail (k : ℕ) (status : Status)
  /-- The future of a request gets its value. -/
  | resolve (i : ℕ)

/-- The labels of the factories that belong to data requests. -/
def carries : Factory.Label → Bool
  | .request _ _ _ (.data _) _ | .unidirectional _ _ | .bidirectional _ _ | .broadcast _
  | .dispatch _ _ | .dataDone _ _ => true
  | _ => false

/-- The labels of a node on which a data request is received. -/
def receives : Handlers.Label → Bool
  | .request _ _ => true
  | _ => false

/-- The RPC ends with the result; a bidirectional one tells its transport. -/
def State.finish (text : UuidText) (s : State) (k : ℕ) (rpc : Rpc)
    (result : Except Status Bytes) : Option State :=
  let finished := s.updateRpc k fun rpc => { rpc with completion := some result }
  if rpc.completion.isSome then none
  else if rpc.bidirectional then
    (Factory.step text (s.machines rpc.sender).factories
      (.dataDone rpc.transport result.toOption.isNone)).map fun x =>
        finished.setFactories rpc.sender x
  else some finished

/-- One step of the network. -/
def step (cluster : Network.Cluster) (s : State) : Label → Option State
  | .factory n l =>
    if carries l || s.reserved n l then none
    else (Factory.step cluster.text (s.machines n).factories l).map (s.setFactories n)
  | .handlers n l =>
    if receives l then none
    else (Handlers.step (cluster.node n) (s.machines n).handlers l).map (s.setHandlers n)
  | .begin n f bidirectional dest name body =>
    let req : Request := ⟨n, f, bidirectional, dest, name, body, .looks, []⟩
    some { s with requests := s.requests ++ [{ req with stage := req.firstStage }] }
  | .look i => do
    let req ← s.requests[i]?
    if req.stage = .looks then
      let l ← req.lookup
      let x ← Factory.step cluster.text (s.machines req.node).factories l
      some (s.post i req x (req.afterLookup (s.newSends req.node x)))
    else none
  | .ask i around => do
    let req ← s.requests[i]?
    match req.stage with
    | .asks p =>
      let x ← Factory.step cluster.text (s.machines req.node).factories
        (.request req.factory p false (.data req.bidirectional) around)
      some (s.post i req x (if (x.factories req.factory).busy = none then .threw else .asked p))
    | _ => none
  | .get i => do
    let req ← s.requests[i]?
    match req.stage with
    | .asked p =>
      let pending ← ((s.machines req.node).factories.factories req.factory).busy
      -- the call that holds the lock is the one of this request
      if pending.peer = p ∧ pending.purpose = .data req.bidirectional then
        let (x, client) ← (s.machines req.node).factories.finish cluster.text req.factory
        some (s.post i req x (match client with
          | some (.proto w) => .holds w
          | _ => .done (.failed .serverNotFound)))
      else none
    | _ => none
  | .dispatch i => do
    let req ← s.requests[i]?
    match req.stage with
    | .holds w =>
      let x ← Factory.step cluster.text (s.machines req.node).factories
        (.dispatch req.bidirectional w)
      some (s.post i req x .waits)
    | _ => none
  | .arrive k n => do
    let rpc ← s.rpcs[k]?
    let handler := (s.machines n).handlers.dispatch (cluster.node n).text rpc.name rpc.group
    if rpc.arrival.isSome then none
    else (Handlers.step (cluster.node n) (s.machines n).handlers
        (.request rpc.name rpc.group)).map fun h =>
      (s.setHandlers n h).updateRpc k fun rpc => { rpc with arrival := some (n, handler) }
  | .respond k bytes => do
    let rpc ← s.rpcs[k]?
    match rpc.arrival with
    | some (_, some _) =>
      if rpc.response.isSome then none
      else some (s.updateRpc k fun rpc => { rpc with response := some bytes })
    | _ => none
  | .complete k => do
    let rpc ← s.rpcs[k]?
    let bytes ← rpc.response
    s.finish cluster.text k rpc (.ok bytes)
  | .fail k status => do
    let rpc ← s.rpcs[k]?
    if status.code = .ok then none else s.finish cluster.text k rpc (.error status)
  | .resolve i => do
    let req ← s.requests[i]?
    if req.stage = .waits then
      let completions ← req.calls.mapM fun k => s.rpcs[k]?.bind fun rpc => rpc.completion
      let value ← req.value completions
      some (s.setRequest i { req with stage := .done value })
    else none

/-! ## The steps as rules -/

/-- The ways in which the network can go on. -/
inductive Takes (cluster : Network.Cluster) (s : State) : State → Prop
  | factory (n : ℕ) (l : Factory.Label) (x : Factory.State)
      (hstep : Factory.step cluster.text (s.machines n).factories l = some x) :
      Takes cluster s (s.setFactories n x)
  | handlers (n : ℕ) (l : Handlers.Label) (h : Handlers.State)
      (hstep : Handlers.step (cluster.node n) (s.machines n).handlers l = some h) :
      Takes cluster s (s.setHandlers n h)
  | begin (req : Request) (hcalls : req.calls = []) :
      Takes cluster s { s with requests := s.requests ++ [{ req with stage := req.firstStage }] }
  /-- A request goes on with its clients. -/
  | posts (i : ℕ) (req : Request) (l : Factory.Label) (x : Factory.State) (stage : Stage)
      (hreq : s.requests[i]? = some req) (hunsent : req.stage.unsent = true)
      (hstep : Factory.step cluster.text (s.machines req.node).factories l = some x)
      (hquiet : stage = .waits ∨ s.newSends req.node x = [])
      (hvalue : ∀ v, stage = .done v → v = .failed .serverNotFound) :
      Takes cluster s (s.post i req x stage)
  | arrive (k n : ℕ) (rpc : Rpc) (h : Handlers.State) (handler : Option HandlerId)
      (hrpc : s.rpcs[k]? = some rpc) (hnew : rpc.arrival = none)
      (hhandler : handler =
        (s.machines n).handlers.dispatch (cluster.node n).text rpc.name rpc.group)
      (hstep : Handlers.step (cluster.node n) (s.machines n).handlers
        (.request rpc.name rpc.group) = some h) :
      Takes cluster s ((s.setHandlers n h).updateRpc k fun rpc =>
        { rpc with arrival := some (n, handler) })
  | respond (k n : ℕ) (cb : HandlerId) (rpc : Rpc) (bytes : Bytes) (hrpc : s.rpcs[k]? = some rpc)
      (harrival : rpc.arrival = some (n, some cb)) (hopen : rpc.response = none) :
      Takes cluster s (s.updateRpc k fun rpc => { rpc with response := some bytes })
  /-- An RPC completes. -/
  | finish (k : ℕ) (rpc : Rpc) (result : Except Status Bytes) (machines : ℕ → Machine)
      (hrpc : s.rpcs[k]? = some rpc) (hopen : rpc.completion = none)
      (hok : ∀ bytes, result = .ok bytes → rpc.response = some bytes)
      (herror : ∀ status, result = .error status → status.code ≠ .ok)
      (hmachines : machines = s.machines ∨ ∃ l x,
        Factory.step cluster.text (s.machines rpc.sender).factories l = some x ∧
        machines = (s.setFactories rpc.sender x).machines) :
      Takes cluster s { s.updateRpc k fun rpc => { rpc with completion := some result } with
        machines := machines }
  | resolve (i : ℕ) (req : Request) (completions : List (Except Status Bytes)) (value : Value)
      (hreq : s.requests[i]? = some req)
      (hcompletions : (req.calls.mapM fun k => s.rpcs[k]?.bind fun rpc => rpc.completion) =
        some completions)
      (hvalue : req.value completions = some value) :
      Takes cluster s (s.setRequest i { req with stage := .done value })

variable {cluster : Network.Cluster} {types : ℕ → List GroupType}
  {groups : ℕ → ℕ → GroupId × GroupType} {s s' : State} {l : Label} {labels : List Label}
  {i k n : ℕ} {req : Request} {rpc : Rpc}

/-- A call is completed with the response of the handler, or with an error of gRPC. -/
theorem takes_of_finish {result : Except Status Bytes} (hrpc : s.rpcs[k]? = some rpc)
    (hok : ∀ bytes, result = .ok bytes → rpc.response = some bytes)
    (herror : ∀ status, result = .error status → status.code ≠ .ok)
    (hfinish : s.finish cluster.text k rpc result = some s') : Takes cluster s s' := by
  simp only [State.finish] at hfinish
  split at hfinish
  · cases hfinish
  next hopen =>
  have hopen := Option.not_isSome_iff_eq_none.mp hopen
  split at hfinish
  · obtain ⟨x, hx, rfl⟩ := Option.map_eq_some_iff.mp hfinish
    exact .finish k rpc result _ hrpc hopen hok herror (Or.inr ⟨_, x, hx, rfl⟩)
  · cases hfinish
    exact .finish k rpc result _ hrpc hopen hok herror (Or.inl rfl)

/-- Without a new entry in the log nothing is sent. -/
theorem newSends_of_sent {x : Factory.State} (hsent : x.sent = (s.machines n).factories.sent) :
    s.newSends n x = [] := by
  rw [State.newSends, hsent, List.drop_length]

/-- Every step of the network is an instance of a rule. -/
theorem takes_of_step (hstep : step cluster s l = some s') : Takes cluster s s' := by
  cases l with
  | factory n l =>
    simp only [step] at hstep
    split at hstep
    · cases hstep
    obtain ⟨x, hx, rfl⟩ := Option.map_eq_some_iff.mp hstep
    exact .factory n l x hx
  | handlers n l =>
    simp only [step] at hstep
    split at hstep
    · cases hstep
    obtain ⟨h, hh, rfl⟩ := Option.map_eq_some_iff.mp hstep
    exact .handlers n l h hh
  | begin n f bidirectional dest name body =>
    cases hstep
    exact .begin _ rfl
  | look i =>
    obtain ⟨req, hreq, hstep⟩ := Option.bind_eq_some_iff.mp hstep
    split at hstep
    · next hstage =>
      obtain ⟨l, -, hstep⟩ := Option.bind_eq_some_iff.mp hstep
      obtain ⟨x, hx, hstep⟩ := Option.bind_eq_some_iff.mp hstep
      cases hstep
      refine .posts i req l x _ hreq (by rw [hstage]; rfl) hx ?_ fun v hv => ?_
      · unfold Request.afterLookup
        split
        · next hsends => exact Or.inr hsends
        · exact Or.inl rfl
      · unfold Request.afterLookup at hv
        split at hv <;> cases hv
    · cases hstep
  | ask i around =>
    obtain ⟨req, hreq, hstep⟩ := Option.bind_eq_some_iff.mp hstep
    split at hstep
    · next p hstage =>
      obtain ⟨x, hx, hstep⟩ := Option.bind_eq_some_iff.mp hstep
      cases hstep
      refine .posts i req _ x _ hreq (by rw [hstage]; rfl) hx (Or.inr ?_) fun v hv => ?_
      · obtain ⟨-, h, groupClients, busy, rfl, -⟩ := Factory.request_locks hx
        exact newSends_of_sent rfl
      · split at hv <;> cases hv
    · cases hstep
  | get i =>
    obtain ⟨req, hreq, hstep⟩ := Option.bind_eq_some_iff.mp hstep
    split at hstep
    · next p hstage =>
      obtain ⟨pending, -, hstep⟩ := Option.bind_eq_some_iff.mp hstep
      split at hstep
      · obtain ⟨⟨x, client⟩, hx, hstep⟩ := Option.bind_eq_some_iff.mp hstep
        cases hstep
        have hlocal : Factory.step cluster.text (s.machines req.node).factories
            (.finish req.factory) = some x := by
          simp only [Factory.step, hx, Option.map_some]
        refine .posts i req _ x _ hreq (by rw [hstage]; rfl) hlocal (Or.inr ?_) fun v hv => ?_
        · obtain ⟨_, _, _, _, _, -, hdone⟩ := Factory.finish_done hx
          exact newSends_of_sent hdone.sent
        · split at hv
          · cases hv
          · exact (Stage.done.inj hv).symm
      · cases hstep
    · cases hstep
  | dispatch i =>
    obtain ⟨req, hreq, hstep⟩ := Option.bind_eq_some_iff.mp hstep
    split at hstep
    · next w hstage =>
      obtain ⟨x, hx, hstep⟩ := Option.bind_eq_some_iff.mp hstep
      cases hstep
      exact .posts i req _ x _ hreq (by rw [hstage]; rfl) hx (Or.inl rfl) fun v hv => by cases hv
    · cases hstep
  | arrive k n =>
    obtain ⟨rpc, hrpc, hstep⟩ := Option.bind_eq_some_iff.mp hstep
    split at hstep
    · cases hstep
    next hnew =>
    obtain ⟨h, hh, rfl⟩ := Option.map_eq_some_iff.mp hstep
    exact .arrive k n rpc h _ hrpc (Option.not_isSome_iff_eq_none.mp hnew) rfl hh
  | respond k bytes =>
    obtain ⟨rpc, hrpc, hstep⟩ := Option.bind_eq_some_iff.mp hstep
    split at hstep
    · next n cb harrival =>
      split at hstep
      · cases hstep
      next hopen =>
      cases hstep
      exact .respond k n cb rpc bytes hrpc harrival (Option.not_isSome_iff_eq_none.mp hopen)
    · cases hstep
  | complete k =>
    obtain ⟨rpc, hrpc, hstep⟩ := Option.bind_eq_some_iff.mp hstep
    obtain ⟨bytes, hresponse, hstep⟩ := Option.bind_eq_some_iff.mp hstep
    refine takes_of_finish hrpc (fun bytes' hbytes => ?_) (fun status hstatus => ?_) hstep
    · cases hbytes
      exact hresponse
    · cases hstatus
  | fail k status =>
    obtain ⟨rpc, hrpc, hstep⟩ := Option.bind_eq_some_iff.mp hstep
    split at hstep
    · cases hstep
    next hfailed =>
    refine takes_of_finish hrpc (fun bytes hbytes => ?_) (fun status' hstatus => ?_) hstep
    · cases hbytes
    · cases hstatus
      exact hfailed
  | resolve i =>
    obtain ⟨req, hreq, hstep⟩ := Option.bind_eq_some_iff.mp hstep
    split at hstep
    · obtain ⟨completions, hcompletions, hstep⟩ := Option.bind_eq_some_iff.mp hstep
      obtain ⟨value, hvalue, hstep⟩ := Option.bind_eq_some_iff.mp hstep
      cases hstep
      exact .resolve i req completions value hreq hcompletions hvalue
    · cases hstep

/-! ## What the steps change -/

/-- The handlers are not touched by the factories. -/
theorem handlers_setFactories (x : Factory.State) (n' : ℕ) :
    ((s.setFactories n x).machines n').handlers = (s.machines n').handlers := by
  by_cases hn : n' = n
  · subst hn
    simp [State.setFactories]
  · simp [State.setFactories, hn]

/-- What holds of the handlers that change and of all others holds of all. -/
theorem forall_setHandlers {P : ℕ → Handlers.State → Prop} {h : Handlers.State} (hself : P n h)
    (hothers : ∀ n', P n' (s.machines n').handlers) (n' : ℕ) :
    P n' ((s.setHandlers n h).machines n').handlers := by
  by_cases hn : n' = n
  · subst hn
    simpa [State.setHandlers] using hself
  · simpa [State.setHandlers, hn] using hothers n'

/-- A fact about the factories of every machine, after a step of one of them. -/
theorem forall_setFactories {P : ℕ → Factory.State → Prop} {x : Factory.State} (hself : P n x)
    (hothers : ∀ n', P n' (s.machines n').factories) (n' : ℕ) :
    P n' ((s.setFactories n x).machines n').factories := by
  by_cases hn : n' = n
  · subst hn
    simpa [State.setFactories] using hself
  · simpa [State.setFactories, hn] using hothers n'

/-- `rpc'` is `rpc` at a later time. -/
structure Rpc.Becomes (rpc rpc' : Rpc) : Prop where
  request : rpc'.request = rpc.request
  name : rpc'.name = rpc.name
  group : rpc'.group = rpc.group
  body : rpc'.body = rpc.body
  completion : ∀ r, rpc.completion = some r → rpc'.completion = some r

/-- A call becomes itself. -/
theorem Rpc.Becomes.refl (rpc : Rpc) : rpc.Becomes rpc := ⟨rfl, rfl, rfl, rfl, fun _ hr => hr⟩

/-- `req'` is the same call as `req`. -/
structure Request.Same (req req' : Request) : Prop where
  node : req'.node = req.node
  factory : req'.factory = req.factory
  name : req'.name = req.name
  body : req'.body = req.body

/-- A request is the same as itself. -/
theorem Request.Same.refl (req : Request) : req.Same req := ⟨rfl, rfl, rfl, rfl⟩

/-- No RPC is taken off the record. -/
theorem exists_rpc_of_takes (htakes : Takes cluster s s') (hrpc : s.rpcs[k]? = some rpc) :
    ∃ rpc', s'.rpcs[k]? = some rpc' ∧ rpc.Becomes rpc' := by
  have hupdate : ∀ (k' : ℕ) (change : Rpc → Rpc) (old : Rpc), s.rpcs[k']? = some old →
      old.Becomes (change old) →
      ∃ rpc', (s.rpcs.modify k' change)[k]? = some rpc' ∧ rpc.Becomes rpc' := by
    intro k' change old hold hchange
    refine ⟨_, Cells.getElem?_update hrpc, ?_⟩
    split
    · next hk =>
      obtain rfl := Option.some.inj (hold.symm.trans (hk ▸ hrpc))
      exact hchange
    · exact .refl rpc
  cases htakes with
  | factory | handlers | begin | resolve => exact ⟨rpc, hrpc, .refl rpc⟩
  | posts i req l x stage hreq hunsent hstep hquiet hvalue =>
    refine ⟨rpc, ?_, .refl rpc⟩
    exact (List.getElem?_append_left (Cells.lt_of_getElem? hrpc)).trans hrpc
  | arrive k' n old h handler hold hnew hhandler hstep =>
    exact hupdate k' _ old hold ⟨rfl, rfl, rfl, rfl, fun _ hr => hr⟩
  | respond k' n cb old bytes hold harrival hopen =>
    exact hupdate k' _ old hold ⟨rfl, rfl, rfl, rfl, fun _ hr => hr⟩
  | finish k' old result machines hold hopen =>
    refine hupdate k' _ old hold ⟨rfl, rfl, rfl, rfl, fun r hr => ?_⟩
    rw [hopen] at hr
    cases hr

/-- No request is taken off the record. -/
theorem exists_request_of_takes (htakes : Takes cluster s s') (hreq : s.requests[i]? = some req) :
    ∃ req', s'.requests[i]? = some req' ∧ req.Same req' := by
  have hupdate : ∀ (i' : ℕ) (old new : Request), s.requests[i']? = some old → old.Same new →
      ∃ req', (s.requests.modify i' fun _ => new)[i]? = some req' ∧ req.Same req' := by
    intro i' old new hold hsame
    refine ⟨_, Cells.getElem?_update hreq, ?_⟩
    split
    · next hi =>
      obtain rfl := Option.some.inj (hold.symm.trans (hi ▸ hreq))
      exact hsame
    · exact .refl req
  cases htakes with
  | factory | handlers | arrive | respond | finish => exact ⟨req, hreq, .refl req⟩
  | begin new hcalls => exact ⟨req, Cells.getElem?_alloc hreq, .refl req⟩
  | posts i' old l x stage hold => exact hupdate i' old _ hold ⟨rfl, rfl, rfl, rfl⟩
  | resolve i' old completions value hold => exact hupdate i' old _ hold ⟨rfl, rfl, rfl, rfl⟩

/-! ## The RPCs -/

/-- What is known about an RPC. -/
structure RpcSound (cluster : Network.Cluster) (groups : ℕ → ℕ → GroupId × GroupType) (s : State)
    (rpc : Rpc) : Prop where
  /-- It has the name and the body of its request, and the group of the factory. -/
  origin : ∃ req, s.requests[rpc.request]? = some req ∧ rpc.name = req.name ∧
    rpc.body = req.body ∧ rpc.group = (groups req.node req.factory).1
  /-- The handler that it was given to was the first one to be bound for the name and the
  group. -/
  arrival : ∀ n cb, rpc.arrival = some (n, some cb) →
    (s.machines n).handlers.firstBound (cluster.node n).text rpc.name rpc.group = some cb
  response : ∀ bytes, rpc.response = some bytes → ∃ n cb, rpc.arrival = some (n, some cb)
  ok : ∀ bytes, rpc.completion = some (.ok bytes) → rpc.response = some bytes
  error : ∀ status, rpc.completion = some (.error status) → status.code ≠ .ok

/-- The first handler stays the first. -/
theorem firstBound_of_takes (htakes : Takes cluster s s') {name : String} {g : GroupId}
    {cb : HandlerId}
    (hfirst : (s.machines n).handlers.firstBound (cluster.node n).text name g = some cb) :
    (s'.machines n).handlers.firstBound (cluster.node n).text name g = some cb := by
  have hset : ∀ (n' : ℕ) (h : Handlers.State) (l : Handlers.Label),
      Handlers.step (cluster.node n') (s.machines n').handlers l = some h →
      ((s.setHandlers n' h).machines n).handlers.firstBound (cluster.node n).text name g =
        some cb := by
    intro n' h l hstep
    by_cases hn : n = n'
    · subst hn
      simp only [State.setHandlers, Function.update_self]
      exact Handlers.firstBound_of_step hstep hfirst
    · simpa [State.setHandlers, hn] using hfirst
  cases htakes with
  | handlers n' l h hstep => exact hset n' h l hstep
  | arrive k n' rpc h handler hrpc hnew hhandler hstep => exact hset n' h _ hstep
  | factory | posts =>
    exact (congrArg (fun h : Handlers.State => h.firstBound _ name g)
      (handlers_setFactories ..)).trans hfirst
  | finish k rpc result machines hrpc hopen hok herror hmachines =>
    rcases hmachines with rfl | ⟨l, x, hx, rfl⟩
    · exact hfirst
    · exact (congrArg (fun h : Handlers.State => h.firstBound _ name g)
        (handlers_setFactories ..)).trans hfirst
  | begin | respond | resolve => exact hfirst

/-- An RPC that the step leaves alone. -/
theorem RpcSound.kept (hs : RpcSound cluster groups s rpc) (htakes : Takes cluster s s') :
    RpcSound cluster groups s' rpc where
  origin := by
    obtain ⟨req, hreq, hname, hbody, hgroup⟩ := hs.origin
    obtain ⟨req', hreq', hsame⟩ := exists_request_of_takes htakes hreq
    refine ⟨req', hreq', hname.trans hsame.name.symm, hbody.trans hsame.body.symm, ?_⟩
    rw [hsame.node, hsame.factory]
    exact hgroup
  arrival n cb harrival := firstBound_of_takes htakes (hs.arrival n cb harrival)
  response := hs.response
  ok := hs.ok
  error := hs.error

/-! ## The requests -/

/-- RPC `k` has completed with the result. -/
def Completed (s : State) (k : ℕ) (result : Except Status Bytes) : Prop :=
  ∃ rpc, s.rpcs[k]? = some rpc ∧ rpc.completion = some result

/-- A completed call stays completed with the same result. -/
theorem Completed.kept {result : Except Status Bytes} (hcompleted : Completed s k result)
    (htakes : Takes cluster s s') : Completed s' k result := by
  obtain ⟨rpc, hrpc, hresult⟩ := hcompleted
  obtain ⟨rpc', hrpc', hlater⟩ := exists_rpc_of_takes htakes hrpc
  exact ⟨rpc', hrpc', hlater.completion _ hresult⟩

/-- Why the future of a request has its value. -/
def Explains (s : State) (req : Request) : Value → Prop
  | .failed code => req.dest = some (.error code) ∨
      (req.dest = none ∧ req.bidirectional = true ∧ code = .badRequest) ∨
      (req.calls = [] ∧ code = .serverNotFound) ∨
      ∃ k status, req.calls = [k] ∧ Completed s k (.error status) ∧
        code = grpcStatusToNuraftCode status
  | .unit => req.bidirectional = false ∧
      (req.dest = none ∧ (∀ k ∈ req.calls, ∃ result, Completed s k result) ∨
        ∃ k bytes, req.calls = [k] ∧ Completed s k (.ok bytes))
  | .response bytes => req.bidirectional = true ∧
      ∃ k, req.calls = [k] ∧ Completed s k (.ok bytes)

/-- A value stays explained, since the calls that explain it stay. -/
theorem Explains.kept {value : Value} (hvalue : Explains s req value)
    (htakes : Takes cluster s s') : Explains s' req value := by
  cases value with
  | failed code =>
    refine hvalue.imp_right (Or.imp_right (Or.imp_right ?_))
    rintro ⟨k, status, hcalls, hcompleted, hcode⟩
    exact ⟨k, status, hcalls, hcompleted.kept htakes, hcode⟩
  | unit =>
    refine ⟨hvalue.1, hvalue.2.imp ?_ ?_⟩
    · rintro ⟨hdest, hall⟩
      refine ⟨hdest, fun k hk => ?_⟩
      obtain ⟨result, hcompleted⟩ := hall k hk
      exact ⟨result, hcompleted.kept htakes⟩
    · rintro ⟨k, bytes, hcalls, hcompleted⟩
      exact ⟨k, bytes, hcalls, hcompleted.kept htakes⟩
  | response bytes =>
    obtain ⟨hkind, k, hcalls, hcompleted⟩ := hvalue
    exact ⟨hkind, k, hcalls, hcompleted.kept htakes⟩

/-- What is known about request `i`. -/
structure RequestSound (s : State) (i : ℕ) (req : Request) : Prop where
  calls : ∀ k ∈ req.calls, ∃ rpc, s.rpcs[k]? = some rpc ∧ rpc.request = i
  unsent : req.stage.unsent = true → req.calls = []
  value : ∀ value, req.stage = .done value → Explains s req value

/-- A request that the step leaves alone. -/
theorem RequestSound.kept (hs : RequestSound s i req) (htakes : Takes cluster s s') :
    RequestSound s' i req where
  calls k hk := by
    obtain ⟨rpc, hrpc, hrequest⟩ := hs.calls k hk
    obtain ⟨rpc', hrpc', hlater⟩ := exists_rpc_of_takes htakes hrpc
    exact ⟨rpc', hrpc', hlater.request.trans hrequest⟩
  unsent := hs.unsent
  value value hvalue := (hs.value value hvalue).kept htakes

/-- The completions are those of the calls, one by one. -/
theorem forall₂_of_mapM {α β : Type*} {f : α → Option β} {xs : List α} {ys : List β}
    (hmap : xs.mapM f = some ys) : List.Forall₂ (fun x y => f x = some y) xs ys := by
  induction xs generalizing ys with
  | nil =>
    cases hmap
    exact .nil
  | cons x xs ih =>
    rw [List.mapM_cons] at hmap
    obtain ⟨y, hy, hmap⟩ := Option.bind_eq_some_iff.mp hmap
    obtain ⟨rest, hrest, hmap⟩ := Option.bind_eq_some_iff.mp hmap
    cases hmap
    exact .cons hy (ih hrest)

/-- Every element on the left has a partner. -/
theorem exists_of_forall₂ {α β : Type*} {R : α → β → Prop} {xs : List α} {ys : List β} {x : α}
    (hall : List.Forall₂ R xs ys) (hx : x ∈ xs) : ∃ y, R x y := by
  induction hall with
  | nil => cases hx
  | cons hhead htail ih =>
    rcases List.mem_cons.mp hx with rfl | hx
    · exact ⟨_, hhead⟩
    · exact ih hx

/-- The value that the completions of the calls make. -/
theorem explains_of_value {completions : List (Except Status Bytes)} {value : Value}
    (hcompletions : (req.calls.mapM fun k => s.rpcs[k]?.bind fun rpc => rpc.completion) =
      some completions)
    (hvalue : req.value completions = some value) : Explains s req value := by
  have hall := forall₂_of_mapM hcompletions
  have hcompleted : ∀ {k : ℕ} {result : Except Status Bytes},
      (s.rpcs[k]?.bind fun rpc => rpc.completion) = some result → Completed s k result :=
    fun h => Option.bind_eq_some_iff.mp h
  have hone : ∀ {result : Except Status Bytes}, completions = [result] →
      ∃ k, req.calls = [k] ∧ Completed s k result := by
    rintro result rfl
    obtain ⟨k, rest, hk, hrest, hcalls⟩ := List.forall₂_cons_right_iff.mp hall
    cases hrest
    exact ⟨k, hcalls, hcompleted hk⟩
  unfold Request.value at hvalue
  split at hvalue
  · next hdest =>
    split at hvalue
    · cases hvalue
    next hkind =>
    cases hvalue
    refine ⟨Bool.eq_false_iff.mpr hkind, Or.inl ⟨hdest, fun k hk => ?_⟩⟩
    obtain ⟨result, hresult⟩ := exists_of_forall₂ hall hk
    exact ⟨result, hcompleted hresult⟩
  · next dest bytes hdest =>
    obtain ⟨k, hcalls, hresult⟩ := hone rfl
    cases hvalue
    split
    · next hkind => exact ⟨hkind, k, hcalls, hresult⟩
    · next hkind => exact ⟨Bool.eq_false_iff.mpr hkind, Or.inr ⟨k, bytes, hcalls, hresult⟩⟩
  · next dest status hdest =>
    obtain ⟨k, hcalls, hresult⟩ := hone rfl
    cases hvalue
    exact Or.inr (Or.inr (Or.inr ⟨k, status, hcalls, hresult, rfl⟩))
  · cases hvalue

/-! ## Whole runs -/

/-- The invariant of the network. -/
structure Inv (cluster : Network.Cluster) (groups : ℕ → ℕ → GroupId × GroupType) (s : State) :
    Prop where
  groupIds : ∀ n f, ((s.machines n).factories.factories f).groupId = (groups n f).1
  handlers : ∀ n, Handlers.Inv (cluster.node n).text (s.machines n).handlers
  rpcs : ∀ (k : ℕ) (rpc : Rpc), s.rpcs[k]? = some rpc → RpcSound cluster groups s rpc
  requests : ∀ (i : ℕ) (req : Request), s.requests[i]? = some req → RequestSound s i req

/-- The group of a factory is that of its construction. -/
theorem Inv.groupIds_of_takes (hs : Inv cluster groups s) (htakes : Takes cluster s s') (n f : ℕ) :
    ((s'.machines n).factories.factories f).groupId = (groups n f).1 := by
  have hset : ∀ (n' : ℕ) (l : Factory.Label) (x : Factory.State),
      Factory.step cluster.text (s.machines n').factories l = some x →
      (((s.setFactories n' x).machines n).factories.factories f).groupId = (groups n f).1 := by
    intro n' l x hx
    exact forall_setFactories (P := fun n x => (x.factories f).groupId = (groups n f).1)
      ((Factory.step_groupId hx f).trans (hs.groupIds n' f)) (fun n => hs.groupIds n f) n
  cases htakes with
  | factory n' l x hx => exact hset n' l x hx
  | posts i req l x stage hreq hunsent hx => exact hset req.node l x hx
  | finish k rpc result machines hrpc hopen hok herror hmachines =>
    rcases hmachines with rfl | ⟨l, x, hx, rfl⟩
    · exact hs.groupIds n f
    · exact hset rpc.sender l x hx
  | handlers n' l h hstep =>
    rw [State.setHandlers]
    by_cases hn : n = n'
    · subst hn
      simpa using hs.groupIds n f
    · simpa [hn] using hs.groupIds n f
  | arrive k n' rpc h handler hrpc hnew hhandler hstep =>
    simp only [State.updateRpc, State.setHandlers]
    by_cases hn : n = n'
    · subst hn
      simpa using hs.groupIds n f
    · simpa [hn] using hs.groupIds n f
  | begin | respond | resolve => exact hs.groupIds n f

/-- The handlers are changed by bindings only, which keep their invariant. -/
theorem Inv.handlers_of_takes (hs : Inv cluster groups s) (htakes : Takes cluster s s') (n : ℕ) :
    Handlers.Inv (cluster.node n).text (s'.machines n).handlers := by
  have hset : ∀ (n' : ℕ) (l : Handlers.Label) (h : Handlers.State),
      Handlers.step (cluster.node n') (s.machines n').handlers l = some h →
      Handlers.Inv (cluster.node n).text ((s.setHandlers n' h).machines n).handlers := by
    intro n' l h hh
    exact forall_setHandlers (P := fun n h => Handlers.Inv (cluster.node n).text h)
      ((hs.handlers n').step hh) hs.handlers n
  cases htakes with
  | handlers n' l h hstep => exact hset n' l h hstep
  | arrive k n' rpc h handler hrpc hnew hhandler hstep => exact hset n' _ h hstep
  | factory | posts =>
    have hsame := hs.handlers n
    rwa [← handlers_setFactories] at hsame
  | finish k rpc result machines hrpc hopen hok herror hmachines =>
    rcases hmachines with rfl | ⟨l, x, hx, rfl⟩
    · exact hs.handlers n
    · have hsame := hs.handlers n
      rwa [← handlers_setFactories] at hsame
  | begin | respond | resolve => exact hs.handlers n

/-- The RPCs after a step. -/
theorem Inv.rpcs_of_takes (hs : Inv cluster groups s) (htakes : Takes cluster s s')
    (hrpc : s'.rpcs[k]? = some rpc) : RpcSound cluster groups s' rpc := by
  have hkept : ∀ {rpc : Rpc}, s.rpcs[k]? = some rpc → RpcSound cluster groups s' rpc :=
    fun hold => (hs.rpcs k _ hold).kept htakes
  cases htakes with
  | factory | handlers | begin | resolve => exact hkept hrpc
  | posts i req l x stage hreq hunsent hx hquiet hvalue =>
    rcases List.mem_append.mp (List.mem_of_getElem? hrpc) with hold | hnew
    · obtain ⟨k', hk', rfl⟩ := List.getElem_of_mem hold
      exact (hs.rpcs k' _ (List.getElem?_eq_getElem hk')).kept
        (.posts i req l x stage hreq hunsent hx hquiet hvalue)
    · obtain ⟨send, -, rfl⟩ := List.mem_map.mp hnew
      refine ⟨⟨_, Cells.getElem?_update hreq, ?_⟩, ?_, ?_, ?_, ?_⟩
      · rw [if_pos rfl]
        refine ⟨rfl, rfl, ?_⟩
        exact (Factory.step_groupId hx req.factory).trans (hs.groupIds req.node req.factory)
      · intro n cb harrival
        cases harrival
      · intro bytes hresponse
        cases hresponse
      · intro bytes hok
        cases hok
      · intro status herror
        cases herror
  | arrive k' n old h handler hold hnew hhandler hstep =>
    obtain ⟨before, hbefore, rfl⟩ := Cells.getElem?_update_cases hrpc
    have hsound := hkept hbefore
    by_cases hk : k = k'
    · subst hk
      obtain rfl := Option.some.inj (hold.symm.trans hbefore)
      rw [if_pos rfl]
      refine ⟨hsound.origin, fun n' cb harrival => ?_, fun bytes hresponse => ?_, hsound.ok,
        hsound.error⟩
      · cases harrival
        exact firstBound_of_takes (.arrive k n old h _ hold hnew hhandler hstep)
          (Handlers.firstBound_of_dispatch (hs.handlers n).faithful hhandler.symm)
      · obtain ⟨n', cb, harrival⟩ := hsound.response bytes hresponse
        rw [hnew] at harrival
        cases harrival
    · rw [if_neg hk]
      exact hsound
  | respond k' n cb old bytes hold harrival hopen =>
    obtain ⟨before, hbefore, rfl⟩ := Cells.getElem?_update_cases hrpc
    have hsound := hkept hbefore
    by_cases hk : k = k'
    · subst hk
      obtain rfl := Option.some.inj (hold.symm.trans hbefore)
      rw [if_pos rfl]
      refine ⟨hsound.origin, hsound.arrival, fun _ _ => ⟨n, cb, harrival⟩, fun bytes' hok => ?_,
        hsound.error⟩
      have hresponse := hsound.ok bytes' hok
      rw [hopen] at hresponse
      cases hresponse
    · rw [if_neg hk]
      exact hsound
  | finish k' old result machines hold hopen hok herror hmachines =>
    obtain ⟨before, hbefore, rfl⟩ := Cells.getElem?_update_cases hrpc
    have hsound := hkept hbefore
    by_cases hk : k = k'
    · subst hk
      obtain rfl := Option.some.inj (hold.symm.trans hbefore)
      rw [if_pos rfl]
      refine ⟨hsound.origin, hsound.arrival, hsound.response, fun bytes h => ?_, fun status h => ?_⟩
      · exact hok bytes (Option.some.inj h)
      · exact herror status (Option.some.inj h)
    · rw [if_neg hk]
      exact hsound

/-- What is settled before any client is looked for. -/
theorem requestSound_begin (hcalls : req.calls = []) :
    RequestSound s i { req with stage := req.firstStage } := by
  refine ⟨fun k hk => ?_, fun _ => hcalls, fun value hvalue => ?_⟩
  · rw [hcalls] at hk
    cases hk
  · change req.firstStage = .done value at hvalue
    unfold Request.firstStage at hvalue
    split at hvalue
    · next hdest =>
      split at hvalue
      · next hkind =>
        cases hvalue
        exact Or.inr (Or.inl ⟨hdest, hkind, rfl⟩)
      · cases hvalue
    · next code hdest =>
      cases hvalue
      exact Or.inl hdest
    · cases hvalue

/-- A request goes on with its clients. -/
theorem Inv.requestSound_post {x : Factory.State} {stage : Stage} (hs : Inv cluster groups s)
    (hreq : s.requests[i]? = some req) (hunsent : req.stage.unsent = true)
    (hquiet : stage = .waits ∨ s.newSends req.node x = [])
    (hvalue : ∀ v, stage = .done v → v = .failed .serverNotFound) :
    RequestSound (s.post i req x stage) i { req with
      stage := stage
      calls := req.calls ++ List.range' s.rpcs.length (s.newSends req.node x).length } := by
  have hnone := (hs.requests i req hreq).unsent hunsent
  refine ⟨fun k hk => ?_, fun hstage => ?_, fun v hv => ?_⟩
  · change k ∈ req.calls ++ List.range' s.rpcs.length (s.newSends req.node x).length at hk
    rw [hnone, List.nil_append, List.mem_range'_1] at hk
    simp only [State.post, List.getElem?_append_right hk.1, List.getElem?_map]
    have hlt : k - s.rpcs.length < (s.newSends req.node x).length := by omega
    rw [List.getElem?_eq_getElem hlt]
    exact ⟨_, rfl, rfl⟩
  · rcases hquiet with rfl | hempty
    · cases hstage
    · change req.calls ++ List.range' s.rpcs.length (s.newSends req.node x).length = []
      rw [hnone, hempty]
      rfl
  · obtain rfl : stage = .done v := hv
    obtain rfl := hvalue v rfl
    rcases hquiet with hwaits | hempty
    · cases hwaits
    · refine Or.inr (Or.inr (Or.inl ⟨?_, rfl⟩))
      change req.calls ++ List.range' s.rpcs.length (s.newSends req.node x).length = []
      rw [hnone, hempty]
      rfl

/-- The requests after a step. -/
theorem Inv.requests_of_takes (hs : Inv cluster groups s) (htakes : Takes cluster s s')
    (hreq : s'.requests[i]? = some req) : RequestSound s' i req := by
  have hkept : ∀ {req : Request}, s.requests[i]? = some req → RequestSound s' i req :=
    fun hold => (hs.requests i _ hold).kept htakes
  cases htakes with
  | factory | handlers | arrive | respond | finish => exact hkept hreq
  | begin new hcalls =>
    rcases Cells.getElem?_alloc_cases hreq with hold | ⟨-, rfl⟩
    · exact hkept hold
    · exact requestSound_begin hcalls
  | posts i' old l x stage hold hunsent hx hquiet hvalue =>
    obtain ⟨before, hbefore, rfl⟩ := Cells.getElem?_update_cases hreq
    by_cases hi : i = i'
    · subst hi
      rw [if_pos rfl]
      exact hs.requestSound_post hold hunsent hquiet hvalue
    · rw [if_neg hi]
      exact hkept hbefore
  | resolve i' old completions value hold hcompletions hvalue =>
    obtain ⟨before, hbefore, rfl⟩ := Cells.getElem?_update_cases hreq
    by_cases hi : i = i'
    · subst hi
      rw [if_pos rfl]
      refine ⟨(hs.requests i old hold).calls, fun hstage => ?_, fun v hv => ?_⟩
      · cases hstage
      · cases hv
        exact explains_of_value hcompletions hvalue
    · rw [if_neg hi]
      exact hkept hbefore

/-- Each field is kept by every rule of the data path. -/
theorem Inv.step (hs : Inv cluster groups s) (hstep : step cluster s l = some s') :
    Inv cluster groups s' :=
  have htakes := takes_of_step hstep
  ⟨hs.groupIds_of_takes htakes, hs.handlers_of_takes htakes,
    fun _ _ hrpc => hs.rpcs_of_takes htakes hrpc, fun _ _ hreq => hs.requests_of_takes htakes hreq⟩

/-- It holds in every reachable state. -/
theorem inv_of_run (hrun : run (step cluster) (start types groups) labels = some s) :
    Inv cluster groups s := by
  refine run_invariant (I := Inv cluster groups) (fun _ _ _ hs hstep => hs.step hstep) ?_ hrun
  refine ⟨fun _ _ => rfl, fun _ => Handlers.inv_start, fun k rpc hrpc => ?_, fun i req hreq => ?_⟩
  · simp [start] at hrpc
  · simp [start] at hreq

/-- The only RPC of a request was handled, with the body of the request and by the handler that
the node had first for the name of the request and the group of the factory, and the handler
has sent `bytes` back. -/
def Answered (cluster : Network.Cluster) (groups : ℕ → ℕ → GroupId × GroupType) (s : State)
    (req : Request) (bytes : Bytes) : Prop :=
  ∃ k rpc n cb, req.calls = [k] ∧ s.rpcs[k]? = some rpc ∧ rpc.body = req.body ∧
    rpc.arrival = some (n, some cb) ∧ rpc.response = some bytes ∧
    (s.machines n).handlers.firstBound (cluster.node n).text req.name
      (groups req.node req.factory).1 = some cb

/-- A good completion comes from a handler. -/
theorem Inv.answered {bytes : Bytes} (hs : Inv cluster groups s) (hreq : s.requests[i]? = some req)
    (hcalls : req.calls = [k]) (hcompleted : Completed s k (.ok bytes)) :
    Answered cluster groups s req bytes := by
  obtain ⟨rpc, hrpc, hok⟩ := hcompleted
  have hrequest : rpc.request = i := by
    obtain ⟨rpc', hrpc', hrequest⟩ := (hs.requests i req hreq).calls k (by simp [hcalls])
    obtain rfl := Option.some.inj (hrpc.symm.trans hrpc')
    exact hrequest
  have hsound := hs.rpcs k rpc hrpc
  obtain ⟨req', hreq', hname, hbody, hgroup⟩ := hsound.origin
  rw [hrequest] at hreq'
  obtain rfl := Option.some.inj (hreq.symm.trans hreq')
  have hresponse := hsound.ok bytes hok
  obtain ⟨n, cb, harrival⟩ := hsound.response bytes hresponse
  have hfirst := hsound.arrival n cb harrival
  rw [hname, hgroup] at hfirst
  exact ⟨k, rpc, n, cb, hcalls, hrpc, hbody, harrival, hresponse, hfirst⟩

/-- In every run of every network: an RPC that was given to a handler has the name and the body
of a data request on a factory, and the handler is the one that the receiving node had first for
the name and the group of the factory. The node is any node that the RPC came to. -/
theorem data_requests_authentic (cluster : Network.Cluster) (types : ℕ → List GroupType)
    (groups : ℕ → ℕ → GroupId × GroupType) (labels : List Label) (s : State)
    (hrun : run (step cluster) (start types groups) labels = some s) (k : ℕ) (rpc : Rpc)
    (hrpc : s.rpcs[k]? = some rpc) (n : ℕ) (cb : HandlerId)
    (harrival : rpc.arrival = some (n, some cb)) :
    ∃ req, s.requests[rpc.request]? = some req ∧ rpc.name = req.name ∧ rpc.body = req.body ∧
      rpc.group = (groups req.node req.factory).1 ∧
      (s.machines n).handlers.firstBound (cluster.node n).text req.name
        (groups req.node req.factory).1 = some cb := by
  have hsound := (inv_of_run hrun).rpcs k rpc hrpc
  obtain ⟨req, hreq, hname, hbody, hgroup⟩ := hsound.origin
  have hfirst := hsound.arrival n cb harrival
  rw [hname, hgroup] at hfirst
  exact ⟨req, hreq, hname, hbody, hgroup, hfirst⟩

/-- Node 1 binds handler 10 for `read` and group 1. Node 0 makes a client for node 1, sends it a
request, and the handler answers. -/
def readFromPeer : List Label :=
  ((DataService.Restart.restartOn 0).map Handlers.Label.data ++
    (DataService.Restart.bindOn 1 "read" 10).map Handlers.Label.data).map (.handlers 1) ++
  [.begin 0 0 true (some (.ok 1)) "read" [1, 2], .look 0, .ask 0 Factory.connected, .get 0,
    .dispatch 0, .arrive 0 1, .respond 0 [3], .complete 0, .resolve 0]

/-- The run ends with the handler's response, in the request and at the peer. -/
theorem exists_run_readFromPeer :
    ∃ (s : State) (req : Request) (rpc : Rpc),
      run (step Network.sampleCluster) (start (fun _ => ["raft"]) fun _ _ => (1, "raft"))
        readFromPeer = some s ∧
      s.requests[0]? = some req ∧ req.stage = .done (.response [3]) ∧
      s.rpcs[0]? = some rpc ∧ rpc.arrival = some (1, some 10) :=
  ⟨_, _, _, rfl, rfl, rfl, rfl, rfl⟩

/-- The handler got what node 0 sent. -/
theorem authentic_after_readFromPeer :
    ∃ (s : State) (rpc : Rpc) (req : Request),
      run (step Network.sampleCluster) (start (fun _ => ["raft"]) fun _ _ => (1, "raft"))
        readFromPeer = some s ∧
      s.rpcs[0]? = some rpc ∧ rpc.arrival = some (1, some 10) ∧
      s.requests[rpc.request]? = some req ∧ rpc.body = req.body ∧
      (s.machines 1).handlers.firstBound canonicalText req.name (1 : GroupId) = some 10 := by
  obtain ⟨s, -, rpc, hrun, -, -, hrpc, harrival⟩ := exists_run_readFromPeer
  obtain ⟨req, hreq, -, hbody, -, hfirst⟩ :=
    data_requests_authentic Network.sampleCluster _ _ _ s hrun 0 rpc hrpc 1 10 harrival
  exact ⟨s, rpc, req, hrun, hrpc, harrival, hreq, hbody, hfirst⟩

/-- In every run of every network, for every data request whose future has a value. A response
is what the handler of the group sent back for the body of the request. A success without a
response means the same for a request to one peer, and for a request to all peers only that
every call has ended. A code is the one of the destination or of the missing client, or else it
tells of the error that the only call has ended with, and is not `OK`. -/
theorem data_values_authentic (cluster : Network.Cluster) (types : ℕ → List GroupType)
    (groups : ℕ → ℕ → GroupId × GroupType) (labels : List Label) (s : State)
    (hrun : run (step cluster) (start types groups) labels = some s) (i : ℕ) (req : Request)
    (hreq : s.requests[i]? = some req) :
    (∀ bytes, req.stage = .done (.response bytes) →
      req.bidirectional = true ∧ Answered cluster groups s req bytes) ∧
    (req.stage = .done .unit → req.bidirectional = false ∧
      (req.dest = none ∧ (∀ k ∈ req.calls, ∃ result, Completed s k result) ∨
        ∃ bytes, Answered cluster groups s req bytes)) ∧
    ∀ code, req.stage = .done (.failed code) → req.dest = some (.error code) ∨
      (req.dest = none ∧ req.bidirectional = true ∧ code = .badRequest) ∨
      (req.calls = [] ∧ code = .serverNotFound) ∨
      ∃ k status, req.calls = [k] ∧ Completed s k (.error status) ∧
        code = grpcStatusToNuraftCode status ∧ code ≠ .ok := by
  have hs : Inv cluster groups s := inv_of_run hrun
  have hvalue := (hs.requests i req hreq).value
  refine ⟨fun bytes hdone => ?_, fun hdone => ?_, fun code hdone => ?_⟩
  · obtain ⟨hkind, k, hcalls, hcompleted⟩ := hvalue _ hdone
    exact ⟨hkind, hs.answered hreq hcalls hcompleted⟩
  · obtain ⟨hkind, hended | ⟨k, bytes, hcalls, hcompleted⟩⟩ := hvalue _ hdone
    · exact ⟨hkind, Or.inl hended⟩
    · exact ⟨hkind, Or.inr ⟨bytes, hs.answered hreq hcalls hcompleted⟩⟩
  · refine (hvalue _ hdone).imp_right (Or.imp_right (Or.imp_right ?_))
    rintro ⟨k, status, hcalls, hcompleted, rfl⟩
    refine ⟨k, status, hcalls, hcompleted, rfl, fun hok => ?_⟩
    obtain ⟨rpc, hrpc, herror⟩ := hcompleted
    exact (hs.rpcs k rpc hrpc).error status herror (grpcStatusToNuraftCode_eq_ok.mp hok)

/-- Node 0 got what the handler sent. -/
theorem answered_after_readFromPeer :
    ∃ (s : State) (req : Request),
      run (step Network.sampleCluster) (start (fun _ => ["raft"]) fun _ _ => (1, "raft"))
        readFromPeer = some s ∧
      s.requests[0]? = some req ∧ req.stage = .done (.response [3]) ∧
      Answered Network.sampleCluster (fun _ _ => (1, "raft")) s req [3] := by
  obtain ⟨s, req, -, hrun, hreq, hdone, -, -⟩ := exists_run_readFromPeer
  obtain ⟨hresponse, -, -⟩ :=
    data_values_authentic Network.sampleCluster _ _ _ s hrun 0 req hreq
  exact ⟨s, req, hrun, hreq, hdone, (hresponse [3] hdone).2⟩

end Network.DataPath

end NuraftMesg
