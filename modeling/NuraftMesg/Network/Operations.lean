import NuraftMesg.Client.Redirect
import NuraftMesg.Network.Provenance

/-!
# Operations of the clients over the network

`add_server`, `rem_server` and `append_entry` of a factory send a message to a node that
is supposed to lead the group, and follow refusals to the leader that they name. Here
each operation runs beside the network: it asks the factory of its node for a client,
sends its message, waits for the completion and goes on with what came back. The value
that the caller gets, and the places that the messages go to, are traced back to what
the servers have said.
-/

namespace NuraftMesg.Network.Operations

open Transition

/-- The operations of a factory that are meant for the leader of the group. -/
inductive Operation where
  | addServer (srvId : UInt32) (srvAddr : PeerId)
  | remServer (srvId : UInt32)
  | appendEntry (buf : Buffer)

/-- `_payload`. -/
def Operation.payload : Operation → Payload
  | .addServer srvId _ => .addServer srvId
  | .remServer srvId => .removeServer srvId.toInt32
  | .appendEntry buf => .appendEntry buf

/-- `_new_srv_addr`. -/
def Operation.newSrvAddr : Operation → PeerId
  | .addServer _ srvAddr => srvAddr
  | _ => 0

/-- Where an operation stands. -/
inductive Stage where
  /-- It is about to call `create_or_reinit_client` for the endpoint. -/
  | asks (endpoint : String)
  /-- The call holds the lock of the factory. -/
  | asked (endpoint : String) (peer : PeerId)
  /-- The call has returned. -/
  | holds (endpoint : String) (client : Factory.Slot)
  /-- The message `k` has not been handled yet. -/
  | waits (k : ℕ)
  /-- The promise was set. -/
  | ended
  /-- There was no client for the first message: `CANCELLED`. -/
  | cancelled

/-- An operation of a factory of a node. -/
structure Ongoing where
  node : ℕ
  factory : ℕ
  operation : Operation
  destCfg : SrvConfig
  call : Call
  /-- The refusal that the operation follows; none before the first message. -/
  refusal : Option GrpcResp
  stage : Stage
  /-- The messages of the operation and their endpoints, in order (history). -/
  hops : List (ℕ × String)

/-- The first message was handed to a client. -/
def Ongoing.started (op : Ongoing) : Bool :=
  op.refusal.isSome || match op.stage with
    | .waits _ | .ended => true
    | _ => false

/-- A network, and all operations that were ever begun. -/
structure State where
  net : Network.State
  ops : List Ongoing

def start (types : ℕ → List GroupType) (groups : ℕ → ℕ → GroupId × GroupType) : State :=
  ⟨Network.start types groups, []⟩

/-- A step of an operation. -/
inductive Move where
  /-- Call `create_or_reinit_client`, up to the answer of the group factory. -/
  | ask (around : Factory.Surroundings)
  /-- The call returns. -/
  | get
  /-- `client->send`. -/
  | send (beyond : ℕ → UInt8)
  /-- `respHandler`, up to the call for another client. -/
  | handle
  /-- `ctx->future()`. -/
  | future

inductive Label where
  | net (l : Network.Label)
  | begin (n f : ℕ) (operation : Operation) (destCfg : SrvConfig)
  | move (i : ℕ) (m : Move)

section Step

variable (nuraft : Serializer) (cluster : Network.Cluster)

/-- The call after its message was handed to a client: the first message, or one that follows
a refusal. -/
def Ongoing.transmit (op : Ongoing) (target : Target) : Option Call :=
  match op.refusal with
  | none => Call.send nuraft cluster.text op.call op.destCfg.endpoint target
  | some rsp => Call.step nuraft cluster.text op.call (.complete (some rsp) false target)

/-- `respHandler`: a redirection asks for a client first, everything else sets the promise. -/
def Ongoing.handle (op : Ongoing) (c : Network.Completion) : Option Ongoing :=
  let settled := (Call.step nuraft cluster.text op.call
    (.complete c.resp c.err.isSome .null)).map fun call =>
      { op with call := call, stage := .ended }
  match c.resp with
  | some rsp =>
    if c.err = none ∧ op.call.Redirects rsp then
      some { op with refusal := some rsp, stage := .asks rsp.destAddr }
    else settled
  | none => settled

/-- One step of an operation. -/
def advance (net : Network.State) (op : Ongoing) : Move → Option (Network.State × Ongoing)
  | .ask around =>
    match op.stage with
    | .asks endpoint =>
      match cluster.text.stringGenerator endpoint with
      | none => some (net, { op with stage := .holds endpoint none })
      | some p =>
        (Network.step cluster net
          (.factory op.node (.request op.factory p false .caller around))).map fun net' =>
            -- `make` threw, and `create_or_reinit_client(std::string)` returns a null pointer
            if ((net'.machines op.node).factories.factories op.factory).busy = none then
              (net', { op with stage := .holds endpoint none })
            else (net', { op with stage := .asked endpoint p })
    | _ => none
  | .get =>
    match op.stage with
    | .asked endpoint p => do
      let x := (net.machines op.node).factories
      let pending ← (x.factories op.factory).busy
      -- the call that holds the lock is the one of this operation
      if pending.peer = p ∧ pending.purpose = .caller then
        (x.finish cluster.text op.factory).map fun (x', client) =>
          (net.setFactories op.node x', { op with stage := .holds endpoint client })
      else none
    | _ => none
  | .send beyond =>
    match op.stage with
    | .holds _ none =>
      if op.refusal.isSome then none else some (net, { op with stage := .cancelled })
    | .holds _ (some (.error _)) =>
      (op.transmit nuraft cluster .errorClient).map fun call =>
        (net, { op with call := call, stage := .ended })
    | .holds endpoint (some (.proto w)) => do
      let net' ← Network.step cluster net (.send op.node w
        (createMessage nuraft cluster.text op.call.payload op.call.newSrvAddr) beyond)
      let call ← op.transmit nuraft cluster .remote
      some (net', { op with
        call := call
        stage := .waits net.rpcs.length
        hops := op.hops ++ [(net.rpcs.length, endpoint)] })
    | _ => none
  | .handle =>
    match op.stage with
    | .waits k => do
      let rpc ← net.rpcs[k]?
      let c ← rpc.completion
      (op.handle nuraft cluster c).map fun op' => (net, op')
    | _ => none
  | .future =>
    if op.started then
      (Call.step nuraft cluster.text op.call .future).map fun call =>
        (net, { op with call := call })
    else none

/-- The end of a call for a client that belongs to an operation. -/
def State.reserved (s : State) : Network.Label → Bool
  | .factory n (.finish f) => s.ops.any fun op =>
    op.node = n && op.factory = f && match op.stage with
      | .asked _ _ => true
      | _ => false
  | _ => false

/-- An operation as it begins. -/
def begun (n f : ℕ) (operation : Operation) (destCfg : SrvConfig) : Ongoing where
  node := n
  factory := f
  operation := operation
  destCfg := destCfg
  call := Call.context operation.payload destCfg.id operation.newSrvAddr
  refusal := none
  stage := .asks destCfg.endpoint
  hops := []

/-- One step of the whole. -/
def step (s : State) : Label → Option State
  | .net l =>
    if s.reserved l then none
    else (Network.step cluster s.net l).map fun net => { s with net := net }
  | .begin n f operation destCfg =>
    some { s with ops := s.ops ++ [begun n f operation destCfg] }
  | .move i m => do
    let op ← s.ops[i]?
    (advance nuraft cluster s.net op m).map fun (net, op') =>
      { net := net, ops := s.ops.modify i fun _ => op' }

/-! ## The steps as rules -/

/-- The ways in which an operation goes on. -/
inductive Moves (net : Network.State) (op : Ongoing) : Network.State → Ongoing → Prop
  /-- There is no client for the endpoint: it is not a UUID, or `make` threw. -/
  | missed (endpoint : String) (net' : Network.State) (hstage : op.stage = .asks endpoint)
      (hnet : net' = net ∨ ∃ l, Network.step cluster net (.factory op.node l) = some net') :
      Moves net op net' { op with stage := .holds endpoint none }
  | asked (endpoint : String) (p : PeerId) (net' : Network.State)
      (hstage : op.stage = .asks endpoint) (hparse : cluster.text.stringGenerator endpoint = some p)
      (hnet : ∃ l, Network.step cluster net (.factory op.node l) = some net') :
      Moves net op net' { op with stage := .asked endpoint p }
  | got (endpoint : String) (p : PeerId) (pending : Factory.Pending) (client : Factory.Slot)
      (x : Factory.State) (hstage : op.stage = .asked endpoint p)
      (hbusy : ((net.machines op.node).factories.factories op.factory).busy = some pending)
      (hpeer : pending.peer = p)
      (hfinish : (net.machines op.node).factories.finish cluster.text op.factory =
        some (x, client)) :
      Moves net op (net.setFactories op.node x) { op with stage := .holds endpoint client }
  | cancelled (endpoint : String) (hstage : op.stage = .holds endpoint none)
      (hrefusal : op.refusal = none) :
      Moves net op net { op with stage := .cancelled }
  /-- `grpc_error_client` completes on the spot. -/
  | failed (endpoint : String) (id : UInt64) (call : Call)
      (hstage : op.stage = .holds endpoint (some (.error id)))
      (hcall : op.transmit nuraft cluster .errorClient = some call) :
      Moves net op net { op with call := call, stage := .ended }
  | sent (endpoint : String) (w : ℕ) (beyond : ℕ → UInt8) (net' : Network.State) (call : Call)
      (hstage : op.stage = .holds endpoint (some (.proto w)))
      (hsend : Network.step cluster net (.send op.node w
        (createMessage nuraft cluster.text op.call.payload op.call.newSrvAddr) beyond) = some net')
      (hcall : op.transmit nuraft cluster .remote = some call) :
      Moves net op net' { op with
        call := call
        stage := .waits net.rpcs.length
        hops := op.hops ++ [(net.rpcs.length, endpoint)] }
  | redirected (k : ℕ) (rpc : Network.Rpc) (rsp : GrpcResp) (hstage : op.stage = .waits k)
      (hrpc : net.rpcs[k]? = some rpc) (hcompletion : rpc.completion = some ⟨some rsp, none⟩)
      (hredirects : op.call.Redirects rsp) :
      Moves net op net { op with refusal := some rsp, stage := .asks rsp.destAddr }
  | settled (k : ℕ) (rpc : Network.Rpc) (c : Network.Completion) (call : Call)
      (hstage : op.stage = .waits k) (hrpc : net.rpcs[k]? = some rpc)
      (hcompletion : rpc.completion = some c)
      (hcall : Call.step nuraft cluster.text op.call (.complete c.resp c.err.isSome .null) =
        some call) :
      Moves net op net { op with call := call, stage := .ended }
  | future (call : Call) (hstarted : op.started = true)
      (hcall : Call.step nuraft cluster.text op.call .future = some call) :
      Moves net op net { op with call := call }

end Step

variable {nuraft : Serializer} {cluster : Network.Cluster} {types : ℕ → List GroupType}
  {groups : ℕ → ℕ → GroupId × GroupType} {net net' : Network.State} {op op' : Ongoing}
  {s s' : State} {l : Label} {labels : List Label} {k : ℕ} {rsp : GrpcResp} {endpoint : String}

/-- The handler of a completed call ends the operation, or posts it to the named leader. -/
theorem moves_of_handle {c : Network.Completion} {rpc : Network.Rpc} (hstage : op.stage = .waits k)
    (hrpc : net.rpcs[k]? = some rpc) (hcompletion : rpc.completion = some c)
    (hhandle : op.handle nuraft cluster c = some op') : Moves nuraft cluster net op net op' := by
  have hsettled : (Call.step nuraft cluster.text op.call
      (.complete c.resp c.err.isSome .null)).map (fun call =>
        { op with call := call, stage := .ended }) = some op' →
      Moves nuraft cluster net op net op' := by
    intro hsettle
    obtain ⟨call, hcall, rfl⟩ := Option.map_eq_some_iff.mp hsettle
    exact .settled k rpc c call hstage hrpc hcompletion hcall
  rcases c with ⟨_ | rsp, err⟩
  · exact hsettled hhandle
  · simp only [Ongoing.handle] at hhandle
    split at hhandle
    · next hredirects =>
      obtain ⟨rfl, hredirects⟩ := hredirects
      cases hhandle
      exact .redirected k rpc rsp hstage hrpc hcompletion hredirects
    · exact hsettled hhandle

/-- Every step of an operation is an instance of a rule. -/
theorem moves_of_advance {m : Move}
    (hadvance : advance nuraft cluster net op m = some (net', op')) :
    Moves nuraft cluster net op net' op' := by
  cases m with
  | ask around =>
    simp only [advance] at hadvance
    split at hadvance
    · next endpoint hstage =>
      split at hadvance
      · cases hadvance
        exact .missed endpoint net hstage (Or.inl rfl)
      · next p hparse =>
        obtain ⟨mid, hmid, hresult⟩ := Option.map_eq_some_iff.mp hadvance
        split at hresult
        · cases hresult
          exact .missed endpoint net' hstage (Or.inr ⟨_, hmid⟩)
        · cases hresult
          exact .asked endpoint p net' hstage hparse ⟨_, hmid⟩
    · cases hadvance
  | get =>
    simp only [advance] at hadvance
    split at hadvance
    · next endpoint p hstage =>
      obtain ⟨pending, hbusy, hadvance⟩ := Option.bind_eq_some_iff.mp hadvance
      split at hadvance
      · next hown =>
        obtain ⟨⟨x, client⟩, hfinish, hresult⟩ := Option.map_eq_some_iff.mp hadvance
        cases hresult
        exact .got endpoint p pending client x hstage hbusy hown.1 hfinish
      · cases hadvance
    · cases hadvance
  | send beyond =>
    simp only [advance] at hadvance
    split at hadvance
    · next endpoint hstage =>
      split at hadvance
      · cases hadvance
      · next hrefusal =>
        cases hadvance
        exact .cancelled endpoint hstage (Option.not_isSome_iff_eq_none.mp hrefusal)
    · next endpoint id hstage =>
      obtain ⟨call, hcall, hresult⟩ := Option.map_eq_some_iff.mp hadvance
      cases hresult
      exact .failed endpoint id call hstage hcall
    · next endpoint w hstage =>
      obtain ⟨mid, hsend, hadvance⟩ := Option.bind_eq_some_iff.mp hadvance
      obtain ⟨call, hcall, hresult⟩ := Option.bind_eq_some_iff.mp hadvance
      cases hresult
      exact .sent endpoint w beyond net' call hstage hsend hcall
    · cases hadvance
  | handle =>
    simp only [advance] at hadvance
    split at hadvance
    · next k hstage =>
      obtain ⟨rpc, hrpc, hadvance⟩ := Option.bind_eq_some_iff.mp hadvance
      obtain ⟨c, hcompletion, hadvance⟩ := Option.bind_eq_some_iff.mp hadvance
      obtain ⟨op', hhandle, hresult⟩ := Option.map_eq_some_iff.mp hadvance
      cases hresult
      exact moves_of_handle hstage hrpc hcompletion hhandle
    · cases hadvance
  | future =>
    simp only [advance] at hadvance
    split at hadvance
    · next hstarted =>
      obtain ⟨call, hcall, hresult⟩ := Option.map_eq_some_iff.mp hadvance
      cases hresult
      exact .future call hstarted hcall
    · cases hadvance

/-- What an operation does to the network is a run of the network. -/
theorem Moves.net_run (hmoves : Moves nuraft cluster net op net' op') :
    ∃ ks, run (Network.step cluster) net ks = some net' := by
  cases hmoves with
  | missed endpoint net' hstage hnet =>
    rcases hnet with rfl | ⟨l, hstep⟩
    · exact Refinement.exists_run_of_eq rfl
    · exact Refinement.exists_run_of_step hstep
  | asked endpoint p net' hstage hparse hnet =>
    obtain ⟨l, hstep⟩ := hnet
    exact Refinement.exists_run_of_step hstep
  | got endpoint p pending client x hstage hbusy hpeer hfinish =>
    have hstep : Network.step cluster net (.factory op.node (.finish op.factory)) =
        some (net.setFactories op.node x) := by
      have hlocal : Factory.step cluster.text (net.machines op.node).factories
          (.finish op.factory) = some x := by
        simp only [Factory.step, hfinish, Option.map_some]
      simp [Network.step, Network.carries, hlocal]
    exact Refinement.exists_run_of_step hstep
  | sent endpoint w beyond net' call hstage hsend hcall => exact Refinement.exists_run_of_step hsend
  | cancelled | failed | redirected | settled | future => exact Refinement.exists_run_of_eq rfl

/-- An operation leaves the managers of the nodes alone. -/
theorem Moves.manager (hmoves : Moves nuraft cluster net op net' op') (n : ℕ) :
    (net'.machines n).manager = (net.machines n).manager := by
  have hfactory : ∀ {l : Factory.Label}, Network.step cluster net (.factory op.node l) = some net' →
      (net'.machines n).manager = (net.machines n).manager := by
    intro l hstep
    cases takes_of_step hstep with
    | factory n' l x hx => exact manager_setFactories x n
  cases hmoves with
  | missed endpoint net' hstage hnet =>
    rcases hnet with rfl | ⟨l, hstep⟩
    · rfl
    · exact hfactory hstep
  | asked endpoint p net' hstage hparse hnet =>
    obtain ⟨l, hstep⟩ := hnet
    exact hfactory hstep
  | got endpoint p pending client x => exact manager_setFactories x n
  | sent endpoint w beyond net' call hstage hsend =>
    cases takes_of_step hsend with
    | send n' w request beyond wrapper transport x => exact manager_setFactories x n
  | cancelled | failed | redirected | settled | future => rfl

/-- The network goes through a run of its own. -/
theorem projects_net (nuraft : Serializer) (cluster : Network.Cluster) :
    Refinement.Projects (step nuraft cluster) (Network.step cluster) State.net := by
  intro s l s' hstep
  cases l with
  | net l =>
    simp only [step] at hstep
    split at hstep
    · cases hstep
    obtain ⟨net, hnet, rfl⟩ := Option.map_eq_some_iff.mp hstep
    exact Refinement.exists_run_of_step hnet
  | begin n f operation destCfg =>
    cases hstep
    exact Refinement.exists_run_of_eq rfl
  | move i m =>
    obtain ⟨op, -, hstep⟩ := Option.bind_eq_some_iff.mp hstep
    obtain ⟨⟨net, op'⟩, hadvance, rfl⟩ := Option.map_eq_some_iff.mp hstep
    exact (moves_of_advance hadvance).net_run

/-! ## What is known about an operation -/

/-- Message `k` has completed with a response. -/
def Responded (net : Network.State) (k : ℕ) (rsp : GrpcResp) : Prop :=
  ∃ rpc, net.rpcs[k]? = some rpc ∧ rpc.completion = some ⟨some rsp, none⟩

/-- A message went out over a wrapper that was made for the peer with this endpoint and for the
group of the factory, and carries the payload of the operation. -/
def Posted (nuraft : Serializer) (cluster : Network.Cluster)
    (groups : ℕ → ℕ → GroupId × GroupType) (net : Network.State) (op : Ongoing)
    (hop : ℕ × String) : Prop :=
  ∃ rpc p payload, net.rpcs[hop.1]? = some rpc ∧ cluster.text.stringGenerator hop.2 = some p ∧
    rpc.wrapper.MadeFor cluster.text p (groups op.node op.factory).1
      (groups op.node op.factory).2 ∧
    (payload = op.operation.payload ∨ payload = op.operation.payload.rewind) ∧
    rpc.request = createMessage nuraft cluster.text payload op.operation.newSrvAddr

/-- The earlier message was refused with the endpoint of the later one. -/
def Follows (net : Network.State) (earlier later : ℕ × String) : Prop :=
  ∃ rsp, Responded net earlier.1 rsp ∧ rsp.accepted = false ∧ later.2 = rsp.destAddr

/-- Why an operation is going to send a message to the endpoint. -/
def Named (net : Network.State) (op : Ongoing) (endpoint : String) : Prop :=
  op.call.settled = [] ∧ match op.refusal with
    | none => op.hops = [] ∧ endpoint = op.destCfg.endpoint ∧
        op.call = Call.context op.operation.payload op.destCfg.id op.operation.newSrvAddr
    | some rsp => endpoint = rsp.destAddr ∧ op.call.Redirects rsp ∧
        ∃ hop, op.hops.getLast? = some hop ∧ Responded net hop.1 rsp

/-- What is known at each stage. -/
def Fits (cluster : Network.Cluster) (groups : ℕ → ℕ → GroupId × GroupType)
    (net : Network.State) (op : Ongoing) : Stage → Prop
  | .asks endpoint => Named net op endpoint
  | .asked endpoint p => Named net op endpoint ∧ cluster.text.stringGenerator endpoint = some p
  | .holds endpoint client => Named net op endpoint ∧ ∀ w, client = some (.proto w) →
      ∃ p, cluster.text.stringGenerator endpoint = some p ∧
        Factory.IsWrapper cluster.text (net.machines op.node).factories.heap
          (groups op.node op.factory) p client
  | .waits k => op.call.settled = [] ∧ ∃ endpoint, op.hops.getLast? = some (k, endpoint)
  | .ended => True
  | .cancelled => op.refusal = none ∧ op.call.future = none

/-- The invariant of an operation. -/
structure Sound (nuraft : Serializer) (cluster : Network.Cluster)
    (groups : ℕ → ℕ → GroupId × GroupType) (net : Network.State) (op : Ongoing) : Prop where
  /-- Encoding a message rewinds the buffer of the caller. -/
  payload : op.call.payload = op.operation.payload ∨
    op.call.payload = op.operation.payload.rewind
  newSrvAddr : op.call.newSrvAddr = op.operation.newSrvAddr
  reached : op.started = true → ∃ c ls, Call.Started nuraft cluster.text c ∧
    run (Call.step nuraft cluster.text) c ls = some op.call
  posted : ∀ hop ∈ op.hops, Posted nuraft cluster groups net op hop
  first : ∀ hop ∈ op.hops.head?, hop.2 = op.destCfg.endpoint
  chain : op.hops.IsChain (Follows net)
  fits : Fits cluster groups net op op.stage
  settled : ∀ code ∈ op.call.settled, code = .serverNotFound ∨ ∃ hop rsp,
    op.hops.getLast? = some hop ∧ Responded net hop.1 rsp ∧ code = rsp.resultCode

/-! ## The network goes on -/

section Later

variable {ks : List Network.Label}

/-- A response that an operation was given stays given. -/
theorem Responded.later (hresponded : Responded net k rsp)
    (hrun : run (Network.step cluster) net ks = some net') : Responded net' k rsp := by
  obtain ⟨rpc, hrpc, hcompletion⟩ := hresponded
  obtain ⟨rpc', hrpc', hlater⟩ := Network.exists_rpc_of_run hrun hrpc
  exact ⟨rpc', hrpc', hlater.completion _ hcompletion⟩

/-- A hop stays posted. -/
theorem Posted.later {hop : ℕ × String} (hposted : Posted nuraft cluster groups net op hop)
    (hrun : run (Network.step cluster) net ks = some net') :
    Posted nuraft cluster groups net' op hop := by
  obtain ⟨rpc, p, payload, hrpc, hparse, hmade, hpayload, hrequest⟩ := hposted
  obtain ⟨rpc', hrpc', hlater⟩ := Network.exists_rpc_of_run hrun hrpc
  refine ⟨rpc', p, payload, hrpc', hparse, ?_, hpayload, hlater.request.trans hrequest⟩
  rw [hlater.wrapper]
  exact hmade

/-- The order of two hops stays explained by the response between them. -/
theorem Follows.later {earlier later : ℕ × String} (hfollows : Follows net earlier later)
    (hrun : run (Network.step cluster) net ks = some net') : Follows net' earlier later := by
  obtain ⟨rsp, hresponded, hrefused, hdest⟩ := hfollows
  exact ⟨rsp, hresponded.later hrun, hrefused, hdest⟩

/-- A leader that was named stays named. -/
theorem Named.later (hnamed : Named net op endpoint)
    (hrun : run (Network.step cluster) net ks = some net') : Named net' op endpoint := by
  unfold Named at hnamed ⊢
  refine ⟨hnamed.1, ?_⟩
  cases hrefusal : op.refusal with
  | none =>
    rw [hrefusal] at hnamed
    exact hnamed.2
  | some rsp =>
    rw [hrefusal] at hnamed
    obtain ⟨-, hendpoint, hredirects, hop, hlast, hresponded⟩ := hnamed
    exact ⟨hendpoint, hredirects, hop, hlast, hresponded.later hrun⟩

/-- An operation that has sent nothing goes to the endpoint of its destination. -/
theorem Named.endpoint_of_hops_nil (hnamed : Named net op endpoint) (hempty : op.hops = []) :
    endpoint = op.destCfg.endpoint := by
  cases hrefusal : op.refusal with
  | none =>
    simp only [Named, hrefusal] at hnamed
    exact hnamed.2.2.1
  | some rsp =>
    simp only [Named, hrefusal] at hnamed
    obtain ⟨-, -, -, hop, hlast, -⟩ := hnamed
    rw [hempty] at hlast
    cases hlast

/-- One that has goes where the answer to its last message sends it. -/
theorem Named.follows {hop : ℕ × String} (hnamed : Named net op endpoint)
    (hlast : op.hops.getLast? = some hop) (k : ℕ) : Follows net hop (k, endpoint) := by
  cases hrefusal : op.refusal with
  | none =>
    simp only [Named, hrefusal] at hnamed
    rw [hnamed.2.1] at hlast
    cases hlast
  | some rsp =>
    simp only [Named, hrefusal] at hnamed
    obtain ⟨-, hendpoint, hredirects, hop', hlast', hresponded⟩ := hnamed
    obtain rfl := Option.some.inj (hlast.symm.trans hlast')
    exact ⟨rsp, hresponded, hredirects.1, hendpoint⟩

/-- The stage of an operation that does not move fits a later network. -/
theorem Fits.later {stage : Stage} (hfits : Fits cluster groups net op stage)
    (hrun : run (Network.step cluster) net ks = some net') :
    Fits cluster groups net' op stage := by
  cases stage with
  | asks endpoint => exact Named.later hfits hrun
  | asked endpoint p => exact ⟨hfits.1.later hrun, hfits.2⟩
  | holds endpoint client =>
    refine ⟨hfits.1.later hrun, fun w hclient => ?_⟩
    obtain ⟨p, hparse, hwrapper⟩ := hfits.2 w hclient
    obtain ⟨ls, hls⟩ := (Network.projects_factories cluster op.node).run hrun
    exact ⟨p, hparse, hwrapper.grow (Factory.run_grows hls)⟩
  | waits k => exact hfits
  | ended => trivial
  | cancelled => exact hfits

/-- Whatever else happens in the network, an operation stays as it is. -/
theorem Sound.later (hs : Sound nuraft cluster groups net op)
    (hrun : run (Network.step cluster) net ks = some net') :
    Sound nuraft cluster groups net' op where
  payload := hs.payload
  newSrvAddr := hs.newSrvAddr
  reached := hs.reached
  posted hop hhop := (hs.posted hop hhop).later hrun
  first := hs.first
  chain := hs.chain.imp fun _ _ hfollows => hfollows.later hrun
  fits := hs.fits.later hrun
  settled code hcode := by
    refine (hs.settled code hcode).imp_right ?_
    rintro ⟨hop, rsp, hlast, hresponded, heq⟩
    exact ⟨hop, rsp, hlast, hresponded.later hrun, heq⟩

end Later

/-! ## The steps of an operation -/

section Transmit

variable {target : Target} {call : Call}

/-- The first message makes a started call. -/
theorem started_of_send
    (hcall : op.call = Call.context op.operation.payload op.destCfg.id op.operation.newSrvAddr)
    (hsend : Call.send nuraft cluster.text op.call op.destCfg.endpoint target = some call) :
    Call.Started nuraft cluster.text call := by
  rw [hcall] at hsend
  cases hoperation : op.operation with
  | addServer srvId srvAddr =>
    rw [hoperation] at hsend
    exact .addServer hsend
  | remServer srvId =>
    rw [hoperation] at hsend
    exact .remServer hsend
  | appendEntry buf =>
    rw [hoperation] at hsend
    exact .appendEntry hsend

/-- Handing a message to a client starts the call or is one step of it. -/
theorem Sound.reached_of_transmit (hs : Sound nuraft cluster groups net op)
    (hnamed : Named net op endpoint) (hcall : op.transmit nuraft cluster target = some call) :
    ∃ c ls, Call.Started nuraft cluster.text c ∧
      run (Call.step nuraft cluster.text) c ls = some call := by
  cases hrefusal : op.refusal with
  | none =>
    simp only [Named, hrefusal] at hnamed
    simp only [Ongoing.transmit, hrefusal] at hcall
    exact ⟨call, [], started_of_send hnamed.2.2.2 hcall, rfl⟩
  | some rsp =>
    simp only [Ongoing.transmit, hrefusal] at hcall
    obtain ⟨c, ls, hstarted, hrun⟩ := hs.reached (by simp [Ongoing.started, hrefusal])
    exact ⟨c, _, hstarted, run_snoc hrun hcall⟩

/-- An error client fails the operation. -/
theorem Named.errorClient (hnamed : Named net op endpoint)
    (hcall : op.transmit nuraft cluster .errorClient = some call) :
    call.settled = [.serverNotFound] ∧ call.payload = op.call.payload ∧
      call.newSrvAddr = op.call.newSrvAddr := by
  have hopen := hnamed.1
  cases hrefusal : op.refusal with
  | none =>
    simp only [Ongoing.transmit, hrefusal] at hcall
    obtain ⟨store, rfl⟩ := Call.set_eq hcall
    exact ⟨by simp [hopen], rfl, rfl⟩
  | some rsp =>
    simp only [Named, hrefusal] at hnamed
    simp only [Ongoing.transmit, hrefusal] at hcall
    cases Call.proceeds_of_step hcall with
    | ends rsp err target code hcode houtstanding hsettled hsent hpayload haddr =>
      simp only [Call.EndsWith, hnamed.2.2.1, and_self, if_true, true_and] at hcode
      exact ⟨by rw [hsettled, hopen, hcode]; rfl, hpayload, haddr⟩

/-- Over a client for a peer the operation sends its payload, once more or for the first time. -/
theorem Named.remote (hnamed : Named net op endpoint)
    (hcall : op.transmit nuraft cluster .remote = some call) :
    call.settled = [] ∧ call.payload = op.call.payload.rewind ∧
      call.newSrvAddr = op.call.newSrvAddr := by
  have hopen := hnamed.1
  cases hrefusal : op.refusal with
  | none =>
    simp only [Ongoing.transmit, hrefusal] at hcall
    cases hcall
    exact ⟨hopen, rfl, rfl⟩
  | some rsp =>
    simp only [Named, hrefusal] at hnamed
    simp only [Ongoing.transmit, hrefusal] at hcall
    cases Call.proceeds_of_step hcall with
    | ends rsp err target code hcode =>
      simp only [Call.EndsWith, hnamed.2.2.1, and_self, if_true, reduceCtorEq, false_and] at hcode
    | forwards rsp hredirects houtstanding hpositive hsettled hsent hdest hpayload haddr =>
      exact ⟨hsettled.trans hopen, hpayload, haddr⟩

end Transmit

/-- Only the stage changes. -/
theorem Sound.setStage {stage : Stage} (hs : Sound nuraft cluster groups net op)
    (hstarted : Ongoing.started { op with stage := stage } = true → op.started = true)
    (hfits : Fits cluster groups net { op with stage := stage } stage) :
    Sound nuraft cluster groups net { op with stage := stage } where
  payload := hs.payload
  newSrvAddr := hs.newSrvAddr
  reached h := hs.reached (hstarted h)
  posted := hs.posted
  first := hs.first
  chain := hs.chain
  fits := hfits
  settled := hs.settled

/-- The end of a call for a client. -/
theorem Sound.got {p : PeerId} {pending : Factory.Pending} {client : Factory.Slot}
    {x : Factory.State} (hs : Sound nuraft cluster groups (net.setFactories op.node x) op)
    (hnet : Network.Inv cluster groups net) (hstage : op.stage = .asked endpoint p)
    (hbusy : ((net.machines op.node).factories.factories op.factory).busy = some pending)
    (hpeer : pending.peer = p)
    (hfinish : (net.machines op.node).factories.finish cluster.text op.factory =
      some (x, client)) :
    Sound nuraft cluster groups (net.setFactories op.node x)
      { op with stage := .holds endpoint client } := by
  have hfits := hs.fits
  rw [hstage] at hfits
  refine hs.setStage (fun h => by simpa [Ongoing.started, hstage] using h)
    ⟨hfits.1, fun w hclient => ?_⟩
  subst hclient hpeer
  refine ⟨pending.peer, hfits.2, ?_⟩
  rw [Network.factories_setFactories, if_pos rfl]
  exact (hnet.labelled op.node).returned hbusy hfinish

/-- A message that goes out is on the wire to the peer of the endpoint: the wrapper is the one
that the factory has returned for it. -/
theorem Sound.posted_send {w : ℕ} {beyond : ℕ → UInt8}
    (hs : Sound nuraft cluster groups net op)
    (hstage : op.stage = .holds endpoint (some (.proto w)))
    (hsend : Network.step cluster net (.send op.node w
      (createMessage nuraft cluster.text op.call.payload op.call.newSrvAddr) beyond) = some net') :
    Posted nuraft cluster groups net' op (net.rpcs.length, endpoint) := by
  have hfits := hs.fits
  rw [hstage] at hfits
  obtain ⟨p, hparse, w', wrapper, hw, hwrapper, hmade⟩ := hfits.2 w rfl
  cases hw
  cases Network.takes_of_step hsend with
  | send n w request beyond wrapper' transport x hwrapper' hstep =>
    obtain rfl := Option.some.inj (hwrapper.symm.trans hwrapper')
    refine ⟨_, p, op.call.payload, List.getElem?_concat_length, hparse, hmade, hs.payload, ?_⟩
    rw [hs.newSrvAddr]

/-- A message goes out. -/
theorem Sound.sent {w : ℕ} {beyond : ℕ → UInt8} {call : Call}
    (hs : Sound nuraft cluster groups net op)
    (hstage : op.stage = .holds endpoint (some (.proto w)))
    (hsend : Network.step cluster net (.send op.node w
      (createMessage nuraft cluster.text op.call.payload op.call.newSrvAddr) beyond) = some net')
    (hcall : op.transmit nuraft cluster .remote = some call) :
    Sound nuraft cluster groups net' { op with
      call := call
      stage := .waits net.rpcs.length
      hops := op.hops ++ [(net.rpcs.length, endpoint)] } := by
  obtain ⟨ks, hrun⟩ : ∃ ks, run (Network.step cluster) net ks = some net' :=
    Refinement.exists_run_of_step hsend
  have hlater := hs.later hrun
  have hnamed : Named net op endpoint := by
    have hfits := hs.fits
    rw [hstage] at hfits
    exact hfits.1
  obtain ⟨hopen, hpayload, haddr⟩ := hnamed.remote hcall
  constructor
  · right
    rcases hs.payload with h | h
    · rw [hpayload, h]
    · rw [hpayload, h]
      cases op.operation.payload <;> rfl
  · exact haddr.trans hs.newSrvAddr
  · intro _
    exact hs.reached_of_transmit hnamed hcall
  · intro hop hhop
    rcases List.mem_append.mp hhop with hold | hnew
    · exact hlater.posted hop hold
    · rw [List.mem_singleton.mp hnew]
      exact hs.posted_send hstage hsend
  · intro hop hhop
    cases hhops : op.hops with
    | nil =>
      rw [hhops] at hhop
      cases hhop
      exact hnamed.endpoint_of_hops_nil hhops
    | cons hop' rest =>
      rw [hhops] at hhop
      cases hhop
      exact hs.first hop (by rw [hhops]; rfl)
  · refine List.isChain_append.mpr ⟨hlater.chain, .singleton _, fun hop hlast hop' hhead => ?_⟩
    cases hhead
    exact (hnamed.later hrun).follows hlast _
  · exact ⟨hopen, endpoint, List.getLast?_concat⟩
  · intro code hcode
    rw [hopen] at hcode
    cases hcode

/-- The promise is set by the completion of the last message. -/
theorem Sound.settle {rpc : Network.Rpc} {c : Network.Completion} {call : Call}
    (hs : Sound nuraft cluster groups net op) (hnet : Network.Inv cluster groups net)
    (hstage : op.stage = .waits k) (hrpc : net.rpcs[k]? = some rpc)
    (hcompletion : rpc.completion = some c)
    (hcall : Call.step nuraft cluster.text op.call (.complete c.resp c.err.isSome .null) =
      some call) :
    Sound nuraft cluster groups net { op with call := call, stage := .ended } := by
  have hfits := hs.fits
  rw [hstage] at hfits
  obtain ⟨hopen, endpoint, hlast⟩ := hfits
  obtain ⟨c₀, ls, hstarted, hrun⟩ := hs.reached (by simp [Ongoing.started, hstage])
  have hexclusive := hnet.exclusive hrpc hcompletion
  generalize hl : Call.Label.complete c.resp c.err.isSome .null = l at hcall
  cases Call.proceeds_of_step hcall with
  | future => cases hl
  | forwards =>
    injection hl with _ _ htarget
    cases htarget
  | ends rsp err target code hcode houtstanding hsettled hsent hpayload haddr =>
    cases hl
    refine ⟨by rw [hpayload]; exact hs.payload, haddr.trans hs.newSrvAddr,
      fun _ => ⟨c₀, _, hstarted, run_snoc hrun hcall⟩, hs.posted, hs.first, hs.chain, trivial, ?_⟩
    intro code' hcode'
    rw [hsettled, hopen] at hcode'
    obtain rfl := List.mem_singleton.mp hcode'
    rcases c with ⟨_ | rsp, err⟩
    · exact Or.inl hcode
    · obtain rfl : err = none := hexclusive.mp rfl
      refine Or.inr ⟨(k, endpoint), rsp, hlast, ⟨rpc, hrpc, hcompletion⟩, ?_⟩
      simp only [Call.EndsWith] at hcode
      split at hcode
      · cases hcode.1
      · exact hcode

/-- The caller takes the future. -/
theorem Sound.future {call : Call} (hs : Sound nuraft cluster groups net op)
    (hstarted : op.started = true)
    (hcall : Call.step nuraft cluster.text op.call .future = some call) :
    Sound nuraft cluster groups net { op with call := call } := by
  cases Call.proceeds_of_step hcall with
  | future houtstanding hsettled hsent hdest hpayload haddr =>
    have hnamed : ∀ endpoint, op.stage = .asks endpoint ∨ (∃ p, op.stage = .asked endpoint p) ∨
        (∃ client, op.stage = .holds endpoint client) → Named net op endpoint →
        Named net { op with call := call } endpoint := by
      intro endpoint hstage hnamed
      cases hrefusal : op.refusal with
      | none =>
        -- the first message was not sent yet
        rcases hstage with hstage | ⟨p, hstage⟩ | ⟨client, hstage⟩ <;>
          simp [Ongoing.started, hrefusal, hstage] at hstarted
      | some rsp =>
        simp only [Named, hrefusal] at hnamed ⊢
        refine ⟨hsettled.trans hnamed.1, hnamed.2.1, ?_, hnamed.2.2.2⟩
        simpa only [Call.Redirects, hdest] using hnamed.2.2.1
    obtain ⟨c₀, ls, hstarted₀, hrun⟩ := hs.reached hstarted
    refine ⟨by rw [hpayload]; exact hs.payload, haddr.trans hs.newSrvAddr,
      fun _ => ⟨c₀, _, hstarted₀, run_snoc hrun hcall⟩, hs.posted, hs.first, hs.chain, ?_, ?_⟩
    · have hfits := hs.fits
      cases hstage : op.stage with
      | asks endpoint =>
        rw [hstage] at hfits
        exact hnamed endpoint (Or.inl hstage) hfits
      | asked endpoint p =>
        rw [hstage] at hfits
        exact ⟨hnamed endpoint (Or.inr (Or.inl ⟨p, hstage⟩)) hfits.1, hfits.2⟩
      | holds endpoint client =>
        rw [hstage] at hfits
        exact ⟨hnamed endpoint (Or.inr (Or.inr ⟨client, hstage⟩)) hfits.1, hfits.2⟩
      | waits k =>
        rw [hstage] at hfits
        exact ⟨hsettled.trans hfits.1, hfits.2⟩
      | ended => trivial
      | cancelled =>
        rw [hstage] at hfits
        simp [Ongoing.started, hstage, hfits.1] at hstarted
    · intro code hcode
      rw [hsettled] at hcode
      exact hs.settled code hcode

/-- Every step of an operation keeps what is known about it. -/
theorem Sound.moves (hs : Sound nuraft cluster groups net op)
    (hnet : Network.Inv cluster groups net) (hmoves : Moves nuraft cluster net op net' op') :
    Sound nuraft cluster groups net' op' := by
  obtain ⟨ks, hrun⟩ := hmoves.net_run
  have hlater := hs.later hrun
  have hfits := hlater.fits
  cases hmoves with
  | missed endpoint net' hstage hnet =>
    rw [hstage] at hfits
    refine hlater.setStage (fun h => by simpa [Ongoing.started, hstage] using h)
      ⟨hfits, fun w hclient => ?_⟩
    cases hclient
  | asked endpoint p net' hstage hparse hnet =>
    rw [hstage] at hfits
    exact hlater.setStage (fun h => by simpa [Ongoing.started, hstage] using h) ⟨hfits, hparse⟩
  | got endpoint p pending client x hstage hbusy hpeer hfinish =>
    exact hlater.got hnet hstage hbusy hpeer hfinish
  | cancelled endpoint hstage hrefusal =>
    rw [hstage] at hfits
    simp only [Fits, Named, hrefusal] at hfits
    refine hs.setStage (fun h => by simpa [Ongoing.started, hstage] using h) ⟨hrefusal, ?_⟩
    change op.call.future = none
    rw [hfits.1.2.2.2]
    rfl
  | failed endpoint id call hstage hcall =>
    rw [hstage] at hfits
    obtain ⟨hsettled, hpayload, haddr⟩ := hfits.1.errorClient hcall
    refine ⟨by rw [hpayload]; exact hs.payload, haddr.trans hs.newSrvAddr,
      fun _ => hs.reached_of_transmit hfits.1 hcall, hs.posted, hs.first, hs.chain, trivial, ?_⟩
    intro code hcode
    rw [hsettled] at hcode
    exact Or.inl (List.mem_singleton.mp hcode)
  | sent endpoint w beyond net' call hstage hsend hcall => exact hs.sent hstage hsend hcall
  | redirected k rpc rsp hstage hrpc hcompletion hredirects =>
    rw [hstage] at hfits
    obtain ⟨hopen, endpoint, hlast⟩ := hfits
    refine ⟨hs.payload, hs.newSrvAddr, fun _ => hs.reached (by simp [Ongoing.started, hstage]),
      hs.posted, hs.first, hs.chain, ?_, hs.settled⟩
    exact ⟨hopen, rfl, hredirects, (k, endpoint), hlast, rpc, hrpc, hcompletion⟩
  | settled k rpc c call hstage hrpc hcompletion hcall =>
    exact hs.settle hnet hstage hrpc hcompletion hcall
  | future call hstarted hcall => exact hs.future hstarted hcall

/-! ## Whole runs -/

/-- An operation that has just begun. -/
theorem sound_begun (n f : ℕ) (operation : Operation) (destCfg : SrvConfig) :
    Sound nuraft cluster groups net (begun n f operation destCfg) := by
  constructor
  · exact Or.inl rfl
  · rfl
  · intro hstarted
    cases hstarted
  · intro hop hhop
    cases hhop
  · intro hop hhop
    cases hhop
  · exact .nil
  · exact ⟨rfl, rfl, rfl, rfl⟩
  · intro code hcode
    cases hcode

/-- The invariant of the whole. -/
structure Inv (nuraft : Serializer) (cluster : Network.Cluster)
    (groups : ℕ → ℕ → GroupId × GroupType) (s : State) : Prop where
  net : Network.Inv cluster groups s.net
  ops : ∀ (i : ℕ) (op : Ongoing), s.ops[i]? = some op → Sound nuraft cluster groups s.net op

/-- Each field is kept by a step of the network and by a step of an operation. -/
theorem Inv.step (hs : Inv nuraft cluster groups s) (hstep : step nuraft cluster s l = some s') :
    Inv nuraft cluster groups s' := by
  obtain ⟨ks, hrun⟩ := projects_net nuraft cluster s l s' hstep
  refine ⟨run_invariant (I := Network.Inv cluster groups) (fun _ _ _ h hstep => h.step hstep)
    hs.net hrun, fun i op hop => ?_⟩
  cases l with
  | net l =>
    simp only [Operations.step] at hstep
    split at hstep
    · cases hstep
    obtain ⟨net, hnet, rfl⟩ := Option.map_eq_some_iff.mp hstep
    exact (hs.ops i op hop).later hrun
  | begin n f operation destCfg =>
    cases hstep
    rcases Cells.getElem?_alloc_cases hop with hold | ⟨-, rfl⟩
    · exact hs.ops i op hold
    · exact sound_begun n f operation destCfg
  | move j m =>
    obtain ⟨old, hold, hstep⟩ := Option.bind_eq_some_iff.mp hstep
    obtain ⟨⟨net, op'⟩, hadvance, rfl⟩ := Option.map_eq_some_iff.mp hstep
    obtain ⟨before, hbefore, rfl⟩ := Cells.getElem?_update_cases hop
    by_cases hij : i = j
    · subst hij
      rw [if_pos rfl]
      exact (hs.ops i old hold).moves hs.net (moves_of_advance hadvance)
    · rw [if_neg hij]
      exact (hs.ops i before hbefore).later hrun

/-- It holds in every reachable state. -/
theorem inv_of_run
    (hrun : run (step nuraft cluster) (start types groups) labels = some s) :
    Inv nuraft cluster groups s := by
  refine run_invariant (I := Inv nuraft cluster groups)
    (fun _ _ _ hs hstep => hs.step hstep) ?_ hrun
  refine ⟨Network.inv_start, fun i op hop => ?_⟩
  simp [start] at hop

/-- The position of the caller's buffer is not part of the content of a message. -/
theorem sameContent_createMessage {req : ReqMsg} {payload payload' : Payload} {addr : PeerId}
    (hpayload : payload' = payload ∨ payload' = payload.rewind)
    (hsame : req.SameContent (createMessage nuraft cluster.text payload' addr)) :
    req.SameContent (createMessage nuraft cluster.text payload addr) := by
  rcases hpayload with rfl | rfl
  · exact hsame
  · cases payload with
    | addServer srvId => exact hsame
    | removeServer srvId => exact hsame
    | appendEntry buf =>
      refine ⟨hsame.base, hsame.lastLogTerm, hsame.lastLogIdx, hsame.commitIdx, ?_⟩
      obtain ⟨entry, rest, hentry, hrest, hentries⟩ :=
        List.forall₂_cons_right_iff.mp hsame.logEntries
      rw [hentries]
      exact .cons ⟨hentry.term, hentry.valType, hentry.timestamp, hentry.bytes⟩ hrest

/-- In a step of the network node `n` handles message `k` and answers `resp`. -/
def AnsweredBy (k n : ℕ) (g : GroupId) (req : ReqMsg) (resp : RespMsg) (leader : Option String)
    (s : State) : Label → Prop
  | .net l => Answers k n g req resp leader s.net l
  | _ => False

/-- Whatever a thread has replied was the answer of `process_req` in a step of the network. -/
theorem exists_processes {msg : Proto.RaftGroupMsg} {n t server : ℕ} {g : GroupId} {req : ReqMsg}
    {reply : Reply} (hrun : run (step nuraft cluster) (start types groups) labels = some s)
    (hdone : (s.net.machines n).manager.threads t =
      .done (.processed msg g server req reply)) :
    ∃ front l back mid around pool, labels = front ++ .net l :: back ∧
      run (step nuraft cluster) (start types groups) front = some mid ∧
      (mid.net.machines n).manager.threads t = .stepTask msg g server pool ∧
      l = .manager n (.thread t (.go around)) ∧
      executeStep around.beyond msg around.answer = some (req, reply) ∧
      ∃ (k : ℕ) (old rpc : Rpc), mid.net.rpcs[k]? = some old ∧ old.arrival = some (n, t) ∧
        old.message = msg ∧ s.net.rpcs[k]? = some rpc ∧ rpc.arrival = some (n, t) := by
  obtain ⟨front, l, back, mid, mid', rfl, hfront, hstep, hbefore, hafter⟩ :=
    exists_moment (Q := fun s => (s.net.machines n).manager.threads t =
      .done (.processed msg g server req reply)) Manager.Pc.noConfusion hdone hrun
  have hback : run (step nuraft cluster) mid (l :: back) = some s := by
    rw [run_append, hfront] at hrun
    exact hrun
  cases l with
  | net l =>
    simp only [step] at hstep
    split at hstep
    · cases hstep
    obtain ⟨net, hnet, rfl⟩ := Option.map_eq_some_iff.mp hstep
    obtain ⟨k, old, pool, around, hold, harrival, hmessage, hthread, rfl, hexecute⟩ :=
      (inv_of_run hfront).net.processes hnet hbefore hafter
    obtain ⟨ks, hlater⟩ := (projects_net nuraft cluster).run hback
    obtain ⟨rpc, hrpc, hbecomes⟩ := exists_rpc_of_run hlater hold
    exact ⟨front, _, back, mid, around, pool, rfl, hfront, hthread, rfl, hexecute, k, old, rpc,
      hold, harrival, hmessage, hrpc, hbecomes.arrival _ harrival⟩
  | begin n f operation destCfg =>
    cases hstep
    exact absurd hafter hbefore
  | move i m =>
    obtain ⟨op, -, hstep⟩ := Option.bind_eq_some_iff.mp hstep
    obtain ⟨⟨net, op'⟩, hadvance, rfl⟩ := Option.map_eq_some_iff.mp hstep
    have hsame : (net.machines n).manager = (mid.net.machines n).manager :=
      (moves_of_advance hadvance).manager n
    rw [show (net.machines n).manager.threads t = (mid.net.machines n).manager.threads t by
      rw [hsame]] at hafter
    exact absurd hafter hbefore

/-- A response to a message of an operation is the answer of the server of the group, on the
node with the endpoint that the message was sent to, to a request with the operation's
payload. -/
theorem Sound.answered {hop : ℕ × String} (hs : Sound nuraft cluster groups s.net op)
    (hrun : run (step nuraft cluster) (start types groups) labels = some s)
    (hhop : hop ∈ op.hops) (hresponded : Responded s.net hop.1 rsp) :
    ∃ n req resp leader beyond,
      cluster.text.stringGenerator hop.2 = some (cluster.node n).serviceAddress ∧
      Occurs (step nuraft cluster)
        (AnsweredBy hop.1 n (groups op.node op.factory).1 req resp leader) (start types groups)
        labels ∧
      req.SameContent (createMessage nuraft cluster.text op.operation.payload
        op.operation.newSrvAddr) ∧
      Network.Conveys rsp resp ∧ toResponse (stepReply beyond resp leader) = some rsp := by
  obtain ⟨ks, hnet⟩ := (projects_net nuraft cluster).run hrun
  obtain ⟨rpc, hrpc, hcompletion⟩ := hresponded
  obtain ⟨n, t, g, server, req, reply, harrival, hdone, haddr, hgroup, hsame, hok, hdecode⟩ :=
    processed_of_completed hnet hrpc hcompletion rfl
  obtain ⟨front, l, back, mid, around, pool, rfl, hfront, hthread, rfl, hexecute, k, old, later,
    hold, harrival₀, hmessage, hlater, harrival₁⟩ := exists_processes hrun hdone
  obtain rfl : k = hop.1 :=
    (inv_of_run hrun).net.sole k hop.1 later rpc (n, t) hlater hrpc harrival₁ harrival
  obtain ⟨resp, leader, hanswer, hmsg⟩ := answered_of_executeStep hexecute hok
  rw [hmsg] at hdecode
  rw [← hmessage] at hexecute hthread
  have hoccurs : Occurs (step nuraft cluster) (AnsweredBy hop.1 n g req resp leader)
      (start types groups) (front ++ .net (.manager n (.thread t (.go around))) :: back) :=
    ⟨front, _, back, mid, rfl, hfront, old, t, server, pool, around, reply, hold, harrival₀,
      hthread, rfl, hanswer, hexecute⟩
  obtain ⟨rpc', p, payload, hrpc', hparse, ⟨hclient, hgroup', -⟩, hpayload, hrequest⟩ :=
    hs.posted hop hhop
  obtain rfl := Option.some.inj (hrpc.symm.trans hrpc')
  have hpeer : p = (cluster.node n).serviceAddress := by
    have hread := cluster.text.read_print p
    rw [← hclient, haddr, cluster.text.read_print] at hread
    exact (Option.some.inj hread).symm
  have hown : g = (groups op.node op.factory).1 := hgroup.symm.trans hgroup'
  subst hpeer hown
  rw [hrequest] at hsame
  exact ⟨n, req, resp, leader, around.beyond, hparse, hoccurs,
    sameContent_createMessage hpayload hsame, conveys_stepReply hdecode, hdecode⟩

/-- The refusal of a server that follows server 2. -/
def notLeader : RespMsg :=
  { Network.voteResponse with accepted := false, dst := 2, resultCode := .notLeader }

/-- The nodes 1 and 2 create group 1. -/
def groupOnTwoNodes : List Label :=
  [1, 2].flatMap fun n =>
    .net (.manager n (.thread 0 (.call (.createGroup 1 "raft")))) ::
      List.replicate 6 (.net (.manager n (.thread 0 (.go { created := .stateMgr 10 }))))

/-- An operation of node 0 gets a client and sends message `k`, which node `n` handles. -/
def sendTo (k n : ℕ) (answer : Answer) : List Label :=
  [.move 0 (.ask Factory.connected), .move 0 .get, .move 0 (.send fun _ => 0),
    .net (.arrive k n (k + 1)), .net (.manager n (.thread (k + 1) (.go {}))),
    .net (.manager n (.thread (k + 1) (.go {}))),
    .net (.manager n (.thread (k + 1) (.go { answer := answer }))), .net (.reply k)]

/-- An entry is sent to node 1, which refuses it in favour of node 2. -/
def appendedByLeader : List Label :=
  groupOnTwoNodes ++
  [.begin 0 0 (.appendEntry (Buffer.ofBytes [7])) ⟨1, canonicalText.toString 1⟩] ++
  sendTo 0 1 (.resp notLeader (some (canonicalText.toString 2))) ++
  [.move 0 .future, .move 0 .handle] ++
  sendTo 1 2 (.resp Network.voteResponse none) ++ [.move 0 .handle]

set_option maxRecDepth 4096 in
/-- The run in which the second node appends: the first hop names it, the second one
succeeds. -/
theorem exists_run_appendedByLeader :
    ∃ (s : State) (op : Ongoing) (r : ℕ),
      run (step Call.bareSerializer Network.sampleCluster)
        (start (fun _ => ["raft"]) fun _ _ => (1, "raft")) appendedByLeader = some s ∧
      s.ops[0]? = some op ∧ op.call.future = some r ∧ op.call.store.get r = .value (.ok ()) ∧
      op.hops = [(0, canonicalText.toString 1), (1, canonicalText.toString 2)] :=
  ⟨_, _, _, rfl, rfl, rfl, rfl, rfl⟩

/-- In every run of every network with operations: the first message of an operation goes to the
endpoint that it was begun with, and for every later one the run has a step in which the node that
got the message before refuses it with `NOT_LEADER`; the later message goes to the endpoint that
this node has in its configuration for the leader that it names. -/
theorem operations_follow_leaders (nuraft : Serializer) (cluster : Network.Cluster)
    (types : ℕ → List GroupType) (groups : ℕ → ℕ → GroupId × GroupType) (labels : List Label)
    (s : State) (hempty : cluster.text.stringGenerator "" = none)
    (hrun : run (step nuraft cluster) (start types groups) labels = some s) (i : ℕ)
    (op : Ongoing) (hop : s.ops[i]? = some op) :
    (∀ hop ∈ op.hops.head?, hop.2 = op.destCfg.endpoint) ∧
    op.hops.IsChain fun earlier later => ∃ n req resp,
      cluster.text.stringGenerator earlier.2 = some (cluster.node n).serviceAddress ∧
      Occurs (step nuraft cluster)
        (AnsweredBy earlier.1 n (groups op.node op.factory).1 req resp (some later.2))
        (start types groups) labels ∧
      resp.accepted = false ∧ resp.resultCode = .notLeader := by
  have hs := (inv_of_run hrun).ops i op hop
  refine ⟨hs.first, hs.chain.imp_of_mem_imp ?_⟩
  rintro ⟨k, endpoint⟩ ⟨k', endpoint'⟩ hearlier hlater ⟨rsp, hresponded, hrefused, hdest⟩
  obtain ⟨n, req, resp, leader, beyond, hparse, hanswered, -, hconveys, hdecode⟩ :=
    hs.answered hrun hearlier hresponded
  have hresp : resp.accepted = false := hconveys.accepted.symm.trans hrefused
  have hreceived : Call.received beyond (fun _ => leader) resp = some rsp := hdecode
  obtain ⟨-, -, -, haddr⟩ := Call.received_eq_some hreceived
  -- the later message found a client, so the refusal had an endpoint
  obtain ⟨rpc, p, payload, -, hparse', -⟩ := hs.posted (k', endpoint') hlater
  have hnonempty : endpoint' ≠ "" := by
    intro h
    rw [h, hempty] at hparse'
    cases hparse'
  have hendpoint : endpoint' = if resp.resultCode = .notLeader then leader.getD "" else "" :=
    hdest.trans (haddr hresp)
  by_cases hcode : resp.resultCode = .notLeader
  · rw [if_pos hcode] at hendpoint
    cases leader with
    | none => exact absurd hendpoint hnonempty
    | some leader =>
      obtain rfl : endpoint' = leader := hendpoint
      exact ⟨n, req, resp, hparse, hanswered, hresp, hcode⟩
  · rw [if_neg hcode] at hendpoint
    exact absurd hendpoint hnonempty

/-- The second message went to the leader that node 1 knows. -/
theorem leader_followed_in_appendedByLeader :
    ∃ (s : State) (op : Ongoing) (n : ℕ) (req : ReqMsg) (resp : RespMsg),
      run (step Call.bareSerializer Network.sampleCluster)
        (start (fun _ => ["raft"]) fun _ _ => (1, "raft")) appendedByLeader = some s ∧
      s.ops[0]? = some op ∧
      op.hops = [(0, canonicalText.toString 1), (1, canonicalText.toString 2)] ∧
      Occurs (step Call.bareSerializer Network.sampleCluster)
        (AnsweredBy 0 n 1 req resp (some (canonicalText.toString 2)))
        (start (fun _ => ["raft"]) fun _ _ => (1, "raft")) appendedByLeader ∧
      resp.resultCode = .notLeader := by
  obtain ⟨s, op, r, hrun, hop, -, -, hhops⟩ := exists_run_appendedByLeader
  obtain ⟨-, hchain⟩ := operations_follow_leaders Call.bareSerializer Network.sampleCluster _ _ _ s
    (by decide) hrun 0 op hop
  rw [hhops, List.isChain_cons_cons] at hchain
  obtain ⟨⟨n, req, resp, -, hanswered, -, hcode⟩, -⟩ := hchain
  exact ⟨s, op, n, req, resp, hrun, hop, hhops, hanswered, hcode⟩

end NuraftMesg.Network.Operations
