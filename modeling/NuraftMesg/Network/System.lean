import NuraftMesg.Base.Refinement
import NuraftMesg.Delivery

/-!
# A network of nodes

Nodes send Raft messages to each other over the wrappers of their factories. A message
is put into its envelope by the wrapper, arrives at any node whatsoever, is handled
there by a thread of its own, and completes at the sender with the reply of that thread
or with an error of gRPC, which may also give up on a message that is still handled.
Everything else that the nodes do goes on in between.
-/

namespace NuraftMesg.Network

open Proto

/-- What the completion handler of a Raft message is called with. -/
structure Completion where
  resp : Option GrpcResp
  /-- The text of the `rpc_exception`. -/
  err : Option String
  deriving DecidableEq

/-- The lambda in `grpc_base_client::send` that runs when the RPC has ended. -/
def complete (status : Status) (response : RaftMessage) : Completion :=
  if status.code = .ok then
    match toResponse response with
    | some resp => ⟨some resp, none⟩
    | none => ⟨none, some "missing response"⟩
  else ⟨none, some status.message⟩

/-- A Raft message that was sent. -/
structure Rpc where
  /-- The node whose wrapper sent it. -/
  sender : ℕ
  /-- The wrapper at that time. -/
  wrapper : Factory.Wrapper
  /-- The transport that the wrapper sent it over. -/
  transport : ℕ
  request : ReqMsg
  /-- What went over the wire. -/
  message : RaftGroupMsg
  /-- The node and the thread that it was delivered to. -/
  arrival : Option (ℕ × ℕ)
  completion : Option Completion

/-- A node together with its clients. -/
structure Machine where
  manager : Manager.Config
  factories : Factory.State

/-- All nodes, and all messages that were ever sent. -/
structure State where
  machines : ℕ → Machine
  rpcs : List Rpc

/-- The nodes of a network, which convert UUIDs in the same way. -/
structure Cluster where
  node : ℕ → Node
  text : UuidText
  text_eq : ∀ n, (node n).text = text

/-- Nodes whose addresses are their numbers. -/
def sampleCluster : Cluster where
  node n :=
    { serviceAddress := BitVec.ofNat 128 n, defaultGroupType := "raft", text := canonicalText }
  text := canonicalText
  text_eq _ := rfl

/-- All nodes have just started; `groups n` are the factories of node `n`. -/
def start (types : ℕ → List GroupType) (groups : ℕ → ℕ → GroupId × GroupType) : State where
  machines n := ⟨Manager.start (types n), .init (groups n)⟩
  rpcs := []

inductive Label where
  /-- A node does something else than receive a message. -/
  | manager (n : ℕ) (l : Manager.Label)
  /-- The clients of a node do something else than send or complete a Raft message. -/
  | factory (n : ℕ) (l : Factory.Label)
  /-- `grpc_base_client::send` on a wrapper of the node; `beyond` is the memory after the
  buffers of the request. -/
  | send (n w : ℕ) (request : ReqMsg) (beyond : ℕ → UInt8)
  /-- A message comes to a node, on an idle thread. -/
  | arrive (k n t : ℕ)
  /-- The reply of the thread comes to the sender. -/
  | reply (k : ℕ)
  /-- gRPC ends the call by itself. -/
  | fail (k : ℕ) (status : Status)

/-- The label of a node on which a message is received. -/
def receives : Manager.Label → Bool
  | .thread _ (.call (.raftStep _)) => true
  | _ => false

/-- The labels of the factories that belong to Raft messages. -/
def carries : Factory.Label → Bool
  | .sendRaft _ | .raftDone _ _ => true
  | _ => false

/-- The reply that a thread has sent. -/
def replyOf : Manager.Pc → Option Reply
  | .done (.answered _ reply) | .done (.processed _ _ _ _ reply) => some reply
  | _ => none

namespace State

variable (s : State)

def setManager (n : ℕ) (c : Manager.Config) : State :=
  { s with machines := Function.update s.machines n { s.machines n with manager := c } }

def setFactories (n : ℕ) (x : Factory.State) : State :=
  { s with machines := Function.update s.machines n { s.machines n with factories := x } }

def updateRpc (k : ℕ) (f : Rpc → Rpc) : State := { s with rpcs := s.rpcs.modify k f }

/-- The completion of a message at its sender, once. -/
def finish (text : UuidText) (k : ℕ) (rpc : Rpc) (status : Status) (response : RaftMessage) :
    Option State :=
  if rpc.completion.isSome then none
  else (Factory.step text (s.machines rpc.sender).factories
      (.raftDone rpc.transport status.code)).map fun x =>
    (s.setFactories rpc.sender x).updateRpc k fun rpc =>
      { rpc with completion := some (complete status response) }

end State

/-- One step of the network. -/
def step (cluster : Cluster) (s : State) : Label → Option State
  | .manager n l =>
    if receives l then none
    else (Manager.step (cluster.node n) (s.machines n).manager l).map (s.setManager n)
  | .factory n l =>
    if carries l then none
    else (Factory.step cluster.text (s.machines n).factories l).map (s.setFactories n)
  | .send n w request beyond => do
    let wrapper ← (s.machines n).factories.heap.wrappers[w]?
    let transport ← wrapper.client
    let x ← Factory.step cluster.text (s.machines n).factories (.sendRaft w)
    let message := wrapper.groupMsg cluster.text (requestMessage beyond request)
    some { s.setFactories n x with
      rpcs := s.rpcs ++ [⟨n, wrapper, transport, request, message, none, none⟩] }
  | .arrive k n t => do
    let rpc ← s.rpcs[k]?
    if rpc.arrival.isSome then none
    else (Manager.step (cluster.node n) (s.machines n).manager
        (.thread t (.call (.raftStep rpc.message)))).map fun c =>
      (s.setManager n c).updateRpc k fun rpc => { rpc with arrival := some (n, t) }
  | .reply k => do
    let rpc ← s.rpcs[k]?
    let (n, t) ← rpc.arrival
    let reply ← replyOf ((s.machines n).manager.threads t)
    s.finish cluster.text k rpc reply.status reply.msg
  | .fail k status => do
    let rpc ← s.rpcs[k]?
    if status.code = .ok then none else s.finish cluster.text k rpc status ⟨none, none⟩

/-! ## The steps as rules -/

/-- The ways in which the network can go on. -/
inductive Takes (cluster : Cluster) (s : State) : Label → State → Prop
  | manager (n : ℕ) (l : Manager.Label) (c : Manager.Config) (hlocal : receives l = false)
      (hstep : Manager.step (cluster.node n) (s.machines n).manager l = some c) :
      Takes cluster s (.manager n l) (s.setManager n c)
  | factory (n : ℕ) (l : Factory.Label) (x : Factory.State)
      (hstep : Factory.step cluster.text (s.machines n).factories l = some x) :
      Takes cluster s (.factory n l) (s.setFactories n x)
  | send (n w : ℕ) (request : ReqMsg) (beyond : ℕ → UInt8) (wrapper : Factory.Wrapper)
      (transport : ℕ) (x : Factory.State)
      (hwrapper : (s.machines n).factories.heap.wrappers[w]? = some wrapper)
      (hstep : Factory.step cluster.text (s.machines n).factories (.sendRaft w) = some x) :
      Takes cluster s (.send n w request beyond) { s.setFactories n x with
        rpcs := s.rpcs ++ [⟨n, wrapper, transport, request,
          wrapper.groupMsg cluster.text (requestMessage beyond request), none, none⟩] }
  | arrive (k n t : ℕ) (rpc : Rpc) (c : Manager.Config) (hrpc : s.rpcs[k]? = some rpc)
      (hnew : rpc.arrival = none)
      (hstep : Manager.step (cluster.node n) (s.machines n).manager
        (.thread t (.call (.raftStep rpc.message))) = some c) :
      Takes cluster s (.arrive k n t) ((s.setManager n c).updateRpc k fun rpc =>
        { rpc with arrival := some (n, t) })
  | reply (k n t : ℕ) (rpc : Rpc) (reply : Reply) (x : Factory.State)
      (hrpc : s.rpcs[k]? = some rpc) (harrival : rpc.arrival = some (n, t))
      (hreply : replyOf ((s.machines n).manager.threads t) = some reply)
      (hstep : Factory.step cluster.text (s.machines rpc.sender).factories
        (.raftDone rpc.transport reply.status.code) = some x) (hopen : rpc.completion = none) :
      Takes cluster s (.reply k) ((s.setFactories rpc.sender x).updateRpc k fun rpc =>
        { rpc with completion := some (complete reply.status reply.msg) })
  | fail (k : ℕ) (status : Status) (rpc : Rpc) (x : Factory.State)
      (hrpc : s.rpcs[k]? = some rpc) (hfailed : status.code ≠ .ok)
      (hstep : Factory.step cluster.text (s.machines rpc.sender).factories
        (.raftDone rpc.transport status.code) = some x) (hopen : rpc.completion = none) :
      Takes cluster s (.fail k status) ((s.setFactories rpc.sender x).updateRpc k fun rpc =>
        { rpc with completion := some (complete status ⟨none, none⟩) })

variable {cluster : Cluster} {s s' : State} {l : Label} {n k : ℕ}

/-- The end of a call: the factory of the sender counts a bad answer, and the completion is set
once. -/
theorem finish_eq_some {text : UuidText} {rpc : Rpc} {status : Status} {response : RaftMessage}
    (hfinish : s.finish text k rpc status response = some s') :
    ∃ x, Factory.step text (s.machines rpc.sender).factories
        (.raftDone rpc.transport status.code) = some x ∧ rpc.completion = none ∧
      s' = (s.setFactories rpc.sender x).updateRpc k fun rpc =>
        { rpc with completion := some (complete status response) } := by
  unfold State.finish at hfinish
  split at hfinish
  · cases hfinish
  · next hopen =>
    obtain ⟨x, hx, rfl⟩ := Option.map_eq_some_iff.mp hfinish
    exact ⟨x, hx, Option.not_isSome_iff_eq_none.mp hopen, rfl⟩

/-- Every step of the network is an instance of a rule. -/
theorem takes_of_step (hstep : step cluster s l = some s') : Takes cluster s l s' := by
  cases l with
  | manager n l =>
    simp only [step] at hstep
    split at hstep
    · cases hstep
    next hlocal =>
    obtain ⟨c, hc, rfl⟩ := Option.map_eq_some_iff.mp hstep
    exact .manager n l c (Bool.not_eq_true _ ▸ hlocal) hc
  | factory n l =>
    simp only [step] at hstep
    split at hstep
    · cases hstep
    obtain ⟨x, hx, rfl⟩ := Option.map_eq_some_iff.mp hstep
    exact .factory n l x hx
  | send n w request beyond =>
    obtain ⟨wrapper, hwrapper, hstep⟩ := Option.bind_eq_some_iff.mp hstep
    obtain ⟨transport, -, hstep⟩ := Option.bind_eq_some_iff.mp hstep
    obtain ⟨x, hx, hstep⟩ := Option.bind_eq_some_iff.mp hstep
    cases hstep
    exact .send n w request beyond wrapper transport x hwrapper hx
  | arrive k n t =>
    obtain ⟨rpc, hrpc, hstep⟩ := Option.bind_eq_some_iff.mp hstep
    split at hstep
    · cases hstep
    next hnew =>
    obtain ⟨c, hc, rfl⟩ := Option.map_eq_some_iff.mp hstep
    exact .arrive k n t rpc c hrpc (Option.not_isSome_iff_eq_none.mp hnew) hc
  | reply k =>
    obtain ⟨rpc, hrpc, hstep⟩ := Option.bind_eq_some_iff.mp hstep
    obtain ⟨⟨n, t⟩, harrival, hstep⟩ := Option.bind_eq_some_iff.mp hstep
    obtain ⟨reply, hreply, hstep⟩ := Option.bind_eq_some_iff.mp hstep
    obtain ⟨x, hx, hopen, rfl⟩ := finish_eq_some hstep
    exact .reply k n t rpc reply x hrpc harrival hreply hx hopen
  | fail k status =>
    obtain ⟨rpc, hrpc, hstep⟩ := Option.bind_eq_some_iff.mp hstep
    split at hstep
    · cases hstep
    next hfailed =>
    obtain ⟨x, hx, hopen, rfl⟩ := finish_eq_some hstep
    exact .fail k status rpc x hrpc hfailed hx hopen

/-! ## What the steps change -/

/-- A call is no part of a machine. -/
@[simp] theorem machines_updateRpc (f : Rpc → Rpc) : (s.updateRpc k f).machines = s.machines := rfl

/-- The manager of the machine that moves is written, the others are kept. -/
theorem manager_setManager (c : Manager.Config) (n' : ℕ) :
    ((s.setManager n c).machines n').manager =
      if n' = n then c else (s.machines n').manager := by
  by_cases hn : n' = n
  · subst hn
    simp [State.setManager]
  · simp [State.setManager, hn]

/-- The factories are not touched by a manager. -/
theorem factories_setManager (c : Manager.Config) (n' : ℕ) :
    ((s.setManager n c).machines n').factories = (s.machines n').factories := by
  by_cases hn : n' = n
  · subst hn
    simp [State.setManager]
  · simp [State.setManager, hn]

/-- The managers are not touched by the factories. -/
theorem manager_setFactories (x : Factory.State) (n' : ℕ) :
    ((s.setFactories n x).machines n').manager = (s.machines n').manager := by
  by_cases hn : n' = n
  · subst hn
    simp [State.setFactories]
  · simp [State.setFactories, hn]

/-- The factories of the machine that moves are written, the others are kept. -/
theorem factories_setFactories (x : Factory.State) (n' : ℕ) :
    ((s.setFactories n x).machines n').factories =
      if n' = n then x else (s.machines n').factories := by
  by_cases hn : n' = n
  · subst hn
    simp [State.setFactories]
  · simp [State.setFactories, hn]

/-- The registries and threads of a node go through a run of that node. -/
theorem projects_manager (cluster : Cluster) (n : ℕ) :
    Refinement.Projects (step cluster) (Manager.step (cluster.node n))
      fun s => (s.machines n).manager := by
  intro s l s' hstep
  have hset : ∀ n' c l', Manager.step (cluster.node n') (s.machines n').manager l' = some c →
      ∃ ks, Transition.run (Manager.step (cluster.node n)) (s.machines n).manager ks =
        some ((s.setManager n' c).machines n).manager := by
    intro n' c l' hc
    rw [manager_setManager]
    by_cases hn : n = n'
    · subst hn
      rw [if_pos rfl]
      exact Refinement.exists_run_of_step hc
    · rw [if_neg hn]
      exact Refinement.exists_run_of_eq rfl
  cases takes_of_step hstep with
  | manager n' l c hlocal hc => exact hset n' c l hc
  | arrive k n' t rpc c hrpc hnew hc => exact hset n' c _ hc
  | factory | send | reply | fail => exact Refinement.exists_run_of_eq (manager_setFactories ..)

/-- The clients of a node go through a run of their own. -/
theorem projects_factories (cluster : Cluster) (n : ℕ) :
    Refinement.Projects (step cluster) (Factory.step cluster.text)
      fun s => (s.machines n).factories := by
  intro s l s' hstep
  have hset : ∀ n' x l', Factory.step cluster.text (s.machines n').factories l' = some x →
      ∃ ks, Transition.run (Factory.step cluster.text) (s.machines n).factories ks =
        some ((s.setFactories n' x).machines n).factories := by
    intro n' x l' hx
    rw [factories_setFactories]
    by_cases hn : n = n'
    · subst hn
      rw [if_pos rfl]
      exact Refinement.exists_run_of_step hx
    · rw [if_neg hn]
      exact Refinement.exists_run_of_eq rfl
  cases takes_of_step hstep with
  | manager | arrive => exact Refinement.exists_run_of_eq (factories_setManager ..)
  | factory n' l x hx => exact hset n' x l hx
  | send n' w request beyond wrapper transport x hwrapper hx => exact hset n' x _ hx
  | reply k n' t rpc reply x hrpc harrival hreply hx => exact hset rpc.sender x _ hx
  | fail k status rpc x hrpc hfailed hx => exact hset rpc.sender x _ hx

end NuraftMesg.Network
