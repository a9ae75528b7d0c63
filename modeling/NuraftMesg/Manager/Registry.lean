import NuraftMesg.Base.Cells
import NuraftMesg.Base.PartialMap
import NuraftMesg.Common

/-!
# The registries of a node

`ManagerImpl` keeps the state managers and the leadership flags under
`_manager_lock`; `msg_service` keeps the Raft servers in a concurrent map. This
file has the state of both and one function for each critical section and each
operation of the concurrent map: these are the atomic steps of everything the
node does with its groups.
-/

namespace NuraftMesg

/-- The identity of a `mesg_state_mgr` object. -/
abbrev StateMgrId := ℕ

/-- A `nuraft::raft_server` that `joinRaftGroup` built, together with its
context. -/
structure RaftServer where
  /-- `ctx->state_mgr_`. -/
  stateMgr : StateMgrId
  /-- The context still refers to its `msg_group_listner`. -/
  listener : Bool
  /-- The thread whose `joinRaftGroup` frame still holds the server and the
  listener in its locals. -/
  frame : Option ℕ
  deriving DecidableEq

/-- The registries of a node and the objects in them. -/
structure Registry where
  /-- The keys of `_state_mgr_types`. -/
  stateMgrTypes : List GroupType
  /-- `_state_managers`; an entry can be a null pointer. -/
  stateManagers : PartialMap GroupId (Option StateMgrId)
  /-- `_is_leader`. -/
  isLeader : PartialMap GroupId Bool
  /-- `_raft_servers`; a server is named by its place in the group's `servers`. -/
  raftServers : PartialMap GroupId ℕ
  /-- All servers ever built for a group, oldest first. -/
  servers : GroupId → List RaftServer
  /-- The state managers on which `permanent_destroy` was called. -/
  destroyed : List StateMgrId

/-- A node that has just started. -/
def Registry.init (types : List GroupType) : Registry where
  stateMgrTypes := types
  stateManagers _ := none
  isLeader _ := none
  raftServers _ := none
  servers _ := []
  destroyed := []

/-- What the application's `create_state_mgr` came back with. -/
inductive Created where
  | stateMgr (id : StateMgrId)
  | null
  | throws
  deriving DecidableEq

/-- How the construction of a `nuraft::raft_server` ended. -/
inductive Construction where
  | completed
  /-- An exception. A context that the server owned by then is destroyed with it; one that
  it did not own yet is lost, and its listener stays alive. -/
  | threw (owned : Bool)
  deriving DecidableEq

/-- How a call of `group_init` ended. -/
inductive InitResult where
  /-- An error code, before anything was changed. -/
  | refused (code : CmdResultCode)
  /-- `OK`, with a complete context that holds the state manager. -/
  | context (r : Registry) (stateMgr : StateMgrId)
  /-- An exception of the application's code. -/
  | threw (r : Registry)
  /-- The state manager is null and `become_ready` is called on it. -/
  | nullDereference

/-- A call of `group_init`. -/
structure GroupInit where
  /-- `create_state_mgr` was invoked. -/
  invoked : Bool
  result : InitResult

/-- The events that reach `generic_raft_event_handler`. -/
inductive RaftEvent where
  | removedFromCluster
  | joinedCluster (leaderId myId : Int32)
  | newConfig
  | becomeLeader
  | becomeFollower
  | saveSnapshot
  | followerLost
  | other
  deriving DecidableEq

/-- What an event says about this node leading its group, if anything. -/
def RaftEvent.leads : RaftEvent → Option Bool
  | .joinedCluster leaderId myId => some (leaderId = myId)
  | .becomeLeader => some true
  | .becomeFollower => some false
  | _ => none

namespace Registry

/-! ## Critical sections of the manager -/

/-- `register_mgr_type`. -/
def registerMgrType (r : Registry) (ty : GroupType) : Registry :=
  { r with
    stateMgrTypes := if ty ∈ r.stateMgrTypes then r.stateMgrTypes else ty :: r.stateMgrTypes }

/-- `generic_raft_event_handler`. `RemovedFromCluster` calls the state manager's
`leave`, which is the application's code. -/
def genericRaftEventHandler (r : Registry) (g : GroupId) (event : RaftEvent) : Registry :=
  match event.leads with
  | some leads => { r with isLeader := r.isLeader.assign g leads }
  | none => r

/-- The first section of `create_group`. -/
def insertLeader (r : Registry) (g : GroupId) : Registry :=
  { r with isLeader := r.isLeader.emplace g false }

/-- `_is_leader[g]`, which inserts `false` for an absent group. -/
def readLeader (r : Registry) (g : GroupId) : Registry × Bool :=
  (r.insertLeader g, (r.isLeader g).getD false)

/-- The first section of `join_group`. -/
def emplaceManager (r : Registry) (g : GroupId) (stateMgr : Option StateMgrId) : Registry :=
  { r with stateManagers := r.stateManagers.emplace g stateMgr }

/-- The section in which `join_group` undoes a failed join. -/
def eraseManager (r : Registry) (g : GroupId) : Registry :=
  { r with stateManagers := r.stateManagers.erase g }

/-- The last section of `leave_group`; calling `permanent_destroy` on a null
pointer has no behaviour. -/
def destroyManager (r : Registry) (g : GroupId) : Option Registry :=
  match r.stateManagers g with
  | none => some r
  | some none => none
  | some (some stateMgr) =>
    some { r.eraseManager g with destroyed := r.destroyed ++ [stateMgr] }

/-- `become_ready`, `get_state_machine` and `set_manager_impl` on the state manager of the
group; all three are the application's code, and the entry stays when one of them throws. -/
def prepare (r : Registry) (stateMgr : StateMgrId) (ready : Bool) : InitResult :=
  if ready then .context r stateMgr else .threw r

/-- `group_init`. The insertion of the null pointer stays when `create_state_mgr` throws. -/
def groupInit (r : Registry) (g : GroupId) (ty : GroupType) (created : Created) (ready : Bool) :
    GroupInit :=
  if ty ∈ r.stateMgrTypes then
    match r.stateManagers g with
    | some (some stateMgr) => ⟨false, r.prepare stateMgr ready⟩
    | some none => ⟨false, .nullDereference⟩
    | none =>
      match created with
      | .stateMgr stateMgr => ⟨true, (r.emplaceManager g (some stateMgr)).prepare stateMgr ready⟩
      | .null => ⟨true, .nullDereference⟩
      | .throws => ⟨true, .threw (r.emplaceManager g none)⟩
  else ⟨false, .refused .serverNotFound⟩

/-- The construction of the server in `joinRaftGroup` on thread `t`, from a context that
has got its listener. -/
def buildServer (r : Registry) (t : ℕ) (g : GroupId) (stateMgr : StateMgrId) : Registry :=
  { r with
    servers := Function.update r.servers g
      (r.servers g ++ [{ stateMgr := stateMgr, listener := true, frame := some t }]) }

/-! ## Operations on the map of servers -/

/-- `_raft_servers.try_emplace`. -/
def tryEmplace (r : Registry) (g : GroupId) (server : ℕ) : Registry × Bool :=
  ({ r with raftServers := r.raftServers.emplace g server }, (r.raftServers g).isNone)

/-- `_raft_servers.erase`. -/
def eraseServer (r : Registry) (g : GroupId) : Registry :=
  { r with raftServers := r.raftServers.erase g }

/-- Change one server of a group. -/
def updateServer (r : Registry) (g : GroupId) (server : ℕ) (f : RaftServer → RaftServer) :
    Registry :=
  { r with servers := Function.update r.servers g ((r.servers g).modify server f) }

/-- The frame of `joinRaftGroup` ends: its locals `server` and `new_listner` are
destroyed, in this order. A server that was not inserted dies with its context.
The second component tells whether the listener dies, too. -/
def endFrame (r : Registry) (g : GroupId) (server : ℕ) (inserted : Bool) : Registry × Bool :=
  (r.updateServer g server fun s => { s with listener := s.listener && inserted, frame := none },
    (r.servers g)[server]?.any fun s => !(s.listener && inserted))

/-- `raft_server::shutdown`: the context gives up its listener, which dies unless
a frame still holds it. -/
def shutdownServer (r : Registry) (g : GroupId) (server : ℕ) : Registry × Bool :=
  (r.updateServer g server fun s => { s with listener := false },
    (r.servers g)[server]?.any fun s => s.listener && s.frame.isNone)

/-- A server to which nothing refers any more. -/
def Unreferenced (r : Registry) (g : GroupId) (server : ℕ) : Prop :=
  (r.servers g)[server]?.any (fun s => s.frame.isNone) ∧ r.raftServers g ≠ some server

instance (r : Registry) (g : GroupId) (server : ℕ) : Decidable (r.Unreferenced g server) :=
  inferInstanceAs (Decidable (_ ∧ _))

/-! ## What the steps change -/

/-- The application is asked for a state manager exactly if the type is registered and the group
has no entry. -/
@[simp] theorem invoked_groupInit {r : Registry} {g : GroupId} {ty : GroupType} {created : Created}
    {ready : Bool} :
    (r.groupInit g ty created ready).invoked = true ↔
      ty ∈ r.stateMgrTypes ∧ r.stateManagers g = none := by
  unfold groupInit
  split
  · rcases r.stateManagers g with _ | _ | m
    · cases created <;> simp [*]
    · simp
    · simp
  · simp [*]

/-- The new server comes last. -/
@[simp] theorem servers_buildServer (r : Registry) (t : ℕ) (g : GroupId) (m : StateMgrId) :
    (r.buildServer t g m).servers g =
      r.servers g ++ [{ stateMgr := m, listener := true, frame := some t }] :=
  Function.update_self ..

/-- Building a server leaves the other groups alone. -/
theorem servers_buildServer_of_ne (r : Registry) (t : ℕ) (m : StateMgrId) {g g' : GroupId}
    (hne : g' ≠ g) : (r.buildServer t g m).servers g' = r.servers g' :=
  Function.update_of_ne hne ..

/-- The group's servers after a change to one of them. -/
@[simp] theorem servers_updateServer (r : Registry) (g : GroupId) (server : ℕ)
    (f : RaftServer → RaftServer) :
    (r.updateServer g server f).servers g = (r.servers g).modify server f :=
  Function.update_self ..

/-- Changing a server leaves the other groups alone. -/
theorem servers_updateServer_of_ne (r : Registry) (server : ℕ) (f : RaftServer → RaftServer)
    {g g' : GroupId} (hne : g' ≠ g) : (r.updateServer g server f).servers g' = r.servers g' :=
  Function.update_of_ne hne ..

/-- Building a server keeps the earlier ones where they are. -/
theorem getElem?_buildServer {r : Registry} {t i : ℕ} {g g' : GroupId} {m : StateMgrId}
    {s : RaftServer} (hs : (r.servers g')[i]? = some s) :
    ((r.buildServer t g m).servers g')[i]? = some s := by
  by_cases hne : g' = g
  · subst hne
    rw [servers_buildServer]
    exact Cells.getElem?_alloc hs
  · rwa [servers_buildServer_of_ne r t m hne]

/-- A server after a build is an earlier one or the one just built. -/
theorem getElem?_buildServer_eq_some {r : Registry} {t i : ℕ} {g : GroupId} {m : StateMgrId}
    {s : RaftServer} (hs : ((r.buildServer t g m).servers g)[i]? = some s) :
    (r.servers g)[i]? = some s ∨ i = (r.servers g).length ∧
      s = { stateMgr := m, listener := true, frame := some t } := by
  rw [servers_buildServer] at hs
  exact Cells.getElem?_alloc_cases hs

/-- Changing a server keeps all servers in their places. -/
theorem getElem?_updateServer {r : Registry} {i server : ℕ} {g g' : GroupId}
    {f : RaftServer → RaftServer} {s : RaftServer} (hs : (r.servers g)[i]? = some s)
    (hf : ∀ s, (f s).stateMgr = s.stateMgr) :
    ∃ s', ((r.updateServer g' server f).servers g)[i]? = some s' ∧ s'.stateMgr = s.stateMgr := by
  by_cases hg : g = g'
  · subst hg
    rw [servers_updateServer]
    refine ⟨_, Cells.getElem?_update hs, ?_⟩
    split
    · exact hf s
    · rfl
  · exact ⟨s, by rw [servers_updateServer_of_ne r server f hg, hs], rfl⟩

end Registry

end NuraftMesg
