import NuraftMesg.Base.Interleaving
import NuraftMesg.Manager.Registry
import NuraftMesg.Service.Step

/-!
# Threads working on the registries

Every public operation of the manager and every received message runs on a
thread of its own. A thread's program counter says which critical section or map
operation it executes next and which locals it needs for it; the steps of
different threads interleave arbitrarily. `Moves` states the step function as
rules, one for each way a thread can go on.
-/

namespace NuraftMesg.Manager

open Proto

/-- Who called `joinRaftGroup`. -/
inductive Caller where
  | createGroup
  | joinGroup
  | raftStep (msg : RaftGroupMsg)
  deriving DecidableEq

/-- What a thread's operation came to. -/
inductive Outcome where
  /-- `create_group` resolved to success. -/
  | created (g : GroupId)
  /-- `create_group` was refused by `joinRaftGroup`. -/
  | createRefused (g : GroupId) (code : CmdResultCode)
  /-- `create_group` joined and then waited in vain: `CANCELLED`. -/
  | createTimedOut (g : GroupId)
  /-- `join_group` succeeded. -/
  | joined (g : GroupId)
  /-- `join_group` was refused by `joinRaftGroup`. -/
  | joinRefused (g : GroupId) (code : CmdResultCode)
  /-- An exception of the application's code or of the server's constructor left the
  operation. -/
  | threw (g : GroupId)
  /-- `leave_group` returned. -/
  | left (g : GroupId)
  /-- `become_leader` resolved to success. -/
  | leads (g : GroupId)
  /-- `become_leader` resolved to an error. -/
  | becomeFailed (g : GroupId) (code : CmdResultCode)
  /-- `raftStep` answered by itself, without posting a task. -/
  | answered (msg : RaftGroupMsg) (reply : Reply)
  /-- The task called `process_req` on the server and sent the reply. -/
  | processed (msg : RaftGroupMsg) (g : GroupId) (server : ℕ) (req : ReqMsg) (reply : Reply)
  /-- The server was destroyed. -/
  | reaped (g : GroupId) (server : ℕ)

/-- Whose business continues when a `msg_group_listner` has been destroyed. -/
inductive Resume where
  | joinRaftGroup (caller : Caller)
  /-- The constructor of the server threw, and the exception leaves `joinRaftGroup`. -/
  | unwind
  | leaveGroup
  | reap (server : ℕ)

/-- The program counter of a thread. -/
inductive Pc where
  | idle
  /-- `create_group`: insert the leadership flag. -/
  | createInsert (g : GroupId) (ty : GroupType)
  /-- `join_group`: emplace the state manager. -/
  | joinEmplace (g : GroupId) (ty : GroupType) (stateMgr : Option StateMgrId)
  /-- `joinRaftGroup`: lock the weak pointer to the manager. -/
  | joinLock (caller : Caller) (g : GroupId) (ty : GroupType)
  /-- `joinRaftGroup`: the quick check for a duplicate. -/
  | joinFind (caller : Caller) (g : GroupId) (ty : GroupType)
  /-- `joinRaftGroup`: `group_init` and the construction of the server. -/
  | joinInit (caller : Caller) (g : GroupId) (ty : GroupType)
  /-- `joinRaftGroup`: `try_emplace`. -/
  | joinInsert (caller : Caller) (g : GroupId) (server : ℕ)
  /-- `joinRaftGroup`: return `OK`, destroying the locals. -/
  | joinReturn (caller : Caller) (g : GroupId) (server : ℕ) (inserted : Bool)
  /-- `shutdown_for`: find the group. -/
  | listenerFind (g : GroupId) (resume : Resume)
  /-- `shutdown_for`: erase the group. -/
  | listenerErase (g : GroupId) (resume : Resume)
  /-- `join_group`: erase the state manager after an error. -/
  | joinRollback (g : GroupId) (code : CmdResultCode)
  /-- `create_group`: wait for the leadership flag. -/
  | createWait (g : GroupId)
  /-- `leave_group`: look for a state manager. -/
  | leaveCheck (g : GroupId)
  /-- `msg_service::leave_group`: find the server. -/
  | leaveFind (g : GroupId)
  /-- `msg_service::leave_group`: stop the server and shut it down. -/
  | leaveShutdown (g : GroupId) (server : ℕ)
  /-- `leave_group`: destroy the state manager. -/
  | leaveDestroy (g : GroupId)
  /-- `become_leader`: read the leadership flag. -/
  | becomeRead (g : GroupId)
  /-- `become_leader`: ask the server for the leadership. -/
  | becomeRequest (g : GroupId)
  /-- `become_leader`: wait for the leadership flag. -/
  | becomeWait (g : GroupId)
  /-- `raftStep`: check the message. -/
  | stepCheck (msg : RaftGroupMsg)
  /-- `raftStep`: find the server; `joined` is what `joinRaftGroup` returned, if it
  was called. -/
  | stepFind (msg : RaftGroupMsg) (g : GroupId) (joined : Option CmdResultCode)
  /-- The task that `raftStep` posted. -/
  | stepTask (msg : RaftGroupMsg) (g : GroupId) (server : ℕ) (pool : Pool)
  /-- The last reference to a server went away. -/
  | reap (g : GroupId) (server : ℕ)
  | done (outcome : Outcome)

/-- The operations that a thread can be started on. -/
inductive Operation where
  | createGroup (g : GroupId) (ty : GroupType)
  | joinGroup (g : GroupId) (ty : GroupType) (stateMgr : Option StateMgrId)
  | leaveGroup (g : GroupId)
  | becomeLeader (g : GroupId)
  | raftStep (msg : RaftGroupMsg)
  /-- Destroy a server that nothing refers to; this can happen at any time. -/
  | reap (g : GroupId) (server : ℕ)

/-- Where an operation starts. -/
def Operation.entry : Operation → Pc
  | .createGroup g ty => .createInsert g ty
  | .joinGroup g ty stateMgr => .joinEmplace g ty stateMgr
  | .leaveGroup g => .leaveCheck g
  | .becomeLeader g => .becomeRead g
  | .raftStep msg => .stepCheck msg
  | .reap g server => .reap g server

/-- What a step depends on besides the registries. -/
structure Surroundings where
  /-- `_manager.lock()` succeeds. -/
  managerAlive : Bool := true
  created : Created := .throws
  /-- `become_ready`, `get_state_machine` and `set_manager_impl` return. -/
  ready : Bool := true
  construction : Construction := .completed
  /-- The result of `request_leadership`. -/
  leadership : Bool := false
  /-- The wait has reached its timeout. -/
  expired : Bool := false
  answer : Answer := .null
  /-- The memory after a buffer. -/
  beyond : ℕ → UInt8 := fun _ => 0

/-- Whether `joinRaftGroup` ends in an exception once its state manager is stored, and if so,
whether the listener it has made dies with the context. -/
def Surroundings.aborts (around : Surroundings) : Option Bool :=
  if around.ready then
    match around.construction with
    | .completed => none
    | .threw owned => some owned
  else some false

/-- What drives a thread. -/
inductive Input where
  | call (op : Operation)
  | go (around : Surroundings)

/-- Events that are delivered to the node by other parties. -/
inductive External where
  | raftEvent (g : GroupId) (event : RaftEvent)
  | registerMgrType (ty : GroupType)

/-- `joinRaftGroup` returns `OK` to its caller. -/
def Caller.accepted (g : GroupId) : Caller → Pc
  | .createGroup => .createWait g
  | .joinGroup => .done (.joined g)
  | .raftStep msg => .stepFind msg g (some .ok)

/-- `joinRaftGroup` returns an error to its caller; `raftStep` ignores it. -/
def Caller.refused (g : GroupId) (code : CmdResultCode) : Caller → Pc
  | .createGroup => .done (.createRefused g code)
  | .joinGroup => .joinRollback g code
  | .raftStep msg => .stepFind msg g (some code)

/-- Where a thread goes on after a listener's destructor. -/
def Resume.next (g : GroupId) : Resume → Pc
  | .joinRaftGroup caller => caller.accepted g
  | .unwind => .done (.threw g)
  | .leaveGroup => .leaveDestroy g
  | .reap server => .done (.reaped g server)

/-- Go on to the destructor of the listener if it dies, else to the rest. -/
def afterListener (dies : Bool) (g : GroupId) (resume : Resume) : Pc :=
  if dies then .listenerFind g resume else resume.next g

/-- One atomic step of thread `t`; `none` if the thread cannot move or the source
has no defined behaviour. -/
def advance (node : Node) (t : ℕ) (r : Registry) (around : Surroundings) :
    Pc → Option (Registry × Pc)
  | .idle => none
  | .createInsert g ty => some (r.insertLeader g, .joinLock .createGroup g ty)
  | .joinEmplace g ty stateMgr => some (r.emplaceManager g stateMgr, .joinLock .joinGroup g ty)
  | .joinLock caller g ty =>
    if around.managerAlive then
      some (r, .joinFind caller g (if ty = "" then node.defaultGroupType else ty))
    else some (r, caller.refused g .cancelled)
  | .joinFind caller g ty =>
    if (r.raftServers g).isSome then some (r, caller.accepted g)
    else some (r, .joinInit caller g ty)
  | .joinInit caller g ty =>
    match (r.groupInit g ty around.created around.ready).result with
    | .refused code => some (r, caller.refused g code)
    | .threw r' => some (r', .done (.threw g))
    | .nullDereference => none
    | .context r' stateMgr =>
      match around.construction with
      | .completed =>
        some (r'.buildServer t g stateMgr, .joinInsert caller g (r'.servers g).length)
      -- the locals are destroyed on the way out, `new_listner` among them
      | .threw owned => some (r', afterListener owned g .unwind)
  | .joinInsert caller g server =>
    some ((r.tryEmplace g server).1, .joinReturn caller g server (r.tryEmplace g server).2)
  | .joinReturn caller g server inserted =>
    some ((r.endFrame g server inserted).1,
      afterListener (r.endFrame g server inserted).2 g (.joinRaftGroup caller))
  | .listenerFind g resume =>
    if (r.raftServers g).isSome then some (r, .listenerErase g resume) else some (r, resume.next g)
  | .listenerErase g resume => some (r.eraseServer g, resume.next g)
  | .joinRollback g code => some (r.eraseManager g, .done (.joinRefused g code))
  | .createWait g =>
    if (r.readLeader g).2 then some ((r.readLeader g).1, .done (.created g))
    else if around.expired then some ((r.readLeader g).1, .done (.createTimedOut g))
    else some ((r.readLeader g).1, .createWait g)
  | .leaveCheck g =>
    if (r.stateManagers g).isSome then some (r, .leaveFind g) else some (r, .done (.left g))
  | .leaveFind g =>
    match r.raftServers g with
    | some server => some (r, .leaveShutdown g server)
    | none => some (r, .leaveDestroy g)
  | .leaveShutdown g server =>
    some ((r.shutdownServer g server).1,
      afterListener (r.shutdownServer g server).2 g .leaveGroup)
  | .leaveDestroy g => (r.destroyManager g).map fun r' => (r', .done (.left g))
  | .becomeRead g =>
    if (r.readLeader g).2 then some ((r.readLeader g).1, .done (.leads g))
    else some ((r.readLeader g).1, .becomeRequest g)
  | .becomeRequest g =>
    if (r.raftServers g).isSome && around.leadership then some (r, .becomeWait g)
    else some (r, .done (.becomeFailed g .cancelled))
  | .becomeWait g =>
    if (r.readLeader g).2 then some ((r.readLeader g).1, .done (.leads g))
    else if around.expired then some ((r.readLeader g).1, .done (.becomeFailed g .timeout))
    else some ((r.readLeader g).1, .becomeWait g)
  | .stepCheck msg =>
    match checkMessage node msg with
    | .error status => some (r, .done (.answered msg { status := status }))
    | .ok g =>
      if isJoinRequest msg then some (r, .joinLock (.raftStep msg) g msg.groupType)
      else some (r, .stepFind msg g none)
  | .stepFind msg g _ =>
    match r.raftServers g with
    | some server => some (r, .stepTask msg g server (poolFor msg))
    | none =>
      some (r, .done (.answered msg { status := missingGroup msg, groupId := msg.groupId }))
  | .stepTask msg g server _ =>
    (executeStep around.beyond msg around.answer).map fun result =>
      (r, .done (.processed msg g server result.1 result.2))
  | .reap g server =>
    if r.Unreferenced g server then
      some ((r.shutdownServer g server).1,
        afterListener (r.shutdownServer g server).2 g (.reap server))
    else none
  | .done _ => none

/-- A thread is started on an operation or goes on with it. -/
def exec (node : Node) (t : ℕ) (r : Registry) : Pc → Input → Option (Registry × Pc)
  | .idle, .call op => some (r, op.entry)
  | _, .call _ => none
  | pc, .go around => advance node t r around pc

/-- The effect of an external event. -/
def deliver (r : Registry) : External → Option Registry
  | .raftEvent g event => some (r.genericRaftEventHandler g event)
  | .registerMgrType ty => some (r.registerMgrType ty)

/-- A node with all its threads. -/
abbrev Config := Interleaving.Config Registry Pc

/-- A scheduling decision. -/
abbrev Label := Interleaving.Action Input External

/-- One step of a node. -/
def step (node : Node) : Config → Label → Option Config :=
  Interleaving.step (exec node) deliver

/-- A node that has just started, with all threads idle. -/
def start (types : List GroupType) : Config := ⟨.init types, fun _ => .idle⟩

/-- `n` steps of thread `t`; a state manager asked for on the way is `m`. -/
def goes (t n : ℕ) (m : StateMgrId) : List Label :=
  List.replicate n (.thread t (.go { created := .stateMgr m }))

/-! ## Coming back to the caller -/

/-- The message whose handling called `joinRaftGroup`. -/
def Caller.message : Caller → Option RaftGroupMsg
  | .raftStep msg => some msg
  | _ => none

/-- The message whose handling goes on after the destructor of a listener. -/
def Resume.message : Resume → Option RaftGroupMsg
  | .joinRaftGroup caller => caller.message
  | _ => none

/-- The places where a thread comes out of `joinRaftGroup` or of the destructor of a listener,
or goes into that destructor, with the message that it goes on to handle. -/
inductive Landing (g : GroupId) : Option RaftGroupMsg → Pc → Prop
  | createWait : Landing g none (.createWait g)
  | createRefused (code) : Landing g none (.done (.createRefused g code))
  | joined : Landing g none (.done (.joined g))
  | joinRollback (code) : Landing g none (.joinRollback g code)
  | stepFind (msg code) : Landing g (some msg) (.stepFind msg g (some code))
  | threw : Landing g none (.done (.threw g))
  | leaveDestroy : Landing g none (.leaveDestroy g)
  | reaped (server) : Landing g none (.done (.reaped g server))
  | listenerFind (resume : Resume) : Landing g resume.message (.listenerFind g resume)

/-- Where an accepted join comes back. -/
theorem Caller.landing_accepted (g : GroupId) (caller : Caller) :
    Landing g caller.message (caller.accepted g) := by
  cases caller <;> constructor

/-- Where a refused join comes back. -/
theorem Caller.landing_refused (g : GroupId) (code : CmdResultCode) (caller : Caller) :
    Landing g caller.message (caller.refused g code) := by
  cases caller <;> constructor

/-- Where the destructor of a listener comes back. -/
theorem Resume.landing_next (g : GroupId) (resume : Resume) :
    Landing g resume.message (resume.next g) := by
  cases resume with
  | joinRaftGroup caller => exact caller.landing_accepted g
  | _ => constructor

/-- Where a thread goes that may have to destroy a listener. -/
theorem landing_afterListener (dies : Bool) (g : GroupId) (resume : Resume) :
    Landing g resume.message (afterListener dies g resume) := by
  cases dies with
  | false => exact resume.landing_next g
  | true => exact .listenerFind resume

/-! ## The steps as rules -/

/-- The ways in which a thread can go on, with what each of them requires of the
registries. -/
inductive Moves (node : Node) (t : ℕ) (r : Registry) : Pc → Input → Registry → Pc → Prop
  | call (op) : Moves node t r .idle (.call op) r op.entry
  | createInsert {a} (g ty) : Moves node t r (.createInsert g ty) (.go a) (r.insertLeader g)
      (.joinLock .createGroup g ty)
  | joinEmplace {a} (g ty m) : Moves node t r (.joinEmplace g ty m) (.go a) (r.emplaceManager g m)
      (.joinLock .joinGroup g ty)
  | lock {a} (caller g ty) (ty') (halive : a.managerAlive = true) :
      Moves node t r (.joinLock caller g ty) (.go a) r (.joinFind caller g ty')
  | lockFailed {a} (caller g ty) (hdead : a.managerAlive = false) :
      Moves node t r (.joinLock caller g ty) (.go a) r (Caller.refused g .cancelled caller)
  | duplicate {a} (caller g ty) (hfound : (r.raftServers g).isSome) :
      Moves node t r (.joinFind caller g ty) (.go a) r (Caller.accepted g caller)
  | noDuplicate {a} (caller g ty) (hnone : r.raftServers g = none) :
      Moves node t r (.joinFind caller g ty) (.go a) r (.joinInit caller g ty)
  | initRefused {a} (caller g ty) (htype : ty ∉ r.stateMgrTypes) :
      Moves node t r (.joinInit caller g ty) (.go a) r (Caller.refused g .serverNotFound caller)
  | initReuse {a} (caller g ty m) (htype : ty ∈ r.stateMgrTypes)
      (hentry : r.stateManagers g = some (some m)) (hcompletes : a.aborts = none) :
      Moves node t r (.joinInit caller g ty) (.go a) (r.buildServer t g m)
        (.joinInsert caller g (r.servers g).length)
  | initReuseAborted {a} (caller g ty m dies) (htype : ty ∈ r.stateMgrTypes)
      (hentry : r.stateManagers g = some (some m)) (haborts : a.aborts = some dies) :
      Moves node t r (.joinInit caller g ty) (.go a) r (afterListener dies g .unwind)
  | initCreate {a} (caller g ty m) (htype : ty ∈ r.stateMgrTypes)
      (hentry : r.stateManagers g = none) (hcreated : a.created = .stateMgr m)
      (hcompletes : a.aborts = none) :
      Moves node t r (.joinInit caller g ty) (.go a)
        ((r.emplaceManager g (some m)).buildServer t g m)
        (.joinInsert caller g (r.servers g).length)
  | initCreateAborted {a} (caller g ty m dies) (htype : ty ∈ r.stateMgrTypes)
      (hentry : r.stateManagers g = none) (hcreated : a.created = .stateMgr m)
      (haborts : a.aborts = some dies) :
      Moves node t r (.joinInit caller g ty) (.go a) (r.emplaceManager g (some m))
        (afterListener dies g .unwind)
  | initThrew {a} (caller g ty) (htype : ty ∈ r.stateMgrTypes)
      (hentry : r.stateManagers g = none) (hcreated : a.created = .throws) :
      Moves node t r (.joinInit caller g ty) (.go a) (r.emplaceManager g none) (.done (.threw g))
  | insert {a} (caller g server) : Moves node t r (.joinInsert caller g server) (.go a)
      (r.tryEmplace g server).1 (.joinReturn caller g server (r.tryEmplace g server).2)
  | return {a} (caller g server inserted) :
      Moves node t r (.joinReturn caller g server inserted) (.go a)
        (r.endFrame g server inserted).1
        (afterListener (r.endFrame g server inserted).2 g (.joinRaftGroup caller))
  | listenerFound {a} (g resume) (hfound : (r.raftServers g).isSome) :
      Moves node t r (.listenerFind g resume) (.go a) r (.listenerErase g resume)
  | listenerMissing {a} (g resume) (hnone : r.raftServers g = none) :
      Moves node t r (.listenerFind g resume) (.go a) r (resume.next g)
  | listenerErase {a} (g resume) :
      Moves node t r (.listenerErase g resume) (.go a) (r.eraseServer g) (resume.next g)
  | rollback {a} (g code) : Moves node t r (.joinRollback g code) (.go a) (r.eraseManager g)
      (.done (.joinRefused g code))
  | created {a} (g) (hflag : r.isLeader g = some true) :
      Moves node t r (.createWait g) (.go a) (r.insertLeader g) (.done (.created g))
  | createTimedOut {a} (g) (hflag : r.isLeader g ≠ some true) :
      Moves node t r (.createWait g) (.go a) (r.insertLeader g) (.done (.createTimedOut g))
  | createWait {a} (g) (hflag : r.isLeader g ≠ some true) :
      Moves node t r (.createWait g) (.go a) (r.insertLeader g) (.createWait g)
  | leaveUnknown {a} (g) (hnone : r.stateManagers g = none) :
      Moves node t r (.leaveCheck g) (.go a) r (.done (.left g))
  | leaveKnown {a} (g) (hfound : (r.stateManagers g).isSome) :
      Moves node t r (.leaveCheck g) (.go a) r (.leaveFind g)
  | leaveFound {a} (g server) (hfound : r.raftServers g = some server) :
      Moves node t r (.leaveFind g) (.go a) r (.leaveShutdown g server)
  | leaveMissing {a} (g) (hnone : r.raftServers g = none) :
      Moves node t r (.leaveFind g) (.go a) r (.leaveDestroy g)
  | leaveShutdown {a} (g server) : Moves node t r (.leaveShutdown g server) (.go a)
      (r.shutdownServer g server).1 (afterListener (r.shutdownServer g server).2 g .leaveGroup)
  | leaveNothing {a} (g) (hnone : r.stateManagers g = none) :
      Moves node t r (.leaveDestroy g) (.go a) r (.done (.left g))
  | leaveDestroy {a} (g m) (hentry : r.stateManagers g = some (some m)) :
      Moves node t r (.leaveDestroy g) (.go a)
        { r.eraseManager g with destroyed := r.destroyed ++ [m] } (.done (.left g))
  | leadsAlready {a} (g) (hflag : r.isLeader g = some true) :
      Moves node t r (.becomeRead g) (.go a) (r.insertLeader g) (.done (.leads g))
  | becomeAsk {a} (g) (hflag : r.isLeader g ≠ some true) :
      Moves node t r (.becomeRead g) (.go a) (r.insertLeader g) (.becomeRequest g)
  | becomeRequested {a} (g) : Moves node t r (.becomeRequest g) (.go a) r (.becomeWait g)
  | becomeCancelled {a} (g) : Moves node t r (.becomeRequest g) (.go a) r
      (.done (.becomeFailed g .cancelled))
  | becameLeader {a} (g) (hflag : r.isLeader g = some true) :
      Moves node t r (.becomeWait g) (.go a) (r.insertLeader g) (.done (.leads g))
  | becomeTimedOut {a} (g) (hflag : r.isLeader g ≠ some true) :
      Moves node t r (.becomeWait g) (.go a) (r.insertLeader g) (.done (.becomeFailed g .timeout))
  | becomeWait {a} (g) (hflag : r.isLeader g ≠ some true) :
      Moves node t r (.becomeWait g) (.go a) (r.insertLeader g) (.becomeWait g)
  | stepRefused {a} (msg status) (hcheck : checkMessage node msg = .error status) :
      Moves node t r (.stepCheck msg) (.go a) r (.done (.answered msg { status := status }))
  | stepJoin {a} (msg g) (hcheck : checkMessage node msg = .ok g) (hjoin : isJoinRequest msg) :
      Moves node t r (.stepCheck msg) (.go a) r (.joinLock (.raftStep msg) g msg.groupType)
  | stepPlain {a} (msg g) (hcheck : checkMessage node msg = .ok g) :
      Moves node t r (.stepCheck msg) (.go a) r (.stepFind msg g none)
  | stepFound {a} (msg g joined server) (hfound : r.raftServers g = some server) :
      Moves node t r (.stepFind msg g joined) (.go a) r (.stepTask msg g server (poolFor msg))
  | stepMissing {a} (msg g joined) (hnone : r.raftServers g = none) :
      Moves node t r (.stepFind msg g joined) (.go a) r
        (.done (.answered msg { status := missingGroup msg, groupId := msg.groupId }))
  | stepTask {a} (msg g server pool req reply)
      (hexecute : executeStep a.beyond msg a.answer = some (req, reply)) :
      Moves node t r (.stepTask msg g server pool) (.go a) r
        (.done (.processed msg g server req reply))
  | reap {a} (g server) (hunreferenced : r.Unreferenced g server) :
      Moves node t r (.reap g server) (.go a) (r.shutdownServer g server).1
        (afterListener (r.shutdownServer g server).2 g (.reap server))

variable {node : Node} {t : ℕ} {r r' : Registry} {pc pc' : Pc} {input : Input}

/-- Reading the flag gives what the map holds. -/
theorem readLeader_snd (r : Registry) (g : GroupId) :
    (r.readLeader g).2 = true ↔ r.isLeader g = some true := by
  unfold Registry.readLeader
  cases r.isLeader g <;> simp

/-- How the call ends after `group_init` has its state manager. -/
theorem advance_prepared {a : Surroundings} {caller : Caller} {g : GroupId} {ty : GroupType}
    (r₁ : Registry) (m : StateMgrId)
    (hresult : (r.groupInit g ty a.created a.ready).result = r₁.prepare m a.ready) :
    advance node t r a (.joinInit caller g ty) =
      match a.aborts with
      | none => some (r₁.buildServer t g m, .joinInsert caller g (r₁.servers g).length)
      | some dies => some (r₁, afterListener dies g .unwind) := by
  simp only [advance, hresult, Registry.prepare, Surroundings.aborts]
  cases a.ready with
  | false => rfl
  | true => cases a.construction <;> rfl

/-- `group_init` with a stored state manager. -/
theorem groupInit_stored {g : GroupId} {ty : GroupType} {m : StateMgrId} (created : Created)
    (ready : Bool) (htype : ty ∈ r.stateMgrTypes) (hentry : r.stateManagers g = some (some m)) :
    r.groupInit g ty created ready = ⟨false, r.prepare m ready⟩ := by
  simp only [Registry.groupInit, if_pos htype, hentry]

/-- `group_init` of a group without a state manager asks the application for one. -/
theorem groupInit_absent {g : GroupId} {ty : GroupType} {m : StateMgrId} (ready : Bool)
    (htype : ty ∈ r.stateMgrTypes) (hentry : r.stateManagers g = none) :
    r.groupInit g ty (.stateMgr m) ready =
      ⟨true, (r.emplaceManager g (some m)).prepare m ready⟩ := by
  simp only [Registry.groupInit, if_pos htype, hentry]

/-- `group_init` and what follows it, as rules. -/
theorem moves_joinInit {a : Surroundings} {caller : Caller} {g : GroupId} {ty : GroupType}
    (hadvance : advance node t r a (.joinInit caller g ty) = some (r', pc')) :
    Moves node t r (.joinInit caller g ty) (.go a) r' pc' := by
  by_cases htype : ty ∈ r.stateMgrTypes
  · rcases hentry : r.stateManagers g with _ | _ | m
    · cases hcreated : a.created with
      | stateMgr m =>
        rw [advance_prepared (r.emplaceManager g (some m)) m
          (by rw [hcreated, groupInit_absent a.ready htype hentry])] at hadvance
        split at hadvance <;> cases hadvance
        · exact .initCreate caller g ty m htype hentry hcreated ‹_›
        · exact .initCreateAborted caller g ty m _ htype hentry hcreated ‹_›
      | null => simp [advance, Registry.groupInit, htype, hentry, hcreated] at hadvance
      | throws =>
        simp only [advance, Registry.groupInit, if_pos htype, hentry, hcreated] at hadvance
        cases hadvance
        exact .initThrew caller g ty htype hentry hcreated
    · simp [advance, Registry.groupInit, htype, hentry] at hadvance
    · rw [advance_prepared r m
        (by rw [groupInit_stored a.created a.ready htype hentry])] at hadvance
      split at hadvance <;> cases hadvance
      · exact .initReuse caller g ty m htype hentry ‹_›
      · exact .initReuseAborted caller g ty m _ htype hentry ‹_›
  · simp only [advance, Registry.groupInit, if_neg htype] at hadvance
    cases hadvance
    exact .initRefused caller g ty htype

/-- `group_init` comes to an end unless it calls `become_ready` on a null pointer. -/
theorem isSome_joinInit {a : Surroundings} {caller : Caller} {g : GroupId} {ty : GroupType}
    (hentry : r.stateManagers g ≠ some none)
    (hcreated : r.stateManagers g = none → a.created ≠ .null) :
    (advance node t r a (.joinInit caller g ty)).isSome := by
  by_cases htype : ty ∈ r.stateMgrTypes
  · rcases hold : r.stateManagers g with _ | _ | m
    · cases hobject : a.created with
      | null => exact absurd hobject (hcreated hold)
      | throws => simp [advance, Registry.groupInit, htype, hold, hobject]
      | stateMgr m =>
        rw [advance_prepared (r.emplaceManager g (some m)) m
          (by rw [hobject, groupInit_absent a.ready htype hold])]
        split <;> rfl
    · exact absurd hold hentry
    · rw [advance_prepared r m (by rw [groupInit_stored a.created a.ready htype hold])]
      split <;> rfl
  · simp [advance, Registry.groupInit, htype]

/-- Every step that a thread takes on its own is an instance of a rule. -/
theorem moves_of_advance {a : Surroundings} (hadvance : advance node t r a pc = some (r', pc')) :
    Moves node t r pc (.go a) r' pc' := by
  cases pc with
  | idle => cases hadvance
  | createInsert g ty => cases hadvance; constructor
  | joinEmplace g ty m => cases hadvance; constructor
  | joinLock caller g ty =>
    simp only [advance] at hadvance
    split at hadvance <;> cases hadvance
    · exact .lock _ _ _ _ ‹_›
    · exact .lockFailed _ _ _ (Bool.eq_false_iff.mpr ‹_›)
  | joinFind caller g ty =>
    simp only [advance] at hadvance
    split at hadvance <;> cases hadvance
    · exact .duplicate _ _ _ ‹_›
    · exact .noDuplicate _ _ _ (Option.not_isSome_iff_eq_none.mp ‹_›)
  | joinInit caller g ty => exact moves_joinInit hadvance
  | joinInsert caller g server => cases hadvance; constructor
  | joinReturn caller g server inserted => cases hadvance; constructor
  | listenerFind g resume =>
    simp only [advance] at hadvance
    split at hadvance <;> cases hadvance
    · exact .listenerFound _ _ ‹_›
    · exact .listenerMissing _ _ (Option.not_isSome_iff_eq_none.mp ‹_›)
  | listenerErase g resume => cases hadvance; constructor
  | joinRollback g code => cases hadvance; constructor
  | createWait g =>
    simp only [advance, readLeader_snd] at hadvance
    split at hadvance
    · cases hadvance
      exact .created g ‹_›
    split at hadvance <;> cases hadvance
    · exact .createTimedOut g ‹_›
    · exact .createWait g ‹_›
  | leaveCheck g =>
    simp only [advance] at hadvance
    split at hadvance <;> cases hadvance
    · exact .leaveKnown g ‹_›
    · exact .leaveUnknown g (Option.not_isSome_iff_eq_none.mp ‹_›)
  | leaveFind g =>
    simp only [advance] at hadvance
    split at hadvance <;> cases hadvance
    · exact .leaveFound g _ ‹_›
    · exact .leaveMissing g ‹_›
  | leaveShutdown g server => cases hadvance; constructor
  | leaveDestroy g =>
    simp only [advance, Registry.destroyManager] at hadvance
    split at hadvance <;> cases hadvance
    · exact .leaveNothing g ‹_›
    · exact .leaveDestroy g _ ‹_›
  | becomeRead g =>
    simp only [advance, readLeader_snd] at hadvance
    split at hadvance <;> cases hadvance
    · exact .leadsAlready g ‹_›
    · exact .becomeAsk g ‹_›
  | becomeRequest g =>
    simp only [advance] at hadvance
    split at hadvance <;> cases hadvance
    · exact .becomeRequested g
    · exact .becomeCancelled g
  | becomeWait g =>
    simp only [advance, readLeader_snd] at hadvance
    split at hadvance
    · cases hadvance
      exact .becameLeader g ‹_›
    split at hadvance <;> cases hadvance
    · exact .becomeTimedOut g ‹_›
    · exact .becomeWait g ‹_›
  | stepCheck msg =>
    simp only [advance] at hadvance
    split at hadvance
    · cases hadvance
      exact .stepRefused msg _ ‹_›
    split at hadvance <;> cases hadvance
    · exact .stepJoin msg _ ‹_› ‹_›
    · exact .stepPlain msg _ ‹_›
  | stepFind msg g joined =>
    simp only [advance] at hadvance
    split at hadvance <;> cases hadvance
    · exact .stepFound msg g joined _ ‹_›
    · exact .stepMissing msg g joined ‹_›
  | stepTask msg g server pool =>
    obtain ⟨⟨req, reply⟩, hexecute, hresult⟩ := Option.map_eq_some_iff.mp hadvance
    cases hresult
    exact .stepTask msg g server pool req reply hexecute
  | reap g server =>
    simp only [advance] at hadvance
    split at hadvance <;> cases hadvance
    exact .reap g server ‹_›
  | done outcome => cases hadvance

/-- Only an idle thread is started on an operation. -/
theorem exec_call {op : Operation} (hexec : exec node t r pc (.call op) = some (r', pc')) :
    pc = .idle ∧ r' = r ∧ pc' = op.entry := by
  cases pc with
  | idle =>
    cases hexec
    exact ⟨rfl, rfl, rfl⟩
  | _ => cases hexec

/-- A thread that goes on advances. -/
theorem exec_go (a : Surroundings) : exec node t r pc (.go a) = advance node t r a pc := by
  cases pc <;> rfl

/-- What a thread can do next is a step of the node. -/
theorem step_of_advance {c : Config} {a : Surroundings}
    (hadvance : advance node t c.shared a (c.threads t) = some (r', pc')) :
    step node c (.thread t (.go a)) = some ⟨r', Function.update c.threads t pc'⟩ :=
  Interleaving.step_of_exec ((exec_go a).trans hadvance)

/-- Every step of a thread is an instance of a rule. -/
theorem moves_of_exec (hexec : exec node t r pc input = some (r', pc')) :
    Moves node t r pc input r' pc' := by
  cases input with
  | call op =>
    obtain ⟨rfl, rfl, rfl⟩ := exec_call hexec
    exact .call op
  | go a =>
    rw [exec_go] at hexec
    exact moves_of_advance hexec

end NuraftMesg.Manager
