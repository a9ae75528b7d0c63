import NuraftMesg.Base.Monitor
import NuraftMesg.Base.Refinement
import NuraftMesg.Manager.Joins
import NuraftMesg.Wire.Messages

/-!
# Waiting under the manager's lock

`create_group`, `become_leader` and `add_member` wait on `_config_change` with
`_manager_lock`. In `Manager` such a wait is a step that is repeated until the flag is up
or the time is over. Here the lock and the condition variable are modelled: who holds
the lock, who is blocked, and which handlers have still to call `notify_all`. The
commands of a group's server, of which `add_member` is one, run on threads of their own;
`CONTINUE_RESP` evaluates the expression that issues the command once for its result
code and, if that is not there yet, once more for the result to wait for.
-/

namespace NuraftMesg.Manager.Waiting

open Monitor Transition

/-! ## Commands -/

/-- What `grpc_server` is asked to do. -/
inductive Command where
  | addSrv (id : Int32) (endpoint : String)
  | remSrv (id : Int32)
  | appendEntries (logs : List Buffer)
  deriving DecidableEq

/-- What the server came back with when the command was issued. -/
inductive Issued where
  /-- A `std::runtime_error`. -/
  | throws
  /-- A `cmd_result` that has its code. -/
  | result (code : CmdResultCode)
  /-- A `cmd_result` without a result: `RESULT_NOT_EXIST_YET`. -/
  | pending
  deriving DecidableEq

/-- One call on a server of the group. -/
structure Call where
  server : ℕ
  command : Command
  issued : Issued
  deriving DecidableEq

/-- Where a command is. A result code stands for the `NullResult`, `ok` being `Unit`. -/
inductive CommandPc where
  | idle
  /-- Find the server of the group. -/
  | find (g : GroupId) (command : Command)
  /-- `CONTINUE_RESP`: issue the command and look at the result code. -/
  | first (g : GroupId) (server : ℕ) (command : Command)
  /-- `CONTINUE_RESP`: issue the command and attach the handler. -/
  | second (g : GroupId) (server : ℕ) (command : Command)
  /-- The handler is attached to a result without a code. -/
  | awaiting (g : GroupId) (command : Command)
  /-- `add_member`: wait for the endpoint in the configuration. -/
  | waiting (g : GroupId) (id : Int32) (endpoint : String)
  | done (g : GroupId) (command : Command) (code : CmdResultCode)
  deriving DecidableEq

/-- The future of the service has its value; `add_member` goes on after a success. -/
def Command.settle (command : Command) (g : GroupId) (code : CmdResultCode) : CommandPc :=
  match command with
  | .addSrv id endpoint => if code = .ok then .waiting g id endpoint else .done g command code
  | .remSrv _ | .appendEntries _ => .done g command code

/-- The first evaluation: a code ends the call, an exception ends the `try` block. -/
def CommandPc.afterFirst (g : GroupId) (server : ℕ) (command : Command) : Issued → CommandPc
  | .throws => .done g command .serverNotFound
  | .result code => command.settle g code
  | .pending => .second g server command

/-- The second evaluation: `when_ready` calls the handler at once if there is a code. -/
def CommandPc.afterSecond (g : GroupId) (command : Command) : Issued → CommandPc
  | .throws => .done g command .serverNotFound
  | .result code => command.settle g code
  | .pending => .awaiting g command

/-- The code that comes with a result. -/
def Issued.code : Issued → Option CmdResultCode
  | .result code => some code
  | .throws | .pending => none

/-! ## The node with its lock -/

/-- Who waits on `_config_change`. -/
inductive Waiter where
  /-- `create_group` or `become_leader`. -/
  | thread (t : ℕ)
  /-- `add_member`. -/
  | command (k : ℕ)
  deriving DecidableEq

/-- The group whose flag a thread waits for. -/
def waitsFor : Pc → Option GroupId
  | .createWait g | .becomeWait g => some g
  | _ => none

/-- The step of the thread takes `_manager_lock`. -/
def takesLock : Pc → Bool
  | .createInsert _ _ | .joinEmplace _ _ _ | .joinInit _ _ _ | .joinRollback _ _ | .createWait _
  | .leaveCheck _ | .leaveDestroy _ | .becomeRead _ | .becomeWait _ => true
  | _ => false

/-- The handler of the event takes `_manager_lock`. -/
def eventLocks (event : RaftEvent) : Bool :=
  event.leads.isSome || event = .removedFromCluster

/-- How often the handler of the event calls `notify_all`, after it has given up the lock. -/
def notifications : RaftEvent → ℕ
  | .newConfig | .becomeLeader => 1
  | _ => 0

/-- A node, the commands in progress and the lock. -/
structure State where
  config : Config
  /-- The commands, each on a thread of its own. -/
  commands : ℕ → CommandPc
  /-- The calls that a command has made. -/
  calls : ℕ → List Call
  /-- What the handler of a command was called with. -/
  handled : ℕ → Option CmdResultCode
  /-- The endpoints in the configuration of every server. -/
  endpoints : GroupId → ℕ → List String
  /-- `_manager_lock` with `_config_change`. -/
  cond : Cond Waiter

/-- A node that has just started. -/
def start (types : List GroupType) : State where
  config := Manager.start types
  commands _ := .idle
  calls _ := []
  handled _ := none
  endpoints _ _ := []
  cond := .idle

/-- `get_srv_config_all`, as far as it is looked at. -/
def State.srvConfigAll (s : State) (g : GroupId) : List String :=
  match s.config.shared.raftServers g with
  | some server => s.endpoints g server
  | none => []

/-- A scheduling decision. -/
inductive Label where
  /-- A step of a thread that does not wait. -/
  | thread (t : ℕ) (input : Input)
  /-- `generic_raft_event_handler`, up to its notification. -/
  | raftEvent (g : GroupId) (event : RaftEvent)
  | registerMgrType (ty : GroupType)
  /-- A handler calls `notify_all`. -/
  | notifyAll
  /-- A waiter takes the lock and tests its predicate. -/
  | test (w : Waiter)
  /-- A waiter blocks. -/
  | park (w : Waiter)
  /-- A waiter goes on for no reason or, `expired`, because its time is over. -/
  | rouse (w : Waiter) (expired : Bool)
  /-- A server of the group gets a new configuration. -/
  | reconfigure (g : GroupId) (server : ℕ) (endpoints : List String)
  /-- A command is started. -/
  | command (k : ℕ) (g : GroupId) (command : Command)
  /-- The command looks for the server. -/
  | find (k : ℕ)
  /-- The command is issued, with this result. -/
  | issue (k : ℕ) (issued : Issued)
  /-- The awaited result gets its code. -/
  | complete (k : ℕ) (code : CmdResultCode)

/-- The command `k` is at `pc` from now on. -/
def State.setCommand (s : State) (k : ℕ) (pc : CommandPc) : State :=
  { s with commands := Function.update s.commands k pc }

/-- The command `k` has made a call. -/
def State.addCall (s : State) (k : ℕ) (call : Call) : State :=
  { s with calls := Function.update s.calls k (s.calls k ++ [call]) }

/-- The handler of the command `k` is called if there is a code. -/
def State.handle (s : State) (k : ℕ) (code : Option CmdResultCode) : State :=
  { s with handled := Function.update s.handled k code }

/-- A server of the group has these endpoints from now on. -/
def State.setEndpoints (s : State) (g : GroupId) (server : ℕ) (endpoints : List String) : State :=
  { s with endpoints := fun g' i => if g' = g ∧ i = server then endpoints else s.endpoints g' i }

/-- Where `add_member` goes after a test. -/
def afterTest (g : GroupId) (id : Int32) (endpoint : String) (holds expired : Bool) : CommandPc :=
  if holds then .done g (.addSrv id endpoint) .ok
  else if expired then .done g (.addSrv id endpoint) .cancelled
  else .waiting g id endpoint

/-- One step of the node with its lock. -/
def step (node : Node) (s : State) : Label → Option State
  | .thread t input =>
    if (waitsFor (s.config.threads t)).isSome ||
        (takesLock (s.config.threads t) && s.cond.holder.isSome) then none
    else (Manager.step node s.config (.thread t input)).map fun c => { s with config := c }
  | .raftEvent g event =>
    if eventLocks event && s.cond.holder.isSome then none
    else (Manager.step node s.config (.env (.raftEvent g event))).map fun c =>
      { s with config := c, cond := s.cond.announce (notifications event) }
  | .registerMgrType ty =>
    if s.cond.holder.isSome then none
    else (Manager.step node s.config (.env (.registerMgrType ty))).map fun c =>
      { s with config := c }
  | .notifyAll => s.cond.notifyAll.map fun cond => { s with cond := cond }
  | .test (.thread t) =>
    match waitsFor (s.config.threads t) with
    | none => none
    | some g =>
      (s.cond.test (.thread t) (s.config.shared.readLeader g).2).bind fun cond =>
        (Manager.step node s.config
          (.thread t (.go { expired := s.cond.expired (.thread t) }))).map fun c =>
          { s with config := c, cond := cond }
  | .test (.command k) =>
    match s.commands k with
    | .waiting g id endpoint =>
      (s.cond.test (.command k) (endpoint ∈ s.srvConfigAll g)).map fun cond =>
        { s.setCommand k (afterTest g id endpoint (endpoint ∈ s.srvConfigAll g)
            (s.cond.expired (.command k))) with cond := cond }
    | _ => none
  | .park w => (s.cond.park w).map fun cond => { s with cond := cond }
  | .rouse w expired => (s.cond.rouse w expired).map fun cond => { s with cond := cond }
  | .reconfigure g server endpoints =>
    some (s.setEndpoints g server endpoints)
  | .command k g command =>
    if s.commands k = .idle then some (s.setCommand k (.find g command)) else none
  | .find k =>
    match s.commands k with
    | .find g command =>
      match s.config.shared.raftServers g with
      | some server => some (s.setCommand k (.first g server command))
      | none => some (s.setCommand k (.done g command .serverNotFound))
    | _ => none
  | .issue k issued =>
    match s.commands k with
    | .first g server command =>
      some ((s.addCall k ⟨server, command, issued⟩).setCommand k
        (.afterFirst g server command issued))
    | .second g server command =>
      some (((s.addCall k ⟨server, command, issued⟩).handle k issued.code).setCommand k
        (.afterSecond g command issued))
    | _ => none
  | .complete k code =>
    match s.commands k with
    | .awaiting g command => some ((s.handle k (some code)).setCommand k (command.settle g code))
    | _ => none

/-- The steps as rules. -/
inductive Takes (node : Node) (s : State) : Label → State → Prop
  | thread (t input c) (hwaits : waitsFor (s.config.threads t) = none)
      (hlock : takesLock (s.config.threads t) → s.cond.holder = none)
      (hstep : Manager.step node s.config (.thread t input) = some c) :
      Takes node s (.thread t input) { s with config := c }
  | raftEvent (g event c) (hlock : eventLocks event → s.cond.holder = none)
      (hstep : Manager.step node s.config (.env (.raftEvent g event)) = some c) :
      Takes node s (.raftEvent g event)
        { s with config := c, cond := s.cond.announce (notifications event) }
  | registerMgrType (ty c) (hlock : s.cond.holder = none)
      (hstep : Manager.step node s.config (.env (.registerMgrType ty)) = some c) :
      Takes node s (.registerMgrType ty) { s with config := c }
  | notifyAll (cond) (hcond : s.cond.notifyAll = some cond) :
      Takes node s .notifyAll { s with cond := cond }
  | testThread (t g cond c) (hwaits : waitsFor (s.config.threads t) = some g)
      (hcond : s.cond.test (.thread t) (s.config.shared.readLeader g).2 = some cond)
      (hstep : Manager.step node s.config
        (.thread t (.go { expired := s.cond.expired (.thread t) })) = some c) :
      Takes node s (.test (.thread t)) { s with config := c, cond := cond }
  | testCommand (k g id endpoint cond) (hwaits : s.commands k = .waiting g id endpoint)
      (hcond : s.cond.test (.command k) (endpoint ∈ s.srvConfigAll g) = some cond) :
      Takes node s (.test (.command k)) { s.setCommand k (afterTest g id endpoint
        (endpoint ∈ s.srvConfigAll g) (s.cond.expired (.command k))) with cond := cond }
  | park (w cond) (hcond : s.cond.park w = some cond) :
      Takes node s (.park w) { s with cond := cond }
  | rouse (w expired cond) (hcond : s.cond.rouse w expired = some cond) :
      Takes node s (.rouse w expired) { s with cond := cond }
  | reconfigure (g server endpoints) :
      Takes node s (.reconfigure g server endpoints) (s.setEndpoints g server endpoints)
  | command (k g command) (hidle : s.commands k = .idle) :
      Takes node s (.command k g command) (s.setCommand k (.find g command))
  | found (k g command server) (hfind : s.commands k = .find g command)
      (hserver : s.config.shared.raftServers g = some server) :
      Takes node s (.find k) (s.setCommand k (.first g server command))
  | notFound (k g command) (hfind : s.commands k = .find g command)
      (hserver : s.config.shared.raftServers g = none) :
      Takes node s (.find k) (s.setCommand k (.done g command .serverNotFound))
  | first (k g server command issued) (hfirst : s.commands k = .first g server command) :
      Takes node s (.issue k issued) ((s.addCall k ⟨server, command, issued⟩).setCommand k
        (.afterFirst g server command issued))
  | second (k g server command issued) (hsecond : s.commands k = .second g server command) :
      Takes node s (.issue k issued)
        (((s.addCall k ⟨server, command, issued⟩).handle k issued.code).setCommand k
          (.afterSecond g command issued))
  | complete (k g command code) (hawaiting : s.commands k = .awaiting g command) :
      Takes node s (.complete k code)
        ((s.handle k (some code)).setCommand k (command.settle g code))

variable {node : Node} {s s' : State} {l : Label} {g : GroupId} {t : ℕ}
  {types : List GroupType} {labels : List Label}

/-- Every step is an instance of a rule. -/
theorem takes_of_step (hstep : step node s l = some s') : Takes node s l s' := by
  cases l with
  | thread t input =>
    simp only [step] at hstep
    split at hstep
    · cases hstep
    · next hfree =>
      obtain ⟨c, hc, rfl⟩ := Option.map_eq_some_iff.mp hstep
      simp only [Bool.or_eq_true, Bool.and_eq_true, not_or, not_and, Option.not_isSome_iff_eq_none]
        at hfree
      exact .thread t input c hfree.1 hfree.2 hc
  | raftEvent g event =>
    simp only [step] at hstep
    split at hstep
    · cases hstep
    · next hfree =>
      obtain ⟨c, hc, rfl⟩ := Option.map_eq_some_iff.mp hstep
      simp only [Bool.and_eq_true, not_and, Option.not_isSome_iff_eq_none] at hfree
      exact .raftEvent g event c hfree hc
  | registerMgrType ty =>
    simp only [step] at hstep
    split at hstep
    · cases hstep
    · next hfree =>
      obtain ⟨c, hc, rfl⟩ := Option.map_eq_some_iff.mp hstep
      exact .registerMgrType ty c (Option.not_isSome_iff_eq_none.mp hfree) hc
  | notifyAll =>
    obtain ⟨cond, hcond, rfl⟩ := Option.map_eq_some_iff.mp hstep
    exact .notifyAll cond hcond
  | test w =>
    cases w with
    | thread t =>
      simp only [step] at hstep
      split at hstep
      · cases hstep
      · next g hwaits =>
        obtain ⟨cond, hcond, hrest⟩ := Option.bind_eq_some_iff.mp hstep
        obtain ⟨c, hc, rfl⟩ := Option.map_eq_some_iff.mp hrest
        exact .testThread t g cond c hwaits hcond hc
    | command k =>
      simp only [step] at hstep
      split at hstep
      · next g id endpoint hwaits =>
        obtain ⟨cond, hcond, rfl⟩ := Option.map_eq_some_iff.mp hstep
        exact .testCommand k g id endpoint cond hwaits hcond
      · cases hstep
  | park w =>
    obtain ⟨cond, hcond, rfl⟩ := Option.map_eq_some_iff.mp hstep
    exact .park w cond hcond
  | rouse w expired =>
    obtain ⟨cond, hcond, rfl⟩ := Option.map_eq_some_iff.mp hstep
    exact .rouse w expired cond hcond
  | reconfigure g server endpoints =>
    cases hstep
    exact .reconfigure g server endpoints
  | command k g command =>
    simp only [step] at hstep
    split at hstep
    · next hidle =>
      cases hstep
      exact .command k g command hidle
    · cases hstep
  | find k =>
    simp only [step] at hstep
    split at hstep
    · next g command hfind =>
      split at hstep
      · next server hserver =>
        cases hstep
        exact .found k g command server hfind hserver
      · next hserver =>
        cases hstep
        exact .notFound k g command hfind hserver
    · cases hstep
  | issue k issued =>
    simp only [step] at hstep
    split at hstep
    · next g server command hfirst =>
      cases hstep
      exact .first k g server command issued hfirst
    · next g server command hsecond =>
      cases hstep
      exact .second k g server command issued hsecond
    · cases hstep
  | complete k code =>
    simp only [step] at hstep
    split at hstep
    · next g command hawaiting =>
      cases hstep
      exact .complete k g command code hawaiting
    · cases hstep

/-- With its lock a node does nothing that it does not do without it. -/
theorem projects_config : Refinement.Projects (step node) (Manager.step node) State.config := by
  intro s l s' hstep
  cases takes_of_step hstep with
  | thread t input c hwaits hlock hnode => exact Refinement.exists_run_of_step hnode
  | raftEvent g event c hlock hnode => exact Refinement.exists_run_of_step hnode
  | registerMgrType ty c hlock hnode => exact Refinement.exists_run_of_step hnode
  | testThread t g cond c hwaits hcond hnode => exact Refinement.exists_run_of_step hnode
  | _ => exact Refinement.exists_run_of_eq rfl

/-! ## A test of the flag -/

/-- Where a wait for the flag goes when the flag is up. -/
def passed : Pc → Pc
  | .createWait g => .done (.created g)
  | .becomeWait g => .done (.leads g)
  | pc => pc

/-- Where a wait for the flag goes when it was in vain. -/
def timedOut : Pc → Pc
  | .createWait g => .done (.createTimedOut g)
  | .becomeWait g => .done (.becomeFailed g .timeout)
  | pc => pc

/-- What a test of the flag does with its thread. -/
def afterFlag (pc : Pc) (holds expired : Bool) : Pc :=
  if holds then passed pc else if expired then timedOut pc else pc

/-- The step that `Manager` has for a wait is a test. -/
theorem advance_wait {r : Registry} {pc : Pc} (a : Surroundings) (hwaits : waitsFor pc = some g) :
    advance node t r a pc =
      some ((r.readLeader g).1, afterFlag pc (r.readLeader g).2 a.expired) := by
  cases pc with
  | createWait g' =>
    cases hwaits
    simp only [advance, afterFlag, passed, timedOut]
    split
    · rfl
    · split <;> rfl
  | becomeWait g' =>
    cases hwaits
    simp only [advance, afterFlag, passed, timedOut]
    split
    · rfl
    · split <;> rfl
  | _ => cases hwaits

/-- A test of the flag, as a step of the node. -/
theorem step_wait (node : Node) {c : Config} (a : Surroundings)
    (hwaits : waitsFor (c.threads t) = some g) :
    Manager.step node c (.thread t (.go a)) = some ⟨(c.shared.readLeader g).1, Function.update
      c.threads t (afterFlag (c.threads t) (c.shared.readLeader g).2 a.expired)⟩ :=
  step_of_advance (advance_wait a hwaits)

/-- After its wait a thread does not wait again. -/
theorem waitsFor_passed {pc : Pc} (hwaits : waitsFor pc = some g) :
    waitsFor (passed pc) = none := by
  cases pc with
  | createWait | becomeWait => rfl
  | _ => cases hwaits

/-- Nor after its time is over. -/
theorem waitsFor_timedOut {pc : Pc} (hwaits : waitsFor pc = some g) :
    waitsFor (timedOut pc) = none := by
  cases pc with
  | createWait | becomeWait => rfl
  | _ => cases hwaits

/-- Reading a flag raises none. -/
theorem isLeader_readLeader {r : Registry} {g g' : GroupId}
    (hflag : (r.readLeader g').1.isLeader g = some true) : r.isLeader g = some true := by
  rcases PartialMap.eq_some_of_emplace_eq_some hflag with hold | ⟨-, -, hfalse⟩
  · exact hold
  · cases hfalse

/-! ## Who is in the wait -/

/-- The waiter is where it waits. -/
def Attends (s : State) : Waiter → Prop
  | .thread t => (waitsFor (s.config.threads t)).isSome
  | .command k => ∃ g id endpoint, s.commands k = .waiting g id endpoint

/-- Whoever is in the wait is where it waits. -/
def Attended (s : State) : Prop := ∀ w, s.cond.phase w ≠ .outside → Attends s w

/-- Another command moves. -/
theorem Attended.setCommand {k : ℕ} {pc : CommandPc} (hs : Attended s)
    (hother : ∀ g id endpoint, s.commands k ≠ .waiting g id endpoint) :
    Attended (s.setCommand k pc) := by
  intro w hw
  have hattends := hs w hw
  cases w with
  | thread t => exact hattends
  | command k' =>
    have hne : k' ≠ k := by
      rintro rfl
      obtain ⟨g, id, endpoint, hwaits⟩ := hattends
      exact hother g id endpoint hwaits
    simp only [Attends, State.setCommand, Function.update_of_ne hne]
    exact hattends

/-- A step of a thread that is not in the wait leaves the waiters where they wait. -/
theorem Attended.thread {input : Input} {c : Config} (hs : Attended s)
    (hwaits : waitsFor (s.config.threads t) = none)
    (hstep : Manager.step node s.config (.thread t input) = some c) :
    Attended { s with config := c } := by
  intro w hw
  have hattends := hs w hw
  cases w with
  | thread u =>
    have hne : u ≠ t := by
      rintro rfl
      simp only [Attends, hwaits] at hattends
      cases hattends
    simp only [Attends, (Interleaving.exec_of_step hstep).2 u hne]
    exact hattends
  | command k => exact hattends

/-- A waiter tests: it is still where it waits unless it leaves. -/
theorem Attended.test {w : Waiter} {holds : Bool} {cond : Cond Waiter} (hs : Attended s)
    (hcond : s.cond.test w holds = some cond) (hconfig : s'.cond = cond)
    (hothers : ∀ v, v ≠ w → Attends s v → Attends s' v)
    (hself : holds = false → s.cond.expired w = false → Attends s' w) : Attended s' := by
  subst hconfig
  intro v hv
  obtain ⟨-, -, ⟨-, heq⟩ | ⟨hfalse, hexpired, heq⟩⟩ := Cond.test_eq_some hcond <;>
    rw [heq] at hv
  · by_cases hvw : v = w
    · subst hvw
      simp only [Function.update_self, ne_eq, not_true_eq_false] at hv
    · simp only [Function.update_of_ne hvw] at hv
      exact hothers v hvw (hs v hv)
  · by_cases hvw : v = w
    · subst hvw
      exact hself hfalse hexpired
    · simp only [Function.update_of_ne hvw] at hv
      exact hothers v hvw (hs v hv)

/-- What comes from outside moves no thread. -/
theorem Attended.env {event : External} {c : Config} {cond : Cond Waiter} (hs : Attended s)
    (hnode : Manager.step node s.config (.env event) = some c)
    (hphase : cond.phase = s.cond.phase) : Attended { s with config := c, cond := cond } := by
  obtain ⟨r, -, rfl⟩ := Interleaving.step_env hnode
  intro w hw
  have hattends := hs w (hphase ▸ hw)
  cases w <;> exact hattends

/-- A waiter goes from one phase of the wait to another. -/
theorem Attended.setPhase {w : Waiter} {phase : Phase} {cond : Cond Waiter} (hs : Attended s)
    (hphase : cond.phase = Function.update s.cond.phase w phase)
    (hinside : s.cond.phase w ≠ .outside) : Attended { s with cond := cond } := by
  intro v hv
  by_cases hvw : v = w
  · subst hvw
    exact hs v hinside
  · simp only [hphase, Function.update_of_ne hvw] at hv
    exact hs v hv

/-- Each step keeps whoever is in the wait where it waits. -/
theorem Attended.step (hs : Attended s) (hstep : step node s l = some s') : Attended s' := by
  cases takes_of_step hstep with
  | thread t input c hwaits hlock hnode => exact hs.thread hwaits hnode
  | raftEvent g event c hlock hnode | registerMgrType ty c hlock hnode => exact hs.env hnode rfl
  | notifyAll cond hcond =>
    intro w hw
    obtain ⟨-, rfl⟩ := Cond.notifyAll_eq_some hcond
    refine hs w fun hout => hw ?_
    simp only [hout, reduceCtorEq, if_false]
  | testThread t g cond c hwaits hcond hnode =>
    refine hs.test hcond rfl (fun v hv hattends => ?_) fun hfalse hexpired => ?_
    · cases v with
      | thread u =>
        have hne : u ≠ t := fun heq => hv (congrArg Waiter.thread heq)
        simpa only [Attends, (Interleaving.exec_of_step hnode).2 u hne] using hattends
      | command k => exact hattends
    · rw [step_wait node _ hwaits, hfalse, hexpired] at hnode
      cases hnode
      simp only [Attends, Function.update_self]
      exact Option.isSome_iff_exists.mpr ⟨g, hwaits⟩
  | testCommand k g id endpoint cond hwaits hcond =>
    refine hs.test hcond rfl (fun v hv hattends => ?_) fun hfalse hexpired => ?_
    · cases v with
      | thread t => exact hattends
      | command k' =>
        have hne : k' ≠ k := fun heq => hv (congrArg Waiter.command heq)
        simpa only [Attends, State.setCommand, Function.update_of_ne hne] using hattends
    · simp only [Attends, State.setCommand, Function.update_self, hfalse, hexpired]
      exact ⟨g, id, endpoint, rfl⟩
  | park w cond hcond =>
    obtain ⟨htested, rfl⟩ := Cond.park_eq_some hcond
    exact hs.setPhase rfl (by rw [htested]; exact Phase.noConfusion)
  | rouse w expired cond hcond =>
    obtain ⟨hparked, rfl⟩ := Cond.rouse_eq_some hcond
    exact hs.setPhase rfl (by rw [hparked]; exact Phase.noConfusion)
  | reconfigure => exact hs
  | command k g command hidle =>
    exact hs.setCommand fun _ _ _ h => CommandPc.noConfusion (hidle.symm.trans h)
  | found k g command server hfind =>
    exact hs.setCommand fun _ _ _ h => CommandPc.noConfusion (hfind.symm.trans h)
  | notFound k g command hfind =>
    exact hs.setCommand fun _ _ _ h => CommandPc.noConfusion (hfind.symm.trans h)
  | first k g server command issued hfirst =>
    exact Attended.setCommand (s := s.addCall k _) hs fun _ _ _ h =>
      CommandPc.noConfusion (hfirst.symm.trans h)
  | second k g server command issued hsecond =>
    exact Attended.setCommand (s := (s.addCall k _).handle k _) hs fun _ _ _ h =>
      CommandPc.noConfusion (hsecond.symm.trans h)
  | complete k g command code hawaiting =>
    exact Attended.setCommand (s := s.handle k _) hs fun _ _ _ h =>
      CommandPc.noConfusion (hawaiting.symm.trans h)

/-! ## No lost wake-up -/

/-- The waiter would find the flag of the group up. -/
def Passes (g : GroupId) (s : State) : Waiter → Prop
  | .thread t => waitsFor (s.config.threads t) = some g ∧ s.config.shared.isLeader g = some true
  | .command _ => False

/-- The label is not a `JoinedCluster` event that says that this node leads the group. -/
def NotJoinedAsLeader (g : GroupId) (l : Label) : Prop :=
  ∀ leaderId myId, leaderId = myId → l ≠ .raftEvent g (.joinedCluster leaderId myId)

/-- What keeps the waiters for the flag of a group from being forgotten. -/
structure Inv (g : GroupId) (s : State) : Prop where
  attended : Attended s
  watchful : Watchful (Passes g s) s.cond

/-- At the beginning nobody waits and nobody leads. -/
theorem inv_start (g : GroupId) (types : List GroupType) : Inv g (start types) where
  attended _ hw := absurd rfl hw
  watchful := watchful_idle _

/-- An event raises the flag with the lock free, and then somebody is going to notify. -/
theorem passes_of_raftEvent {g' : GroupId} {event : RaftEvent} {c : Config} {cond : Cond Waiter}
    {w : Waiter} (hlabel : NotJoinedAsLeader g (.raftEvent g' event))
    (hlock : eventLocks event → s.cond.holder = none)
    (hnode : Manager.step node s.config (.env (.raftEvent g' event)) = some c)
    (hpasses : Passes g { s with config := c, cond := cond } w) :
    Passes g s w ∨ s.cond.holder = none ∧ 0 < notifications event := by
  obtain ⟨r, hdeliver, rfl⟩ := Interleaving.step_env hnode
  cases hdeliver
  cases w with
  | command k => exact Or.inl hpasses
  | thread t =>
    obtain ⟨hwaits, hflag⟩ := hpasses
    cases hleads : event.leads with
    | none =>
      simp only [Registry.genericRaftEventHandler, hleads] at hflag
      exact Or.inl ⟨hwaits, hflag⟩
    | some leads =>
      have hfree : s.cond.holder = none := hlock (by simp [eventLocks, hleads])
      simp only [Registry.genericRaftEventHandler, hleads] at hflag
      by_cases hg : g = g'
      · subst hg
        obtain rfl : leads = true := by simpa using hflag
        cases event with
        | joinedCluster leaderId myId =>
          exact absurd rfl (hlabel leaderId myId (of_decide_eq_true (Option.some.inj hleads)))
        | becomeLeader => exact Or.inr ⟨hfree, Nat.one_pos⟩
        | _ => cases hleads
      · rw [PartialMap.assign_of_ne hg] at hflag
        exact Or.inl ⟨hwaits, hflag⟩

/-- Whoever would find the flag up after the test of a thread would have found it before. -/
theorem passes_of_test {g' : GroupId} {around : Surroundings} {c : Config} {cond : Cond Waiter}
    {w : Waiter} (hwaits : waitsFor (s.config.threads t) = some g')
    (hnode : Manager.step node s.config (.thread t (.go around)) = some c)
    (hpasses : Passes g { s with config := c, cond := cond } w) : Passes g s w := by
  rw [step_wait node _ hwaits] at hnode
  cases hnode
  cases w with
  | command k => exact hpasses
  | thread u =>
    obtain ⟨hwaits', hflag⟩ := hpasses
    refine ⟨?_, isLeader_readLeader hflag⟩
    by_cases hut : u = t
    · subst hut
      simp only [Function.update_self, afterFlag] at hwaits'
      split at hwaits'
      · rw [waitsFor_passed hwaits] at hwaits'
        cases hwaits'
      · split at hwaits'
        · rw [waitsFor_timedOut hwaits] at hwaits'
          cases hwaits'
        · exact hwaits'
    · simpa only [Function.update_of_ne hut] using hwaits'

/-- Each field is kept, as long as no server of the group comes into being as the leader. -/
theorem Inv.step (hs : Inv g s) (hlabel : NotJoinedAsLeader g l)
    (hstep : step node s l = some s') : Inv g s' := by
  refine ⟨hs.attended.step hstep, ?_⟩
  -- For most steps the lock and the flags stay as they are.
  have hsame : ∀ {P : Waiter → Prop}, (∀ w, s.cond.phase w ≠ .outside → P w → Passes g s w) →
      Watchful P s.cond := by
    intro P hP
    refine hs.watchful.change (n := 0) fun w hphase hw => Or.inl (hP w ?_ hw)
    rcases hphase with hphase | hphase <;> rw [hphase] <;> exact Phase.noConfusion
  cases takes_of_step hstep with
  | thread t input c hwaits hlock hnode =>
    obtain ⟨hexec, hothers⟩ := Interleaving.exec_of_step hnode
    refine hsame fun w hw hpasses => ?_
    cases w with
    | command k => exact hpasses
    | thread u =>
      have hne : u ≠ t := by
        rintro rfl
        have hattends : (waitsFor (s.config.threads u)).isSome := hs.attended _ hw
        rw [hwaits] at hattends
        cases hattends
      simp only [Passes, hothers u hne] at hpasses
      exact ⟨hpasses.1, (moves_of_exec hexec).isLeader hpasses.2⟩
  | raftEvent g' event c hlock hnode =>
    exact hs.watchful.change fun w _ hw => passes_of_raftEvent hlabel hlock hnode hw
  | registerMgrType ty c hlock hnode =>
    obtain ⟨r, hdeliver, rfl⟩ := Interleaving.step_env hnode
    cases hdeliver
    exact hs.watchful
  | notifyAll cond hcond => exact hs.watchful.notifyAll hcond
  | testThread t g' cond c hwaits hcond hnode =>
    have htested : Watchful (Passes g s) cond := by
      refine hs.watchful.test (fun hpasses => ?_) hcond
      obtain rfl : g' = g := Option.some.inj (hwaits.symm.trans hpasses.1)
      exact (readLeader_snd _ _).mpr hpasses.2
    exact htested.change (n := 0) fun w _ hpasses => Or.inl (passes_of_test hwaits hnode hpasses)
  | testCommand k g' id endpoint cond hwaits hcond =>
    have hnever : Passes g s (.command k) → (endpoint ∈ s.srvConfigAll g' : Bool) := False.elim
    exact hs.watchful.test hnever hcond
  | park w cond hcond => exact hs.watchful.park hcond
  | rouse w expired cond hcond => exact hs.watchful.rouse hcond
  | _ => exact hs.watchful

/-- It holds in every state of such a run. -/
theorem inv_of_run (hrun : run (step node) (start types) labels = some s)
    (hlabels : ∀ l ∈ labels, NotJoinedAsLeader g l) : Inv g s :=
  run_invariant_of_labels (fun _ _ _ hs hlabel hstep => hs.step hlabel hstep) (inv_start g types)
    hlabels hrun

/-- With the flag up and the lock free, a waiter that was roused passes. -/
theorem exists_test_passed (node : Node) (hwaits : waitsFor (s.config.threads t) = some g)
    (hflag : s.config.shared.isLeader g = some true) (hfree : s.cond.holder = none)
    (hwoken : s.cond.phase (.thread t) = .woken false) :
    ∃ s', step node s (.test (.thread t)) = some s' ∧
      s'.config.threads t = passed (s.config.threads t) := by
  have hholds : (s.config.shared.readLeader g).2 = true := (readLeader_snd _ _).mpr hflag
  have hready : s.cond.ready (.thread t) = true := by simp only [Cond.ready, hwoken]
  obtain ⟨cond, hcond⟩ : ∃ cond,
      s.cond.test (.thread t) (s.config.shared.readLeader g).2 = some cond := by
    rw [hholds]
    exact ⟨_, Cond.test_of_holds hfree hready⟩
  obtain ⟨c, hnode, hpassed⟩ : ∃ c, Manager.step node s.config
      (.thread t (.go { expired := s.cond.expired (.thread t) })) = some c ∧
      c.threads t = passed (s.config.threads t) := by
    refine ⟨_, step_wait node _ hwaits, ?_⟩
    simp only [Function.update_self, afterFlag, hholds, if_true]
  refine ⟨{ s with config := c, cond := cond }, ?_, hpassed⟩
  simp only [step, hwaits, hcond, hnode, Option.bind_some, Option.map_some]

/-- Whoever holds the lock can give it up. -/
theorem step_park (node : Node) {w : Waiter} (htested : s.cond.phase w = .tested) :
    step node s (.park w) = some { s with cond := { s.cond with
      phase := Function.update s.cond.phase w .parked, holder := none } } := by
  simp only [step, Cond.park_of_tested htested, Option.map_some]

/-- Whoever waits for the leadership of a group is not forgotten. If the flag is up while a
`create_group` or `become_leader` is blocked, then a notification is on its way; once it is sent
and the lock is free, the wait ends in success and does not need its timeout. This holds as long
as no `JoinedCluster` event raises the flag, since its handler does not notify. -/
theorem no_lost_wakeup (hrun : run (step node) (start types) labels = some s)
    (hlabels : ∀ l ∈ labels, NotJoinedAsLeader g l)
    (hparked : s.cond.phase (.thread t) = .parked)
    (hwaits : waitsFor (s.config.threads t) = some g)
    (hflag : s.config.shared.isLeader g = some true) :
    ∃ s', run (step node) s
        (.notifyAll :: s.cond.holder.toList.map .park ++ [.test (.thread t)]) = some s' ∧
      s'.config.threads t = passed (s.config.threads t) := by
  have hs := inv_of_run hrun hlabels
  have hpending := hs.watchful.parked _ hparked ⟨hwaits, hflag⟩
  obtain ⟨cond, hcond, hholder, hroused⟩ := Cond.exists_notifyAll hpending
  have hwatchful := hs.watchful.notifyAll hcond
  have hnotify : step node s .notifyAll = some { s with cond := cond } := by
    simp only [step, hcond, Option.map_some]
  cases hheld : s.cond.holder with
  | none =>
    obtain ⟨s', hs', hpassed⟩ :=
      exists_test_passed node (s := { s with cond := cond }) hwaits hflag
        (hholder.trans hheld) (hroused _ hparked)
    refine ⟨s', ?_, hpassed⟩
    simp only [Option.toList_none, List.map_nil, List.nil_append, List.cons_append, run_cons,
      hnotify, Option.bind_some, hs', run_nil]
  | some w =>
    have htested := (hwatchful.holder w).mpr (hholder.trans hheld)
    have hne : Waiter.thread t ≠ w := by
      rintro rfl
      rw [hroused _ hparked] at htested
      cases htested
    have hpark := step_park node (s := { s with cond := cond }) htested
    obtain ⟨s', hs', hpassed⟩ := exists_test_passed node (s := { s with cond :=
        { cond with phase := Function.update cond.phase w .parked, holder := none } })
      hwaits hflag rfl ((Function.update_of_ne hne ..).trans (hroused _ hparked))
    refine ⟨s', ?_, hpassed⟩
    simp only [Option.toList_some, List.map_cons, List.map_nil, List.nil_append, List.cons_append,
      run_cons, hnotify, hpark, Option.bind_some, hs', run_nil]

/-- A `create_group` that is blocked when `event` comes. -/
def createAndPark (event : RaftEvent) : List Label :=
  .thread 0 (.call (.createGroup 1 "raft")) ::
    List.replicate 6 (.thread 0 (.go { created := .stateMgr 10 })) ++
    [.test (.thread 0), .park (.thread 0), .raftEvent 1 event]

/-- It becomes the leader and returns. -/
theorem woken_by_becomeLeader :
    ∃ s s', run (step sampleNode) (start ["raft"]) (createAndPark .becomeLeader) = some s ∧
      s.cond.phase (.thread 0) = .parked ∧
      run (step sampleNode) s [.notifyAll, .test (.thread 0)] = some s' ∧
      s'.config.threads 0 = .done (.created 1) := by
  obtain ⟨s, hrun, hparked, hpc, hflag, hheld⟩ : ∃ s,
      run (step sampleNode) (start ["raft"]) (createAndPark .becomeLeader) = some s ∧
      s.cond.phase (.thread 0) = .parked ∧ s.config.threads 0 = .createWait 1 ∧
      s.config.shared.isLeader 1 = some true ∧ s.cond.holder = none :=
    ⟨_, rfl, rfl, rfl, rfl, rfl⟩
  have hlabels : ∀ l ∈ createAndPark .becomeLeader, NotJoinedAsLeader 1 l := by
    intro l hl leaderId myId hsame hjoined
    subst hjoined
    simp [createAndPark] at hl
  obtain ⟨s', hrun', hpassed⟩ := no_lost_wakeup hrun hlabels hparked (g := 1)
    (by rw [hpc]; rfl) hflag
  rw [hheld] at hrun'
  rw [hpc] at hpassed
  exact ⟨s, s', hrun, hparked, hrun', hpassed⟩

/-- After a `JoinedCluster` that says the same nobody is going to wake it: only its timeout will
make it look at the flag again. -/
example :
    ∃ s, run (step sampleNode) (start ["raft"]) (createAndPark (.joinedCluster 5 5)) = some s ∧
      s.cond.phase (.thread 0) = .parked ∧ s.config.threads 0 = .createWait 1 ∧
      s.config.shared.isLeader 1 = some true ∧ step sampleNode s .notifyAll = none :=
  ⟨_, rfl, rfl, rfl, rfl, rfl⟩

end NuraftMesg.Manager.Waiting
