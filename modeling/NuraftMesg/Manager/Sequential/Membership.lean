import NuraftMesg.Manager.Effects

/-!
# What the manager is for

`Membership` says what a node is to its applications: the state managers that it keeps for
groups, the groups whose messages it handles, the registered types, which groups it leads
and which state managers were destroyed. Every operation is one step on it, up to the wait
that it may end in. `view` reads a membership off the registries; between two operations
they are `Coherent`, and this file says what registering and unregistering a server do to
coherent registries.
-/

namespace NuraftMesg.Manager.Sequential

open Proto

/-! ## The abstract machine -/

/-- The purpose of a node. -/
structure Membership where
  /-- The registered types. -/
  types : List GroupType
  /-- The state managers that the node keeps for groups. A null pointer is kept where the creation
  of the state manager failed. -/
  managers : PartialMap GroupId (Option StateMgrId)
  /-- The groups whose messages the node handles. -/
  serves : GroupId → Bool
  /-- The groups that the node leads. -/
  leads : GroupId → Bool
  /-- The state managers of the groups that it has left. -/
  destroyed : List StateMgrId

/-- How a request ends. -/
inductive Verdict where
  | ok
  | failed (code : CmdResultCode)
  | replied (reply : Reply)
  | threw

/-- What has become of a request. -/
inductive Progress where
  | ended (verdict : Verdict)
  /-- The caller waits until the node leads the group; `code` is what it gets if it waits in
  vain. -/
  | waits (g : GroupId) (code : CmdResultCode)

/-- How an attempt to become a member of a group ends. -/
inductive Entry where
  | accepted (s : Membership)
  | refused (code : CmdResultCode)
  /-- An exception of the application's code or of the server's constructor. -/
  | threw (s : Membership)

/-- A group without a type is of the default type. -/
def typeOf (node : Node) (ty : GroupType) : GroupType :=
  if ty = "" then node.defaultGroupType else ty

namespace Membership

variable (s : Membership) (node : Node) (a : Surroundings)

/-- Keep a state manager for a group, unless there is one. -/
def keep (g : GroupId) (m : Option StateMgrId) : Membership :=
  { s with managers := s.managers.emplace g m }

/-- Start to handle the messages of a group that has its state manager. When this throws, the
state manager is kept. -/
def equip (g : GroupId) : Entry :=
  match a.aborts with
  | none => .accepted { s with serves := Function.update s.serves g true }
  | some _ => .threw s

/-- Become a member of the group, unless the node is one; a null pointer in the place of the state
manager has no behaviour. -/
def enter (g : GroupId) (ty : GroupType) : Option Entry :=
  if a.managerAlive then
    if s.serves g then some (.accepted s)
    else if typeOf node ty ∈ s.types then
      match s.managers g, a.created with
      | some (some _), _ => some (s.equip a g)
      | some none, _ => none
      | none, .stateMgr m => some ((s.keep g (some m)).equip a g)
      | none, .null => none
      | none, .throws => some (.threw (s.keep g none))
    else some (.refused .serverNotFound)
  else some (.refused .cancelled)

/-- A message of a group is answered. -/
def process (msg : RaftGroupMsg) (g : GroupId) : Option (Membership × Progress) :=
  if s.serves g then
    (executeStep a.beyond msg a.answer).map fun result => (s, .ended (.replied result.2))
  else
    some (s, .ended (.replied { status := missingGroup msg, groupId := msg.groupId }))

/-- A request as one step, up to its wait; `none` if the source has no defined behaviour. -/
def perform : Operation → Option (Membership × Progress)
  | .createGroup g ty =>
    (s.enter node a g ty).map fun
      | .accepted s' => (s', if s'.leads g then .ended .ok else .waits g .cancelled)
      | .refused code => (s, .ended (.failed code))
      | .threw s' => (s', .ended .threw)
  | .joinGroup g ty m =>
    ((s.keep g m).enter node a g ty).map fun
      | .accepted s' => (s', .ended .ok)
      -- what was kept for the group before is given up as well
      | .refused code => ({ s with managers := s.managers.erase g }, .ended (.failed code))
      | .threw s' => (s', .ended .threw)
  | .leaveGroup g =>
    match s.managers g with
    | none => some (s, .ended .ok)
    | some none => none
    | some (some m) => some ({ s with
        managers := s.managers.erase g
        serves := Function.update s.serves g false
        destroyed := s.destroyed ++ [m] }, .ended .ok)
  | .becomeLeader g =>
    some (s, if s.leads g then .ended .ok
      else if s.serves g && a.leadership then .waits g .timeout else .ended (.failed .cancelled))
  | .raftStep msg =>
    match checkMessage node msg with
    | .error status => some (s, .ended (.replied { status := status }))
    | .ok g =>
      if isJoinRequest msg then
        (s.enter node a g msg.groupType).bind fun
          | .accepted s' => s'.process a msg g
          | .refused _ => s.process a msg g
          | .threw s' => some (s', .ended .threw)
      else s.process a msg g
  | .reap _ _ => some (s, .ended .ok)

/-- What other parties tell the node. -/
def deliver : External → Membership
  | .raftEvent g event =>
    match event.leads with
    | some leads => { s with leads := Function.update s.leads g leads }
    | none => s
  | .registerMgrType ty => { s with types := if ty ∈ s.types then s.types else ty :: s.types }

end Membership

/-- A node with the requests that were made of it. -/
structure Machine where
  membership : Membership
  /-- What has become of the requests, the first one first. -/
  calls : List Progress

/-- Something that happens to a node. -/
inductive Item where
  | request (op : Operation) (a : Surroundings)
  | event (event : External)
  /-- The caller of a request that waits looks whether the node leads the group; `expired` if its
  time is over. -/
  | look (t : ℕ) (expired : Bool)

/-- One thing happens to a node. -/
def Machine.handle (node : Node) (m : Machine) : Item → Option Machine
  | .request op a =>
    (m.membership.perform node a op).map fun result => ⟨result.1, m.calls ++ [result.2]⟩
  | .event event => some { m with membership := m.membership.deliver event }
  | .look t expired =>
    match m.calls[t]? with
    | some (.waits g code) =>
      some { m with calls := m.calls.set t (
        if m.membership.leads g then .ended .ok
        else if expired then .ended (.failed code) else .waits g code) }
    | _ => none

/-- A node that is in no group. -/
def Machine.fresh (types : List GroupType) : Machine :=
  ⟨⟨types, fun _ => none, fun _ => false, fun _ => false, []⟩, []⟩

/-! ## The registries as a membership -/

/-- What the registries stand for. -/
def view (r : Registry) : Membership where
  types := r.stateMgrTypes
  managers := r.stateManagers
  serves g := (r.raftServers g).isSome
  leads g := (r.isLeader g).getD false
  destroyed := r.destroyed

/-- Between two operations the servers with a listener are the registered ones, and no frame of
`joinRaftGroup` is left. -/
structure Coherent (r : Registry) : Prop where
  frame : ∀ g (i : ℕ) (server : RaftServer), (r.servers g)[i]? = some server → server.frame = none
  listener : ∀ g i, r.raftServers g = some i ↔
    ∃ server : RaftServer, (r.servers g)[i]? = some server ∧ server.listener = true

variable {node : Node} {g : GroupId} {t : ℕ} {r r' : Registry} {m : StateMgrId}

/-- State managers and flags do not matter for it. -/
theorem Coherent.congr (h : Coherent r) (hmap : r'.raftServers = r.raftServers)
    (hservers : r'.servers = r.servers) : Coherent r' := by
  refine ⟨fun g => ?_, fun g => ?_⟩
  · rw [hservers]
    exact h.frame g
  · rw [hservers, hmap]
    exact h.listener g

/-- Reading or inserting a flag changes nothing that can be seen. -/
theorem view_insertLeader (r : Registry) (g : GroupId) : view (r.insertLeader g) = view r := by
  have hleads : (view (r.insertLeader g)).leads = (view r).leads := by
    funext g'
    simp only [view, Registry.insertLeader]
    by_cases hg : g' = g
    · subst hg
      rw [PartialMap.emplace_self]
      cases r.isLeader g' <;> rfl
    · rw [PartialMap.emplace_of_ne hg]
  exact congrArg (fun leads => { view r with leads := leads }) hleads

/-! ## Registering a server -/

/-- A server with the state manager is built for the group and registered. -/
def seat (r : Registry) (g : GroupId) (m : StateMgrId) : Registry :=
  { r with
    raftServers := r.raftServers.assign g (r.servers g).length
    servers := Function.update r.servers g
      (r.servers g ++ [{ stateMgr := m, listener := true, frame := none }]) }

/-- This is what the steps of `joinRaftGroup` come to. -/
theorem endFrame_tryEmplace (hnone : r.raftServers g = none) :
    (((r.buildServer t g m).tryEmplace g (r.servers g).length).1.endFrame g
      (r.servers g).length true).1 = seat r g m := by
  simp only [Registry.endFrame, Registry.updateServer, Registry.tryEmplace, Registry.buildServer,
    seat, Function.update_self, Function.update_idem, Cells.update_alloc, PartialMap.emplace,
    hnone, Option.isSome_none, Bool.false_eq_true, if_false, Bool.and_true]

/-- The new server is the only one of its group with a listener. -/
theorem Coherent.seat (h : Coherent r) (hnone : r.raftServers g = none) (m : StateMgrId) :
    Coherent (seat r g m) := by
  constructor
  · intro g' i server hserver
    simp only [Sequential.seat] at hserver
    by_cases hg : g' = g
    · subst hg
      rw [Function.update_self] at hserver
      rcases Cells.getElem?_alloc_cases hserver with hold | ⟨-, rfl⟩
      · exact h.frame g' i server hold
      · rfl
    · rw [Function.update_of_ne hg] at hserver
      exact h.frame g' i server hserver
  · intro g' i
    simp only [Sequential.seat]
    by_cases hg : g' = g
    · subst hg
      rw [PartialMap.assign_self, Function.update_self]
      constructor
      · intro heq
        obtain rfl := Option.some.inj heq
        exact ⟨_, List.getElem?_concat_length .., rfl⟩
      · rintro ⟨server, hserver, hlistener⟩
        rcases Cells.getElem?_alloc_cases hserver with hold | ⟨rfl, -⟩
        · rw [(h.listener g' i).mpr ⟨server, hold, hlistener⟩] at hnone
          cases hnone
        · rfl
    · rw [PartialMap.assign_of_ne hg, Function.update_of_ne hg]
      exact h.listener g' i

/-- The node handles the messages of one group more. -/
theorem view_seat (r : Registry) (g : GroupId) (m : StateMgrId) :
    view (seat r g m) = { view r with serves := Function.update (view r).serves g true } := by
  have hserves : (view (seat r g m)).serves = Function.update (view r).serves g true := by
    funext g'
    simp only [view, seat]
    by_cases hg : g' = g
    · subst hg
      rw [PartialMap.assign_self, Function.update_self]
      rfl
    · rw [PartialMap.assign_of_ne hg, Function.update_of_ne hg]
  exact congrArg (fun serves => { view r with serves := serves }) hserves

/-! ## Unregistering a server -/

/-- The server of the group is shut down and unregistered. -/
def vacate (r : Registry) (g : GroupId) (i : ℕ) : Registry :=
  (r.shutdownServer g i).1.eraseServer g

/-- A shutdown changes no frame. -/
theorem frame_of_shutdown {g' : GroupId} {i j : ℕ} {server : RaftServer}
    (hserver : ((r.shutdownServer g i).1.servers g')[j]? = some server) :
    ∃ old : RaftServer, (r.servers g')[j]? = some old ∧ server.frame = old.frame := by
  simp only [Registry.shutdownServer, Registry.updateServer] at hserver
  by_cases hg : g' = g
  · subst hg
    rw [Function.update_self] at hserver
    obtain ⟨old, hold, rfl⟩ := Cells.getElem?_update_cases hserver
    refine ⟨old, hold, ?_⟩
    split <;> rfl
  · rw [Function.update_of_ne hg] at hserver
    exact ⟨server, hserver, rfl⟩

/-- A shutdown takes the listener away from one server. -/
theorem listener_shutdown_iff (r : Registry) (g g' : GroupId) (i j : ℕ) :
    (∃ server : RaftServer, ((r.shutdownServer g i).1.servers g')[j]? = some server ∧
        server.listener = true) ↔
      (∃ old : RaftServer, (r.servers g')[j]? = some old ∧ old.listener = true) ∧
        ¬ (g' = g ∧ j = i) := by
  simp only [Registry.shutdownServer, Registry.updateServer]
  by_cases hg : g' = g
  · subst hg
    rw [Function.update_self, List.getElem?_modify]
    by_cases hj : i = j
    · simp [hj]
    · simp [hj, Ne.symm hj]
  · simp [hg]

/-- The registered server loses its listener together with its entry. -/
theorem Coherent.vacate {i : ℕ} (h : Coherent r) (hserver : r.raftServers g = some i) :
    Coherent (vacate r g i) := by
  constructor
  · intro g' j server hplace
    obtain ⟨old, hold, hframe⟩ := frame_of_shutdown hplace
    rw [hframe]
    exact h.frame g' j old hold
  · intro g' j
    rw [show (Sequential.vacate r g i).servers = (r.shutdownServer g i).1.servers from rfl,
      listener_shutdown_iff, ← h.listener]
    by_cases hg : g' = g
    · subst hg
      rw [show (Sequential.vacate r g' i).raftServers g' = none from PartialMap.erase_self,
        hserver]
      refine iff_of_false (Option.some_ne_none j).symm ?_
      rintro ⟨heq, hne⟩
      exact hne ⟨rfl, (Option.some.inj heq).symm⟩
    · rw [show (Sequential.vacate r g i).raftServers g' = r.raftServers g' from
        PartialMap.erase_of_ne hg]
      simp [hg]

/-- The node handles the messages of one group less. -/
theorem view_vacate (r : Registry) (g : GroupId) (i : ℕ) :
    view (vacate r g i) = { view r with serves := Function.update (view r).serves g false } := by
  have hserves : (view (vacate r g i)).serves = Function.update (view r).serves g false := by
    funext g'
    simp only [view, vacate, Registry.eraseServer]
    by_cases hg : g' = g
    · subst hg
      rw [PartialMap.erase_self, Function.update_self]
      rfl
    · rw [PartialMap.erase_of_ne hg, Function.update_of_ne hg]
      rfl
  exact congrArg (fun serves => { view r with serves := serves }) hserves

/-- A server that nothing refers to has lost its listener before. -/
theorem Coherent.shutdownServer {i : ℕ} (h : Coherent r) (hother : r.raftServers g ≠ some i) :
    Coherent (r.shutdownServer g i).1 := by
  refine ⟨fun g' j server hplace => ?_, fun g' j => ?_⟩
  · obtain ⟨old, hold, hframe⟩ := frame_of_shutdown hplace
    rw [hframe]
    exact h.frame g' j old hold
  · rw [listener_shutdown_iff, ← h.listener]
    refine ⟨fun hserver => ⟨hserver, ?_⟩, fun hserver => hserver.1⟩
    rintro ⟨rfl, rfl⟩
    exact hother hserver

end NuraftMesg.Manager.Sequential
