import NuraftMesg.Manager.Admission

/-!
# What belongs to one group

The registries are maps over groups, and every operation works on one group. This file
says which group a step belongs to, what two registries have in common if they agree
on a group, and the two facts from which isolation follows: a step of another group
leaves the part of a group alone, and a step of the group depends on nothing else.
-/

namespace NuraftMesg

/-- The registries agree on everything that concerns the group. -/
structure Registry.Agree (g : GroupId) (r r' : Registry) : Prop where
  types : r.stateMgrTypes = r'.stateMgrTypes
  manager : r.stateManagers g = r'.stateManagers g
  leader : r.isLeader g = r'.isLeader g
  server : r.raftServers g = r'.raftServers g
  servers : r.servers g = r'.servers g

namespace Registry.Agree

variable {g g' : GroupId} {r r' r'' : Registry} {t server : ℕ} {m : StateMgrId}

/-- A registry agrees with itself on every group. -/
theorem refl (g : GroupId) (r : Registry) : Agree g r r := ⟨rfl, rfl, rfl, rfl, rfl⟩

/-- Agreement can be read in both directions. -/
theorem symm (h : Agree g r r') : Agree g r' r :=
  ⟨h.types.symm, h.manager.symm, h.leader.symm, h.server.symm, h.servers.symm⟩

/-- Agreement is kept along two changes. -/
theorem trans (h : Agree g r r') (h' : Agree g r' r'') : Agree g r r'' :=
  ⟨h.types.trans h'.types, h.manager.trans h'.manager, h.leader.trans h'.leader,
    h.server.trans h'.server, h.servers.trans h'.servers⟩

/-! ## Operations on the group itself -/

/-- Whether the leadership flag is new depends on the flag of the group. -/
theorem insertLeader (h : Agree g r r') : Agree g (r.insertLeader g) (r'.insertLeader g) :=
  { h with leader := by simp [Registry.insertLeader, h.leader] }

/-- Whether the emplaced manager is new depends on the entry of the group. -/
theorem emplaceManager (m : Option StateMgrId) (h : Agree g r r') :
    Agree g (r.emplaceManager g m) (r'.emplaceManager g m) :=
  { h with manager := by simp [Registry.emplaceManager, h.manager] }

/-- After the erasure neither has a manager for the group. -/
theorem eraseManager (h : Agree g r r') : Agree g (r.eraseManager g) (r'.eraseManager g) :=
  { h with manager := by simp [Registry.eraseManager] }

/-- The new server stands behind the other servers of the group, at the same place. -/
theorem buildServer (t : ℕ) (m : StateMgrId) (h : Agree g r r') :
    Agree g (r.buildServer t g m) (r'.buildServer t g m) :=
  { h with servers := by rw [servers_buildServer, servers_buildServer, h.servers] }

/-- Whether the server is entered depends on the entry of the group. -/
theorem tryEmplace (server : ℕ) (h : Agree g r r') :
    Agree g (r.tryEmplace g server).1 (r'.tryEmplace g server).1 :=
  { h with server := by simp [Registry.tryEmplace, h.server] }

/-- After the erasure neither has a server for the group. -/
theorem eraseServer (h : Agree g r r') : Agree g (r.eraseServer g) (r'.eraseServer g) :=
  { h with server := by simp [Registry.eraseServer] }

/-- The same server of the group is written. -/
theorem updateServer (server : ℕ) (f : RaftServer → RaftServer) (h : Agree g r r') :
    Agree g (r.updateServer g server f) (r'.updateServer g server f) :=
  { h with servers := by rw [servers_updateServer, servers_updateServer, h.servers] }

/-- The listener is called in the one if it is called in the other. -/
theorem shutdownServer (server : ℕ) (h : Agree g r r') :
    (r.shutdownServer g server).2 = (r'.shutdownServer g server).2 := by
  simp only [Registry.shutdownServer, h.servers]

/-- Which managers were destroyed is no part of a group. -/
theorem setDestroyed {destroyed destroyed' : List StateMgrId} (h : Agree g r r') :
    Agree g { r with destroyed := destroyed } { r' with destroyed := destroyed' } :=
  ⟨h.types, h.manager, h.leader, h.server, h.servers⟩

/-- An event of the group writes its flag, or nothing. -/
theorem genericRaftEventHandler (event : RaftEvent) (h : Agree g r r') :
    Agree g (r.genericRaftEventHandler g event) (r'.genericRaftEventHandler g event) := by
  simp only [Registry.genericRaftEventHandler]
  cases event.leads with
  | none => exact h
  | some leads => exact { h with leader := by simp }

/-- The types are common to all groups. -/
theorem registerMgrType (ty : GroupType) (h : Agree g r r') :
    Agree g (r.registerMgrType ty) (r'.registerMgrType ty) :=
  { h with types := by simp only [Registry.registerMgrType, h.types] }

/-- Both have the same answer to whether the node leads the group. -/
theorem readLeader (h : Agree g r r') : (r.readLeader g).2 = (r'.readLeader g).2 := by
  simp only [Registry.readLeader, h.leader]

/-! ## Operations on another group -/

/-- The leadership flag of another group is another entry. -/
theorem insertLeader_of_ne (hne : g' ≠ g) : Agree g r (r.insertLeader g') :=
  { refl g r with leader := (PartialMap.emplace_of_ne hne.symm).symm }

/-- So is the state manager of another group. -/
theorem emplaceManager_of_ne (hne : g' ≠ g) (m : Option StateMgrId) :
    Agree g r (r.emplaceManager g' m) :=
  { refl g r with manager := (PartialMap.emplace_of_ne hne.symm).symm }

/-- Erasing the state manager of another group leaves this one. -/
theorem eraseManager_of_ne (hne : g' ≠ g) : Agree g r (r.eraseManager g') :=
  { refl g r with manager := (PartialMap.erase_of_ne hne.symm).symm }

/-- The servers of another group are another list. -/
theorem buildServer_of_ne (hne : g' ≠ g) (t : ℕ) (m : StateMgrId) :
    Agree g r (r.buildServer t g' m) :=
  { refl g r with servers := (servers_buildServer_of_ne r t m hne.symm).symm }

/-- The server of another group is another entry. -/
theorem tryEmplace_of_ne (hne : g' ≠ g) (server : ℕ) : Agree g r (r.tryEmplace g' server).1 :=
  { refl g r with server := (PartialMap.emplace_of_ne hne.symm).symm }

/-- Erasing the server of another group leaves this one. -/
theorem eraseServer_of_ne (hne : g' ≠ g) : Agree g r (r.eraseServer g') :=
  { refl g r with server := (PartialMap.erase_of_ne hne.symm).symm }

/-- Writing to a server of another group leaves those of this one. -/
theorem updateServer_of_ne (hne : g' ≠ g) (server : ℕ) (f : RaftServer → RaftServer) :
    Agree g r (r.updateServer g' server f) :=
  { refl g r with servers := (servers_updateServer_of_ne r server f hne.symm).symm }

/-- An event of another group writes the flag of that group. -/
theorem genericRaftEventHandler_of_ne (hne : g' ≠ g) (event : RaftEvent) :
    Agree g r (r.genericRaftEventHandler g' event) := by
  simp only [Registry.genericRaftEventHandler]
  cases event.leads with
  | none => exact refl g r
  | some leads => exact { refl g r with leader := (PartialMap.assign_of_ne hne.symm).symm }

end Registry.Agree

namespace Manager

open Proto Registry

variable {node : Node} {g g' : GroupId} {t : ℕ} {r r' r₁ : Registry} {pc pc' : Pc} {input : Input}

/-! ## The group of a thread -/

/-- The group that an outcome is about; none for a message without a valid group. -/
def Outcome.group (text : UuidText) : Outcome → Option GroupId
  | .created g | .createRefused g _ | .createTimedOut g | .joined g | .joinRefused g _ | .threw g
  | .left g | .leads g | .becomeFailed g _ | .processed _ g _ _ _ | .reaped g _ => some g
  | .answered msg _ => text.stringGenerator msg.groupId

/-- The group that a thread works for. -/
def Pc.group (text : UuidText) : Pc → Option GroupId
  | .idle => none
  | .createInsert g _ | .joinEmplace g _ _ | .joinLock _ g _ | .joinFind _ g _ | .joinInit _ g _
  | .joinInsert _ g _ | .joinReturn _ g _ _ | .listenerFind g _ | .listenerErase g _
  | .joinRollback g _ | .createWait g | .leaveCheck g | .leaveFind g | .leaveShutdown g _
  | .leaveDestroy g | .becomeRead g | .becomeRequest g | .becomeWait g | .stepFind _ g _
  | .stepTask _ g _ _ | .reap g _ => some g
  | .stepCheck msg => text.stringGenerator msg.groupId
  | .done outcome => outcome.group text

/-- The group that an operation is about. -/
def Operation.group (text : UuidText) (op : Operation) : Option GroupId := op.entry.group text

/-- The group that a step belongs to. Registering a type belongs to none. -/
def Label.group (text : UuidText) (c : Config) : Label → Option GroupId
  | .thread _ (.call op) => op.group text
  | .thread t (.go _) => (c.threads t).group text
  | .env (.raftEvent g _) => some g
  | .env (.registerMgrType _) => none

/-- A thread that comes back to its caller still works for its group. -/
theorem Landing.group {m : Option RaftGroupMsg} (hpc : Landing g m pc) (text : UuidText) :
    pc.group text = some g := by
  cases hpc <;> rfl

/-- A thread works for one group from beginning to end. -/
theorem Moves.group {a : Surroundings} (hmove : Moves node t r pc (.go a) r' pc')
    (hpc : Admitted node pc) : pc'.group node.text = pc.group node.text := by
  cases hmove with
  | lockFailed caller | initRefused caller => exact (caller.landing_refused ..).group _
  | duplicate caller => exact (caller.landing_accepted _).group _
  | listenerMissing g resume | listenerErase g resume => exact (resume.landing_next g).group _
  | initReuseAborted | initCreateAborted | «return» | leaveShutdown | reap =>
    exact (landing_afterListener ..).group _
  | stepJoin msg g hcheck => exact (checkMessage_eq_ok hcheck).1.symm
  | stepPlain msg g hcheck => exact (checkMessage_eq_ok hcheck).1.symm
  | stepMissing msg g joined => exact (checkMessage_eq_ok hpc).1
  | _ => rfl

/-! ## Steps of another group -/

/-- A thread that works for another group leaves the group alone. -/
theorem Moves.agree_of_ne (hmove : Moves node t r pc input r' pc')
    (hgroup : ∀ g', pc.group node.text = some g' → g' ≠ g) : Agree g r r' := by
  cases hmove with
  | createInsert | created | createTimedOut | createWait | leadsAlready | becomeAsk | becameLeader
  | becomeTimedOut | becomeWait => exact .insertLeader_of_ne (hgroup _ rfl)
  | joinEmplace g' ty m => exact .emplaceManager_of_ne (hgroup _ rfl) m
  | initReuse caller g' ty m => exact .buildServer_of_ne (hgroup _ rfl) t m
  | initCreate caller g' ty m =>
    exact (Agree.emplaceManager_of_ne (hgroup _ rfl) (some m)).trans
      (.buildServer_of_ne (hgroup _ rfl) t m)
  | initCreateAborted caller g' ty m => exact .emplaceManager_of_ne (hgroup _ rfl) (some m)
  | initThrew caller g' ty => exact .emplaceManager_of_ne (hgroup _ rfl) none
  | insert caller g' server => exact .tryEmplace_of_ne (hgroup _ rfl) server
  | «return» caller g' server inserted => exact .updateServer_of_ne (hgroup _ rfl) server _
  | listenerErase g' resume => exact .eraseServer_of_ne (hgroup _ rfl)
  | rollback g' code => exact .eraseManager_of_ne (hgroup _ rfl)
  | leaveShutdown g' server => exact .updateServer_of_ne (hgroup _ rfl) server _
  | leaveDestroy g' m hentry =>
    exact (Agree.eraseManager_of_ne (hgroup _ rfl)).setDestroyed
  | reap g' server => exact .updateServer_of_ne (hgroup _ rfl) server _
  | _ => exact .refl g r

/-! ## Steps of the group -/

/-- What two registries that agree on the group allow a thread of the group to do. -/
def SameMove (g : GroupId) : Option (Registry × Pc) → Option (Registry × Pc) → Prop :=
  Option.Rel fun x y => Agree g x.1 y.1 ∧ x.2 = y.2

/-- The same destination over registries that agree. -/
theorem sameMove_some (h : Agree g r r') (pc : Pc) : SameMove g (some (r, pc)) (some (r', pc)) :=
  .some ⟨h, rfl⟩

/-- Building the server, or failing to. -/
theorem sameMove_build (h : Agree g r r₁) (caller : Caller) (m : StateMgrId)
    (aborts : Option Bool) :
    SameMove g
      (match aborts with
        | none => some (r.buildServer t g m, .joinInsert caller g (r.servers g).length)
        | some dies => some (r, afterListener dies g .unwind))
      (match aborts with
        | none => some (r₁.buildServer t g m, .joinInsert caller g (r₁.servers g).length)
        | some dies => some (r₁, afterListener dies g .unwind)) := by
  cases aborts with
  | none =>
    rw [h.servers]
    exact sameMove_some (h.buildServer t m) _
  | some dies => exact sameMove_some h _

/-- Running `group_init` and building the server. -/
theorem sameMove_joinInit (h : Agree g r r₁) (a : Surroundings) (caller : Caller)
    (ty : GroupType) :
    SameMove g (advance node t r a (.joinInit caller g ty))
      (advance node t r₁ a (.joinInit caller g ty)) := by
  by_cases htype : ty ∈ r.stateMgrTypes
  · have htype₁ : ty ∈ r₁.stateMgrTypes := h.types ▸ htype
    rcases hentry : r.stateManagers g with _ | _ | m
    · have hentry₁ := h.manager.symm.trans hentry
      cases hcreated : a.created with
      | stateMgr m =>
        rw [advance_prepared (r.emplaceManager g (some m)) m
            (by rw [hcreated, groupInit_absent a.ready htype hentry]),
          advance_prepared (r₁.emplaceManager g (some m)) m
            (by rw [hcreated, groupInit_absent a.ready htype₁ hentry₁])]
        exact sameMove_build (h.emplaceManager (some m)) caller m a.aborts
      | null =>
        simp only [advance, groupInit, if_pos htype, if_pos htype₁, hentry, hentry₁, hcreated]
        exact .none
      | throws =>
        simp only [advance, groupInit, if_pos htype, if_pos htype₁, hentry, hentry₁, hcreated]
        exact sameMove_some (h.emplaceManager none) _
    · have hentry₁ := h.manager.symm.trans hentry
      simp only [advance, groupInit, if_pos htype, if_pos htype₁, hentry, hentry₁]
      exact .none
    · have hentry₁ := h.manager.symm.trans hentry
      rw [advance_prepared r m (by rw [groupInit_stored a.created a.ready htype hentry]),
        advance_prepared r₁ m (by rw [groupInit_stored a.created a.ready htype₁ hentry₁])]
      exact sameMove_build h caller m a.aborts
  · have htype₁ : ty ∉ r₁.stateMgrTypes := h.types ▸ htype
    simp only [advance, groupInit, if_neg htype, if_neg htype₁]
    exact sameMove_some h _

/-- A thread of the group can do the same in registries that agree on the group, and
they agree afterwards. -/
theorem sameMove_advance (h : Agree g r r₁) (a : Surroundings)
    (hgroup : ∀ g', pc.group node.text = some g' → g' = g) :
    SameMove g (advance node t r a pc) (advance node t r₁ a pc) := by
  cases pc with
  | idle => exact .none
  | createInsert g' ty =>
    obtain rfl := hgroup _ rfl
    exact sameMove_some h.insertLeader _
  | joinEmplace g' ty m =>
    obtain rfl := hgroup _ rfl
    exact sameMove_some (h.emplaceManager m) _
  | joinLock caller g' ty =>
    simp only [advance]
    split <;> exact sameMove_some h _
  | joinFind _ g' _ | listenerFind g' _ | leaveFind g' | becomeRequest g' | stepFind _ g' _ =>
    -- what the thread does next depends on the entry of the group only
    obtain rfl := hgroup _ rfl
    simp only [advance]
    rw [← h.server]
    split <;> exact sameMove_some h _
  | joinInit caller g' ty =>
    obtain rfl := hgroup _ rfl
    exact sameMove_joinInit h a caller ty
  | joinInsert caller g' server =>
    obtain rfl := hgroup _ rfl
    simp only [advance]
    have hinserted : (r.tryEmplace g' server).2 = (r₁.tryEmplace g' server).2 := by
      simp only [tryEmplace, h.server]
    rw [hinserted]
    exact sameMove_some (h.tryEmplace server) _
  | joinReturn caller g' server inserted =>
    obtain rfl := hgroup _ rfl
    simp only [advance]
    have hdies : (r.endFrame g' server inserted).2 = (r₁.endFrame g' server inserted).2 := by
      simp only [endFrame, h.servers]
    rw [hdies]
    exact sameMove_some (h.updateServer server _) _
  | listenerErase g' resume =>
    obtain rfl := hgroup _ rfl
    exact sameMove_some h.eraseServer _
  | joinRollback g' code =>
    obtain rfl := hgroup _ rfl
    exact sameMove_some h.eraseManager _
  | createWait g' | becomeWait g' =>
    obtain rfl := hgroup _ rfl
    simp only [advance]
    rw [← h.readLeader]
    split
    · exact sameMove_some h.insertLeader _
    · split <;> exact sameMove_some h.insertLeader _
  | leaveCheck g' =>
    obtain rfl := hgroup _ rfl
    simp only [advance]
    rw [← h.manager]
    split <;> exact sameMove_some h _
  | leaveShutdown g' server =>
    obtain rfl := hgroup _ rfl
    simp only [advance]
    rw [h.shutdownServer server]
    exact sameMove_some (h.updateServer server _) _
  | leaveDestroy g' =>
    obtain rfl := hgroup _ rfl
    simp only [advance, destroyManager]
    rw [← h.manager]
    rcases r.stateManagers g' with _ | _ | m
    · exact sameMove_some h _
    · exact .none
    · exact sameMove_some h.eraseManager.setDestroyed _
  | becomeRead g' =>
    obtain rfl := hgroup _ rfl
    simp only [advance]
    rw [← h.readLeader]
    split <;> exact sameMove_some h.insertLeader _
  | stepCheck msg =>
    simp only [advance]
    split
    · exact sameMove_some h _
    · split <;> exact sameMove_some h _
  | stepTask msg g' server pool =>
    simp only [advance]
    cases executeStep a.beyond msg a.answer with
    | none => exact .none
    | some result => exact sameMove_some h _
  | reap g' server =>
    obtain rfl := hgroup _ rfl
    have hunreferenced : r.Unreferenced g' server ↔ r₁.Unreferenced g' server := by
      simp only [Unreferenced, h.servers, h.server]
    simp only [advance, hunreferenced, h.shutdownServer server]
    split
    · exact sameMove_some (h.updateServer server _) _
    · exact .none
  | done outcome => exact .none

/-- A step of a thread that works for the group, or for none, reads and writes the part of the
group only, and the types. One case for each function that the thread can be in. -/
theorem sameMove_exec (h : Agree g r r₁)
    (hgroup : ∀ g', pc.group node.text = some g' → g' = g) :
    SameMove g (exec node t r pc input) (exec node t r₁ pc input) := by
  cases input with
  | call op =>
    cases pc with
    | idle => exact sameMove_some h _
    | _ => exact .none
  | go a =>
    rw [exec_go, exec_go]
    exact sameMove_advance h a hgroup

/-- The same in the form in which it is used. -/
theorem exec_of_agree (h : Agree g r r₁) (hgroup : ∀ g', pc.group node.text = some g' → g' = g)
    (hexec : exec node t r pc input = some (r', pc')) :
    ∃ r₁', exec node t r₁ pc input = some (r₁', pc') ∧ Agree g r' r₁' := by
  have hsame : SameMove g (exec node t r pc input) (exec node t r₁ pc input) :=
    sameMove_exec h hgroup
  rw [hexec] at hsame
  cases hother : exec node t r₁ pc input with
  | none =>
    rw [hother] at hsame
    cases hsame
  | some result =>
    rw [hother] at hsame
    cases hsame with
    | some hresult =>
      obtain ⟨hagree, rfl⟩ := hresult
      exact ⟨result.1, rfl, hagree⟩

/-! ## Steps of the node -/

variable {c c' d : Config} {l : Label} {u : ℕ}

/-- Where a scheduled thread stands before its step: it is idle or works for the group
of the step. -/
theorem group_before (hstep : step node c l = some c') (hmover : l.mover = some u) :
    c.threads u = .idle ∨ (c.threads u).group node.text = l.group node.text c := by
  cases l with
  | env event => cases hmover
  | thread t input =>
    cases hmover
    cases input with
    | call op =>
      obtain ⟨r', pc', hexec, -⟩ := Interleaving.step_thread hstep
      exact Or.inl (exec_call hexec).1
    | go a => exact Or.inr rfl

/-- Where a scheduled thread stands after its step: it works for the group of the step. -/
theorem group_after (hstep : step node c l = some c') (hadmitted : ∀ u, Admitted node (c.threads u))
    (hmover : l.mover = some u) : (c'.threads u).group node.text = l.group node.text c := by
  cases l with
  | env event => cases hmover
  | thread t input =>
    cases hmover
    obtain ⟨r', pc', hexec, rfl⟩ := Interleaving.step_thread hstep
    simp only [Function.update_self]
    cases input with
    | call op =>
      obtain ⟨-, -, rfl⟩ := exec_call hexec
      rfl
    | go a => exact (moves_of_exec hexec).group (hadmitted u)

/-- A step of another group leaves the group alone. -/
theorem step_agree_of_ne (hstep : step node c l = some c')
    (hgroup : l.group node.text c = some g') (hne : g' ≠ g) : Agree g c.shared c'.shared := by
  cases l with
  | thread t input =>
    obtain ⟨r', pc', hexec, rfl⟩ := Interleaving.step_thread hstep
    cases input with
    | call op =>
      obtain ⟨-, rfl, -⟩ := exec_call hexec
      exact .refl g _
    | go a =>
      refine (moves_of_exec hexec).agree_of_ne fun g'' hg'' => ?_
      have hboth : some g' = some g'' := hgroup.symm.trans hg''
      cases hboth
      exact hne
  | env event =>
    obtain ⟨r', hdeliver, rfl⟩ := Interleaving.step_env hstep
    cases event with
    | registerMgrType ty => cases hgroup
    | raftEvent g'' event =>
      cases hgroup
      cases hdeliver
      exact .genericRaftEventHandler_of_ne hne event

/-- A step of the group can be repeated by a node that agrees on the group and has the
scheduled thread at the same place. -/
theorem step_of_agree (hstep : step node c l = some c') (hagree : Agree g c.shared d.shared)
    (hgroup : ∀ g', l.group node.text c = some g' → g' = g)
    (hmover : ∀ u, l.mover = some u → d.threads u = c.threads u) :
    ∃ d', step node d l = some d' ∧ Agree g c'.shared d'.shared ∧
      ∀ u, l.mover = some u → d'.threads u = c'.threads u := by
  cases l with
  | thread t input =>
    obtain ⟨r', pc', hexec, rfl⟩ := Interleaving.step_thread hstep
    have hpc : ∀ g', (c.threads t).group node.text = some g' → g' = g := by
      intro g' hg'
      rcases group_before hstep rfl with hidle | heq
      · rw [hidle] at hg'
        cases hg'
      · exact hgroup g' (heq ▸ hg')
    obtain ⟨r₁', hexec₁, hagree'⟩ := exec_of_agree hagree hpc hexec
    rw [← hmover t rfl] at hexec₁
    refine ⟨⟨r₁', Function.update d.threads t pc'⟩, Interleaving.step_of_exec hexec₁, hagree',
      fun u hu => ?_⟩
    cases hu
    simp only [Function.update_self]
  | env event =>
    obtain ⟨r', hdeliver, rfl⟩ := Interleaving.step_env hstep
    cases event with
    | registerMgrType ty =>
      cases hdeliver
      refine ⟨_, rfl, hagree.registerMgrType ty, fun u hu => ?_⟩
      cases hu
    | raftEvent g' event =>
      obtain rfl := hgroup g' rfl
      cases hdeliver
      refine ⟨_, rfl, hagree.genericRaftEventHandler event, fun u hu => ?_⟩
      cases hu

end Manager

end NuraftMesg
