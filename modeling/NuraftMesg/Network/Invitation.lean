import NuraftMesg.Network.Provenance

/-!
# How a node gets into a group

A node creates state managers and Raft servers only on behalf of its own application or
of a request to join that was let in. In a network the latter was sent by a wrapper that
another node, or this one, had made for this node's address and for the group.
-/

namespace NuraftMesg

open Proto Transition

/-- The node has nothing of the group. -/
structure Registry.Outside (g : GroupId) (r : Registry) : Prop where
  stateManagers : r.stateManagers g = none
  raftServers : r.raftServers g = none
  servers : r.servers g = []

/-- Writing to a server does not make the node a member. -/
theorem Registry.Outside.updateServer {g g' : GroupId} {r : Registry} {server : ℕ}
    {f : RaftServer → RaftServer} (hr : r.Outside g) : (r.updateServer g' server f).Outside g := by
  refine ⟨hr.stateManagers, hr.raftServers, ?_⟩
  by_cases hg : g = g'
  · subst hg
    rw [Registry.servers_updateServer, hr.servers, List.modify_nil]
  · rw [Registry.servers_updateServer_of_ne r server f hg, hr.servers]

namespace Manager

variable {node : Node} {g : GroupId} {t : ℕ} {r r' : Registry} {pc pc' : Pc} {input : Input}
  {c c' : Config} {l : Label}

/-- The thread is about to bring the node into the group. -/
def Pc.enters (g : GroupId) : Pc → Prop
  | .createInsert g' _ | .joinEmplace g' _ _ | .joinLock _ g' _ | .joinFind _ g' _
  | .joinInit _ g' _ | .joinInsert _ g' _ | .joinReturn _ g' _ _ => g' = g
  | _ => False

/-- A thread that comes back to a caller is not about to. -/
theorem Landing.not_enters {g' : GroupId} {m : Option RaftGroupMsg} (hpc : Landing g' m pc) :
    ¬ pc.enters g := by
  cases hpc <;> exact id

/-- A thread comes to enter a group by a call of the application or by a request to join. -/
theorem Moves.enters (hmoves : Moves node t r pc input r' pc') (hpc' : pc'.enters g) :
    pc.enters g ∨ (∃ ty, input = .call (.createGroup g ty)) ∨
      (∃ ty m, input = .call (.joinGroup g ty m)) ∨
      ∃ msg, pc = .stepCheck msg ∧ checkMessage node msg = .ok g ∧ isJoinRequest msg = true := by
  cases hmoves with
  | call op =>
    cases op with
    | createGroup g' ty =>
      obtain rfl : g' = g := hpc'
      exact Or.inr (Or.inl ⟨ty, rfl⟩)
    | joinGroup g' ty m =>
      obtain rfl : g' = g := hpc'
      exact Or.inr (Or.inr (Or.inl ⟨ty, m, rfl⟩))
    | _ => exact hpc'.elim
  | createInsert | joinEmplace | lock | noDuplicate | initReuse | initCreate | insert =>
    exact Or.inl hpc'
  | lockFailed caller g' | initRefused caller g' =>
    exact absurd hpc' (caller.landing_refused g' _).not_enters
  | duplicate caller g' => exact absurd hpc' (caller.landing_accepted g').not_enters
  | listenerMissing g' resume | listenerErase g' resume =>
    exact absurd hpc' (resume.landing_next g').not_enters
  | «return» | leaveShutdown | reap | initReuseAborted | initCreateAborted =>
    exact absurd hpc' (landing_afterListener ..).not_enters
  | stepJoin msg g' hcheck hjoin =>
    obtain rfl : g' = g := hpc'
    exact Or.inr (Or.inr (Or.inr ⟨msg, rfl, hcheck, hjoin⟩))
  | _ => exact hpc'.elim

/-- A thread that does not enter the group leaves the node outside. -/
theorem Moves.outside (hmoves : Moves node t r pc input r' pc') (hr : r.Outside g)
    (hpc : ¬ pc.enters g) : r'.Outside g := by
  have hne : ∀ g', ¬ g' = g → g ≠ g' := fun g' h heq => h heq.symm
  have hemplace : ∀ g' m, ¬ g' = g → (r.stateManagers.emplace g' m) g = none := fun g' m hg' =>
    (PartialMap.emplace_of_ne (hne g' hg')).trans hr.stateManagers
  cases hmoves with
  | joinEmplace g' ty m => exact ⟨hemplace g' m hpc, hr.raftServers, hr.servers⟩
  | initReuse caller g' ty m =>
    refine ⟨hr.stateManagers, hr.raftServers, ?_⟩
    rw [Registry.servers_buildServer_of_ne r t m (hne g' hpc), hr.servers]
  | initCreate caller g' ty m =>
    refine ⟨hemplace g' _ hpc, hr.raftServers, ?_⟩
    rw [Registry.servers_buildServer_of_ne _ t m (hne g' hpc)]
    exact hr.servers
  | initCreateAborted caller g' ty m =>
    exact ⟨hemplace g' _ hpc, hr.raftServers, hr.servers⟩
  | initThrew caller g' ty => exact ⟨hemplace g' none hpc, hr.raftServers, hr.servers⟩
  | insert caller g' server =>
    refine ⟨hr.stateManagers, ?_, hr.servers⟩
    exact (PartialMap.emplace_of_ne (hne g' hpc)).trans hr.raftServers
  | «return» | leaveShutdown | reap => exact hr.updateServer
  | listenerErase g' resume =>
    refine ⟨hr.stateManagers, ?_, hr.servers⟩
    exact PartialMap.erase_eq_none_of_eq_none hr.raftServers
  | rollback g' code =>
    exact ⟨PartialMap.erase_eq_none_of_eq_none hr.stateManagers, hr.raftServers, hr.servers⟩
  | leaveDestroy g' m hentry =>
    exact ⟨PartialMap.erase_eq_none_of_eq_none hr.stateManagers, hr.raftServers, hr.servers⟩
  | _ => exact ⟨hr.stateManagers, hr.raftServers, hr.servers⟩

/-- The node has something of the group, or a thread is about to bring it in. -/
def Involved (g : GroupId) (c : Config) : Prop :=
  ¬ c.shared.Outside g ∨ ∃ t, (c.threads t).enters g

/-- A node gets involved with a group by a call of its application or by a request to join. -/
theorem involved_of_step (hstep : step node c l = some c') (hbefore : ¬ Involved g c)
    (hafter : Involved g c') : ∃ t input, l = .thread t input ∧
      ((∃ ty, input = .call (.createGroup g ty)) ∨ (∃ ty m, input = .call (.joinGroup g ty m)) ∨
        ∃ msg, c.threads t = .stepCheck msg ∧ checkMessage node msg = .ok g ∧
          isJoinRequest msg = true) := by
  have hquiet : ∀ t, ¬ (c.threads t).enters g := fun t ht => hbefore (Or.inr ⟨t, ht⟩)
  have houtside : c.shared.Outside g := by
    by_contra hinside
    exact hbefore (Or.inl hinside)
  cases l with
  | thread t input =>
    obtain ⟨hexec, hothers⟩ := Interleaving.exec_of_step hstep
    have hmoves := moves_of_exec hexec
    rcases hafter with hinside | ⟨u, hu⟩
    · exact absurd (hmoves.outside houtside (hquiet t)) hinside
    · by_cases hut : u = t
      · subst hut
        exact ⟨u, input, rfl, (hmoves.enters hu).resolve_left (hquiet u)⟩
      · rw [hothers u hut] at hu
        exact absurd hu (hquiet u)
  | env event =>
    obtain ⟨r', hdeliver, rfl⟩ := Interleaving.step_env hstep
    have hstays : r'.Outside g := by
      cases event with
      | raftEvent g' event =>
        cases hdeliver
        unfold Registry.genericRaftEventHandler
        split <;> exact ⟨houtside.stateManagers, houtside.raftServers, houtside.servers⟩
      | registerMgrType ty =>
        cases hdeliver
        exact ⟨houtside.stateManagers, houtside.raftServers, houtside.servers⟩
    rcases hafter with hinside | ⟨u, hu⟩
    · exact absurd hstays hinside
    · exact absurd hu (hquiet u)

end Manager

namespace Network

variable {cluster : Cluster} {types : ℕ → List GroupType} {groups : ℕ → ℕ → GroupId × GroupType}
  {s s' : State} {l : Label} {labels : List Label} {n t k : ℕ} {g : GroupId}

/-- A message on record asks to join exactly if its request does. -/
theorem joins_of_isJoinRequest {rpc : Rpc} (hs : Inv cluster groups s)
    (hrpc : s.rpcs[k]? = some rpc) (hjoin : isJoinRequest rpc.message = true) :
    rpc.request.type = .joinClusterRequest := by
  obtain ⟨p, f, beyond, -, hmessage⟩ := hs.made k rpc hrpc
  rw [hmessage] at hjoin
  have hwide : MsgType.joinClusterRequest.val.toUInt32 = rpc.request.type.val.toUInt32 :=
    of_decide_eq_true hjoin
  have hval : rpc.request.type.val = MsgType.joinClusterRequest.val := by
    have hback := congrArg UInt32.toUInt8 hwide
    simpa using hback.symm
  cases htype : rpc.request.type with
  | mk val =>
    rw [htype] at hval
    rw [show val = MsgType.joinClusterRequest.val from hval]

/-- In every run of every network: a node has a state manager or a Raft server for a group, or
has ever built one, only if its own application called `create_group` or `join_group` for the
group, or a `join_cluster_request` arrived at it that some node had sent over a wrapper made for
this node's address and this group. -/
theorem membership_invited (cluster : Cluster) (types : ℕ → List GroupType)
    (groups : ℕ → ℕ → GroupId × GroupType) (labels : List Label) (s : State)
    (hrun : run (step cluster) (start types groups) labels = some s) (n : ℕ) (g : GroupId)
    (hmember : ¬ (s.machines n).manager.shared.Outside g) :
    (∃ t ty, .manager n (.thread t (.call (.createGroup g ty))) ∈ labels) ∨
    (∃ t ty m, .manager n (.thread t (.call (.joinGroup g ty m))) ∈ labels) ∨
    ∃ (k : ℕ) (rpc : Rpc) (f t : ℕ), s.rpcs[k]? = some rpc ∧ rpc.arrival = some (n, t) ∧
      rpc.request.type = .joinClusterRequest ∧ (groups rpc.sender f).1 = g ∧
      rpc.wrapper.MadeFor cluster.text (cluster.node n).serviceAddress g
        (groups rpc.sender f).2 := by
  have hstart : ¬ Manager.Involved g ((start types groups).machines n).manager := by
    rintro (hinside | ⟨t, ht⟩)
    · exact hinside ⟨rfl, rfl, rfl⟩
    · exact ht
  -- the step with which the node gets involved
  obtain ⟨front, l, back, mid, mid', rfl, hfront, hstep, hbefore, hafter⟩ :=
    exists_moment (Q := fun s => Manager.Involved g (s.machines n).manager) hstart
      (Or.inl hmember) hrun
  have hback : run (step cluster) mid (l :: back) = some s := by
    rw [run_append, hfront] at hrun
    exact hrun
  have hset : ∀ n' c, Manager.Involved g ((mid.setManager n' c).machines n).manager →
      n' = n ∧ Manager.Involved g c := by
    intro n' c hinvolved
    rw [manager_setManager] at hinvolved
    by_cases hn : n = n'
    · rw [if_pos hn] at hinvolved
      exact ⟨hn.symm, hinvolved⟩
    · rw [if_neg hn] at hinvolved
      exact absurd hinvolved hbefore
  cases takes_of_step hstep with
  | manager n' l c hlocal hc =>
    obtain ⟨rfl, hinvolved⟩ := hset n' c hafter
    obtain ⟨t, input, rfl, ⟨ty, rfl⟩ | ⟨ty, m, rfl⟩ | ⟨msg, hthread, hcheck, hjoin⟩⟩ :=
      Manager.involved_of_step hc hbefore hinvolved
    · exact Or.inl ⟨t, ty, by simp⟩
    · exact Or.inr (Or.inl ⟨t, ty, m, by simp⟩)
    · have hs : Inv cluster groups mid := inv_of_run hfront
      have hmsg : ((mid.machines n').manager.threads t).message = some msg := by
        rw [hthread]
        rfl
      obtain ⟨k, rpc, hrpc, harrival, rfl⟩ := hs.handled n' t msg hmsg
      obtain ⟨f, hgroup, hmade⟩ := hs.addressed hrpc hcheck
      have htype := joins_of_isJoinRequest hs hrpc hjoin
      obtain ⟨rpc', hrpc', hlater⟩ := exists_rpc_of_run hback hrpc
      refine Or.inr (Or.inr ⟨k, rpc', f, t, hrpc', hlater.arrival _ harrival, ?_, ?_, ?_⟩)
      · rw [hlater.request, htype]
      · rw [hlater.sender, hgroup]
      · rw [hlater.wrapper, hlater.sender]
        exact hmade
  | arrive k n' t rpc c hrpc hnew hc =>
    -- a message that arrives is still to be checked
    obtain ⟨rfl, hinvolved⟩ := hset n' c hafter
    obtain ⟨t', input, hl, ⟨ty, hinput⟩ | ⟨ty, m, hinput⟩ | ⟨msg, hthread, -⟩⟩ :=
      Manager.involved_of_step hc hbefore hinvolved
    · cases hl
      cases hinput
    · cases hl
      cases hinput
    · cases hl
      obtain ⟨hexec, -⟩ := Interleaving.exec_of_step hc
      rw [(Manager.exec_call hexec).1] at hthread
      cases hthread
  | factory | send | reply | fail =>
    simp only [machines_updateRpc, manager_setFactories] at hafter
    exact absurd hafter hbefore

/-- A request to join, from server 2 to server 1. -/
def joinRequest : ReqMsg :=
  { voteRequest with type := .joinClusterRequest }

/-- Node 0 makes a client for node 1 and sends it the request; node 1 builds a server. -/
def joinSent : List Label :=
  [.factory 0 (.request 0 1 true .caller Factory.connected), .factory 0 (.finish 0),
    .send 0 0 joinRequest fun _ => 0, .arrive 0 1 1] ++
  List.replicate 5 (.manager 1 (.thread 1 (.go { created := .stateMgr 10 })))

/-- Node 1 is in the group by the invitation. -/
theorem invited_by_joinSent :
    ∃ (s : State) (k : ℕ) (rpc : Rpc) (t : ℕ),
      run (step sampleCluster) (start (fun _ => ["raft"]) fun _ _ => (1, "raft")) joinSent =
        some s ∧
      (s.machines 1).manager.shared.raftServers 1 = some 0 ∧ s.rpcs[k]? = some rpc ∧
      rpc.arrival = some (1, t) ∧ rpc.request.type = .joinClusterRequest := by
  obtain ⟨s, hrun, hserver⟩ : ∃ s : State,
      run (step sampleCluster) (start (fun _ => ["raft"]) fun _ _ => (1, "raft")) joinSent =
        some s ∧ (s.machines 1).manager.shared.raftServers 1 = some 0 := ⟨_, rfl, rfl⟩
  have hmember : ¬ (s.machines 1).manager.shared.Outside 1 := by
    intro houtside
    rw [houtside.raftServers] at hserver
    cases hserver
  rcases membership_invited sampleCluster _ _ joinSent s hrun 1 1 hmember with
    ⟨t, ty, hcall⟩ | ⟨t, ty, m, hcall⟩ | ⟨k, rpc, f, t, hrpc, harrival, htype, -⟩
  · simp [joinSent] at hcall
  · simp [joinSent] at hcall
  · exact ⟨s, k, rpc, t, hrun, hserver, hrpc, harrival, htype⟩

end Network

end NuraftMesg
