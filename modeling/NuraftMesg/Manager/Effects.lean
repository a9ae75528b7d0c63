import NuraftMesg.Manager.Threads

/-!
# What a step can do to each registry

The rules say for each program counter what a thread does. Here the view is
turned round: for each registry, which steps touch it and how. Invariants about
a registry follow from these statements without a look at the other steps.
-/

namespace NuraftMesg.Manager

variable {node : Node} {g : GroupId} {t : ℕ} {r r' : Registry} {pc pc' : Pc} {input : Input}

/-- The group whose insertion into `_raft_servers` a thread is about to try. -/
def Pc.inserts : Pc → Option GroupId
  | .joinInsert _ g _ => some g
  | _ => none

/-- A thread that comes back to its caller is not about to insert. -/
theorem Landing.inserts {m : Option Proto.RaftGroupMsg} (hpc : Landing g m pc) :
    pc.inserts = none := by
  cases hpc <;> rfl

/-- The group whose state manager a thread is about to erase. -/
def Pc.erases : Pc → Option GroupId
  | .joinRollback g _ => some g
  | .leaveDestroy g => some g
  | _ => none

/-- The group that a thread is about to erase from `_raft_servers`. -/
def Pc.unregisters : Pc → Option GroupId
  | .listenerErase g _ => some g
  | _ => none

/-- The state manager that a step stores under a group without one. -/
def supplies (r : Registry) : Pc → Input → Option (GroupId × StateMgrId)
  | .joinEmplace g _ (some m), .go _ => if r.stateManagers g = none then some (g, m) else none
  | .joinInit _ g ty, .go around =>
    match around.created with
    | .stateMgr m =>
      if ty ∈ r.stateMgrTypes ∧ r.stateManagers g = none then some (g, m) else none
    | _ => none
  | _, _ => none

/-- A state manager that is stored after a step was stored before it or is
supplied by the step. -/
theorem Moves.stateManagers {m : StateMgrId} (hmove : Moves node t r pc input r' pc')
    (hm : r'.stateManagers g = some (some m)) :
    r.stateManagers g = some (some m) ∨ supplies r pc input = some (g, m) := by
  cases hmove with
  | joinEmplace g' ty m' =>
    rcases PartialMap.eq_some_of_emplace_eq_some hm with hold | ⟨rfl, hentry, rfl⟩
    · exact Or.inl hold
    · exact Or.inr (by simp [supplies, hentry])
  | initCreate caller g' ty m' htype hentry hcreated =>
    rcases PartialMap.eq_some_of_emplace_eq_some hm with hold | ⟨rfl, -, hnew⟩
    · exact Or.inl hold
    · obtain rfl := Option.some.inj hnew
      exact Or.inr (by simp [supplies, hcreated, htype, hentry])
  | initCreateAborted caller g' ty m' dies htype hentry hcreated =>
    rcases PartialMap.eq_some_of_emplace_eq_some hm with hold | ⟨rfl, -, hnew⟩
    · exact Or.inl hold
    · obtain rfl := Option.some.inj hnew
      exact Or.inr (by simp [supplies, hcreated, htype, hentry])
  | initThrew caller g' ty htype hentry hcreated =>
    rcases PartialMap.eq_some_of_emplace_eq_some hm with hold | ⟨-, -, hnew⟩
    · exact Or.inl hold
    · cases hnew
  | rollback g' code => exact Or.inl (PartialMap.eq_some_of_erase_eq_some hm).2
  | leaveDestroy g' m' hentry => exact Or.inl (PartialMap.eq_some_of_erase_eq_some hm).2
  | _ => exact Or.inl hm

/-- A stored state manager stays unless the step erases its group. -/
theorem Moves.stateManagers_kept {m : Option StateMgrId} (hmove : Moves node t r pc input r' pc')
    (hm : r.stateManagers g = some m) (hkeeps : pc.erases ≠ some g) :
    r'.stateManagers g = some m := by
  cases hmove with
  | joinEmplace | initCreate | initCreateAborted | initThrew =>
    exact PartialMap.emplace_eq_some_of_eq_some hm
  | rollback g' code =>
    have hne : g ≠ g' := fun h => hkeeps (by rw [h]; rfl)
    exact (PartialMap.erase_of_ne hne).trans hm
  | leaveDestroy g' m' hentry =>
    have hne : g ≠ g' := fun h => hkeeps (by rw [h]; rfl)
    exact (PartialMap.erase_of_ne hne).trans hm
  | _ => exact hm

/-- `permanent_destroy` is called on the state manager that is erased with it. -/
theorem Moves.destroyed (hmove : Moves node t r pc input r' pc') :
    r'.destroyed = r.destroyed ∨ ∃ g m, pc.erases = some g ∧
      r.stateManagers g = some (some m) ∧ r'.stateManagers = r.stateManagers.erase g ∧
      r'.destroyed = r.destroyed ++ [m] := by
  cases hmove with
  | leaveDestroy g m hentry => exact Or.inr ⟨g, m, rfl, hentry, rfl, rfl⟩
  | _ => exact Or.inl rfl

/-- An entry of `_raft_servers` was there before the step or is inserted by it,
which only happens to a group without one. -/
theorem Moves.raftServers {i : ℕ} (hmove : Moves node t r pc input r' pc')
    (hi : r'.raftServers g = some i) :
    r.raftServers g = some i ∨ r.raftServers g = none ∧ ∃ caller, pc = .joinInsert caller g i := by
  cases hmove with
  | insert caller g' server =>
    rcases PartialMap.eq_some_of_emplace_eq_some hi with hold | ⟨rfl, hnone, rfl⟩
    · exact Or.inl hold
    · exact Or.inr ⟨hnone, caller, rfl⟩
  | listenerErase g' resume => exact Or.inl (PartialMap.eq_some_of_erase_eq_some hi).2
  | _ => exact Or.inl hi

/-- An entry of `_raft_servers` stays unless the step erases it. -/
theorem Moves.raftServers_kept {i : ℕ} (hmove : Moves node t r pc input r' pc')
    (hi : r.raftServers g = some i) (hkeeps : pc.unregisters ≠ some g) :
    r'.raftServers g = some i := by
  cases hmove with
  | insert caller g' server => exact PartialMap.emplace_eq_some_of_eq_some hi
  | listenerErase g' resume =>
    have hne : g ≠ g' := fun h => hkeeps (by rw [h]; rfl)
    exact (PartialMap.erase_of_ne hne).trans hi
  | _ => exact hi

/-- The threads never set a leadership flag. -/
theorem Moves.isLeader (hmove : Moves node t r pc input r' pc')
    (hflag : r'.isLeader g = some true) :
    r.isLeader g = some true := by
  have hinsert : ∀ g', (r.insertLeader g').isLeader g = some true → r.isLeader g = some true := by
    intro g' h
    rcases PartialMap.eq_some_of_emplace_eq_some h with hold | ⟨-, -, hfalse⟩
    · exact hold
    · cases hfalse
  cases hmove with
  | createInsert | created | createTimedOut | createWait | leadsAlready | becomeAsk | becameLeader
  | becomeTimedOut | becomeWait => exact hinsert _ hflag
  | _ => exact hflag

/-- Servers keep their place and their state manager. -/
theorem Moves.servers {i : ℕ} {s : RaftServer} (hmove : Moves node t r pc input r' pc')
    (hs : (r.servers g)[i]? = some s) :
    ∃ s', (r'.servers g)[i]? = some s' ∧ s'.stateMgr = s.stateMgr := by
  cases hmove with
  | initReuse caller g' ty m htype hentry => exact ⟨s, Registry.getElem?_buildServer hs, rfl⟩
  | initCreate caller g' ty m htype hentry hcreated =>
    exact ⟨s, Registry.getElem?_buildServer (r := r.emplaceManager g' (some m)) hs, rfl⟩
  | «return» caller g' server inserted =>
    exact Registry.getElem?_updateServer hs fun _ => rfl
  | leaveShutdown g' server => exact Registry.getElem?_updateServer hs fun _ => rfl
  | reap g' server hunreferenced => exact Registry.getElem?_updateServer hs fun _ => rfl
  | _ => exact ⟨s, hs, rfl⟩

/-- A thread comes to an insertion with a server that it has just built from the
state manager stored for the group. -/
theorem Moves.inserts {caller : Caller} {i : ℕ} (hmove : Moves node t r pc input r' pc')
    (hpc : pc' = .joinInsert caller g i) :
    ∃ m, r'.stateManagers g = some (some m) ∧
      (r'.servers g)[i]? = some { stateMgr := m, listener := true, frame := some t } := by
  have hinserts : pc'.inserts = some g := by rw [hpc]; rfl
  have hlands : ∀ {g' m'}, ¬ Landing g' m' pc' := by
    intro g' m' hlands
    rw [hlands.inserts] at hinserts
    cases hinserts
  cases hmove with
  | initReuse caller' g' ty m htype hentry =>
    cases hpc
    exact ⟨m, hentry, by rw [Registry.servers_buildServer, List.getElem?_concat_length]⟩
  | initCreate caller' g' ty m htype hentry hcreated =>
    cases hpc
    refine ⟨m, ?_, by rw [Registry.servers_buildServer, Registry.emplaceManager,
      List.getElem?_concat_length]⟩
    change (r.stateManagers.emplace g (some m)) g = some (some m)
    rw [PartialMap.emplace_self, hentry]
    rfl
  | call op => cases op <;> cases hpc
  | lockFailed caller | initRefused caller => exact absurd (caller.landing_refused ..) hlands
  | duplicate caller => exact absurd (caller.landing_accepted _) hlands
  | listenerMissing _ resume | listenerErase _ resume => exact absurd (resume.landing_next _) hlands
  | «return» | initReuseAborted | initCreateAborted | leaveShutdown | reap =>
    exact absurd (landing_afterListener ..) hlands
  | _ => cases hpc

end NuraftMesg.Manager
