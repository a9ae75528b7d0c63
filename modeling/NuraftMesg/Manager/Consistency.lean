import NuraftMesg.Manager.Joins

/-!
# State managers of registered servers

`_state_managers` and `_raft_servers` are guarded by different mechanisms. A
server that is registered keeps the state manager it was built with, so the two
registries agree as long as a state manager is erased only when its group has no
server and none is about to be inserted. `leave_group` and the rollback in
`join_group` do not check this when they take the lock for the last time.
-/

namespace NuraftMesg.Manager

variable {node : Node} {g : GroupId} {t : ℕ} {r r' : Registry} {pc pc' : Pc} {input : Input}

/-- The condition on a step: an entry of `_state_managers` is erased only if the
group has no server and no thread is between `group_init` and `try_emplace` for it,
and a state manager that is stored is neither destroyed nor stored already. -/
def OrderlyErasure (c : Config) : Label → Prop
  | .thread t input =>
    (∀ g, (c.threads t).erases = some g → c.shared.stateManagers g ≠ none →
      c.shared.raftServers g = none ∧ ∀ u, (c.threads u).inserts ≠ some g) ∧
    ∀ g m, supplies c.shared (c.threads t) input = some (g, m) →
      m ∉ c.shared.destroyed ∧ ∀ g', c.shared.stateManagers g' ≠ some (some m)
  | .env _ => True

/-- The state manager of a server is the one that is stored for its group. -/
def Backed (g : GroupId) (r : Registry) (server : ℕ) : Prop :=
  ∃ s, (r.servers g)[server]? = some s ∧ r.stateManagers g = some (some s.stateMgr)

/-- The registries agree. -/
structure Consistent (r : Registry) : Prop where
  registered : ∀ g i, r.raftServers g = some i → Backed g r i
  alive : ∀ g m, r.stateManagers g = some (some m) → m ∉ r.destroyed
  distinct : ∀ g g' m, r.stateManagers g = some (some m) →
    r.stateManagers g' = some (some m) → g = g'

/-- A thread that is about to insert a server for a group. -/
def Inserting (r : Registry) (pc : Pc) : Prop :=
  ∀ caller g i, pc = .joinInsert caller g i → Backed g r i

/-- The group of a backed server has an entry that can be erased. -/
theorem Backed.stored {i : ℕ} (hbacked : Backed g r i) : r.stateManagers g ≠ none := by
  obtain ⟨s, -, hentry⟩ := hbacked
  rw [hentry]
  exact Option.some_ne_none _

/-- A step keeps a server backed unless it erases the entry of the group. -/
theorem Moves.backed {i : ℕ} (hmove : Moves node t r pc input r' pc') (hbacked : Backed g r i)
    (hkeeps : pc.erases ≠ some g) : Backed g r' i := by
  obtain ⟨s, hs, hentry⟩ := hbacked
  obtain ⟨s', hs', hsame⟩ := hmove.servers hs
  refine ⟨s', hs', ?_⟩
  rw [hsame]
  exact hmove.stateManagers_kept hentry hkeeps

/-- A thread comes to an insertion with a backed server. -/
theorem Moves.inserting (hmove : Moves node t r pc input r' pc') : Inserting r' pc' := by
  intro caller g i hpc
  obtain ⟨m, hentry, hs⟩ := hmove.inserts hpc
  exact ⟨_, hs, hentry⟩

/-- One step of a thread that erases and stores state managers in an orderly
way keeps the registries consistent. -/
theorem Moves.consistent (hmove : Moves node t r pc input r' pc') (hr : Consistent r)
    (hpc : Inserting r pc)
    (herases : ∀ g, pc.erases = some g → r.stateManagers g ≠ none → r.raftServers g = none)
    (hfresh : ∀ g m, supplies r pc input = some (g, m) →
      m ∉ r.destroyed ∧ ∀ g', r.stateManagers g' ≠ some (some m)) : Consistent r' := by
  refine ⟨fun g i hi => ?_, fun g m hm => ?_, fun g g' m hm hm' => ?_⟩
  · -- An insertion happens at another program counter than an erasure.
    rcases hmove.raftServers hi with hold | ⟨-, caller, rfl⟩
    · have hbacked := hr.registered g i hold
      refine hmove.backed hbacked fun herase => ?_
      have hnone := herases g herase hbacked.stored
      rw [hold] at hnone
      cases hnone
    · exact hmove.backed (hpc caller g i rfl) (by simp [Pc.erases])
  · have hold : m ∉ r.destroyed := by
      rcases hmove.stateManagers hm with hm | hsupplied
      · exact hr.alive g m hm
      · exact (hfresh g m hsupplied).1
    rcases hmove.destroyed with hsame | ⟨g', m', herase, hentry, hmap, happend⟩
    · rwa [hsame]
    · -- The destroyed state manager belonged to the erased group alone.
      rw [happend, List.mem_append, List.mem_singleton]
      rintro (hmem | rfl)
      · exact hold hmem
      · rw [hmap] at hm
        obtain ⟨hne, hm⟩ := PartialMap.eq_some_of_erase_eq_some hm
        exact hne (hr.distinct g g' m hm hentry)
  · rcases hmove.stateManagers hm with hold | hsupplied <;>
      rcases hmove.stateManagers hm' with hold' | hsupplied'
    · exact hr.distinct g g' m hold hold'
    · exact absurd hold ((hfresh g' m hsupplied').2 g)
    · exact absurd hold' ((hfresh g m hsupplied).2 g')
    · rw [hsupplied] at hsupplied'
      exact congrArg Prod.fst (Option.some.inj hsupplied')

/-- The invariant of all orderly runs. -/
def ConsistencyInvariant (c : Config) : Prop :=
  Consistent c.shared ∧ ∀ u, Inserting c.shared (c.threads u)

/-- One orderly step of the node. -/
theorem step_consistency {c c' : Config} {l : Label} (hc : ConsistencyInvariant c)
    (horderly : OrderlyErasure c l) (hstep : step node c l = some c') :
    ConsistencyInvariant c' := by
  obtain ⟨hr, hthreads⟩ := hc
  refine Interleaving.step_outline (A := fun _ => Inserting) hstep hthreads ?_ ?_ ?_
  · rintro u input r' pc' rfl hexec
    have hmove := moves_of_exec hexec
    exact ⟨hmove.consistent hr (hthreads u) (fun g herase hentry => (horderly.1 g herase hentry).1)
      horderly.2, hmove.inserting⟩
  · rintro u input r' pc' v rfl hexec - hpc caller g i hv
    have hbacked := hpc caller g i hv
    refine (moves_of_exec hexec).backed hbacked fun herase => ?_
    refine (horderly.1 g herase hbacked.stored).2 v ?_
    rw [hv]
    rfl
  · intro event r' _ hdeliver
    obtain ⟨hmap, hservers, hmanagers, hdestroyed⟩ := deliver_frame hdeliver
    have hbacked : ∀ g i, Backed g c.shared i → Backed g r' i := by
      intro g i h
      rwa [Backed, hservers, hmanagers]
    refine ⟨⟨fun g i hi => ?_, fun g m hm => ?_, fun g g' m hm hm' => ?_⟩, ?_⟩
    · rw [hmap] at hi
      exact hbacked g i (hr.registered g i hi)
    · rw [hmanagers] at hm
      rw [hdestroyed]
      exact hr.alive g m hm
    · rw [hmanagers] at hm hm'
      exact hr.distinct g g' m hm hm'
    · intro u hpc caller g i hu
      exact hbacked g i (hpc caller g i hu)

/-- A node that has just started. -/
theorem consistencyInvariant_start (types : List GroupType) :
    ConsistencyInvariant (start types) :=
  ⟨⟨nofun, nofun, nofun⟩, fun _ => nofun⟩

/-- The thread has nothing to do. -/
def Pc.finished : Pc → Bool
  | .idle => true
  | .done _ => true
  | _ => false

end NuraftMesg.Manager
