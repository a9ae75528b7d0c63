import NuraftMesg.Base.Refinement
import NuraftMesg.Base.Workers
import NuraftMesg.Manager.Replies

/-!
# The two thread pools

`raftStep` runs on a gRPC thread up to the point where it has found the group's
server. Then it posts a task to `_io_thread_pool` if the message is slow and to
`_raft_thread_pool` otherwise, and the task runs `execute_step` on a thread of that
pool. Each pool has one queue for all groups; nothing is supposed about the order in
which it is worked off. In `Manager.Threads` a message simply goes on from `stepTask` at
some time; here it has to get through the queue first.
-/

namespace NuraftMesg.Manager.Pools

open Proto Transition

/-! ## The pools beside the node -/

/-- The settings that size the pools. -/
structure Settings where
  raftAppendEntriesThreadCnt : UInt16 := 2
  ioThreadPoolSize : UInt32 := 0

/-- `calculate_io_pool_size`. -/
def Settings.calculateIoPoolSize (settings : Settings) : ℕ :=
  if settings.ioThreadPoolSize > 0 then settings.ioThreadPoolSize.toNat else 4

/-- The number of threads of each pool. -/
def Settings.size (settings : Settings) : Pool → ℕ
  | .raft => settings.raftAppendEntriesThreadCnt.toNat
  | .io => settings.calculateIoPoolSize

/-- The pool whose task a thread of the node stands for. -/
def poolOf : Pc → Option Pool
  | .stepTask _ _ _ pool => some pool
  | _ => none

/-- One of the pools. A task is named by the thread of the node that it belongs to. -/
structure Lane where
  tasks : Workers.Pool ℕ
  /-- `_raft_pool_active_threads` or `_io_pool_active_threads`. -/
  activeThreads : Int
  /-- `raft_pool_msg_count` or `io_pool_msg_count`. -/
  msgCount : ℕ

/-- A node with its pools. -/
structure State where
  config : Config
  lanes : Pool → Lane

/-- A node that has just started. -/
def start (types : List GroupType) : State where
  config := Manager.start types
  lanes _ := { tasks := .empty, activeThreads := 0, msgCount := 0 }

/-- A scheduling decision. -/
inductive Label where
  /-- A step of the node that is not the execution of a task. -/
  | node (l : Manager.Label)
  /-- `raftStep` posts the task of thread `t`. -/
  | post (pool : Pool) (t : ℕ)
  /-- A thread of the pool takes the task of thread `t`. -/
  | begin (pool : Pool) (t : ℕ)
  /-- A thread of the pool has run the task of thread `t`. -/
  | finish (pool : Pool) (t : ℕ) (around : Surroundings)

/-- A message is counted and its task is posted. -/
def Lane.post (lane : Lane) (t : ℕ) : Lane :=
  { lane with tasks := lane.tasks.post t, msgCount := lane.msgCount + 1 }

/-- A task is begun; its guard counts the thread. -/
def Lane.begin (size : ℕ) (lane : Lane) (t : ℕ) : Option Lane :=
  (lane.tasks.begin size t).map fun tasks =>
    { lane with tasks := tasks, activeThreads := lane.activeThreads + 1 }

/-- A task is finished and its guard goes. -/
def Lane.finish (lane : Lane) (t : ℕ) : Option Lane :=
  (lane.tasks.finish t).map fun tasks =>
    { lane with tasks := tasks, activeThreads := lane.activeThreads - 1 }

/-- Replace one of the pools. -/
def State.setLane (s : State) (pool : Pool) (lane : Lane) : State :=
  { s with lanes := Function.update s.lanes pool lane }

/-- One step of the node with its pools. -/
def step (node : Node) (settings : Settings) (s : State) : Label → Option State
  | .node l =>
    if (l.mover.bind fun t => poolOf (s.config.threads t)).isSome then none
    else (Manager.step node s.config l).map fun c => { s with config := c }
  | .post pool t =>
    if poolOf (s.config.threads t) = some pool ∧ t ∉ (s.lanes pool).tasks.posted then
      some (s.setLane pool ((s.lanes pool).post t))
    else none
  | .begin pool t => ((s.lanes pool).begin (settings.size pool) t).map (s.setLane pool)
  | .finish pool t around =>
    ((s.lanes pool).finish t).bind fun lane =>
      (Manager.step node s.config (.thread t (.go around))).map fun c =>
        { s.setLane pool lane with config := c }

/-- The steps as rules. -/
inductive Takes (node : Node) (settings : Settings) (s : State) : Label → State → Prop
  | node (l c) (hfree : ∀ t, l.mover = some t → poolOf (s.config.threads t) = none)
      (hstep : Manager.step node s.config l = some c) :
      Takes node settings s (.node l) { s with config := c }
  | post (pool t) (hpool : poolOf (s.config.threads t) = some pool)
      (hnew : t ∉ (s.lanes pool).tasks.posted) :
      Takes node settings s (.post pool t) (s.setLane pool ((s.lanes pool).post t))
  | begin (pool t lane) (hbegin : (s.lanes pool).begin (settings.size pool) t = some lane) :
      Takes node settings s (.begin pool t) (s.setLane pool lane)
  | finish (pool t around lane c) (hfinish : (s.lanes pool).finish t = some lane)
      (hstep : Manager.step node s.config (.thread t (.go around)) = some c) :
      Takes node settings s (.finish pool t around) { s.setLane pool lane with config := c }

variable {node : Node} {settings : Settings} {s s' : State} {l : Label} {t : ℕ} {pool : Pool}
  {types : List GroupType} {labels : List Label}

/-- The lane that is written to. -/
@[simp] theorem State.lanes_setLane_self (s : State) (pool : Pool) (lane : Lane) :
    (s.setLane pool lane).lanes pool = lane :=
  Function.update_self ..

/-- The other lane is kept. -/
theorem State.lanes_setLane_of_ne (s : State) (lane : Lane) {pool pool' : Pool}
    (hne : pool' ≠ pool) : (s.setLane pool lane).lanes pool' = s.lanes pool' :=
  Function.update_of_ne hne ..

/-- What holds of the new pool and of the others holds of all pools. -/
theorem State.forall_lanes_setLane {P : Pool → Lane → Prop} {lane : Lane} (hlane : P pool lane)
    (hothers : ∀ pool', pool' ≠ pool → P pool' (s.lanes pool')) (pool' : Pool) :
    P pool' ((s.setLane pool lane).lanes pool') :=
  (Function.forall_update_iff s.lanes P).mpr ⟨hlane, hothers⟩ pool'

/-- Every step is an instance of a rule. -/
theorem takes_of_step (hstep : step node settings s l = some s') :
    Takes node settings s l s' := by
  cases l with
  | node l =>
    simp only [step] at hstep
    split at hstep
    · cases hstep
    · next hfree =>
      obtain ⟨c, hc, rfl⟩ := Option.map_eq_some_iff.mp hstep
      refine .node l c ?_ hc
      intro t ht
      rw [ht] at hfree
      exact Option.not_isSome_iff_eq_none.mp hfree
  | post pool t =>
    simp only [step] at hstep
    split at hstep
    · next henabled =>
      cases hstep
      exact .post pool t henabled.1 henabled.2
    · cases hstep
  | begin pool t =>
    obtain ⟨lane, hlane, rfl⟩ := Option.map_eq_some_iff.mp hstep
    exact .begin pool t lane hlane
  | finish pool t around =>
    obtain ⟨lane, hlane, hrest⟩ := Option.bind_eq_some_iff.mp hstep
    obtain ⟨c, hc, rfl⟩ := Option.map_eq_some_iff.mp hrest
    exact .finish pool t around lane c hlane hc

/-- With its pools a node does nothing that it does not do without them. -/
theorem projects_config : Refinement.Projects (step node settings) (Manager.step node)
    State.config := by
  intro s l s' hstep
  cases takes_of_step hstep with
  | node l c hfree hnode => exact Refinement.exists_run_of_step hnode
  | post | begin => exact Refinement.exists_run_of_eq rfl
  | finish pool t around lane c hfinish hnode => exact Refinement.exists_run_of_step hnode

/-! ## What a thread does at its task -/

/-- The message of a task of `pool` has been executed. -/
def Executed (pool : Pool) : Pc → Prop
  | .done (.processed msg _ _ _ _) => poolFor msg = pool
  | _ => False

/-- A thread that neither stands for a task nor has executed one. -/
def Aside (pc : Pc) : Prop := poolOf pc = none ∧ ∀ pool, ¬ Executed pool pc

/-- A thread that comes back to its caller neither stands for a task nor has executed one. -/
theorem aside_of_landing {g : GroupId} {m : Option RaftGroupMsg} {pc : Pc}
    (hpc : Landing g m pc) : Aside pc := by
  cases hpc <;> exact ⟨rfl, fun _ h => h⟩

/-- How a thread gets to its task and past it. -/
theorem task_of_moves {r r' : Registry} {pc pc' : Pc} {input : Input}
    (hmoves : Moves node t r pc input r' pc') :
    poolOf pc = none ∧ (Aside pc' ∨ ∃ msg g server, pc' = .stepTask msg g server (poolFor msg)) ∨
      ∃ msg g server pool req reply, pc = .stepTask msg g server pool ∧ r' = r ∧
        pc' = .done (.processed msg g server req reply) := by
  cases hmoves with
  | call op => cases op <;> exact Or.inl ⟨rfl, Or.inl ⟨rfl, fun _ h => h⟩⟩
  | lockFailed caller | initRefused caller =>
    exact Or.inl ⟨rfl, Or.inl (aside_of_landing (caller.landing_refused ..))⟩
  | duplicate caller => exact Or.inl ⟨rfl, Or.inl (aside_of_landing (caller.landing_accepted _))⟩
  | listenerMissing _ resume | listenerErase _ resume =>
    exact Or.inl ⟨rfl, Or.inl (aside_of_landing (resume.landing_next _))⟩
  | initReuseAborted | initCreateAborted | «return» | leaveShutdown | reap =>
    exact Or.inl ⟨rfl, Or.inl (aside_of_landing (landing_afterListener ..))⟩
  | stepFound msg g joined server => exact Or.inl ⟨rfl, Or.inr ⟨msg, g, server, rfl⟩⟩
  | stepTask msg g server pool req reply =>
    exact Or.inr ⟨msg, g, server, pool, req, reply, rfl, rfl, rfl⟩
  | _ => exact Or.inl ⟨rfl, Or.inl ⟨rfl, fun _ h => h⟩⟩

/-- A thread that has executed its message does not move again. -/
theorem not_executed_of_moves {r r' : Registry} {pc pc' : Pc} {input : Input}
    (hmoves : Moves node t r pc input r' pc') : ¬ Executed pool pc := by
  cases hmoves <;> exact fun h => h

/-! ## Accounting for the tasks -/

/-- The books of a pool agree with where the threads are. -/
structure Accounts (size : ℕ) (threads : ℕ → Pc) (pool : Pool) (lane : Lane) : Prop where
  sound : Workers.Sound size lane.tasks
  active : lane.activeThreads = lane.tasks.running.length
  counted : lane.msgCount = lane.tasks.posted.length
  /-- The tasks that wait or are in work are those of threads at their task. -/
  pending : ∀ t, t ∈ lane.tasks.waiting ∨ t ∈ lane.tasks.running → poolOf (threads t) = some pool
  /-- The finished tasks are those whose message was executed. -/
  executed : ∀ t, t ∈ lane.tasks.finished ↔ Executed pool (threads t)

/-- What holds of a node with its pools. -/
structure Inv (settings : Settings) (s : State) : Prop where
  /-- A thread at its task has the pool of its message. -/
  chosen : ∀ t pool, poolOf (s.config.threads t) = some pool →
    ∃ msg g server, s.config.threads t = .stepTask msg g server pool ∧ pool = poolFor msg
  accounts : ∀ pool, Accounts (settings.size pool) s.config.threads pool (s.lanes pool)

/-- At the beginning nothing is posted, and no thread has a task. -/
theorem inv_start (settings : Settings) (types : List GroupType) :
    Inv settings (start types) := by
  constructor
  · intro t pool hpool
    cases hpool
  · intro pool
    constructor
    · exact Workers.sound_empty _
    · rfl
    · rfl
    · intro t hmem
      rcases hmem with hmem | hmem <;> cases hmem
    · intro t
      exact iff_of_false List.not_mem_nil id

/-- How a step of the node that is not a task moves a thread. -/
theorem thread_of_node {l : Manager.Label} {c c' : Config}
    (hfree : ∀ t, l.mover = some t → poolOf (c.threads t) = none)
    (hstep : Manager.step node c l = some c') (t : ℕ) :
    c'.threads t = c.threads t ∨
      poolOf (c.threads t) = none ∧ (∀ pool, ¬ Executed pool (c.threads t)) ∧
        (Aside (c'.threads t) ∨
          ∃ msg g server, c'.threads t = .stepTask msg g server (poolFor msg)) := by
  cases l with
  | thread u input =>
    obtain ⟨hexec, hothers⟩ := Interleaving.exec_of_step hstep
    by_cases htu : t = u
    · subst htu
      have hmoves := moves_of_exec hexec
      have hnone := hfree t rfl
      rcases task_of_moves hmoves with ⟨-, hafter⟩ | ⟨msg, g, server, pool, _, _, hpc, -⟩
      · exact Or.inr ⟨hnone, fun _ => not_executed_of_moves hmoves, hafter⟩
      · rw [hpc] at hnone
        cases hnone
    · exact Or.inl (hothers t htu)
  | env event =>
    obtain ⟨r', -, rfl⟩ := Interleaving.step_env hstep
    exact Or.inl rfl

namespace Inv

/-- A step of the node that is not a task. -/
theorem elsewhere {l : Manager.Label} {c : Config} (hs : Inv settings s)
    (hfree : ∀ t, l.mover = some t → poolOf (s.config.threads t) = none)
    (hstep : Manager.step node s.config l = some c) : Inv settings { s with config := c } := by
  have hthread := thread_of_node hfree hstep
  constructor
  · intro t pool hpool
    simp only at hpool ⊢
    rcases hthread t with heq | ⟨-, -, haside | ⟨msg, g, server, htask⟩⟩
    · rw [heq] at hpool ⊢
      exact hs.chosen t pool hpool
    · rw [haside.1] at hpool
      cases hpool
    · rw [htask] at hpool
      cases hpool
      exact ⟨msg, g, server, htask, rfl⟩
  · intro pool
    have hpool := hs.accounts pool
    refine ⟨hpool.sound, hpool.active, hpool.counted, ?_, ?_⟩
    · intro t hmem
      have hbefore := hpool.pending t hmem
      rcases hthread t with heq | ⟨hnone, -⟩
      · rwa [← heq] at hbefore
      · rw [hnone] at hbefore
        cases hbefore
    · intro t
      rw [hpool.executed t]
      rcases hthread t with heq | ⟨-, hbefore, haside | ⟨msg, g, server, htask⟩⟩
      · simp only [heq]
      · exact iff_of_false (hbefore pool) (haside.2 pool)
      · simp only [htask]
        exact iff_of_false (hbefore pool) id

/-- A pool is replaced by one whose books agree with the threads. -/
theorem setLane {lane : Lane} (hs : Inv settings s)
    (hlane : Accounts (settings.size pool) s.config.threads pool lane) :
    Inv settings (s.setLane pool lane) := by
  refine ⟨hs.chosen, ?_⟩
  exact State.forall_lanes_setLane
    (P := fun pool lane => Accounts (settings.size pool) s.config.threads pool lane) hlane
    fun pool' _ => hs.accounts pool'

end Inv

namespace Accounts

variable {size : ℕ} {threads : ℕ → Pc} {lane lane' : Lane}

/-- The task of a thread is posted. -/
theorem post (hlane : Accounts size threads pool lane) (hpool : poolOf (threads t) = some pool)
    (hnew : t ∉ lane.tasks.posted) : Accounts size threads pool (lane.post t) := by
  constructor
  · exact hlane.sound.post hnew
  · exact hlane.active
  · simp only [Lane.post, Workers.Pool.post, hlane.counted, List.length_append,
      List.length_singleton]
  · intro u hmem
    simp only [Lane.post, Workers.Pool.post, List.mem_append, List.mem_singleton] at hmem
    rcases hmem with (hmem | rfl) | hmem
    · exact hlane.pending u (Or.inl hmem)
    · exact hpool
    · exact hlane.pending u (Or.inr hmem)
  · exact hlane.executed

/-- A task is begun. -/
theorem begin (hlane : Accounts size threads pool lane) (hbegin : lane.begin size t = some lane') :
    Accounts size threads pool lane' := by
  obtain ⟨tasks, htasks, rfl⟩ := Option.map_eq_some_iff.mp hbegin
  have hsound := hlane.sound.begin htasks
  obtain ⟨hwaiting, -, rfl⟩ := Workers.Pool.begin_eq_some htasks
  refine ⟨hsound, ?_, hlane.counted, fun u hmem => hlane.pending u ?_, hlane.executed⟩
  · simp only [hlane.active, List.length_cons]
    omega
  · rcases hmem with hmem | hmem
    · exact Or.inl (List.mem_of_mem_erase hmem)
    · rcases List.mem_cons.mp hmem with rfl | hmem
      · exact Or.inl hwaiting
      · exact Or.inr hmem

/-- A task is finished, and its thread has executed the message. -/
theorem finish {threads' : ℕ → Pc} (hlane : Accounts size threads pool lane)
    (hfinish : lane.finish t = some lane') (hexecuted : Executed pool (threads' t))
    (hothers : ∀ u, u ≠ t → threads' u = threads u) : Accounts size threads' pool lane' := by
  obtain ⟨tasks, htasks, rfl⟩ := Option.map_eq_some_iff.mp hfinish
  have hsound := hlane.sound.finish htasks
  obtain ⟨hmem, rfl⟩ := Workers.Pool.finish_eq_some htasks
  have hdone : t ∈ lane.tasks.finished ++ [t] := List.mem_append_right _ List.mem_cons_self
  constructor
  · exact hsound
  · have hlength := List.length_erase_add_one hmem
    simp only [hlane.active]
    omega
  · exact hlane.counted
  · intro u hu
    have hne : u ≠ t := by
      rintro rfl
      rcases hu with hu | hu
      · exact hsound.not_finished_of_waiting hu hdone
      · exact hsound.not_finished_of_running hu hdone
    rw [hothers u hne]
    exact hlane.pending u (hu.imp id List.mem_of_mem_erase)
  · intro u
    by_cases hut : u = t
    · subst hut
      exact iff_of_true hdone hexecuted
    · rw [hothers u hut, ← hlane.executed u]
      simp [hut]

/-- A thread outside of the pool moves. -/
theorem of_others {threads' : ℕ → Pc} (hlane : Accounts size threads pool lane)
    (hbefore : poolOf (threads t) ≠ some pool)
    (hexecuted : Executed pool (threads' t) ↔ Executed pool (threads t))
    (hothers : ∀ u, u ≠ t → threads' u = threads u) : Accounts size threads' pool lane := by
  refine ⟨hlane.sound, hlane.active, hlane.counted, ?_, ?_⟩
  · intro u hu
    have hpool := hlane.pending u hu
    have hne : u ≠ t := fun heq => hbefore (heq ▸ hpool)
    rwa [hothers u hne]
  · intro u
    rw [hlane.executed u]
    by_cases hut : u = t
    · subst hut
      exact hexecuted.symm
    · rw [hothers u hut]

end Accounts

/-- A task of the pool is executed. -/
theorem Inv.finish {around : Surroundings} {lane : Lane} {c : Config} (hs : Inv settings s)
    (hfinish : (s.lanes pool).finish t = some lane)
    (hstep : Manager.step node s.config (.thread t (.go around)) = some c) :
    Inv settings { s.setLane pool lane with config := c } := by
  obtain ⟨hexec, hothers⟩ := Interleaving.exec_of_step hstep
  have hmem : t ∈ (s.lanes pool).tasks.running := by
    obtain ⟨tasks, htasks, -⟩ := Option.map_eq_some_iff.mp hfinish
    exact (Workers.Pool.finish_eq_some htasks).1
  obtain ⟨msg, g, server, hpc, hpool⟩ :=
    hs.chosen t pool ((hs.accounts pool).pending t (Or.inr hmem))
  have hafter : ∃ req reply, c.threads t = .done (.processed msg g server req reply) := by
    rw [hpc] at hexec
    rcases task_of_moves (moves_of_exec hexec) with ⟨hnone, -⟩ | ⟨_, _, _, _, req, reply, heq, -, h⟩
    · cases hnone
    · cases heq
      exact ⟨req, reply, h⟩
  obtain ⟨req, reply, hafter⟩ := hafter
  constructor
  · intro u pool' hu
    by_cases hut : u = t
    · subst hut
      simp only [hafter] at hu
      cases hu
    · simp only [hothers u hut] at hu ⊢
      exact hs.chosen u pool' hu
  · refine State.forall_lanes_setLane
      (P := fun pool lane => Accounts (settings.size pool) c.threads pool lane) ?_ ?_
    · refine (hs.accounts pool).finish hfinish ?_ hothers
      rw [hafter]
      exact hpool.symm
    · intro pool' hne
      refine (hs.accounts pool').of_others (t := t) ?_ ?_ hothers
      · rw [hpc]
        exact fun heq => hne (Option.some.inj heq).symm
      · rw [hafter, hpc]
        exact iff_of_false (fun heq => hne (heq.symm.trans hpool.symm)) id

/-- Each step of the pools is a step of one lane, by the rules above. -/
theorem Inv.step (hs : Inv settings s) (hstep : step node settings s l = some s') :
    Inv settings s' := by
  cases takes_of_step hstep with
  | node l c hfree hnode => exact hs.elsewhere hfree hnode
  | post pool t hpool hnew => exact hs.setLane ((hs.accounts pool).post hpool hnew)
  | begin pool t lane hbegin => exact hs.setLane ((hs.accounts pool).begin hbegin)
  | finish pool t around lane c hfinish hnode => exact hs.finish hfinish hnode

/-- It holds in every reachable state. -/
theorem inv_of_run (hrun : run (step node settings) (start types) labels = some s) :
    Inv settings s :=
  run_invariant (fun _ _ _ hs => hs.step) (inv_start settings types) hrun

/-! ## The record of a run -/

/-- The task that a label posts to the pool. -/
def Label.posts (pool : Pool) : Label → Option ℕ
  | .post pool' t => if pool' = pool then some t else none
  | _ => none

/-- The task of the pool that a label executes. -/
def Label.executes (pool : Pool) : Label → Option ℕ
  | .finish pool' t _ => if pool' = pool then some t else none
  | _ => none

/-- A step writes down what its label posts and executes. -/
theorem record_of_step (hstep : step node settings s l = some s') (pool : Pool) :
    (s'.lanes pool).tasks.posted = (s.lanes pool).tasks.posted ++ (l.posts pool).toList ∧
      (s'.lanes pool).tasks.finished =
        (s.lanes pool).tasks.finished ++ (l.executes pool).toList := by
  have hsame : ∀ tasks : List ℕ, tasks = tasks ++ Option.toList none :=
    fun tasks => (List.append_nil tasks).symm
  -- The steps that concern a pool concern either this one or another.
  have hother : ∀ {pool' : Pool} {lane : Lane}, pool' ≠ pool →
      (s.setLane pool' lane).lanes pool = s.lanes pool :=
    fun hne => s.lanes_setLane_of_ne _ (Ne.symm hne)
  cases takes_of_step hstep with
  | node => exact ⟨hsame _, hsame _⟩
  | post pool' t =>
    by_cases hne : pool' = pool
    · subst hne
      simp only [State.lanes_setLane_self, Label.posts, if_pos]
      exact ⟨rfl, hsame _⟩
    · simp only [hother hne, Label.posts, if_neg hne]
      exact ⟨hsame _, hsame _⟩
  | begin pool' t lane hbegin =>
    by_cases hne : pool' = pool
    · subst hne
      obtain ⟨tasks, htasks, rfl⟩ := Option.map_eq_some_iff.mp hbegin
      rw [State.lanes_setLane_self]
      obtain ⟨-, -, rfl⟩ := Workers.Pool.begin_eq_some htasks
      exact ⟨hsame _, hsame _⟩
    · rw [hother hne]
      exact ⟨hsame _, hsame _⟩
  | finish pool' t around lane c hfinish =>
    by_cases hne : pool' = pool
    · subst hne
      obtain ⟨tasks, htasks, rfl⟩ := Option.map_eq_some_iff.mp hfinish
      simp only [State.lanes_setLane_self, Label.executes, if_pos]
      obtain ⟨-, rfl⟩ := Workers.Pool.finish_eq_some htasks
      exact ⟨hsame _, rfl⟩
    · simp only [hother hne, Label.executes, if_neg hne]
      exact ⟨hsame _, hsame _⟩

/-- The books of a pool are what the labels of the run posted and executed. -/
theorem record_of_run (hrun : run (step node settings) s labels = some s') (pool : Pool) :
    (s'.lanes pool).tasks.posted =
        (s.lanes pool).tasks.posted ++ labels.filterMap (Label.posts pool) ∧
      (s'.lanes pool).tasks.finished =
        (s.lanes pool).tasks.finished ++ labels.filterMap (Label.executes pool) := by
  induction labels generalizing s with
  | nil =>
    cases hrun
    exact ⟨(List.append_nil _).symm, (List.append_nil _).symm⟩
  | cons l labels ih =>
    obtain ⟨mid, hstep, hrest⟩ := Option.bind_eq_some_iff.mp hrun
    obtain ⟨hposted, hfinished⟩ := record_of_step hstep pool
    obtain ⟨hposted', hfinished'⟩ := ih hrest
    have hcons : ∀ f : Label → Option ℕ,
        (l :: labels).filterMap f = (f l).toList ++ labels.filterMap f := by
      intro f
      rw [List.filterMap_cons]
      cases f l <;> rfl
    rw [hposted', hfinished', hposted, hfinished, hcons, hcons, List.append_assoc,
      List.append_assoc]
    exact ⟨rfl, rfl⟩

/-- Every message that is posted is executed at most once, by the pool of its type, and never by
more threads at a time than the pool has. Whether and how often a thread's message was executed
can be read off the run. -/
theorem messages_executed_once (hrun : run (step node settings) (start types) labels = some s)
    (pool : Pool) :
    (∃ ls, run (Manager.step node) (Manager.start types) ls = some s.config) ∧
      (labels.filterMap (Label.posts pool)).Nodup ∧
      (labels.filterMap (Label.executes pool)).Nodup ∧
      (∀ t, t ∈ labels.filterMap (Label.executes pool) ↔ Executed pool (s.config.threads t)) ∧
      (∀ t, t ∈ labels.filterMap (Label.posts pool) ↔ t ∈ labels.filterMap (Label.executes pool) ∨
        t ∈ (s.lanes pool).tasks.running ∨ t ∈ (s.lanes pool).tasks.waiting) ∧
      (∀ t, t ∈ (s.lanes pool).tasks.running ∨ t ∈ (s.lanes pool).tasks.waiting →
        ∃ msg g server, s.config.threads t = .stepTask msg g server pool ∧ pool = poolFor msg) ∧
      (s.lanes pool).activeThreads = (s.lanes pool).tasks.running.length ∧
      (s.lanes pool).tasks.running.length ≤ settings.size pool ∧
      (s.lanes pool).msgCount = (labels.filterMap (Label.posts pool)).length := by
  have hinv := inv_of_run hrun
  have hlane := hinv.accounts pool
  obtain ⟨hposted, hfinished⟩ := record_of_run hrun pool
  simp only [start, Workers.Pool.empty, List.nil_append] at hfinished hposted
  rw [← hposted, ← hfinished]
  have hplaces := hlane.sound.nodup_places
  refine ⟨projects_config.run hrun, hlane.sound.nodup, ?_, hlane.executed,
    fun t => hlane.sound.mem_posted, ?_, hlane.active, hlane.sound.busy, hlane.counted⟩
  · exact (List.nodup_append.mp (List.nodup_append.mp hplaces).1).1
  · intro t hmem
    exact hinv.chosen t pool (hlane.pending t hmem.symm)

/-- A message for group 1. -/
def message (type : MsgType) : RaftGroupMsg where
  groupId := canonicalText.toString 1
  msg := ⟨some ⟨0, type.val.toUInt32, 2, 1⟩, some (.rcRequest ⟨0, 0, 0, []⟩)⟩
  intendedAddr := canonicalText.toString 7
  groupType := "raft"

/-- Thread `t` gets the message and takes `n` steps with it. -/
def receives (t n : ℕ) (type : MsgType) : List Label :=
  .node (.thread t (.call (.raftStep (message type)))) :: (goes t n 10).map .node

/-- Two fast messages and a slow one; the second fast one is begun and finished first. -/
def sampleLabels : List Label :=
  receives 0 7 .joinClusterRequest ++ receives 1 2 .clientRequest ++
    receives 2 2 .appendEntriesRequest ++
    [.post .raft 0, .post .raft 1, .post .io 2, .begin .raft 1, .begin .raft 0, .finish .raft 1 {}]

/-- Where the sample run ends. -/
theorem exists_run_sampleLabels :
    ∃ s, run (step sampleNode {}) (start ["raft"]) sampleLabels = some s ∧
      (s.lanes .raft).tasks.running = [0] ∧ (s.lanes .io).tasks.waiting = [2] ∧
      s.config.threads 0 = .stepTask (message .joinClusterRequest) 1 0 .raft ∧
      s.config.threads 2 = .stepTask (message .appendEntriesRequest) 1 0 .io ∧
      ∀ t, t ≠ 0 → t ≠ 2 → poolOf (s.config.threads t) = none := by
  refine ⟨_, rfl, rfl, rfl, rfl, rfl, ?_⟩
  rintro (_ | _ | _ | t) h0 h2
  · exact absurd rfl h0
  · rfl
  · exact absurd rfl h2
  · rfl

/-- The task of thread 1 was executed, that of thread 0 is running, that of thread 2 waits in
the other pool. -/
theorem executed_after_sampleLabels :
    ∃ s, run (step sampleNode {}) (start ["raft"]) sampleLabels = some s ∧
      Executed .raft (s.config.threads 1) ∧ 0 ∈ (s.lanes .raft).tasks.running ∧
      2 ∈ (s.lanes .io).tasks.waiting ∧ (s.lanes .raft).activeThreads = 1 := by
  obtain ⟨s, hrun, hrunning, hwaiting, -⟩ := exists_run_sampleLabels
  obtain ⟨-, -, -, hexecuted, -, -, hactive, -⟩ := messages_executed_once hrun .raft
  refine ⟨s, hrun, (hexecuted 1).mp ?_, ?_, ?_, ?_⟩
  · exact List.mem_singleton.mpr rfl
  · rw [hrunning]
    exact List.mem_cons_self
  · rw [hwaiting]
    exact List.mem_cons_self
  · rw [hactive, hrunning]
    rfl

/-! ## Working off the queues -/

/-- A step that a pool takes with its own tasks. -/
def Label.worksIn (pool : Pool) : Label → Prop
  | .begin pool' _ => pool' = pool
  | .finish pool' _ _ => pool' = pool
  | _ => False

/-- The I/O pool always has threads. -/
theorem size_io_pos (settings : Settings) : 0 < settings.size .io := by
  simp only [Settings.size, Settings.calculateIoPoolSize]
  split
  · next hpos => exact UInt32.lt_iff_toNat_lt.mp hpos
  · omega

/-- What a pool leaves alone while it works. -/
structure Works (pool : Pool) (s s' : State) : Prop where
  shared : s'.config.shared = s.config.shared
  others : ∀ pool', pool' ≠ pool → s'.lanes pool' = s.lanes pool'
  posted : (s'.lanes pool).tasks.posted = (s.lanes pool).tasks.posted
  tasks : ∀ t, s'.config.threads t = s.config.threads t ∨ poolOf (s'.config.threads t) = none

/-- A pool that does nothing leaves everything alone. -/
theorem Works.refl (pool : Pool) (s : State) : Works pool s s :=
  ⟨rfl, fun _ _ => rfl, rfl, fun _ => Or.inl rfl⟩

/-- So does a pool that works twice. -/
theorem Works.trans {s'' : State} (h : Works pool s s') (h' : Works pool s' s'') :
    Works pool s s'' := by
  constructor
  · exact h'.shared.trans h.shared
  · intro pool' hne
    exact (h'.others pool' hne).trans (h.others pool' hne)
  · exact h'.posted.trans h.posted
  · intro t
    rcases h'.tasks t with heq | hnone
    · rw [heq]
      exact h.tasks t
    · exact Or.inr hnone

/-- The tasks of the pool carry requests. -/
def Requests (pool : Pool) (s : State) : Prop :=
  ∀ t msg g server, s.config.threads t = .stepTask msg g server pool →
    ∃ rc, msg.msg.reqResp = some (.rcRequest rc)

/-- The tasks that are left are still requests. -/
theorem Works.requests (h : Works pool s s') (hs : Requests pool s) : Requests pool s' := by
  intro t msg g server hpc
  rcases h.tasks t with heq | hnone
  · exact hs t msg g server (heq ▸ hpc)
  · rw [hpc] at hnone
    cases hnone

/-- A waiting task begins when a thread of the pool is free. -/
theorem step_begin {tasks : Workers.Pool ℕ}
    (htasks : (s.lanes pool).tasks.begin (settings.size pool) t = some tasks) :
    step node settings s (.begin pool t) = some (s.setLane pool { s.lanes pool with
      tasks := tasks, activeThreads := (s.lanes pool).activeThreads + 1 }) := by
  simp only [step, Lane.begin, htasks, Option.map_some]

/-- A running task finishes with a step of its thread. -/
theorem step_finish {tasks : Workers.Pool ℕ} {around : Surroundings} {c : Config}
    (htasks : (s.lanes pool).tasks.finish t = some tasks)
    (hnode : Manager.step node s.config (.thread t (.go around)) = some c) :
    step node settings s (.finish pool t around) = some { s.setLane pool { s.lanes pool with
      tasks := tasks, activeThreads := (s.lanes pool).activeThreads - 1 } with config := c } := by
  simp only [step, Lane.finish, htasks, hnode, Option.map_some, Option.bind_some]

/-- A task in work can be finished. -/
theorem exists_finish (node : Node) (hs : Inv settings s) (hrequests : Requests pool s)
    (ht : t ∈ (s.lanes pool).tasks.running) :
    ∃ s', step node settings s (.finish pool t {}) = some s' ∧ Works pool s s' ∧
      (s'.lanes pool).tasks.backlog + 1 = (s.lanes pool).tasks.backlog := by
  obtain ⟨msg, g, server, hpc, -⟩ := hs.chosen t pool ((hs.accounts pool).pending t (Or.inr ht))
  obtain ⟨req, reply, hadvance, -⟩ := Replies.advance_stepTask node t s.config.shared {}
    (hrequests t msg g server hpc) g server pool
  rw [← hpc] at hadvance
  have htasks := Workers.Pool.finish_of_mem ht
  refine ⟨_, step_finish htasks (step_of_advance hadvance), ?_, ?_⟩
  · constructor
    · rfl
    · intro pool' hne
      exact s.lanes_setLane_of_ne _ hne
    · simp only [State.lanes_setLane_self]
    · intro u
      by_cases hut : u = t
      · subst hut
        simp only [Function.update_self]
        exact Or.inr rfl
      · exact Or.inl (Function.update_of_ne hut ..)
  · simp only [State.lanes_setLane_self]
    exact Workers.Pool.backlog_finish htasks

/-- A pool with threads that has something left to do can go on. -/
theorem exists_work (node : Node) (hs : Inv settings s) (hrequests : Requests pool s)
    (hsize : 0 < settings.size pool) (hbacklog : (s.lanes pool).tasks.backlog ≠ 0) :
    ∃ l s', l.worksIn pool ∧ step node settings s l = some s' ∧ Works pool s s' ∧
      (s'.lanes pool).tasks.backlog + 1 = (s.lanes pool).tasks.backlog := by
  cases hrunning : (s.lanes pool).tasks.running with
  | cons t running =>
    have ht : t ∈ (s.lanes pool).tasks.running := hrunning ▸ List.mem_cons_self
    obtain ⟨s', hstep, hworks, hless⟩ := exists_finish node hs hrequests ht
    exact ⟨.finish pool t {}, s', rfl, hstep, hworks, hless⟩
  | nil =>
    cases hwaiting : (s.lanes pool).tasks.waiting with
    | nil => exact absurd (by simp [Workers.Pool.backlog, hrunning, hwaiting]) hbacklog
    | cons t rest =>
      have hfree : (s.lanes pool).tasks.running.length < settings.size pool := by
        rw [hrunning]
        exact hsize
      have ht : t ∈ (s.lanes pool).tasks.waiting := hwaiting ▸ List.mem_cons_self
      have htasks := Workers.Pool.begin_of_mem ht hfree
      refine ⟨.begin pool t, _, rfl, step_begin htasks, ?_, ?_⟩
      · refine ⟨rfl, fun pool' hne => s.lanes_setLane_of_ne _ hne, ?_, fun u => Or.inl rfl⟩
        rw [State.lanes_setLane_self]
      · rw [State.lanes_setLane_self]
        exact Workers.Pool.backlog_begin htasks

/-- Steps of the pool alone work off everything it has. -/
theorem exists_drained (node : Node) (hs : Inv settings s) (hrequests : Requests pool s)
    (hsize : 0 < settings.size pool) :
    ∃ ls s', (∀ l ∈ ls, l.worksIn pool) ∧ run (step node settings) s ls = some s' ∧
      Works pool s s' ∧ Inv settings s' ∧ (s'.lanes pool).tasks.backlog = 0 := by
  induction hn : (s.lanes pool).tasks.backlog generalizing s with
  | zero => exact ⟨[], s, fun _ hmem => absurd hmem List.not_mem_nil, rfl, .refl pool s, hs, hn⟩
  | succ n ih =>
    obtain ⟨l, mid, hl, hstep, hworks, hless⟩ :=
      exists_work node hs hrequests hsize (by omega)
    obtain ⟨ls, s', hls, hrun, hworks', hs', hzero⟩ :=
      ih (hs.step hstep) (hworks.requests hrequests) (by omega)
    refine ⟨l :: ls, s', List.forall_mem_cons.mpr ⟨hl, hls⟩, ?_, hworks.trans hworks', hs', hzero⟩
    rw [run_cons, hstep]
    exact hrun

/-- A pool with at least one thread can execute everything that was posted to it, by steps of its
own alone; the I/O pool has a thread under all settings. A pool without threads never executes
anything, which `raft_append_entries_thread_cnt` allows. -/
theorem queues_drain (hrun : run (step node settings) (start types) labels = some s)
    (hrequests : ∀ t msg g server pool, s.config.threads t = .stepTask msg g server pool →
      ∃ rc, msg.msg.reqResp = some (.rcRequest rc)) :
    0 < settings.size .io ∧ ∀ pool,
      (0 < settings.size pool → ∃ ls s', (∀ l ∈ ls, l.worksIn pool) ∧
        run (step node settings) s ls = some s' ∧
        (∀ t ∈ labels.filterMap (Label.posts pool), Executed pool (s'.config.threads t)) ∧
        s'.config.shared = s.config.shared ∧
        ∀ pool', pool' ≠ pool → s'.lanes pool' = s.lanes pool') ∧
      (settings.size pool = 0 → ∀ t, ¬ Executed pool (s.config.threads t)) := by
  have hs := inv_of_run hrun
  refine ⟨size_io_pos settings, fun pool => ⟨?_, ?_⟩⟩
  · intro hsize
    have hpool : Requests pool s := fun t msg g server => hrequests t msg g server pool
    obtain ⟨ls, s', hls, hrun', hworks, hs', hzero⟩ := exists_drained node hs hpool hsize
    refine ⟨ls, s', hls, hrun', ?_, hworks.shared, hworks.others⟩
    intro t ht
    have hlane := hs'.accounts pool
    obtain ⟨hposted, -⟩ := record_of_run hrun pool
    simp only [start, Workers.Pool.empty, List.nil_append] at hposted
    have hmem : t ∈ (s'.lanes pool).tasks.posted := by
      rw [hworks.posted, hposted]
      exact ht
    obtain ⟨hnoneWaits, hnoneRuns⟩ := Workers.Pool.eq_nil_of_backlog hzero
    apply (hlane.executed t).mp
    rcases hlane.sound.mem_posted.mp hmem with hfinished | hrunning | hwaiting
    · exact hfinished
    · rw [hnoneRuns] at hrunning
      cases hrunning
    · rw [hnoneWaits] at hwaiting
      cases hwaiting
  · intro hsize t hexecuted
    have hlane := hs.accounts pool
    have hpos := hlane.sound.worked t ((hlane.executed t).mpr hexecuted)
    omega

/-- The two messages that the sample run leaves in the pools can both be executed. -/
theorem sampleLabels_drain :
    ∃ s, run (step sampleNode {}) (start ["raft"]) sampleLabels = some s ∧
      ¬ Executed .io (s.config.threads 2) ∧
      ∃ ls s', run (step sampleNode {}) s ls = some s' ∧ Executed .io (s'.config.threads 2) := by
  obtain ⟨s, hrun, -, -, hpc, hpc', hothers⟩ := exists_run_sampleLabels
  have hrequests : ∀ t msg g server pool, s.config.threads t = .stepTask msg g server pool →
      ∃ rc, msg.msg.reqResp = some (.rcRequest rc) := by
    intro t msg g server pool htask
    by_cases h0 : t = 0
    · subst h0
      cases hpc.symm.trans htask
      exact ⟨_, rfl⟩
    by_cases h2 : t = 2
    · subst h2
      cases hpc'.symm.trans htask
      exact ⟨_, rfl⟩
    · have hnone := hothers t h0 h2
      rw [htask] at hnone
      cases hnone
  obtain ⟨hio, hdrain⟩ := queues_drain hrun hrequests
  obtain ⟨ls, s', -, hrun', hexecuted, -⟩ := (hdrain .io).1 hio
  refine ⟨s, hrun, ?_, ls, s', hrun', hexecuted 2 (List.mem_singleton.mpr rfl)⟩
  rw [hpc']
  exact id

end NuraftMesg.Manager.Pools
