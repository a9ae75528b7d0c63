import NuraftMesg.Base.Refinement
import NuraftMesg.Manager.Consistency

/-!
# Contexts of the data service

When `joinRaftGroup` has inserted its server and the data service is enabled, it calls
`make_repl_ctx` on the state manager of the server. The context that this makes holds a
plain pointer to the Raft server; it is never taken back, and all that the application
asks of its group through the state manager goes to this server. Between the insertion
and `make_repl_ctx` other threads can run. This file puts the contexts beside the threads
and says when they lead to the servers that are registered.
-/

namespace NuraftMesg.Manager.Contexts

open Transition

/-- A thread has inserted a server of the group, and its frame has not ended. -/
def inserted : Pc → Option (GroupId × ℕ)
  | .joinReturn _ g server true => some (g, server)
  | _ => none

/-- A node with the data service enabled. -/
structure State where
  config : Config
  /-- The server to which the context of a state manager points. -/
  contexts : StateMgrId → Option (GroupId × ℕ)
  /-- The threads that have called `make_repl_ctx`. -/
  called : ℕ → Bool

/-- The server for which a thread has still to call `make_repl_ctx`. -/
def State.pending (s : State) (t : ℕ) : Option (GroupId × ℕ) :=
  if s.called t then none else inserted (s.config.threads t)

inductive Label where
  | manager (l : Manager.Label)
  /-- The thread calls `make_repl_ctx`. -/
  | makeReplCtx (t : ℕ)

/-- One step. A thread that has a context to make does this before anything else. -/
def step (node : Node) (s : State) : Label → Option State
  | .manager l =>
    if (l.mover.bind s.pending).isSome then none
    else (Manager.step node s.config l).map fun c => { s with config := c }
  | .makeReplCtx t =>
    (s.pending t).bind fun target =>
      ((s.config.shared.servers target.1)[target.2]?).map fun server =>
        { s with
          contexts := Function.update s.contexts server.stateMgr (some target)
          called := Function.update s.called t true }

/-- A node that has just started. -/
def start (types : List GroupType) : State := ⟨Manager.start types, fun _ => none, fun _ => false⟩

/-- The group that a step is about to erase from `_raft_servers`. -/
def unregistering (c : Config) : Manager.Label → Option GroupId
  | .thread t _ => (c.threads t).unregisters
  | .env _ => none

/-- The condition on a step: state managers are stored and erased in an orderly way, and no
server is unregistered between its insertion and its `make_repl_ctx`. -/
def Orderly (s : State) : Label → Prop
  | .manager l => OrderlyErasure s.config l ∧
      ∀ t g server, s.pending t = some (g, server) → unregistering s.config l ≠ some g
  | .makeReplCtx _ => True

variable {node : Node} {g : GroupId} {t i : ℕ} {r r' : Registry} {pc pc' : Pc} {input : Input}
  {s s' : State} {types : List GroupType} {labels : List Label}

/-- With its contexts a node does nothing that it does not do without them. -/
theorem projects_config : Refinement.Projects (step node) (Manager.step node) State.config := by
  intro s l s' hstep
  cases l with
  | manager l =>
    simp only [step] at hstep
    split at hstep
    · cases hstep
    · obtain ⟨c, hc, rfl⟩ := Option.map_eq_some_iff.mp hstep
      exact Refinement.exists_run_of_step hc
  | makeReplCtx t =>
    obtain ⟨target, -, hserver⟩ := Option.bind_eq_some_iff.mp hstep
    obtain ⟨server, -, rfl⟩ := Option.map_eq_some_iff.mp hserver
    exact Refinement.exists_run_of_eq rfl

/-! ## Threads before their insertion -/

/-- The thread may still come to an insertion. -/
def mayInsert : Pc → Bool
  | .idle | .createInsert _ _ | .joinEmplace _ _ _ | .joinLock _ _ _ | .joinFind _ _ _
  | .joinInit _ _ _ | .joinInsert _ _ _ | .stepCheck _ => true
  | _ => false

/-- A thread that comes back to a caller is past its insertion, and its frame has ended. -/
theorem past_of_landing {m : Option Proto.RaftGroupMsg} (hpc : Landing g m pc) :
    mayInsert pc = false ∧ inserted pc = none := by
  cases hpc <;> exact ⟨rfl, rfl⟩

/-- A thread does not come back to where it was before its insertion. -/
theorem mayInsert_of_moves (hmoves : Moves node t r pc input r' pc')
    (hafter : mayInsert pc' = true) : mayInsert pc = true := by
  have hpast : ∀ {g m}, ¬ Landing g m pc' := by
    intro g m hpc
    rw [(past_of_landing hpc).1] at hafter
    cases hafter
  cases hmoves with
  | lockFailed | initRefused | duplicate | initReuseAborted | initCreateAborted => rfl
  | listenerMissing g resume | listenerErase g resume =>
    exact (hpast (resume.landing_next g)).elim
  | «return» | leaveShutdown | reap => exact (hpast (landing_afterListener ..)).elim
  | _ => first | rfl | cases hafter

/-- A thread that has inserted a server did it in this step. -/
theorem inserted_of_moves (hmoves : Moves node t r pc input r' pc')
    (hinserted : inserted pc' = some (g, i)) :
    (∃ caller, pc = .joinInsert caller g i) ∧ r'.raftServers g = some i := by
  have hended : ∀ {g' m}, ¬ Landing g' m pc' := by
    intro g' m hpc
    rw [(past_of_landing hpc).2] at hinserted
    cases hinserted
  cases hmoves with
  | insert caller g' server =>
    have hnone : r.raftServers g' = none := by
      cases hentry : r.raftServers g' with
      | none => rfl
      | some j => simp [inserted, Registry.tryEmplace, hentry] at hinserted
    simp only [inserted, Registry.tryEmplace, hnone, Option.isNone_none] at hinserted
    cases hinserted
    refine ⟨⟨caller, rfl⟩, ?_⟩
    simp only [Registry.tryEmplace, PartialMap.emplace_self, hnone, Option.getD_none]
  | call op => cases op <;> cases hinserted
  | lockFailed caller g | initRefused caller g =>
    exact (hended (caller.landing_refused g _)).elim
  | duplicate caller g => exact (hended (caller.landing_accepted g)).elim
  | listenerMissing g resume | listenerErase g resume =>
    exact (hended (resume.landing_next g)).elim
  | «return» | leaveShutdown | reap | initReuseAborted | initCreateAborted =>
    exact (hended (landing_afterListener ..)).elim
  | _ => cases hinserted

/-- The thread whose `try_emplace` found no server has entered its own. -/
theorem inserted_of_insert {caller : Caller}
    (hmoves : Moves node t r (.joinInsert caller g i) input r' pc')
    (hnone : r.raftServers g = none) : inserted pc' = some (g, i) := by
  cases hmoves with
  | insert => simp [inserted, Registry.tryEmplace, hnone]

/-! ## The invariant -/

/-- The context of the server's state manager leads to the server. -/
def Current (s : State) (g : GroupId) (i : ℕ) : Prop :=
  ∃ server, (s.config.shared.servers g)[i]? = some server ∧
    s.contexts server.stateMgr = some (g, i)

/-- Every registered server has its context or a thread that is going to make it. -/
structure Inv (s : State) : Prop where
  consistent : ConsistencyInvariant s.config
  fresh : ∀ t, mayInsert (s.config.threads t) = true → s.called t = false
  pending : ∀ t g i, s.pending t = some (g, i) → s.config.shared.raftServers g = some i
  current : ∀ g i, s.config.shared.raftServers g = some i →
    (∃ t, s.pending t = some (g, i)) ∨ Current s g i

/-- At the beginning no server is registered. -/
theorem inv_start (types : List GroupType) : Inv (start types) where
  consistent := consistencyInvariant_start types
  fresh _ _ := rfl
  pending _ _ _ hpending := by cases hpending
  current _ _ hserver := by cases hserver

/-- A thread has a context to make from the insertion of its server until its call. -/
theorem pending_eq_some {target : GroupId × ℕ} :
    s.pending t = some target ↔
      s.called t = false ∧ inserted (s.config.threads t) = some target := by
  unfold State.pending
  cases s.called t <;> simp

/-- A step of a thread that has no context to make. -/
theorem Inv.thread {c : Config} (hs : Inv s) (horderly : Orderly s (.manager (.thread t input)))
    (hfree : s.pending t = none) (hstep : Manager.step node s.config (.thread t input) = some c) :
    Inv { s with config := c } := by
  have hconsistent := step_consistency hs.consistent horderly.1 hstep
  obtain ⟨hexec, hothers⟩ := Interleaving.exec_of_step hstep
  have hmoves := moves_of_exec hexec
  -- The other threads have the same contexts to make as before.
  have hpending : ∀ u target, u ≠ t →
      (State.pending { s with config := c } u = some target ↔ s.pending u = some target) := by
    intro u target hu
    simp only [pending_eq_some, hothers u hu]
  refine ⟨hconsistent, fun u hmay => ?_, fun u g i htarget => ?_, fun g i hserver => ?_⟩
  · by_cases hu : u = t
    · subst hu
      exact hs.fresh u (mayInsert_of_moves hmoves hmay)
    · rw [hothers u hu] at hmay
      exact hs.fresh u hmay
  · by_cases hu : u = t
    · subst hu
      exact (inserted_of_moves hmoves (pending_eq_some.mp htarget).2).2
    · have hold := (hpending u _ hu).mp htarget
      exact hmoves.raftServers_kept (hs.pending u g i hold) (horderly.2 u g i hold)
  · rcases hmoves.raftServers hserver with hold | ⟨hnone, caller, hpc⟩
    · rcases hs.current g i hold with ⟨u, hu⟩ | ⟨server, hplace, hcontext⟩
      · have hne : u ≠ t := by
          rintro rfl
          rw [hfree] at hu
          cases hu
        exact Or.inl ⟨u, (hpending u _ hne).mpr hu⟩
      · obtain ⟨server', hplace', hsame⟩ := hmoves.servers hplace
        refine Or.inr ⟨server', hplace', ?_⟩
        rw [hsame]
        exact hcontext
    · -- The thread has just inserted the server.
      rw [hpc] at hmoves
      have hcalled : s.called t = false := hs.fresh t (by rw [hpc]; rfl)
      exact Or.inl ⟨t, pending_eq_some.mpr ⟨hcalled, inserted_of_insert hmoves hnone⟩⟩

/-- An event changes neither servers nor threads. -/
theorem Inv.env {event : External} {c : Config} (hs : Inv s)
    (horderly : Orderly s (.manager (.env event)))
    (hstep : Manager.step node s.config (.env event) = some c) : Inv { s with config := c } := by
  have hconsistent := step_consistency hs.consistent horderly.1 hstep
  obtain ⟨r', hdeliver, rfl⟩ := Interleaving.step_env hstep
  obtain ⟨hmap, hservers, -, -⟩ := deliver_frame hdeliver
  refine ⟨hconsistent, hs.fresh, fun t g i htarget => ?_, fun g i hserver => ?_⟩
  · rw [hmap]
    exact hs.pending t g i htarget
  · rw [hmap] at hserver
    rcases hs.current g i hserver with hpending | ⟨server, hplace, hcontext⟩
    · exact Or.inl hpending
    · refine Or.inr ⟨server, ?_, hcontext⟩
      rw [hservers]
      exact hplace

/-- A context is made for the registered server. It replaces the context of no other group, as
no state manager is stored for two groups. -/
theorem Inv.makeReplCtx {server : RaftServer} (hs : Inv s) (htarget : s.pending t = some (g, i))
    (hplace : (s.config.shared.servers g)[i]? = some server) :
    Inv { s with
      contexts := Function.update s.contexts server.stateMgr (some (g, i))
      called := Function.update s.called t true } := by
  have hregistered := hs.pending t g i htarget
  -- The thread itself has nothing more to make, the others have what they had.
  have hpending : ∀ u target, State.pending { s with
      contexts := Function.update s.contexts server.stateMgr (some (g, i))
      called := Function.update s.called t true } u = some target ↔
        u ≠ t ∧ s.pending u = some target := by
    intro u target
    by_cases hu : u = t
    · subst hu
      simp [pending_eq_some]
    · simp [pending_eq_some, hu]
  refine ⟨hs.consistent, fun u hmay => ?_, fun u g' i' hu => ?_, fun g' i' hserver => ?_⟩
  · have hne : u ≠ t := by
      rintro rfl
      have hinserted := (pending_eq_some.mp htarget).2
      cases hpc : s.config.threads u <;> simp [hpc, mayInsert, inserted] at hmay hinserted
    simp only [Function.update_of_ne hne]
    exact hs.fresh u hmay
  · exact hs.pending u g' i' ((hpending u _).mp hu).2
  · by_cases hg : g' = g
    · subst hg
      obtain rfl := Option.some.inj (hregistered.symm.trans hserver)
      exact Or.inr ⟨server, hplace, Function.update_self ..⟩
    · rcases hs.current g' i' hserver with ⟨u, hu⟩ | ⟨server', hplace', hcontext⟩
      · have hne : u ≠ t := by
          rintro rfl
          rw [htarget] at hu
          cases hu
          exact hg rfl
        exact Or.inl ⟨u, (hpending u _).mpr ⟨hne, hu⟩⟩
      · obtain ⟨_, hplace₁, hentry⟩ := hs.consistent.1.registered g i hregistered
        obtain ⟨_, hplace₂, hentry'⟩ := hs.consistent.1.registered g' i' hserver
        obtain rfl := Option.some.inj (hplace.symm.trans hplace₁)
        obtain rfl := Option.some.inj (hplace'.symm.trans hplace₂)
        have hne : server'.stateMgr ≠ server.stateMgr := by
          intro hsame
          rw [hsame] at hentry'
          exact hg (hs.consistent.1.distinct g' g _ hentry' hentry)
        refine Or.inr ⟨server', hplace', ?_⟩
        simp only [Function.update_of_ne hne]
        exact hcontext

/-- Each field is kept by an orderly step. -/
theorem Inv.step {l : Label} (hs : Inv s) (horderly : Orderly s l)
    (hstep : Contexts.step node s l = some s') : Inv s' := by
  cases l with
  | manager l =>
    simp only [Contexts.step] at hstep
    split at hstep
    · cases hstep
    · next hfree =>
      obtain ⟨c, hc, rfl⟩ := Option.map_eq_some_iff.mp hstep
      cases l with
      | thread t input => exact hs.thread horderly (Option.not_isSome_iff_eq_none.mp hfree) hc
      | env event => exact hs.env horderly hc
  | makeReplCtx t =>
    obtain ⟨⟨g, i⟩, htarget, hserver⟩ := Option.bind_eq_some_iff.mp hstep
    obtain ⟨server, hplace, rfl⟩ := Option.map_eq_some_iff.mp hserver
    exact hs.makeReplCtx htarget hplace

/-- Two joins race; the loser erases the entry of the winner before this has made its context. A
third join registers a server, makes the context and returns, and then the winner goes on. -/
def lateContext : List Label :=
  (.thread 0 (.call (.createGroup 1 "raft")) :: goes 0 4 10 ++
    .thread 1 (.call (.createGroup 1 "raft")) :: goes 1 4 10 ++ goes 0 1 10 ++ goes 1 4 10 ++
    .thread 2 (.call (.createGroup 1 "raft")) :: goes 2 5 10).map .manager ++
  .makeReplCtx 2 :: (goes 2 1 10).map .manager ++ .makeReplCtx 0 :: (goes 0 1 10).map .manager

/-- All three joins have returned. The group has a server, but the context of its state manager
points to another one, to which nothing refers any more. -/
example :
    ∃ s, run (step sampleNode) (start ["raft"]) lateContext = some s ∧
      s.config.threads 0 = .createWait 1 ∧ s.config.threads 1 = .createWait 1 ∧
      s.config.threads 2 = .createWait 1 ∧ s.config.shared.raftServers 1 = some 2 ∧
      s.config.shared.stateManagers 1 = some (some 10) ∧ s.contexts 10 = some (1, 0) ∧
      s.config.shared.Unreferenced 1 0 :=
  ⟨_, rfl, rfl, rfl, rfl, rfl, rfl, rfl, rfl, nofun⟩

end NuraftMesg.Manager.Contexts
