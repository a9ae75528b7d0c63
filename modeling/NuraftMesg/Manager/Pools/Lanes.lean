import NuraftMesg.Base.Unwinding
import NuraftMesg.Manager.Messages
import NuraftMesg.Manager.Pools

/-!
# Slow messages stay in their lane

The requests that may block, to append entries and to install a snapshot, have a pool
of their own. Leaving them out of a run, with all that their threads and their pool do,
changes nothing for the rest: the registries, the other messages and the queue of the
Raft pool develop step by step as before.
-/

namespace NuraftMesg.Manager.Pools

open Proto Transition

variable {node : Node} {settings : Settings} {s s' u u' : State} {l : Label} {t : ℕ} {pc pc' : Pc}
  {msg : RaftGroupMsg} {types : List GroupType} {labels : List Label}

/-- The thread handles a slow message. -/
def slow (pc : Pc) : Bool := pc.message.any fun msg => poolFor msg = .io

/-- A slow message is received. -/
def startsSlow : Input → Bool
  | .call (.raftStep msg) => poolFor msg = .io
  | _ => false

/-- The steps that are owed to slow messages. -/
def OfSlow (s : State) : Label → Prop
  | .node (.thread t input) => startsSlow input ∨ slow (s.config.threads t)
  | .node (.env _) => False
  | .post pool _ | .begin pool _ | .finish pool _ _ => pool = .io

instance (s : State) : ∀ l, Decidable (OfSlow s l)
  | .node (.thread _ input) => inferInstanceAs (Decidable (startsSlow input ∨ slow _))
  | .node (.env _) => inferInstanceAs (Decidable False)
  | .post pool _ | .begin pool _ | .finish pool _ _ => inferInstanceAs (Decidable (pool = .io))

/-- The calls that start a slow thread. -/
theorem startsSlow_iff {input : Input} :
    startsSlow input ↔ ∃ msg, input = .call (.raftStep msg) ∧ poolFor msg = .io := by
  constructor
  · intro hstarts
    cases input with
    | call op =>
      cases op with
      | raftStep msg => exact ⟨msg, rfl, of_decide_eq_true hstarts⟩
      | _ => cases hstarts
    | go around => cases hstarts
  · rintro ⟨msg, rfl, hio⟩
    exact decide_eq_true hio

/-- A slow message is no request to join. -/
theorem not_isJoinRequest (hslow : poolFor msg = .io) : isJoinRequest msg = false := by
  by_contra hjoin
  have htype : MsgType.joinClusterRequest.val.toUInt32 = msg.msg.getBase.type := by
    simpa [isJoinRequest] using hjoin
  simp only [poolFor, ← htype] at hslow
  exact absurd hslow (by decide)

/-- Where the thread of a slow message can be: it never gets into `joinRaftGroup`. -/
def Direct : Pc → Prop
  | .stepCheck _ | .stepFind _ _ _ | .stepTask _ _ _ _ | .done _ => True
  | _ => False

/-- The thread of a slow message goes straight on and leaves the registries as they are. -/
theorem direct_of_moves {r r' : Registry} {input : Input} (hmoves : Moves node t r pc input r' pc')
    (hslow : slow pc) (hdirect : Direct pc) : r' = r ∧ slow pc' ∧ Direct pc' := by
  cases hmoves with
  | stepJoin msg g hcheck hjoin =>
    rw [not_isJoinRequest (of_decide_eq_true hslow)] at hjoin
    cases hjoin
  | stepRefused | stepPlain | stepFound | stepMissing | stepTask => exact ⟨rfl, hslow, trivial⟩
  | _ => first | cases hslow | exact hdirect.elim

/-- A thread becomes slow only by being started on a slow message. -/
theorem slow_of_moves {r r' : Registry} {input : Input} (hmoves : Moves node t r pc input r' pc')
    (hslow : ¬ slow pc) (hcall : ¬ startsSlow input) : ¬ slow pc' := by
  rcases hmoves.message with ⟨op, -, rfl, rfl⟩ | hnone | hsame
  · cases op with
    | raftStep msg => exact hcall
    | _ => exact Bool.false_ne_true
  · simp [slow, hnone]
  · simpa only [slow, hsame] using hslow

/-- A thread of a run beside the same thread in the run without the slow messages. -/
def Matched (pc pc' : Pc) : Prop :=
  if slow pc then Direct pc ∧ pc' = .idle else pc' = pc

/-- The thread of a slow message is idle in the other run. -/
theorem Matched.of_slow (h : Matched pc pc') (hslow : slow pc) : Direct pc ∧ pc' = .idle := by
  rwa [Matched, if_pos hslow] at h

/-- Every other thread is the same in both runs. -/
theorem Matched.of_not_slow (h : Matched pc pc') (hslow : ¬ slow pc) : pc' = pc := by
  rwa [Matched, if_neg hslow] at h

/-- A step of a slow thread, or one that starts it, does not show. -/
theorem matched_of_slow_step {c c' d : Config} {input : Input}
    (hmatched : ∀ v, Matched (c.threads v) (d.threads v))
    (hslow : startsSlow input ∨ slow (c.threads t))
    (hstep : Manager.step node c (.thread t input) = some c') :
    c'.shared = c.shared ∧ ∀ v, Matched (c'.threads v) (d.threads v) := by
  obtain ⟨hexec, hothers⟩ := Interleaving.exec_of_step hstep
  have hself : c'.shared = c.shared ∧ slow (c'.threads t) ∧ Direct (c'.threads t) ∧
      d.threads t = .idle := by
    rcases hslow with hstarts | hslow
    · obtain ⟨msg, rfl, hio⟩ := startsSlow_iff.mp hstarts
      obtain ⟨hidle, hshared, hentry⟩ := exec_call hexec
      have hbefore := (hmatched t).of_not_slow (by rw [hidle]; exact Bool.false_ne_true)
      rw [hentry]
      exact ⟨hshared, decide_eq_true hio, trivial, hbefore.trans hidle⟩
    · obtain ⟨hdirect, hidle⟩ := (hmatched t).of_slow hslow
      obtain ⟨hshared, hslow', hdirect'⟩ := direct_of_moves (moves_of_exec hexec) hslow hdirect
      exact ⟨hshared, hslow', hdirect', hidle⟩
  obtain ⟨hshared, hslow', hdirect', hidle⟩ := hself
  refine ⟨hshared, fun v => ?_⟩
  by_cases hvt : v = t
  · subst hvt
    rw [Matched, if_pos hslow']
    exact ⟨hdirect', hidle⟩
  · rw [hothers v hvt]
    exact hmatched v

/-- Any other step of a thread is taken on both sides. -/
theorem matched_of_quick_step {c c' d : Config} {input : Input}
    (hmatched : ∀ v, Matched (c.threads v) (d.threads v)) (hshared : d.shared = c.shared)
    (hcall : ¬ startsSlow input) (hslow : ¬ slow (c.threads t))
    (hstep : Manager.step node c (.thread t input) = some c') :
    ∃ d', Manager.step node d (.thread t input) = some d' ∧ d'.shared = c'.shared ∧
      ∀ v, Matched (c'.threads v) (d'.threads v) := by
  obtain ⟨hexec, hothers⟩ := Interleaving.exec_of_step hstep
  have hpc := (hmatched t).of_not_slow hslow
  have hafter := slow_of_moves (moves_of_exec hexec) hslow hcall
  rw [← hshared, ← hpc] at hexec
  refine ⟨_, Interleaving.step_of_exec hexec, rfl, fun v => ?_⟩
  by_cases hvt : v = t
  · subst hvt
    simp only [Function.update_self, Matched, if_neg hafter]
  · simp only [hothers v hvt, Function.update_of_ne hvt]
    exact hmatched v

/-- How a run looks beside the same run without the slow messages. -/
structure Alike (settings : Settings) (s u : State) : Prop where
  inv : Inv settings s
  shared : u.config.shared = s.config.shared
  threads : ∀ t, Matched (s.config.threads t) (u.config.threads t)
  raft : u.lanes .raft = s.lanes .raft
  io : u.lanes .io = (start []).lanes .io

/-- Both runs begin in the same state. -/
theorem alike_start (settings : Settings) (types : List GroupType) :
    Alike settings (start types) (start types) :=
  ⟨inv_start settings types, rfl, fun _ => rfl, rfl, rfl⟩

/-- Whether a task is slow shows in its pool. -/
theorem Alike.slow_iff {pool : Pool} (h : Alike settings s u)
    (hpool : poolOf (s.config.threads t) = some pool) :
    slow (s.config.threads t) ↔ pool = .io := by
  obtain ⟨msg, g, server, hpc, rfl⟩ := h.inv.chosen t pool hpool
  rw [hpc]
  exact decide_eq_true_iff

/-- A task in work is at its place. -/
theorem Alike.poolOf_of_finish {pool : Pool} {lane : Lane} (h : Alike settings s u)
    (hfinish : (s.lanes pool).finish t = some lane) :
    poolOf (s.config.threads t) = some pool := by
  obtain ⟨tasks, htasks, -⟩ := Option.map_eq_some_iff.mp hfinish
  exact (h.inv.accounts pool).pending t (Or.inr (Workers.Pool.finish_eq_some htasks).1)

/-- The steps owed to slow messages do not show. -/
theorem Alike.hidden (h : Alike settings s u) (hslow : OfSlow s l)
    (hstep : step node settings s l = some s') : Alike settings s' u := by
  have hinv := h.inv.step hstep
  have hraft : ∀ lane, (s.setLane .io lane).lanes .raft = s.lanes .raft :=
    fun lane => s.lanes_setLane_of_ne lane (by decide)
  cases takes_of_step hstep with
  | node l c hfree hnode =>
    cases l with
    | thread t input =>
      obtain ⟨hshared, hthreads⟩ := matched_of_slow_step h.threads hslow hnode
      exact ⟨hinv, h.shared.trans hshared.symm, hthreads, h.raft, h.io⟩
    | env event => exact hslow.elim
  | post pool t =>
    obtain rfl : pool = .io := hslow
    exact ⟨hinv, h.shared, h.threads, h.raft.trans (hraft _).symm, h.io⟩
  | begin pool t lane =>
    obtain rfl : pool = .io := hslow
    exact ⟨hinv, h.shared, h.threads, h.raft.trans (hraft _).symm, h.io⟩
  | finish pool t around lane c hfinish hnode =>
    obtain rfl : pool = .io := hslow
    have htask := (h.slow_iff (h.poolOf_of_finish hfinish)).mpr rfl
    obtain ⟨hshared, hthreads⟩ := matched_of_slow_step h.threads (Or.inr htask) hnode
    exact ⟨hinv, h.shared.trans hshared.symm, hthreads, h.raft.trans (hraft lane).symm, h.io⟩

/-- All other steps are taken in the run without slow messages as well. -/
theorem Alike.shown (h : Alike settings s u) (hquick : ¬ OfSlow s l)
    (hstep : step node settings s l = some s') :
    ∃ u', step node settings u l = some u' ∧ Alike settings s' u' := by
  have hinv := h.inv.step hstep
  have hpool : ∀ {pool : Pool}, pool ≠ .io → pool = .raft := by
    intro pool hne
    cases pool with
    | raft => rfl
    | io => exact absurd rfl hne
  have hio : ∀ lane, (u.setLane .raft lane).lanes .io = u.lanes .io :=
    fun lane => u.lanes_setLane_of_ne lane (by decide)
  cases takes_of_step hstep with
  | node l c hfree hnode =>
    cases l with
    | thread t input =>
      obtain ⟨hcall, hslow⟩ := not_or.mp hquick
      obtain ⟨d, hd, hshared, hthreads⟩ :=
        matched_of_quick_step h.threads h.shared hcall hslow hnode
      have hnone : poolOf (u.config.threads t) = none := by
        rw [(h.threads t).of_not_slow hslow]
        exact hfree t rfl
      refine ⟨{ u with config := d }, ?_, hinv, hshared, hthreads, h.raft, h.io⟩
      simp only [step, Interleaving.Action.mover, Option.bind_some, hnone, Option.isSome_none, hd]
      rfl
    | env event =>
      obtain ⟨r, hdeliver, rfl⟩ := Interleaving.step_env hnode
      rw [← h.shared] at hdeliver
      refine ⟨{ u with config := { u.config with shared := r } }, ?_, hinv, rfl, h.threads, h.raft,
        h.io⟩
      simp only [step, Interleaving.Action.mover, Option.bind_none, Option.isSome_none,
        Manager.step, Interleaving.step, hdeliver]
      rfl
  | post pool t htask hnew =>
    obtain rfl := hpool hquick
    have hpc := (h.threads t).of_not_slow (mt (h.slow_iff htask).mp hquick)
    rw [← h.raft] at hnew
    refine ⟨_, if_pos ⟨hpc ▸ htask, hnew⟩, hinv, h.shared, h.threads, ?_, (hio _).trans h.io⟩
    rw [State.lanes_setLane_self, State.lanes_setLane_self, h.raft]
  | begin pool t lane hbegin =>
    obtain rfl := hpool hquick
    rw [← h.raft] at hbegin
    refine ⟨u.setLane .raft lane, ?_, hinv, h.shared, h.threads, ?_, (hio _).trans h.io⟩
    · simp only [step, hbegin, Option.map_some]
    · rw [State.lanes_setLane_self, State.lanes_setLane_self]
  | finish pool t around lane c hfinish hnode =>
    obtain rfl := hpool hquick
    have hslow := mt (h.slow_iff (h.poolOf_of_finish hfinish)).mp hquick
    have hgo : ¬ startsSlow (.go around) := Bool.false_ne_true
    obtain ⟨d, hd, hshared, hthreads⟩ :=
      matched_of_quick_step h.threads h.shared hgo hslow hnode
    rw [← h.raft] at hfinish
    refine ⟨{ u.setLane .raft lane with config := d }, ?_, hinv, hshared, hthreads, ?_,
      (hio lane).trans h.io⟩
    · simp only [step, hfinish, Option.bind_some, hd, Option.map_some]
    · simp only [State.lanes_setLane_self]

/-- Slow messages do not interfere with the rest of a node. Without them, and without what their
threads and the I/O pool do, the remaining steps of a run can be taken just as well: they lead to
the same registries and the same Raft pool, and every thread that handles no slow message is where
it was. -/
theorem slow_messages_hidden (hrun : run (step node settings) (start types) labels = some s) :
    ∃ u, run (step node settings) (start types)
        (purge (step node settings) OfSlow (start types) labels) = some u ∧
      u.config.shared = s.config.shared ∧ u.lanes .raft = s.lanes .raft ∧
      u.lanes .io = (start types).lanes .io ∧
      (∀ t, ¬ slow (s.config.threads t) → u.config.threads t = s.config.threads t) ∧
      ∀ t, slow (s.config.threads t) → u.config.threads t = .idle := by
  have hhidden : ∀ s u l s', Alike settings s u → OfSlow s l →
      step node settings s l = some s' → Alike settings s' u :=
    fun s u l s' h => h.hidden
  have hshown : ∀ s u l s', Alike settings s u → ¬ OfSlow s l →
      step node settings s l = some s' →
      ∃ u', step node settings u l = some u' ∧ Alike settings s' u' :=
    fun s u l s' h => h.shown
  obtain ⟨u, hrun', halike⟩ := run_purge hhidden hshown (alike_start settings types) hrun
  exact ⟨u, hrun', halike.shared, halike.raft, halike.io,
    fun t => (halike.threads t).of_not_slow, fun t hslow => ((halike.threads t).of_slow hslow).2⟩

/-- The sample run without its request to append entries. -/
theorem appendEntries_hidden :
    ∃ s u, run (step sampleNode {}) (start ["raft"]) sampleLabels = some s ∧
      run (step sampleNode {}) (start ["raft"])
        (purge (step sampleNode {}) OfSlow (start ["raft"]) sampleLabels) = some u ∧
      u.lanes .raft = s.lanes .raft ∧ (s.lanes .io).tasks.waiting = [2] ∧
      u.config.threads 2 = .idle := by
  obtain ⟨s, hrun, -, hwaiting, -, hpc, -⟩ := exists_run_sampleLabels
  obtain ⟨u, hrun', -, hraft, -, -, hidle⟩ := slow_messages_hidden hrun
  exact ⟨s, u, hrun, hrun', hraft, hwaiting, hidle 2 (by rw [hpc]; rfl)⟩

end NuraftMesg.Manager.Pools
