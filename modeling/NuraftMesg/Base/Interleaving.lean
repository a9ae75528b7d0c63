import NuraftMesg.Base.Transition
import Mathlib.Logic.Function.Basic

/-!
# Threads interleaving over a shared state

Any number of threads, numbered by `ℕ`, work on one shared state. Each thread
is described by its program counter; `exec` gives the effect of one atomic step
of a thread and `env` the effect of one atomic step of the surroundings. The
proof rule splits an invariant into a part about the shared state and one
assertion for each thread, in the manner of a proof outline: the moving thread
establishes its next assertion, and no other thread's assertion is disturbed.
-/

namespace Interleaving

variable {σ π ι ε : Type*}

/-- The shared state together with the program counter of every thread. -/
structure Config (σ π : Type*) where
  /-- The state all threads work on. -/
  shared : σ
  /-- Where each thread stands. -/
  threads : ℕ → π

/-- One scheduling decision. -/
inductive Action (ι ε : Type*) where
  /-- Thread `t` executes one atomic step with the given input. -/
  | thread (t : ℕ) (input : ι)
  /-- The surroundings act. -/
  | env (event : ε)

/-- One step of the interleaving. -/
def step (exec : ℕ → σ → π → ι → Option (σ × π)) (env : σ → ε → Option σ)
    (c : Config σ π) : Action ι ε → Option (Config σ π)
  | .thread t input => (exec t c.shared (c.threads t) input).map fun r =>
      ⟨r.1, Function.update c.threads t r.2⟩
  | .env event => (env c.shared event).map fun s => { c with shared := s }

variable {exec : ℕ → σ → π → ι → Option (σ × π)} {env : σ → ε → Option σ}

/-- What a step of thread `t` does to the configuration. -/
theorem step_thread {c c' : Config σ π} {t : ℕ} {input : ι}
    (hstep : step exec env c (.thread t input) = some c') :
    ∃ s' p', exec t c.shared (c.threads t) input = some (s', p') ∧
      c' = ⟨s', Function.update c.threads t p'⟩ := by
  obtain ⟨⟨s', p'⟩, hexec, rfl⟩ := Option.map_eq_some_iff.mp hstep
  exact ⟨s', p', hexec, rfl⟩

/-- The same, read off the configuration after the step. -/
theorem exec_of_step {c c' : Config σ π} {t : ℕ} {input : ι}
    (hstep : step exec env c (.thread t input) = some c') :
    exec t c.shared (c.threads t) input = some (c'.shared, c'.threads t) ∧
      ∀ u, u ≠ t → c'.threads u = c.threads u := by
  obtain ⟨s', p', hexec, rfl⟩ := step_thread hstep
  simp only [Function.update_self]
  exact ⟨hexec, fun u hu => Function.update_of_ne hu ..⟩

/-- A thread that can go on does so in the interleaving. -/
theorem step_of_exec {c : Config σ π} {t : ℕ} {input : ι} {s' : σ} {p' : π}
    (hexec : exec t c.shared (c.threads t) input = some (s', p')) :
    step exec env c (.thread t input) = some ⟨s', Function.update c.threads t p'⟩ := by
  simp only [step, hexec, Option.map_some]

/-- What a step of the surroundings does to the configuration. -/
theorem step_env {c c' : Config σ π} {event : ε}
    (hstep : step exec env c (.env event) = some c') :
    ∃ s', env c.shared event = some s' ∧ c' = { c with shared := s' } := by
  obtain ⟨s', henv, rfl⟩ := Option.map_eq_some_iff.mp hstep
  exact ⟨s', henv, rfl⟩

/-- The thread that an action schedules. -/
def Action.mover : Action ι ε → Option ℕ
  | .thread t _ => some t
  | .env _ => none

/-- A step leaves the threads that it does not schedule where they are. -/
theorem threads_eq_of_step {c c' : Config σ π} {a : Action ι ε} {u : ℕ}
    (hstep : step exec env c a = some c') (hu : a.mover ≠ some u) :
    c'.threads u = c.threads u := by
  cases a with
  | thread t input =>
    obtain ⟨s', p', -, rfl⟩ := step_thread hstep
    have hne : u ≠ t := fun heq => hu (congrArg some heq.symm)
    exact Function.update_of_ne hne ..
  | env event =>
    obtain ⟨s', -, rfl⟩ := step_env hstep
    rfl

/-- Proof rule for one step. `I` is the invariant of the shared state and
`A t s p` the assertion of thread `t` at counter `p`. -/
theorem step_outline {I : σ → Prop} {A : ℕ → σ → π → Prop} {c c' : Config σ π} {a : Action ι ε}
    (hstep : step exec env c a = some c') (hthreads : ∀ u, A u c.shared (c.threads u))
    (hown : ∀ t input s' p', a = .thread t input →
      exec t c.shared (c.threads t) input = some (s', p') → I s' ∧ A t s' p')
    (hother : ∀ t input s' p' u, a = .thread t input →
      exec t c.shared (c.threads t) input = some (s', p') → u ≠ t →
      A u c.shared (c.threads u) → A u s' (c.threads u))
    (henv : ∀ event s', a = .env event → env c.shared event = some s' →
      I s' ∧ ∀ u, A u c.shared (c.threads u) → A u s' (c.threads u)) :
    I c'.shared ∧ ∀ u, A u c'.shared (c'.threads u) := by
  cases a with
  | thread t input =>
    obtain ⟨s', p', hexec, rfl⟩ := step_thread hstep
    obtain ⟨hI, hA⟩ := hown t input s' p' rfl hexec
    refine ⟨hI, fun u => ?_⟩
    by_cases hut : u = t
    · subst hut
      simpa only [Function.update_self] using hA
    · simpa only [Function.update_of_ne hut] using
        hother t input s' p' u rfl hexec hut (hthreads u)
  | env event =>
    obtain ⟨s', hs', rfl⟩ := step_env hstep
    obtain ⟨hI, hA⟩ := henv event s' rfl hs'
    exact ⟨hI, fun u => hA u (hthreads u)⟩

/-- A thread that is not scheduled stays where it is. -/
theorem threads_eq_of_run {c c' : Config σ π} {labels : List (Action ι ε)} {u : ℕ}
    (hrun : Transition.run (step exec env) c labels = some c')
    (hidle : ∀ input, Action.thread u input ∉ labels) : c'.threads u = c.threads u := by
  induction labels generalizing c with
  | nil =>
    cases hrun
    rfl
  | cons a labels ih =>
    obtain ⟨mid, hstep, hrest⟩ := Option.bind_eq_some_iff.mp hrun
    have hrestIdle : ∀ input, Action.thread u input ∉ labels :=
      fun input hmem => hidle input (List.mem_cons_of_mem a hmem)
    rw [ih hrest hrestIdle]
    refine threads_eq_of_step hstep fun hmover => ?_
    cases a with
    | thread t input =>
      cases hmover
      exact hidle input List.mem_cons_self
    | env event => cases hmover

end Interleaving
