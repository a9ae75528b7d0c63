import NuraftMesg.Base.Interleaving

/-!
# One thread running alone

A thread that runs without interruption goes through a chain of atomic steps until it comes
to rest, which may depend on the shared state, or until no step is possible. `Ends` states
total correctness of such a thread: where it comes to rest, a postcondition holds, and it
gets stuck only where this is allowed. Rules for single steps build up the statement, and it
carries over to the interleaving.
-/

namespace Solo

open Interleaving Transition

variable {σ π ω ι ε : Type*}

/-- From the shared state and the program counter, the thread comes to rest with an outcome, and
`P` holds then, or it gets stuck, and `Q` holds. -/
inductive Ends (next : σ → π → Option (σ × π)) (rests : σ → π → Option ω) (P : σ → ω → Prop)
    (Q : Prop) : σ → π → Prop
  | rest {s p o} (hrests : rests s p = some o) (hpost : P s o) : Ends next rests P Q s p
  | stuck {s p} (hrests : rests s p = none) (hnext : next s p = none) (hstuck : Q) :
      Ends next rests P Q s p
  | step {s p s' p'} (hnext : next s p = some (s', p')) (hrest : Ends next rests P Q s' p') :
      Ends next rests P Q s p

variable {exec : ℕ → σ → π → ι → Option (σ × π)} {env : σ → ε → Option σ}
  {rests : σ → π → Option ω} {P : σ → ω → Prop} {Q : Prop} {c c' : Config σ π} {t : ℕ} {input : ι}

/-- The step of a thread at rest leads nowhere else, provided that it changes nothing. -/
theorem step_eq_self_of_rests {o : ω}
    (hstays : ∀ s p o s' p', rests s p = some o → exec t s p input = some (s', p') →
      s' = s ∧ p' = p)
    (hrests : rests c.shared (c.threads t) = some o)
    (hstep : Interleaving.step exec env c (.thread t input) = some c') : c' = c := by
  obtain ⟨s', p', hexec, rfl⟩ := step_thread hstep
  obtain ⟨rfl, rfl⟩ := hstays _ _ _ _ _ hrests hexec
  rw [Function.update_eq_self]

/-- However the thread was run to its rest without interruption, the postcondition holds, provided
that a thread at rest changes nothing. -/
theorem Ends.of_run {n : ℕ} {o : ω}
    (h : Ends (fun s p => exec t s p input) rests P Q c.shared (c.threads t))
    (hstays : ∀ s p o s' p', rests s p = some o → exec t s p input = some (s', p') →
      s' = s ∧ p' = p)
    (hrun : run (Interleaving.step exec env) c (List.replicate n (.thread t input)) = some c')
    (hrests : rests c'.shared (c'.threads t) = some o) : P c'.shared o := by
  generalize hs : c.shared = s at h
  generalize hp : c.threads t = p at h
  induction h generalizing c n with
  | rest hrests₀ hpost =>
    subst hs hp
    obtain rfl := run_replicate_of_fixed
      (fun c' hstep => step_eq_self_of_rests hstays hrests₀ hstep) hrun
    obtain rfl := Option.some.inj (hrests₀.symm.trans hrests)
    exact hpost
  | stuck hnone hnext hstuck =>
    subst hs hp
    cases n with
    | zero =>
      cases hrun
      rw [hnone] at hrests
      cases hrests
    | succ n =>
      rw [List.replicate_succ] at hrun
      obtain ⟨mid, hstep, -⟩ := Option.bind_eq_some_iff.mp hrun
      obtain ⟨s', p', hexec, -⟩ := step_thread hstep
      rw [hnext] at hexec
      cases hexec
  | @step s p s' p' hnext hrest ih =>
    subst hs hp
    have hstep : Interleaving.step exec env c (.thread t input) =
        some ⟨s', Function.update c.threads t p'⟩ := step_of_exec hnext
    refine ih (c := ⟨s', Function.update c.threads t p'⟩) (n := n - 1) ?_ rfl
      (Function.update_self ..)
    cases n with
    | zero =>
      cases hrun
      exact congrArg some (step_eq_self_of_rests hstays hrests hstep)
    | succ n =>
      rw [List.replicate_succ, run_cons, hstep] at hrun
      exact hrun

end Solo
