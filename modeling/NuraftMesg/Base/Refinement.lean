import NuraftMesg.Base.Transition

/-!
# Refinement by projection

A detailed system refines a plain one if every step of it, looked at through a
projection of the states, is a run of the plain system. A step that the plain system
does not know is a run without labels. Whatever holds after all runs of the plain
system then holds of the projection after all runs of the detailed one.
-/

namespace Refinement

open Transition

variable {σ τ ι κ : Type*}

/-- Every detailed step is, under the projection, a run of the plain system. -/
def Projects (fine : σ → ι → Option σ) (plain : τ → κ → Option τ) (view : σ → τ) : Prop :=
  ∀ s l s', fine s l = some s' → ∃ ks, run plain (view s) ks = some (view s')

variable {fine : σ → ι → Option σ} {plain : τ → κ → Option τ} {view : σ → τ}

/-- A detailed run is, under the projection, a run of the plain system. -/
theorem Projects.run (hproj : Projects fine plain view) {s s' : σ} {ls : List ι}
    (hrun : run fine s ls = some s') : ∃ ks, run plain (view s) ks = some (view s') := by
  induction ls generalizing s with
  | nil =>
    cases hrun
    exact ⟨[], rfl⟩
  | cons l ls ih =>
    obtain ⟨mid, hstep, hrest⟩ := Option.bind_eq_some_iff.mp hrun
    obtain ⟨front, hfront⟩ := hproj s l mid hstep
    obtain ⟨back, hback⟩ := ih hrest
    exact ⟨front ++ back, run_trans hfront hback⟩

/-- A step that the plain system does not see. -/
theorem exists_run_of_eq {t t' : τ} (heq : t' = t) : ∃ ks, run plain t ks = some t' :=
  ⟨[], congrArg some heq.symm⟩

/-- A step that is one step of the plain system. -/
theorem exists_run_of_step {t t' : τ} {k : κ} (hstep : plain t k = some t') :
    ∃ ks, run plain t ks = some t' := by
  refine ⟨[k], ?_⟩
  rw [run_cons, hstep]
  rfl

end Refinement
