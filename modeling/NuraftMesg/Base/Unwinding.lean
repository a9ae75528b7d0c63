import NuraftMesg.Base.Transition

/-!
# Leaving out the steps of others

A run is purged by leaving out every step that belongs to somebody else, judged in
the state in which the step is taken. The unwinding rule compares the two runs: if a
step of others does not show and a step that stays does the same to states that look
alike, then the purged run exists and its end looks like the end of the full run.
-/

namespace Transition

variable {σ ι : Type*} {step : σ → ι → Option σ}

/-- The labels of a run that remain when the steps of others are left out. -/
def purge (step : σ → ι → Option σ) (other : σ → ι → Prop) [∀ s l, Decidable (other s l)] :
    σ → List ι → List ι
  | _, [] => []
  | s, l :: ls =>
    let rest := ((step s l).map fun s' => purge step other s' ls).getD []
    if other s l then rest else l :: rest

variable {other : σ → ι → Prop} [∀ s l, Decidable (other s l)]

theorem purge_cons {s s' : σ} {l : ι} {ls : List ι} (hstep : step s l = some s') :
    purge step other s (l :: ls) =
      if other s l then purge step other s' ls else l :: purge step other s' ls := by
  simp only [purge, hstep, Option.map_some, Option.getD_some]

/-- The unwinding rule. `Alike s t` relates the states of the full run to those of the
purged one. -/
theorem run_purge {Alike : σ → σ → Prop}
    (hhidden : ∀ s t l s', Alike s t → other s l → step s l = some s' → Alike s' t)
    (hshown : ∀ s t l s', Alike s t → ¬ other s l → step s l = some s' →
      ∃ t', step t l = some t' ∧ Alike s' t')
    {s s' t : σ} {ls : List ι} (halike : Alike s t) (hrun : run step s ls = some s') :
    ∃ t', run step t (purge step other s ls) = some t' ∧ Alike s' t' := by
  induction ls generalizing s t with
  | nil =>
    cases hrun
    exact ⟨t, rfl, halike⟩
  | cons l ls ih =>
    obtain ⟨mid, hstep, hrest⟩ := Option.bind_eq_some_iff.mp hrun
    rw [purge_cons hstep]
    by_cases hl : other s l
    · rw [if_pos hl]
      exact ih (hhidden s t l mid halike hl hstep) hrest
    · rw [if_neg hl]
      obtain ⟨mid', hstep', halike'⟩ := hshown s t l mid halike hl hstep
      obtain ⟨t', hrun', hend⟩ := ih halike' hrest
      refine ⟨t', ?_, hend⟩
      rw [run_cons, hstep']
      exact hrun'

end Transition
