import Mathlib.Data.List.Basic

/-!
# Runs of partial labelled transitions

A system is given by a partial step function: `step s l = some s'` executes the
label `l`, and `none` says that the label is not enabled in `s`. Runs are lists
of labels. Besides plain runs this file treats runs all of whose steps satisfy
a condition on the state in which they start, and runs that carry a history
variable alongside the state.
-/

namespace Transition

variable {σ ι γ : Type*}

/-- Execute a list of labels, failing as soon as one of them is not enabled. -/
def run (step : σ → ι → Option σ) : σ → List ι → Option σ
  | s, [] => some s
  | s, l :: ls => (step s l).bind fun s' => run step s' ls

variable {step : σ → ι → Option σ}

/-- A run of no steps stays where it is. -/
@[simp] theorem run_nil (s : σ) : run step s [] = some s := rfl

/-- A run takes its first step and goes on from there. -/
@[simp] theorem run_cons (s : σ) (l : ι) (ls : List ι) :
    run step s (l :: ls) = (step s l).bind fun s' => run step s' ls := rfl

/-- A run through a concatenation is a run through both parts in turn. -/
theorem run_append (s : σ) (front back : List ι) :
    run step s (front ++ back) = (run step s front).bind fun s' => run step s' back := by
  induction front generalizing s with
  | nil => rfl
  | cons l front ih =>
    rw [List.cons_append, run_cons, run_cons, Option.bind_assoc]
    exact congrArg _ (funext ih)

/-- Consecutive runs compose. -/
theorem run_trans {s s' s'' : σ} {front back : List ι} (hfront : run step s front = some s')
    (hback : run step s' back = some s'') : run step s (front ++ back) = some s'' := by
  rw [run_append, hfront]
  exact hback

/-- One further step extends a run. -/
theorem run_snoc {s s' s'' : σ} {ls : List ι} {l : ι} (hrun : run step s ls = some s')
    (hstep : step s' l = some s'') : run step s (ls ++ [l]) = some s'' :=
  run_trans hrun (by rw [run_cons, hstep]; rfl)

/-- A property that every step preserves holds at the end of every run. -/
theorem run_invariant {I : σ → Prop} (hpres : ∀ s l s', I s → step s l = some s' → I s')
    {s s' : σ} {ls : List ι} (hinit : I s) (hrun : run step s ls = some s') : I s' := by
  induction ls generalizing s with
  | nil =>
    cases hrun
    exact hinit
  | cons l ls ih =>
    obtain ⟨mid, hstep, hrest⟩ := Option.bind_eq_some_iff.mp hrun
    exact ih (hpres s l mid hinit hstep) hrest

/-- Repeating a label that leads nowhere else leaves the state as it is. -/
theorem run_replicate_of_fixed {s s' : σ} {l : ι} {n : ℕ}
    (hfixed : ∀ s', step s l = some s' → s' = s)
    (hrun : run step s (List.replicate n l) = some s') : s' = s := by
  induction n with
  | zero => exact (Option.some.inj hrun).symm
  | succ n ih =>
    rw [List.replicate_succ] at hrun
    obtain ⟨mid, hstep, hrest⟩ := Option.bind_eq_some_iff.mp hrun
    obtain rfl := hfixed mid hstep
    exact ih hrest

/-- A property that comes to hold during a run does so in one of its steps. -/
theorem exists_moment {Q : σ → Prop} {s s' : σ} {ls : List ι} (hstart : ¬ Q s) (hend : Q s')
    (hrun : run step s ls = some s') :
    ∃ front l back mid mid', ls = front ++ l :: back ∧ run step s front = some mid ∧
      step mid l = some mid' ∧ ¬ Q mid ∧ Q mid' := by
  induction ls generalizing s with
  | nil =>
    cases hrun
    exact absurd hend hstart
  | cons l ls ih =>
    obtain ⟨next, hstep, hrest⟩ := Option.bind_eq_some_iff.mp hrun
    by_cases hnext : Q next
    · exact ⟨[], l, ls, s, next, rfl, rfl, hstep, hstart, hnext⟩
    · obtain ⟨front, l', back, mid, mid', rfl, hfront, hmoment⟩ := ih hnext hrest
      refine ⟨l :: front, l', back, mid, mid', rfl, ?_, hmoment⟩
      rw [run_cons, hstep]
      exact hfront

/-- Some step of the run through `ls` satisfies `cond` in the state in which it starts. -/
def Occurs (step : σ → ι → Option σ) (cond : σ → ι → Prop) (s : σ) (ls : List ι) : Prop :=
  ∃ front l back mid, ls = front ++ l :: back ∧ run step s front = some mid ∧ cond mid l

/-- Every step of the run through `ls` satisfies `cond` in the state in which
it starts. Labels after the first one that is not enabled are unconstrained. -/
def Meets (step : σ → ι → Option σ) (cond : σ → ι → Prop) : σ → List ι → Prop
  | _, [] => True
  | s, l :: ls => cond s l ∧ ∀ s', step s l = some s' → Meets step cond s' ls

variable {cond : σ → ι → Prop}

instance decidableMeets [∀ s l, Decidable (cond s l)] :
    ∀ s ls, Decidable (Meets step cond s ls)
  | _, [] => inferInstanceAs (Decidable True)
  | s, l :: ls =>
    match h : step s l with
    | none => decidable_of_iff (cond s l) (by simp [Meets, h])
    | some s' =>
      have := decidableMeets s' ls
      decidable_of_iff (cond s l ∧ Meets step cond s' ls) (by simp [Meets, h])

/-- Conditions along a run, one step at a time. -/
theorem Meets.cons {s s' : σ} {l : ι} {ls : List ι} (hstep : step s l = some s')
    (hcond : cond s l) (hrest : Meets step cond s' ls) : Meets step cond s (l :: ls) := by
  refine ⟨hcond, fun next hnext => ?_⟩
  obtain rfl := Option.some.inj (hstep.symm.trans hnext)
  exact hrest

/-- Both parts of a concatenation satisfy the condition where they run. -/
theorem Meets.of_append {s s' : σ} {front back : List ι}
    (hmeets : Meets step cond s (front ++ back)) (hfront : run step s front = some s') :
    Meets step cond s front ∧ Meets step cond s' back := by
  induction front generalizing s with
  | nil =>
    cases hfront
    exact ⟨trivial, hmeets⟩
  | cons l front ih =>
    obtain ⟨mid, hstep, hrest⟩ := Option.bind_eq_some_iff.mp hfront
    obtain ⟨hhead, htail⟩ := hmeets
    obtain ⟨hfirst, hback⟩ := ih (htail mid hstep) hrest
    exact ⟨.cons hstep hhead hfirst, hback⟩

/-- The condition can be checked on the parts of a concatenation. -/
theorem Meets.append {s : σ} {front back : List ι} (hfront : Meets step cond s front)
    (hback : ∀ s', run step s front = some s' → Meets step cond s' back) :
    Meets step cond s (front ++ back) := by
  induction front generalizing s with
  | nil => exact hback s rfl
  | cons l front ih =>
    refine ⟨hfront.1, fun mid hstep => ih (hfront.2 mid hstep) fun s' hrun => hback s' ?_⟩
    rw [run_cons, hstep]
    exact hrun

/-- Labels that satisfy the condition in every state. -/
theorem Meets.of_always {s : σ} {ls : List ι} (halways : ∀ l ∈ ls, ∀ s, cond s l) :
    Meets step cond s ls := by
  induction ls generalizing s with
  | nil => trivial
  | cons l ls ih =>
    refine ⟨halways l List.mem_cons_self s, fun _ _ => ?_⟩
    exact ih fun l' hl' => halways l' (List.mem_cons_of_mem l hl')

/-- A condition on the labels alone can be checked on the list. -/
theorem Meets.of_forall {P : ι → Prop} {s : σ} {ls : List ι} (hlabels : ∀ l ∈ ls, P l) :
    Meets step (fun _ l => P l) s ls :=
  .of_always fun l hl _ => hlabels l hl

/-- A weaker condition is satisfied as well. -/
theorem Meets.imp {cond' : σ → ι → Prop} {s : σ} {ls : List ι}
    (himp : ∀ s l, cond s l → cond' s l) (hmeets : Meets step cond s ls) :
    Meets step cond' s ls := by
  induction ls generalizing s with
  | nil => trivial
  | cons l ls ih =>
    obtain ⟨hhead, htail⟩ := hmeets
    exact ⟨himp s l hhead, fun s' hstep => ih (htail s' hstep)⟩

/-- Two conditions can be met together. -/
theorem Meets.and {cond' : σ → ι → Prop} {s : σ} {ls : List ι} (hmeets : Meets step cond s ls)
    (hmeets' : Meets step cond' s ls) : Meets step (fun s l => cond s l ∧ cond' s l) s ls := by
  induction ls generalizing s with
  | nil => trivial
  | cons l ls ih =>
    exact ⟨⟨hmeets.1, hmeets'.1⟩, fun s' hstep => ih (hmeets.2 s' hstep) (hmeets'.2 s' hstep)⟩

/-- A property preserved by every step that satisfies the condition holds at
the end of every run whose steps all satisfy it. -/
theorem run_invariant_of_meets {I : σ → Prop}
    (hpres : ∀ s l s', I s → cond s l → step s l = some s' → I s')
    {s s' : σ} {ls : List ι} (hinit : I s) (hmeets : Meets step cond s ls)
    (hrun : run step s ls = some s') : I s' := by
  induction ls generalizing s with
  | nil =>
    cases hrun
    exact hinit
  | cons l ls ih =>
    obtain ⟨mid, hstep, hrest⟩ := Option.bind_eq_some_iff.mp hrun
    exact ih (hpres s l mid hinit hmeets.1 hstep) (hmeets.2 mid hstep) hrest

/-- A property preserved by every step whose label satisfies `P`. -/
theorem run_invariant_of_labels {I : σ → Prop} {P : ι → Prop}
    (hpres : ∀ s l s', I s → P l → step s l = some s' → I s')
    {s s' : σ} {ls : List ι} (hinit : I s) (hlabels : ∀ l ∈ ls, P l)
    (hrun : run step s ls = some s') : I s' :=
  run_invariant_of_meets hpres hinit (.of_forall hlabels) hrun

/-- Carry a history variable: `observe s l s' h` is its value after the step
from `s` to `s'`, and the step itself does not depend on it. -/
def track (step : σ → ι → Option σ) (observe : σ → ι → σ → γ → γ) : σ × γ → ι → Option (σ × γ) :=
  fun c l => (step c.1 l).map fun s' => (s', observe c.1 l s' c.2)

variable {observe : σ → ι → σ → γ → γ}

/-- A tracked step is a step of the underlying system together with the
observation of it. -/
theorem track_eq_some {c c' : σ × γ} {l : ι} :
    track step observe c l = some c' ↔
      step c.1 l = some c'.1 ∧ c'.2 = observe c.1 l c'.1 c.2 := by
  obtain ⟨s', h'⟩ := c'
  simp only [track, Option.map_eq_some_iff, Prod.mk.injEq]
  constructor
  · rintro ⟨s, hstep, rfl, rfl⟩
    exact ⟨hstep, rfl⟩
  · rintro ⟨hstep, rfl⟩
    exact ⟨s', hstep, rfl, rfl⟩

/-- Every run can be tracked. -/
theorem exists_track {s s' : σ} {ls : List ι} (h : γ) (hrun : run step s ls = some s') :
    ∃ h', run (track step observe) (s, h) ls = some (s', h') := by
  induction ls generalizing s h with
  | nil =>
    cases hrun
    exact ⟨h, rfl⟩
  | cons l ls ih =>
    obtain ⟨mid, hstep, hrest⟩ := Option.bind_eq_some_iff.mp hrun
    obtain ⟨h', hh'⟩ := ih (observe s l mid h) hrest
    refine ⟨h', ?_⟩
    rw [run_cons, track, hstep]
    exact hh'

/-- Forgetting the history of a tracked run leaves a run. -/
theorem run_of_track {c c' : σ × γ} {ls : List ι} (hrun : run (track step observe) c ls = some c') :
    run step c.1 ls = some c'.1 := by
  induction ls generalizing c with
  | nil =>
    cases hrun
    rfl
  | cons l ls ih =>
    obtain ⟨mid, hstep, hrest⟩ := Option.bind_eq_some_iff.mp hrun
    rw [run_cons, (track_eq_some.mp hstep).1]
    exact ih hrest

end Transition
