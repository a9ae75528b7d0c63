import NuraftMesg.Base.Transition
import Mathlib.Data.List.Forall2

/-!
# Runs that cannot be told apart

Two states of a partial transition system that are related step by step allow the
same runs: a label is enabled in both or in neither. `Option.Rel` says this of the
results of one step, and of the results of a whole run.
-/

namespace Simulation

variable {α α' β β' σ ι : Type*} {R : α → α' → Prop} {S : β → β' → Prop}

/-- An option is related to itself by equality. -/
theorem rel_refl (x : Option α) : Option.Rel (· = ·) x x := by
  cases x with
  | none => exact .none
  | some a => exact .some rfl

/-- Related options compose if the relation does. -/
theorem rel_trans {T : α → α → Prop} (htrans : ∀ a b c, T a b → T b c → T a c) {x y z : Option α}
    (hxy : Option.Rel T x y) (hyz : Option.Rel T y z) : Option.Rel T x z := by
  cases hxy with
  | none => exact hyz
  | some hab =>
    obtain ⟨hbc⟩ | _ := hyz
    exact .some (htrans _ _ _ hab hbc)

/-- Related values, given to functions that keep the relation. -/
theorem rel_bind {x : Option α} {y : Option α'} {f : α → Option β} {g : α' → Option β'}
    (hrel : Option.Rel R x y) (hnext : ∀ a b, R a b → Option.Rel S (f a) (g b)) :
    Option.Rel S (x.bind f) (y.bind g) := by
  cases hrel with
  | none => exact .none
  | some hab => exact hnext _ _ hab

/-- Related options stay related under related functions. -/
theorem rel_map {x : Option α} {y : Option α'} {f : α → β} {g : α' → β'}
    (hrel : Option.Rel R x y) (hnext : ∀ a b, R a b → S (f a) (g b)) :
    Option.Rel S (x.map f) (y.map g) := by
  cases hrel with
  | none => exact .none
  | some hab => exact .some (hnext _ _ hab)

/-- If one of two related values is there, so is the other. -/
theorem exists_of_rel {x : Option α} {y : Option α'} {a : α} (hrel : Option.Rel R x y)
    (hx : x = some a) : ∃ b, y = some b ∧ R a b := by
  subst hx
  obtain ⟨hab⟩ | _ := hrel
  exact ⟨_, rfl, hab⟩

/-- A partial function on the elements of a list does not depend on their order. -/
theorem rel_mapM_perm {f : α → Option β} {xs ys : List α} (hperm : xs.Perm ys) :
    Option.Rel List.Perm (xs.mapM f) (ys.mapM f) := by
  induction hperm with
  | nil => exact .some .rfl
  | cons x hperm ih =>
    rw [List.mapM_cons, List.mapM_cons]
    refine rel_bind (rel_refl (f x)) fun b b' hb => ?_
    subst hb
    exact rel_bind ih fun bs bs' hbs => .some (hbs.cons b)
  | swap x y xs =>
    simp only [List.mapM_cons]
    cases f x with
    | none => cases f y <;> exact .none
    | some b =>
      cases f y with
      | none => exact .none
      | some c =>
        cases xs.mapM f with
        | none => exact .none
        | some bs => exact .some (.swap b c bs)
  | trans hxy hyz ih ih' => exact rel_trans (fun _ _ _ hab hbc => hab.trans hbc) ih ih'

variable {step : σ → ι → Option σ} {R : σ → σ → Prop}

/-- What is related before a run is related after it, or the run is possible on neither
side. -/
theorem run_rel (hstep : ∀ s s' l, R s s' → Option.Rel R (step s l) (step s' l)) {s s' : σ}
    (hrel : R s s') (ls : List ι) :
    Option.Rel R (Transition.run step s ls) (Transition.run step s' ls) := by
  induction ls generalizing s s' with
  | nil => exact .some hrel
  | cons l ls ih => exact rel_bind (hstep s s' l hrel) fun _ _ hmid => ih hmid

end Simulation
