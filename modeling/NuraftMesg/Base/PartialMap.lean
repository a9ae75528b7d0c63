import Mathlib.Logic.Function.Basic

/-!
# Associative containers as partial functions

A map that is only ever searched, written and erased by key is a partial
function. The operations are those of the standard containers: `emplace` keeps
the value that is already there, `assign` overwrites it.
-/

/-- A map from keys to values; `none` says that the key is absent. -/
abbrev PartialMap (K V : Type*) := K → Option V

namespace PartialMap

variable {K V : Type*} [DecidableEq K]

/-- Overwrite the value at a key. -/
def assign (m : PartialMap K V) (k : K) (v : V) : PartialMap K V := Function.update m k (some v)

/-- Insert a value unless the key is present. -/
def emplace (m : PartialMap K V) (k : K) (v : V) : PartialMap K V :=
  if (m k).isSome then m else m.assign k v

/-- Remove a key. -/
def erase (m : PartialMap K V) (k : K) : PartialMap K V := Function.update m k none

variable {m : PartialMap K V} {k k' : K} {v : V}

/-- The key that is assigned to. -/
@[simp] theorem assign_self : m.assign k v k = some v := Function.update_self ..

/-- The other keys keep their values. -/
@[simp] theorem assign_of_ne (h : k' ≠ k) : m.assign k v k' = m k' := Function.update_of_ne h ..

/-- The key that is erased. -/
@[simp] theorem erase_self : m.erase k k = none := Function.update_self ..

/-- The other keys keep their values. -/
@[simp] theorem erase_of_ne (h : k' ≠ k) : m.erase k k' = m k' := Function.update_of_ne h ..

/-- The key has its old value, or the new one if it had none. -/
@[simp] theorem emplace_self : m.emplace k v k = some ((m k).getD v) := by
  unfold emplace
  cases h : m k <;> simp [h]

/-- The other keys keep their values. -/
@[simp] theorem emplace_of_ne (h : k' ≠ k) : m.emplace k v k' = m k' := by
  unfold emplace
  split
  · rfl
  · exact assign_of_ne h

/-- Emplacing never changes what is already there. -/
theorem emplace_eq_some_of_eq_some {w : V} (h : m k' = some w) : m.emplace k v k' = some w := by
  by_cases hk : k' = k
  · subst hk
    rw [emplace_self, h]
    rfl
  · rw [emplace_of_ne hk, h]

/-- What is present after emplacing was present before or is the new value. -/
theorem eq_some_of_emplace_eq_some {w : V} (h : m.emplace k v k' = some w) :
    m k' = some w ∨ k' = k ∧ m k = none ∧ w = v := by
  by_cases hk : k' = k
  · subst hk
    rw [emplace_self] at h
    cases hold : m k' with
    | none =>
      rw [hold] at h
      exact Or.inr ⟨rfl, rfl, (Option.some.inj h).symm⟩
    | some old =>
      rw [hold] at h
      exact Or.inl h
  · exact Or.inl (by rwa [emplace_of_ne hk] at h)

/-- What is present after erasing was present before. -/
theorem eq_some_of_erase_eq_some {w : V} (h : m.erase k k' = some w) : k' ≠ k ∧ m k' = some w := by
  by_cases hk : k' = k
  · subst hk
    rw [erase_self] at h
    cases h
  · exact ⟨hk, by rwa [erase_of_ne hk] at h⟩

/-- Erasing brings nothing. -/
theorem erase_eq_none_of_eq_none (h : m k' = none) : m.erase k k' = none := by
  by_cases hk : k' = k
  · subst hk
    exact erase_self
  · rw [erase_of_ne hk, h]

/-- Erasing a key takes away what was emplaced there and what was there before. -/
theorem erase_emplace : (m.emplace k v).erase k = m.erase k := by
  unfold emplace
  split
  · rfl
  · exact Function.update_idem ..

end PartialMap
