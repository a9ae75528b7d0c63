import Mathlib.Data.List.Basic

/-!
# Objects named by their place in a list

A heap of objects is a list: a new object goes to the end, an update leaves all
objects in their places, and an index names the same object for ever. This file
says what is found at an index after each of the two operations.
-/

namespace Cells

variable {α : Type*} {xs : List α} {a b : α} {i j : ℕ}

theorem lt_of_getElem? (hfound : xs[i]? = some a) : i < xs.length :=
  (List.getElem?_eq_some_iff.mp hfound).1

/-- A new object leaves the others where they are. -/
theorem getElem?_alloc (hfound : xs[i]? = some a) : (xs ++ [b])[i]? = some a := by
  rw [List.getElem?_append_left (lt_of_getElem? hfound), hfound]

/-- What is found is an object from before or the new one. -/
theorem getElem?_alloc_cases (hfound : (xs ++ [b])[i]? = some a) :
    xs[i]? = some a ∨ i = xs.length ∧ a = b := by
  have hlt := lt_of_getElem? hfound
  rw [List.length_append, List.length_singleton] at hlt
  by_cases hold : i < xs.length
  · rw [List.getElem?_append_left hold] at hfound
    exact Or.inl hfound
  · obtain rfl : i = xs.length := by omega
    rw [List.getElem?_concat_length] at hfound
    exact Or.inr ⟨rfl, (Option.some.inj hfound).symm⟩

/-- After an update every object is in its place, changed or not. -/
theorem getElem?_update {f : α → α} (hfound : xs[j]? = some a) :
    (xs.modify i f)[j]? = some (if j = i then f a else a) := by
  by_cases hj : i = j
  · subst hj
    rw [List.getElem?_modify_eq, hfound, if_pos rfl]
    rfl
  · rw [List.getElem?_modify_ne _ _ hj, hfound, if_neg (Ne.symm hj)]

/-- What is found after an update was there before it. -/
theorem getElem?_update_cases {f : α → α} (hfound : (xs.modify i f)[j]? = some b) :
    ∃ a, xs[j]? = some a ∧ b = if j = i then f a else a := by
  have hlt := lt_of_getElem? hfound
  rw [List.length_modify] at hlt
  obtain ⟨a, ha⟩ : ∃ a, xs[j]? = some a := ⟨_, List.getElem?_eq_getElem hlt⟩
  exact ⟨a, ha, Option.some.inj (hfound.symm.trans (getElem?_update ha))⟩

/-- The object that was allocated last is updated. -/
theorem update_alloc (xs : List α) (a : α) (f : α → α) :
    (xs ++ [a]).modify xs.length f = xs ++ [f a] := by
  induction xs with
  | nil => rfl
  | cons b xs ih =>
    rw [List.cons_append, List.length_cons, List.modify_succ_cons, ih]
    rfl

/-! ## Lists that look the same -/

section Images

variable {β : Type*} {ys : List α} {g : α → β}

/-- If two lists have the same images, so do the objects at one index. -/
theorem rel_getElem? (himages : xs.map g = ys.map g) (i : ℕ) :
    Option.Rel (fun a b => g a = g b) xs[i]? ys[i]? := by
  have hi : xs[i]?.map g = ys[i]?.map g := by
    rw [← List.getElem?_map, himages, List.getElem?_map]
  cases hx : xs[i]? with
  | none =>
    rw [hx] at hi
    rw [Option.map_eq_none_iff.mp hi.symm]
    exact .none
  | some a =>
    rw [hx] at hi
    obtain ⟨b, hb, hab⟩ := Option.map_eq_some_iff.mp hi.symm
    rw [hb]
    exact .some hab.symm

/-- The images stay the same under an update that does not look at more. -/
theorem map_update {f : α → α} (himages : xs.map g = ys.map g)
    (hf : ∀ a b, g a = g b → g (f a) = g (f b)) (i : ℕ) :
    (xs.modify i f).map g = (ys.modify i f).map g := by
  apply List.ext_getElem?
  intro j
  have hj := rel_getElem? himages j
  rw [List.getElem?_map, List.getElem?_map, List.getElem?_modify, List.getElem?_modify]
  generalize xs[j]? = x, ys[j]? = y at hj
  cases hj with
  | none => rfl
  | some hab =>
    by_cases hij : i = j
    · simpa [hij] using hf _ _ hab
    · simpa [hij] using hab

end Images

end Cells
