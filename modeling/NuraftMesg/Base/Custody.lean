import NuraftMesg.Base.PartialMap

/-!
# Objects that are handed on

Objects lie at places, at most one at each. A step puts a new object somewhere, hands
an object on from one place to another, or lets it go; nothing is ever copied. As long
as the new objects are really new, an object lies at one place only.
-/

namespace Custody

variable {P O : Type*} [DecidableEq P]

/-- An object lies at one place only. -/
def Sole (holds : PartialMap P O) : Prop :=
  ∀ p q o, holds p = some o → holds q = some o → p = q

/-- What a step can do to the places, if it brings in the objects of `new`. -/
inductive Passes (holds : PartialMap P O) (new : Option O) : PartialMap P O → Prop
  | keep : Passes holds new holds
  | drop (p : P) : Passes holds new (holds.erase p)
  | put (p : P) (o : O) (hnew : new = some o) : Passes holds new (holds.assign p o)
  | move (p q : P) (o : O) (hheld : holds p = some o) :
      Passes holds new ((holds.erase p).assign q o)

variable {holds holds' : PartialMap P O} {new : Option O} {seen : List O}

/-- The object at a place was at a place before, or is new. -/
theorem Passes.held (hpass : Passes holds new holds') {p : P} {o : O} (hp : holds' p = some o) :
    (∃ q, holds q = some o) ∨ new = some o := by
  cases hpass with
  | keep => exact Or.inl ⟨p, hp⟩
  | drop q => exact Or.inl ⟨p, (PartialMap.eq_some_of_erase_eq_some hp).2⟩
  | put q o' hnew =>
    by_cases heq : p = q
    · subst heq
      rw [PartialMap.assign_self] at hp
      exact Or.inr (hnew.trans hp)
    · exact Or.inl ⟨p, by rwa [PartialMap.assign_of_ne heq] at hp⟩
  | move q q' o' hheld =>
    by_cases heq : p = q'
    · subst heq
      rw [PartialMap.assign_self] at hp
      exact Or.inl ⟨q, hheld.trans hp⟩
    · rw [PartialMap.assign_of_ne heq] at hp
      exact Or.inl ⟨p, (PartialMap.eq_some_of_erase_eq_some hp).2⟩

/-- Every object that lies somewhere was seen. -/
theorem Passes.mem_seen (hpass : Passes holds new holds')
    (hseen : ∀ p o, holds p = some o → o ∈ seen) {p : P} {o : O} (hp : holds' p = some o) :
    o ∈ seen ++ new.toList := by
  rcases hpass.held hp with ⟨q, hq⟩ | hnew
  · exact List.mem_append_left _ (hseen q o hq)
  · exact List.mem_append_right _ (by simp [hnew])

/-- A place that got an object no other place has. -/
theorem Sole.assign {p : P} {o : O} (hsole : Sole holds) (hfree : ∀ q, q ≠ p → holds q ≠ some o) :
    Sole (holds.assign p o) := by
  have hother : ∀ q, q ≠ p → holds.assign p o q ≠ some o := by
    intro q hq
    rw [PartialMap.assign_of_ne hq]
    exact hfree q hq
  intro q q' o' hq hq'
  by_cases heq : q = p
  · subst heq
    obtain rfl : o = o' := Option.some.inj (PartialMap.assign_self.symm.trans hq)
    by_contra hne
    exact hother q' (Ne.symm hne) hq'
  · by_cases heq' : q' = p
    · subst heq'
      obtain rfl : o = o' := Option.some.inj (PartialMap.assign_self.symm.trans hq')
      exact absurd hq (hother q heq)
    · rw [PartialMap.assign_of_ne heq] at hq
      rw [PartialMap.assign_of_ne heq'] at hq'
      exact hsole q q' o' hq hq'

theorem Sole.erase (hsole : Sole holds) (p : P) : Sole (holds.erase p) :=
  fun q q' o hq hq' => hsole q q' o (PartialMap.eq_some_of_erase_eq_some hq).2
    (PartialMap.eq_some_of_erase_eq_some hq').2

/-- Handing objects on keeps them sole if new objects were not seen before. -/
theorem Passes.sole (hpass : Passes holds new holds') (hsole : Sole holds)
    (hseen : ∀ p o, holds p = some o → o ∈ seen) (hfresh : ∀ o, new = some o → o ∉ seen) :
    Sole holds' := by
  cases hpass with
  | keep => exact hsole
  | drop p => exact hsole.erase p
  | put p o hnew => exact hsole.assign fun q _ hq => hfresh o hnew (hseen q o hq)
  | move p q o hheld =>
    refine (hsole.erase p).assign fun q' _ hq' => ?_
    obtain ⟨hne, hq'⟩ := PartialMap.eq_some_of_erase_eq_some hq'
    exact hne (hsole q' p o hq' hheld)

end Custody
