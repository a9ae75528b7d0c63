import Mathlib.Data.List.GetD

/-!
# Promises and futures

A promise and its future share a core. The core is pending until the promise is
given a value, and it is broken when the promise goes away, or is assigned over,
while the core is still pending. Cores live in a store and are named by their
index; they are never reused.
-/

namespace Promise

variable {α : Type*}

/-- The state shared by a promise and its future. -/
inductive Core (α : Type*) where
  /-- Neither fulfilled nor abandoned. -/
  | pending
  /-- Fulfilled with a value. -/
  | value (a : α)
  /-- Abandoned by its promise. -/
  | broken
  deriving DecidableEq

/-- All cores made so far. -/
structure Store (α : Type*) where
  /-- The cores in the order of their creation. -/
  cores : List (Core α)

namespace Store

/-- No core at all. -/
def empty : Store α := ⟨[]⟩

/-- The state of a core. -/
def get (s : Store α) (r : ℕ) : Core α := s.cores.getD r .broken

/-- Make a fresh pending core. -/
def new (s : Store α) : Store α × ℕ := (⟨s.cores ++ [.pending]⟩, s.cores.length)

/-- Fulfil a promise; a second fulfilment throws, which is `none`. -/
def setValue (s : Store α) (r : ℕ) (a : α) : Option (Store α) :=
  match s.get r with
  | .pending => some ⟨s.cores.set r (.value a)⟩
  | _ => none

/-- The promise of a core is destroyed or assigned over. -/
def detach (s : Store α) (r : ℕ) : Store α :=
  match s.get r with
  | .pending => ⟨s.cores.set r .broken⟩
  | _ => s

/-- A core that is not broken is one of the store. -/
theorem lt_length_of_ne_broken {s : Store α} {r : ℕ} (hcore : s.get r ≠ .broken) :
    r < s.cores.length := by
  apply Nat.lt_of_not_ge
  intro hle
  exact hcore (List.getD_eq_default _ _ hle)

private theorem lt_length_of_pending {s : Store α} {r : ℕ} (hpending : s.get r = .pending) :
    r < s.cores.length :=
  lt_length_of_ne_broken (by simp [hpending])

private theorem get_set (s : Store α) {r : ℕ} (hr : r < s.cores.length) (core : Core α) (q : ℕ) :
    Store.get ⟨s.cores.set r core⟩ q = if q = r then core else s.get q := by
  simp only [get, List.getD_eq_getElem?_getD, List.getElem?_set]
  by_cases hqr : q = r
  · subst hqr
    simp [hr]
  · simp [hqr, Ne.symm hqr]

/-- Fulfilment needs a pending core and changes that core only. -/
theorem setValue_eq_some {s s' : Store α} {r : ℕ} {a : α} (hset : s.setValue r a = some s') :
    s.get r = .pending ∧ ∀ q, s'.get q = if q = r then .value a else s.get q := by
  unfold setValue at hset
  cases hcore : s.get r with
  | pending =>
    simp only [hcore, Option.some.injEq] at hset
    subst hset
    exact ⟨rfl, get_set s (lt_length_of_pending hcore) _⟩
  | value b => simp [hcore] at hset
  | broken => simp [hcore] at hset

/-- Detaching a promise leaves all other cores alone. -/
theorem get_detach_of_ne (s : Store α) {r q : ℕ} (hqr : q ≠ r) : (s.detach r).get q = s.get q := by
  unfold detach
  cases hcore : s.get r with
  | pending => rw [get_set s (lt_length_of_pending hcore), if_neg hqr]
  | value b => rfl
  | broken => rfl

/-- Detaching an unfulfilled promise breaks its future. -/
theorem get_detach_of_pending {s : Store α} {r : ℕ} (hpending : s.get r = .pending) :
    (s.detach r).get r = .broken := by
  unfold detach
  rw [hpending]
  exact (get_set s (lt_length_of_pending hpending) _ r).trans (if_pos rfl)

/-- Detaching a fulfilled promise leaves its value to the future. -/
theorem get_detach_of_value {s : Store α} {r : ℕ} {a : α} (hvalue : s.get r = .value a) :
    (s.detach r).get r = .value a := by
  unfold detach
  rw [hvalue]
  exact hvalue

/-- A fresh core is pending, and the cores made before keep their state. -/
theorem get_new (s : Store α) (q : ℕ) :
    s.new.1.get q = if q = s.new.2 then .pending else s.get q := by
  simp only [new, get, List.getD_eq_getElem?_getD]
  rcases Nat.lt_trichotomy q s.cores.length with hlt | heq | hgt
  · rw [List.getElem?_append_left hlt]
    simp [Nat.ne_of_lt hlt]
  · subst heq
    simp
  · rw [List.getElem?_append_right (Nat.le_of_lt hgt)]
    have hone : q - s.cores.length ≠ 0 := by omega
    simp [Nat.ne_of_gt hgt, hone, List.getElem?_eq_none (Nat.le_of_lt hgt)]

/-- A fresh core is none of the cores made before. -/
theorem ne_new_of_ne_broken {s : Store α} {r : ℕ} (hcore : s.get r ≠ .broken) : r ≠ s.new.2 :=
  Nat.ne_of_lt (lt_length_of_ne_broken hcore)

end Store

end Promise
