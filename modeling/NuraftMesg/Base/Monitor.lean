import Mathlib.Logic.Function.Basic
import Mathlib.Data.Nat.Notation

/-!
# A lock with a condition variable

Waiters test a predicate under a lock. A waiter that finds it false gives up the lock
and blocks until somebody notifies, until its time is over or for no reason at all; then
it takes the lock and tests again. After a timeout the test is the last one. A
notification reaches those who are blocked when it is sent and nobody else, and sending
it does not take the lock: between the test of a waiter and its blocking a notification
is lost. What saves a waiter is that the lock is not free in between.
-/

namespace Monitor

variable {ω : Type*}

/-- Where a waiter is. -/
inductive Phase where
  /-- Before its first test or after its last. -/
  | outside
  /-- It has tested in vain and still holds the lock. -/
  | tested
  /-- It is blocked, without the lock. -/
  | parked
  /-- It goes for the lock, to test again or, with its time over, for the last time. -/
  | woken (expired : Bool)
  deriving DecidableEq

/-- The lock and the condition variable. -/
structure Cond (ω : Type*) where
  phase : ω → Phase
  /-- The waiter that holds the lock between its test and its blocking. -/
  holder : Option ω
  /-- Notifications that are still to be sent. -/
  pending : ℕ

namespace Cond

/-- Nobody waits. -/
def idle : Cond ω := ⟨fun _ => .outside, none, 0⟩

/-- The next test of the waiter is the last one. -/
def expired (c : Cond ω) (w : ω) : Bool := c.phase w = .woken true

/-- The waiter can go for the lock. -/
def ready (c : Cond ω) (w : ω) : Bool :=
  match c.phase w with
  | .outside | .woken _ => true
  | .tested | .parked => false

/-- Somebody is going to notify `n` times. -/
def announce (c : Cond ω) (n : ℕ) : Cond ω := { c with pending := c.pending + n }

/-- One notification is sent to all who are blocked. -/
def notifyAll (c : Cond ω) : Option (Cond ω) :=
  if c.pending = 0 then none
  else some { c with
    phase := fun w => if c.phase w = .parked then .woken false else c.phase w
    pending := c.pending - 1 }

variable {c c' : Cond ω} {w : ω}

/-- The rule of `notify_all`: every parked waiter is woken, and one notification is spent. -/
theorem notifyAll_eq_some (hnotify : c.notifyAll = some c') :
    0 < c.pending ∧ c' = { c with
      phase := fun w => if c.phase w = .parked then .woken false else c.phase w
      pending := c.pending - 1 } := by
  unfold notifyAll at hnotify
  split at hnotify
  · cases hnotify
  · next hpending =>
    cases hnotify
    exact ⟨Nat.pos_of_ne_zero hpending, rfl⟩

/-- A notification that is on its way rouses everybody who is blocked. -/
theorem exists_notifyAll (hpending : 0 < c.pending) :
    ∃ c', c.notifyAll = some c' ∧ c'.holder = c.holder ∧
      ∀ w, c.phase w = .parked → c'.phase w = .woken false := by
  refine ⟨_, if_neg (Nat.pos_iff_ne_zero.mp hpending), rfl, fun w hparked => ?_⟩
  exact if_pos hparked

variable [DecidableEq ω]

/-- A waiter takes the lock and tests; it leaves, or keeps the lock to block. -/
def test (c : Cond ω) (w : ω) (holds : Bool) : Option (Cond ω) :=
  if c.holder = none ∧ c.ready w then
    if holds || c.expired w then some { c with phase := Function.update c.phase w .outside }
    else some { c with phase := Function.update c.phase w .tested, holder := some w }
  else none

/-- The waiter gives up the lock and blocks. -/
def park (c : Cond ω) (w : ω) : Option (Cond ω) :=
  if c.phase w = .tested then
    some { c with phase := Function.update c.phase w .parked, holder := none }
  else none

/-- A blocked waiter goes on, because its time is over or for no reason. -/
def rouse (c : Cond ω) (w : ω) (expired : Bool) : Option (Cond ω) :=
  if c.phase w = .parked then
    some { c with phase := Function.update c.phase w (.woken expired) }
  else none

/-- What a test requires and does. -/
theorem test_eq_some {holds : Bool} (htest : c.test w holds = some c') :
    c.holder = none ∧ c.ready w ∧
      ((holds ∨ c.expired w) ∧ c' = { c with phase := Function.update c.phase w .outside } ∨
        holds = false ∧ c.expired w = false ∧
          c' = { c with phase := Function.update c.phase w .tested, holder := some w }) := by
  unfold test at htest
  split at htest
  · next hready =>
    refine ⟨hready.1, hready.2, ?_⟩
    split at htest
    · next hleaves =>
      cases htest
      exact Or.inl ⟨by simpa using hleaves, rfl⟩
    · next hstays =>
      cases htest
      simp only [Bool.or_eq_true, not_or, Bool.not_eq_true] at hstays
      exact Or.inr ⟨hstays.1, hstays.2, rfl⟩
  · cases htest

/-- The rule of going to sleep: who tested in vain parks and gives the lock back. -/
theorem park_eq_some (hpark : c.park w = some c') :
    c.phase w = .tested ∧
      c' = { c with phase := Function.update c.phase w .parked, holder := none } := by
  unfold park at hpark
  split at hpark
  · next htested =>
    cases hpark
    exact ⟨htested, rfl⟩
  · cases hpark

/-- The rule of waking up by timeout or for no reason. -/
theorem rouse_eq_some {expired : Bool} (hrouse : c.rouse w expired = some c') :
    c.phase w = .parked ∧
      c' = { c with phase := Function.update c.phase w (.woken expired) } := by
  unfold rouse at hrouse
  split at hrouse
  · next hparked =>
    cases hrouse
    exact ⟨hparked, rfl⟩
  · cases hrouse

/-- Whoever holds the lock can block. -/
theorem park_of_tested (htested : c.phase w = .tested) :
    c.park w = some { c with phase := Function.update c.phase w .parked, holder := none } :=
  if_pos htested

/-- A waiter that was roused passes as soon as the lock is free. -/
theorem test_of_holds (hfree : c.holder = none) (hready : c.ready w) :
    c.test w true = some { c with phase := Function.update c.phase w .outside } := by
  simp only [test, hfree, hready, and_self, if_true, Bool.true_or]

end Cond

/-! ## No lost notifications -/

/-- Nobody who has tested or is blocked would pass the test, unless a notification is still to
come. `P w` says that the predicate of `w` is true. -/
structure Watchful (P : ω → Prop) (c : Cond ω) : Prop where
  holder : ∀ w, c.phase w = .tested ↔ c.holder = some w
  tested : ∀ w, c.phase w = .tested → ¬ P w
  parked : ∀ w, c.phase w = .parked → P w → 0 < c.pending

/-- Nobody waits and nobody holds the lock at the beginning. -/
theorem watchful_idle (P : ω → Prop) : Watchful P (Cond.idle : Cond ω) where
  holder w := iff_of_false Phase.noConfusion (Option.some_ne_none w).symm
  tested _ htested := by cases htested
  parked _ hparked := by cases hparked

namespace Watchful

variable {P P' : ω → Prop} {c c' : Cond ω} {w : ω}

/-- The predicates change. Where one becomes true for a waiter that has tested or is blocked, the
lock is free and a notification is announced. -/
theorem change {n : ℕ} (hc : Watchful P c)
    (hchange : ∀ w, c.phase w = .tested ∨ c.phase w = .parked → P' w →
      P w ∨ c.holder = none ∧ 0 < n) : Watchful P' (c.announce n) := by
  constructor
  · exact hc.holder
  · intro w htested hP'
    rcases hchange w (Or.inl htested) hP' with hP | ⟨hfree, -⟩
    · exact hc.tested w htested hP
    · have hholder := (hc.holder w).mp htested
      rw [hfree] at hholder
      cases hholder
  · intro w hparked hP'
    rcases hchange w (Or.inr hparked) hP' with hP | ⟨-, hn⟩
    · exact Nat.lt_of_lt_of_le (hc.parked w hparked hP) (Nat.le_add_right ..)
    · exact Nat.lt_of_lt_of_le hn (Nat.le_add_left ..)

/-- A notification wakes all who are parked, so that nobody is left to wait for it. -/
theorem notifyAll (hc : Watchful P c) (hnotify : c.notifyAll = some c') : Watchful P c' := by
  obtain ⟨-, rfl⟩ := Cond.notifyAll_eq_some hnotify
  constructor
  · intro w
    dsimp only
    split
    · next hparked =>
      rw [← hc.holder w, hparked]
      exact iff_of_false Phase.noConfusion Phase.noConfusion
    · exact hc.holder w
  · intro w htested
    dsimp only at htested
    split at htested
    · cases htested
    · exact hc.tested w htested
  · intro w hparked
    dsimp only at hparked
    split at hparked
    · cases hparked
    · next hne => exact absurd hparked hne

variable [DecidableEq ω]

/-- A waiter changes its phase. -/
theorem update {phase : Phase} {holder : Option ω} (hc : Watchful P c)
    (hself : phase = .tested ↔ holder = some w)
    (hothers : ∀ v, v ≠ w → (holder = some v ↔ c.holder = some v))
    (htested : phase = .tested → ¬ P w) (hparked : phase = .parked → P w → 0 < c.pending) :
    Watchful P { c with phase := Function.update c.phase w phase, holder := holder } := by
  constructor
  · intro v
    by_cases hvw : v = w
    · subst hvw
      simp only [Function.update_self]
      exact hself
    · simp only [Function.update_of_ne hvw]
      rw [hothers v hvw]
      exact hc.holder v
  · intro v hv
    by_cases hvw : v = w
    · subst hvw
      simp only [Function.update_self] at hv
      exact htested hv
    · simp only [Function.update_of_ne hvw] at hv
      exact hc.tested v hv
  · intro v hv hP
    by_cases hvw : v = w
    · subst hvw
      simp only [Function.update_self] at hv
      exact hparked hv hP
    · simp only [Function.update_of_ne hvw] at hv
      exact hc.parked v hv hP

/-- A waiter that does not hold the lock goes elsewhere without it. -/
theorem update_free {phase : Phase} (hc : Watchful P c) (hbefore : c.holder ≠ some w)
    (htested : phase ≠ .tested) (hparked : phase ≠ .parked) :
    Watchful P { c with phase := Function.update c.phase w phase } :=
  hc.update (iff_of_false htested hbefore) (fun _ _ => Iff.rfl) (fun h => absurd h htested)
    fun h => absurd h hparked

/-- A waiter tests its predicate. -/
theorem test {holds : Bool} (hc : Watchful P c) (hholds : P w → holds)
    (htest : c.test w holds = some c') : Watchful P c' := by
  obtain ⟨hfree, -, ⟨-, rfl⟩ | ⟨hfalse, -, rfl⟩⟩ := Cond.test_eq_some htest
  · apply hc.update_free
    · rw [hfree]
      exact (Option.some_ne_none w).symm
    · exact Phase.noConfusion
    · exact Phase.noConfusion
  · refine hc.update (iff_of_true rfl rfl) (fun v hne => ?_) (fun _ hP => ?_) Phase.noConfusion
    · rw [hfree]
      exact iff_of_false (fun heq => hne (Option.some.inj heq).symm) (Option.some_ne_none v).symm
    · rw [hfalse] at hholds
      exact Bool.false_ne_true (hholds hP)

/-- A waiter blocks. -/
theorem park (hc : Watchful P c) (hpark : c.park w = some c') : Watchful P c' := by
  obtain ⟨htested, rfl⟩ := Cond.park_eq_some hpark
  have hholder := (hc.holder w).mp htested
  refine hc.update (iff_of_false Phase.noConfusion (Option.some_ne_none w).symm)
    (fun v hne => ?_) Phase.noConfusion fun _ hP => absurd hP (hc.tested w htested)
  rw [hholder]
  exact iff_of_false (Option.some_ne_none v).symm fun heq => hne (Option.some.inj heq).symm

/-- A waiter goes on. -/
theorem rouse {expired : Bool} (hc : Watchful P c) (hrouse : c.rouse w expired = some c') :
    Watchful P c' := by
  obtain ⟨hparked, rfl⟩ := Cond.rouse_eq_some hrouse
  apply hc.update_free
  · intro hholder
    have htested := (hc.holder w).mpr hholder
    rw [hparked] at htested
    cases htested
  · exact Phase.noConfusion
  · exact Phase.noConfusion

end Watchful

end Monitor
