import NuraftMesg.Base.Transition
import Mathlib.Data.List.Nodup

/-!
# A pool of workers

Tasks are posted to a pool; a free worker takes one of the tasks that wait and is busy with
it until the task is finished. Which of them it takes is left open, so that what is proved
here does not depend on how a pool orders its queue. Besides the tasks that wait and those
in work a pool carries the record of the tasks that were posted and of those that are
finished.
-/

namespace Workers

variable {α : Type*}

/-- A pool at work. -/
structure Pool (α : Type*) where
  /-- All tasks ever posted, in this order. -/
  posted : List α
  /-- The tasks that no worker has taken. -/
  waiting : List α
  /-- The tasks that workers are busy with. -/
  running : List α
  /-- All tasks ever finished, in this order. -/
  finished : List α

/-- A pool to which nothing was posted. -/
def Pool.empty : Pool α := ⟨[], [], [], []⟩

namespace Pool

/-- A task is posted. -/
def post (p : Pool α) (a : α) : Pool α :=
  { p with posted := p.posted ++ [a], waiting := p.waiting ++ [a] }

/-- How much is left to do: a task that waits is to be begun and to be finished. -/
def backlog (p : Pool α) : ℕ := 2 * p.waiting.length + p.running.length

/-- A pool with nothing left to do has neither tasks that wait nor tasks in work. -/
theorem eq_nil_of_backlog {p : Pool α} (hbacklog : p.backlog = 0) :
    p.waiting = [] ∧ p.running = [] := by
  simp only [backlog] at hbacklog
  exact ⟨List.length_eq_zero_iff.mp (by omega), List.length_eq_zero_iff.mp (by omega)⟩

variable [DecidableEq α]

/-- A free worker among `size` takes a task that waits. -/
def begin (size : ℕ) (p : Pool α) (a : α) : Option (Pool α) :=
  if a ∈ p.waiting ∧ p.running.length < size then
    some { p with waiting := p.waiting.erase a, running := a :: p.running }
  else none

/-- A worker finishes its task. -/
def finish (p : Pool α) (a : α) : Option (Pool α) :=
  if a ∈ p.running then
    some { p with running := p.running.erase a, finished := p.finished ++ [a] }
  else none

variable {size : ℕ} {p p' : Pool α} {a : α}

/-- What beginning a task requires and does. -/
theorem begin_eq_some (hbegin : p.begin size a = some p') :
    a ∈ p.waiting ∧ p.running.length < size ∧
      p' = { p with waiting := p.waiting.erase a, running := a :: p.running } := by
  unfold begin at hbegin
  split at hbegin
  · next hfree =>
    cases hbegin
    exact ⟨hfree.1, hfree.2, rfl⟩
  · cases hbegin

/-- A free worker can take any task that waits. -/
theorem begin_of_mem (hmem : a ∈ p.waiting) (hfree : p.running.length < size) :
    p.begin size a = some { p with waiting := p.waiting.erase a, running := a :: p.running } :=
  if_pos ⟨hmem, hfree⟩

/-- What finishing a task requires and does. -/
theorem finish_eq_some (hfinish : p.finish a = some p') :
    a ∈ p.running ∧
      p' = { p with running := p.running.erase a, finished := p.finished ++ [a] } := by
  unfold finish at hfinish
  split at hfinish
  · next hmem =>
    cases hfinish
    exact ⟨hmem, rfl⟩
  · cases hfinish

/-- Every task in work can be finished. -/
theorem finish_of_mem (hmem : a ∈ p.running) :
    p.finish a =
      some { p with running := p.running.erase a, finished := p.finished ++ [a] } :=
  if_pos hmem

/-- Beginning a task is a step on the way. -/
theorem backlog_begin (hbegin : p.begin size a = some p') : p'.backlog + 1 = p.backlog := by
  obtain ⟨hmem, -, rfl⟩ := begin_eq_some hbegin
  have hlength := List.length_erase_add_one hmem
  simp only [backlog, List.length_cons]
  omega

/-- So is finishing one. -/
theorem backlog_finish (hfinish : p.finish a = some p') : p'.backlog + 1 = p.backlog := by
  obtain ⟨hmem, rfl⟩ := finish_eq_some hfinish
  have hlength := List.length_erase_add_one hmem
  simp only [backlog]
  omega

end Pool

/-- What holds of a pool of `size` workers as long as no task is posted twice. -/
structure Sound (size : ℕ) (p : Pool α) : Prop where
  nodup : p.posted.Nodup
  /-- Every task posted is finished, in work or waiting, and nothing else is. -/
  perm : p.posted.Perm (p.finished ++ p.running ++ p.waiting)
  busy : p.running.length ≤ size
  /-- Without workers nothing is finished. -/
  worked : ∀ a ∈ p.finished, 0 < size

variable {size : ℕ} {p p' : Pool α} {a : α}

/-- A pool to which nothing was posted. -/
theorem sound_empty (size : ℕ) : Sound size (Pool.empty : Pool α) where
  nodup := List.nodup_nil
  perm := .nil
  busy := Nat.zero_le size
  worked _ hmem := by cases hmem

namespace Sound

/-- The three places of a task exclude each other. -/
theorem nodup_places (hp : Sound size p) : (p.finished ++ p.running ++ p.waiting).Nodup :=
  hp.perm.nodup_iff.mp hp.nodup

/-- Every task posted is in one of the three places. -/
theorem mem_posted (hp : Sound size p) :
    a ∈ p.posted ↔ a ∈ p.finished ∨ a ∈ p.running ∨ a ∈ p.waiting := by
  rw [hp.perm.mem_iff, List.append_assoc]
  simp only [List.mem_append]

/-- A task in work is not finished. -/
theorem not_finished_of_running (hp : Sound size p) (ha : a ∈ p.running) : a ∉ p.finished := by
  intro hmem
  have hnodup := (List.nodup_append.mp hp.nodup_places).1
  exact (List.nodup_append.mp hnodup).2.2 a hmem a ha rfl

/-- A task that waits is not finished. -/
theorem not_finished_of_waiting (hp : Sound size p) (ha : a ∈ p.waiting) : a ∉ p.finished := by
  intro hmem
  have hdisjoint := (List.nodup_append.mp hp.nodup_places).2.2
  exact hdisjoint a (List.mem_append_left _ hmem) a ha rfl

/-- A new task is posted. -/
theorem post (hp : Sound size p) (hnew : a ∉ p.posted) : Sound size (p.post a) where
  nodup := List.nodup_append.mpr ⟨hp.nodup, List.nodup_singleton a, fun b hb c hc heq => by
    rw [List.mem_singleton] at hc
    exact hnew (hc ▸ heq ▸ hb)⟩
  perm := by
    have hperm := hp.perm.append_right [a]
    rwa [List.append_assoc _ p.waiting] at hperm
  busy := hp.busy
  worked := hp.worked

variable [DecidableEq α]

/-- A worker begins a task. -/
theorem begin (hp : Sound size p) (hbegin : p.begin size a = some p') : Sound size p' := by
  obtain ⟨hmem, hfree, rfl⟩ := Pool.begin_eq_some hbegin
  refine ⟨hp.nodup, ?_, hfree, hp.worked⟩
  -- the task moves from the third place to the second
  have hmoved : (p.running ++ p.waiting).Perm (a :: p.running ++ p.waiting.erase a) :=
    ((List.perm_cons_erase hmem).append_left p.running).trans List.perm_middle
  have hperm := hp.perm
  rw [List.append_assoc] at hperm ⊢
  exact hperm.trans (hmoved.append_left p.finished)

/-- A worker finishes a task. -/
theorem finish (hp : Sound size p) (hfinish : p.finish a = some p') : Sound size p' := by
  obtain ⟨hmem, rfl⟩ := Pool.finish_eq_some hfinish
  refine ⟨hp.nodup, ?_, Nat.le_trans List.length_erase_le hp.busy, ?_⟩
  · have hmoved : (p.finished ++ p.running).Perm (p.finished ++ [a] ++ p.running.erase a) := by
      rw [List.append_assoc]
      exact (List.perm_cons_erase hmem).append_left p.finished
    exact hp.perm.trans (hmoved.append_right p.waiting)
  · intro _ _
    exact Nat.lt_of_lt_of_le (List.length_pos_of_mem hmem) hp.busy

end Sound

end Workers
