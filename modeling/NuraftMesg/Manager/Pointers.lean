import NuraftMesg.Manager.Ownership

/-!
# Pointers in `_state_managers`

`group_init` puts a null pointer under the group before it asks the application for a state
manager. Besides the operations of `Manager.Threads`, three queries read the map:
`logstore_id` and `append_peers` use what they find without a check, the second one after
it has released the lock; `exit_group` checks. This file puts the queries beside the
threads and says when every pointer in the map can be used.
-/

namespace NuraftMesg.Manager.Pointers

open Transition Ownership

/-- The queries. -/
inductive Query where
  | logstoreId (g : GroupId)
  | appendPeers (g : GroupId)
  | exitGroup (g : GroupId)

/-- Where a query stands. -/
inductive Reader where
  | idle
  /-- `logstore_id`: find the group and use its state manager. -/
  | logstoreId (g : GroupId)
  /-- `append_peers`: find the group. -/
  | appendFind (g : GroupId)
  /-- `append_peers`: use the iterator, which was got after this many erasures of the entry. -/
  | appendUse (g : GroupId) (erasures : ℕ)
  /-- `exit_group`: find the group and use its state manager unless it is null. -/
  | exitGroup (g : GroupId)
  /-- The query has called the state manager, if it found one. -/
  | done (stateMgr : Option StateMgrId)

/-- Where a query starts. -/
def Query.entry : Query → Reader
  | .logstoreId g => .logstoreId g
  | .appendPeers g => .appendFind g
  | .exitGroup g => .exitGroup g

/-- The threads of a node together with its queries. -/
structure State where
  node : Config
  readers : ℕ → Reader
  /-- How often the entry of a group was erased (history). -/
  erasures : GroupId → ℕ

inductive Label where
  | manager (l : Manager.Label)
  | query (i : ℕ) (q : Query)
  | read (i : ℕ)

namespace State

variable (s : State)

/-- One section of a query. A null pointer, and an iterator to an entry that was erased, have no
behaviour. -/
def read : Reader → Option Reader
  | .logstoreId g =>
    match s.node.shared.stateManagers g with
    | none => some (.done none)
    | some none => none
    | some (some m) => some (.done (some m))
  | .appendFind g =>
    if (s.node.shared.stateManagers g).isSome then some (.appendUse g (s.erasures g))
    else some (.done none)
  | .appendUse g erasures =>
    match s.node.shared.stateManagers g with
    | some (some m) => if s.erasures g = erasures then some (.done (some m)) else none
    | _ => none
  | .exitGroup g => some (.done (s.node.shared.stateManagers g).join)
  | .idle | .done _ => none

end State

def step (node : Node) (s : State) : Label → Option State
  | .manager l => (Manager.step node s.node l).map fun c =>
      { s with
        node := c
        erasures := fun g =>
          if Erases g s.node.shared c.shared then s.erasures g + 1 else s.erasures g }
  | .query i q =>
    match s.readers i with
    | .idle => some { s with readers := Function.update s.readers i q.entry }
    | _ => none
  | .read i => (s.read (s.readers i)).map fun reader =>
      { s with readers := Function.update s.readers i reader }

/-- A node that has just started. -/
def start (types : List GroupType) : State := ⟨Manager.start types, fun _ => .idle, fun _ => 0⟩

/-- The group whose entry a step is about to erase. -/
def erasing (c : Config) : Manager.Label → Option GroupId
  | .thread t _ => (c.threads t).erases
  | .env _ => none

/-- The condition on a step: the state managers that `join_group` is given and those that
`create_state_mgr` comes back with are not null, and no entry is erased to which an
`append_peers` has an iterator. -/
def Reliable (s : State) : Label → Prop
  | .manager l =>
    (∀ g origin, originOf g s.node l ≠ some (origin, none)) ∧
      ∀ i g erasures, erasing s.node l = some g → s.readers i ≠ .appendUse g erasures
  | _ => True

/-- Every pointer that is used without a check can be used. -/
structure Safe (node : Node) (s : State) : Prop where
  nonNull : ∀ g, s.node.shared.stateManagers g ≠ some none
  groupInit : ∀ t caller g ty around m, s.node.threads t = .joinInit caller g ty →
    around.created = .stateMgr m → (step node s (.manager (.thread t (.go around)))).isSome
  leaveGroup : ∀ t g around, s.node.threads t = .leaveDestroy g →
    (step node s (.manager (.thread t (.go around)))).isSome
  logstoreId : ∀ i g, s.readers i = .logstoreId g → (step node s (.read i)).isSome
  appendPeers : ∀ i g, (s.readers i = .appendFind g ∨ ∃ n, s.readers i = .appendUse g n) →
    (step node s (.read i)).isSome

variable {node : Node} {types : List GroupType} {g : GroupId} {c c' : Config} {s s' : State}
  {l : Manager.Label}

/-! ## Erasures -/

/-- Only a thread that is about to erase the entry of a group does it. -/
theorem erasing_of_erases (hstep : Manager.step node c l = some c')
    (herases : Erases g c.shared c'.shared) : erasing c l = some g := by
  obtain ⟨hentry, hnone⟩ := herases
  cases l with
  | thread t input =>
    obtain ⟨r', pc', hexec, rfl⟩ := Interleaving.step_thread hstep
    obtain ⟨m, hm⟩ := Option.ne_none_iff_exists'.mp hentry
    by_contra hkeeps
    have hkept := (moves_of_exec hexec).stateManagers_kept hm hkeeps
    rw [hnone] at hkept
    cases hkept
  | env event =>
    obtain ⟨r', hdeliver, rfl⟩ := Interleaving.step_env hstep
    obtain ⟨-, -, hsame, -⟩ := deliver_frame hdeliver
    rw [← hsame] at hentry
    exact absurd hnone hentry

/-- A null pointer was there before the step or is brought in by it. -/
theorem null_of_step (hstep : Manager.step node c l = some c')
    (hnull : c'.shared.stateManagers g = some none) :
    c.shared.stateManagers g = some none ∨ ∃ origin, originOf g c l = some (origin, none) := by
  rcases entry_of_step hstep g with ⟨-, hnone⟩ | hentry
  · rw [hnull] at hnone
    cases hnone
  · rw [hnull] at hentry
    cases hold : c.shared.stateManagers g with
    | some m =>
      rw [hold] at hentry
      obtain ⟨rfl, -⟩ := List.cons.inj hentry
      exact Or.inl rfl
    | none =>
      rw [hold] at hentry
      cases horigin : originOf g c l with
      | none =>
        rw [horigin] at hentry
        cases hentry
      | some brought =>
        obtain ⟨origin, m⟩ := brought
        rw [horigin] at hentry
        obtain ⟨rfl, -⟩ := List.cons.inj hentry
        exact Or.inr ⟨origin, rfl⟩

/-! ## The invariant -/

/-- No pointer is null, and every iterator leads to an entry. -/
structure Sound (s : State) : Prop where
  nonNull : ∀ g, s.node.shared.stateManagers g ≠ some none
  iterators : ∀ i g n, s.readers i = .appendUse g n →
    s.node.shared.stateManagers g ≠ none ∧ s.erasures g = n

/-- At the beginning there are no state managers and no queries. -/
theorem sound_start : Sound (start types) := by
  constructor
  · intro g hnull
    cases hnull
  · intro i g n hreader
    cases hreader

/-- A query comes to an iterator by finding the entry. -/
theorem appendUse_of_read {reader : Reader} {n : ℕ}
    (hread : s.read reader = some (.appendUse g n)) :
    s.node.shared.stateManagers g ≠ none ∧ s.erasures g = n := by
  cases reader with
  | appendFind g' =>
    simp only [State.read] at hread
    split at hread
    · next hfound =>
      cases hread
      exact ⟨Option.isSome_iff_ne_none.mp hfound, rfl⟩
    · cases hread
  | logstoreId g' =>
    simp only [State.read] at hread
    split at hread <;> cases hread
  | appendUse g' n' =>
    simp only [State.read] at hread
    split at hread
    · split at hread <;> cases hread
    · cases hread
  | exitGroup g' => cases hread
  | idle => cases hread
  | done m => cases hread

/-- Each field is kept by a reliable step. -/
theorem Sound.step {l : Label} (hs : Sound s) (hreliable : Reliable s l)
    (hstep : Pointers.step node s l = some s') : Sound s' := by
  cases l with
  | manager l =>
    obtain ⟨c, hc, rfl⟩ := Option.map_eq_some_iff.mp hstep
    constructor
    · intro g hnull
      rcases null_of_step hc hnull with hold | ⟨origin, horigin⟩
      · exact hs.nonNull g hold
      · exact hreliable.1 g origin horigin
    · intro i g n hreader
      obtain ⟨hentry, hcount⟩ := hs.iterators i g n hreader
      have hkept : ¬ Erases g s.node.shared c.shared := by
        intro herases
        exact hreliable.2 i g n (erasing_of_erases hc herases) hreader
      have hpresent : c.shared.stateManagers g ≠ none := fun hnone => hkept ⟨hentry, hnone⟩
      exact ⟨hpresent, (if_neg hkept).trans hcount⟩
  | query i q =>
    simp only [Pointers.step] at hstep
    split at hstep
    · cases hstep
      refine ⟨hs.nonNull, fun j g n hreader => ?_⟩
      by_cases hj : j = i
      · subst hj
        simp only [Function.update_self] at hreader
        cases q <;> cases hreader
      · simp only [Function.update_of_ne hj] at hreader
        exact hs.iterators j g n hreader
    · cases hstep
  | read i =>
    obtain ⟨reader, hread, rfl⟩ := Option.map_eq_some_iff.mp hstep
    refine ⟨hs.nonNull, fun j g n hreader => ?_⟩
    by_cases hj : j = i
    · subst hj
      simp only [Function.update_self] at hreader
      rw [hreader] at hread
      exact appendUse_of_read hread
    · simp only [Function.update_of_ne hj] at hreader
      exact hs.iterators j g n hreader

/-! ## The uses -/

/-- A thread that can go on does so in the whole system. -/
theorem isSome_step_of_advance {t : ℕ} {around : Surroundings}
    (hadvance : (advance node t s.node.shared around (s.node.threads t)).isSome) :
    (step node s (.manager (.thread t (.go around)))).isSome := by
  obtain ⟨⟨r', pc'⟩, hsome⟩ := Option.isSome_iff_exists.mp hadvance
  simp only [step, step_of_advance hsome, Option.map_some, Option.isSome_some]

/-- In a sound state no query dereferences a null pointer or an invalid iterator. -/
theorem Sound.safe (hs : Sound s) : Safe node s := by
  have hentry : ∀ g, s.node.shared.stateManagers g = none ∨
      ∃ m, s.node.shared.stateManagers g = some (some m) := by
    intro g
    rcases h : s.node.shared.stateManagers g with _ | _ | m
    · exact Or.inl rfl
    · exact absurd h (hs.nonNull g)
    · exact Or.inr ⟨m, rfl⟩
  constructor
  · exact hs.nonNull
  · intro t caller g ty around m hpc hcreated
    apply isSome_step_of_advance
    rw [hpc]
    refine isSome_joinInit (hs.nonNull g) fun _ => ?_
    rw [hcreated]
    exact Created.noConfusion
  · intro t g around hpc
    apply isSome_step_of_advance
    rw [hpc]
    simp only [advance, Registry.destroyManager]
    rcases hentry g with hnone | ⟨m, hm⟩
    · simp [hnone]
    · simp [hm]
  · intro i g hreader
    simp only [Pointers.step, hreader, State.read, Option.isSome_map]
    rcases hentry g with hnone | ⟨m, hm⟩
    · simp [hnone]
    · simp [hm]
  · rintro i g (hreader | ⟨n, hreader⟩)
    · simp only [Pointers.step, hreader, State.read, Option.isSome_map]
      split <;> rfl
    · obtain ⟨hpresent, hcount⟩ := hs.iterators i g n hreader
      simp only [Pointers.step, hreader, State.read, Option.isSome_map]
      rcases hentry g with hnone | ⟨m, hm⟩
      · exact absurd hnone hpresent
      · simp [hm, hcount]

/-- In every run in which the state managers that come into the node are not null and no entry
is erased to which an `append_peers` has an iterator: no pointer in `_state_managers` is null,
and `group_init`, `leave_group`, `logstore_id` and `append_peers` can use what they find. -/
theorem pointers_safe {labels : List Label}
    (hrun : run (step node) (start types) labels = some s)
    (hreliable : Meets (step node) Reliable (start types) labels) : Safe node s := by
  have hs : Sound s := run_invariant_of_meets (fun _ _ _ hs hcond hstep => hs.step hcond hstep)
    sound_start hreliable hrun
  exact hs.safe

/-- A `join_group` of a type that is not registered stores its state manager, an `append_peers`
uses it, and then the entry is erased. -/
def refusedAndQueried : List Label :=
  (.thread 0 (.call (.joinGroup 1 "other" (some 10))) :: goes 0 1 10).map .manager ++
    [.query 2 (.appendPeers 1), .read 2, .read 2] ++ (goes 0 4 10).map .manager

/-- Two queries of the group, the second one up to its iterator. -/
def queries : List Label := [.query 0 (.logstoreId 1), .query 1 (.appendPeers 1), .read 1]

/-- After that the group is created, and two queries come upon the new state manager. -/
def eraseAndQuery : List Label :=
  refusedAndQueried ++
    (.thread 1 (.call (.createGroup 1 "raft")) :: goes 1 4 11).map .manager ++ queries

/-- What `create_state_mgr` came back with, or what `join_group` was given. -/
theorem originOf_ne_null {t : ℕ} {around : Surroundings} {m : StateMgrId} {origin : Origin}
    (hcreated : around.created = .stateMgr m)
    (hgiven : ∀ g ty, c.threads t ≠ .joinEmplace g ty none) :
    originOf g c (.thread t (.go around)) ≠ some (origin, none) := by
  intro horigin
  simp only [originOf] at horigin
  cases hpc : c.threads t with
  | joinInit caller g' ty =>
    simp only [hpc, Ownership.origin, hcreated, object] at horigin
    split at horigin <;> cases horigin
  | joinEmplace g' ty stateMgr =>
    simp only [hpc, Ownership.origin] at horigin
    split at horigin
    · cases horigin
      exact hgiven g' ty hpc
    · cases horigin
  | _ =>
    rw [hpc] at horigin
    cases horigin

/-- A step that neither stores a null pointer nor erases anything. -/
theorem reliable_of_quiet {t : ℕ} {around : Surroundings} {m : StateMgrId}
    (hcreated : around.created = .stateMgr m)
    (hgiven : ∀ g ty, s.node.threads t ≠ .joinEmplace g ty none)
    (herases : (s.node.threads t).erases = none) :
    Reliable s (.manager (.thread t (.go around))) := by
  refine ⟨fun _ _ => originOf_ne_null hcreated hgiven, fun i g erasures herasing => ?_⟩
  cases herases.symm.trans herasing

/-- The entry is erased when no iterator leads to it, and both queries can use the next one. -/
theorem safe_after_eraseAndQuery :
    ∃ s, run (step sampleNode) (start ["raft"]) eraseAndQuery = some s ∧
      s.erasures 1 = 1 ∧ s.node.shared.stateManagers 1 = some (some 11) ∧
      (step sampleNode s (.read 0)).isSome ∧ (step sampleNode s (.read 1)).isSome := by
  obtain ⟨s, hrun, herased, hentry, h0, h1⟩ : ∃ s,
      run (step sampleNode) (start ["raft"]) eraseAndQuery = some s ∧ s.erasures 1 = 1 ∧
      s.node.shared.stateManagers 1 = some (some 11) ∧
      s.readers 0 = .logstoreId 1 ∧ s.readers 1 = .appendUse 1 1 := ⟨_, rfl, rfl, rfl, rfl, rfl⟩
  have hreliable : Meets (step sampleNode) Reliable (start ["raft"]) eraseAndQuery := by
    refine .cons rfl ⟨fun _ _ => nofun, fun _ _ _ => nofun⟩ ?_
    refine .cons rfl (reliable_of_quiet rfl (fun _ _ hpc => ?_) rfl) ?_
    · cases (Pc.joinEmplace.inj hpc).2.2
    iterate 3 refine .cons rfl trivial ?_
    iterate 3 refine .cons rfl (reliable_of_quiet rfl nofun rfl) ?_
    refine .cons rfl ⟨fun _ _ => originOf_ne_null rfl nofun, fun i g erasures _ => ?_⟩ ?_
    · match i with
      | 0 | 1 | 2 => exact nofun
      | i + 3 => exact nofun
    refine .cons rfl ⟨fun _ _ => nofun, fun _ _ _ => nofun⟩ ?_
    iterate 4 refine .cons rfl (reliable_of_quiet rfl nofun rfl) ?_
    iterate 3 refine .cons rfl trivial ?_
    trivial
  have hsafe := pointers_safe hrun hreliable
  exact ⟨s, hrun, herased, hentry, hsafe.logstoreId 0 1 h0, hsafe.appendPeers 1 1 (Or.inr ⟨1, h1⟩)⟩

/-- A `create_group` up to the call of `create_state_mgr`. -/
def createUpToInit : List Label :=
  (.thread 0 (.call (.createGroup 1 "raft")) :: goes 0 3 0).map .manager

/-- The application throws; then the group is queried and left. -/
def createThrows : List Label :=
  createUpToInit ++ [.manager (.thread 0 (.go { created := .throws }))] ++ queries ++
    (.thread 1 (.call (.leaveGroup 1)) :: goes 1 2 0).map .manager

/-- A null pointer is left in the map, which was empty before, and neither the queries nor
`leave_group` can go on. -/
theorem null_left_by_createThrows :
    ∃ before s, run (step sampleNode) (start ["raft"]) createUpToInit = some before ∧
      before.node.shared.stateManagers 1 = none ∧
      run (step sampleNode) (start ["raft"]) createThrows = some s ∧
      s.node.threads 0 = .done (.threw 1) ∧ s.node.shared.stateManagers 1 = some none ∧
      step sampleNode s (.read 0) = none ∧ step sampleNode s (.read 1) = none ∧
      s.node.threads 1 = .leaveDestroy 1 ∧
      step sampleNode s (.manager (.thread 1 (.go {}))) = none :=
  ⟨_, _, rfl, rfl, rfl, rfl, rfl, rfl, rfl, rfl, rfl⟩

end NuraftMesg.Manager.Pointers
