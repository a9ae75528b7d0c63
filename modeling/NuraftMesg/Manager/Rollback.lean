import NuraftMesg.Manager.Effects
import NuraftMesg.Manager.Joins

/-!
# Undoing a join

`join_group` emplaces the state manager that it was given and erases the entry of the
group again when `joinRaftGroup` returns an error. It does not remember whether the
emplacement happened. A history variable remembers it: what each call found under its
group, and which thread put the present entry of a group there.
-/

namespace NuraftMesg.Manager.Rollback

open Transition

variable {node : Node} {types : List GroupType} {g : GroupId} {t u : ℕ} {r r' : Registry}
  {pc pc' : Pc} {input : Input} {code : CmdResultCode}

/-- The history of `_state_managers`. -/
structure History where
  /-- The entry that the `join_group` of a thread found under its group. -/
  found : ℕ → Option (Option StateMgrId)
  /-- The thread that inserted the present entry of a group. -/
  owner : GroupId → Option ℕ

/-- The step inserts an entry for the group. -/
def Inserts (g : GroupId) (r r' : Registry) : Prop :=
  r.stateManagers g = none ∧ r'.stateManagers g ≠ none

instance (g : GroupId) (r r' : Registry) : Decidable (Inserts g r r') :=
  inferInstanceAs (Decidable (_ ∧ _))

/-- What a thread has found so far. -/
def foundAfter (r : Registry) (t : ℕ) (found : ℕ → Option (Option StateMgrId)) :
    Pc → ℕ → Option (Option StateMgrId)
  | .joinEmplace g _ _ => Function.update found t (r.stateManagers g)
  | _ => found

/-- Keep the history. -/
def observe (c : Config) (l : Label) (c' : Config) (h : History) : History :=
  match l with
  | .env _ => h
  | .thread t _ =>
    { found := foundAfter c.shared t h.found (c.threads t)
      owner := fun g => if Inserts g c.shared c'.shared then some t else h.owner g }

/-- The node together with the history. -/
def trackedStep (node : Node) : Config × History → Label → Option (Config × History) :=
  track (step node) observe

/-- A node that has just started. -/
def trackedStart (types : List GroupType) : Config × History :=
  (start types, ⟨fun _ => none, fun _ => none⟩)

/-- The group of a `join_group` that has emplaced and can still be refused. -/
def undecided : Pc → Option GroupId
  | .joinLock .joinGroup g _ => some g
  | .joinFind .joinGroup g _ => some g
  | .joinInit .joinGroup g _ => some g
  | .joinRollback g _ => some g
  | _ => none

/-- The condition on a step: a `join_group` that found an entry is not refused, that is, it
locks the manager and comes to `group_init` with a registered type; and `leave_group` does not
erase an entry whose `join_group` can still be refused. -/
def Undisturbed (c : Config × History) : Label → Prop
  | .thread t (.go around) =>
    match c.1.threads t with
    | .joinLock .joinGroup _ _ => c.2.found t ≠ none → around.managerAlive = true
    | .joinInit .joinGroup _ ty => c.2.found t ≠ none → ty ∈ c.1.shared.stateMgrTypes
    | .leaveDestroy g => ∀ u, c.2.owner g = some u → undecided (c.1.threads u) ≠ some g
    | _ => True
  | _ => True

/-! ## Threads that can still be refused -/

/-- A thread that comes out of an accepted join or out of the destructor of a listener, or goes
into it, is decided. -/
theorem undecided_afterListener (dies : Bool) (g' : GroupId) (resume : Resume) :
    undecided (afterListener dies g' resume) ≠ some g := by
  cases dies <;> rcases resume with (_ | _ | _) | _ | _ | _ <;> exact nofun

/-- How a thread comes to be undecided, or stays so. -/
theorem undecided_cases (hmove : Moves node t r pc input r' pc') (hpc : undecided pc' = some g) :
    (∃ ty m, pc = .joinEmplace g ty m ∧ r' = r.emplaceManager g m) ∨
      undecided pc = some g ∧ r' = r := by
  cases hmove with
  | call op => cases op <;> cases hpc
  | joinEmplace g' ty m =>
    cases hpc
    exact Or.inl ⟨ty, m, rfl, rfl⟩
  | lock caller g' ty ty' =>
    cases caller <;> cases hpc
    exact Or.inr ⟨rfl, rfl⟩
  | lockFailed caller g' ty =>
    cases caller <;> cases hpc
    exact Or.inr ⟨rfl, rfl⟩
  | noDuplicate caller g' ty =>
    cases caller <;> cases hpc
    exact Or.inr ⟨rfl, rfl⟩
  | initRefused caller g' ty =>
    cases caller <;> cases hpc
    exact Or.inr ⟨rfl, rfl⟩
  | duplicate caller g' =>
    exact (undecided_afterListener false g' (.joinRaftGroup caller) hpc).elim
  | listenerMissing g' resume | listenerErase g' resume =>
    exact (undecided_afterListener false g' resume hpc).elim
  | initReuseAborted | initCreateAborted | «return» | leaveShutdown | reap =>
    exact (undecided_afterListener _ _ _ hpc).elim
  | _ => cases hpc

/-- A call that is refused was refused by the lock or by `group_init`. -/
theorem refused_cases (hexec : exec node t r pc input = some (r', pc'))
    (hpc : pc' = .joinRollback g code) :
    ∃ ty around, input = .go around ∧
      (pc = .joinLock .joinGroup g ty ∧ around.managerAlive = false ∨
        pc = .joinInit .joinGroup g ty ∧ ty ∉ r.stateMgrTypes) := by
  have hundecided : undecided pc' = some g := by
    rw [hpc]
    rfl
  cases moves_of_exec hexec with
  | @lockFailed around caller g' ty hdead =>
    cases caller <;> cases hpc
    exact ⟨ty, around, rfl, Or.inl ⟨rfl, hdead⟩⟩
  | @initRefused around caller g' ty htype =>
    cases caller <;> cases hpc
    exact ⟨ty, around, rfl, Or.inr ⟨rfl, htype⟩⟩
  | call op => cases op <;> cases hpc
  | duplicate caller g' =>
    exact (undecided_afterListener false g' (.joinRaftGroup caller) hundecided).elim
  | listenerMissing g' resume | listenerErase g' resume =>
    exact (undecided_afterListener false g' resume hundecided).elim
  | initReuseAborted | initCreateAborted | «return» | leaveShutdown | reap =>
    exact (undecided_afterListener _ _ _ hundecided).elim
  | _ => cases hpc

/-- A thread that comes out of an accepted join or out of the destructor of a listener, or goes
into it, does not return an error of `join_group`. -/
theorem afterListener_ne_refused (dies : Bool) (g' : GroupId) (resume : Resume) :
    afterListener dies g' resume ≠ .done (.joinRefused g code) := by
  cases dies <;> rcases resume with (_ | _ | _) | _ | _ | _ <;> intro heq <;> cases heq

/-- A call returns an error in its rollback and nowhere else. -/
theorem rollback_of_refused (hmove : Moves node t r pc input r' pc')
    (hpc : pc' = .done (.joinRefused g code)) :
    pc = .joinRollback g code ∧ r' = r.eraseManager g := by
  cases hmove with
  | rollback g' code' =>
    cases hpc
    exact ⟨rfl, rfl⟩
  | call op => cases op <;> cases hpc
  | lockFailed caller | duplicate caller | initRefused caller => cases caller <;> cases hpc
  | listenerMissing g' resume | listenerErase g' resume =>
    exact (afterListener_ne_refused false g' resume hpc).elim
  | initReuseAborted | initCreateAborted | «return» | leaveShutdown | reap =>
    exact (afterListener_ne_refused _ _ _ hpc).elim
  | _ => cases hpc

/-! ## The invariant -/

/-- An undecided `join_group` that found no entry is the one that inserted the present entry,
and one that is being rolled back had found none. -/
structure Kept (c : Config × History) : Prop where
  owns : ∀ u g, undecided (c.1.threads u) = some g → c.2.found u = none →
    c.1.shared.stateManagers g ≠ none ∧ c.2.owner g = some u
  added : ∀ u g code, c.1.threads u = .joinRollback g code → c.2.found u = none

/-- At the beginning no thread has joined. -/
theorem kept_start : Kept (trackedStart types) := by
  constructor
  · intro u g hu
    cases hu
  · intro u g code hu
    cases hu

/-- What one thread found does not change what another one had found. -/
theorem foundAfter_of_ne (found : ℕ → Option (Option StateMgrId)) (hne : u ≠ t) :
    foundAfter r t found pc u = found u := by
  cases pc with
  | joinEmplace => exact Function.update_of_ne hne ..
  | _ => rfl

/-- What a thread found is written once, before it is undecided. -/
theorem foundAfter_of_undecided (found : ℕ → Option (Option StateMgrId))
    (hpc : undecided pc = some g) : foundAfter r t found pc = found := by
  cases pc with
  | joinEmplace => cases hpc
  | _ => rfl

section Steps

variable {c c' : Config × History} {input : Input}

/-- What a step of a thread does to the history. -/
theorem history_of_step (hstep : trackedStep node c (.thread t input) = some c') :
    c'.2.found = foundAfter c.1.shared t c.2.found (c.1.threads t) ∧
      ∀ g, c.1.shared.stateManagers g ≠ none → c'.2.owner g = c.2.owner g := by
  obtain ⟨-, hhistory⟩ := track_eq_some.mp hstep
  rw [hhistory]
  exact ⟨rfl, fun g hentry => if_neg fun hinserts => hentry hinserts.1⟩

/-- A call that has emplaced into nothing owns the entry, and so it does as long as it is
undecided. -/
theorem Kept.owns_own (hc : Kept c) (hstep : trackedStep node c (.thread t input) = some c')
    (hu : undecided (c'.1.threads t) = some g) (hnone : c'.2.found t = none) :
    c'.1.shared.stateManagers g ≠ none ∧ c'.2.owner g = some t := by
  obtain ⟨hfound, howner⟩ := history_of_step hstep
  obtain ⟨hnode, hhistory⟩ := track_eq_some.mp hstep
  obtain ⟨hexec, -⟩ := Interleaving.exec_of_step hnode
  rcases undecided_cases (moves_of_exec hexec) hu with ⟨ty, m, hpc, hr'⟩ | ⟨hundecided, hr'⟩
  · rw [hfound, hpc] at hnone
    have hbefore : c.1.shared.stateManagers g = none := by
      simpa [foundAfter] using hnone
    have hsome : c'.1.shared.stateManagers g ≠ none := by
      rw [hr']
      change c.1.shared.stateManagers.emplace g m g ≠ none
      rw [PartialMap.emplace_self]
      exact Option.some_ne_none _
    refine ⟨hsome, ?_⟩
    rw [hhistory]
    exact if_pos ⟨hbefore, hsome⟩
  · rw [hfound, foundAfter_of_undecided _ hundecided] at hnone
    obtain ⟨hentry, hown⟩ := hc.owns t g hundecided hnone
    rw [hr', howner g hentry]
    exact ⟨hentry, hown⟩

/-- The step of another thread does not take the entry away. -/
theorem Kept.owns_other (hc : Kept c) (hcond : Undisturbed c (.thread t input))
    (hmove : Moves node t c.1.shared (c.1.threads t) input r' pc') (hne : u ≠ t)
    (hu : undecided (c.1.threads u) = some g) (hfound : c.2.found u = none) :
    r'.stateManagers g ≠ none := by
  obtain ⟨hentry, howner⟩ := hc.owns u g hu hfound
  obtain ⟨m, hm⟩ := Option.ne_none_iff_exists'.mp hentry
  have hkeeps : (c.1.threads t).erases ≠ some g := by
    intro herases
    cases hpc : c.1.threads t with
    | joinRollback g' code =>
      -- Only the thread that inserted an entry rolls it back.
      rw [hpc] at herases
      cases herases
      have hown := hc.owns t g (by rw [hpc]; rfl) (hc.added t g code hpc)
      rw [howner] at hown
      exact hne (Option.some.inj hown.2)
    | leaveDestroy g' =>
      rw [hpc] at herases
      cases herases
      rw [hpc] at hmove
      cases input with
      | call op => cases hmove
      | go around =>
        simp only [Undisturbed, hpc] at hcond
        exact hcond u howner hu
    | _ =>
      rw [hpc] at herases
      cases herases
  rw [hmove.stateManagers_kept hm hkeeps]
  exact Option.some_ne_none m

/-- A call that is refused had found nothing. -/
theorem found_of_refused (hcond : Undisturbed c (.thread t input))
    (hexec : exec node t c.1.shared (c.1.threads t) input = some (r', pc'))
    (hpc' : pc' = .joinRollback g code) :
    foundAfter c.1.shared t c.2.found (c.1.threads t) t = none := by
  obtain ⟨ty, around, rfl, ⟨hpc, hdead⟩ | ⟨hpc, htype⟩⟩ := refused_cases hexec hpc'
  · rw [hpc, foundAfter_of_undecided _ rfl]
    simp only [Undisturbed, hpc] at hcond
    by_contra hfound
    rw [hcond hfound] at hdead
    cases hdead
  · rw [hpc, foundAfter_of_undecided _ rfl]
    simp only [Undisturbed, hpc] at hcond
    by_contra hfound
    exact htype (hcond hfound)

/-- A step of a thread keeps the invariant, if no other thread erases or inserts the entry that
a rollback is about. -/
theorem Kept.step_thread (hc : Kept c) (hcond : Undisturbed c (.thread t input))
    (hstep : trackedStep node c (.thread t input) = some c') : Kept c' := by
  obtain ⟨hfound, howner⟩ := history_of_step hstep
  obtain ⟨hexec, hothers⟩ := Interleaving.exec_of_step (track_eq_some.mp hstep).1
  constructor
  · intro u g hu hnone
    by_cases hut : u = t
    · subst hut
      exact hc.owns_own hstep hu hnone
    · rw [hothers u hut] at hu
      rw [hfound, foundAfter_of_ne _ hut] at hnone
      obtain ⟨hentry, hown⟩ := hc.owns u g hu hnone
      rw [howner g hentry]
      exact ⟨hc.owns_other hcond (moves_of_exec hexec) hut hu hnone, hown⟩
  · intro u g code hu
    rw [hfound]
    by_cases hut : u = t
    · subst hut
      exact found_of_refused hcond hexec hu
    · rw [hothers u hut] at hu
      rw [foundAfter_of_ne _ hut]
      exact hc.added u g code hu

/-- An event of NuRaft touches no state manager. -/
theorem Kept.step_env {event : External} (hc : Kept c)
    (hstep : trackedStep node c (.env event) = some c') : Kept c' := by
  obtain ⟨hnode, hhistory⟩ := track_eq_some.mp hstep
  have hh : c'.2 = c.2 := hhistory
  obtain ⟨r', hdeliver, hc'⟩ := Interleaving.step_env hnode
  obtain ⟨-, -, hsame, -⟩ := deliver_frame hdeliver
  constructor
  · intro u g hu hnone
    rw [hc'] at hu ⊢
    rw [hh] at hnone ⊢
    have hold := hc.owns u g hu hnone
    rw [← hsame] at hold
    exact hold
  · intro u g code hu
    rw [hc'] at hu
    rw [hh]
    exact hc.added u g code hu

/-- Each step keeps the invariant if it is not disturbed. -/
theorem Kept.step {l : Label} (hc : Kept c) (hcond : Undisturbed c l)
    (hstep : trackedStep node c l = some c') : Kept c' := by
  cases l with
  | thread t input => exact hc.step_thread hcond hstep
  | env event => exact hc.step_env hstep

end Steps

/-! ## Errors of `join_group` -/

/-- The group that a `join_group` of this thread works on. -/
def joining : Pc → Option GroupId
  | .joinEmplace g _ _ => some g
  | pc => undecided pc

/-- A `join_group` leaves the entries of all other groups alone. -/
theorem stateManagers_of_joining (hmove : Moves node t r pc input r' pc')
    (hpc : joining pc = some g) {g' : GroupId} (hne : g' ≠ g) :
    r'.stateManagers g' = r.stateManagers g' := by
  cases hmove with
  | joinEmplace g₁ ty m =>
    cases hpc
    exact PartialMap.emplace_of_ne hne
  | initCreate caller g₁ ty m =>
    cases caller <;> cases hpc
    exact PartialMap.emplace_of_ne hne
  | initCreateAborted caller g₁ ty m =>
    cases caller <;> cases hpc
    exact PartialMap.emplace_of_ne hne
  | initThrew caller g₁ ty =>
    cases caller <;> cases hpc
    exact PartialMap.emplace_of_ne hne
  | rollback g₁ code =>
    cases hpc
    exact PartialMap.erase_of_ne hne
  | leaveDestroy g₁ m => cases hpc
  | _ => rfl

/-- In every run in which a `join_group` that found an entry is not refused, and `leave_group`
does not erase an entry while the `join_group` that inserted it can still be refused: a
`join_group` never changes the entries of other groups, and one that returns an error had found
no entry, erases the entry that it inserted itself, and leaves the group as it found it. -/
theorem refused_join_restores {labels : List Label} {c : Config} {h : History}
    (hrun : run (trackedStep node) (trackedStart types) labels = some (c, h))
    (hundisturbed : Meets (trackedStep node) Undisturbed (trackedStart types) labels)
    (t : ℕ) (input : Input) (c' : Config) (hstep : step node c (.thread t input) = some c')
    (g : GroupId) :
    (joining (c.threads t) = some g →
      ∀ g', g' ≠ g → c'.shared.stateManagers g' = c.shared.stateManagers g') ∧
    ∀ code, c'.threads t = .done (.joinRefused g code) →
      h.owner g = some t ∧ (∃ m, c.shared.stateManagers g = some m) ∧
        c'.shared.stateManagers g = h.found t ∧ h.found t = none := by
  have hkept : Kept (c, h) :=
    run_invariant_of_meets (fun _ _ _ hc hcond hstep => hc.step hcond hstep) kept_start
      hundisturbed hrun
  obtain ⟨r', pc', hexec, rfl⟩ := Interleaving.step_thread hstep
  have hmove := moves_of_exec hexec
  refine ⟨fun hpc g' hne => stateManagers_of_joining hmove hpc hne, fun code hreturns => ?_⟩
  simp only [Function.update_self] at hreturns
  obtain ⟨hpc, rfl⟩ := rollback_of_refused hmove hreturns
  have hfound := hkept.added t g code hpc
  obtain ⟨hentry, howner⟩ := hkept.owns t g (by rw [hpc]; rfl) hfound
  refine ⟨howner, Option.ne_none_iff_exists'.mp hentry, ?_, hfound⟩
  rw [hfound]
  exact PartialMap.erase_self

/-- A `join_group` with a type that is not registered, up to its rollback. -/
def joinUnregistered (t : ℕ) (m : StateMgrId) : List Label :=
  .thread t (.call (.joinGroup 1 "other" (some m))) :: goes t 4 0

/-- Alone it erases what it emplaced. -/
theorem restored_after_joinUnregistered :
    ∃ c h c', run (trackedStep sampleNode) (trackedStart ["raft"]) (joinUnregistered 0 10) =
        some (c, h) ∧
      step sampleNode c (.thread 0 (.go {})) = some c' ∧
      c'.threads 0 = .done (.joinRefused 1 .serverNotFound) ∧
      c.shared.stateManagers 1 = some (some 10) ∧ h.owner 1 = some 0 ∧
      c'.shared.stateManagers 1 = none := by
  obtain ⟨c, h, c', hrun, hstep, hreturns, hentry⟩ : ∃ c h c',
      run (trackedStep sampleNode) (trackedStart ["raft"]) (joinUnregistered 0 10) = some (c, h) ∧
      step sampleNode c (.thread 0 (.go {})) = some c' ∧
      c'.threads 0 = .done (.joinRefused 1 .serverNotFound) ∧
      c.shared.stateManagers 1 = some (some 10) := ⟨_, _, _, rfl, rfl, rfl, rfl⟩
  have hundisturbed : Meets (trackedStep sampleNode) Undisturbed (trackedStart ["raft"])
      (joinUnregistered 0 10) :=
    .cons rfl trivial <| .cons rfl trivial <| .cons rfl (fun _ => rfl) <| .cons rfl trivial <|
      .cons rfl (fun hfound => absurd rfl hfound) trivial
  obtain ⟨howner, -, hrestored, hfound⟩ :=
    (refused_join_restores hrun hundisturbed 0 _ c' hstep 1).2 _ hreturns
  exact ⟨c, h, c', hrun, hstep, hreturns, hentry, howner, hrestored.trans hfound⟩

/-- A `create_group` that has built its server and not yet inserted it. -/
def createUnderWay : List Label := .thread 0 (.call (.createGroup 1 "raft")) :: goes 0 4 10

/-- A `join_group` for the same group, with a type that is not registered, is refused then,
and erases the state manager of the `create_group`. -/
theorem entry_of_other_erased :
    ∃ c h c', run (trackedStep sampleNode) (trackedStart ["raft"])
        (createUnderWay ++ joinUnregistered 1 11) = some (c, h) ∧
      step sampleNode c (.thread 1 (.go {})) = some c' ∧
      c'.threads 1 = .done (.joinRefused 1 .serverNotFound) ∧
      h.found 1 = some (some 10) ∧ h.owner 1 = some 0 ∧
      c.shared.stateManagers 1 = some (some 10) ∧ c'.shared.stateManagers 1 = none :=
  ⟨_, _, _, rfl, rfl, rfl, rfl, rfl, rfl, rfl⟩

end NuraftMesg.Manager.Rollback
