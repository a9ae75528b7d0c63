import NuraftMesg.Manager.Messages
import NuraftMesg.Manager.Replies
import NuraftMesg.Manager.Waiting

/-!
# Operations come to their end

An operation of the manager is a chain of critical sections with at most one wait in it.
Outside the wait every step brings the thread nearer to its end, and no step needs anything
from another thread but the lock; whoever holds the lock gives it up by blocking. So no
operation can be kept from its end by others that are blocked.
-/

namespace NuraftMesg.Manager.Waiting

open Monitor Transition

/-! ## Steps that are left -/

/-- What the caller of `joinRaftGroup` has still to do afterwards. -/
def callerAhead : Caller → ℕ
  | .createGroup => 0
  | .joinGroup => 1
  | .raftStep _ => 2

/-- What is to be done after the destructor of a listener. -/
def resumeAhead : Resume → ℕ
  | .joinRaftGroup caller => callerAhead caller
  | .unwind => 0
  | .leaveGroup => 1
  | .reap _ => 0

/-- How many steps a thread has before it at most, those of its wait not counted. -/
def ahead : Pc → ℕ
  | .idle => 10
  | .createInsert _ _ => 8
  | .joinEmplace _ _ _ => 9
  | .joinLock caller _ _ => 7 + callerAhead caller
  | .joinFind caller _ _ => 6 + callerAhead caller
  | .joinInit caller _ _ => 5 + callerAhead caller
  | .joinInsert caller _ _ => 4 + callerAhead caller
  | .joinReturn caller _ _ _ => 3 + callerAhead caller
  | .listenerFind _ resume => 2 + resumeAhead resume
  | .listenerErase _ resume => 1 + resumeAhead resume
  | .joinRollback _ _ => 1
  | .leaveCheck _ => 6
  | .leaveFind _ => 5
  | .leaveShutdown _ _ => 4
  | .leaveDestroy _ => 1
  | .becomeRead _ => 2
  | .becomeRequest _ => 1
  | .stepCheck _ => 10
  | .stepFind _ _ _ => 2
  | .stepTask _ _ _ _ => 1
  | .reap _ _ => 3
  | .createWait _ | .becomeWait _ | .done _ => 0

variable {node : Node} {s s' : State} {l : Label} {g : GroupId} {t : ℕ} {r r' : Registry}
  {pc pc' : Pc} {a : Surroundings} {types : List GroupType} {labels : List Label}

/-- A refused join leaves no more than its caller has to do. -/
theorem ahead_refused_le (code : CmdResultCode) (caller : Caller) :
    ahead (caller.refused g code) ≤ callerAhead caller := by
  cases caller <;> simp [Caller.refused, ahead, callerAhead]

/-- After the destructor of a listener there is no more than the rest; a `joinRaftGroup` that
returns `OK` without destroying one comes back in the same way. -/
theorem ahead_next_le (resume : Resume) : ahead (resume.next g) ≤ resumeAhead resume := by
  rcases resume with (_ | _ | _) | _ | _ | _ <;>
    simp [Resume.next, Caller.accepted, ahead, resumeAhead, callerAhead]

/-- The destructor of a listener adds two steps to the rest. -/
theorem ahead_afterListener_le (dies : Bool) (resume : Resume) :
    ahead (afterListener dies g resume) ≤ 2 + resumeAhead resume := by
  cases dies with
  | true => exact le_rfl
  | false => exact (ahead_next_le resume).trans (Nat.le_add_left ..)

/-- Every step outside a wait brings the thread nearer to its end. -/
theorem ahead_lt_of_moves (hmoves : Moves node t r pc (.go a) r' pc')
    (hwaits : waitsFor pc = none) : ahead pc' < ahead pc := by
  cases hmoves with
  | lockFailed | initRefused =>
    exact lt_of_le_of_lt (ahead_refused_le ..) (Nat.lt_add_of_pos_left (Nat.succ_pos _))
  | initReuseAborted caller g ty m dies | initCreateAborted caller g ty m dies =>
    have hle : ahead (afterListener dies g .unwind) ≤ 2 := ahead_afterListener_le dies .unwind
    have hstep : ahead (.joinInit caller g ty) = 5 + callerAhead caller := rfl
    omega
  | duplicate caller =>
    exact lt_of_le_of_lt (ahead_next_le (.joinRaftGroup caller))
      (Nat.lt_add_of_pos_left (Nat.succ_pos _))
  | listenerMissing | listenerErase =>
    exact lt_of_le_of_lt (ahead_next_le _) (Nat.lt_add_of_pos_left (Nat.succ_pos _))
  | «return» caller =>
    refine lt_of_le_of_lt (ahead_afterListener_le ..) ?_
    exact Nat.add_lt_add_right (Nat.lt_succ_self 2) (callerAhead caller)
  | leaveShutdown | reap => exact Nat.lt_succ_of_le (ahead_afterListener_le ..)
  | created | createTimedOut | createWait | becameLeader | becomeTimedOut | becomeWait =>
    cases hwaits
  | _ => simp [ahead, callerAhead]

/-! ## The lock -/

/-- Whoever has tested in vain holds the lock, and nobody else does. -/
abbrev Locked (s : State) : Prop := Watchful (fun _ => False) s.cond

/-- The lock passes as the rules of the condition variable say. -/
theorem Locked.step (hs : Locked s) (hstep : step node s l = some s') : Locked s' := by
  cases takes_of_step hstep with
  | raftEvent => exact hs.change fun _ _ hfalse => hfalse.elim
  | notifyAll cond hcond => exact hs.notifyAll hcond
  | testThread t g cond c hwaits hcond => exact hs.test False.elim hcond
  | testCommand k g id endpoint cond hwaits hcond => exact hs.test False.elim hcond
  | park w cond hcond => exact hs.park hcond
  | rouse w expired cond hcond => exact hs.rouse hcond
  | _ => exact hs

/-- What is known of the lock in every state that can be reached. -/
structure Orderly (s : State) : Prop where
  locked : Locked s
  attended : Attended s

/-- The lock and the waits stay in order. -/
theorem Orderly.step (hs : Orderly s) (hstep : step node s l = some s') : Orderly s' :=
  ⟨hs.locked.step hstep, hs.attended.step hstep⟩

/-- They are in order in every reachable state. -/
theorem orderly_of_run (hrun : run (step node) (start types) labels = some s) : Orderly s :=
  run_invariant (fun _ _ _ hs hstep => hs.step hstep)
    ⟨watchful_idle _, fun _ hw => absurd rfl hw⟩ hrun

/-! ## What a thread needs -/

/-- The thread finds what it needs: no null pointer among the state managers, an `rc_request` in
its message, and a server to destroy that nothing refers to. -/
structure Equipped (r : Registry) (pc : Pc) : Prop where
  nonNull : ∀ g, r.stateManagers g ≠ some none
  given : ∀ g ty, pc ≠ .joinEmplace g ty none
  request : ∀ msg, pc.message = some msg → ∃ rc, msg.msg.reqResp = some (.rcRequest rc)
  unreferenced : ∀ g server, pc = .reap g server → r.Unreferenced g server

/-- A thread that has what it needs and neither waits nor is at its end can go on. -/
theorem Equipped.isSome_advance (h : Equipped r pc) (node : Node) (t : ℕ)
    (hcreated : a.created ≠ .null) (hidle : pc ≠ .idle) (hdone : ∀ outcome, pc ≠ .done outcome) :
    (advance node t r a pc).isSome := by
  cases pc with
  | idle => exact absurd rfl hidle
  | done outcome => exact absurd rfl (hdone outcome)
  | joinInit caller g ty =>
    exact isSome_joinInit (h.nonNull g) fun _ => hcreated
  | leaveDestroy g =>
    simp only [advance, Registry.destroyManager]
    rcases hentry : r.stateManagers g with _ | _ | m
    · rfl
    · exact absurd hentry (h.nonNull g)
    · rfl
  | stepTask msg g server pool =>
    obtain ⟨req, reply, hadvance, -⟩ :=
      Replies.advance_stepTask node t r a (h.request msg rfl) g server pool
    rw [hadvance]
    rfl
  | reap g server =>
    simp only [advance, if_pos (h.unreferenced g server rfl), Option.isSome_some]
  | createInsert | joinEmplace | joinInsert | joinReturn | listenerErase | joinRollback
  | leaveShutdown => rfl
  | stepCheck msg =>
    simp only [advance]
    split
    · rfl
    · split <;> rfl
  | createWait | becomeWait =>
    simp only [advance]
    split
    · rfl
    · split <;> rfl
  | _ =>
    simp only [advance]
    split <;> rfl

/-- No step of the thread brings in a null pointer, unless `create_state_mgr` throws. -/
theorem Equipped.nonNull_of_moves (h : Equipped r pc) (hmoves : Moves node t r pc (.go a) r' pc') :
    (∃ outcome, pc' = .done outcome) ∨ ∀ g, r'.stateManagers g ≠ some none := by
  cases hmoves with
  | initThrew => exact Or.inl ⟨_, rfl⟩
  | joinEmplace g ty m =>
    refine Or.inr fun g' hnull => ?_
    rcases PartialMap.eq_some_of_emplace_eq_some hnull with hold | ⟨-, -, rfl⟩
    · exact h.nonNull g' hold
    · exact h.given g ty rfl
  | initCreate caller g ty m | initCreateAborted caller g ty m =>
    refine Or.inr fun g' hnull => ?_
    rcases PartialMap.eq_some_of_emplace_eq_some hnull with hold | ⟨-, -, hnew⟩
    · exact h.nonNull g' hold
    · cases hnew
  | rollback g | leaveDestroy g => exact Or.inl ⟨_, rfl⟩
  | _ => exact Or.inr h.nonNull

/-- The first step of a `join_group` or of a destruction. -/
def isFirst : Pc → Bool
  | .joinEmplace _ _ _ | .reap _ _ => true
  | _ => false

/-- Coming back to a caller is not a first step. -/
theorem isFirst_of_landing {m : Option Proto.RaftGroupMsg} (hpc : Landing g m pc) :
    isFirst pc = false := by
  cases hpc <;> rfl

/-- A thread does not come back to its first step. -/
theorem isFirst_of_moves (hmoves : Moves node t r pc (.go a) r' pc') : isFirst pc' = false := by
  cases hmoves with
  | lockFailed caller g | initRefused caller g =>
    exact isFirst_of_landing (caller.landing_refused g _)
  | duplicate caller g => exact isFirst_of_landing (caller.landing_accepted g)
  | listenerMissing g resume | listenerErase g resume =>
    exact isFirst_of_landing (resume.landing_next g)
  | «return» | leaveShutdown | reap | initReuseAborted | initCreateAborted =>
    exact isFirst_of_landing (landing_afterListener ..)
  | _ => rfl

/-- A thread that has what it needs keeps it up to its end. -/
theorem Equipped.moves (h : Equipped r pc) (hmoves : Moves node t r pc (.go a) r' pc') :
    (∃ outcome, pc' = .done outcome) ∨ Equipped r' pc' := by
  have hfirst := isFirst_of_moves hmoves
  rcases h.nonNull_of_moves hmoves with hdone | hnonNull
  · exact Or.inl hdone
  refine Or.inr ⟨hnonNull, ?_, fun msg hmsg => ?_, ?_⟩
  · rintro g ty rfl
    cases hfirst
  · rcases hmoves.message with ⟨op, -, hcall, -⟩ | hnone | hsame
    · cases hcall
    · cases hnone.symm.trans hmsg
    · exact h.request msg (hsame.symm.trans hmsg)
  · rintro g server rfl
    cases hfirst

/-! ## The end of an operation -/

/-- The label is a step of the thread, with the given answers of the application and of the
server; in its wait, the time is over. -/
def Drives (t : ℕ) (a : Surroundings) : Label → Prop
  | .thread u (.go around) => u = t ∧ around = a
  | .test w | .park w => w = .thread t
  | .rouse w expired => w = .thread t ∧ expired = true
  | _ => False

/-- The thread comes to its end in at most `n` steps if the others stay where they are. -/
def Ends (node : Node) (t : ℕ) (a : Surroundings) (n : ℕ) (s : State) : Prop :=
  ∃ back s' outcome, run (step node) s back = some s' ∧ s'.config.threads t = .done outcome ∧
    back.length ≤ n ∧ ∀ l ∈ back, Drives t a l

/-- A thread at its end is there in no step. -/
theorem ends_of_done (n : ℕ) (hdone : ∃ outcome, s.config.threads t = .done outcome) :
    Ends node t a n s := by
  obtain ⟨outcome, hdone⟩ := hdone
  exact ⟨[], s, outcome, rfl, hdone, Nat.zero_le n, fun _ hl => absurd hl List.not_mem_nil⟩

/-- A bound can be raised. -/
theorem Ends.mono {m n : ℕ} (h : Ends node t a m s) (hle : m ≤ n) : Ends node t a n s := by
  obtain ⟨back, s', outcome, hrun, hdone, hlength, hdrives⟩ := h
  exact ⟨back, s', outcome, hrun, hdone, hlength.trans hle, hdrives⟩

/-- One step more. -/
theorem Ends.cons {n : ℕ} (hstep : step node s l = some s') (hdrives : Drives t a l)
    (h : Ends node t a n s') : Ends node t a (n + 1) s := by
  obtain ⟨back, s'', outcome, hrun, hdone, hlength, hrest⟩ := h
  refine ⟨l :: back, s'', outcome, ?_, hdone, Nat.succ_le_succ hlength, ?_⟩
  · rw [run_cons, hstep]
    exact hrun
  · intro l' hl'
    rcases List.mem_cons.mp hl' with rfl | hl'
    · exact hdrives
    · exact hrest l' hl'

/-! ## The end of a wait -/

/-- The wait that succeeded is the last thing in its operation. -/
theorem exists_passed (hwaits : waitsFor pc = some g) : ∃ outcome, passed pc = .done outcome := by
  cases pc with
  | createWait | becomeWait => exact ⟨_, rfl⟩
  | _ => cases hwaits

/-- So is the wait that failed. -/
theorem exists_timedOut (hwaits : waitsFor pc = some g) :
    ∃ outcome, timedOut pc = .done outcome := by
  cases pc with
  | createWait | becomeWait => exact ⟨_, rfl⟩
  | _ => cases hwaits

/-- A waiter that finds the lock free can test. -/
theorem step_test (node : Node) {cond : Cond Waiter}
    (hwaits : waitsFor (s.config.threads t) = some g)
    (hcond : s.cond.test (.thread t) (s.config.shared.readLeader g).2 = some cond) :
    step node s (.test (.thread t)) = some { s with
      config := ⟨(s.config.shared.readLeader g).1, Function.update s.config.threads t
        (afterFlag (s.config.threads t) (s.config.shared.readLeader g).2
          (s.cond.expired (.thread t)))⟩
      cond := cond } := by
  simp only [step, hwaits, hcond, Option.bind_some, step_wait node _ hwaits, Option.map_some]

/-- The last test ends the wait. -/
theorem ends_of_expired (hwaits : waitsFor (s.config.threads t) = some g)
    (hfree : s.cond.holder = none) (hphase : s.cond.phase (.thread t) = .woken true) :
    Ends node t a 1 s := by
  have hready : s.cond.ready (.thread t) = true := by simp only [Cond.ready, hphase]
  have hexpired : s.cond.expired (.thread t) = true := by
    simp only [Cond.expired, hphase, decide_true]
  have hcond : s.cond.test (.thread t) (s.config.shared.readLeader g).2 =
      some { s.cond with phase := Function.update s.cond.phase (.thread t) .outside } := by
    simp only [Cond.test, hfree, hready, hexpired, and_self, if_true, Bool.or_true]
  refine .cons (step_test node hwaits hcond) rfl (ends_of_done 0 ?_)
  simp only [Function.update_self, hexpired]
  cases (s.config.shared.readLeader g).2 with
  | true => exact exists_passed hwaits
  | false => exact exists_timedOut hwaits

/-- Whoever is blocked leaves when its time is over. -/
theorem ends_of_parked (hwaits : waitsFor (s.config.threads t) = some g)
    (hfree : s.cond.holder = none) (hphase : s.cond.phase (.thread t) = .parked) :
    Ends node t a 2 s := by
  have hrouse : step node s (.rouse (.thread t) true) = some { s with cond := { s.cond with
      phase := Function.update s.cond.phase (.thread t) (.woken true) } } := by
    simp only [step, Cond.rouse, if_pos hphase, Option.map_some]
  refine .cons hrouse ⟨rfl, rfl⟩ (ends_of_expired hwaits hfree ?_)
  exact Function.update_self ..

/-- Whoever has tested in vain blocks and leaves when its time is over. -/
theorem ends_of_tested (hwaits : waitsFor (s.config.threads t) = some g)
    (hphase : s.cond.phase (.thread t) = .tested) : Ends node t a 3 s := by
  refine .cons (step_park node hphase) rfl (ends_of_parked hwaits rfl ?_)
  exact Function.update_self ..

/-- Whoever is about to test leaves at once, or after it has blocked. -/
theorem ends_of_ready (hwaits : waitsFor (s.config.threads t) = some g)
    (hfree : s.cond.holder = none) (hready : s.cond.ready (.thread t)) : Ends node t a 4 s := by
  obtain ⟨cond, hcond⟩ : ∃ cond,
      s.cond.test (.thread t) (s.config.shared.readLeader g).2 = some cond := by
    simp only [Cond.test, hfree, hready, and_self, if_true]
    split <;> exact ⟨_, rfl⟩
  refine .cons (step_test node hwaits hcond) rfl ?_
  obtain ⟨-, -, ⟨hleaves, -⟩ | ⟨hfalse, hexpired, rfl⟩⟩ := Cond.test_eq_some hcond
  · refine ends_of_done 3 ?_
    simp only [Function.update_self]
    cases hholds : (s.config.shared.readLeader g).2 with
    | true => exact exists_passed hwaits
    | false =>
      simp only [hholds, Bool.false_eq_true, false_or] at hleaves
      rw [hleaves]
      exact exists_timedOut hwaits
  · refine ends_of_tested (g := g) ?_ (Function.update_self ..)
    simp only [Function.update_self, hfalse, hexpired]
    exact hwaits

/-- With the lock free every wait can be brought to its end. -/
theorem ends_of_waiting (hs : Orderly s) (hwaits : waitsFor (s.config.threads t) = some g)
    (hfree : s.cond.holder = none) : Ends node t a 4 s := by
  cases hphase : s.cond.phase (.thread t) with
  | outside => exact ends_of_ready hwaits hfree (by simp only [Cond.ready, hphase])
  | woken expired => exact ends_of_ready hwaits hfree (by simp only [Cond.ready, hphase])
  | parked => exact (ends_of_parked hwaits hfree hphase).mono (by decide)
  | tested =>
    have hholder := (hs.locked.holder _).mp hphase
    rw [hfree] at hholder
    cases hholder

/-! ## Whole operations -/

/-- A thread that does not wait goes on when the lock is free. -/
theorem step_thread_of_free {c : Config} (hwaits : waitsFor (s.config.threads t) = none)
    (hfree : s.cond.holder = none)
    (hnode : Manager.step node s.config (.thread t (.go a)) = some c) :
    step node s (.thread t (.go a)) = some { s with config := c } := by
  simp [step, hwaits, hfree, hnode]

/-- With the lock free every operation can be brought to its end. -/
theorem ends_of_free (hs : Orderly s) (hfree : s.cond.holder = none)
    (hequipped : Equipped s.config.shared (s.config.threads t)) (hcreated : a.created ≠ .null)
    (hidle : s.config.threads t ≠ .idle) :
    Ends node t a (ahead (s.config.threads t) + 4) s := by
  -- Induction on the steps that are left; a wait is the last thing a thread does.
  induction hn : ahead (s.config.threads t) using Nat.strong_induction_on generalizing s with
  | _ n ih =>
    subst hn
    cases hwaits : waitsFor (s.config.threads t) with
    | some g => exact (ends_of_waiting hs hwaits hfree).mono (Nat.le_add_left ..)
    | none =>
      by_cases hdone : ∃ outcome, s.config.threads t = .done outcome
      · exact ends_of_done _ hdone
      have hgoes := hequipped.isSome_advance node t hcreated hidle fun outcome h => hdone ⟨_, h⟩
      obtain ⟨⟨r', pc'⟩, hadvance⟩ := Option.isSome_iff_exists.mp hgoes
      have hmoves := moves_of_advance hadvance
      have hlt := ahead_lt_of_moves hmoves hwaits
      have hstep := step_thread_of_free hwaits hfree (step_of_advance hadvance)
      refine (Ends.cons hstep ⟨rfl, rfl⟩ (n := ahead pc' + 4) ?_).mono (by omega)
      rcases hequipped.moves hmoves with ⟨outcome, rfl⟩ | hequipped'
      · exact ends_of_done _ ⟨outcome, Function.update_self ..⟩
      · have hpc : Function.update s.config.threads t pc' t = pc' := Function.update_self ..
        refine ih (ahead pc') hlt (hs.step hstep) hfree ?_ ?_ (congrArg ahead hpc)
        · simp only [hpc]
          exact hequipped'
        · simp only [hpc]
          exact hmoves.ne_idle

/-- No operation of the manager can be kept from its end by others. In every state that a run
reaches, as soon as whoever holds the lock has blocked, a thread that is on an operation can be
brought to its end by a bounded number of steps of its own, while all others stay where they are:
it needs nobody to notify it and nobody to go on. The application is free in what it answers,
except that no state manager is a null pointer; the message has an `rc_request`, and a server
that is about to be destroyed is referred to by nobody. -/
theorem operations_end (hrun : run (step node) (start types) labels = some s)
    (hequipped : Equipped s.config.shared (s.config.threads t)) (hcreated : a.created ≠ .null)
    (hidle : s.config.threads t ≠ .idle) :
    ∃ s₀, run (step node) s (s.cond.holder.toList.map .park) = some s₀ ∧
      Ends node t a (ahead (s.config.threads t) + 4) s₀ := by
  have hs := orderly_of_run hrun
  cases hholder : s.cond.holder with
  | none => exact ⟨s, rfl, ends_of_free hs hholder hequipped hcreated hidle⟩
  | some w =>
    have htested := (hs.locked.holder w).mpr hholder
    obtain ⟨s₀, hpark, hconfig, hfree⟩ : ∃ s₀, step node s (.park w) = some s₀ ∧
        s₀.config = s.config ∧ s₀.cond.holder = none := ⟨_, step_park node htested, rfl, rfl⟩
    rw [← hconfig] at hequipped hidle ⊢
    refine ⟨s₀, ?_, ends_of_free (hs.step hpark) hfree hequipped hcreated hidle⟩
    simp only [Option.toList_some, List.map_cons, List.map_nil, run_cons, hpark, Option.bind_some,
      run_nil]

/-- A `create_group` has tested its flag and has the lock; a `leave_group` has just begun. -/
def createAndLeave : List Label :=
  .thread 0 (.call (.createGroup 1 "raft")) ::
    List.replicate 6 (.thread 0 (.go { created := .stateMgr 10 })) ++
    [.test (.thread 0), .thread 1 (.call (.leaveGroup 1))]

/-- The `leave_group` cannot go on, but ends as soon as the other one has blocked. -/
theorem leave_ends_in_createAndLeave :
    ∃ s s₀, run (step sampleNode) (start ["raft"]) createAndLeave = some s ∧
      step sampleNode s (.thread 1 (.go {})) = none ∧
      run (step sampleNode) s [.park (.thread 0)] = some s₀ ∧ Ends sampleNode 1 {} 10 s₀ := by
  obtain ⟨s, hrun, hstuck, hpc, hholder, hentries⟩ : ∃ s,
      run (step sampleNode) (start ["raft"]) createAndLeave = some s ∧
      step sampleNode s (.thread 1 (.go {})) = none ∧ s.config.threads 1 = .leaveCheck 1 ∧
      s.cond.holder = some (.thread 0) ∧
      s.config.shared.stateManagers = PartialMap.emplace (fun _ => none) 1 (some 10) :=
    ⟨_, rfl, rfl, rfl, rfl, rfl⟩
  have hequipped : Equipped s.config.shared (s.config.threads 1) := by
    rw [hpc]
    refine ⟨fun g hnull => ?_, fun _ _ => Pc.noConfusion, fun _ hmessage => ?_,
      fun _ _ => Pc.noConfusion⟩
    · rw [hentries] at hnull
      rcases PartialMap.eq_some_of_emplace_eq_some hnull with hold | ⟨-, -, hnew⟩
      · cases hold
      · cases hnew
    · cases hmessage
  have hidle : s.config.threads 1 ≠ .idle := by
    rw [hpc]
    exact Pc.noConfusion
  have hend := operations_end (a := {}) hrun hequipped Created.noConfusion hidle
  rw [hholder, hpc] at hend
  obtain ⟨s₀, hpark, hends⟩ := hend
  exact ⟨s, s₀, hrun, hstuck, hpark, hends⟩

end NuraftMesg.Manager.Waiting
