import NuraftMesg.Base.Solo
import NuraftMesg.Manager.Joins
import NuraftMesg.Manager.Sequential.Membership

/-!
# Operations one after the other

The threads of the manager refine the abstract machine of `Manager.Sequential.Membership`.
As long as an operation is interrupted by others in its wait only, it does to the registries
what its abstract step does to the membership, comes to its wait or to its end and reports
the verdict; where the abstract step is not defined, the operation gets stuck. The proof
goes through every operation step by step with the rules for a thread that runs alone.
-/

namespace NuraftMesg.Manager.Sequential

open Proto Solo Transition

variable {node : Node} {g : GroupId} {t : ℕ} {r r' : Registry} {m : StateMgrId}

/-! ## One operation -/

/-- What an outcome tells the caller. -/
def verdict : Outcome → Verdict
  | .created _ | .joined _ | .left _ | .leads _ | .reaped _ _ => .ok
  | .createRefused _ code | .joinRefused _ code | .becomeFailed _ code => .failed code
  | .createTimedOut _ => .failed .cancelled
  | .threw _ => .threw
  | .answered _ reply | .processed _ _ _ _ reply => .replied reply

/-- What has become of a thread that is at its end or in its wait. -/
def progress : Pc → Option Progress
  | .done o => some (.ended (verdict o))
  | .createWait g => some (.waits g .cancelled)
  | .becomeWait g => some (.waits g .timeout)
  | _ => none

/-- A caller that finds the flag up does not wait. -/
def settled (r : Registry) : Progress → Bool
  | .ended _ => true
  | .waits g _ => r.isLeader g = some false

/-- A thread that runs alone has come to its end or does nothing but wait. -/
def rests (r : Registry) (pc : Pc) : Option Progress := (progress pc).filter (settled r)

/-- The time of a wait is not over. -/
def patient (a : Surroundings) : Surroundings := { a with expired := false }

/-- Running alone, the thread comes to the given progress and leaves coherent registries that
stand for the given membership; if nothing is given, it gets stuck. -/
abbrev Achieves (node : Node) (t : ℕ) (a : Surroundings) (result : Option (Membership × Progress)) :
    Registry → Pc → Prop :=
  Ends (fun r pc => exec node t r pc (.go (patient a))) rests
    (fun r p => Coherent r ∧ result = some (view r, p)) (result = none)

variable {a : Surroundings} {result : Option (Membership × Progress)} {pc pc' : Pc}
  {caller : Caller} {ty : GroupType} {p : Progress}

/-- What it means to rest. -/
theorem rests_eq_some : rests r pc = some p ↔ progress pc = some p ∧ settled r p = true :=
  Option.filter_eq_some_iff

/-- One step of the thread. -/
theorem achieves_step (hadvance : advance node t r (patient a) pc = some (r', pc'))
    (hrest : Achieves node t a result r' pc') : Achieves node t a result r pc :=
  .step ((exec_go (patient a)).trans hadvance) hrest

/-- The end of the thread. -/
theorem achieves_done {o : Outcome} (h : Coherent r)
    (hresult : result = some (view r, .ended (verdict o))) :
    Achieves node t a result r (.done o) :=
  .rest rfl ⟨h, hresult⟩

/-- A thread gets stuck where the source has no defined behaviour. -/
theorem achieves_stuck (hprogress : progress pc = none)
    (hadvance : advance node t r (patient a) pc = none) (hresult : result = none) :
    Achieves node t a result r pc := by
  refine .stuck ?_ ((exec_go (patient a)).trans hadvance) hresult
  rw [rests, hprogress, Option.filter_none]

/-! ## Becoming a member -/

/-- From `try_emplace` to the return, if the group has no server. -/
theorem achieves_joinInsert (hnone : r.raftServers g = none)
    (hrest : Achieves node t a result (seat r g m) (caller.accepted g)) :
    Achieves node t a result (r.buildServer t g m) (.joinInsert caller g (r.servers g).length) := by
  have hinserted : ((r.buildServer t g m).tryEmplace g (r.servers g).length).2 = true := by
    simp only [Registry.tryEmplace, Registry.buildServer, hnone, Option.isNone_none]
  have hinsert : advance node t (r.buildServer t g m) (patient a)
      (.joinInsert caller g (r.servers g).length) =
      some (((r.buildServer t g m).tryEmplace g (r.servers g).length).1,
        .joinReturn caller g (r.servers g).length true) := by
    simp only [advance, hinserted]
  refine achieves_step hinsert (achieves_step ?_ hrest)
  have hlives : (((r.buildServer t g m).tryEmplace g (r.servers g).length).1.endFrame g
      (r.servers g).length true).2 = false := by
    simp [Registry.endFrame, Registry.tryEmplace]
  simp only [advance, hlives, endFrame_tryEmplace hnone]
  rfl

/-- An exception takes the thread to its end; the listener that dies on the way finds no server of
its group. -/
theorem achieves_unwind (dies : Bool) (h : Coherent r) (hnone : r.raftServers g = none)
    (hresult : result = some (view r, .ended .threw)) :
    Achieves node t a result r (afterListener dies g .unwind) := by
  cases dies with
  | false => exact achieves_done (o := .threw g) h hresult
  | true =>
    have hfind : advance node t r (patient a) (.listenerFind g .unwind) =
        some (r, .done (.threw g)) := by
      simp only [advance, hnone, Option.isSome_none, Bool.false_eq_true, if_false]
      rfl
    exact achieves_step hfind (achieves_done h hresult)

/-- What is left to achieve when `joinRaftGroup` comes back to its caller. -/
def Continues (node : Node) (t : ℕ) (a : Surroundings) (result : Option (Membership × Progress))
    (caller : Caller) (g : GroupId) (r : Registry) : Option Entry → Prop
  | none => result = none
  | some (.accepted s) =>
    ∀ r', Coherent r' → view r' = s → Achieves node t a result r' (caller.accepted g)
  | some (.refused code) => Achieves node t a result r (caller.refused g code)
  | some (.threw s) => result = some (s, .ended .threw)

/-- `group_init` has its state manager; the server is built and registered, unless something
throws. -/
theorem achieves_prepared {r₁ : Registry} (h : Coherent r₁) (hnone : r₁.raftServers g = none)
    (hresult : (r.groupInit g ty a.created a.ready).result = r₁.prepare m a.ready)
    (hrest : Continues node t a result caller g r (some ((view r₁).equip a g))) :
    Achieves node t a result r (.joinInit caller g ty) := by
  unfold Membership.equip at hrest
  cases hend : a.aborts with
  | none =>
    have hadvance : advance node t r (patient a) (.joinInit caller g ty) =
        some (r₁.buildServer t g m, .joinInsert caller g (r₁.servers g).length) := by
      have haborts : (patient a).aborts = none := hend
      rw [advance_prepared (a := patient a) r₁ m hresult, haborts]
    rw [hend] at hrest
    refine achieves_step hadvance (achieves_joinInsert hnone ?_)
    exact hrest _ (h.seat hnone m) (view_seat r₁ g m)
  | some dies =>
    have hadvance : advance node t r (patient a) (.joinInit caller g ty) =
        some (r₁, afterListener dies g .unwind) := by
      have haborts : (patient a).aborts = some dies := hend
      rw [advance_prepared (a := patient a) r₁ m hresult, haborts]
    rw [hend] at hrest
    exact achieves_step hadvance (achieves_unwind dies h hnone hrest)

/-- `group_init` and what follows it, for a group without a server. -/
theorem achieves_joinInit (h : Coherent r) (hnone : r.raftServers g = none)
    (halive : a.managerAlive = true)
    (hrest : Continues node t a result caller g r ((view r).enter node a g ty)) :
    Achieves node t a result r (.joinInit caller g (typeOf node ty)) := by
  have hserves : (view r).serves g = false := by simp only [view, hnone, Option.isSome_none]
  simp only [Membership.enter, halive, if_true, hserves, Bool.false_eq_true, if_false] at hrest
  by_cases htype : typeOf node ty ∈ r.stateMgrTypes
  · have htype' : typeOf node ty ∈ (view r).types := htype
    rw [if_pos htype'] at hrest
    rcases hentry : r.stateManagers g with _ | _ | m
    · have hmanagers : (view r).managers g = none := hentry
      cases hcreated : a.created with
      | stateMgr m =>
        have hkept : Coherent (r.emplaceManager g (some m)) := h.congr rfl rfl
        rw [hmanagers, hcreated] at hrest
        refine achieves_prepared (m := m) hkept hnone ?_ hrest
        rw [hcreated, groupInit_absent a.ready htype hentry]
      | null =>
        rw [hmanagers, hcreated] at hrest
        refine achieves_stuck rfl ?_ hrest
        simp only [advance, Registry.groupInit, if_pos htype, hentry, patient, hcreated]
      | throws =>
        have hinit : advance node t r (patient a) (.joinInit caller g (typeOf node ty)) =
            some (r.emplaceManager g none, .done (.threw g)) := by
          simp only [advance, Registry.groupInit, if_pos htype, hentry, patient, hcreated]
        rw [hmanagers, hcreated] at hrest
        exact achieves_step hinit (achieves_done (h.congr rfl rfl) hrest)
    · have hmanagers : (view r).managers g = some none := hentry
      rw [hmanagers] at hrest
      refine achieves_stuck rfl ?_ hrest
      simp only [advance, Registry.groupInit, if_pos htype, hentry]
    · have hmanagers : (view r).managers g = some (some m) := hentry
      rw [hmanagers] at hrest
      refine achieves_prepared (m := m) h hnone ?_ hrest
      rw [groupInit_stored a.created a.ready htype hentry]
  · have htype' : ¬ typeOf node ty ∈ (view r).types := htype
    have hinit : advance node t r (patient a) (.joinInit caller g (typeOf node ty)) =
        some (r, caller.refused g .serverNotFound) := by
      simp only [advance, Registry.groupInit, if_neg htype]
    rw [if_neg htype'] at hrest
    exact achieves_step hinit hrest

/-- `joinRaftGroup` makes the node a member, unless it is refused or throws. -/
theorem achieves_joinLock (h : Coherent r)
    (hrest : Continues node t a result caller g r ((view r).enter node a g ty)) :
    Achieves node t a result r (.joinLock caller g ty) := by
  cases halive : a.managerAlive with
  | false =>
    have hlock : advance node t r (patient a) (.joinLock caller g ty) =
        some (r, caller.refused g .cancelled) := by
      simp only [advance, patient, halive, Bool.false_eq_true, if_false]
    simp only [Membership.enter, halive, Bool.false_eq_true, if_false] at hrest
    exact achieves_step hlock hrest
  | true =>
    have hlock : advance node t r (patient a) (.joinLock caller g ty) =
        some (r, .joinFind caller g (typeOf node ty)) := by
      simp only [advance, patient, halive, if_true]
      rfl
    refine achieves_step hlock ?_
    cases hserver : r.raftServers g with
    | some i =>
      have hfind : advance node t r (patient a) (.joinFind caller g (typeOf node ty)) =
          some (r, caller.accepted g) := by
        simp only [advance, hserver, Option.isSome_some, if_true]
      have hserves : (view r).serves g = true := by simp only [view, hserver, Option.isSome_some]
      simp only [Membership.enter, halive, if_true, hserves] at hrest
      exact achieves_step hfind (hrest r h rfl)
    | none =>
      have hfind : advance node t r (patient a) (.joinFind caller g (typeOf node ty)) =
          some (r, .joinInit caller g (typeOf node ty)) := by
        simp only [advance, hserver, Option.isSome_none, Bool.false_eq_true, if_false]
      exact achieves_step hfind (achieves_joinInit h hserver halive hrest)

/-! ## Waiting -/

/-- One look at the flag. -/
theorem advance_wait (node : Node) (t : ℕ) (r : Registry) {code : CmdResultCode}
    (hwaits : progress pc = some (.waits g code)) (a : Surroundings) :
    ∃ pc', advance node t r a pc = some (r.insertLeader g, pc') ∧
      progress pc' = some (if (view r).leads g then .ended .ok
        else if a.expired then .ended (.failed code) else .waits g code) := by
  have hflag : (r.readLeader g).2 = (view r).leads g := rfl
  have hread : (r.readLeader g).1 = r.insertLeader g := rfl
  cases pc with
  | createWait | becomeWait =>
    cases hwaits
    simp only [advance, hflag, hread]
    cases (view r).leads g <;> cases a.expired <;> exact ⟨_, rfl, rfl⟩
  | done => cases hwaits
  | _ => cases hwaits

/-- A thread in its wait goes on if the flag is up. -/
theorem achieves_wait {code : CmdResultCode} (h : Coherent r)
    (hwaits : progress pc = some (.waits g code)) :
    Achieves node t a
      (some (view r, if (view r).leads g then .ended .ok else .waits g code)) r pc := by
  by_cases hsettled : r.isLeader g = some false
  · have hleads : (view r).leads g = false := by simp only [view, hsettled, Option.getD_some]
    refine .rest (rests_eq_some.mpr ⟨hwaits, decide_eq_true hsettled⟩) ⟨h, ?_⟩
    simp only [hleads, Bool.false_eq_true, if_false]
  · -- The flag is up, or it is not there yet and this look inserts it.
    obtain ⟨pc', hadvance, hprogress⟩ := advance_wait node t r hwaits (patient a)
    have hexpired : (patient a).expired = false := rfl
    simp only [hexpired, Bool.false_eq_true, if_false] at hprogress
    refine achieves_step hadvance (.rest (rests_eq_some.mpr ⟨hprogress, ?_⟩) ⟨h.congr rfl rfl, ?_⟩)
    · rcases hflag : r.isLeader g with _ | _ | _
      · simp [view, settled, hflag, Registry.insertLeader]
      · exact absurd hflag hsettled
      · simp [view, settled, hflag]
    · rw [view_insertLeader]

/-! ## All operations -/

/-- `create_group`. -/
theorem achieves_createGroup (h : Coherent r) :
    Achieves node t a ((view r).perform node a (.createGroup g ty)) r (.createInsert g ty) := by
  have hinsert : advance node t r (patient a) (.createInsert g ty) =
      some (r.insertLeader g, .joinLock .createGroup g ty) := rfl
  have hr : Coherent (r.insertLeader g) := h.congr rfl rfl
  refine achieves_step hinsert (achieves_joinLock hr ?_)
  simp only [view_insertLeader, Membership.perform]
  rcases (view r).enter node a g ty with _ | s | code | s
  · exact rfl
  · rintro r' hr' rfl
    exact achieves_wait hr' rfl
  · exact achieves_done hr (by rw [view_insertLeader]; rfl)
  · exact rfl

/-- `join_group`. -/
theorem achieves_joinGroup (h : Coherent r) (m : Option StateMgrId) :
    Achieves node t a ((view r).perform node a (.joinGroup g ty m)) r (.joinEmplace g ty m) := by
  have hemplace : advance node t r (patient a) (.joinEmplace g ty m) =
      some (r.emplaceManager g m, .joinLock .joinGroup g ty) := rfl
  have hview : view (r.emplaceManager g m) = (view r).keep g m := rfl
  refine achieves_step hemplace (achieves_joinLock (h.congr rfl rfl) ?_)
  simp only [hview, Membership.perform]
  rcases ((view r).keep g m).enter node a g ty with _ | s | code | s
  · exact rfl
  · rintro r' hr' rfl
    exact achieves_done hr' rfl
  · have hrollback : advance node t (r.emplaceManager g m) (patient a) (.joinRollback g code) =
        some (r.eraseManager g, .done (.joinRefused g code)) := by
      simp only [advance, Registry.eraseManager, Registry.emplaceManager,
        PartialMap.erase_emplace]
    exact achieves_step hrollback (achieves_done (h.congr rfl rfl) rfl)
  · exact rfl

/-- The server of the group, if there is one, is shut down and unregistered. -/
theorem achieves_leaveFind (h : Coherent r)
    (hrest : ∀ r', Coherent r' →
      view r' = { view r with serves := Function.update (view r).serves g false } →
      Achieves node t a result r' (.leaveDestroy g)) :
    Achieves node t a result r (.leaveFind g) := by
  cases hserver : r.raftServers g with
  | none =>
    have hfind : advance node t r (patient a) (.leaveFind g) = some (r, .leaveDestroy g) := by
      simp only [advance, hserver]
    have hserves : Function.update (view r).serves g false = (view r).serves := by
      refine Function.update_eq_self_iff.mpr ?_
      simp only [view, hserver, Option.isSome_none]
    refine achieves_step hfind (hrest r h ?_)
    rw [hserves]
  | some i =>
    have hfind : advance node t r (patient a) (.leaveFind g) = some (r, .leaveShutdown g i) := by
      simp only [advance, hserver]
    obtain ⟨server, hplace, hlistener⟩ := (h.listener g i).mp hserver
    have hdies : (r.shutdownServer g i).2 = true := by
      simp only [Registry.shutdownServer, hplace, Option.any_some, hlistener,
        h.frame g i server hplace, Option.isNone_none, Bool.and_self]
    have hshutdown : advance node t r (patient a) (.leaveShutdown g i) =
        some ((r.shutdownServer g i).1, .listenerFind g .leaveGroup) := by
      simp only [advance, hdies]
      rfl
    have hserver' : (r.shutdownServer g i).1.raftServers g = some i := hserver
    have hfound : advance node t (r.shutdownServer g i).1 (patient a)
        (.listenerFind g .leaveGroup) =
        some ((r.shutdownServer g i).1, .listenerErase g .leaveGroup) := by
      simp only [advance, hserver', Option.isSome_some, if_true]
    have herase : advance node t (r.shutdownServer g i).1 (patient a)
        (.listenerErase g .leaveGroup) = some (vacate r g i, .leaveDestroy g) := rfl
    refine achieves_step hfind (achieves_step hshutdown (achieves_step hfound ?_))
    exact achieves_step herase (hrest _ (h.vacate hserver) (view_vacate r g i))

/-- `leave_group`. -/
theorem achieves_leaveGroup (h : Coherent r) :
    Achieves node t a ((view r).perform node a (.leaveGroup g)) r (.leaveCheck g) := by
  rcases hentry : (view r).managers g with _ | entry
  · have hnone : r.stateManagers g = none := hentry
    have hcheck : advance node t r (patient a) (.leaveCheck g) = some (r, .done (.left g)) := by
      simp only [advance, hnone, Option.isSome_none, Bool.false_eq_true, if_false]
    simp only [Membership.perform, hentry]
    exact achieves_step hcheck (achieves_done h rfl)
  · have hsome : r.stateManagers g = some entry := hentry
    have hcheck : advance node t r (patient a) (.leaveCheck g) = some (r, .leaveFind g) := by
      simp only [advance, hsome, Option.isSome_some, if_true]
    refine achieves_step hcheck (achieves_leaveFind h fun r' hr' hview => ?_)
    have hkept : r'.stateManagers g = some entry :=
      (congrFun (congrArg Membership.managers hview) g).trans hentry
    simp only [Membership.perform, hentry]
    cases entry with
    | none =>
      refine achieves_stuck rfl ?_ rfl
      simp only [advance, Registry.destroyManager, hkept, Option.map_none]
    | some m =>
      have hdestroy : advance node t r' (patient a) (.leaveDestroy g) =
          some ({ r'.eraseManager g with destroyed := r'.destroyed ++ [m] }, .done (.left g)) := by
        simp only [advance, Registry.destroyManager, hkept, Option.map_some]
      refine achieves_step hdestroy (achieves_done (hr'.congr rfl rfl) ?_)
      have hfinal : view { r'.eraseManager g with destroyed := r'.destroyed ++ [m] } =
          { view r' with
            managers := (view r').managers.erase g
            destroyed := (view r').destroyed ++ [m] } := rfl
      rw [hfinal, hview]
      rfl

/-- `become_leader`. -/
theorem achieves_becomeLeader (h : Coherent r) :
    Achieves node t a ((view r).perform node a (.becomeLeader g)) r (.becomeRead g) := by
  have hr : Coherent (r.insertLeader g) := h.congr rfl rfl
  have hview := view_insertLeader r g
  cases hleads : (view r).leads g with
  | true =>
    have hflag : (r.readLeader g).2 = true := hleads
    have hread : advance node t r (patient a) (.becomeRead g) =
        some (r.insertLeader g, .done (.leads g)) := by
      simp only [advance, hflag, if_true]
      rfl
    simp only [Membership.perform, hleads, if_true]
    exact achieves_step hread (achieves_done hr (by rw [hview]; rfl))
  | false =>
    have hflag : (r.readLeader g).2 = false := hleads
    have hread : advance node t r (patient a) (.becomeRead g) =
        some (r.insertLeader g, .becomeRequest g) := by
      simp only [advance, hflag, Bool.false_eq_true, if_false]
      rfl
    refine achieves_step hread ?_
    simp only [Membership.perform, hleads, Bool.false_eq_true, if_false]
    by_cases hasked : ((view r).serves g && a.leadership) = true
    · have hrequest : advance node t (r.insertLeader g) (patient a) (.becomeRequest g) =
          some (r.insertLeader g, .becomeWait g) := if_pos hasked
      have hwait : Achieves node t a (some (view (r.insertLeader g),
          if (view (r.insertLeader g)).leads g then .ended .ok else .waits g .timeout))
          (r.insertLeader g) (.becomeWait g) := achieves_wait hr rfl
      simp only [hview, hleads, Bool.false_eq_true, if_false] at hwait
      rw [if_pos hasked]
      exact achieves_step hrequest hwait
    · have hrequest : advance node t (r.insertLeader g) (patient a) (.becomeRequest g) =
          some (r.insertLeader g, .done (.becomeFailed g .cancelled)) := if_neg hasked
      rw [if_neg hasked]
      exact achieves_step hrequest (achieves_done hr (by rw [hview]; rfl))

/-- The lookup of the server and its task. -/
theorem achieves_stepFind {msg : RaftGroupMsg} {joined : Option CmdResultCode} (h : Coherent r) :
    Achieves node t a ((view r).process a msg g) r (.stepFind msg g joined) := by
  cases hserver : r.raftServers g with
  | none =>
    have hfind : advance node t r (patient a) (.stepFind msg g joined) = some (r, .done
        (.answered msg { status := missingGroup msg, groupId := msg.groupId })) := by
      simp only [advance, hserver]
    have hserves : (view r).serves g = false := by simp only [view, hserver, Option.isSome_none]
    simp only [Membership.process, hserves, Bool.false_eq_true, if_false]
    exact achieves_step hfind (achieves_done h rfl)
  | some i =>
    have hfind : advance node t r (patient a) (.stepFind msg g joined) =
        some (r, .stepTask msg g i (poolFor msg)) := by
      simp only [advance, hserver]
    have hserves : (view r).serves g = true := by simp only [view, hserver, Option.isSome_some]
    simp only [Membership.process, hserves, if_true]
    refine achieves_step hfind ?_
    cases hexecute : executeStep a.beyond msg a.answer with
    | none =>
      refine achieves_stuck rfl ?_ rfl
      simp only [advance, patient, hexecute, Option.map_none]
    | some answered =>
      have htask : advance node t r (patient a) (.stepTask msg g i (poolFor msg)) =
          some (r, .done (.processed msg g i answered.1 answered.2)) := by
        simp only [advance, patient, hexecute, Option.map_some]
      exact achieves_step htask (achieves_done h rfl)

/-- `raftStep` and the task it posts. -/
theorem achieves_raftStep {msg : RaftGroupMsg} (h : Coherent r) :
    Achieves node t a ((view r).perform node a (.raftStep msg)) r (.stepCheck msg) := by
  cases hcheck : checkMessage node msg with
  | error status =>
    have hrefuse : advance node t r (patient a) (.stepCheck msg) =
        some (r, .done (.answered msg { status := status })) := by
      simp only [advance, hcheck]
    simp only [Membership.perform, hcheck]
    exact achieves_step hrefuse (achieves_done h rfl)
  | ok g =>
    cases hjoin : isJoinRequest msg with
    | false =>
      have hfind : advance node t r (patient a) (.stepCheck msg) =
          some (r, .stepFind msg g none) := by
        simp only [advance, hcheck, hjoin, Bool.false_eq_true, if_false]
      simp only [Membership.perform, hcheck, hjoin, Bool.false_eq_true, if_false]
      exact achieves_step hfind (achieves_stepFind h)
    | true =>
      have hlock : advance node t r (patient a) (.stepCheck msg) =
          some (r, .joinLock (.raftStep msg) g msg.groupType) := by
        simp only [advance, hcheck, hjoin, if_true]
      refine achieves_step hlock (achieves_joinLock h ?_)
      simp only [Membership.perform, hcheck, hjoin, if_true]
      rcases (view r).enter node a g msg.groupType with _ | s | code | s
      · exact rfl
      · rintro r' hr' rfl
        exact achieves_stepFind hr'
      · exact achieves_stepFind h
      · exact rfl

/-- The listener of a server that nothing refers to is not there any more. -/
theorem achieves_reap {i : ℕ} (h : Coherent r) (hunreferenced : r.Unreferenced g i) :
    Achieves node t a ((view r).perform node a (.reap g i)) r (.reap g i) := by
  have hlives : (r.shutdownServer g i).2 = false := by
    simp only [Registry.shutdownServer]
    cases hplace : (r.servers g)[i]? with
    | none => rfl
    | some server =>
      cases hlistener : server.listener with
      | true => exact absurd ((h.listener g i).mpr ⟨server, hplace, hlistener⟩) hunreferenced.2
      | false => simp only [Option.any_some, hlistener, Bool.false_and]
  have hreap : advance node t r (patient a) (.reap g i) =
      some ((r.shutdownServer g i).1, .done (.reaped g i)) := by
    simp only [advance, if_pos hunreferenced, hlives]
    rfl
  exact achieves_step hreap (achieves_done (h.shutdownServer hunreferenced.2) rfl)

/-- Nothing refers to a server that is to be destroyed. -/
def Feasible (r : Registry) : Operation → Prop
  | .reap g server => r.Unreferenced g server
  | _ => True

/-- Every operation refines its abstract step. -/
theorem achieves_entry {op : Operation} (h : Coherent r) (hfeasible : Feasible r op) :
    Achieves node t a ((view r).perform node a op) r op.entry := by
  cases op with
  | createGroup g ty => exact achieves_createGroup h
  | joinGroup g ty m => exact achieves_joinGroup h m
  | leaveGroup g => exact achieves_leaveGroup h
  | becomeLeader g => exact achieves_becomeLeader h
  | raftStep msg => exact achieves_raftStep h
  | reap g server => exact achieves_reap h hfeasible

/-! ## One thing after the other -/

/-- A thread is started on the operation and takes `n` steps. -/
def alone (t : ℕ) (op : Operation) (a : Surroundings) (n : ℕ) : List Label :=
  .thread t (.call op) :: List.replicate n (.thread t (.go (patient a)))

/-- The node carries out an item; a request is carried out on thread `t`, up to its end or to its
wait. -/
inductive Carries (node : Node) (c : Config) (t : ℕ) : Item → Config → Prop
  | request {op a n c'} (hrun : run (step node) c (alone t op a n) = some c')
      (hrests : (rests c'.shared (c'.threads t)).isSome) : Carries node c t (.request op a) c'
  | event {event c'} (hstep : step node c (.env event) = some c') :
      Carries node c t (.event event) c'
  | look {u expired g code c'} (hwaits : progress (c.threads u) = some (.waits g code))
      (hstep : step node c (.thread u (.go { expired := expired })) = some c') :
      Carries node c t (.look u expired) c'

/-- The number of threads that an item takes. -/
def Item.requests : Item → ℕ
  | .request _ _ => 1
  | _ => 0

/-- Runs of the node in which a request is carried out on a thread of its own, up to its end or to
its wait, before the next thing happens. -/
inductive Executes (node : Node) : Config → ℕ → List Item → Config → Prop
  | nil (c t) : Executes node c t [] c
  | cons {c c' c'' t item items} (hitem : Carries node c t item c')
      (hrest : Executes node c' (t + item.requests) items c'') :
      Executes node c t (item :: items) c''

/-- The registries stand for the membership, and the threads for the requests. -/
structure Represents (c : Config) (m : Machine) : Prop where
  coherent : Coherent c.shared
  membership : view c.shared = m.membership
  calls : ∀ t, progress (c.threads t) = m.calls[t]?
  idle : ∀ t, m.calls.length ≤ t → c.threads t = .idle

variable {c c' : Config} {machine machine' : Machine} {op : Operation} {n : ℕ} {item : Item}
  {items : List Item}

/-- An event does to the registries what it does to the membership. -/
theorem coherent_deliver {event : External} (h : Coherent r)
    (hdeliver : deliver r event = some r') :
    Coherent r' ∧ view r' = (view r).deliver event := by
  cases event with
  | registerMgrType ty =>
    cases hdeliver
    exact ⟨h.congr rfl rfl, rfl⟩
  | raftEvent g event =>
    cases hdeliver
    simp only [Membership.deliver, Registry.genericRaftEventHandler]
    cases event.leads with
    | none => exact ⟨h, rfl⟩
    | some leads =>
      refine ⟨h.congr rfl rfl, ?_⟩
      have hleads : (view { r with isLeader := r.isLeader.assign g leads }).leads =
          Function.update (view r).leads g leads := by
        funext g'
        simp only [view]
        by_cases hg : g' = g
        · subst hg
          rw [PartialMap.assign_self, Function.update_self]
          rfl
        · rw [PartialMap.assign_of_ne hg, Function.update_of_ne hg]
      exact congrArg (fun leads => { view r with leads := leads }) hleads

/-- A thread at rest stays where it is. -/
theorem rests_stays (hrests : rests r pc = some p)
    (hexec : exec node t r pc (.go (patient a)) = some (r', pc')) : r' = r ∧ pc' = pc := by
  obtain ⟨hprogress, hsettled⟩ := rests_eq_some.mp hrests
  rw [exec_go] at hexec
  cases p with
  | ended v =>
    cases pc with
    | done => cases hexec
    | _ => cases hprogress
  | waits g code =>
    have hflag : r.isLeader g = some false := of_decide_eq_true hsettled
    have hsame : r.insertLeader g = r := by
      simp only [Registry.insertLeader, PartialMap.emplace, hflag, Option.isSome_some, if_true]
    cases pc with
    | createWait | becomeWait =>
      cases hprogress
      simp only [advance, Registry.readLeader, hflag, Option.getD_some, Bool.false_eq_true,
        if_false, patient, hsame, Option.some.injEq, Prod.mk.injEq] at hexec
      exact ⟨hexec.1.symm, hexec.2.symm⟩
    | _ => cases hprogress

/-- A thread that is started on an operation is at its entry. -/
theorem exists_call (hrun : run (step node) c (alone t op a n) = some c') :
    c.threads t = .idle ∧ run (step node) ⟨c.shared, Function.update c.threads t op.entry⟩
      (List.replicate n (.thread t (.go (patient a)))) = some c' := by
  obtain ⟨mid, hcall, hrest⟩ := Option.bind_eq_some_iff.mp hrun
  obtain ⟨r', pc', hexec, rfl⟩ := Interleaving.step_thread hcall
  obtain ⟨hidle, rfl, rfl⟩ := exec_call hexec
  exact ⟨hidle, hrest⟩

/-- A server that was destroyed was one that nothing referred to. -/
theorem feasible_of_run (hrun : run (step node) c (alone t op a n) = some c')
    (hrests : (rests c'.shared (c'.threads t)).isSome) : Feasible c.shared op := by
  cases op with
  | reap g i =>
    obtain ⟨-, hrest⟩ := exists_call hrun
    cases n with
    | zero =>
      cases hrest
      simp [rests, progress, Operation.entry] at hrests
    | succ n =>
      rw [List.replicate_succ] at hrest
      obtain ⟨mid, hstep, -⟩ := Option.bind_eq_some_iff.mp hrest
      obtain ⟨r', pc', hexec, -⟩ := Interleaving.step_thread hstep
      simp only [Function.update_self] at hexec
      cases moves_of_exec hexec with
      | reap g i hunreferenced => exact hunreferenced
  | _ => trivial

/-- What an operation achieves from its entry, as a statement about a configuration. -/
theorem achieves_update (h : Coherent c.shared) (hfeasible : Feasible c.shared op) :
    Achieves node t a ((view c.shared).perform node a op) c.shared
      (Function.update c.threads t op.entry t) := by
  rw [Function.update_self]
  exact achieves_entry h hfeasible

/-- A request that was carried out is one abstract step. -/
theorem perform_of_run (h : Coherent c.shared)
    (hrun : run (step node) c (alone t op a n) = some c')
    (hrests : rests c'.shared (c'.threads t) = some p) :
    Coherent c'.shared ∧ (view c.shared).perform node a op = some (view c'.shared, p) :=
  Ends.of_run (c := ⟨c.shared, Function.update c.threads t op.entry⟩)
    (achieves_update h (feasible_of_run hrun (by rw [hrests]; rfl)))
    (fun _ _ _ _ _ hrests hexec => rests_stays hrests hexec) (exists_call hrun).2 hrests

/-- A new request is added to the others. -/
theorem Represents.request (h : Represents c machine)
    (hrun : run (step node) c (alone machine.calls.length op a n) = some c')
    (hrests : rests c'.shared (c'.threads machine.calls.length) = some p) :
    machine.handle node (.request op a) = some ⟨view c'.shared, machine.calls ++ [p]⟩ ∧
      Represents c' ⟨view c'.shared, machine.calls ++ [p]⟩ := by
  obtain ⟨hcoherent, hperform⟩ := perform_of_run h.coherent hrun hrests
  have hothers : ∀ u, u ≠ machine.calls.length → c'.threads u = c.threads u := by
    intro u hu
    refine Interleaving.threads_eq_of_run hrun fun input hmem => ?_
    simp [alone, hu] at hmem
  rw [h.membership] at hperform
  refine ⟨?_, hcoherent, rfl, fun u => ?_, fun u hu => ?_⟩
  · simp only [Machine.handle, hperform, Option.map_some]
  · by_cases hu : u = machine.calls.length
    · subst hu
      rw [List.getElem?_concat_length]
      exact (rests_eq_some.mp hrests).1
    · rw [hothers u hu, h.calls u]
      rcases Nat.lt_or_gt_of_ne hu with hlt | hgt
      · exact (List.getElem?_append_left hlt).symm
      · rw [List.getElem?_eq_none (by omega), List.getElem?_eq_none (by simp; omega)]
  · simp only [List.length_append, List.length_singleton] at hu
    rw [hothers u (by omega)]
    exact h.idle u (by omega)

/-- One look of a caller that waits. -/
theorem Represents.look {u : ℕ} {expired : Bool} {code : CmdResultCode} (h : Represents c machine)
    (hwaits : progress (c.threads u) = some (.waits g code))
    (hstep : step node c (.thread u (.go { expired := expired })) = some c') :
    ∃ machine', machine.handle node (.look u expired) = some machine' ∧ Represents c' machine' ∧
      machine'.calls.length = machine.calls.length := by
  have hcall : machine.calls[u]? = some (.waits g code) := (h.calls u).symm.trans hwaits
  obtain ⟨pc', hadvance, hprogress⟩ :=
    advance_wait node u c.shared hwaits { expired := expired }
  rw [step_of_advance hadvance] at hstep
  cases hstep
  rw [h.membership] at hprogress
  have hhandle : machine.handle node (.look u expired) = some { machine with
      calls := machine.calls.set u (if machine.membership.leads g then .ended .ok
        else if expired then .ended (.failed code) else .waits g code) } := by
    simp only [Machine.handle, hcall]
  refine ⟨_, hhandle, ⟨h.coherent.congr rfl rfl, ?_, fun v => ?_, fun v hv => ?_⟩,
    List.length_set ..⟩
  · rw [view_insertLeader, h.membership]
  · by_cases hv : v = u
    · subst hv
      simp only [Function.update_self, hprogress]
      rw [List.getElem?_set_self (Cells.lt_of_getElem? hcall)]
    · simp only [Function.update_of_ne hv, h.calls v]
      rw [List.getElem?_set_ne (Ne.symm hv)]
  · simp only [List.length_set] at hv
    have hne : v ≠ u := by
      rintro rfl
      exact absurd (Cells.lt_of_getElem? hcall) (by omega)
    simp only [Function.update_of_ne hne]
    exact h.idle v hv

/-- Whatever the node carries out is a step of the abstract machine. -/
theorem Represents.carries (h : Represents c machine)
    (hcarries : Carries node c machine.calls.length item c') :
    ∃ machine', machine.handle node item = some machine' ∧ Represents c' machine' ∧
      machine'.calls.length = machine.calls.length + item.requests := by
  cases hcarries with
  | request hrun hrests =>
    obtain ⟨p, hrests⟩ := Option.isSome_iff_exists.mp hrests
    obtain ⟨hhandle, hrepresents⟩ := h.request hrun hrests
    exact ⟨_, hhandle, hrepresents, List.length_append ..⟩
  | event hstep =>
    obtain ⟨r', hdeliver, rfl⟩ := Interleaving.step_env hstep
    obtain ⟨hcoherent, hview⟩ := coherent_deliver h.coherent hdeliver
    rw [h.membership] at hview
    exact ⟨_, rfl, ⟨hcoherent, hview, h.calls, h.idle⟩, rfl⟩
  | look hwaits hstep => exact h.look hwaits hstep

/-- The run lemma of the refinement. -/
theorem Represents.executes (h : Represents c machine)
    (hexecutes : Executes node c machine.calls.length items c') :
    ∃ machine', run (Machine.handle node) machine items = some machine' ∧
      Represents c' machine' := by
  generalize ht : machine.calls.length = t at hexecutes
  induction hexecutes generalizing machine with
  | nil => exact ⟨machine, rfl, h⟩
  | cons hitem hrest ih =>
    subst ht
    obtain ⟨mid, hhandle, hmid, hlength⟩ := h.carries hitem
    obtain ⟨machine', hrun, hrepresents⟩ := ih hmid hlength
    refine ⟨machine', ?_, hrepresents⟩
    rw [run_cons, hhandle]
    exact hrun

/-- A group is created; its caller waits until the node leads it. For another group the application
throws, a join is refused because of its type, and the first group is left. -/
def createAndLeave : List Item :=
  [.request (.createGroup 1 "raft") { created := .stateMgr 10 },
    .event (.raftEvent 1 .becomeLeader),
    .request (.createGroup 2 "raft") { created := .throws }, .look 0 false,
    .request (.joinGroup 3 "other" (some 12)) {}, .request (.leaveGroup 1) {}]

end NuraftMesg.Manager.Sequential
