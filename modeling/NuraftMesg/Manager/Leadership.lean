import NuraftMesg.Manager.Joins

/-!
# Success on the strength of a leadership flag

`create_group` and `become_leader` succeed when they read `_is_leader[g]` as true.
The flag is written by Raft events and survives the group: `leave_group` does not
touch it and `create_group` inserts it only where it is absent. A history variable
records the latest leadership event since the current server was registered; the
flag can be trusted as long as no server goes while its flag is up and no event
raises the flag of a group without a server.
-/

namespace NuraftMesg.Manager

variable {node : Node} {g : GroupId} {t : ℕ} {r r' : Registry} {pc pc' : Pc} {input : Input}

/-- For each group, what the latest leadership event since the registration of
its current server said. -/
abbrev Ledger := GroupId → Option Bool

/-- Keep the ledger: it starts afresh when the entry of a group changes. -/
def observe (c : Config) (l : Label) (c' : Config) (ledger : Ledger) : Ledger := fun g =>
  if c'.shared.raftServers g = c.shared.raftServers g then
    match l with
    | .env (.raftEvent g' event) => if g' = g then event.leads.or (ledger g) else ledger g
    | _ => ledger g
  else none

/-- The node together with the ledger. -/
def trackedStep (node : Node) : Config × Ledger → Label → Option (Config × Ledger) :=
  Transition.track (step node) observe

/-- A node that has just started, and no event yet. -/
def trackedStart (types : List GroupType) : Config × Ledger := (start types, fun _ => none)

/-- In this step a thread reads the flag of the group and resolves to success. -/
def Succeeds (g : GroupId) (c : Config) (l : Label) (c' : Config) : Prop :=
  ∃ t around, l = .thread t (.go around) ∧
    (c.threads t = .createWait g ∧ c'.threads t = .done (.created g) ∨
      (c.threads t = .becomeRead g ∨ c.threads t = .becomeWait g) ∧
        c'.threads t = .done (.leads g))

/-- The condition on a step: the server of the group is not unregistered while the
flag of the group is true, and an event that raises the flag finds a server. -/
def FlagFollowsServer (g : GroupId) (c : Config) : Label → Prop
  | .thread t _ => (c.threads t).unregisters = some g → c.shared.raftServers g ≠ none →
      c.shared.isLeader g ≠ some true
  | .env (.raftEvent g' event) => g' = g → event.leads = some true → c.shared.raftServers g ≠ none
  | .env (.registerMgrType _) => True

instance (g : GroupId) (c : Config) : ∀ l, Decidable (FlagFollowsServer g c l)
  | .thread _ _ => inferInstanceAs (Decidable (_ → _ → _))
  | .env (.raftEvent _ _) => inferInstanceAs (Decidable (_ → _ → _))
  | .env (.registerMgrType _) => inferInstanceAs (Decidable True)

/-- A step of a thread that leaves the entry of the group alone leaves its line
in the ledger alone. -/
theorem observe_thread {c c' : Config} {ledger : Ledger}
    (hentry : c'.shared.raftServers g = c.shared.raftServers g) :
    observe c (.thread t input) c' ledger g = ledger g :=
  if_pos hentry

/-- An event goes into the ledger if it says anything about the leadership. -/
theorem observe_raftEvent {c c' : Config} {ledger : Ledger} {g' : GroupId} {event : RaftEvent}
    (hentry : c'.shared.raftServers g = c.shared.raftServers g) :
    observe c (.env (.raftEvent g' event)) c' ledger g =
      if g' = g then event.leads.or (ledger g) else ledger g :=
  if_pos hentry

/-- A flag that is up belongs to the registered server. -/
def Trusted (g : GroupId) (c : Config) (ledger : Ledger) : Prop :=
  c.shared.isLeader g = some true → (c.shared.raftServers g).isSome ∧ ledger g = some true

/-- One step of a thread leaves a trusted flag alone. -/
theorem Trusted.thread {c c' : Config} {ledger : Ledger} (htrusted : Trusted g c ledger)
    (hcond : FlagFollowsServer g c (.thread t input))
    (hstep : step node c (.thread t input) = some c') :
    Trusted g c' (observe c (.thread t input) c' ledger) := by
  obtain ⟨r', pc', hexec, rfl⟩ := Interleaving.step_thread hstep
  have hmove := moves_of_exec hexec
  intro hflag
  have hold := hmove.isLeader hflag
  obtain ⟨hsome, hledger⟩ := htrusted hold
  obtain ⟨i, hi⟩ := Option.isSome_iff_exists.mp hsome
  have hi' : r'.raftServers g = some i := by
    refine hmove.raftServers_kept hi fun hunregisters => ?_
    exact hcond hunregisters (by rw [hi]; exact Option.some_ne_none i) hold
  rw [observe_thread (hi'.trans hi.symm)]
  exact ⟨Option.isSome_iff_exists.mpr ⟨i, hi'⟩, hledger⟩

/-- One Raft event: it raises the flag of a group with a server, or it leaves a
trusted flag alone. -/
theorem Trusted.raftEvent {c c' : Config} {ledger : Ledger} {g' : GroupId} {event : RaftEvent}
    (htrusted : Trusted g c ledger) (hcond : FlagFollowsServer g c (.env (.raftEvent g' event)))
    (hstep : step node c (.env (.raftEvent g' event)) = some c') :
    Trusted g c' (observe c (.env (.raftEvent g' event)) c' ledger) := by
  obtain ⟨r', hdeliver, rfl⟩ := Interleaving.step_env hstep
  have hentry : r'.raftServers g = c.shared.raftServers g := by rw [(deliver_frame hdeliver).1]
  cases hdeliver
  intro hflag
  rw [observe_raftEvent hentry]
  change ((c.shared.genericRaftEventHandler g' event).raftServers g).isSome ∧ _
  rw [hentry]
  cases hleads : event.leads with
  | none =>
    have hflag : c.shared.isLeader g = some true := by
      simpa [Registry.genericRaftEventHandler, hleads] using hflag
    obtain ⟨hsome, hledger⟩ := htrusted hflag
    exact ⟨hsome, by simp [hledger]⟩
  | some leads =>
    have hflag : c.shared.isLeader.assign g' leads g = some true := by
      simpa [Registry.genericRaftEventHandler, hleads] using hflag
    by_cases hg : g' = g
    · subst hg
      obtain rfl : leads = true := by simpa using hflag
      exact ⟨Option.isSome_iff_ne_none.mpr (hcond rfl hleads), by simp⟩
    · rw [PartialMap.assign_of_ne (Ne.symm hg)] at hflag
      rw [if_neg hg]
      exact htrusted hflag

/-- One step of the node with its ledger. -/
theorem Trusted.step {s s' : Config × Ledger} {l : Label} (htrusted : Trusted g s.1 s.2)
    (hcond : FlagFollowsServer g s.1 l) (hstep : trackedStep node s l = some s') :
    Trusted g s'.1 s'.2 := by
  obtain ⟨hnext, hledger⟩ := Transition.track_eq_some.mp hstep
  rw [hledger]
  cases l with
  | thread t input => exact htrusted.thread hcond hnext
  | env event =>
    cases event with
    | raftEvent g' event => exact htrusted.raftEvent hcond hnext
    | registerMgrType ty =>
      obtain ⟨r', hdeliver, hc'⟩ := Interleaving.step_env hnext
      cases hdeliver
      rw [hc']
      intro hflag
      obtain ⟨hsome, hold⟩ := htrusted hflag
      exact ⟨hsome, (if_pos rfl).trans hold⟩

/-- A thread that resolves to success read the flag as true. -/
theorem Succeeds.flag {c c' : Config} {l : Label} (hsucceeds : Succeeds g c l c')
    (hstep : Manager.step node c l = some c') : c.shared.isLeader g = some true := by
  obtain ⟨t, around, rfl, hpcs⟩ := hsucceeds
  obtain ⟨r', pc', hexec, rfl⟩ := Interleaving.step_thread hstep
  have hmove := moves_of_exec hexec
  simp only [Function.update_self] at hpcs
  rcases hpcs with ⟨hpc, rfl⟩ | ⟨hpc | hpc, rfl⟩ <;> rw [hpc] at hmove <;> cases hmove <;>
    assumption

/-- In every run in which the flag of the group follows its server: a
`create_group` or `become_leader` that resolves to success reads the flag while the
group has a registered server and the latest leadership event since its
registration said that this node leads the group. -/
theorem success_of_current_leader {types : List GroupType} {labels : List Label}
    {c c' : Config} {ledger : Ledger} {l : Label}
    (hrun : Transition.run (trackedStep node) (trackedStart types) labels = some (c, ledger))
    (hfollows : Transition.Meets (trackedStep node) (fun s => FlagFollowsServer g s.1)
      (trackedStart types) labels)
    (hstep : step node c l = some c') (hsucceeds : Succeeds g c l c') :
    (c.shared.raftServers g).isSome ∧ ledger g = some true := by
  have htrusted := Transition.run_invariant_of_meets (I := fun s => Trusted g s.1 s.2)
    (fun _ _ _ htrusted hcond hstep => htrusted.step hcond hstep)
    (fun hflag => by cases hflag) hfollows hrun
  exact htrusted (hsucceeds.flag hstep)

/-- A single `create_group`, up to the return of its `joinRaftGroup`. -/
def soleJoin : List Label := .thread 0 (.call (.createGroup 1 "raft")) :: goes 0 6 10

/-- A `create_group` whose server is elected while the call waits. -/
def createAndLead : List Label := soleJoin ++ [.env (.raftEvent 1 .becomeLeader)]

/-- The waiting `create_group` succeeds because this node leads the group. -/
theorem success_of_createAndLead :
    ∃ c c' ledger, Transition.run (trackedStep sampleNode) (trackedStart ["raft"]) createAndLead =
        some (c, ledger) ∧
      step sampleNode c (.thread 0 (.go {})) = some c' ∧
      Succeeds 1 c (.thread 0 (.go {})) c' ∧
      (c.shared.raftServers 1).isSome ∧ ledger 1 = some true := by
  obtain ⟨c, c', ledger, hrun, hstep, hsucceeds⟩ : ∃ c c' ledger,
      Transition.run (trackedStep sampleNode) (trackedStart ["raft"]) createAndLead =
        some (c, ledger) ∧
      step sampleNode c (.thread 0 (.go {})) = some c' ∧ Succeeds 1 c (.thread 0 (.go {})) c' :=
    ⟨_, _, _, rfl, rfl, 0, {}, rfl, Or.inl ⟨rfl, rfl⟩⟩
  exact ⟨c, c', ledger, hrun, hstep, hsucceeds,
    success_of_current_leader hrun (by decide) hstep hsucceeds⟩

/-- The group is created and led, the call returns, and the node leaves the group. -/
def leadAndLeave : List Label :=
  createAndLead ++ goes 0 1 0 ++ .thread 1 (.call (.leaveGroup 1)) :: goes 1 6 0 ++
    [.thread 2 (.call (.becomeLeader 1))]

/-- A `become_leader` for the group that was left succeeds on the old flag. -/
theorem success_without_server :
    ∃ c c' ledger, Transition.run (trackedStep sampleNode) (trackedStart ["raft"]) leadAndLeave =
        some (c, ledger) ∧
      step sampleNode c (.thread 2 (.go {})) = some c' ∧
      Succeeds 1 c (.thread 2 (.go {})) c' ∧
      c.threads 1 = .done (.left 1) ∧ c.shared.raftServers 1 = none :=
  ⟨_, _, _, rfl, rfl, ⟨2, {}, rfl, Or.inr ⟨Or.inl rfl, rfl⟩⟩, rfl, rfl⟩

end NuraftMesg.Manager
