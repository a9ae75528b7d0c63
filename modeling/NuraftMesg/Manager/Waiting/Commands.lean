import NuraftMesg.Manager.Waiting

/-!
# What becomes of a command

`add_member`, `rem_member` and `append_entries` hand a command to the server of the group
and pass its result on. The expression that issues the command is the argument of a macro
that evaluates it a second time when the first result has no code yet: then the server
gets the same command twice, and only the second one is waited for. This file relates the
result of a command to the calls that were made for it, and for `add_member` to what the
last look at the configuration showed.
-/

namespace NuraftMesg.Manager.Waiting

open Monitor Transition

/-! ## The result of the service -/

/-- The result of the future that the service returns, given the calls that were made and what
the handler was called with. -/
inductive Future (command : Command) : List Call → Option CmdResultCode → CmdResultCode → Prop
  /-- The group has no server. -/
  | notFound : Future command [] none .serverNotFound
  /-- The first result has its code. -/
  | code (server code) : Future command [⟨server, command, .result code⟩] none code
  | threw (server) : Future command [⟨server, command, .throws⟩] none .serverNotFound
  /-- The first result has no code, and the command is issued again. -/
  | threwAgain (server) : Future command
      [⟨server, command, .pending⟩, ⟨server, command, .throws⟩] none .serverNotFound
  | atOnce (server code) : Future command
      [⟨server, command, .pending⟩, ⟨server, command, .result code⟩] (some code) code
  | later (server code) : Future command
      [⟨server, command, .pending⟩, ⟨server, command, .pending⟩] (some code) code

/-- How the calls of a command and its program counter go together. -/
def Tracks : CommandPc → List Call → Option CmdResultCode → Prop
  | .idle, calls, handled | .find _ _, calls, handled | .first _ _ _, calls, handled =>
    calls = [] ∧ handled = none
  | .second _ server command, calls, handled =>
    calls = [⟨server, command, .pending⟩] ∧ handled = none
  | .awaiting _ command, calls, handled =>
    (∃ server, calls = [⟨server, command, .pending⟩, ⟨server, command, .pending⟩]) ∧ handled = none
  | .waiting _ id endpoint, calls, handled => Future (.addSrv id endpoint) calls handled .ok
  | .done _ command code, calls, handled =>
    Future command calls handled code ∨ ∃ id endpoint, command = .addSrv id endpoint ∧
      code = .cancelled ∧ Future command calls handled .ok

/-- The ways in which a step concerns command `k`: the label, its place, its calls and what its
handler got, before and after. -/
inductive CommandMoves (s : State) (k : ℕ) :
    Label → CommandPc → CommandPc → List Call → Option CmdResultCode → Prop
  | start (g command) : CommandMoves s k (.command k g command) .idle (.find g command)
      (s.calls k) (s.handled k)
  | found (g command server) (hserver : s.config.shared.raftServers g = some server) :
      CommandMoves s k (.find k) (.find g command) (.first g server command) (s.calls k)
        (s.handled k)
  | notFound (g command) (hserver : s.config.shared.raftServers g = none) :
      CommandMoves s k (.find k) (.find g command) (.done g command .serverNotFound) (s.calls k)
        (s.handled k)
  | first (g server command issued) : CommandMoves s k (.issue k issued)
      (.first g server command) (.afterFirst g server command issued)
      (s.calls k ++ [⟨server, command, issued⟩]) (s.handled k)
  | second (g server command issued) : CommandMoves s k (.issue k issued)
      (.second g server command) (.afterSecond g command issued)
      (s.calls k ++ [⟨server, command, issued⟩]) issued.code
  | complete (g command code) : CommandMoves s k (.complete k code) (.awaiting g command)
      (command.settle g code) (s.calls k) (some code)
  | test (g id endpoint) : CommandMoves s k (.test (.command k)) (.waiting g id endpoint)
      (afterTest g id endpoint (endpoint ∈ s.srvConfigAll g) (s.cond.expired (.command k)))
      (s.calls k) (s.handled k)

variable {node : Node} {s s' : State} {l : Label} {g : GroupId} {k : ℕ} {command : Command}
  {code : CmdResultCode} {types : List GroupType} {labels : List Label}

/-- A future that has its value, for `add_member` before it waits. -/
theorem tracks_settle {calls : List Call} {handled : Option CmdResultCode} (g : GroupId)
    (hfuture : Future command calls handled code) :
    Tracks (command.settle g code) calls handled := by
  cases command with
  | addSrv id endpoint =>
    by_cases hok : code = .ok
    · subst hok
      exact hfuture
    · simp only [Command.settle, if_neg hok]
      exact Or.inl hfuture
  | remSrv id => exact Or.inl hfuture
  | appendEntries logs => exact Or.inl hfuture

/-- The first evaluation. -/
theorem tracks_afterFirst (g : GroupId) (server : ℕ) (command : Command) (issued : Issued) :
    Tracks (.afterFirst g server command issued) [⟨server, command, issued⟩] none := by
  cases issued with
  | throws => exact Or.inl (.threw server)
  | result code => exact tracks_settle g (.code server code)
  | pending => exact ⟨rfl, rfl⟩

/-- The second evaluation. -/
theorem tracks_afterSecond (g : GroupId) (server : ℕ) (command : Command) (issued : Issued) :
    Tracks (.afterSecond g command issued)
      [⟨server, command, .pending⟩, ⟨server, command, issued⟩] issued.code := by
  cases issued with
  | throws => exact Or.inl (.threwAgain server)
  | result code => exact tracks_settle g (.atOnce server code)
  | pending => exact ⟨⟨server, rfl⟩, rfl⟩

/-! ## One command in a step -/

/-- In a step a command stays where it is or moves by a rule. -/
theorem command_of_step (hstep : step node s l = some s') (k : ℕ) :
    s'.commands k = s.commands k ∧ s'.calls k = s.calls k ∧ s'.handled k = s.handled k ∨
      CommandMoves s k l (s.commands k) (s'.commands k) (s'.calls k) (s'.handled k) := by
  -- A step of command `k'` concerns only that one.
  have hcommand : ∀ {k' : ℕ} {pc : CommandPc}, k ≠ k' →
      (s.setCommand k' pc).commands k = s.commands k := fun hne => Function.update_of_ne hne ..
  have hcalls : ∀ {k' : ℕ} {call : Call}, k ≠ k' →
      (s.addCall k' call).calls k = s.calls k := fun hne => Function.update_of_ne hne ..
  have hhandled : ∀ {k' : ℕ} {code : Option CmdResultCode}, k ≠ k' →
      (s.handle k' code).handled k = s.handled k := fun hne => Function.update_of_ne hne ..
  cases takes_of_step hstep with
  | testCommand k' g id endpoint cond hwaits =>
    by_cases hk : k = k'
    · subst hk
      simp only [State.setCommand, Function.update_self, hwaits]
      exact Or.inr (.test g id endpoint)
    · exact Or.inl ⟨hcommand hk, rfl, rfl⟩
  | command k' g command hidle =>
    by_cases hk : k = k'
    · subst hk
      simp only [State.setCommand, Function.update_self, hidle]
      exact Or.inr (.start g command)
    · exact Or.inl ⟨hcommand hk, rfl, rfl⟩
  | found k' g command server hfind hserver =>
    by_cases hk : k = k'
    · subst hk
      simp only [State.setCommand, Function.update_self, hfind]
      exact Or.inr (.found g command server hserver)
    · exact Or.inl ⟨hcommand hk, rfl, rfl⟩
  | notFound k' g command hfind hserver =>
    by_cases hk : k = k'
    · subst hk
      simp only [State.setCommand, Function.update_self, hfind]
      exact Or.inr (.notFound g command hserver)
    · exact Or.inl ⟨hcommand hk, rfl, rfl⟩
  | first k' g server command issued hfirst =>
    by_cases hk : k = k'
    · subst hk
      simp only [State.setCommand, State.addCall, Function.update_self, hfirst]
      exact Or.inr (.first g server command issued)
    · exact Or.inl ⟨hcommand hk, hcalls hk, rfl⟩
  | second k' g server command issued hsecond =>
    by_cases hk : k = k'
    · subst hk
      simp only [State.setCommand, State.addCall, State.handle, Function.update_self, hsecond]
      exact Or.inr (.second g server command issued)
    · exact Or.inl ⟨hcommand hk, hcalls hk, hhandled hk⟩
  | complete k' g command code hawaiting =>
    by_cases hk : k = k'
    · subst hk
      simp only [State.setCommand, State.handle, Function.update_self, hawaiting]
      exact Or.inr (.complete g command code)
    · exact Or.inl ⟨hcommand hk, rfl, hhandled hk⟩
  | _ => exact Or.inl ⟨rfl, rfl, rfl⟩

/-- The calls keep up with the program counter. -/
theorem CommandMoves.tracks {pc pc' : CommandPc} {calls : List Call}
    {handled : Option CmdResultCode} (hmoves : CommandMoves s k l pc pc' calls handled)
    (hs : Tracks pc (s.calls k) (s.handled k)) : Tracks pc' calls handled := by
  cases hmoves with
  | start g command => exact hs
  | found g command server hserver => exact hs
  | notFound g command hserver =>
    obtain ⟨hcalls, hhandled⟩ := hs
    rw [hcalls, hhandled]
    exact Or.inl .notFound
  | first g server command issued =>
    obtain ⟨hcalls, hhandled⟩ := hs
    rw [hcalls, hhandled]
    exact tracks_afterFirst g server command issued
  | second g server command issued =>
    rw [hs.1]
    exact tracks_afterSecond g server command issued
  | complete g command code =>
    obtain ⟨⟨server, hcalls⟩, -⟩ := hs
    rw [hcalls]
    exact tracks_settle g (.later server code)
  | test g id endpoint =>
    unfold afterTest
    split
    · exact Or.inl hs
    · split
      · exact Or.inr ⟨id, endpoint, rfl, rfl, hs⟩
      · exact hs

theorem tracks_of_run (hrun : run (step node) (start types) labels = some s) (k : ℕ) :
    Tracks (s.commands k) (s.calls k) (s.handled k) := by
  have hstart : Tracks ((start types).commands k) ((start types).calls k)
      ((start types).handled k) := ⟨rfl, rfl⟩
  refine run_invariant (I := fun s : State => Tracks (s.commands k) (s.calls k) (s.handled k))
    ?_ hstart hrun
  intro s l s' hs hstep
  rcases command_of_step hstep k with ⟨hpc, hcalls, hhandled⟩ | hmoves
  · rwa [hpc, hcalls, hhandled]
  · exact hmoves.tracks hs

/-- A command is issued at most twice, and twice exactly if its first result had no code when it
was looked at. Both calls are the same command on the same server. -/
theorem Future.calls {calls : List Call} {handled : Option CmdResultCode}
    (hfuture : Future command calls handled code) :
    calls = [] ∨ (∃ server issued, issued ≠ .pending ∧ calls = [⟨server, command, issued⟩]) ∨
      ∃ server issued,
        calls = [⟨server, command, .pending⟩, ⟨server, command, issued⟩] := by
  cases hfuture with
  | notFound => exact Or.inl rfl
  | code server code => exact Or.inr (Or.inl ⟨server, _, Issued.noConfusion, rfl⟩)
  | threw server => exact Or.inr (Or.inl ⟨server, _, Issued.noConfusion, rfl⟩)
  | threwAgain server => exact Or.inr (Or.inr ⟨server, _, rfl⟩)
  | atOnce server code => exact Or.inr (Or.inr ⟨server, _, rfl⟩)
  | later server code => exact Or.inr (Or.inr ⟨server, _, rfl⟩)

/-- A success is the success of the last call. -/
theorem Future.last {calls : List Call} {handled : Option CmdResultCode}
    (hfuture : Future command calls handled .ok) :
    ∃ call, calls.getLast? = some call ∧
      (call.issued = .result .ok ∨ call.issued = .pending ∧ handled = some .ok) := by
  generalize hcode : CmdResultCode.ok = code at hfuture
  cases hfuture with
  | notFound => cases hcode
  | threw server => cases hcode
  | threwAgain server => cases hcode
  | code server code => exact ⟨_, rfl, Or.inl rfl⟩
  | atOnce server code => exact ⟨_, rfl, Or.inl rfl⟩
  | later server code => exact ⟨_, rfl, Or.inr ⟨rfl, rfl⟩⟩

/-- What a command that has come to its end reports, in every run. A command is issued not at all,
once, or, if the first result had no code yet, twice: the same command on the same server. The
code is that of the last call, or `SERVER_NOT_FOUND` if there was no server or an exception, and
only `add_member` can turn a success into `CANCELLED`. In particular a success is the success of
the last call, and nothing depends on the result of the first of two calls. -/
theorem commands_resolved (hrun : run (step node) (start types) labels = some s)
    (hdone : s.commands k = .done g command code) :
    ∃ future, Future command (s.calls k) (s.handled k) future ∧
      (code = future ∨
        (∃ id endpoint, command = .addSrv id endpoint) ∧ future = .ok ∧ code = .cancelled) ∧
      (s.calls k = [] ∨
        (∃ server issued, issued ≠ .pending ∧ s.calls k = [⟨server, command, issued⟩]) ∨
        ∃ server issued,
          s.calls k = [⟨server, command, .pending⟩, ⟨server, command, issued⟩]) ∧
      (code = .ok → ∃ call, (s.calls k).getLast? = some call ∧
        (call.issued = .result .ok ∨ call.issued = .pending ∧ s.handled k = some .ok)) := by
  have htracks := tracks_of_run hrun k
  rw [hdone] at htracks
  rcases htracks with hfuture | ⟨id, endpoint, rfl, rfl, hfuture⟩
  · refine ⟨code, hfuture, Or.inl rfl, hfuture.calls, fun hok => ?_⟩
    subst hok
    exact hfuture.last
  · refine ⟨.ok, hfuture, Or.inr ⟨⟨id, endpoint, rfl⟩, rfl, rfl⟩, hfuture.calls, fun hok => ?_⟩
    cases hok

/-- One entry is appended, and the server takes its time. -/
def appendSlowly : List Label :=
  .thread 0 (.call (.createGroup 1 "raft")) ::
    List.replicate 6 (.thread 0 (.go { created := .stateMgr 10 })) ++
    [.command 0 1 (.appendEntries []), .find 0, .issue 0 .pending, .issue 0 .pending,
      .complete 0 .ok]

/-- It is appended twice. -/
theorem appended_twice :
    ∃ s, run (step sampleNode) (start ["raft"]) appendSlowly = some s ∧
      s.commands 0 = .done 1 (.appendEntries []) .ok ∧
      s.calls 0 =
        [⟨0, .appendEntries [], .pending⟩, ⟨0, .appendEntries [], .pending⟩] ∧
      Future (.appendEntries []) (s.calls 0) (s.handled 0) .ok := by
  obtain ⟨s, hrun, hdone, hcalls⟩ : ∃ s,
      run (step sampleNode) (start ["raft"]) appendSlowly = some s ∧
      s.commands 0 = .done 1 (.appendEntries []) .ok ∧
      s.calls 0 =
        [⟨0, .appendEntries [], .pending⟩, ⟨0, .appendEntries [], .pending⟩] :=
    ⟨_, rfl, rfl, rfl⟩
  obtain ⟨future, hfuture, rfl | ⟨⟨id, endpoint, hadd⟩, -⟩, -⟩ := commands_resolved hrun hdone
  · exact ⟨s, hrun, hdone, hcalls, hfuture⟩
  · cases hadd

/-! ## Adding a member -/

/-- A command that has come to its end stays as it is. -/
theorem done_of_run {code : CmdResultCode} (hdone : s.commands k = .done g command code)
    (hrun : run (step node) s labels = some s') :
    s'.commands k = .done g command code ∧ s'.calls k = s.calls k ∧
      s'.handled k = s.handled k := by
  have hstart : s.commands k = .done g command code ∧ s.calls k = s.calls k ∧
      s.handled k = s.handled k := ⟨hdone, rfl, rfl⟩
  refine run_invariant (I := fun s' : State => s'.commands k = .done g command code ∧
    s'.calls k = s.calls k ∧ s'.handled k = s.handled k) ?_ hstart hrun
  rintro mid l mid' ⟨hpc, hcalls, hhandled⟩ hstep
  rcases command_of_step hstep k with ⟨hpc', hcalls', hhandled'⟩ | hmoves
  · exact ⟨hpc'.trans hpc, hcalls'.trans hcalls, hhandled'.trans hhandled⟩
  · rw [hpc] at hmoves
    cases hmoves

/-- A success of the service leads `add_member` to the wait, not to its end. -/
theorem settle_eq_done {g' : GroupId} {id : Int32} {endpoint : String} {code' : CmdResultCode}
    (hdone : command.settle g' code' = .done g (.addSrv id endpoint) code) :
    command = .addSrv id endpoint ∧ code' = code ∧ code ≠ .ok := by
  cases command with
  | addSrv id' endpoint' =>
    simp only [Command.settle] at hdone
    split at hdone
    · cases hdone
    · next hne =>
      cases hdone
      exact ⟨rfl, rfl, hne⟩
  | remSrv id' => cases hdone
  | appendEntries logs => cases hdone

/-- `add_member` comes to its end with the error of the service or in a test of the
configuration. -/
theorem CommandMoves.added {pc pc' : CommandPc} {calls : List Call}
    {handled : Option CmdResultCode} {id : Int32} {endpoint : String}
    (hmoves : CommandMoves s k l pc pc' calls handled)
    (hs : Tracks pc (s.calls k) (s.handled k))
    (hdone : pc' = .done g (.addSrv id endpoint) code) :
    code ≠ .ok ∧ Future (.addSrv id endpoint) calls handled code ∨
      Future (.addSrv id endpoint) calls handled .ok ∧ l = .test (.command k) ∧
        (code = .ok ∧ endpoint ∈ s.srvConfigAll g ∨
          code = .cancelled ∧ endpoint ∉ s.srvConfigAll g ∧ s.cond.expired (.command k)) := by
  have hnotFound : CmdResultCode.serverNotFound ≠ .ok := by decide
  cases hmoves with
  | start g' command => cases hdone
  | found g' command server hserver => cases hdone
  | notFound g' command hserver =>
    cases hdone
    rw [hs.1, hs.2]
    exact Or.inl ⟨hnotFound, .notFound⟩
  | first g' server command issued =>
    rw [hs.1, hs.2]
    cases issued with
    | throws =>
      cases hdone
      exact Or.inl ⟨hnotFound, .threw server⟩
    | result code' =>
      obtain ⟨rfl, rfl, hne⟩ := settle_eq_done hdone
      exact Or.inl ⟨hne, .code server code'⟩
    | pending => cases hdone
  | second g' server command issued =>
    rw [hs.1]
    cases issued with
    | throws =>
      cases hdone
      exact Or.inl ⟨hnotFound, .threwAgain server⟩
    | result code' =>
      obtain ⟨rfl, rfl, hne⟩ := settle_eq_done hdone
      exact Or.inl ⟨hne, .atOnce server code'⟩
    | pending => cases hdone
  | complete g' command code' =>
    obtain ⟨⟨server, hcalls⟩, -⟩ := hs
    obtain ⟨rfl, rfl, hne⟩ := settle_eq_done hdone
    rw [hcalls]
    exact Or.inl ⟨hne, .later server code'⟩
  | test g' id' endpoint' =>
    unfold afterTest at hdone
    split at hdone
    · next hholds =>
      cases hdone
      exact Or.inr ⟨hs, rfl, Or.inl ⟨rfl, of_decide_eq_true hholds⟩⟩
    · next hholds =>
      split at hdone
      · next hexpired =>
        cases hdone
        exact Or.inr ⟨hs, rfl, Or.inr ⟨rfl, fun hmem => hholds (decide_eq_true hmem), hexpired⟩⟩
      · cases hdone

/-- What the end of an `add_member` tells, in every run. An error of the service is passed on. If
the service reported a success, then `add_member` looked at the configuration of the server that
was registered for the group: it succeeded because the endpoint was there, or its time was over
and the endpoint was still missing when it looked for the last time. A wake-up that is lost, as
the handler of `NewConfig` does not take the lock, makes it late but never wrong. -/
theorem add_member_outcome {id : Int32} {endpoint : String}
    (hrun : run (step node) (start types) labels = some s)
    (hdone : s.commands k = .done g (.addSrv id endpoint) code) :
    code ≠ .ok ∧ Future (.addSrv id endpoint) (s.calls k) (s.handled k) code ∨
      Future (.addSrv id endpoint) (s.calls k) (s.handled k) .ok ∧
        ∃ front back mid, labels = front ++ .test (.command k) :: back ∧
          run (step node) (start types) front = some mid ∧
          (code = .ok ∧ endpoint ∈ mid.srvConfigAll g ∨
            code = .cancelled ∧ endpoint ∉ mid.srvConfigAll g ∧
              mid.cond.expired (.command k)) := by
  obtain ⟨front, l, back, mid, mid', hsplit, hfront, hstep, hbefore, hafter⟩ :=
    exists_moment (Q := fun s : State => s.commands k = .done g (.addSrv id endpoint) code)
      CommandPc.noConfusion hdone hrun
  have hback : run (step node) mid' back = some s := by
    rw [hsplit, run_append, hfront, Option.bind_some, run_cons, hstep] at hrun
    exact hrun
  obtain ⟨-, hcalls, hhandled⟩ := done_of_run hafter hback
  rw [hcalls, hhandled]
  rcases command_of_step hstep k with ⟨hpc, -⟩ | hmoves
  · exact absurd (hpc.symm.trans hafter) hbefore
  · rcases hmoves.added (tracks_of_run hfront k) hafter with herror | ⟨hfuture, rfl, htest⟩
    · exact Or.inl herror
    · exact Or.inr ⟨hfuture, front, back, mid, hsplit, hfront, htest⟩

/-- A member is added; the notification comes between the test of `add_member` and its blocking,
so that it has to wait for its timeout. -/
def addedLate : List Label :=
  .thread 0 (.call (.createGroup 1 "raft")) ::
    List.replicate 6 (.thread 0 (.go { created := .stateMgr 10 })) ++
    [.command 0 1 (.addSrv 5 "peer"), .find 0, .issue 0 (.result .ok), .test (.command 0),
      .reconfigure 1 0 ["peer"], .raftEvent 1 .newConfig, .notifyAll, .park (.command 0),
      .rouse (.command 0) true, .test (.command 0)]

/-- It succeeds all the same. -/
theorem added_after_lost_wakeup :
    ∃ s, run (step sampleNode) (start ["raft"]) addedLate = some s ∧
      s.commands 0 = .done 1 (.addSrv 5 "peer") .ok ∧
      ∃ front back mid, addedLate = front ++ .test (.command 0) :: back ∧
        run (step sampleNode) (start ["raft"]) front = some mid ∧
        "peer" ∈ mid.srvConfigAll 1 := by
  obtain ⟨s, hrun, hdone⟩ : ∃ s,
      run (step sampleNode) (start ["raft"]) addedLate = some s ∧
      s.commands 0 = .done 1 (.addSrv 5 "peer") .ok := ⟨_, rfl, rfl⟩
  refine ⟨s, hrun, hdone, ?_⟩
  rcases add_member_outcome hrun hdone with ⟨hne, -⟩ | ⟨-, front, back, mid, hsplit, hfront, htest⟩
  · exact absurd rfl hne
  · rcases htest with ⟨-, hmem⟩ | ⟨hcode, -⟩
    · exact ⟨front, back, mid, hsplit, hfront, hmem⟩
    · cases hcode

end NuraftMesg.Manager.Waiting
