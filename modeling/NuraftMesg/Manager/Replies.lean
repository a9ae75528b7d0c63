import NuraftMesg.Manager.Joins
import NuraftMesg.Service.Decoding

/-!
# One reply for every message

A received message is replied to in one of two ways. If `raftStep` returns `true`, sisl sends
the reply that it has filled in; if it returns `false`, the task that it has posted calls
`send_response`. Between the check of the message and the lookup of the server a request to
join runs `joinRaftGroup`, and with it the application's code and the constructor of the
server, on the same thread, and nothing there catches an exception. This file records what
one thread does with its message, whatever the registries are and whatever the other threads
do meanwhile.
-/

namespace NuraftMesg.Manager.Replies

open Transition Proto

/-- What `raftStep` and its task have done with a message. -/
structure Effects where
  /-- What `raftStep` returned. -/
  returned : List Bool := []
  /-- What the lookups in `_raft_servers` gave. -/
  found : List (Option ℕ) := []
  /-- The pools to which a task was posted. -/
  posted : List Pool := []
  /-- The calls of `process_req`, each with the server it was made on. -/
  calls : List (ℕ × ReqMsg) := []
  /-- The replies that were sent, by sisl or by `send_response`. -/
  replies : List Reply := []

/-- What a step of the thread adds. -/
def record (r : Registry) (e : Effects) : Pc → Pc → Effects
  -- `return true`: sisl sends the reply
  | .stepCheck _, .done (.answered _ reply) =>
    { e with returned := e.returned ++ [true], replies := e.replies ++ [reply] }
  | .stepFind _ g _, .done (.answered _ reply) =>
    { e with
      returned := e.returned ++ [true]
      found := e.found ++ [r.raftServers g]
      replies := e.replies ++ [reply] }
  -- `asio::post` and `return false`
  | .stepFind _ g _, .stepTask _ _ _ pool =>
    { e with
      returned := e.returned ++ [false]
      found := e.found ++ [r.raftServers g]
      posted := e.posted ++ [pool] }
  -- `execute_step`: `process_req`, then `send_response`
  | .stepTask .., .done (.processed _ _ server req reply) =>
    { e with calls := e.calls ++ [(server, req)], replies := e.replies ++ [reply] }
  | _, _ => e

/-- Keep the record of thread `t`. -/
def observe (t : ℕ) (c : Config) (l : Label) (c' : Config) (e : Effects) : Effects :=
  match l with
  | .thread u _ => if u = t then record c.shared e (c.threads t) (c'.threads t) else e
  | .env _ => e

/-- The node together with the record of thread `t`. -/
def trackedStep (node : Node) (t : ℕ) : Config × Effects → Label → Option (Config × Effects) :=
  track (step node) (observe t)

/-- In `group_init` with a registered type, the state manager of the group is not null, and if
there is none yet then `create_state_mgr` comes back with one; and neither `become_ready`,
`get_state_machine` or `set_manager_impl` nor the constructor of the server throws. -/
def Supplied (r : Registry) (around : Surroundings) : Pc → Prop
  | .joinInit _ g ty => ty ∈ r.stateMgrTypes →
    ((∃ m, r.stateManagers g = some (some m)) ∨
      r.stateManagers g = none ∧ ∃ m, around.created = .stateMgr m) ∧
    around.ready = true ∧ around.construction = .completed
  | _ => True

/-- The condition on a step: thread `t` has its state manager, and no exception leaves its call of
`joinRaftGroup`. -/
def Provided (t : ℕ) (c : Config × Effects) : Label → Prop
  | .thread u (.go around) => u = t → Supplied c.1.shared around (c.1.threads t)
  | _ => True

/-- The message asks this node to join the group. -/
def Joins (node : Node) (msg : RaftGroupMsg) (g : GroupId) : Prop :=
  isJoinRequest msg = true ∧ checkMessage node msg = .ok g

/-- `raftStep` has neither answered nor posted. -/
def Running (node : Node) (msg : RaftGroupMsg) : Pc → Prop
  | .stepCheck msg' => msg' = msg
  | .joinLock caller g _ | .joinFind caller g _ | .joinInit caller g _ | .joinInsert caller g _
  | .joinReturn caller g _ _ => caller = .raftStep msg ∧ Joins node msg g
  | .listenerFind g resume | .listenerErase g resume =>
    resume = .joinRaftGroup (.raftStep msg) ∧ Joins node msg g
  | .stepFind msg' g _ => msg' = msg ∧ checkMessage node msg = .ok g
  | _ => False

/-- The thread works on the message, and its effects are those of one reply in one of the two
ways, as far as it has come. -/
def Served (node : Node) (msg : RaftGroupMsg) (e : Effects) : Pc → Prop
  | .stepTask msg' g server pool =>
    msg' = msg ∧ checkMessage node msg = .ok g ∧ pool = poolFor msg ∧
      e = { returned := [false], found := [some server], posted := [poolFor msg] }
  | .done (.processed msg' g server req reply) =>
    msg' = msg ∧ checkMessage node msg = .ok g ∧ toRequest msg.msg = some req ∧
      e = { returned := [false], found := [some server], posted := [poolFor msg],
            calls := [(server, req)], replies := [reply] }
  | .done (.answered msg' reply) =>
    msg' = msg ∧
      (checkMessage node msg = .error reply.status ∧
          e = { returned := [true], replies := [reply] } ∨
        reply.status = missingGroup msg ∧
          e = { returned := [true], found := [none], replies := [reply] })
  | pc => Running node msg pc ∧ e = {}

/-- How many steps the thread has before it at most. -/
def remaining : Pc → ℕ
  | .stepCheck _ => 10
  | .joinLock .. => 9
  | .joinFind .. => 8
  | .joinInit .. => 7
  | .joinInsert .. => 6
  | .joinReturn .. => 5
  | .listenerFind .. => 4
  | .listenerErase .. => 3
  | .stepFind .. => 2
  | .stepTask .. => 1
  | _ => 0

variable {node : Node} {t : ℕ} {r r' : Registry} {pc pc' : Pc} {input : Input}
  {around : Surroundings} {msg : RaftGroupMsg} {e : Effects} {g : GroupId}

/-! ## One step -/

/-- What is supplied without an exception brings the call to its insertion. -/
theorem aborts_eq_none (hready : around.ready = true)
    (hconstruction : around.construction = .completed) : around.aborts = none := by
  simp only [Surroundings.aborts, hready, hconstruction, if_true]

/-- A step of the thread keeps the effects in line with one reply. -/
theorem Served.moves (hserved : Served node msg e pc) (hsupplied : Supplied r around pc)
    (hmoves : Moves node t r pc (.go around) r' pc') :
    Served node msg (record r e pc pc') pc' := by
  cases hmoves with
  | lock | noDuplicate | initReuse | initCreate | insert | listenerFound => exact hserved
  -- `joinRaftGroup` comes back to `raftStep`, with an error or without
  | lockFailed | duplicate | initRefused | listenerMissing | listenerErase =>
    obtain ⟨⟨rfl, hjoins⟩, rfl⟩ := hserved
    exact ⟨⟨rfl, hjoins.2⟩, rfl⟩
  | «return» caller g server inserted =>
    obtain ⟨⟨rfl, hjoins⟩, rfl⟩ := hserved
    cases (r.endFrame g server inserted).2 with
    | false => exact ⟨⟨rfl, hjoins.2⟩, rfl⟩
    | true => exact ⟨⟨rfl, hjoins⟩, rfl⟩
  | initReuseAborted caller g ty m dies htype hentry haborts =>
    obtain ⟨-, hready, hconstruction⟩ := hsupplied htype
    cases (aborts_eq_none hready hconstruction).symm.trans haborts
  | initCreateAborted caller g ty m dies htype hentry hcreated haborts =>
    obtain ⟨-, hready, hconstruction⟩ := hsupplied htype
    cases (aborts_eq_none hready hconstruction).symm.trans haborts
  | initThrew caller g ty htype hentry hcreated =>
    rcases (hsupplied htype).1 with ⟨m, hm⟩ | ⟨-, m, hm⟩
    · rw [hentry] at hm
      cases hm
    · rw [hcreated] at hm
      cases hm
  | stepRefused msg' status hcheck =>
    obtain ⟨rfl, rfl⟩ := hserved
    exact ⟨rfl, Or.inl ⟨hcheck, rfl⟩⟩
  | stepJoin msg' g hcheck hjoin =>
    obtain ⟨rfl, rfl⟩ := hserved
    exact ⟨⟨rfl, hjoin, hcheck⟩, rfl⟩
  | stepPlain msg' g hcheck =>
    obtain ⟨rfl, rfl⟩ := hserved
    exact ⟨⟨rfl, hcheck⟩, rfl⟩
  | stepFound msg' g joined server hfound =>
    obtain ⟨⟨rfl, hcheck⟩, rfl⟩ := hserved
    refine ⟨rfl, hcheck, rfl, ?_⟩
    simp [record, hfound]
  | stepMissing msg' g joined hnone =>
    obtain ⟨⟨rfl, -⟩, rfl⟩ := hserved
    refine ⟨rfl, Or.inr ⟨rfl, ?_⟩⟩
    simp [record, hnone]
  | stepTask msg' g server pool req reply hexecute =>
    obtain ⟨rfl, hcheck, -, rfl⟩ := hserved
    obtain ⟨req', hdecode, hresult⟩ := Option.map_eq_some_iff.mp hexecute
    cases hresult
    exact ⟨rfl, hcheck, hdecode, rfl⟩
  | _ => exact hserved.1.elim

/-- At the end of its frame the thread has few steps left. -/
theorem remaining_afterListener (dies : Bool) :
    remaining (afterListener dies g (.joinRaftGroup (.raftStep msg))) < 5 := by
  cases dies with
  | false => simp [afterListener, Resume.next, Caller.accepted, remaining]
  | true => simp [afterListener, remaining]

/-- Still less if an exception leaves `joinRaftGroup`. -/
theorem remaining_unwind (dies : Bool) : remaining (afterListener dies g .unwind) < 7 := by
  cases dies with
  | false => simp [afterListener, Resume.next, remaining]
  | true => simp [afterListener, remaining]

/-- Every step of the thread brings it nearer to its end. -/
theorem Served.remaining_lt (hserved : Served node msg e pc)
    (hmoves : Moves node t r pc (.go around) r' pc') : remaining pc' < remaining pc := by
  cases hmoves with
  | lockFailed | duplicate | initRefused =>
    obtain ⟨⟨rfl, -⟩, -⟩ := hserved
    simp [Caller.refused, Caller.accepted, remaining]
  | listenerMissing | listenerErase =>
    obtain ⟨⟨rfl, -⟩, -⟩ := hserved
    simp [Resume.next, Caller.accepted, remaining]
  | «return» caller g server inserted =>
    obtain ⟨⟨rfl, -⟩, -⟩ := hserved
    exact remaining_afterListener _
  | initReuseAborted | initCreateAborted => exact remaining_unwind _
  | lock | noDuplicate | initReuse | initCreate | initThrew | insert | listenerFound
  | stepRefused | stepJoin | stepPlain | stepFound | stepMissing | stepTask => simp [remaining]
  | _ => exact hserved.1.elim

/-- The registries change only between the check of a request to join and the lookup. -/
theorem Served.joins_of_changed (hserved : Served node msg e pc)
    (hmoves : Moves node t r pc input r' pc') (hchanged : r' ≠ r) : ∃ g, Joins node msg g := by
  cases hmoves with
  | initReuse | initCreate | initCreateAborted | initThrew | insert | «return» | listenerErase =>
    exact ⟨_, hserved.1.2⟩
  | call | lock | lockFailed | duplicate | noDuplicate | initRefused | initReuseAborted
  | listenerFound | listenerMissing | stepRefused | stepJoin | stepPlain | stepFound | stepMissing
  | stepTask =>
    exact absurd rfl hchanged
  | _ => exact hserved.1.elim

/-- The status that an answer of `process_req` is sent with. -/
def statusCode : Answer → StatusCode
  | .resp .. => .ok
  | .null => .cancelled
  | .throws => .notFound

/-- The task has one outcome for every answer of `process_req`. -/
theorem advance_stepTask (node : Node) (t : ℕ) (r : Registry) (around : Surroundings)
    (hrequest : ∃ rc, msg.msg.reqResp = some (.rcRequest rc)) (g : GroupId) (server : ℕ)
    (pool : Pool) :
    ∃ req reply, advance node t r around (.stepTask msg g server pool) =
        some (r, .done (.processed msg g server req reply)) ∧
      reply.status.code = statusCode around.answer := by
  obtain ⟨req, hdecode⟩ := (toRequest_isSome_iff msg.msg).mpr hrequest
  simp only [advance, executeStep, hdecode, Option.map_some]
  refine ⟨req, _, rfl, ?_⟩
  cases around.answer <;> rfl

/-- A thread that is not at its end can go on. -/
theorem Served.isSome_advance (hserved : Served node msg e pc)
    (hrequest : ∃ rc, msg.msg.reqResp = some (.rcRequest rc))
    (hsupplied : Supplied r around pc) (hpc : ∀ outcome, pc ≠ .done outcome) :
    (advance node t r around pc).isSome := by
  cases pc with
  | stepCheck msg' =>
    simp only [advance]
    split
    · rfl
    · split <;> rfl
  | joinLock caller g ty =>
    simp only [advance]
    split <;> rfl
  | joinFind caller g ty =>
    simp only [advance]
    split <;> rfl
  | joinInit caller g ty =>
    by_cases htype : ty ∈ r.stateMgrTypes
    · rcases (hsupplied htype).1 with ⟨m, hentry⟩ | ⟨hnone, m, hcreated⟩
      · exact isSome_joinInit (by simp [hentry]) (by simp [hentry])
      · exact isSome_joinInit (by simp [hnone]) (by simp [hcreated])
    · simp [advance, Registry.groupInit, htype]
  | joinInsert caller g server => rfl
  | joinReturn caller g server inserted => rfl
  | listenerFind g resume =>
    simp only [advance]
    split <;> rfl
  | listenerErase g resume => rfl
  | stepFind msg' g joined =>
    simp only [advance]
    split <;> rfl
  | stepTask msg' g server pool =>
    obtain ⟨rfl, -⟩ := hserved
    obtain ⟨req, reply, hadvance, -⟩ := advance_stepTask node t r around hrequest g server pool
    rw [hadvance]
    rfl
  | done outcome => exact absurd rfl (hpc outcome)
  | _ => exact hserved.1.elim

/-! ## Whole runs -/

/-- A step of any thread keeps the effects of thread `t` in line with one reply. -/
theorem served_of_step {c c' : Config × Effects} {l : Label}
    (hserved : Served node msg c.2 (c.1.threads t)) (hprovided : Provided t c l)
    (hstep : trackedStep node t c l = some c') : Served node msg c'.2 (c'.1.threads t) := by
  obtain ⟨hc, he⟩ := track_eq_some.mp hstep
  rw [he]
  cases l with
  | thread u input =>
    obtain ⟨hexec, hothers⟩ := Interleaving.exec_of_step hc
    simp only [observe]
    by_cases hut : u = t
    · subst hut
      rw [if_pos rfl]
      cases input with
      | call op =>
        rw [(exec_call hexec).1] at hserved
        exact hserved.1.elim
      | go around => exact hserved.moves (hprovided rfl) (moves_of_exec hexec)
    · rw [if_neg hut, hothers t (Ne.symm hut)]
      exact hserved
  | env event =>
    obtain ⟨r', -, hc'⟩ := Interleaving.step_env hc
    rw [hc']
    exact hserved

/-- Whatever the registries and the other threads are: in every run in which the thread has its
state manager when it needs one and no exception leaves its call of `joinRaftGroup`, it comes to
its end in at most `remaining` steps of its own.
Either `raftStep` returns `true`, with nothing posted and its own status as the one reply, or it
posts one task to the pool of the message and returns `false`, and the task calls `process_req`
once, on the server that was found for the group, and sends one reply. The registries change
only for a request to join that has passed the check. -/
theorem one_reply {labels : List Label} {c₀ c : Config}
    (hreceived : c₀.threads t = .stepCheck msg)
    (hrequest : ∃ rc, msg.msg.reqResp = some (.rcRequest rc))
    (hrun : run (trackedStep node t) (c₀, {}) labels = some (c, e))
    (hprovided : Meets (trackedStep node t) (Provided t) (c₀, {}) labels) :
    Served node msg e (c.threads t) ∧
    (∀ around, Provided t (c, e) (.thread t (.go around)) →
      (∀ outcome, c.threads t ≠ .done outcome) →
      ∃ c', step node c (.thread t (.go around)) = some c' ∧
        remaining (c'.threads t) < remaining (c.threads t)) ∧
    (∀ g server pool around, c.threads t = .stepTask msg g server pool →
      ∃ c' req reply, step node c (.thread t (.go around)) = some c' ∧
        c'.threads t = .done (.processed msg g server req reply) ∧
        reply.status.code = statusCode around.answer) ∧
    ∀ input c', step node c (.thread t input) = some c' → c'.shared ≠ c.shared →
      ∃ g, Joins node msg g := by
  have hstart : Served node msg {} (c₀.threads t) := by
    rw [hreceived]
    exact ⟨rfl, rfl⟩
  have hserved : Served node msg e (c.threads t) :=
    run_invariant_of_meets (I := fun c => Served node msg c.2 (c.1.threads t))
      (fun _ _ _ hserved hprovided hstep => served_of_step hserved hprovided hstep) hstart
      hprovided hrun
  refine ⟨hserved, ?_, ?_, ?_⟩
  · intro around hnext hpc
    obtain ⟨⟨r', pc'⟩, hadvance⟩ :=
      Option.isSome_iff_exists.mp (hserved.isSome_advance (t := t) hrequest (hnext rfl) hpc)
    refine ⟨_, step_of_advance hadvance, ?_⟩
    simp only [Function.update_self]
    exact hserved.remaining_lt (moves_of_advance hadvance)
  · intro g server pool around hpc
    obtain ⟨req, reply, hadvance, hstatus⟩ :=
      advance_stepTask node t c.shared around hrequest g server pool
    rw [← hpc] at hadvance
    exact ⟨_, req, reply, step_of_advance hadvance, Function.update_self .., hstatus⟩
  · intro input c' hstep hchanged
    obtain ⟨r', pc', hexec, rfl⟩ := Interleaving.step_thread hstep
    exact hserved.joins_of_changed (moves_of_exec hexec) hchanged

/-- A request to join group 1. -/
def joinMessage : RaftGroupMsg where
  groupId := canonicalText.toString 1
  msg := ⟨some ⟨0, MsgType.joinClusterRequest.val.toUInt32, 2, 1⟩, some (.rcRequest ⟨0, 0, 0, []⟩)⟩
  intendedAddr := canonicalText.toString 7
  groupType := "raft"

/-- A node that has just received it. -/
def received : Config :=
  ⟨.init ["raft"], Function.update (fun _ => .idle) 0 (.stepCheck joinMessage)⟩

/-- The node joins, the task is posted, and NuRaft rejects the request. -/
theorem cancelled_after_join :
    ∃ c c' e req reply, run (trackedStep sampleNode 0) (received, {}) (goes 0 7 10) = some (c, e) ∧
      e.returned = [false] ∧ e.found = [some 0] ∧ e.posted = [.raft] ∧ e.replies.length = 0 ∧
      step sampleNode c (.thread 0 (.go {})) = some c' ∧
      c'.threads 0 = .done (.processed joinMessage 1 0 req reply) ∧
      reply.status.code = .cancelled := by
  obtain ⟨c, e, hrun, hpc⟩ : ∃ c e,
      run (trackedStep sampleNode 0) (received, {}) (goes 0 7 10) = some (c, e) ∧
      c.threads 0 = .stepTask joinMessage 1 0 .raft := ⟨_, _, rfl, rfl⟩
  have hprovided : Meets (trackedStep sampleNode 0) (Provided 0) (received, {}) (goes 0 7 10) :=
    .cons rfl (fun _ => trivial) <| .cons rfl (fun _ => trivial) <| .cons rfl (fun _ => trivial) <|
      .cons rfl (fun _ _ => ⟨Or.inr ⟨rfl, 10, rfl⟩, rfl, rfl⟩) <| .cons rfl (fun _ => trivial) <|
      .cons rfl (fun _ => trivial) <| .cons rfl (fun _ => trivial) trivial
  obtain ⟨hserved, -, htask, -⟩ := one_reply rfl ⟨_, rfl⟩ hrun hprovided
  rw [hpc] at hserved
  obtain ⟨-, -, -, rfl⟩ := hserved
  obtain ⟨c', req, reply, hstep, hdone, hstatus⟩ := htask 1 0 .raft {} hpc
  exact ⟨c, c', _, req, reply, hrun, rfl, rfl, rfl, rfl, hstep, hdone, hstatus⟩

/-- `create_state_mgr` throws while the node joins: `raftStep` ends in the exception, with no
value returned, nothing posted and no reply. -/
theorem no_reply_after_createThrows :
    ∃ c e, run (step sampleNode) (start ["raft"]) [.thread 0 (.call (.raftStep joinMessage))] =
        some received ∧
      run (trackedStep sampleNode 0) (received, {})
        (goes 0 3 10 ++ [.thread 0 (.go { created := .throws })]) = some (c, e) ∧
      c.threads 0 = .done (.threw 1) ∧ e.returned = [] ∧ e.posted = [] ∧ e.replies = [] ∧
      c.shared.stateManagers 1 = some none :=
  ⟨_, _, rfl, rfl, rfl, rfl, rfl, rfl, rfl⟩

/-- The same if `become_ready` throws, and if the constructor of the server does; then the listener
dies on the way out. -/
example :
    (∃ c e, run (trackedStep sampleNode 0) (received, {})
        (goes 0 3 10 ++ [.thread 0 (.go { created := .stateMgr 10, ready := false })]) =
          some (c, e) ∧
      c.threads 0 = .done (.threw 1) ∧ e.returned = [] ∧ e.posted = [] ∧ e.replies = []) ∧
    ∃ c e, run (trackedStep sampleNode 0) (received, {})
        (goes 0 3 10 ++ .thread 0 (.go { created := .stateMgr 10, construction := .threw true }) ::
          goes 0 1 10) = some (c, e) ∧
      c.threads 0 = .done (.threw 1) ∧ e.returned = [] ∧ e.posted = [] ∧ e.replies = [] :=
  ⟨⟨_, _, rfl, rfl, rfl, rfl, rfl⟩, _, _, rfl, rfl, rfl, rfl, rfl⟩

end NuraftMesg.Manager.Replies
