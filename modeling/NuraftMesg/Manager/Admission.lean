import NuraftMesg.Manager.Threads

/-!
# What a node does with a received message

A thread that handles a message carries it through `raftStep`, possibly through
`joinRaftGroup`, and into the task that calls `process_req`. It gets past the first
check only on the node that the message names, with the group that the message names.
-/

namespace NuraftMesg.Manager

open Proto

variable {node : Node} {t u : ℕ} {r r' : Registry} {pc pc' : Pc} {input : Input}
  {msg : RaftGroupMsg} {g : GroupId} {server : ℕ} {types : List GroupType} {labels : List Label}
  {c : Config}

/-! ## The check is passed once and for all -/

/-- The message of a caller, if there is one, has passed the check with this group. -/
def Caller.Admits (node : Node) (g : GroupId) (caller : Caller) : Prop :=
  ∀ msg, caller.message = some msg → checkMessage node msg = .ok g

/-- The same for the message that is handled after the destructor of a listener. -/
def Resume.Admits (node : Node) (g : GroupId) (resume : Resume) : Prop :=
  ∀ msg, resume.message = some msg → checkMessage node msg = .ok g

/-- A thread beyond the check has passed it; an answer of `raftStep` to a message that
fails the check has the status of the check. -/
def Admitted (node : Node) : Pc → Prop
  | .joinLock caller g _ | .joinFind caller g _ | .joinInit caller g _ | .joinInsert caller g _
  | .joinReturn caller g _ _ => caller.Admits node g
  | .listenerFind g resume | .listenerErase g resume => resume.Admits node g
  | .stepFind msg g _ | .stepTask msg g _ _ | .done (.processed msg g _ _ _) =>
    checkMessage node msg = .ok g
  | .done (.answered msg reply) =>
    ∀ status, checkMessage node msg = .error status → reply.status = status
  | _ => True

/-- A thread that comes back to its caller takes the result of the check with it. -/
theorem Landing.admitted {m : Option RaftGroupMsg} (hpc : Landing g m pc)
    (hcheck : ∀ msg, m = some msg → checkMessage node msg = .ok g) : Admitted node pc := by
  cases hpc with
  | stepFind msg code => exact hcheck msg rfl
  | listenerFind resume => exact hcheck
  | _ => trivial

/-- A thread takes the result of its check along. -/
theorem Moves.admitted (hmoves : Moves node t r pc input r' pc') (hpc : Admitted node pc) :
    Admitted node pc' := by
  cases hmoves with
  | call op => cases op <;> trivial
  | createInsert | joinEmplace => exact nofun
  | lock | noDuplicate | initReuse | initCreate | insert | listenerFound => exact hpc
  | lockFailed caller | initRefused caller => exact (caller.landing_refused ..).admitted hpc
  | duplicate caller => exact (caller.landing_accepted _).admitted hpc
  | listenerMissing _ resume | listenerErase _ resume => exact (resume.landing_next _).admitted hpc
  | «return» => exact (landing_afterListener ..).admitted hpc
  | initReuseAborted | initCreateAborted | leaveShutdown | reap =>
    exact (landing_afterListener ..).admitted nofun
  | stepRefused msg status hcheck =>
    intro status' hcheck'
    exact Except.error.inj (hcheck.symm.trans hcheck')
  | stepJoin msg g hcheck =>
    intro msg' hmsg'
    cases hmsg'
    exact hcheck
  | stepPlain msg g hcheck => exact hcheck
  | stepFound => exact hpc
  | stepMissing msg g joined =>
    intro status hcheck
    cases hpc.symm.trans hcheck
  | stepTask => exact hpc
  | _ => trivial

/-- A step of the node keeps what the threads know of their messages. -/
theorem admitted_of_step {l : Label} {c' : Config} (hstep : step node c l = some c')
    (hc : ∀ u, Admitted node (c.threads u)) : ∀ u, Admitted node (c'.threads u) :=
  (Interleaving.step_outline (I := fun _ => True)
    (A := fun _ _ pc => Admitted node pc) hstep hc
    (fun t _ _ _ _ hexec => ⟨trivial, (moves_of_exec hexec).admitted (hc t)⟩)
    (fun _ _ _ _ _ _ _ _ hother => hother)
    (fun _ _ _ _ => ⟨trivial, fun _ hother => hother⟩)).2

/-- In every run the threads beyond the check have passed it. -/
theorem admitted_of_run (hrun : Transition.run (step node) (start types) labels = some c) :
    ∀ u, Admitted node (c.threads u) := by
  have hstart : ∀ u, Admitted node ((start types).threads u) := fun _ => trivial
  exact Transition.run_invariant (I := fun c => ∀ u, Admitted node (c.threads u))
    (fun _ _ _ hc hstep => admitted_of_step hstep hc) hstart hrun

/-! ## A message for another node -/

/-- The message that a thread handles. -/
def Pc.message : Pc → Option RaftGroupMsg
  | .joinLock caller _ _ | .joinFind caller _ _ | .joinInit caller _ _ | .joinInsert caller _ _
  | .joinReturn caller _ _ _ => caller.message
  | .listenerFind _ resume | .listenerErase _ resume => resume.message
  | .stepCheck msg | .stepFind msg _ _ | .stepTask msg _ _ _ | .done (.processed msg _ _ _ _)
  | .done (.answered msg _) => some msg
  | _ => none

/-- A message that fails the check is about to be checked or was answered with the
status of the check. -/
theorem Admitted.of_error {status : Status} (hpc : Admitted node pc) (hmsg : pc.message = some msg)
    (hcheck : checkMessage node msg = .error status) :
    pc = .stepCheck msg ∨ ∃ reply, pc = .done (.answered msg reply) ∧ reply.status = status := by
  cases pc with
  | joinLock | joinFind | joinInit | joinInsert | joinReturn | listenerFind | listenerErase =>
    cases (hpc msg hmsg).symm.trans hcheck
  | stepCheck msg' =>
    cases hmsg
    exact Or.inl rfl
  | stepFind msg' g joined =>
    cases hmsg
    cases hpc.symm.trans hcheck
  | stepTask msg' g server pool =>
    cases hmsg
    cases hpc.symm.trans hcheck
  | done outcome =>
    cases outcome with
    | answered msg' reply =>
      cases hmsg
      exact Or.inr ⟨reply, rfl, hpc status hcheck⟩
    | processed msg' g server req reply =>
      cases hmsg
      cases hpc.symm.trans hcheck
    | _ => cases hmsg
  | _ => cases hmsg

/-- A message that fails the check is answered at once, and nothing else happens. -/
theorem step_of_error {status : Status} (around : Surroundings)
    (hthread : c.threads u = .stepCheck msg) (hcheck : checkMessage node msg = .error status) :
    ∃ c', step node c (.thread u (.go around)) = some c' ∧ c'.shared = c.shared ∧
      c'.threads u = .done (.answered msg { status := status }) := by
  have hadvance : advance node u c.shared around (c.threads u) =
      some (c.shared, .done (.answered msg { status := status })) := by
    rw [hthread]
    simp only [advance, hcheck]
  exact ⟨_, step_of_advance hadvance, rfl, Function.update_self ..⟩

/-! ## The server that `process_req` is called on -/

/-- The thread has found the server for its message. -/
def Pc.Serves (msg : RaftGroupMsg) (g : GroupId) (server : ℕ) : Pc → Prop
  | .stepTask msg' g' server' _ | .done (.processed msg' g' server' _ _) =>
    msg' = msg ∧ g' = g ∧ server' = server
  | _ => False

/-- A thread that comes back to its caller has not found a server. -/
theorem Landing.not_serves {m : Option RaftGroupMsg} {g' : GroupId} (hpc : Landing g' m pc) :
    ¬ pc.Serves msg g server := by
  cases hpc <;> exact id

/-- A thread finds a server only by looking into the registry. -/
theorem Moves.serves (hmoves : Moves node t r pc input r' pc') (hpc : ¬ pc.Serves msg g server)
    (hpc' : pc'.Serves msg g server) :
    (∃ joined, pc = .stepFind msg g joined) ∧ r.raftServers g = some server := by
  cases hmoves with
  | call op => cases op <;> exact hpc'.elim
  | lockFailed caller | initRefused caller =>
    exact absurd hpc' (caller.landing_refused ..).not_serves
  | duplicate caller => exact absurd hpc' (caller.landing_accepted _).not_serves
  | listenerMissing _ resume | listenerErase _ resume =>
    exact absurd hpc' (resume.landing_next _).not_serves
  | «return» | initReuseAborted | initCreateAborted | leaveShutdown | reap =>
    exact absurd hpc' (landing_afterListener ..).not_serves
  | stepFound msg' g' joined server' hfound =>
    obtain ⟨rfl, rfl, rfl⟩ := hpc'
    exact ⟨⟨joined, rfl⟩, hfound⟩
  | stepTask => exact absurd hpc' hpc
  | _ => exact hpc'.elim

/-- The server was registered for the group when the thread looked it up. -/
theorem serves_registered (hrun : Transition.run (step node) (start types) labels = some c)
    (hserves : (c.threads u).Serves msg g server) :
    ∃ front back mid joined, labels = front ++ back ∧
      Transition.run (step node) (start types) front = some mid ∧
      mid.threads u = .stepFind msg g joined ∧ mid.shared.raftServers g = some server := by
  obtain ⟨front, l, back, mid, mid', rfl, hfront, hstep, hbefore, hafter⟩ :=
    Transition.exists_moment (Q := fun c : Config => (c.threads u).Serves msg g server) id hserves
      hrun
  cases l with
  | thread t input =>
    obtain ⟨r', pc', hexec, rfl⟩ := Interleaving.step_thread hstep
    by_cases hut : u = t
    · subst hut
      simp only [Function.update_self] at hafter
      obtain ⟨⟨joined, hthread⟩, hfound⟩ := (moves_of_exec hexec).serves hbefore hafter
      exact ⟨front, _, mid, joined, rfl, hfront, hthread, hfound⟩
    · simp only [Function.update_of_ne hut] at hafter
      exact absurd hafter hbefore
  | env event =>
    obtain ⟨r', -, rfl⟩ := Interleaving.step_env hstep
    exact absurd hafter hbefore

end NuraftMesg.Manager
