import NuraftMesg.Manager.Admission

/-!
# Threads and their messages

A thread that was started on a received message stays with this message, and what it
replies in the end is an error of `raftStep` or what `process_req` answered to the
message. Both are read off the rules, one thread at a time.
-/

namespace NuraftMesg.Manager

open Proto Transition

variable {node : Node} {g : GroupId} {t : ℕ} {r r' : Registry} {pc pc' : Pc} {input : Input}
  {msg : RaftGroupMsg} {c c' : Config} {l : Label} {types : List GroupType} {labels : List Label}

/-- A thread that comes back to its caller goes on with the message. -/
theorem Landing.message {m : Option RaftGroupMsg} (hpc : Landing g m pc) : pc.message = m := by
  cases hpc <;> rfl

/-- A thread keeps to the message that it was started on, or an exception takes it away from it. -/
theorem Moves.message (hmoves : Moves node t r pc input r' pc') :
    (∃ op, pc = .idle ∧ input = .call op ∧ pc' = op.entry) ∨
      pc'.message = none ∨ pc'.message = pc.message := by
  cases hmoves with
  | call op => exact Or.inl ⟨op, rfl, rfl, rfl⟩
  | initThrew => exact Or.inr (Or.inl rfl)
  | initReuseAborted | initCreateAborted =>
    exact Or.inr (Or.inl (landing_afterListener ..).message)
  | lockFailed caller | initRefused caller =>
    exact Or.inr (Or.inr (caller.landing_refused ..).message)
  | duplicate caller => exact Or.inr (Or.inr (caller.landing_accepted _).message)
  | listenerMissing _ resume | listenerErase _ resume =>
    exact Or.inr (Or.inr (resume.landing_next _).message)
  | «return» | leaveShutdown | reap =>
    exact Or.inr (Or.inr (landing_afterListener ..).message)
  | _ => exact Or.inr (Or.inr rfl)

/-- A thread that comes back to its caller is not idle. -/
theorem Landing.ne_idle {m : Option RaftGroupMsg} (hpc : Landing g m pc) : pc ≠ .idle := by
  cases hpc <;> exact Pc.noConfusion

/-- A thread that has moved is not idle. -/
theorem Moves.ne_idle (hmoves : Moves node t r pc input r' pc') : pc' ≠ .idle := by
  cases hmoves with
  | call op => cases op <;> exact Pc.noConfusion
  | lockFailed caller | initRefused caller => exact (caller.landing_refused ..).ne_idle
  | duplicate caller => exact (caller.landing_accepted _).ne_idle
  | listenerMissing _ resume | listenerErase _ resume => exact (resume.landing_next _).ne_idle
  | initReuseAborted | initCreateAborted | «return» | leaveShutdown | reap =>
    exact (landing_afterListener ..).ne_idle
  | _ => exact Pc.noConfusion

/-- In a step of the node every thread stays where it is or moves by a rule. -/
theorem thread_of_step (hstep : step node c l = some c') (u : ℕ) :
    c'.threads u = c.threads u ∨ ∃ input, l = .thread u input ∧
      Moves node u c.shared (c.threads u) input c'.shared (c'.threads u) := by
  cases l with
  | thread t input =>
    obtain ⟨hexec, hothers⟩ := Interleaving.exec_of_step hstep
    by_cases hu : u = t
    · subst hu
      exact Or.inr ⟨input, rfl, moves_of_exec hexec⟩
    · exact Or.inl (hothers u hu)
  | env event =>
    obtain ⟨r', -, rfl⟩ := Interleaving.step_env hstep
    exact Or.inl rfl

/-- A thread whose operation is done stays where it is. -/
theorem Moves.not_done {outcome : Outcome} (hmoves : Moves node t r pc input r' pc') :
    pc ≠ .done outcome := by
  cases hmoves <;> exact Pc.noConfusion

/-! ## Replies -/

/-- What a thread replies when it comes to a place: a task replies with what `process_req` has
answered to it, and `raftStep` by itself only with an error. -/
def Replied (pc : Pc) (input : Input) : Pc → Prop
  | .done (.processed msg g server req reply) =>
    ∃ pool around, pc = .stepTask msg g server pool ∧ input = .go around ∧
      executeStep around.beyond msg around.answer = some (req, reply)
  | .done (.answered _ reply) => reply.status.code ≠ .ok
  | _ => True

/-- A thread that comes back to its caller has not replied. -/
theorem Landing.replied {m : Option RaftGroupMsg} (hpc : Landing g m pc') :
    Replied pc input pc' := by
  cases hpc <;> trivial

/-- What a step makes a thread reply. -/
theorem Moves.replied (hmoves : Moves node t r pc input r' pc') :
    Replied pc input pc' := by
  cases hmoves with
  | call op => cases op <;> trivial
  | lockFailed caller | initRefused caller => exact (caller.landing_refused ..).replied
  | duplicate caller => exact (caller.landing_accepted _).replied
  | listenerMissing _ resume | listenerErase _ resume => exact (resume.landing_next _).replied
  | initReuseAborted | initCreateAborted | «return» | leaveShutdown | reap =>
    exact (landing_afterListener ..).replied
  | stepRefused msg status hcheck =>
    intro hok
    rw [checkMessage_eq_error hcheck] at hok
    cases hok
  | stepMissing => exact StatusCode.noConfusion
  | stepTask msg g server pool req reply hexecute => exact ⟨pool, _, rfl, rfl, hexecute⟩
  | _ => trivial

/-- So it is for every thread of every run. -/
theorem replied_of_run (hrun : run (step node) (start types) labels = some c) (u : ℕ) :
    ∃ pc input, Replied pc input (c.threads u) := by
  have hstart : ∃ pc input, Replied pc input ((start types).threads u) :=
    ⟨.idle, .go {}, trivial⟩
  refine run_invariant (I := fun c : Config => ∃ pc input, Replied pc input (c.threads u)) ?_
    hstart hrun
  intro c l c' hc hstep
  rcases thread_of_step hstep u with heq | ⟨input, -, hmoves⟩
  · rwa [heq]
  · exact ⟨_, input, hmoves.replied⟩

end NuraftMesg.Manager
