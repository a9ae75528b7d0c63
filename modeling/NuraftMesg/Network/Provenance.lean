import NuraftMesg.Manager.Messages
import NuraftMesg.Network.System
import NuraftMesg.Wire.RoundTrip

/-!
# Where requests and responses come from

Whatever the network does with the messages, a node hands to `process_req` only what
some node sent to its address and to that group, and a sender gets as a response only
what `process_req` answered, on the node it had in mind, to the very request that it
had sent.
-/

namespace NuraftMesg

open Proto Transition

/-! ## The wrappers -/

namespace Factory

variable {text : UuidText} {groups : ℕ → GroupId × GroupType} {s s' : State} {f : ℕ}

/-- The group type of a factory is that of its construction. -/
theorem step_groupType {l : Label} (hstep : step text s l = some s') (f : ℕ) :
    (s'.factories f).groupType = (s.factories f).groupType := by
  rcases step_cases hstep with ⟨f', p, force, purpose, around, rfl, hrequest⟩ |
    ⟨f', returned, rfl, hfinish⟩ | ⟨p, force, around, h, groupClients, returned, rfl, -, rfl⟩ |
    ⟨-, hquiet, -⟩
  · obtain ⟨-, h, groupClients, busy, rfl, -⟩ := request_locks hrequest
    by_cases hf : f = f'
    · subst hf
      rw [State.setFactory_self]
    · rw [State.setFactory_of_ne _ _ _ hf]
  · obtain ⟨p, plan, purpose, h, slot, -, hdone⟩ := finish_done hfinish
    exact hdone.forall_factories
      (P := fun f factory => factory.groupType = (s.factories f).groupType) hdone.groupType
      (fun _ _ => rfl) f
  · rfl
  · rw [hquiet.factories]

/-- The factories have their groups, every wrapper was made for some peer and the group of some
factory, and a factory caches for a peer only what was made for the peer and its own group. -/
structure Labelled (text : UuidText) (groups : ℕ → GroupId × GroupType) (s : State) : Prop where
  groupId : ∀ f, (s.factories f).groupId = (groups f).1
  groupType : ∀ f, (s.factories f).groupType = (groups f).2
  wrappers : ∀ (w : ℕ) (wrapper : Wrapper), s.heap.wrappers[w]? = some wrapper →
    ∃ p f, wrapper.MadeFor text p (groups f).1 (groups f).2
  cached : ∀ f p w, (s.factories f).clients.lookup p = some (some (.proto w)) →
    IsWrapper text s.heap (groups f) p (some (.proto w))

/-- Every wrapper of `h` is one of `s`, up to its transport. -/
theorem Labelled.wrappers_of {h : Heap} (hs : Labelled text groups s)
    (hold : ∀ (w : ℕ) (wrapper : Wrapper), h.wrappers[w]? = some wrapper →
      ∃ (v : ℕ) (wrapper' : Wrapper), s.heap.wrappers[v]? = some wrapper' ∧
        wrapper'.SameIdentity wrapper) (w : ℕ) (wrapper : Wrapper)
    (hw : h.wrappers[w]? = some wrapper) :
    ∃ p f, wrapper.MadeFor text p (groups f).1 (groups f).2 := by
  obtain ⟨v, wrapper', hv, -, hg, hty, haddr⟩ := hold w wrapper hw
  obtain ⟨p, f, haddr', hg', hty'⟩ := hs.wrappers v wrapper' hv
  exact ⟨p, f, haddr.trans haddr', hg.trans hg', hty.trans hty'⟩

/-- The only new wrapper is the one that the end of a call makes. -/
theorem Labelled.finish {returned : Slot} (hs : Labelled text groups s)
    (hfinish : s.finish text f = some (s', returned)) (w : ℕ) (wrapper : Wrapper)
    (hw : s'.heap.wrappers[w]? = some wrapper) :
    ∃ p f, wrapper.MadeFor text p (groups f).1 (groups f).2 := by
  obtain ⟨p, plan, purpose, -, hplan⟩ := finish_cases hfinish
  cases plan with
  | refuse code failed =>
    rw [hplan.2.heap] at hw
    exact hs.wrappers w wrapper hw
  | create t checked =>
    rw [hplan.2.heap] at hw
    rcases Cells.getElem?_alloc_cases hw with hold | ⟨-, rfl⟩
    · exact hs.wrappers w wrapper hold
    · exact ⟨p, f, rfl, hs.groupId f, hs.groupType f⟩
  | reinit v t checked =>
    rw [hplan.2.heap] at hw
    refine hs.wrappers_of (fun w wrapper hw => ?_) w wrapper hw
    obtain ⟨wrapper', hold, rfl⟩ := Cells.getElem?_update_cases hw
    refine ⟨w, wrapper', hold, ?_⟩
    split <;> exact ⟨rfl, rfl, rfl, rfl⟩

/-- What the end of a call on a factory returns as a wrapper was made for the peer of the call
and for the group of the factory. -/
theorem Labelled.returned {pending : Pending} {w : ℕ} (hs : Labelled text groups s)
    (hbusy : (s.factories f).busy = some pending)
    (hfinish : s.finish text f = some (s', some (.proto w))) :
    IsWrapper text s'.heap (groups f) pending.peer (some (.proto w)) := by
  have hgrows := finish_grows hfinish
  obtain ⟨p, plan, purpose, hbusy', hplan⟩ := finish_cases hfinish
  obtain rfl := Option.some.inj (hbusy.symm.trans hbusy')
  cases plan with
  | refuse code failed => cases hplan.1
  | create t checked =>
    obtain ⟨hreturned, hdone⟩ := hplan
    cases hreturned
    rw [hdone.heap]
    exact ⟨_, _, rfl, Heap.getElem?_newWrapper .., rfl, hs.groupId f, hs.groupType f⟩
  | reinit v t checked =>
    obtain ⟨hreturned, hdone⟩ := hplan
    exact (hs.cached f p w (Option.join_eq_some_iff.mp hreturned.symm)).grow hgrows

/-- The caches after a step. -/
theorem Labelled.cached_of_step {l : Label} {p : PeerId} {w : ℕ} (hs : Labelled text groups s)
    (hstep : Factory.step text s l = some s')
    (hentry : (s'.factories f).clients.lookup p = some (some (.proto w))) :
    IsWrapper text s'.heap (groups f) p (some (.proto w)) := by
  have hkept : (s.factories f).clients.lookup p = some (some (.proto w)) →
      IsWrapper text s'.heap (groups f) p (some (.proto w)) :=
    fun hold => (hs.cached f p w hold).grow (step_grows hstep)
  rcases step_cases hstep with ⟨f', p', force, purpose, around, rfl, hrequest⟩ |
    ⟨f', returned, rfl, hfinish⟩ | ⟨p, force, around, h, groupClients, returned, rfl, hcall, rfl⟩ |
    ⟨-, hquiet, -⟩
  · obtain ⟨-, h, groupClients, busy, rfl, -⟩ := request_locks hrequest
    by_cases hf : f = f'
    · subst hf
      rw [State.setFactory_self, lookup_emplace_none] at hentry
      split at hentry
      · next hp =>
        subst hp
        exact hkept (Option.join_eq_some_iff.mp (Option.some.inj hentry))
      · exact hkept hentry
    · rw [State.setFactory_of_ne _ _ _ hf] at hentry
      exact hkept hentry
  · obtain ⟨q, plan, purpose, hbusy, hplan⟩ := finish_cases hfinish
    by_cases hf : f = f'
    · subst hf
      by_cases hq : p = q
      · subst hq
        have hslot : ∀ {h : Heap} {slot : Slot}, Finished s f p h slot returned s' →
            slot = some (.proto w) := by
          intro h slot hdone
          rw [hdone.lookup, if_pos rfl] at hentry
          exact Option.map_injective (Option.some_injective _) hentry
        cases plan with
        | refuse code failed => exact hkept (Option.join_eq_some_iff.mp (hslot hplan.2))
        | create t checked | reinit v t checked =>
          cases hslot hplan.2
          exact hs.returned hbusy hfinish
      · have hother : ∀ {h : Heap} {slot : Slot}, Finished s f q h slot returned s' →
            (s.factories f).clients.lookup p = some (some (.proto w)) := by
          intro h slot hdone
          rwa [hdone.lookup, if_neg hq] at hentry
        cases plan <;> exact hkept (hother hplan.2)
    · obtain ⟨_, _, _, _, _, -, hdone⟩ := finish_done hfinish
      rw [hdone.others f hf] at hentry
      exact hkept hentry
  · exact hkept hentry
  · rw [hquiet.factories] at hentry
    exact hkept hentry

/-- New wrappers are labelled by the factory that makes them, and wrappers that exist keep
their labels. -/
theorem Labelled.step {l : Label} (hs : Labelled text groups s)
    (hstep : Factory.step text s l = some s') : Labelled text groups s' := by
  refine ⟨fun f => (step_groupId hstep f).trans (hs.groupId f),
    fun f => (step_groupType hstep f).trans (hs.groupType f), fun w wrapper hw => ?_,
    fun f p w hentry => hs.cached_of_step hstep hentry⟩
  rcases step_cases hstep with ⟨f', p, force, purpose, around, rfl, hrequest⟩ |
    ⟨f', returned, rfl, hfinish⟩ | ⟨p, force, around, h, groupClients, returned, rfl, hcall, rfl⟩ |
    ⟨-, hquiet, -⟩
  · rw [(request_grows hrequest).2] at hw
    exact hs.wrappers w wrapper hw
  · exact hs.finish hfinish w wrapper hw
  · have hsame := (groupMoves_of_groupCall hcall).grows.2
    exact hs.wrappers w wrapper (hsame ▸ hw)
  · rw [hquiet.wrappers] at hw
    exact hs.wrappers w wrapper hw

/-- At the beginning there is no wrapper. -/
theorem labelled_init : Labelled text groups (.init groups) := by
  refine ⟨fun f => rfl, fun f => rfl, fun w wrapper hw => ?_, fun f p w hentry => ?_⟩
  · simp [State.init] at hw
  · simp [State.init] at hentry

end Factory

namespace Network

variable {cluster : Cluster} {types : ℕ → List GroupType} {groups : ℕ → ℕ → GroupId × GroupType}
  {s s' : State} {l : Label} {labels : List Label} {n t k : ℕ}

/-! ## The threads of the nodes -/

/-- The threads of a node after a step of the network: each stays where it is, moves by a rule
of the node, or is started on a message. -/
theorem thread_of_takes (htakes : Takes cluster s l s') (n t : ℕ) :
    (s'.machines n).manager.threads t = (s.machines n).manager.threads t ∨
      (∃ r r' input, l = .manager n (.thread t input) ∧ (∀ msg, input ≠ .call (.raftStep msg)) ∧
        Manager.Moves (cluster.node n) t r ((s.machines n).manager.threads t) input r'
          ((s'.machines n).manager.threads t)) ∨
      ∃ k rpc, l = .arrive k n t ∧ s.rpcs[k]? = some rpc ∧ rpc.arrival = none ∧
        (s.machines n).manager.threads t = .idle ∧
        (s'.machines n).manager.threads t = .stepCheck rpc.message := by
  cases htakes with
  | manager n' l c hlocal hstep =>
    rw [manager_setManager]
    by_cases hn : n = n'
    · subst hn
      rw [if_pos rfl]
      refine (Manager.thread_of_step hstep t).imp_right fun ⟨input, hl, hmoves⟩ => ?_
      subst hl
      refine Or.inl ⟨_, _, input, rfl, fun msg hinput => ?_, hmoves⟩
      subst hinput
      cases hlocal
    · rw [if_neg hn]
      exact Or.inl rfl
  | arrive k n' t' rpc c hrpc hnew hstep =>
    rw [machines_updateRpc, manager_setManager]
    by_cases hn : n = n'
    · subst hn
      rw [if_pos rfl]
      refine (Manager.thread_of_step hstep t).imp_right fun ⟨input, hl, hmoves⟩ => Or.inr ?_
      cases hl
      obtain ⟨hexec, -⟩ := Interleaving.exec_of_step hstep
      obtain ⟨hidle, -, hentry⟩ := Manager.exec_call hexec
      exact ⟨k, rpc, rfl, hrpc, hnew, hidle, hentry⟩
    · rw [if_neg hn]
      exact Or.inl rfl
  | factory | send | reply | fail =>
    refine Or.inl ?_
    simp only [machines_updateRpc, manager_setFactories]

/-- How a message on record after a step came to be what it is. -/
inductive Filed (cluster : Cluster) (s : State) (l : Label) (k : ℕ) : Rpc → Prop
  | kept (rpc : Rpc) (hold : s.rpcs[k]? = some rpc) : Filed cluster s l k rpc
  | sent (n w : ℕ) (request : ReqMsg) (beyond : ℕ → UInt8) (wrapper : Factory.Wrapper)
      (transport : ℕ) (hwrapper : (s.machines n).factories.heap.wrappers[w]? = some wrapper)
      (hk : k = s.rpcs.length) :
      Filed cluster s l k ⟨n, wrapper, transport, request,
        wrapper.groupMsg cluster.text (requestMessage beyond request), none, none⟩
  | arrived (n t : ℕ) (rpc : Rpc) (hl : l = .arrive k n t) (hold : s.rpcs[k]? = some rpc)
      (hnew : rpc.arrival = none) (hidle : (s.machines n).manager.threads t = .idle) :
      Filed cluster s l k { rpc with arrival := some (n, t) }
  | replied (n t : ℕ) (rpc : Rpc) (reply : Reply) (hold : s.rpcs[k]? = some rpc)
      (harrival : rpc.arrival = some (n, t))
      (hreply : replyOf ((s.machines n).manager.threads t) = some reply) :
      Filed cluster s l k { rpc with completion := some (complete reply.status reply.msg) }
  | failed (rpc : Rpc) (status : Status) (hold : s.rpcs[k]? = some rpc)
      (hfailed : status.code ≠ .ok) :
      Filed cluster s l k { rpc with completion := some (complete status ⟨none, none⟩) }

/-- A change of message `k'` is a change of message `k` if they are the same. -/
theorem filed_of_update {k' : ℕ} {change : Rpc → Rpc} {rpc rpc' : Rpc}
    (hrpc : s.rpcs[k']? = some rpc) (hrpc' : (s.rpcs.modify k' change)[k]? = some rpc')
    (hfiled : k = k' → Filed cluster s l k (change rpc)) : Filed cluster s l k rpc' := by
  obtain ⟨old, hold, rfl⟩ := Cells.getElem?_update_cases hrpc'
  by_cases hk : k = k'
  · rw [if_pos hk]
    rw [hk] at hold
    obtain rfl := Option.some.inj (hold.symm.trans hrpc)
    exact hfiled hk
  · rw [if_neg hk]
    exact .kept old hold

/-- What was sent stays on record; only its arrival and its completion are filled in. -/
theorem filed_of_takes (htakes : Takes cluster s l s') {rpc' : Rpc}
    (hrpc' : s'.rpcs[k]? = some rpc') : Filed cluster s l k rpc' := by
  cases htakes with
  | manager | factory => exact .kept rpc' hrpc'
  | send n w request beyond wrapper transport x hwrapper hstep =>
    rcases Cells.getElem?_alloc_cases hrpc' with hold | ⟨hk, rfl⟩
    · exact .kept rpc' hold
    · exact .sent n w request beyond wrapper transport hwrapper hk
  | arrive k' n t rpc c hrpc hnew hstep =>
    refine filed_of_update hrpc hrpc' fun hk => ?_
    subst hk
    obtain ⟨hexec, -⟩ := Interleaving.exec_of_step hstep
    exact .arrived n t rpc rfl hrpc hnew (Manager.exec_call hexec).1
  | reply k' n t rpc reply x hrpc harrival hreply hstep =>
    exact filed_of_update hrpc hrpc' fun hk => .replied n t rpc reply (hk ▸ hrpc) harrival hreply
  | fail k' status rpc x hrpc hfailed hstep =>
    exact filed_of_update hrpc hrpc' fun hk => .failed rpc status (hk ▸ hrpc) hfailed

/-- `rpc'` is `rpc` at a later time. -/
structure Rpc.Becomes (rpc rpc' : Rpc) : Prop where
  sender : rpc'.sender = rpc.sender
  wrapper : rpc'.wrapper = rpc.wrapper
  request : rpc'.request = rpc.request
  message : rpc'.message = rpc.message
  arrival : ∀ a, rpc.arrival = some a → rpc'.arrival = some a
  completion : ∀ c, rpc.completion = some c → rpc'.completion = some c

/-- A call becomes itself. -/
theorem Rpc.Becomes.refl (rpc : Rpc) : rpc.Becomes rpc :=
  ⟨rfl, rfl, rfl, rfl, fun _ ha => ha, fun _ hc => hc⟩

/-- What becomes of a call, over two steps. -/
theorem Rpc.Becomes.trans {rpc rpc' rpc'' : Rpc} (h : rpc.Becomes rpc') (h' : rpc'.Becomes rpc'') :
    rpc.Becomes rpc'' where
  sender := h'.sender.trans h.sender
  wrapper := h'.wrapper.trans h.wrapper
  request := h'.request.trans h.request
  message := h'.message.trans h.message
  arrival a ha := h'.arrival a (h.arrival a ha)
  completion c hc := h'.completion c (h.completion c hc)

/-- No message is taken off the record. -/
theorem exists_rpc_of_takes (htakes : Takes cluster s l s') {rpc : Rpc}
    (hrpc : s.rpcs[k]? = some rpc) : ∃ rpc', s'.rpcs[k]? = some rpc' ∧ rpc.Becomes rpc' := by
  have hupdate : ∀ (k' : ℕ) (change : Rpc → Rpc) (old : Rpc), s.rpcs[k']? = some old →
      old.Becomes (change old) →
      ∃ rpc', (s.rpcs.modify k' change)[k]? = some rpc' ∧ rpc.Becomes rpc' := by
    intro k' change old hold hchange
    refine ⟨_, Cells.getElem?_update hrpc, ?_⟩
    split
    · next hk =>
      obtain rfl := Option.some.inj (hold.symm.trans (hk ▸ hrpc))
      exact hchange
    · exact .refl rpc
  cases htakes with
  | manager | factory => exact ⟨rpc, hrpc, .refl rpc⟩
  | send => exact ⟨rpc, Cells.getElem?_alloc hrpc, .refl rpc⟩
  | arrive k' n t old c hold hnew hstep =>
    refine hupdate k' _ old hold ⟨rfl, rfl, rfl, rfl, fun a ha => ?_, fun _ hc => hc⟩
    rw [hnew] at ha
    cases ha
  | reply k' n t old reply x hold harrival hreply hstep hopen =>
    refine hupdate k' _ old hold ⟨rfl, rfl, rfl, rfl, fun _ ha => ha, fun c hc => ?_⟩
    rw [hopen] at hc
    cases hc
  | fail k' status old x hold hfailed hstep hopen =>
    refine hupdate k' _ old hold ⟨rfl, rfl, rfl, rfl, fun _ ha => ha, fun c hc => ?_⟩
    rw [hopen] at hc
    cases hc

/-- Along a run a call keeps its place, its content, and what was decided about it. -/
theorem exists_rpc_of_run {rpc : Rpc} (hrun : run (step cluster) s labels = some s')
    (hrpc : s.rpcs[k]? = some rpc) : ∃ rpc', s'.rpcs[k]? = some rpc' ∧ rpc.Becomes rpc' := by
  refine run_invariant (I := fun s => ∃ rpc', s.rpcs[k]? = some rpc' ∧ rpc.Becomes rpc') ?_
    ⟨rpc, hrpc, .refl rpc⟩ hrun
  rintro s l s' ⟨mid, hmid, hlater⟩ hstep
  obtain ⟨rpc', hrpc', hlater'⟩ := exists_rpc_of_takes (takes_of_step hstep) hmid
  exact ⟨rpc', hrpc', hlater.trans hlater'⟩

/-! ## What holds between the messages and the threads -/

/-- The invariant of the network. -/
structure Inv (cluster : Cluster) (groups : ℕ → ℕ → GroupId × GroupType) (s : State) : Prop where
  labelled : ∀ n, Factory.Labelled cluster.text (groups n) (s.machines n).factories
  /-- A thread that handles a message was started by one on record. -/
  handled : ∀ n t msg, ((s.machines n).manager.threads t).message = some msg →
    ∃ (k : ℕ) (rpc : Rpc), s.rpcs[k]? = some rpc ∧ rpc.arrival = some (n, t) ∧ rpc.message = msg
  /-- A message that has arrived has its thread, which handles no other message. -/
  arrived : ∀ (k : ℕ) (rpc : Rpc) (n t : ℕ), s.rpcs[k]? = some rpc → rpc.arrival = some (n, t) →
    (s.machines n).manager.threads t ≠ .idle ∧
      ∀ msg, ((s.machines n).manager.threads t).message = some msg → msg = rpc.message
  /-- A thread is started by one message. -/
  sole : ∀ (k k' : ℕ) (rpc rpc' : Rpc) (a : ℕ × ℕ), s.rpcs[k]? = some rpc →
    s.rpcs[k']? = some rpc' → rpc.arrival = some a → rpc'.arrival = some a → k = k'
  /-- A message was sent by a wrapper that its sender made for some peer and group. -/
  made : ∀ (k : ℕ) (rpc : Rpc), s.rpcs[k]? = some rpc → ∃ p f beyond,
    rpc.wrapper.MadeFor cluster.text p (groups rpc.sender f).1 (groups rpc.sender f).2 ∧
      rpc.message = rpc.wrapper.groupMsg cluster.text (requestMessage beyond rpc.request)
  /-- A message completes with the reply of its thread or with an error of gRPC. -/
  completed : ∀ (k : ℕ) (rpc : Rpc) (c : Completion), s.rpcs[k]? = some rpc →
    rpc.completion = some c →
    (∃ n t reply, rpc.arrival = some (n, t) ∧
      replyOf ((s.machines n).manager.threads t) = some reply ∧
      c = complete reply.status reply.msg) ∨
    ∃ status, status.code ≠ .ok ∧ c = complete status ⟨none, none⟩

/-- At the beginning nothing was sent, and every thread is idle. -/
theorem inv_start : Inv cluster groups (start types groups) := by
  have hnone : ∀ (k : ℕ) (rpc : Rpc), (start types groups).rpcs[k]? ≠ some rpc := by
    intro k rpc hrpc
    simp [start] at hrpc
  constructor
  · intro n
    exact Factory.labelled_init
  · intro n t msg hmsg
    cases hmsg
  · intro k rpc n t hrpc
    exact absurd hrpc (hnone k rpc)
  · intro k k' rpc rpc' a hrpc
    exact absurd hrpc (hnone k rpc)
  · intro k rpc hrpc
    exact absurd hrpc (hnone k rpc)
  · intro k rpc c hrpc
    exact absurd hrpc (hnone k rpc)

/-- The arrival of a message, seen from both sides. -/
theorem arrive_of_takes (htakes : Takes cluster s (.arrive k n t) s') :
    ∃ rpc, s.rpcs[k]? = some rpc ∧ (s.machines n).manager.threads t = .idle ∧
      s'.rpcs[k]? = some { rpc with arrival := some (n, t) } ∧
      (s'.machines n).manager.threads t = .stepCheck rpc.message := by
  cases htakes with
  | arrive k n t rpc c hrpc hnew hstep =>
    obtain ⟨hexec, -⟩ := Interleaving.exec_of_step hstep
    obtain ⟨hidle, -, hentry⟩ := Manager.exec_call hexec
    refine ⟨rpc, hrpc, hidle, ?_, ?_⟩
    · exact (Cells.getElem?_update hrpc).trans (congrArg some (if_pos rfl))
    · rw [machines_updateRpc, manager_setManager, if_pos rfl]
      exact hentry

/-- A message that has arrived after a step had arrived before it, or comes with the step. -/
theorem Filed.arrival {rpc : Rpc} {a : ℕ × ℕ} (hfiled : Filed cluster s l k rpc)
    (ha : rpc.arrival = some a) :
    (∃ old, s.rpcs[k]? = some old ∧ old.arrival = some a ∧ old.message = rpc.message) ∨
      l = .arrive k a.1 a.2 ∧ (s.machines a.1).manager.threads a.2 = .idle := by
  cases hfiled with
  | kept rpc hold => exact Or.inl ⟨rpc, hold, ha, rfl⟩
  | sent => cases ha
  | arrived n t rpc hl hold hnew hidle =>
    cases ha
    exact Or.inr ⟨hl, hidle⟩
  | replied n t rpc reply hold => exact Or.inl ⟨rpc, hold, ha, rfl⟩
  | failed rpc status hold => exact Or.inl ⟨rpc, hold, ha, rfl⟩

/-- A thread that has replied stays as it is. -/
theorem replyOf_of_takes {reply : Reply} (htakes : Takes cluster s l s')
    (hreply : replyOf ((s.machines n).manager.threads t) = some reply) :
    replyOf ((s'.machines n).manager.threads t) = some reply := by
  obtain ⟨outcome, hdone⟩ : ∃ outcome, (s.machines n).manager.threads t = .done outcome := by
    generalize (s.machines n).manager.threads t = pc at hreply
    cases pc with
    | done outcome => exact ⟨outcome, rfl⟩
    | _ => cases hreply
  rcases thread_of_takes htakes n t with heq | ⟨r, r', input, -, -, hmoves⟩ |
    ⟨_, _, _, _, _, hidle, _⟩
  · rwa [heq]
  · exact absurd hdone hmoves.not_done
  · rw [hdone] at hidle
    cases hidle

/-- The messages that threads handle after a step. -/
theorem Inv.handled_of_takes (hs : Inv cluster groups s) (htakes : Takes cluster s l s')
    {msg : RaftGroupMsg} (hmsg : ((s'.machines n).manager.threads t).message = some msg) :
    ∃ (k : ℕ) (rpc : Rpc), s'.rpcs[k]? = some rpc ∧ rpc.arrival = some (n, t) ∧
      rpc.message = msg := by
  have hkept : ((s.machines n).manager.threads t).message = some msg →
      ∃ (k : ℕ) (rpc : Rpc), s'.rpcs[k]? = some rpc ∧ rpc.arrival = some (n, t) ∧
        rpc.message = msg := by
    intro hold
    obtain ⟨k, rpc, hrpc, harrival, hmessage⟩ := hs.handled n t msg hold
    obtain ⟨rpc', hrpc', hlater⟩ := exists_rpc_of_takes htakes hrpc
    exact ⟨k, rpc', hrpc', hlater.arrival _ harrival, hlater.message.trans hmessage⟩
  rcases thread_of_takes htakes n t with heq | ⟨r, r', input, -, hinput, hmoves⟩ |
    ⟨k, rpc, rfl, -, -, -, hthread⟩
  · exact hkept (heq ▸ hmsg)
  · rcases hmoves.message with ⟨op, -, hcall, hentry⟩ | hnone | hsame
    · rw [hentry] at hmsg
      cases op with
      | raftStep msg' => exact absurd hcall (hinput msg')
      | _ => cases hmsg
    · cases hnone.symm.trans hmsg
    · exact hkept (hsame ▸ hmsg)
  · obtain ⟨rpc', -, -, hfiled, hthread'⟩ := arrive_of_takes htakes
    rw [hthread'] at hmsg
    exact ⟨k, _, hfiled, rfl, Option.some.inj hmsg⟩

/-- The thread of a message that has arrived, after a step. -/
theorem Inv.arrived_of_takes (hs : Inv cluster groups s) (htakes : Takes cluster s l s')
    {rpc : Rpc} (hrpc : s'.rpcs[k]? = some rpc) (harrival : rpc.arrival = some (n, t)) :
    (s'.machines n).manager.threads t ≠ .idle ∧
      ∀ msg, ((s'.machines n).manager.threads t).message = some msg → msg = rpc.message := by
  rcases (filed_of_takes htakes hrpc).arrival harrival with ⟨old, hold, harrived, hmessage⟩ |
    ⟨rfl, -⟩
  · obtain ⟨hbusy, hsame⟩ := hs.arrived k old n t hold harrived
    rcases thread_of_takes htakes n t with heq | ⟨r, r', input, -, hinput, hmoves⟩ |
      ⟨_, _, _, _, _, hidle, _⟩
    · rw [heq, ← hmessage]
      exact ⟨hbusy, hsame⟩
    · refine ⟨hmoves.ne_idle, fun msg hmsg => ?_⟩
      rcases hmoves.message with ⟨op, hidle, -, -⟩ | hnone | heq
      · exact absurd hidle hbusy
      · cases hnone.symm.trans hmsg
      · exact (hsame msg (heq ▸ hmsg)).trans hmessage
    · exact absurd hidle hbusy
  · obtain ⟨rpc', -, -, hfiled, hthread⟩ := arrive_of_takes htakes
    obtain rfl := Option.some.inj (hrpc.symm.trans hfiled)
    rw [hthread]
    exact ⟨Manager.Pc.noConfusion, fun msg hmsg => (Option.some.inj hmsg).symm⟩

/-- No two calls arrive in one thread: an arriving call takes a thread that is idle, which no
call before it has. -/
theorem Inv.sole_of_takes (hs : Inv cluster groups s) (htakes : Takes cluster s l s') {k' : ℕ}
    {rpc rpc' : Rpc} {a : ℕ × ℕ} (hrpc : s'.rpcs[k]? = some rpc) (hrpc' : s'.rpcs[k']? = some rpc')
    (ha : rpc.arrival = some a) (ha' : rpc'.arrival = some a) : k = k' := by
  rcases (filed_of_takes htakes hrpc).arrival ha with ⟨old, hold, harrived, -⟩ | ⟨hl, hidle⟩
  · rcases (filed_of_takes htakes hrpc').arrival ha' with ⟨old', hold', harrived', -⟩ | ⟨-, hidle⟩
    · exact hs.sole k k' old old' a hold hold' harrived harrived'
    · exact absurd hidle (hs.arrived k old a.1 a.2 hold harrived).1
  · rcases (filed_of_takes htakes hrpc').arrival ha' with ⟨old', hold', harrived', -⟩ | ⟨hl', -⟩
    · exact absurd hidle (hs.arrived k' old' a.1 a.2 hold' harrived').1
    · rw [hl] at hl'
      cases hl'
      rfl

/-- A new call is made from a wrapper of the sender's, and no other step changes what was
sent. -/
theorem Inv.made_of_takes (hs : Inv cluster groups s) (htakes : Takes cluster s l s')
    {rpc : Rpc} (hrpc : s'.rpcs[k]? = some rpc) : ∃ p f beyond,
      rpc.wrapper.MadeFor cluster.text p (groups rpc.sender f).1 (groups rpc.sender f).2 ∧
        rpc.message = rpc.wrapper.groupMsg cluster.text (requestMessage beyond rpc.request) := by
  cases filed_of_takes htakes hrpc with
  | kept rpc hold => exact hs.made k rpc hold
  | sent n w request beyond wrapper transport hwrapper hk =>
    obtain ⟨p, f, hmade⟩ := (hs.labelled n).wrappers w wrapper hwrapper
    exact ⟨p, f, beyond, hmade, rfl⟩
  | arrived n t rpc hl hold => exact hs.made k rpc hold
  | replied n t rpc reply hold => exact hs.made k rpc hold
  | failed rpc status hold => exact hs.made k rpc hold

/-- A call is completed by the reply of the thread it arrived in, or by gRPC with an error. -/
theorem Inv.completed_of_takes (hs : Inv cluster groups s) (htakes : Takes cluster s l s')
    {rpc : Rpc} {c : Completion} (hrpc : s'.rpcs[k]? = some rpc) (hc : rpc.completion = some c) :
    (∃ n t reply, rpc.arrival = some (n, t) ∧
      replyOf ((s'.machines n).manager.threads t) = some reply ∧
      c = complete reply.status reply.msg) ∨
    ∃ status, status.code ≠ .ok ∧ c = complete status ⟨none, none⟩ := by
  cases filed_of_takes htakes hrpc with
  | kept rpc hold =>
    refine (hs.completed k rpc c hold hc).imp_left ?_
    rintro ⟨n, t, reply, harrival, hreply, heq⟩
    exact ⟨n, t, reply, harrival, replyOf_of_takes htakes hreply, heq⟩
  | sent => cases hc
  | arrived n t rpc hl hold hnew hidle =>
    -- gRPC had given up on the message before it arrived
    refine Or.inr ((hs.completed k rpc c hold hc).resolve_left ?_)
    rintro ⟨n, t, reply, harrival, -⟩
    rw [hnew] at harrival
    cases harrival
  | replied n t rpc reply hold harrival hreply =>
    cases hc
    exact Or.inl ⟨n, t, reply, harrival, replyOf_of_takes htakes hreply, rfl⟩
  | failed rpc status hold hfailed =>
    cases hc
    exact Or.inr ⟨status, hfailed, rfl⟩

/-- Each field is kept by every rule of the network. -/
theorem Inv.step (hs : Inv cluster groups s) (hstep : Network.step cluster s l = some s') :
    Inv cluster groups s' := by
  have htakes := takes_of_step hstep
  constructor
  · intro n
    obtain ⟨ks, hrun⟩ := projects_factories cluster n s l s' hstep
    exact run_invariant (I := Factory.Labelled cluster.text (groups n))
      (fun _ _ _ hx hstep => hx.step hstep) (hs.labelled n) hrun
  · intro n t msg hmsg
    exact hs.handled_of_takes htakes hmsg
  · intro k rpc n t hrpc harrival
    exact hs.arrived_of_takes htakes hrpc harrival
  · intro k k' rpc rpc' a hrpc hrpc' ha ha'
    exact hs.sole_of_takes htakes hrpc hrpc' ha ha'
  · intro k rpc hrpc
    exact hs.made_of_takes htakes hrpc
  · intro k rpc c hrpc hc
    exact hs.completed_of_takes htakes hrpc hc

/-- It holds in every reachable state. -/
theorem inv_of_run (hrun : run (step cluster) (start types groups) labels = some s) :
    Inv cluster groups s :=
  run_invariant (I := Inv cluster groups) (fun _ _ _ hs hstep => hs.step hstep) inv_start hrun

/-! ## Requests -/

/-- A message was made by a wrapper, so a node that lets it in is the one that the wrapper was
made for. -/
theorem Inv.addressed {rpc : Rpc} {g : GroupId} (hs : Inv cluster groups s)
    (hrpc : s.rpcs[k]? = some rpc) (hok : checkMessage (cluster.node n) rpc.message = .ok g) :
    ∃ f, (groups rpc.sender f).1 = g ∧ rpc.wrapper.MadeFor cluster.text
      (cluster.node n).serviceAddress g (groups rpc.sender f).2 := by
  obtain ⟨p, f, beyond, hmade, hmessage⟩ := hs.made k rpc hrpc
  rw [hmessage, ← cluster.text_eq n] at hok
  rw [← cluster.text_eq n] at hmade
  obtain ⟨rfl, rfl⟩ := Delivery.admitted_groupMsg hmade hok
  rw [cluster.text_eq n] at hmade
  exact ⟨f, rfl, hmade⟩

/-- The request that is decoded from a message on record is the one that was sent. -/
theorem Inv.decoded {rpc : Rpc} {req : ReqMsg} (hs : Inv cluster groups s)
    (hrpc : s.rpcs[k]? = some rpc) (hdecode : toRequest rpc.message.msg = some req) :
    req.SameContent rpc.request := by
  obtain ⟨p, f, beyond, -, hmessage⟩ := hs.made k rpc hrpc
  have hmsg : rpc.message.msg = requestMessage beyond rpc.request := by
    rw [hmessage]
    rfl
  rw [hmsg] at hdecode
  cases hdecode
  constructor
  · simp [requestMessage, RaftMessage.getBase, fromBaseRequest]
  · rfl
  · rfl
  · rfl
  · exact toLogEntry_fromRCRequest beyond rpc.request

/-- A thread that has called `process_req` was started by a message on record, which was meant
for this node and this group. -/
theorem processed_of_run (hrun : run (step cluster) (start types groups) labels = some s)
    {msg : RaftGroupMsg} {g : GroupId} {server : ℕ} {req : ReqMsg} {reply : Reply}
    (hdone : (s.machines n).manager.threads t = .done (.processed msg g server req reply)) :
    checkMessage (cluster.node n) msg = .ok g ∧
      ∃ beyond answer, executeStep beyond msg answer = some (req, reply) := by
  obtain ⟨ks, hnode⟩ := (projects_manager cluster n).run hrun
  have hadmitted := Manager.admitted_of_run hnode t
  obtain ⟨pc, input, hreplied⟩ := Manager.replied_of_run hnode t
  rw [hdone] at hadmitted hreplied
  obtain ⟨pool, around, -, -, hexecute⟩ := hreplied
  exact ⟨hadmitted, around.beyond, around.answer, hexecute⟩

/-- In every run of every network: a request that a node has handed to `process_req` for a
group was sent by some node over a wrapper that was made there for this node's address and
this group, it arrives with the content with which it was sent, and no other message was
handled by the same thread. -/
theorem requests_authentic (cluster : Cluster) (types : ℕ → List GroupType)
    (groups : ℕ → ℕ → GroupId × GroupType) (labels : List Label) (s : State)
    (hrun : run (step cluster) (start types groups) labels = some s) (n t : ℕ)
    (msg : RaftGroupMsg) (g : GroupId) (server : ℕ) (req : ReqMsg) (reply : Reply)
    (hdone : (s.machines n).manager.threads t = .done (.processed msg g server req reply)) :
    ∃ (k : ℕ) (rpc : Rpc) (f : ℕ), s.rpcs[k]? = some rpc ∧ rpc.arrival = some (n, t) ∧
      rpc.message = msg ∧ (groups rpc.sender f).1 = g ∧
      rpc.wrapper.MadeFor cluster.text (cluster.node n).serviceAddress g
        (groups rpc.sender f).2 ∧
      req.SameContent rpc.request ∧
      ∀ (k' : ℕ) (rpc' : Rpc), s.rpcs[k']? = some rpc' → rpc'.arrival = some (n, t) → k' = k := by
  have hs : Inv cluster groups s := inv_of_run hrun
  obtain ⟨hadmitted, beyond, answer, hexecute⟩ := processed_of_run hrun hdone
  have hmsg : ((s.machines n).manager.threads t).message = some msg := by
    rw [hdone]
    rfl
  obtain ⟨k, rpc, hrpc, harrival, rfl⟩ := hs.handled n t msg hmsg
  obtain ⟨f, hgroup, hmade⟩ := hs.addressed hrpc hadmitted
  obtain ⟨req', hdecode, hresult⟩ := Option.map_eq_some_iff.mp hexecute
  cases hresult
  refine ⟨k, rpc, f, hrpc, harrival, rfl, hgroup, hmade, hs.decoded hrpc hdecode, ?_⟩
  intro k' rpc' hrpc' harrival'
  exact hs.sole k' k rpc' rpc (n, t) hrpc' hrpc harrival' harrival

/-- A request to vote, from server 2 to server 1. -/
def voteRequest : ReqMsg where
  term := 4
  type := ⟨1⟩
  src := 2
  dst := 1
  lastLogTerm := 3
  lastLogIdx := 9
  commitIdx := 8
  logEntries := []

/-- It is granted. -/
def voteResponse : RespMsg where
  term := 4
  type := ⟨2⟩
  src := 1
  dst := 2
  nextIdx := 10
  accepted := true
  nextBatchSizeHintInBytes := 0
  resultCode := .ok
  ctx := none

/-- Node 1 creates group 1, and node 0 makes a client for node 1 and sends it the request, which
is handled there. -/
def voteSent : List Label :=
  [.factory 0 (.request 0 1 true .caller Factory.connected), .factory 0 (.finish 0),
    .manager 1 (.thread 0 (.call (.createGroup 1 "raft")))] ++
  List.replicate 6 (.manager 1 (.thread 0 (.go { created := .stateMgr 10 }))) ++
  [.send 0 0 voteRequest fun _ => 0, .arrive 0 1 1, .manager 1 (.thread 1 (.go {})),
    .manager 1 (.thread 1 (.go {})),
    .manager 1 (.thread 1 (.go { answer := .resp voteResponse none }))]

/-- The request that node 1 has processed is the one that node 0 sent. -/
theorem authentic_after_voteSent :
    ∃ (s : State) (k : ℕ) (rpc : Rpc) (req : ReqMsg),
      run (step sampleCluster) (start (fun _ => ["raft"]) fun _ _ => (1, "raft")) voteSent =
        some s ∧
      s.rpcs[k]? = some rpc ∧ rpc.arrival = some (1, 1) ∧
      rpc.wrapper.clientAddr = canonicalText.toString 1 ∧ req.SameContent rpc.request := by
  obtain ⟨s, msg, req, reply, hrun, hdone⟩ : ∃ (s : State) (msg : RaftGroupMsg) (req : ReqMsg)
      (reply : Reply),
      run (step sampleCluster) (start (fun _ => ["raft"]) fun _ _ => (1, "raft")) voteSent =
        some s ∧
      (s.machines 1).manager.threads 1 = .done (.processed msg 1 0 req reply) :=
    ⟨_, _, _, _, rfl, rfl⟩
  obtain ⟨k, rpc, f, hrpc, harrival, -, -, ⟨haddr, -⟩, hsame, -⟩ :=
    requests_authentic sampleCluster _ _ voteSent s hrun 1 1 msg 1 0 req reply hdone
  exact ⟨s, k, rpc, req, hrun, hrpc, harrival, haddr, hsame⟩

/-! ## Responses -/

/-- The completion handler is called with a response or with an exception, never with both. -/
theorem complete_exclusive (status : Status) (response : RaftMessage) :
    (complete status response).resp.isSome ↔ (complete status response).err = none := by
  unfold complete
  split
  · cases toResponse response <;> simp
  · simp

/-- The completion of a call has a response or an error, never both. -/
theorem Inv.exclusive {rpc : Rpc} {c : Completion} (hs : Inv cluster groups s)
    (hrpc : s.rpcs[k]? = some rpc) (hcompleted : rpc.completion = some c) :
    c.resp.isSome ↔ c.err = none := by
  rcases hs.completed k rpc c hrpc hcompleted with ⟨n, t, reply, -, -, rfl⟩ | ⟨status, -, rfl⟩
  · exact complete_exclusive _ _
  · exact complete_exclusive _ _

/-- It gets a response only if the status was good. -/
theorem complete_resp {status : Status} {response : RaftMessage} {r : GrpcResp}
    (hresp : (complete status response).resp = some r) :
    status.code = .ok ∧ toResponse response = some r := by
  unfold complete at hresp
  split at hresp
  · next hok =>
    refine ⟨hok, ?_⟩
    cases hdecode : toResponse response with
    | none =>
      rw [hdecode] at hresp
      cases hresp
    | some r' =>
      rw [hdecode] at hresp
      exact hresp
  · cases hresp

/-- What a response keeps of the answer of `process_req`; the context only if its buffer
stood at its beginning. -/
structure Conveys (r : GrpcResp) (resp : RespMsg) : Prop where
  base : r.toMsgBase = resp.toMsgBase
  nextIdx : r.nextIdx = resp.nextIdx
  accepted : r.accepted = resp.accepted
  hint : r.nextBatchSizeHintInBytes = resp.nextBatchSizeHintInBytes
  resultCode : r.resultCode = resp.resultCode
  same : (∀ ctx, resp.ctx = some ctx → ctx.pos = 0) → r.SameContent resp

/-- Adding the endpoint of the leader changes nothing else. -/
theorem toResponse_setDestAddr (reply : RaftMessage) (endpoint : String) :
    (toResponse (setDestAddr reply endpoint)).map GrpcResp.toRespMsg =
      (toResponse reply).map GrpcResp.toRespMsg := by
  rcases reply with ⟨base, _ | req | resp⟩ <;> rfl

/-- The address of the leader is not part of what the sender's NuRaft gets. -/
theorem toResponse_stepReply (beyond : ℕ → UInt8) (resp : RespMsg) (endpoint : Option String) :
    (toResponse (stepReply beyond resp endpoint)).map GrpcResp.toRespMsg =
      (toResponse (replyMessage beyond resp)).map GrpcResp.toRespMsg := by
  unfold stepReply
  split
  · rfl
  · cases endpoint with
    | none => rfl
    | some endpoint => exact toResponse_setDestAddr _ endpoint

/-- The way over the wire conveys the answer. -/
theorem conveys_stepReply {beyond : ℕ → UInt8} {resp : RespMsg} {endpoint : Option String}
    {r : GrpcResp} (hr : toResponse (stepReply beyond resp endpoint) = some r) :
    Conveys r resp := by
  have hsame := toResponse_stepReply beyond resp endpoint
  obtain ⟨r', hr', hcontext⟩ := toResponse_replyMessage beyond resp
  have hfields : r.toRespMsg = r'.toRespMsg := by
    rw [hr, hr'] at hsame
    exact Option.some.inj hsame
  cases hr'
  constructor
  · rw [hfields]
    simp [replyMessage, RaftMessage.getBase, fromBaseRequest]
  · rw [hfields]
    rfl
  · rw [hfields]
    rfl
  · rw [hfields]
    simp [fromRCResponse]
  · rw [hfields]
    simp [fromRCResponse]
  · intro hpos
    rw [hfields]
    exact hcontext.mpr ((fromRCResponse_context_iff resp).mpr hpos beyond)

/-- A reply with a good status carries an answer of `process_req`. -/
theorem answered_of_executeStep {beyond : ℕ → UInt8} {msg : RaftGroupMsg} {answer : Answer}
    {req : ReqMsg} {reply : Reply} (hexecute : executeStep beyond msg answer = some (req, reply))
    (hok : reply.status.code = .ok) :
    ∃ resp endpoint, answer = .resp resp endpoint ∧ reply.msg = stepReply beyond resp endpoint := by
  obtain ⟨req', -, hresult⟩ := Option.map_eq_some_iff.mp hexecute
  cases answer with
  | resp resp endpoint =>
    cases hresult
    exact ⟨resp, endpoint, rfl, rfl⟩
  | null =>
    cases hresult
    cases hok
  | throws =>
    cases hresult
    cases hok

/-- `raftStep` never answers with a good status by itself. -/
theorem status_of_answered (hrun : run (step cluster) (start types groups) labels = some s)
    {msg : RaftGroupMsg} {reply : Reply}
    (hdone : (s.machines n).manager.threads t = .done (.answered msg reply)) :
    reply.status.code ≠ .ok := by
  obtain ⟨ks, hnode⟩ := (projects_manager cluster n).run hrun
  obtain ⟨pc, input, hreplied⟩ := Manager.replied_of_run hnode t
  rw [hdone] at hreplied
  exact hreplied

/-- With label `l`, in state `s`, node `n` handles message `k`: the thread of the message calls
`process_req` on the server of the group with `req`, which comes back with `resp`, and `endpoint`
is what the configuration of the server has for the server that `resp` names. -/
def Answers (k n : ℕ) (g : GroupId) (req : ReqMsg) (resp : RespMsg) (endpoint : Option String)
    (s : State) (l : Label) : Prop :=
  ∃ rpc t server pool around reply, s.rpcs[k]? = some rpc ∧ rpc.arrival = some (n, t) ∧
    (s.machines n).manager.threads t = .stepTask rpc.message g server pool ∧
    l = .manager n (.thread t (.go around)) ∧ around.answer = .resp resp endpoint ∧
    executeStep around.beyond rpc.message around.answer = some (req, reply)

/-- The step in which a thread comes to its reply is the call of `process_req`, for the message on
record that the thread was started on. -/
theorem Inv.processes {msg : RaftGroupMsg} {g : GroupId} {server : ℕ} {req : ReqMsg} {reply : Reply}
    (hs : Inv cluster groups s) (hstep : Network.step cluster s l = some s')
    (hbefore : (s.machines n).manager.threads t ≠ .done (.processed msg g server req reply))
    (hafter : (s'.machines n).manager.threads t = .done (.processed msg g server req reply)) :
    ∃ (k : ℕ) (rpc : Rpc) (pool : Pool) (around : Manager.Surroundings),
      s.rpcs[k]? = some rpc ∧ rpc.arrival = some (n, t) ∧ rpc.message = msg ∧
      (s.machines n).manager.threads t = .stepTask msg g server pool ∧
      l = .manager n (.thread t (.go around)) ∧
      executeStep around.beyond msg around.answer = some (req, reply) := by
  rcases thread_of_takes (takes_of_step hstep) n t with heq | ⟨r, r', input, rfl, -, hmoves⟩ |
    ⟨_, _, _, _, _, _, hthread⟩
  · exact absurd (heq.symm.trans hafter) hbefore
  · rw [hafter] at hmoves
    obtain ⟨pool, around, hthread, rfl, hexecute⟩ := hmoves.replied
    obtain ⟨k, rpc, hrpc, harrival, hmessage⟩ := hs.handled n t msg (by rw [hthread]; rfl)
    exact ⟨k, rpc, pool, around, hrpc, harrival, hmessage, hthread, rfl, hexecute⟩
  · rw [hafter] at hthread
    cases hthread

/-- A response at the sender of a message is the reply of the thread that has handled it, on the
node and for the group that the message was meant for. -/
theorem processed_of_completed (hrun : run (step cluster) (start types groups) labels = some s)
    {rpc : Rpc} {c : Completion} {r : GrpcResp} (hrpc : s.rpcs[k]? = some rpc)
    (hcompleted : rpc.completion = some c) (hr : c.resp = some r) :
    ∃ n t g server req reply, rpc.arrival = some (n, t) ∧
      (s.machines n).manager.threads t = .done (.processed rpc.message g server req reply) ∧
      rpc.wrapper.clientAddr = cluster.text.toString (cluster.node n).serviceAddress ∧
      rpc.wrapper.groupId = g ∧ req.SameContent rpc.request ∧
      reply.status.code = .ok ∧ toResponse reply.msg = some r := by
  have hs : Inv cluster groups s := inv_of_run hrun
  rcases hs.completed k rpc c hrpc hcompleted with ⟨n, t, reply, harrival, hreply, rfl⟩ |
    ⟨status, hfailed, rfl⟩
  · obtain ⟨hok, hdecode⟩ := complete_resp hr
    obtain ⟨-, hsame⟩ := hs.arrived k rpc n t hrpc harrival
    obtain ⟨msg, g, server, req, hdone⟩ : ∃ msg g server req,
        (s.machines n).manager.threads t = .done (.processed msg g server req reply) := by
      have hanswered : ∀ msg, (s.machines n).manager.threads t ≠ .done (.answered msg reply) :=
        fun msg hdone => status_of_answered hrun hdone hok
      generalize (s.machines n).manager.threads t = pc at hreply hanswered
      cases pc with
      | done outcome =>
        cases outcome with
        | answered msg reply' =>
          cases hreply
          exact absurd rfl (hanswered msg)
        | processed msg g server req reply' =>
          cases hreply
          exact ⟨msg, g, server, req, rfl⟩
        | _ => cases hreply
      | _ => cases hreply
    obtain rfl : msg = rpc.message := hsame msg (by rw [hdone]; rfl)
    obtain ⟨hadmitted, beyond, answer, hexecute⟩ := processed_of_run hrun hdone
    obtain ⟨f, -, haddr, hgroup, -⟩ := hs.addressed hrpc hadmitted
    have hreq : toRequest rpc.message.msg = some req := by
      obtain ⟨req', hreq, hresult⟩ := Option.map_eq_some_iff.mp hexecute
      cases hresult
      exact hreq
    exact ⟨n, t, g, server, req, reply, harrival, hdone, haddr, hgroup, hs.decoded hrpc hreq, hok,
      hdecode⟩
  · exact absurd (complete_resp hr).1 hfailed

/-- In every run of every network: when a Raft message has completed, its sender has got
either an exception or a response. For a response the run has a step in which the node that the
wrapper was made for hands the very request that was sent to `process_req`, for the group of the
wrapper, and the response is what this call came back with; on the way it loses at most a context
whose buffer did not stand at its beginning. -/
theorem responses_authentic (cluster : Cluster) (types : ℕ → List GroupType)
    (groups : ℕ → ℕ → GroupId × GroupType) (labels : List Label) (s : State)
    (hrun : run (step cluster) (start types groups) labels = some s) (k : ℕ) (rpc : Rpc)
    (c : Completion) (hrpc : s.rpcs[k]? = some rpc) (hcompleted : rpc.completion = some c) :
    (c.resp.isSome ↔ c.err = none) ∧
    ∀ r, c.resp = some r → ∃ n g req resp endpoint,
      rpc.wrapper.clientAddr = cluster.text.toString (cluster.node n).serviceAddress ∧
      rpc.wrapper.groupId = g ∧ req.SameContent rpc.request ∧
      Occurs (step cluster) (Answers k n g req resp endpoint) (start types groups) labels ∧
      Conveys r resp := by
  refine ⟨(inv_of_run hrun).exclusive hrpc hcompleted, fun r hr => ?_⟩
  obtain ⟨n, t, g, server, req, reply, harrival, hdone, haddr, hgroup, hsame, hok, hdecode⟩ :=
    processed_of_completed hrun hrpc hcompleted hr
  -- the step in which the thread came to its reply
  obtain ⟨front, l, back, mid, mid', rfl, hfront, hstep, hbefore, hafter⟩ :=
    exists_moment (Q := fun s => (s.machines n).manager.threads t =
      .done (.processed rpc.message g server req reply)) Manager.Pc.noConfusion hdone hrun
  have hmid : Inv cluster groups mid := inv_of_run hfront
  have hback : run (step cluster) mid (l :: back) = some s := by
    rw [run_append, hfront] at hrun
    exact hrun
  obtain ⟨k', old, pool, around, hold, harrival', hmessage, hthread, rfl, hexecute⟩ :=
    hmid.processes hstep hbefore hafter
  obtain ⟨rpc', hrpc', hlater⟩ := exists_rpc_of_run hback hold
  obtain rfl : k' = k := (inv_of_run hrun).sole k' k rpc' rpc (n, t) hrpc' hrpc
    (hlater.arrival _ harrival') harrival
  obtain ⟨resp, endpoint, hanswer, hmsg⟩ := answered_of_executeStep hexecute hok
  rw [hmsg] at hdecode
  rw [← hmessage] at hexecute hthread
  exact ⟨n, g, req, resp, endpoint, haddr, hgroup, hsame, ⟨front, _, back, mid, rfl, hfront, old, t,
    server, pool, around, reply, hold, harrival', hthread, rfl, hanswer, hexecute⟩,
    conveys_stepReply hdecode⟩

/-- The sender of the vote gets the answer of the server. -/
theorem authentic_after_voteReply :
    ∃ (s : State) (rpc : Rpc) (r : GrpcResp) (n : ℕ) (req : ReqMsg) (resp : RespMsg)
      (endpoint : Option String),
      run (step sampleCluster) (start (fun _ => ["raft"]) fun _ _ => (1, "raft"))
        (voteSent ++ [.reply 0]) = some s ∧
      s.rpcs[0]? = some rpc ∧ rpc.completion = some ⟨some r, none⟩ ∧
      Occurs (step sampleCluster) (Answers 0 n rpc.wrapper.groupId req resp endpoint)
        (start (fun _ => ["raft"]) fun _ _ => (1, "raft")) (voteSent ++ [.reply 0]) ∧
      Conveys r resp := by
  obtain ⟨s, rpc, r, hrun, hrpc, hcompleted⟩ : ∃ (s : State) (rpc : Rpc) (r : GrpcResp),
      run (step sampleCluster) (start (fun _ => ["raft"]) fun _ _ => (1, "raft"))
        (voteSent ++ [.reply 0]) = some s ∧
      s.rpcs[0]? = some rpc ∧ rpc.completion = some ⟨some r, none⟩ :=
    ⟨_, _, _, rfl, rfl, rfl⟩
  obtain ⟨-, hresponse⟩ :=
    responses_authentic sampleCluster _ _ _ s hrun 0 rpc _ hrpc hcompleted
  obtain ⟨n, _, req, resp, endpoint, -, rfl, -, hoccurs, hconveys⟩ := hresponse r rfl
  exact ⟨s, rpc, r, n, req, resp, endpoint, hrun, hrpc, hcompleted, hoccurs, hconveys⟩

end Network

end NuraftMesg
