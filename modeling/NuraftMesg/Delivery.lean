import NuraftMesg.Factory.Healing
import NuraftMesg.Manager.Admission
import NuraftMesg.Manager.Joins

/-!
# Delivery of Raft messages

A wrapper puts the peer and the group it was made for into every message. Whatever
node the message reaches, only the one with the peer's address takes it in; the
others answer `INVALID_ARGUMENT`, and the sender gives up the transport on which the
answer came.
-/

namespace NuraftMesg

open Proto

/-- The wrapper was constructed for the peer, the group and the group type. -/
def Factory.Wrapper.MadeFor (text : UuidText) (p : PeerId) (g : GroupId) (ty : GroupType)
    (w : Factory.Wrapper) : Prop :=
  w.clientAddr = text.toString p ∧ w.groupId = g ∧ w.groupType = ty

namespace Delivery

open Factory (Wrapper State NoWrap)

variable {node : Node} {p : PeerId} {g g' : GroupId} {ty : GroupType} {w : Wrapper}

/-- A node with another address refuses the message. -/
theorem checkMessage_of_ne (hmade : w.MadeFor node.text p g ty) (hother : node.serviceAddress ≠ p)
    (message : RaftMessage) :
    checkMessage node (w.groupMsg node.text message) =
      .error (wrongService node (w.groupMsg node.text message)) := by
  obtain ⟨haddr, rfl, -⟩ := hmade
  simp [checkMessage, Wrapper.groupMsg, haddr, node.text.read_print, Ne.symm hother]

/-- A message that was let in has reached its peer, and its group is the right one. -/
theorem admitted_groupMsg {message : RaftMessage} (hmade : w.MadeFor node.text p g ty)
    (hok : checkMessage node (w.groupMsg node.text message) = .ok g') :
    node.serviceAddress = p ∧ g' = g := by
  obtain ⟨haddr, rfl, -⟩ := hmade
  obtain ⟨hgroup, haddress⟩ := checkMessage_eq_ok hok
  have hpeer : node.text.stringGenerator w.clientAddr = some p := by
    rw [haddr, node.text.read_print]
  have hown : node.text.stringGenerator (node.text.toString w.groupId) = some w.groupId :=
    node.text.read_print w.groupId
  exact ⟨Option.some.inj (haddress.symm.trans hpeer), Option.some.inj (hgroup.symm.trans hown)⟩

/-- For every message that a wrapper made for `p` and `g` sends: on whatever node it
arrives, `process_req` is called only on the node of `p` and on the server that was
registered there for `g` when the message looked for it, and any other node answers
`INVALID_ARGUMENT` and does nothing else. In every run of the sender in which no
`bad_service` wraps, after such an answer a call for `p` on any factory does not get
the same transport again: it throws because `make` throws, returns an error client, or
returns a wrapper over a transport that it had made and that is now the cached one. -/
theorem misdelivery_rejected_and_healed (text : UuidText) (p : PeerId) (g : GroupId)
    (ty : GroupType) (w : Wrapper) (hmade : w.MadeFor text p g ty) (message : RaftMessage) :
    (∀ (node : Node) types labels c u, node.text = text →
      Transition.run (Manager.step node) (Manager.start types) labels = some c →
      (∀ g' server req reply,
        c.threads u = .done (.processed (w.groupMsg text message) g' server req reply) →
        node.serviceAddress = p ∧ g' = g ∧ ∃ front back mid joined, labels = front ++ back ∧
          Transition.run (Manager.step node) (Manager.start types) front = some mid ∧
          mid.threads u = .stepFind (w.groupMsg text message) g joined ∧
          mid.shared.raftServers g = some server) ∧
      (node.serviceAddress ≠ p → (c.threads u).message = some (w.groupMsg text message) →
        (c.threads u = .stepCheck (w.groupMsg text message) ∨
          ∃ reply, c.threads u = .done (.answered (w.groupMsg text message) reply) ∧
            reply.status.code = .invalidArgument) ∧
        (c.threads u = .stepCheck (w.groupMsg text message) → ∀ around, ∃ c' reply,
          Manager.step node c (.thread u (.go around)) = some c' ∧ c'.shared = c.shared ∧
            c'.threads u = .done (.answered (w.groupMsg text message) reply) ∧
            reply.status.code = .invalidArgument))) ∧
    (∀ groups ls t back s,
      Transition.Meets (Factory.step text) NoWrap (State.init groups)
        (ls ++ .raftDone t .invalidArgument :: back) →
      Transition.run (Factory.step text) (State.init groups)
        (ls ++ .raftDone t .invalidArgument :: back) = some s →
      s.groupClients.lookup p = some (some (.messaging t)) →
      ∀ f force purpose around asked, s.request f p force purpose around = some asked →
        ((asked.factories f).busy = none → ∃ constructed, around.made = .throws constructed) ∧
        ∀ mid before s' returned, (asked.factories f).busy ≠ none → .finish f ∉ mid →
          Transition.run (Factory.step text) asked mid = some before →
          before.finish text f = some (s', returned) →
          (∃ id, returned = some (.error id)) ∨
            ∃ (v : ℕ) (wrapper : Wrapper), returned = some (.proto v) ∧
              (s'.factories f).clients.lookup p = some (some (.proto v)) ∧
              s'.heap.wrappers[v]? = some wrapper ∧
              wrapper.client = some s.heap.transports.length ∧
              asked.groupClients.lookup p = some (some (.messaging s.heap.transports.length)) ∧
              t ≠ s.heap.transports.length) := by
  refine ⟨?_, ?_⟩
  · rintro node types labels c u rfl hrun
    have hadmitted := Manager.admitted_of_run hrun u
    refine ⟨fun g' server req reply hthread => ?_, fun hother hmsg => ?_⟩
    · rw [hthread] at hadmitted
      obtain ⟨haddress, rfl⟩ := admitted_groupMsg hmade hadmitted
      refine ⟨haddress, rfl, Manager.serves_registered hrun ?_⟩
      rw [hthread]
      exact ⟨rfl, rfl, rfl⟩
    · have hcheck := checkMessage_of_ne hmade hother message
      have hcode := checkMessage_eq_error hcheck
      refine ⟨(hadmitted.of_error hmsg hcheck).imp_right ?_, fun hthread around => ?_⟩
      · rintro ⟨reply, hdone, hstatus⟩
        exact ⟨reply, hdone, by rw [hstatus]; exact hcode⟩
      · obtain ⟨c', hstep, hshared, hdone⟩ := Manager.step_of_error around hthread hcheck
        exact ⟨c', _, hstep, hshared, hdone, hcode⟩
  · intro groups ls t back s hmeets hrun hentry f force purpose around asked hrequest
    have hbad : Factory.IsBad s t := Factory.isBad_after_raftDone hmeets hrun
    refine ⟨fun hfree => ?_, fun mid before s' returned hlocked hothers hbetween hfinish => ?_⟩
    · rcases Factory.request_avoids hrequest hentry hbad with ⟨pending, checked, hbusy, -⟩ |
        ⟨pending, hbusy, -⟩ | ⟨constructed, hthrows, -⟩
      · cases hfree.symm.trans hbusy
      · cases hfree.symm.trans hbusy
      · exact ⟨constructed, hthrows⟩
    · refine (Factory.call_avoids hrun hentry hbad hrequest hlocked hothers hbetween
        hfinish).imp_right ?_
      rintro ⟨v, wrapper, hreturned, hkept, hwrapper, hclient, hcached⟩
      exact ⟨v, wrapper, hreturned, hkept, hwrapper, hclient, hcached, Nat.ne_of_lt hbad.lt⟩

/-- A wrapper for peer `5`, which is not the address of the sample node. -/
def sampleWrapper : Wrapper where
  id := 1
  client := some 0
  groupId := 1
  groupType := "raft"
  clientAddr := canonicalText.toString 5
  checked := 0

/-- Its message is refused by the sample node; after the refusal NuRaft gets a client
over a new transport. -/
theorem refused_and_healed :
    (∃ c c' reply, Transition.run (Manager.step Manager.sampleNode) (Manager.start ["raft"])
        [.thread 0 (.call (.raftStep (sampleWrapper.groupMsg canonicalText ⟨none, none⟩)))] =
          some c ∧
      Manager.step Manager.sampleNode c (.thread 0 (.go {})) = some c' ∧ c'.shared = c.shared ∧
      c'.threads 0 =
        .done (.answered (sampleWrapper.groupMsg canonicalText ⟨none, none⟩) reply) ∧
      reply.status.code = .invalidArgument) ∧
    ∃ s asked s' wrapper, Transition.run (Factory.step canonicalText)
        (State.init fun f => (f, "raft"))
        ((Factory.createOnce ++ [.sendRaft 0]) ++ [.raftDone 0 .invalidArgument]) = some s ∧
      s.request 0 5 true .caller Factory.connected = some asked ∧
      asked.finish canonicalText 0 = some (s', some (.proto 1)) ∧
      s'.heap.wrappers[1]? = some wrapper ∧ wrapper.client = some 1 := by
  obtain ⟨hrejected, hhealed⟩ := misdelivery_rejected_and_healed canonicalText 5 1 "raft"
    sampleWrapper ⟨rfl, rfl, rfl⟩ ⟨none, none⟩
  constructor
  · obtain ⟨c, hrun, hthread⟩ : ∃ c, Transition.run (Manager.step Manager.sampleNode)
        (Manager.start ["raft"])
        [.thread 0 (.call (.raftStep (sampleWrapper.groupMsg canonicalText ⟨none, none⟩)))] =
          some c ∧
        c.threads 0 = .stepCheck (sampleWrapper.groupMsg canonicalText ⟨none, none⟩) :=
      ⟨_, rfl, rfl⟩
    obtain ⟨-, hother⟩ := hrejected Manager.sampleNode _ _ c 0 rfl hrun
    obtain ⟨c', reply, hanswered⟩ :=
      (hother (by decide) (by rw [hthread]; rfl)).2 hthread {}
    exact ⟨c, c', reply, hrun, hanswered⟩
  · obtain ⟨s, asked, s', hrun, hcached, hrequest, hlocked, hfinish, hlength⟩ : ∃ s asked s',
        Transition.run (Factory.step canonicalText) (State.init fun f => (f, "raft"))
          ((Factory.createOnce ++ [.sendRaft 0]) ++ [.raftDone 0 .invalidArgument]) = some s ∧
        s.groupClients.lookup 5 = some (some (.messaging 0)) ∧
        s.request 0 5 true .caller Factory.connected = some asked ∧
        (asked.factories 0).busy ≠ none ∧
        asked.finish canonicalText 0 = some (s', some (.proto 1)) ∧ s.heap.transports.length = 1 :=
      ⟨_, _, _, rfl, rfl, rfl, Option.some_ne_none _, rfl, rfl⟩
    have hcall := (hhealed _ _ 0 [] s (by decide) hrun hcached 0 true .caller Factory.connected
      asked hrequest).2 [] asked s' _ hlocked (by simp) rfl hfinish
    rcases hcall with ⟨id, herror⟩ | ⟨v, wrapper, hv, -, hwrapper, hclient, -⟩
    · cases herror
    · cases hv
      exact ⟨s, asked, s', wrapper, hrun, hrequest, hfinish, hwrapper, hlength ▸ hclient⟩

/-- The answer that wraps the counter makes a misdirected transport look healthy: the
next call gets it again. -/
theorem misdirected_transport_reused :
    ∃ before s asked s' wrapper, Transition.run (Factory.step canonicalText)
        (State.init fun f => (f, "raft"))
        (Factory.createOnce ++ Factory.badAnswers (2 ^ 32 - 1) ++ [.sendRaft 0]) = some before ∧
      Factory.step canonicalText before (.raftDone 0 .invalidArgument) = some s ∧
      s.groupClients.lookup 5 = some (some (.messaging 0)) ∧
      s.request 0 5 true .caller Factory.connected = some asked ∧
      asked.finish canonicalText 0 = some (s', some (.proto 1)) ∧
      s'.heap.wrappers[1]? = some wrapper ∧ wrapper.client = some 0 := by
  obtain ⟨created, wrapper, x, hcreated, hwrapper, hclient, hx, hrest⟩ :
      ∃ created wrapper x, Transition.run (Factory.step canonicalText)
          (State.init fun f => (f, "raft")) Factory.createOnce = some created ∧
        created.heap.wrappers[0]? = some wrapper ∧ wrapper.client = some 0 ∧
        created.heap.transports[0]? = some x ∧
        ∃ before s asked s' wrapper, Factory.step canonicalText
            (created.updateTransport 0 fun x =>
              { x with badService := x.badService + UInt32.ofNat (2 ^ 32 - 1) }) (.sendRaft 0) =
            some before ∧
          Factory.step canonicalText before (.raftDone 0 .invalidArgument) = some s ∧
          s.groupClients.lookup 5 = some (some (.messaging 0)) ∧
          s.request 0 5 true .caller Factory.connected = some asked ∧
          asked.finish canonicalText 0 = some (s', some (.proto 1)) ∧
          s'.heap.wrappers[1]? = some wrapper ∧ wrapper.client = some 0 :=
    ⟨_, _, _, rfl, rfl, rfl, rfl, _, _, _, _, _, rfl, rfl, rfl, rfl, rfl, rfl, rfl⟩
  obtain ⟨before, s, asked, s', wrapper', hsent, hanswered⟩ := hrest
  have hcounted := Transition.run_trans hcreated
    (Factory.run_badAnswers (2 ^ 32 - 1) hwrapper hclient hx)
  exact ⟨before, s, asked, s', wrapper', Transition.run_snoc hcounted hsent, hanswered⟩

end Delivery

end NuraftMesg
