import NuraftMesg.Factory.Identity
import NuraftMesg.Factory.Sharing

/-!
# Leaving a misdirected transport

An answer `INVALID_ARGUMENT` counts up `bad_service` of the transport it came over.
Nothing but a completed RPC changes this counter, and the group factory never hands
out a transport whose counter is not zero. The counter has 32 bits and wraps, so a
transport stays excluded as long as no increment happens on its largest value.
-/

namespace NuraftMesg.Factory

variable {text : UuidText} {groups : ℕ → GroupId × GroupType} {h h' : Heap}
  {clients clients' : Clients} {p : PeerId} {force : Bool} {around : Surroundings} {s s' : State}
  {f t : ℕ}

/-- The step does not wrap a `bad_service`: none is counted up from `2 ^ 32 - 1`. -/
def NoWrap (s : State) (l : Label) : Prop :=
  ∀ t ∈ l.bumped, s.heap.transports[t]?.map (·.badService) ≠ some 4294967295

instance (s : State) (l : Label) : Decidable (NoWrap s l) :=
  inferInstanceAs (Decidable (∀ t ∈ l.bumped, _))

/-- The transport is known to be bad. -/
def IsBad (s : State) (t : ℕ) : Prop := ∃ x, s.heap.transports[t]? = some x ∧ x.badService ≠ 0

/-- A bad transport is in the heap. -/
theorem IsBad.lt (hbad : IsBad s t) : t < s.heap.transports.length := by
  obtain ⟨x, hx, -⟩ := hbad
  exact Cells.lt_of_getElem? hx

/-- A counter that is not at its maximum does not wrap. -/
theorem succ_ne_zero_of_ne_max {n : UInt32} (hn : n ≠ 4294967295) : n + 1 ≠ 0 := by
  intro hzero
  apply hn
  have hnat := congrArg UInt32.toNat hzero
  have hlt := n.toNat_lt
  rw [UInt32.toNat_add] at hnat
  apply UInt32.toNat_inj.mp
  simp at hnat ⊢
  omega

/-- Nor does the counter of the transport that an answer counts on. -/
theorem NoWrap.succ_ne_zero {l : Label} {x : Transport} (hwrap : NoWrap s l)
    (hbumps : l.bumped = some t) (hx : s.heap.transports[t]? = some x) : x.badService + 1 ≠ 0 := by
  have hmax := hwrap t hbumps
  rw [hx] at hmax
  exact succ_ne_zero_of_ne_max fun heq => hmax (congrArg some heq)

/-! ## What changes `bad_service` -/

/-- Calls on the group factory leave the existing transports alone. -/
theorem GroupMoves.transports_kept {returned : Returned} {x : Transport}
    (hmoves : GroupMoves h clients p force around h' clients' returned)
    (hx : h.transports[t]? = some x) : h'.transports[t]? = some x := by
  cases hmoves with
  | reuse => exact hx
  | fresh => exact Cells.getElem?_alloc hx
  | noEndpoint => exact hx
  | null constructed => cases constructed <;> exact hx
  | threw constructed => cases constructed <;> exact hx

/-- A step keeps `bad_service` of a transport or counts it up by one. -/
theorem step_badService {l : Label} {x : Transport} (hstep : step text s l = some s')
    (hx : s.heap.transports[t]? = some x) :
    ∃ x', s'.heap.transports[t]? = some x' ∧
      (x'.badService = x.badService ∨ l.bumped = some t ∧ x'.badService = x.badService + 1) := by
  rcases step_cases hstep with ⟨f, p, force, purpose, around, rfl, hrequest⟩ |
    ⟨f, slot, rfl, hfinish⟩ | ⟨p, force, around, h, groupClients, returned, rfl, hcall, rfl⟩ |
    ⟨-, hquiet, -⟩
  · obtain ⟨-, ⟨plan, h, groupClients, returned, -, hcall, rfl⟩ | ⟨slot, -, -, -, rfl⟩⟩ :=
      request_cases hrequest
    · exact ⟨x, (groupMoves_of_groupCall hcall).transports_kept hx, Or.inl rfl⟩
    · exact ⟨x, hx, Or.inl rfl⟩
  · exact ⟨x, by rw [finish_transports hfinish, hx], Or.inl rfl⟩
  · exact ⟨x, (groupMoves_of_groupCall hcall).transports_kept hx, Or.inl rfl⟩
  · obtain ⟨x', hx', -, hbad⟩ := hquiet.transports t x hx
    exact ⟨x', hx', hbad⟩

/-- A bad transport stays bad. -/
theorem IsBad.step {l : Label} (hbad : IsBad s t) (hwrap : NoWrap s l)
    (hstep : step text s l = some s') : IsBad s' t := by
  obtain ⟨x, hx, hne⟩ := hbad
  obtain ⟨x', hx', hsame | ⟨hbumps, hbump⟩⟩ := step_badService hstep hx
  · exact ⟨x', hx', by rw [hsame]; exact hne⟩
  · refine ⟨x', hx', ?_⟩
    rw [hbump]
    exact hwrap.succ_ne_zero hbumps hx

/-- An answer `INVALID_ARGUMENT` makes its transport bad. -/
theorem isBad_of_raftDone (hwrap : NoWrap s (.raftDone t .invalidArgument))
    (hstep : step text s (.raftDone t .invalidArgument) = some s') : IsBad s' t := by
  obtain ⟨x, hx, hstep⟩ := Option.bind_eq_some_iff.mp hstep
  split at hstep
  · cases hstep
  · cases hstep
    have hne : x.badService + 1 ≠ 0 := hwrap.succ_ne_zero rfl hx
    refine ⟨_, Cells.getElem?_update hx, ?_⟩
    rw [if_pos rfl]
    exact hne

/-- It is bad in every later state, as long as its counter does not wrap. -/
theorem isBad_after_raftDone {ls back : List Label}
    (hmeets : Transition.Meets (step text) NoWrap (State.init groups)
      (ls ++ .raftDone t .invalidArgument :: back))
    (hrun : Transition.run (step text) (State.init groups)
      (ls ++ .raftDone t .invalidArgument :: back) = some s) : IsBad s t := by
  rw [Transition.run_append] at hrun
  obtain ⟨before, hfront, hrest⟩ := Option.bind_eq_some_iff.mp hrun
  obtain ⟨after, hdone, hback⟩ := Option.bind_eq_some_iff.mp hrest
  obtain ⟨-, hwrap, hmeetsBack⟩ := hmeets.of_append hfront
  exact Transition.run_invariant_of_meets (I := (IsBad · t))
    (fun _ _ _ hbad hwrap hstep => hbad.step hwrap hstep) (isBad_of_raftDone hwrap hdone)
    (hmeetsBack after hdone) hback

/-! ## A call that finds a bad transport -/

/-- The group factory makes a new transport, returns an error client or throws. -/
theorem GroupMoves.avoids {returned : Returned} {x : Transport}
    (hmoves : GroupMoves h clients p false around h' clients' returned)
    (hentry : clients.lookup p = some (some (.messaging t))) (hx : h.transports[t]? = some x)
    (hbad : x.badService ≠ 0) :
    (returned = .client (some (.messaging h.transports.length)) ∧
      clients'.lookup p = some (some (.messaging h.transports.length))) ∨
    (∃ id, returned = .client (some (.error id))) ∨
    ∃ constructed, around.made = .throws constructed ∧ returned = .threw := by
  cases hmoves with
  | reuse u y hforce hentry' hy hready hgood hclients =>
    cases hentry.symm.trans hentry'
    cases hx.symm.trans hy
    exact absurd hgood hbad
  | fresh hrenews hendpoint hmade hclients =>
    exact Or.inl ⟨rfl, (hclients p).trans (if_pos rfl)⟩
  | noEndpoint hrenews hendpoint hclients => exact Or.inr (Or.inl ⟨_, rfl⟩)
  | null constructed hrenews hmade hclients => exact Or.inr (Or.inl ⟨_, rfl⟩)
  | threw constructed hrenews hthrows hclients =>
    exact Or.inr (Or.inr ⟨constructed, hthrows, rfl⟩)

/-- The first half of a call on any factory. -/
theorem request_avoids {purpose : Purpose}
    (hrequest : s.request f p force purpose around = some s')
    (hentry : s.groupClients.lookup p = some (some (.messaging t))) (hbad : IsBad s t) :
    (∃ pending checked, (s'.factories f).busy = some pending ∧
      pending.plan.selected = some (s.heap.transports.length, checked) ∧
      s'.groupClients.lookup p = some (some (.messaging s.heap.transports.length))) ∨
    (∃ pending, (s'.factories f).busy = some pending ∧ pending.plan.selected = none) ∨
    ∃ constructed, around.made = .throws constructed ∧ (s'.factories f).busy = none := by
  obtain ⟨x, hx, hne⟩ := hbad
  obtain ⟨-, ⟨plan, h, groupClients, returned, hchooses, hcall, rfl⟩ | ⟨slot, -, -, -, rfl⟩⟩ :=
    request_cases hrequest
  · rw [State.setFactory_self]
    rcases (groupMoves_of_groupCall hcall).avoids hentry hx hne with
      ⟨rfl, hcached⟩ | ⟨id, rfl⟩ | ⟨constructed, hthrows, rfl⟩
    · cases hchooses <;> exact Or.inl ⟨_, _, rfl, rfl, hcached⟩
    · exact Or.inr (Or.inl ⟨_, rfl, rfl⟩)
    · exact Or.inr (Or.inr ⟨constructed, hthrows, rfl⟩)
  · rw [State.setFactory_self]
    exact Or.inr (Or.inl ⟨_, rfl, rfl⟩)

/-- A call that is going to reinitialise a wrapper finds it, even if `make` threw
before. -/
theorem Identified.reinit_found {issued : Issued} {pending : Pending} {v : ℕ} {checked : UInt32}
    (hs : Identified (s, issued)) (hbusy : (s.factories f).busy = some pending)
    (hplan : pending.plan = .reinit v t checked) :
    (s.factories f).clients.lookup pending.peer = some (some (.proto v)) ∧
      v < s.heap.wrappers.length := by
  obtain ⟨peer, plan, purpose⟩ := pending
  cases hplan
  have hentry := (hs.factories f).plan peer v t checked purpose hbusy
  dsimp only at hentry ⊢
  obtain ⟨v', id, heq, -, hid, -⟩ := (hs.factories f).own peer (.proto v) (by rw [hentry]; rfl)
  cases heq
  obtain ⟨x, hx, -⟩ := Option.map_eq_some_iff.mp hid
  exact ⟨hentry, Cells.lt_of_getElem? hx⟩

/-- The second half of a call returns a wrapper if a transport was selected, and an
error client otherwise. -/
theorem Identified.finish_returns {issued : Issued} {plan : Plan} {purpose : Purpose}
    {returned : Slot} (hs : Identified (s, issued))
    (hbusy : (s.factories f).busy = some ⟨p, plan, purpose⟩)
    (hfinish : s.finish text f = some (s', returned)) :
    (plan.selected = none → ∃ id, returned = some (.error id)) ∧
      (plan.selected ≠ none → ∃ w, returned = some (.proto w)) := by
  obtain ⟨p', plan', purpose', hbusy', hplan⟩ := finish_cases hfinish
  cases hbusy.symm.trans hbusy'
  cases plan with
  | refuse code failed => exact ⟨fun _ => ⟨_, hplan.1⟩, fun hne => absurd rfl hne⟩
  | create u checked => exact ⟨nofun, fun _ => ⟨_, hplan.1⟩⟩
  | reinit v u checked => exact ⟨nofun, fun _ => ⟨v, (hs.finish_latest hbusy hfinish).1⟩⟩

/-- A history can be added to every run. -/
theorem exists_identified {ls : List Label}
    (hrun : Transition.run (step text) (State.init groups) ls = some s) :
    ∃ issued, Identified (s, issued) := by
  obtain ⟨issued, htracked⟩ := Transition.exists_track (trackedStart groups).2 hrun
  exact ⟨issued, Transition.run_invariant (fun _ _ _ hc hstep => Identified.step hc hstep)
    (identified_start groups) htracked⟩

/-- A call that finds a bad transport and does not throw: it returns an error client, or
a wrapper over a transport that it had made and that the group factory now caches. -/
theorem call_avoids {ls mid : List Label} {purpose : Purpose} {asked before : State}
    {returned : Slot} (hrun : Transition.run (step text) (State.init groups) ls = some s)
    (hentry : s.groupClients.lookup p = some (some (.messaging t))) (hbad : IsBad s t)
    (hrequest : s.request f p force purpose around = some asked)
    (hlocked : (asked.factories f).busy ≠ none) (hothers : .finish f ∉ mid)
    (hbetween : Transition.run (step text) asked mid = some before)
    (hfinish : before.finish text f = some (s', returned)) :
    (∃ id, returned = some (.error id)) ∨
      ∃ (w : ℕ) (wrapper : Wrapper), returned = some (.proto w) ∧
        (s'.factories f).clients.lookup p = some (some (.proto w)) ∧
        s'.heap.wrappers[w]? = some wrapper ∧ wrapper.client = some s.heap.transports.length ∧
        asked.groupClients.lookup p = some (some (.messaging s.heap.transports.length)) := by
  obtain ⟨plan, purpose', hbusy, hbusy', -, -⟩ := call_pending hrequest hlocked hothers hbetween
  have hasked : step text s (.request f p force purpose around) = some asked := hrequest
  obtain ⟨issued, hidentified⟩ :=
    exists_identified (Transition.run_trans (Transition.run_snoc hrun hasked) hbetween)
  obtain ⟨hrefused, hsucceeds⟩ := hidentified.finish_returns hbusy' hfinish
  rcases request_avoids hrequest hentry hbad with ⟨pending, checked, hpending, hnew, hcached⟩ |
    ⟨pending, hpending, hnone⟩ | ⟨constructed, -, hnone⟩
  · cases hbusy.symm.trans hpending
    obtain ⟨w, rfl⟩ := hsucceeds (by rw [hnew]; exact Option.some_ne_none _)
    obtain ⟨wrapper, u, checked', hu, hkept, hwrapper, hclient, -⟩ :=
      finish_holds hbusy' (fun v t checked => hidentified.reinit_found hbusy') hfinish
    cases hnew.symm.trans hu
    exact Or.inr ⟨w, wrapper, rfl, hkept, hwrapper, hclient, hcached⟩
  · cases hbusy.symm.trans hpending
    exact Or.inl (hrefused hnone)
  · cases hbusy.symm.trans hnone

/-! ## Counting up to the wrap -/

/-- Messages over the first wrapper, each of them answered by a wrong node. -/
def badAnswers (n : ℕ) : List Label :=
  (List.replicate n [Label.sendRaft 0, Label.raftDone 0 .invalidArgument]).flatten

/-- Two changes of one transport, one after the other. -/
theorem updateTransport_updateTransport (s : State) (t : ℕ)
    (change change' : Transport → Transport) :
    (s.updateTransport t change).updateTransport t change' =
      s.updateTransport t (change' ∘ change) := by
  simp only [State.updateTransport, List.modify_modify_eq]

/-- One such message. -/
theorem run_badAnswer {wrapper : Wrapper} {x : Transport}
    (hwrapper : s.heap.wrappers[0]? = some wrapper)
    (hclient : wrapper.client = some t) (hx : s.heap.transports[t]? = some x) :
    Transition.run (step text) s [.sendRaft 0, .raftDone t .invalidArgument] =
      some (s.updateTransport t fun x => { x with badService := x.badService + 1 }) := by
  have hsent : step text s (.sendRaft 0) =
      some (s.updateTransport t fun x => { x with raftCalls := x.raftCalls + 1 }) := by
    simp [step, hwrapper, hclient]
  have hx' : (s.updateTransport t fun x => { x with raftCalls := x.raftCalls + 1
      }).heap.transports[t]? = some { x with raftCalls := x.raftCalls + 1 } := by
    rw [State.updateTransport, Cells.getElem?_update hx, if_pos rfl]
  have hdone : step text (s.updateTransport t fun x => { x with raftCalls := x.raftCalls + 1 })
      (.raftDone t .invalidArgument) =
        some (s.updateTransport t fun x => { x with badService := x.badService + 1 }) := by
    simp [step, hx', updateTransport_updateTransport, Function.comp_def, Transport.bump]
  rw [Transition.run_cons, hsent, Option.bind_some, Transition.run_cons, hdone]
  rfl

/-- The counter after `n` such messages. -/
theorem run_badAnswers {wrapper : Wrapper} {x : Transport} (n : ℕ)
    (hwrapper : s.heap.wrappers[0]? = some wrapper) (hclient : wrapper.client = some 0)
    (hx : s.heap.transports[0]? = some x) :
    Transition.run (step text) s (badAnswers n) =
      some (s.updateTransport 0 fun x =>
        { x with badService := x.badService + UInt32.ofNat n }) := by
  induction n generalizing s x with
  | zero =>
    have hsame : s.heap.transports.modify 0 (fun x => { x with badService := x.badService }) =
        s.heap.transports := List.modify_id 0 _
    simp [badAnswers, State.updateTransport, hsame]
  | succ n ih =>
    have hround : Transition.run (step text) s [.sendRaft 0, .raftDone 0 .invalidArgument] =
        some (s.updateTransport 0 fun x => { x with badService := x.badService + 1 }) :=
      run_badAnswer hwrapper hclient hx
    have hrest := ih (s := s.updateTransport 0 fun x => { x with badService := x.badService + 1 })
      hwrapper (Cells.getElem?_update hx)
    rw [badAnswers, List.replicate_succ, List.flatten_cons, Transition.run_append, hround,
      Option.bind_some]
    refine hrest.trans ?_
    rw [updateTransport_updateTransport]
    congr 2
    funext x
    simp [UInt32.add_assoc, UInt32.add_comm]

end NuraftMesg.Factory
