import NuraftMesg.Factory.Representation

/-!
# Sharing the transports

All `mesg_factory` objects get their transports from one group factory. A call that
succeeds leaves in its wrapper the transport that the group factory selected for it,
which was not bad then. The lock of the group factory is released before the call
ends, so another call can replace the cached transport in between.
-/

namespace NuraftMesg.Factory

variable {text : UuidText} {groups : ℕ → GroupId × GroupType} {h h' : Heap}
  {clients clients' : Clients} {p q : PeerId} {force : Bool} {around : Surroundings}
  {returned : Returned} {s s' : State} {f t : ℕ}

/-- A step in which `make` returns a new client, if it is called, and which forces no
new transport on the group factory. -/
def Shares : Label → Prop
  | .request _ _ _ _ around => around.made = .client
  | .group _ force around => force = false ∧ around.made = .client
  | _ => True

/-- Where `make` returns a client it does not throw. -/
theorem Shares.noThrow {l : Label} (hl : Shares l) : NoThrow l := by
  cases l with
  | request f p force purpose around =>
    intro constructed hthrows
    cases hthrows.symm.trans hl
  | group p force around =>
    intro constructed hthrows
    cases hthrows.symm.trans hl.2
  | _ => trivial

/-- The step is a call on the group factory for the peer. -/
def Label.AsksFor (p : PeerId) : Label → Prop
  | .request _ q _ _ _ => q = p
  | .group q _ _ => q = p
  | _ => False

/-- The transport that a call was given, with the `bad_service` that was read. -/
def Plan.selected : Plan → Option (ℕ × UInt32)
  | .refuse _ _ => none
  | .create t checked => some (t, checked)
  | .reinit _ t checked => some (t, checked)

/-! ## The group factory -/

/-- A transport that is returned is cached, and it is good. -/
theorem GroupMoves.selects
    (hmoves : GroupMoves h clients p force around h' clients' (.client (some (.messaging t)))) :
    clients'.lookup p = some (some (.messaging t)) ∧
      ∃ x : Transport, h'.transports[t]? = some x ∧ x.badService = 0 := by
  cases hmoves with
  | reuse t transport hforce hentry htransport hready hgood hclients =>
    exact ⟨(hclients p).trans hentry, transport, htransport, hgood⟩
  | fresh hrenews hendpoint hmade hclients =>
    exact ⟨(hclients p).trans (if_pos rfl), _, List.getElem?_concat_length, rfl⟩

/-- A transport is made only to replace one or where there is none. -/
theorem GroupMoves.renews (hmoves : GroupMoves h clients p force around h' clients' returned)
    (hnew : h'.transports.length ≠ h.transports.length) : Renews h clients p force around := by
  cases hmoves with
  | reuse => exact absurd rfl hnew
  | fresh hrenews => exact hrenews
  | noEndpoint hrenews => exact hrenews
  | null constructed hrenews => exact hrenews
  | threw constructed hrenews => exact hrenews

/-- A healthy transport is not replaced. -/
theorem GroupMoves.adopts {x : Transport}
    (hmoves : GroupMoves h clients p false around h' clients' returned)
    (hentry : clients.lookup p = some (some (.messaging t))) (hx : h.transports[t]? = some x)
    (hready : around.ready = true) (hgood : x.badService = 0) :
    h' = h ∧ clients'.lookup p = some (some (.messaging t)) ∧
      returned = .client (some (.messaging t)) := by
  have hkept : ¬ Renews h clients p false around := by
    rintro (hnone | hforce | ⟨u, y, hentry', hy, hbad⟩)
    · cases hnone.symm.trans hentry
    · cases hforce
    · cases hentry.symm.trans hentry'
      cases hx.symm.trans hy
      simp [hready, hgood] at hbad
  cases hmoves with
  | reuse u y hforce hentry' hy hready' hgood' hclients =>
    cases hentry.symm.trans hentry'
    exact ⟨rfl, (hclients p).trans hentry, rfl⟩
  | fresh hrenews => exact absurd hrenews hkept
  | noEndpoint hrenews => exact absurd hrenews hkept
  | null constructed hrenews => exact absurd hrenews hkept
  | threw constructed hrenews => exact absurd hrenews hkept

/-- A call for one peer leaves the entries of the others. -/
theorem GroupMoves.lookup_of_ne
    (hmoves : GroupMoves h clients p force around h' clients' returned) (hq : q ≠ p) :
    clients'.lookup q = clients.lookup q := by
  cases hmoves with
  | reuse t transport hforce hentry htransport hready hgood hclients => exact hclients q
  | fresh hrenews hendpoint hmade hclients => exact (hclients q).trans (if_neg hq)
  | noEndpoint hrenews hendpoint hclients => exact (hclients q).trans (if_neg hq)
  | null constructed hrenews hmade hclients => exact (hclients q).trans (if_neg hq)
  | threw constructed hrenews hmade hclients => exact (hclients q).trans (if_neg hq)

/-- The group factory's entry of a peer changes only in a call for the peer. -/
theorem step_group_of_not_asksFor {l : Label} (hl : ¬ l.AsksFor p)
    (hstep : step text s l = some s') : s'.groupClients.lookup p = s.groupClients.lookup p := by
  rcases step_cases hstep with ⟨f, q, force, purpose, around, rfl, hrequest⟩ |
    ⟨f, slot, rfl, hfinish⟩ | ⟨q, force, around, h, groupClients, returned, rfl, hcall, rfl⟩ |
    ⟨-, hquiet, -⟩
  · obtain ⟨-, ⟨plan, h, groupClients, returned, -, hcall, rfl⟩ | ⟨slot, -, -, -, rfl⟩⟩ :=
      request_cases hrequest
    · exact (groupMoves_of_groupCall hcall).lookup_of_ne (Ne.symm hl)
    · rfl
  · obtain ⟨q, plan, purpose, h, slot, -, hdone⟩ := finish_done hfinish
    exact congrArg (AList.lookup p) hdone.groupClients
  · exact (groupMoves_of_groupCall hcall).lookup_of_ne (Ne.symm hl)
  · rw [hquiet.groupClients]

/-! ## A call on a `mesg_factory` -/

/-- The first half of a call selects the transport that the group factory caches. -/
theorem request_selects {purpose : Purpose} {pending : Pending} {checked : UInt32}
    (hrequest : s.request f p force purpose around = some s')
    (hbusy : (s'.factories f).busy = some pending)
    (hselected : pending.plan.selected = some (t, checked)) :
    checked = 0 ∧ s'.groupClients.lookup p = some (some (.messaging t)) ∧
      ∃ x : Transport, s'.heap.transports[t]? = some x ∧ x.badService = 0 := by
  obtain ⟨-, ⟨plan, h, groupClients, returned, hchooses, hcall, rfl⟩ | ⟨slot, -, -, -, rfl⟩⟩ :=
    request_cases hrequest
  · rw [State.setFactory_self] at hbusy
    rcases pendingAfter_eq_some hbusy with ⟨u, rfl, rfl⟩ | rfl
    · obtain ⟨hentry, x, hx, hgood⟩ := (groupMoves_of_groupCall hcall).selects
      obtain ⟨rfl, rfl⟩ : u = t ∧ (h.transports[u]?.map (·.badService)).getD 0 = checked := by
        cases hchooses <;> cases hselected <;> exact ⟨rfl, rfl⟩
      refine ⟨?_, hentry, x, hx, hgood⟩
      rw [hx]
      exact hgood
    · cases hselected
  · rw [State.setFactory_self] at hbusy
    cases hbusy
    cases hselected

/-- The second half of a call that succeeds puts the selected transport into the
wrapper. -/
theorem finish_holds {plan : Plan} {purpose : Purpose} {w : ℕ}
    (hbusy : (s.factories f).busy = some ⟨p, plan, purpose⟩)
    (hreinit : ∀ v t checked, plan = .reinit v t checked →
      (s.factories f).clients.lookup p = some (some (.proto v)) ∧ v < s.heap.wrappers.length)
    (hfinish : s.finish text f = some (s', some (.proto w))) :
    ∃ (wrapper : Wrapper) (t : ℕ) (checked : UInt32), plan.selected = some (t, checked) ∧
      (s'.factories f).clients.lookup p = some (some (.proto w)) ∧
      s'.heap.wrappers[w]? = some wrapper ∧ wrapper.client = some t ∧
      s'.groupClients = s.groupClients := by
  obtain ⟨p', plan', purpose', hbusy', hplan⟩ := finish_cases hfinish
  cases hbusy.symm.trans hbusy'
  cases plan with
  | refuse code failed => cases hplan.1
  | create t checked =>
    obtain ⟨hreturned, hdone⟩ := hplan
    cases hreturned
    have hwrapper := Heap.getElem?_newWrapper s.heap t (s.factories f).groupId
      (s.factories f).groupType (text.toString p) checked
    rw [← hdone.heap] at hwrapper
    exact ⟨_, t, checked, rfl, (hdone.lookup p).trans (if_pos rfl), hwrapper, rfl,
      hdone.groupClients⟩
  | reinit v t checked =>
    obtain ⟨hreturned, hdone⟩ := hplan
    obtain ⟨hentry, hv⟩ := hreinit v t checked rfl
    rw [hentry] at hreturned
    cases hreturned
    have hwrapper := Heap.getElem?_setClient t checked (List.getElem?_eq_getElem hv)
    rw [← hdone.heap] at hwrapper
    exact ⟨_, t, checked, rfl, (hdone.lookup p).trans (if_pos rfl), hwrapper, rfl,
      hdone.groupClients⟩

/-- A call that is going to reinitialise a wrapper finds it. -/
theorem Represents.reinit_found {pending : Pending} {v : ℕ} {checked : UInt32}
    (hs : Represents text groups s) (hbusy : (s.factories f).busy = some pending)
    (hplan : pending.plan = .reinit v t checked) :
    (s.factories f).clients.lookup pending.peer = some (some (.proto v)) ∧
      v < s.heap.wrappers.length := by
  have hfits := (hs.factories f).plan pending hbusy
  rw [hplan] at hfits
  obtain ⟨-, hentry⟩ := hfits
  obtain ⟨v', wrapper, heq, hwrapper, -⟩ := (hs.factories f).own_of_some hentry
  cases heq
  exact ⟨hentry, Cells.lt_of_getElem? hwrapper⟩

/-! ## What was checked before a data request was sent -/

/-- The transport that the call on this factory was given was good then. -/
def PlanChecked (factory : MesgFactory) : Prop :=
  ∀ pending t checked, factory.busy = some pending →
    pending.plan.selected = some (t, checked) → checked = 0

/-- Every transport in use was good when it was selected. -/
structure Checked (s : State) : Prop where
  wrappers : ∀ (w : ℕ) (wrapper : Wrapper), s.heap.wrappers[w]? = some wrapper →
    wrapper.checked = 0
  factories : ∀ f, PlanChecked (s.factories f)
  sent : ∀ x ∈ s.sent, x.bidirectional = true → x.checked = some 0

/-- The group factory hands out a transport that is not bad when it answers. -/
theorem Checked.request {purpose : Purpose} (hs : Checked s)
    (hrequest : s.request f p force purpose around = some s') : Checked s' := by
  have hselected : PlanChecked (s'.factories f) := fun pending t checked hbusy hselected =>
    (request_selects hrequest hbusy hselected).1
  obtain ⟨-, ⟨plan, h, groupClients, returned, -, hcall, rfl⟩ | ⟨slot, -, -, -, rfl⟩⟩ :=
    request_cases hrequest
  · rw [State.setFactory_self] at hselected
    refine ⟨fun w wrapper hw => ?_, ?_, hs.sent⟩
    · have hkept : h.wrappers = s.heap.wrappers := (groupMoves_of_groupCall hcall).grows.2
      exact hs.wrappers w wrapper (by rw [← hkept]; exact hw)
    · exact (Function.forall_update_iff _ fun _ => PlanChecked).mpr
        ⟨hselected, fun f' _ => hs.factories f'⟩
  · rw [State.setFactory_self] at hselected
    exact ⟨hs.wrappers, (Function.forall_update_iff _ fun _ => PlanChecked).mpr
      ⟨hselected, fun f' _ => hs.factories f'⟩, hs.sent⟩

/-- The second half of a call writes the count that was read in the first one. -/
theorem Checked.finish {slot : Slot} (hs : Checked s)
    (hfinish : s.finish text f = some (s', slot)) : Checked s' := by
  obtain ⟨p, plan, purpose, hbusy, hplan⟩ := finish_cases hfinish
  have hfinished : ∀ h stored, Finished s f p h stored slot s' →
      (∀ (w : ℕ) (wrapper : Wrapper), h.wrappers[w]? = some wrapper → wrapper.checked = 0) →
      Checked s' := by
    intro h stored hdone hwrappers
    have hfree : PlanChecked (s'.factories f) := by
      intro pending t checked hbusy
      rw [hdone.free] at hbusy
      cases hbusy
    refine ⟨?_, hdone.forall_factories (P := fun _ => PlanChecked) hfree
      fun f' _ => hs.factories f', ?_⟩
    · rw [hdone.heap]
      exact hwrappers
    · rw [hdone.sent]
      exact hs.sent
  cases plan with
  | refuse code failed => exact hfinished _ _ hplan.2 hs.wrappers
  | create t checked =>
    refine hfinished _ _ hplan.2 fun w wrapper hw => ?_
    rcases Cells.getElem?_alloc_cases hw with hold | ⟨-, rfl⟩
    · exact hs.wrappers w wrapper hold
    · exact hs.factories f _ t checked hbusy rfl
  | reinit v t checked =>
    refine hfinished _ _ hplan.2 fun w wrapper hw => ?_
    obtain ⟨old, hold, rfl⟩ := Cells.getElem?_update_cases hw
    split
    · exact hs.factories f _ t checked hbusy rfl
    · exact hs.wrappers w old hold

/-- Each field is kept by every step. -/
theorem Checked.step {l : Label} (hs : Checked s) (hstep : step text s l = some s') :
    Checked s' := by
  rcases step_cases hstep with ⟨f, p, force, purpose, around, rfl, hrequest⟩ |
    ⟨f, slot, rfl, hfinish⟩ | ⟨p, force, around, h, groupClients, returned, rfl, hcall, rfl⟩ |
    ⟨-, hquiet, hsends⟩
  · exact hs.request hrequest
  · exact hs.finish hfinish
  · refine ⟨fun w wrapper hw => ?_, hs.factories, hs.sent⟩
    have hkept : h.wrappers = s.heap.wrappers := (groupMoves_of_groupCall hcall).grows.2
    exact hs.wrappers w wrapper (by rw [← hkept]; exact hw)
  · refine ⟨fun w wrapper hw => ?_, fun f => ?_, fun x hx htrue => ?_⟩
    · rw [hquiet.wrappers] at hw
      exact hs.wrappers w wrapper hw
    · rw [hquiet.factories]
      exact hs.factories f
    · rcases hsends x hx with hold | hfalse | hzero | ⟨w, wrapper, hw, hchecked⟩
      · exact hs.sent x hold htrue
      · cases htrue.symm.trans hfalse
      · exact hzero
      · rw [hchecked, hs.wrappers w wrapper hw]

/-- At the beginning nothing was selected and nothing was sent. -/
theorem checked_init (groups : ℕ → GroupId × GroupType) : Checked (State.init groups) :=
  ⟨nofun, fun _ => nofun, nofun⟩

/-! ## Sharing over whole runs -/

/-- A call that got its answer from the group factory holds the lock, unless `make`
threw. -/
theorem request_busy {purpose : Purpose} (hrequest : s.request f p force purpose around = some s')
    (hmade : around.made = .client) : (s'.factories f).busy ≠ none := by
  obtain ⟨-, ⟨plan, h, groupClients, returned, -, hcall, rfl⟩ | ⟨slot, -, -, -, rfl⟩⟩ :=
    request_cases hrequest
  · rw [State.setFactory_self]
    cases returned with
    | client slot =>
      rcases slot with _ | t | w | id <;> exact Option.some_ne_none _
    | threw =>
      cases groupMoves_of_groupCall hcall with
      | threw constructed hrenews hthrows => cases hthrows.symm.trans hmade
  · rw [State.setFactory_self]
    exact Option.some_ne_none _

/-- A call that succeeds, with whatever happens while it holds the lock. -/
theorem Represents.call_holds {purpose : Purpose} {asked before : State} {mid : List Label} {w : ℕ}
    (hs : Represents text groups s) (hmade : around.made = .client)
    (hrequest : s.request f p force purpose around = some asked) (hmid : ∀ l ∈ mid, Shares l)
    (hothers : .finish f ∉ mid)
    (hbetween : Transition.run (Factory.step text) asked mid = some before)
    (hfinish : before.finish text f = some (s', some (.proto w))) :
    ∃ (wrapper : Wrapper) (t : ℕ) (x : Transport),
      (s'.factories f).clients.lookup p = some (some (.proto w)) ∧
      s'.heap.wrappers[w]? = some wrapper ∧ wrapper.client = some t ∧
      asked.groupClients.lookup p = some (some (.messaging t)) ∧
      asked.heap.transports[t]? = some x ∧ x.badService = 0 ∧
      ((∀ l ∈ mid, ¬ l.AsksFor p) → s'.groupClients.lookup p = some (some (.messaging t))) := by
  have hbefore : Represents text groups before := by
    refine Transition.run_invariant_of_labels (fun _ _ _ hs hl hstep => hs.step hl hstep)
      (hs.request hrequest fun constructed hthrows => ?_) (fun l hl => (hmid l hl).noThrow) hbetween
    cases hthrows.symm.trans hmade
  obtain ⟨plan, purpose', hbusy, hbusy', -, -⟩ :=
    call_pending hrequest (request_busy hrequest hmade) hothers hbetween
  obtain ⟨wrapper, t, checked, hselected, hentry, hwrapper, hclient, hgroup⟩ :=
    finish_holds hbusy' (fun v t checked => hbefore.reinit_found hbusy') hfinish
  obtain ⟨-, hcached, x, hx, hgood⟩ := request_selects hrequest hbusy hselected
  refine ⟨wrapper, t, x, hentry, hwrapper, hclient, hcached, hx, hgood, fun hnobody => ?_⟩
  rw [hgroup]
  exact Transition.run_invariant_of_labels
    (I := fun x => x.groupClients.lookup p = some (some (.messaging t)))
    (fun _ _ _ hx hl hstep => (step_group_of_not_asksFor hl hstep).trans hx) hcached hnobody
    hbetween

/-- A step that makes a new transport found none or one that was not ready or bad. -/
theorem step_renews {l : Label} (hl : Shares l) (hstep : step text s l = some s')
    (hnew : s'.heap.transports.length ≠ s.heap.transports.length) :
    ∃ p around,
      ((∃ f force purpose, l = .request f p force purpose around) ∨ l = .group p false around) ∧
      (s.groupClients.lookup p = none ∨ ∃ (t : ℕ) (x : Transport),
        s.groupClients.lookup p = some (some (.messaging t)) ∧
        s.heap.transports[t]? = some x ∧ (around.ready = false ∨ 0 < x.badService)) := by
  rcases step_cases hstep with ⟨f, p, force, purpose, around, rfl, hrequest⟩ |
    ⟨f, slot, rfl, hfinish⟩ | ⟨p, force, around, h, groupClients, returned, rfl, hcall, rfl⟩ |
    ⟨-, hquiet, -⟩
  · refine ⟨p, around, Or.inl ⟨f, force, purpose, rfl⟩, ?_⟩
    obtain ⟨-, ⟨plan, h, groupClients, returned, -, hcall, rfl⟩ | ⟨slot, -, -, -, rfl⟩⟩ :=
      request_cases hrequest
    · exact ((groupMoves_of_groupCall hcall).renews hnew).imp_right
        fun hrenews => hrenews.resolve_left Bool.false_ne_true
    · exact absurd rfl hnew
  · exact absurd (congrArg List.length (finish_transports hfinish)) hnew
  · obtain ⟨rfl, -⟩ := hl
    refine ⟨p, around, Or.inr rfl, ?_⟩
    exact ((groupMoves_of_groupCall hcall).renews hnew).imp_right
      fun hrenews => hrenews.resolve_left Bool.false_ne_true
  · exact absurd hquiet.length hnew

/-- A call adopts a healthy transport. -/
theorem request_adopts {purpose : Purpose} {x : Transport}
    (hentry : s.groupClients.lookup p = some (some (.messaging t)))
    (hx : s.heap.transports[t]? = some x) (hgood : x.badService = 0) (hready : around.ready = true)
    (hrequest : s.request f p force purpose around = some s') :
    s'.heap = s.heap ∧ s'.groupClients.lookup p = some (some (.messaging t)) := by
  obtain ⟨-, ⟨plan, h, groupClients, returned, -, hcall, rfl⟩ | ⟨slot, -, -, -, rfl⟩⟩ :=
    request_cases hrequest
  · obtain ⟨hheap, hkept, -⟩ := (groupMoves_of_groupCall hcall).adopts hentry hx hready hgood
    exact ⟨hheap, hkept⟩
  · exact ⟨rfl, hentry⟩

/-- For every run in which `make` returns new clients: a call that succeeds leaves in
its wrapper the transport which the group factory cached for the peer when it answered
the call, which is still cached if nobody asked the group factory for this peer in
between, and which was not bad; a new transport is made only where none was cached or
the cached one was not ready or bad, and a healthy one is adopted; no bidirectional
data request was sent over a transport that was bad when it was checked. -/
theorem transports_shared (text : UuidText) (groups : ℕ → GroupId × GroupType) (ls : List Label)
    (s : State) (hshares : ∀ l ∈ ls, Shares l)
    (hrun : Transition.run (step text) (State.init groups) ls = some s) :
    (∀ f p force purpose around asked mid before s' w, around.made = .client →
      s.request f p force purpose around = some asked → (∀ l ∈ mid, Shares l) →
      .finish f ∉ mid → Transition.run (step text) asked mid = some before →
      before.finish text f = some (s', some (.proto w)) →
      ∃ (wrapper : Wrapper) (t : ℕ) (x : Transport),
        (s'.factories f).clients.lookup p = some (some (.proto w)) ∧
        s'.heap.wrappers[w]? = some wrapper ∧ wrapper.client = some t ∧
        asked.groupClients.lookup p = some (some (.messaging t)) ∧
        asked.heap.transports[t]? = some x ∧ x.badService = 0 ∧
        ((∀ l ∈ mid, ¬ l.AsksFor p) → s'.groupClients.lookup p = some (some (.messaging t)))) ∧
    (∀ l s', Shares l → step text s l = some s' →
      s'.heap.transports.length ≠ s.heap.transports.length → ∃ p around,
        ((∃ f force purpose, l = .request f p force purpose around) ∨ l = .group p false around) ∧
        (s.groupClients.lookup p = none ∨ ∃ (t : ℕ) (x : Transport),
          s.groupClients.lookup p = some (some (.messaging t)) ∧
          s.heap.transports[t]? = some x ∧ (around.ready = false ∨ 0 < x.badService))) ∧
    (∀ f p force purpose around s' t (x : Transport),
      s.groupClients.lookup p = some (some (.messaging t)) → s.heap.transports[t]? = some x →
      x.badService = 0 → around.ready = true → s.request f p force purpose around = some s' →
      s'.heap = s.heap ∧ s'.groupClients.lookup p = some (some (.messaging t))) ∧
    (∀ x ∈ s.sent, x.bidirectional = true → x.checked = some 0) := by
  have hs : Represents text groups s :=
    Transition.run_invariant_of_labels (fun _ _ _ hs hl hstep => hs.step hl hstep)
      (represents_init text groups) (fun l hl => (hshares l hl).noThrow) hrun
  have hchecked : Checked s :=
    Transition.run_invariant (fun _ _ _ hs hstep => hs.step hstep) (checked_init groups) hrun
  refine ⟨?_, fun l s' => step_renews, ?_, hchecked.sent⟩
  · intro f p force purpose around asked mid before s' w hmade hrequest hmid hothers hbetween
      hfinish
    exact hs.call_holds hmade hrequest hmid hothers hbetween hfinish
  · intro f p force purpose around s' t x hentry hx hgood hready hrequest
    exact request_adopts hentry hx hgood hready hrequest

/-- The second call of `createTwice` adopts the transport of the first one: the wrapper that it
returns, the wrapper of the other group and the group factory all hold the same transport. -/
theorem shared_after_createTwice :
    ∃ (s' : State) (wrapper : Wrapper) (t : ℕ),
      Transition.run (step canonicalText) (State.init fun f => (f, "raft")) createTwice = some s' ∧
      s'.heap.wrappers[0]?.bind Wrapper.client = some t ∧
      s'.heap.wrappers[1]? = some wrapper ∧ wrapper.client = some t ∧
      s'.groupClients.lookup 5 = some (some (.messaging t)) ∧ s'.heap.transports.length = 1 := by
  obtain ⟨s, asked, s', hcreated, hrequest, hone, hfinish, hrun, hfirst, hlength⟩ :
      ∃ s asked s' : State,
        Transition.run (step canonicalText) (State.init fun f => (f, "raft")) createOnce = some s ∧
        s.request 1 5 true .caller connected = some asked ∧ asked.heap.transports.length = 1 ∧
        asked.finish canonicalText 1 = some (s', some (.proto 1)) ∧
        Transition.run (step canonicalText) (State.init fun f => (f, "raft"))
          (createOnce ++ [.request 1 5 true .caller connected, .finish 1]) = some s' ∧
        s'.heap.wrappers[0]?.bind Wrapper.client = some 0 ∧ s'.heap.transports.length = 1 :=
    ⟨_, _, _, rfl, rfl, rfl, rfl, rfl, rfl, rfl⟩
  have hshares : ∀ l ∈ createOnce, Shares l := by simp [createOnce, Shares, connected]
  obtain ⟨wrapper, t, x, -, hwrapper, hclient, -, hx, -, hkept⟩ :=
    (transports_shared canonicalText (fun f => (f, "raft")) createOnce s hshares hcreated).1
      1 5 true .caller connected asked [] asked s' 1 rfl hrequest (by simp) (by simp) rfl hfinish
  obtain ⟨ht, -⟩ := List.getElem?_eq_some_iff.mp hx
  obtain rfl : t = 0 := by omega
  exact ⟨s', wrapper, 0, hrun, hfirst, hwrapper, hclient, hkept (by simp), hlength⟩

/-- A connection that is not up yet. -/
def connecting : Surroundings := { connected with ready := false }

/-- The second factory asks for the same peer while the call on the first one is
between the two locks, and before the new connection is up. -/
def overtaken : List Label :=
  [.request 0 5 true .caller connected, .request 1 5 true .caller connecting]

/-- The first call then succeeds with a transport that is no longer the cached one. -/
theorem left_behind_by_overtaken :
    ∃ s s' wrapper, (∀ l ∈ overtaken, Shares l) ∧
      Transition.run (step canonicalText) (State.init fun f => (f, "raft")) overtaken = some s ∧
      s.finish canonicalText 0 = some (s', some (.proto 0)) ∧
      (s'.factories 0).clients.lookup 5 = some (some (.proto 0)) ∧
      s'.heap.wrappers[0]? = some wrapper ∧ wrapper.client = some 0 ∧
      s'.groupClients.lookup 5 = some (some (.messaging 1)) :=
  ⟨_, _, _, by simp [overtaken, Shares, connected, connecting], rfl, rfl, rfl, rfl, rfl, rfl⟩

end NuraftMesg.Factory
