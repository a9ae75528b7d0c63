import NuraftMesg.Factory.Atomicity
import NuraftMesg.Factory.Growth

/-!
# Two ways to send a data request

`data_service_request_unidirectional` and `data_service_request_bidirectional` both look
for a cached client and otherwise ask for one. Only the second looks at `bad_service` of
the client that it found. This file follows both from one state to their ends and says
when they come to the same transport.
-/

namespace NuraftMesg.Factory

open Transition

/-- How a data request to one peer ends. -/
inductive Ending where
  /-- It is sent over a transport with the given `bad_service`. -/
  | sent (transport : ℕ) (badService : UInt32)
  | failed (code : CmdResultCode)
  | threw
  deriving DecidableEq

/-- The transport that a wrapper sends over, and its `bad_service`. -/
def Heap.route (h : Heap) (w : ℕ) : Option (ℕ × UInt32) :=
  h.wrappers[w]?.bind fun wrapper => wrapper.client.bind fun t =>
    h.transports[t]?.map fun x => (t, x.badService)

/-- `grpc_proto_client::reinitRequired`. -/
def Heap.reinitRequired (h : Heap) (w : ℕ) : Option Bool :=
  h.wrappers[w]?.bind fun wrapper =>
    match wrapper.client with
    | none => some true
    | some t => h.transports[t]?.map fun x => decide (0 < x.badService)

namespace State

variable (text : UuidText) (s : State)

/-- The end of a request that is sent over a wrapper. -/
def sentOver (w : ℕ) (after : Option State) : Option (State × Ending) :=
  after.bind fun s' => (s.heap.route w).map fun route => (s', .sent route.1 route.2)

/-- What both functions do with the client that they asked for. -/
def sendReturned (bidirectional : Bool) (f : ℕ) : Option (State × Ending) :=
  if (s.factories f).busy.isNone then some (s, .threw)
  else (s.finish text f).bind fun (done, client) =>
    match castProto client with
    | none => some (done, .failed .serverNotFound)
    | some w => done.sentOver w (step text done (.dispatch bidirectional w))

/-- The part of both functions in which no usable client was found. -/
def createAndSend (bidirectional : Bool) (f : ℕ) (p : PeerId) (around : Surroundings) :
    Option (State × Ending) :=
  (s.request f p false (.data bidirectional) around).bind fun asked =>
    asked.sendReturned text bidirectional f

/-- `data_service_request_unidirectional` to one peer. -/
def dataServiceRequestUnidirectional (f : ℕ) (p : PeerId) (around : Surroundings) :
    Option (State × Ending) :=
  if (s.factories f).busy.isSome then none
  else match (s.factories f).clients.lookup p with
    | none => s.createAndSend text false f p around
    | some slot => (castProto slot).bind fun w =>
      s.sentOver w (step text s (.unidirectional f p))

/-- `data_service_request_bidirectional`. -/
def dataServiceRequestBidirectional (f : ℕ) (p : PeerId) (around : Surroundings) :
    Option (State × Ending) :=
  if (s.factories f).busy.isSome then none
  else match (s.factories f).clients.lookup p with
    | none => s.createAndSend text true f p around
    | some slot => (castProto slot).bind fun w => (s.heap.reinitRequired w).bind fun required =>
      if required then s.createAndSend text true f p around
      else s.sentOver w (step text s (.bidirectional f p))

end State

/-- Both requests fail with one code, or both are sent over one transport that is not
marked bad. -/
def Agree (text : UuidText) (s : State) (f : ℕ) (p : PeerId) (around : Surroundings) : Prop :=
  ∃ s₁ s₂ ending, s.dataServiceRequestUnidirectional text f p around = some (s₁, ending) ∧
    s.dataServiceRequestBidirectional text f p around = some (s₂, ending) ∧
    ((∃ code, ending = .failed code) ∨ ∃ t, ending = .sent t 0)

/-- The condition: a peer without a client has no null entry in the cache of the group factory,
and `make`, if it comes to that, does not throw; a client that is cached is a wrapper over a
transport that is not marked bad. -/
def Dependable (s : State) (f : ℕ) (p : PeerId) (around : Surroundings) : Prop :=
  match (s.factories f).clients.lookup p with
  | none => s.groupClients.lookup p ≠ some none ∧
      (Constructs s p false around → ∀ constructed, around.made ≠ .throws constructed)
  | some slot => ∃ w t, slot = some (.proto w) ∧ s.heap.route w = some (t, 0)

variable {text : UuidText} {groups : ℕ → GroupId × GroupType} {h h' : Heap}
  {clients clients' : Clients} {p : PeerId} {around : Surroundings} {returned : Returned}
  {s s' : State} {f : ℕ}

/-! ## The requests as runs of the factories -/

/-- The ending is what the log of sent requests says. -/
def Ending.Logged (bidirectional : Bool) (s s' : State) : Ending → Prop
  | .sent t _ => ∃ checked, s'.sent = s.sent ++ [⟨bidirectional, t, checked⟩]
  | _ => s'.sent = s.sent

/-- A send goes over the transport of the wrapper. -/
theorem sendData_route {bidirectional : Bool} {w : ℕ}
    {checked : Transport → Wrapper → Option UInt32}
    (hsend : s.sendData bidirectional w checked = some s') :
    ∃ route read, s.heap.route w = some route ∧
      s'.sent = s.sent ++ [⟨bidirectional, route.1, read⟩] := by
  have hquiet : ∃ wrapper t transport, s.heap.wrappers[w]? = some wrapper ∧
      wrapper.client = some t ∧ s.heap.transports[t]? = some transport ∧
      Quiet (fun _ => False) s s' ∧
      s'.sent = s.sent ++ [⟨bidirectional, t, checked transport wrapper⟩] := sendData_cases hsend
  obtain ⟨wrapper, t, transport, hwrapper, hclient, htransport, -, hsent⟩ := hquiet
  refine ⟨(t, transport.badService), checked transport wrapper, ?_, hsent⟩
  simp [Heap.route, hwrapper, hclient, htransport]

theorem sentOver_logged {bidirectional : Bool} {w : ℕ} {ending : Ending} {after : Option State}
    {x : State} {checked : Transport → Wrapper → Option UInt32}
    (hsent : s.sentOver w after = some (s', ending))
    (hafter : after = x.sendData bidirectional w checked) (hheap : x.heap = s.heap)
    (hlog : x.sent = s.sent) : after = some s' ∧ ending.Logged bidirectional s s' := by
  obtain ⟨y, hy, hmapped⟩ := Option.bind_eq_some_iff.mp hsent
  obtain ⟨route, hroute, hending⟩ := Option.map_eq_some_iff.mp hmapped
  cases hending
  refine ⟨hy, ?_⟩
  obtain ⟨route', read, hroute', hnew⟩ := sendData_route (hafter.symm.trans hy)
  rw [hheap, hroute] at hroute'
  cases hroute'
  rw [hlog] at hnew
  exact ⟨read, hnew⟩

/-- The part that both functions share is a call on the factory, and a send if it yields a
wrapper. -/
theorem createAndSend_run {bidirectional : Bool} {ending : Ending}
    (hrequest : s.createAndSend text bidirectional f p around = some (s', ending)) :
    ∃ labels, run (step text) s labels = some s' ∧ ending.Logged bidirectional s s' := by
  obtain ⟨asked, hasked, hreturned⟩ := Option.bind_eq_some_iff.mp hrequest
  have hfirst : run (step text) s [.request f p false (.data bidirectional) around] =
      some asked := by
    rw [run_cons, step, hasked]
    rfl
  have hlog : asked.sent = s.sent := by
    obtain ⟨-, h, groupClients, busy, rfl, -⟩ := request_locks hasked
    rfl
  unfold State.sendReturned at hreturned
  split at hreturned
  · cases hreturned
    exact ⟨_, hfirst, hlog⟩
  obtain ⟨⟨done, client⟩, hfinish, hsend⟩ := Option.bind_eq_some_iff.mp hreturned
  have hdone : run (step text) s
      ([.request f p false (.data bidirectional) around] ++ [.finish f]) = some done := by
    refine run_snoc hfirst ?_
    rw [step, hfinish]
    rfl
  have hlog' : done.sent = s.sent := by
    obtain ⟨p', plan, purpose, h, slot, -, hended⟩ := finish_done hfinish
    rw [hended.sent, hlog]
  simp only at hsend
  split at hsend
  · cases hsend
    exact ⟨_, hdone, hlog'⟩
  · next w hcast =>
    by_cases hqueued : (bidirectional, w) ∈ done.toSend
    · have hstep : step text done (.dispatch bidirectional w) =
          { done with toSend := done.toSend.erase (bidirectional, w) }.sendData bidirectional w
            fun _ wrapper => some wrapper.checked := by
        rw [step, if_pos hqueued]
      obtain ⟨hafter, hlogged⟩ := sentOver_logged hsend hstep rfl rfl
      refine ⟨_, run_snoc hdone hafter, ?_⟩
      cases ending <;> simpa only [Ending.Logged, hlog'] using hlogged
    · rw [step, if_neg hqueued] at hsend
      cases hsend

/-- A unidirectional request is a run of the factories, and ends as the log of sent requests
says. -/
theorem unidirectional_run {ending : Ending}
    (hrequest : s.dataServiceRequestUnidirectional text f p around = some (s', ending)) :
    ∃ labels, run (step text) s labels = some s' ∧ ending.Logged false s s' := by
  unfold State.dataServiceRequestUnidirectional at hrequest
  split at hrequest
  · cases hrequest
  next hfree =>
  cases hentry : (s.factories f).clients.lookup p with
  | none =>
    rw [hentry] at hrequest
    exact createAndSend_run hrequest
  | some slot =>
    rw [hentry] at hrequest
    obtain ⟨w, hcast, hsent⟩ := Option.bind_eq_some_iff.mp hrequest
    have hstep : step text s (.unidirectional f p) = s.sendData false w fun _ _ => none := by
      simp only [step, if_neg hfree, State.unidirectional, hentry, hcast, Option.bind_some]
    obtain ⟨hafter, hlogged⟩ := sentOver_logged hsent hstep rfl rfl
    exact ⟨[.unidirectional f p], by rw [run_cons, hafter]; rfl, hlogged⟩

/-- So is a bidirectional one. -/
theorem bidirectional_run {ending : Ending}
    (hrequest : s.dataServiceRequestBidirectional text f p around = some (s', ending)) :
    ∃ labels, run (step text) s labels = some s' ∧ ending.Logged true s s' := by
  unfold State.dataServiceRequestBidirectional at hrequest
  split at hrequest
  · cases hrequest
  next hfree =>
  cases hentry : (s.factories f).clients.lookup p with
  | none =>
    rw [hentry] at hrequest
    exact createAndSend_run hrequest
  | some slot =>
    rw [hentry] at hrequest
    obtain ⟨w, hcast, hsent⟩ := Option.bind_eq_some_iff.mp hrequest
    obtain ⟨required, hrequired, hsent⟩ := Option.bind_eq_some_iff.mp hsent
    split at hsent
    · exact createAndSend_run hsent
    next hgood =>
    have hstep : step text s (.bidirectional f p) =
        s.sendData true w fun transport _ => some transport.badService := by
      obtain ⟨wrapper, hwrapper, hclient⟩ := Option.bind_eq_some_iff.mp hrequired
      cases ht : wrapper.client with
      | none =>
        rw [ht] at hclient
        cases hclient
        exact absurd rfl hgood
      | some t =>
        rw [ht] at hclient
        obtain ⟨x, hx, rfl⟩ := Option.map_eq_some_iff.mp hclient
        have hzero : ¬ 0 < x.badService := by simpa using hgood
        simp only [step, if_neg hfree, State.bidirectional, hentry, hcast, hwrapper, ht, hx,
          Option.bind_some, if_neg hzero]
    obtain ⟨hafter, hlogged⟩ := sentOver_logged hsent hstep rfl rfl
    exact ⟨[.bidirectional f p], by rw [run_cons, hafter]; rfl, hlogged⟩

/-! ## The group factory's cache -/

/-- An entry of the group factory is null or a transport. -/
def HoldsTransports (h : Heap) (clients : Clients) : Prop :=
  ∀ p c, clients.lookup p = some (some c) → ∃ t, c = .messaging t ∧ t < h.transports.length

theorem HoldsTransports.grow (hs : HoldsTransports h clients) (hgrows : h.Grows h') :
    HoldsTransports h' clients := by
  intro p c hentry
  obtain ⟨t, hc, ht⟩ := hs p c hentry
  exact ⟨t, hc, hgrows.lt_transports ht⟩

theorem GroupMoves.holdsTransports {force : Bool}
    (hmoves : GroupMoves h clients p force around h' clients' returned)
    (hs : HoldsTransports h clients) : HoldsTransports h' clients' := by
  have hold := hs.grow hmoves.grows.1
  intro q c hentry
  cases hmoves with
  | reuse t transport hforce hp htransport hready hgood hclients =>
    rw [hclients q] at hentry
    exact hold q c hentry
  | fresh hrenews hendpoint hmade hclients =>
    rw [hclients q] at hentry
    split at hentry
    · cases hentry
      refine ⟨_, rfl, ?_⟩
      simp [Heap.newTransport, Heap.record]
    · exact hold q c hentry
  | noEndpoint hrenews hendpoint hclients =>
    rw [hclients q] at hentry
    split at hentry
    · obtain ⟨c', hc', heq⟩ := Option.map_eq_some_iff.mp hentry
      cases heq
      exact hold p c (Option.join_eq_some_iff.mp hc')
    · exact hold q c hentry
  | null constructed hrenews hmade hclients =>
    rw [hclients q] at hentry
    split at hentry
    · cases hentry
    · exact hold q c hentry
  | threw constructed hrenews hmade hclients =>
    rw [hclients q] at hentry
    split at hentry
    · have hjoin : (clients.lookup p).join = some c := Option.some.inj hentry
      exact hold p c (Option.join_eq_some_iff.mp hjoin)
    · exact hold q c hentry

/-- In every reachable state, exceptions or not. -/
theorem holdsTransports_of_run {ls : List Label}
    (hrun : run (step text) (State.init groups) ls = some s) :
    HoldsTransports s.heap s.groupClients := by
  refine run_invariant (I := fun s => HoldsTransports s.heap s.groupClients)
    (fun s l s' hs hstep => ?_) (fun p c hentry => by cases hentry) hrun
  have hgrows := step_grows hstep
  rcases step_cases hstep with ⟨f, p, force, purpose, around, rfl, hrequest⟩ |
    ⟨f, slot, rfl, hfinish⟩ | ⟨p, force, around, h, groupClients, returned, rfl, hcall, rfl⟩ |
    ⟨-, hquiet, -⟩
  · obtain ⟨-, ⟨plan, h, groupClients, returned, -, hcall, rfl⟩ | ⟨slot, -, -, -, rfl⟩⟩ :=
      request_cases hrequest
    · exact (groupMoves_of_groupCall hcall).holdsTransports hs
    · exact hs
  · obtain ⟨p, plan, purpose, h, slot, -, hdone⟩ := finish_done hfinish
    rw [hdone.groupClients]
    exact hs.grow hgrows
  · exact (groupMoves_of_groupCall hcall).holdsTransports hs
  · rw [hquiet.groupClients]
    exact hs.grow hgrows

/-! ## Asking for a client -/

/-- How a request ends by the answer of the group factory. -/
def Ending.ofAnswer : Heap × Clients × Returned → Option Ending
  | (_, _, .threw) => some .threw
  | (h, _, .client (some (.messaging t))) => h.transports[t]?.map fun x => .sent t x.badService
  | (_, _, .client _) => some (.failed .serverNotFound)

/-- A wrapper with a transport can send. -/
theorem exists_sendData {w : ℕ} {route : ℕ × UInt32} (hroute : s.heap.route w = some route)
    (bidirectional : Bool) (checked : Transport → Wrapper → Option UInt32) :
    ∃ s', s.sendData bidirectional w checked = some s' := by
  obtain ⟨wrapper, hwrapper, hroute⟩ := Option.bind_eq_some_iff.mp hroute
  obtain ⟨t, hclient, hroute⟩ := Option.bind_eq_some_iff.mp hroute
  obtain ⟨x, hx, -⟩ := Option.map_eq_some_iff.mp hroute
  simp [State.sendData, hwrapper, hclient, hx]

/-- A call that is refused returns an error client. -/
theorem ending_refused {bidirectional : Bool} {code : CmdResultCode} {failed : code ≠ .ok}
    (hbusy : (s.factories f).busy = some ⟨p, .refuse code failed, .data bidirectional⟩) :
    (s.sendReturned text bidirectional f).map Prod.snd = some (.failed .serverNotFound) := by
  have hfinish : ∃ s', s.finish text f = some (s', some s.heap.newError.2) := by
    simp only [State.finish, hbusy, Option.map_some, State.conclude, (settle_failed failed).2]
    exact ⟨_, rfl⟩
  obtain ⟨s', hfinish⟩ := hfinish
  simp only [State.sendReturned, hbusy, hfinish]
  rfl

/-- A call that got a transport returns a new wrapper over it. -/
theorem ending_created {bidirectional : Bool} {t : ℕ} {checked : UInt32}
    (hbusy : (s.factories f).busy = some ⟨p, .create t checked, .data bidirectional⟩) :
    (s.sendReturned text bidirectional f).map Prod.snd =
      s.heap.transports[t]?.map fun x => .sent t x.badService := by
  have hfinish : ∃ s', s.finish text f = some (s', some (.proto s.heap.wrappers.length)) ∧
      s'.heap = s.heap.newWrapper t (s.factories f).groupId (s.factories f).groupType
        (text.toString p) checked ∧
      (bidirectional, s.heap.wrappers.length) ∈ s'.toSend := by
    simp only [State.finish, hbusy, Option.map_some, State.conclude]
    exact ⟨_, rfl, rfl, List.mem_append_right _ (List.mem_singleton.mpr rfl)⟩
  obtain ⟨s', hfinish, hheap, hqueued⟩ := hfinish
  have hroute : s'.heap.route s.heap.wrappers.length =
      s.heap.transports[t]?.map fun x => (t, x.badService) := by
    rw [hheap, Heap.route, Heap.getElem?_newWrapper]
    rfl
  simp only [State.sendReturned, hbusy, hfinish, Option.isNone_some, Bool.false_eq_true, if_false,
    Option.bind_some, State.castProto, State.sentOver, hroute, step, if_pos hqueued]
  cases htransport : s.heap.transports[t]? with
  | none => simp
  | some x =>
    rw [htransport] at hroute
    obtain ⟨s'', hsend⟩ := exists_sendData
      (s := { s' with toSend := s'.toSend.erase (bidirectional, s.heap.wrappers.length) }) hroute
      bidirectional fun _ wrapper => some wrapper.checked
    rw [hsend]
    rfl

/-- A request to a peer without an entry ends as the group factory says. -/
theorem ending_createAndSend (hfree : (s.factories f).busy = none)
    (hentry : (s.factories f).clients.lookup p = none) (bidirectional : Bool) :
    (s.createAndSend text bidirectional f p around).map Prod.snd =
      (groupCall s.heap s.groupClients p false around).bind Ending.ofAnswer := by
  have hmem : p ∉ (s.factories f).clients := AList.lookup_eq_none.mp hentry
  simp only [State.createAndSend, State.request, hfree, hmem, State.askGroup, Option.isSome_none,
    Bool.false_eq_true, if_false, not_false_eq_true, true_or, if_true]
  cases groupCall s.heap s.groupClients p false around with
  | none => rfl
  | some answer =>
    obtain ⟨h, groupClients, returned⟩ := answer
    rcases returned with (_ | t | w | id) | _
    · exact ending_refused (congrArg MesgFactory.busy (State.setFactory_self ..))
    · exact ending_created (congrArg MesgFactory.busy (State.setFactory_self ..))
    · exact ending_refused (congrArg MesgFactory.busy (State.setFactory_self ..))
    · exact ending_refused (congrArg MesgFactory.busy (State.setFactory_self ..))
    · simp [State.pendingAfter, State.sendReturned, Ending.ofAnswer]

/-- The same ending of both requests to a peer without an entry. -/
theorem agree_iff_of_missing (hfree : (s.factories f).busy = none)
    (hentry : (s.factories f).clients.lookup p = none) :
    Agree text s f p around ↔
      ∃ ending, (groupCall s.heap s.groupClients p false around).bind Ending.ofAnswer =
          some ending ∧ ((∃ code, ending = .failed code) ∨ ∃ t, ending = .sent t 0) := by
  have huni : (s.createAndSend text false f p around).map Prod.snd = _ :=
    ending_createAndSend hfree hentry false
  have hbi : (s.createAndSend text true f p around).map Prod.snd = _ :=
    ending_createAndSend hfree hentry true
  unfold Agree State.dataServiceRequestUnidirectional State.dataServiceRequestBidirectional
  simp only [hfree, hentry, Option.isSome_none, Bool.false_eq_true, if_false]
  constructor
  · rintro ⟨s₁, s₂, ending, hs₁, -, hgood⟩
    rw [hs₁] at huni
    exact ⟨ending, huni.symm, hgood⟩
  · rintro ⟨ending, hending, hgood⟩
    obtain ⟨⟨s₁, ending₁⟩, hs₁, hending₁⟩ := Option.map_eq_some_iff.mp (huni.trans hending)
    obtain ⟨⟨s₂, ending₂⟩, hs₂, hending₂⟩ := Option.map_eq_some_iff.mp (hbi.trans hending)
    cases hending₁
    cases hending₂
    exact ⟨s₁, s₂, _, hs₁, hs₂, hgood⟩

/-- An exception comes from a construction that throws, and from nothing else. -/
theorem returned_threw_iff
    (hcall : groupCall h clients p false around = some (h', clients', returned)) :
    returned = .threw ↔ (Renews h clients p false around ∧ around.endpoint ≠ "") ∧
      ∃ constructed, around.made = .throws constructed := by
  constructor
  · rintro rfl
    by_cases hendpoint : around.endpoint = ""
    · cases groupMoves_of_noEndpoint hendpoint hcall with
      | threw constructed hrenews hmade => cases hmade
    · cases groupMoves_of_groupCall hcall with
      | threw constructed hrenews hmade => exact ⟨⟨hrenews, hendpoint⟩, constructed, hmade⟩
  · rintro ⟨⟨hrenews, hendpoint⟩, constructed, hthrows⟩
    cases groupMoves_of_groupCall hcall with
    | reuse t transport hforce hentry htransport hready hgood =>
      rcases hrenews with hnone | hforced | ⟨t', transport', hentry', htransport', hbad⟩
      · rw [hentry] at hnone
        cases hnone
      · cases hforced
      · rw [hentry] at hentry'
        cases hentry'
        rw [htransport] at htransport'
        cases htransport'
        rw [hready, hgood] at hbad
        rcases hbad with hbad | hbad
        · cases hbad
        · exact absurd hbad (by decide)
    | fresh _ _ hmade =>
      rw [hthrows] at hmade
      cases hmade
    | noEndpoint _ hnone => exact absurd hnone hendpoint
    | null _ _ hmade =>
      rw [hthrows] at hmade
      cases hmade
    | threw => rfl

/-- Without an exception the request fails or is sent over a transport that is not marked
bad. -/
theorem ofAnswer_of_moves
    (hmoves : GroupMoves h clients p false around h' clients' returned) :
    ∃ ending, Ending.ofAnswer (h', clients', returned) = some ending ∧
      (returned ≠ .threw ↔ (∃ code, ending = .failed code) ∨ ∃ t, ending = .sent t 0) := by
  cases hmoves with
  | reuse t transport hforce hentry htransport hready hgood =>
    refine ⟨.sent t 0, ?_, ?_⟩
    · simp [Ending.ofAnswer, htransport, hgood]
    · simp
  | fresh =>
    refine ⟨.sent h.transports.length 0, ?_, ?_⟩
    · simp [Ending.ofAnswer, Heap.newTransport, Heap.record]
    · simp
  | noEndpoint =>
    refine ⟨.failed .serverNotFound, rfl, ?_⟩
    simp
  | null constructed =>
    refine ⟨.failed .serverNotFound, rfl, ?_⟩
    simp
  | threw constructed =>
    refine ⟨.threw, rfl, ?_⟩
    simp

/-- The group factory answers unless it finds a null entry. -/
theorem groupCall_isSome_iff (hholds : HoldsTransports h clients) (p : PeerId)
    (around : Surroundings) :
    (groupCall h clients p false around).isSome ↔ clients.lookup p ≠ some none := by
  have hslot : ((Table.emplace clients p none).lookup p).join = (clients.lookup p).join := by
    rw [lookup_emplace_none, if_pos rfl]
    rfl
  simp only [groupCall, hslot, Option.isSome_map, Bool.false_eq_true, or_false]
  cases hentry : clients.lookup p with
  | none => simp [AList.lookup_eq_none.mp hentry]
  | some slot =>
    have hmem : p ∈ clients := by
      rw [← AList.lookup_isSome, hentry]
      rfl
    cases slot with
    | none => simp [hmem, groupReinit]
    | some c =>
      obtain ⟨t, rfl, ht⟩ := hholds p c hentry
      simp [hmem, groupReinit, List.getElem?_eq_getElem ht]

/-- The answers of the group factory after which nothing goes wrong. -/
theorem answer_good_iff (hholds : HoldsTransports h clients) :
    (∃ ending, (groupCall h clients p false around).bind Ending.ofAnswer = some ending ∧
      ((∃ code, ending = .failed code) ∨ ∃ t, ending = .sent t 0)) ↔
    clients.lookup p ≠ some none ∧ (Renews h clients p false around ∧ around.endpoint ≠ "" →
      ∀ constructed, around.made ≠ .throws constructed) := by
  rw [← groupCall_isSome_iff hholds p around]
  cases hcall : groupCall h clients p false around with
  | none => simp
  | some answer =>
    obtain ⟨h', clients', returned⟩ := answer
    obtain ⟨ending, hending, hgood⟩ := ofAnswer_of_moves (groupMoves_of_groupCall hcall)
    have hthrew := returned_threw_iff hcall
    rw [Option.bind_some, hending]
    simp only [Option.some.injEq, exists_eq_left', ← hgood, Option.isSome_some, true_and, ne_eq,
      hthrew, not_and, not_exists]

/-! ## Using a cached client -/

/-- Both functions send over a cached wrapper whose transport is not marked bad. -/
theorem agree_of_route {w t : ℕ} (hfree : (s.factories f).busy = none)
    (hentry : (s.factories f).clients.lookup p = some (some (.proto w)))
    (hroute : s.heap.route w = some (t, 0)) : Agree text s f p around := by
  have hrequired : s.heap.reinitRequired w = some false := by
    obtain ⟨wrapper, hwrapper, hclient⟩ := Option.bind_eq_some_iff.mp hroute
    obtain ⟨t', ht', hclient⟩ := Option.bind_eq_some_iff.mp hclient
    obtain ⟨x, hx, hpair⟩ := Option.map_eq_some_iff.mp hclient
    obtain ⟨rfl, hzero⟩ := Prod.mk.inj hpair
    simp [Heap.reinitRequired, hwrapper, ht', hx, hzero]
  have huni : ∃ s₁, step text s (.unidirectional f p) = some s₁ := by
    simp only [step, hfree, State.unidirectional, hentry, State.castProto, Option.isSome_none,
      Bool.false_eq_true, if_false, Option.bind_some]
    exact exists_sendData hroute false _
  have hbi : ∃ s₂, step text s (.bidirectional f p) = some s₂ := by
    have hread := hroute
    obtain ⟨wrapper, hwrapper, hclient⟩ := Option.bind_eq_some_iff.mp hread
    obtain ⟨t', ht', hclient⟩ := Option.bind_eq_some_iff.mp hclient
    obtain ⟨x, hx, hpair⟩ := Option.map_eq_some_iff.mp hclient
    obtain ⟨rfl, hzero⟩ := Prod.mk.inj hpair
    simp only [step, hfree, State.bidirectional, hentry, State.castProto, hwrapper, ht', hx, hzero,
      Option.isSome_none, Bool.false_eq_true, if_false, Option.bind_some]
    exact exists_sendData hroute true _
  obtain ⟨s₁, hs₁⟩ := huni
  obtain ⟨s₂, hs₂⟩ := hbi
  refine ⟨s₁, s₂, .sent t 0, ?_, ?_, Or.inr ⟨t, rfl⟩⟩
  · simp [State.dataServiceRequestUnidirectional, hfree, hentry, State.castProto, State.sentOver,
      hs₁, hroute]
  · simp [State.dataServiceRequestBidirectional, hfree, hentry, State.castProto, State.sentOver,
      hrequired, hs₂, hroute]

/-- The first function sends over whatever transport the cached wrapper has. -/
theorem route_of_agree {slot : Slot} (hfree : (s.factories f).busy = none)
    (hentry : (s.factories f).clients.lookup p = some slot) (hagree : Agree text s f p around) :
    ∃ w t, slot = some (.proto w) ∧ s.heap.route w = some (t, 0) := by
  obtain ⟨s₁, s₂, ending, hs₁, -, hgood⟩ := hagree
  simp only [State.dataServiceRequestUnidirectional, hfree, hentry, Option.isSome_none,
    Bool.false_eq_true, if_false] at hs₁
  obtain ⟨w, hcast, hsent⟩ := Option.bind_eq_some_iff.mp hs₁
  obtain ⟨after, -, hsent⟩ := Option.bind_eq_some_iff.mp hsent
  obtain ⟨⟨t, bad⟩, hroute, hending⟩ := Option.map_eq_some_iff.mp hsent
  cases hending
  have hslot : slot = some (.proto w) := by
    rcases slot with _ | t | w' | id
    · cases hcast
    · cases hcast
    · cases hcast
      rfl
    · cases hcast
  rcases hgood with ⟨code, hfailed⟩ | ⟨t', hsent⟩
  · cases hfailed
  · cases hsent
    exact ⟨w, t, hslot, hroute⟩

/-- In every reachable state, for every peer: when the lock of the factory is free, both kinds
of data requests fail with the same code or are sent over the same transport, which is not
marked bad, if and only if the peer has no client, no null entry in the cache of the group
factory and a construction that does not throw, or a client over a transport that is not marked
bad. Both kinds are runs of the factories, and what is said of their ends is what the log of
sent requests shows. -/
theorem requests_agree_iff {ls : List Label}
    (hrun : run (step text) (State.init groups) ls = some s)
    (hfree : (s.factories f).busy = none) (p : PeerId) (around : Surroundings) :
    (Agree text s f p around ↔ Dependable s f p around) ∧
    (∀ s' ending, s.dataServiceRequestUnidirectional text f p around = some (s', ending) →
      ∃ labels, run (step text) s labels = some s' ∧ ending.Logged false s s') ∧
    (∀ s' ending, s.dataServiceRequestBidirectional text f p around = some (s', ending) →
      ∃ labels, run (step text) s labels = some s' ∧ ending.Logged true s s') := by
  refine ⟨?_, fun s' ending => unidirectional_run, fun s' ending => bidirectional_run⟩
  unfold Dependable
  cases hentry : (s.factories f).clients.lookup p with
  | none =>
    rw [agree_iff_of_missing hfree hentry]
    exact answer_good_iff (holdsTransports_of_run hrun)
  | some slot =>
    constructor
    · exact route_of_agree hfree hentry
    · rintro ⟨w, t, rfl, hroute⟩
      exact agree_of_route hfree hentry hroute

/-- A peer with a client over a transport that is not marked bad. -/
def clientMade : List Label := [.request 0 7 true .caller found, .finish 0]

/-- Both requests go over its transport, and the log of the second one says so. -/
theorem agree_after_clientMade :
    ∃ s s', run (step canonicalText) (State.init fun f => (f, "raft")) clientMade = some s ∧
      Agree canonicalText s 0 7 found ∧
      s.dataServiceRequestBidirectional canonicalText 0 7 found = some (s', .sent 0 0) ∧
      (Ending.sent 0 0).Logged true s s' := by
  obtain ⟨s, s', hrun, hfree, hdependable, hsent⟩ : ∃ s s',
      run (step canonicalText) (State.init fun f => (f, "raft")) clientMade = some s ∧
      (s.factories 0).busy = none ∧ Dependable s 0 7 found ∧
      s.dataServiceRequestBidirectional canonicalText 0 7 found = some (s', .sent 0 0) :=
    ⟨_, _, rfl, rfl, ⟨0, 0, rfl, rfl⟩, rfl⟩
  have hresults := requests_agree_iff hrun hfree 7 found
  obtain ⟨labels, -, hlogged⟩ := hresults.2.2 s' _ hsent
  exact ⟨s, s', hrun, hresults.1.mpr hdependable, hsent, hlogged⟩

/-- The peer then answers `INVALID_ARGUMENT` to a Raft message. -/
def clientMisdirected : List Label :=
  clientMade ++ [.sendRaft 0, .raftDone 0 .invalidArgument]

/-- The transport is marked bad now. A unidirectional request is sent over it all the same,
while a bidirectional one makes a new transport and is sent over that. -/
theorem requests_disagree_after_clientMisdirected :
    ∃ s s₁ s₂, run (step canonicalText) (State.init fun f => (f, "raft")) clientMisdirected =
        some s ∧
      s.dataServiceRequestUnidirectional canonicalText 0 7 found = some (s₁, .sent 0 1) ∧
      s.dataServiceRequestBidirectional canonicalText 0 7 found = some (s₂, .sent 1 0) := by
  exact ⟨_, _, _, rfl, rfl, rfl⟩

end NuraftMesg.Factory
