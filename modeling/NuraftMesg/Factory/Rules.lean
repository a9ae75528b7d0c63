import NuraftMesg.Factory.Step

/-!
# The steps of the factories as rules

A call on the group factory reuses the cached transport, makes a new one or fails in
one of three ways. What a search in its cache finds afterwards is stated for every
peer at once. A call on a `mesg_factory` is described by its two halves, and all
other steps leave both levels of caches alone.
-/

namespace NuraftMesg.Factory

variable {text : UuidText} {h h' : Heap} {clients clients' : Clients} {p q : PeerId} {force : Bool}
  {around : Surroundings} {returned : Returned} {s s' : State} {f : ℕ}

/-- The heap after `lookupEndpoint` was asked. -/
def Heap.record (h : Heap) (p : PeerId) (endpoint : String) : Heap :=
  { h with lookups := h.lookups ++ [(p, endpoint)] }

/-- The cached transport of a peer is to be replaced, or there is none. -/
def Renews (h : Heap) (clients : Clients) (p : PeerId) (force : Bool) (around : Surroundings) :
    Prop :=
  clients.lookup p = none ∨ force = true ∨ ∃ t transport,
    clients.lookup p = some (some (.messaging t)) ∧ h.transports[t]? = some transport ∧
      (around.ready = false ∨ 0 < transport.badService)

/-- What a call on the group factory can do. -/
inductive GroupMoves (h : Heap) (clients : Clients) (p : PeerId) (force : Bool)
    (around : Surroundings) : Heap → Clients → Returned → Prop
  | reuse {out : Clients} (t : ℕ) (transport : Transport) (hforce : force = false)
      (hentry : clients.lookup p = some (some (.messaging t)))
      (htransport : h.transports[t]? = some transport) (hready : around.ready = true)
      (hgood : transport.badService = 0) (hclients : ∀ q, out.lookup q = clients.lookup q) :
      GroupMoves h clients p force around h out (.client (some (.messaging t)))
  | fresh {out : Clients} (hrenews : Renews h clients p force around)
      (hendpoint : around.endpoint ≠ "") (hmade : around.made = .client)
      (hclients : ∀ q, out.lookup q =
        if q = p then some (some (.messaging h.transports.length)) else clients.lookup q) :
      GroupMoves h clients p force around
        ((h.record p around.endpoint).newTransport around.endpoint) out
        (.client (some (.messaging h.transports.length)))
  | noEndpoint {out : Clients} (hrenews : Renews h clients p force around)
      (hendpoint : around.endpoint = "")
      (hclients : ∀ q, out.lookup q =
        if q = p then (clients.lookup p).join.map some else clients.lookup q) :
      GroupMoves h clients p force around (h.record p around.endpoint).newError.1 out
        (.client (some (h.record p around.endpoint).newError.2))
  | null {out : Clients} (constructed : Bool) (hrenews : Renews h clients p force around)
      (hmade : around.made = .null constructed)
      (hclients : ∀ q, out.lookup q = if q = p then none else clients.lookup q) :
      GroupMoves h clients p force around
        ((h.record p around.endpoint).spend constructed).newError.1 out
        (.client (some ((h.record p around.endpoint).spend constructed).newError.2))
  | threw {out : Clients} (constructed : Bool) (hrenews : Renews h clients p force around)
      (hmade : around.made = .throws constructed)
      (hclients : ∀ q, out.lookup q =
        if q = p then some (clients.lookup p).join else clients.lookup q) :
      GroupMoves h clients p force around ((h.record p around.endpoint).spend constructed) out
        .threw

/-- What a search finds after the end of a call. -/
theorem lookup_settle {slot : Slot} {code : CmdResultCode} :
    (settle h clients p slot code).2.1.lookup q =
      if q = p then slot.map some else clients.lookup q := by
  have hstored : (settle h clients p slot code).2.1 =
      if slot = none then clients.erase p else clients.insert p slot := by
    by_cases hcode : code = .ok <;> simp [settle, hcode]
  rw [hstored]
  cases slot with
  | none => rw [if_pos rfl, Table.lookup_erase_ite, Option.map_none]
  | some c => rw [if_neg (Option.some_ne_none c), Table.lookup_insert_ite, Option.map_some]

/-- A call that failed returns an error client. -/
theorem settle_failed {slot : Slot} {code : CmdResultCode} (failed : code ≠ .ok) :
    (settle h clients p slot code).1 = h.newError.1 ∧
      (settle h clients p slot code).2.2 = some h.newError.2 := by
  simp [settle, failed]

/-- What a search finds after the placeholder was emplaced. -/
theorem lookup_emplace_none :
    (Table.emplace clients p none).lookup q =
      if q = p then some (clients.lookup p).join else clients.lookup q := by
  rw [Table.lookup_emplace_ite]
  cases clients.lookup p <;> rfl

/-- `create_client` of the group factory, with the end of the call. -/
theorem groupMoves_create (hrenews : Renews h clients p force around)
    (hcall : (groupCreate h p (clients.lookup p).join around).settle
      (Table.emplace clients p none) p = (h', clients', returned)) :
    GroupMoves h clients p force around h' clients' returned := by
  have hlookup : ∀ (h : Heap) (slot : Slot) (code : CmdResultCode) (q : PeerId),
      (settle h (Table.emplace clients p none) p slot code).2.1.lookup q =
        if q = p then slot.map some else clients.lookup q := by
    intro h slot code q
    rw [lookup_settle, lookup_emplace_none]
    split <;> rfl
  by_cases hendpoint : around.endpoint = ""
  · rw [groupCreate, if_pos hendpoint] at hcall
    cases hcall
    exact .noEndpoint hrenews hendpoint fun q => hlookup _ _ _ q
  · rw [groupCreate, if_neg hendpoint] at hcall
    cases hmade : around.made with
    | client =>
      rw [hmade] at hcall
      cases hcall
      exact .fresh hrenews hendpoint hmade fun q => hlookup _ _ _ q
    | null constructed =>
      rw [hmade] at hcall
      cases hcall
      exact .null constructed hrenews hmade fun q => hlookup _ _ _ q
    | throws constructed =>
      rw [hmade] at hcall
      cases hcall
      exact .threw constructed hrenews hmade fun q => lookup_emplace_none

/-- Every call on the group factory is an instance of a rule. -/
theorem groupMoves_of_groupCall
    (hcall : groupCall h clients p force around = some (h', clients', returned)) :
    GroupMoves h clients p force around h' clients' returned := by
  have hslot : ((Table.emplace clients p none).lookup p).join = (clients.lookup p).join := by
    rw [lookup_emplace_none, if_pos rfl]
    rfl
  simp only [groupCall, hslot] at hcall
  by_cases hcreate : p ∉ clients ∨ force
  · rw [if_pos hcreate, Option.map_some, Option.some.injEq] at hcall
    refine groupMoves_create ?_ hcall
    rcases hcreate with hnew | hforce
    · exact Or.inl (AList.lookup_eq_none.mpr hnew)
    · exact Or.inr (Or.inl hforce)
  · rw [if_neg hcreate] at hcall
    obtain ⟨hmem, hforce⟩ : p ∈ clients ∧ force = false := by simpa using hcreate
    obtain ⟨result, hreinit, hsettle⟩ := Option.map_eq_some_iff.mp hcall
    rcases hslotp : (clients.lookup p).join with _ | ⟨t⟩ | w | id <;> rw [hslotp] at hreinit
    · cases hreinit
    · obtain ⟨transport, htransport, rfl⟩ := Option.map_eq_some_iff.mp hreinit
      have hentry : clients.lookup p = some (some (.messaging t)) :=
        Option.join_eq_some_iff.mp hslotp
      split at hsettle
      · next hbad =>
        refine groupMoves_create (Or.inr (Or.inr ⟨t, transport, hentry, htransport, ?_⟩)) ?_
        · simpa using hbad
        · rw [hslotp]
          exact hsettle
      · next hgood =>
        obtain ⟨hready, hzero⟩ : around.ready = true ∧ transport.badService = 0 := by
          simpa using hgood
        cases hsettle
        refine .reuse t transport hforce hentry htransport hready hzero fun q => ?_
        rw [lookup_settle, lookup_emplace_none]
        split
        · next hq => rw [hq, hentry]; rfl
        · rfl
    · cases hreinit
    · cases hreinit

/-! ## Calls on a `mesg_factory` -/

/-- A call that goes on after the answer was given a transport or is refused. -/
theorem pendingAfter_eq_some {purpose : Purpose} {plan : ℕ → UInt32 → Plan} {pending : Pending}
    (hpending : State.pendingAfter p purpose plan h returned = some pending) :
    (∃ t, returned = .client (some (.messaging t)) ∧
      pending = ⟨p, plan t ((h.transports[t]?.map (·.badService)).getD 0), purpose⟩) ∨
    pending = ⟨p, .refuse .cancelled (by decide), purpose⟩ := by
  rcases returned with (_ | t | w | id) | _
  · exact Or.inr (Option.some.inj hpending).symm
  · exact Or.inl ⟨t, rfl, (Option.some.inj hpending).symm⟩
  · exact Or.inr (Option.some.inj hpending).symm
  · exact Or.inr (Option.some.inj hpending).symm
  · cases hpending

/-- What a call on a `mesg_factory` wants a transport for. -/
inductive Chooses (s : State) (f : ℕ) (p : PeerId) (force : Bool) : (ℕ → UInt32 → Plan) → Prop
  | create (hcreate : (s.factories f).clients.lookup p = none ∨ force = true) :
      Chooses s f p force .create
  | reinit (w : ℕ) (hentry : (s.factories f).clients.lookup p = some (some (.proto w)))
      (hforce : force = false) : Chooses s f p force (.reinit w)

/-- The first half of a call: the group factory is asked, unless the slot holds no
wrapper to reinitialise. -/
theorem request_cases {purpose : Purpose}
    (hrequest : s.request f p force purpose around = some s') :
    (s.factories f).busy = none ∧
      ((∃ plan h groupClients returned, Chooses s f p force plan ∧
        groupCall s.heap s.groupClients p false around = some (h, groupClients, returned) ∧
        s' = { s with heap := h, groupClients := groupClients }.setFactory f
          (Table.emplace (s.factories f).clients p none)
          (State.pendingAfter p purpose plan h returned)) ∨
      (∃ slot, (s.factories f).clients.lookup p = some slot ∧ State.castProto slot = none ∧
        force = false ∧ s' = s.setFactory f (Table.emplace (s.factories f).clients p none)
          (some ⟨p, .refuse .badRequest (by decide), purpose⟩))) := by
  have hslot : ((Table.emplace (s.factories f).clients p none).lookup p).join =
      ((s.factories f).clients.lookup p).join := by
    rw [lookup_emplace_none, if_pos rfl]
    rfl
  have hask : ∀ plan, s.askGroup f (Table.emplace (s.factories f).clients p none) p purpose around
      plan = some s' → ∃ h groupClients returned,
        groupCall s.heap s.groupClients p false around = some (h, groupClients, returned) ∧
        s' = { s with heap := h, groupClients := groupClients }.setFactory f
          (Table.emplace (s.factories f).clients p none)
          (State.pendingAfter p purpose plan h returned) := by
    intro plan hask
    obtain ⟨⟨h, groupClients, returned⟩, hcall, rfl⟩ := Option.map_eq_some_iff.mp hask
    exact ⟨h, groupClients, returned, hcall, rfl⟩
  simp only [State.request, hslot] at hrequest
  split at hrequest
  · cases hrequest
  next hbusy =>
  refine ⟨Option.not_isSome_iff_eq_none.mp hbusy, ?_⟩
  split at hrequest
  · next hcreate =>
    obtain ⟨h, groupClients, returned, hcall, hs'⟩ := hask _ hrequest
    refine Or.inl ⟨_, h, groupClients, returned, .create ?_, hcall, hs'⟩
    exact hcreate.imp_left AList.lookup_eq_none.mpr
  next hreinit =>
  obtain ⟨hmem, hforce⟩ : p ∈ (s.factories f).clients ∧ force = false := by simpa using hreinit
  obtain ⟨slot, hentry⟩ := Option.isSome_iff_exists.mp (AList.lookup_isSome.mpr hmem)
  rw [hentry] at hrequest
  rcases slot with _ | t | w | id
  · cases hrequest
    exact Or.inr ⟨_, hentry, rfl, hforce, rfl⟩
  · cases hrequest
    exact Or.inr ⟨_, hentry, rfl, hforce, rfl⟩
  · obtain ⟨h, groupClients, returned, hcall, hs'⟩ := hask _ hrequest
    exact Or.inl ⟨_, h, groupClients, returned, .reinit w hentry hforce, hcall, hs'⟩
  · cases hrequest
    exact Or.inr ⟨_, hentry, rfl, hforce, rfl⟩

/-- The first half of a call takes the lock and changes no other factory. -/
theorem request_locks {purpose : Purpose}
    (hrequest : s.request f p force purpose around = some s') :
    (s.factories f).busy = none ∧ ∃ h groupClients busy,
      s' = { s with heap := h, groupClients := groupClients }.setFactory f
        (Table.emplace (s.factories f).clients p none) busy ∧
      ∀ pending, busy = some pending → pending.peer = p := by
  obtain ⟨hfree, ⟨plan, h, groupClients, returned, -, -, rfl⟩ | ⟨slot, -, -, -, rfl⟩⟩ :=
    request_cases hrequest
  · refine ⟨hfree, h, groupClients, _, rfl, fun pending hpending => ?_⟩
    rcases pendingAfter_eq_some hpending with ⟨t, -, rfl⟩ | rfl <;> rfl
  · refine ⟨hfree, s.heap, s.groupClients, _, rfl, fun pending hpending => ?_⟩
    cases hpending
    rfl

/-- The state after a call on factory `f` for peer `p` that leaves the heap `h` and
the slot `slot`, and returns `returned`. -/
structure Finished (s : State) (f : ℕ) (p : PeerId) (h : Heap) (slot returned : Slot) (s' : State) :
    Prop where
  heap : s'.heap = h
  groupClients : s'.groupClients = s.groupClients
  groupId : (s'.factories f).groupId = (s.factories f).groupId
  groupType : (s'.factories f).groupType = (s.factories f).groupType
  free : (s'.factories f).busy = none
  lookup : ∀ q, (s'.factories f).clients.lookup q =
    if q = p then slot.map some else (s.factories f).clients.lookup q
  others : ∀ f', f' ≠ f → s'.factories f' = s.factories f'
  toSend : ∀ x ∈ s'.toSend, x ∈ s.toSend ∨ returned = some (.proto x.2)
  sent : s'.sent = s.sent

/-- What holds of the factory that was called and of all others before. -/
theorem Finished.forall_factories {slot returned : Slot} {P : ℕ → MesgFactory → Prop}
    (hdone : Finished s f p h slot returned s') (hself : P f (s'.factories f))
    (hothers : ∀ f', f' ≠ f → P f' (s.factories f')) : ∀ f', P f' (s'.factories f') := by
  intro f'
  by_cases hf' : f' = f
  · rw [hf']
    exact hself
  · rw [hdone.others f' hf']
    exact hothers f' hf'

/-- Queueing a data request only adds the wrapper that was returned. -/
theorem queueData_cases (s : State) (purpose : Purpose) (returned : Slot) :
    ∃ queue, s.queueData purpose returned = { s with toSend := queue } ∧
      ∀ x ∈ queue, x ∈ s.toSend ∨ returned = some (.proto x.2) := by
  unfold State.queueData
  split
  · next bidirectional w =>
    refine ⟨_, rfl, fun x hx => ?_⟩
    rcases List.mem_append.mp hx with hold | hnew
    · exact Or.inl hold
    · rw [List.mem_singleton.mp hnew]
      exact Or.inr rfl
  · exact ⟨s.toSend, rfl, fun x hx => Or.inl hx⟩

/-- The second half of a call. -/
theorem finish_cases {returned : Slot} (hfinish : s.finish text f = some (s', returned)) :
    ∃ p plan purpose, (s.factories f).busy = some ⟨p, plan, purpose⟩ ∧
      match plan with
      | .refuse _ _ => returned = some s.heap.newError.2 ∧
          Finished s f p s.heap.newError.1 ((s.factories f).clients.lookup p).join returned s'
      | .create t checked => returned = some (.proto s.heap.wrappers.length) ∧
          Finished s f p (s.heap.newWrapper t (s.factories f).groupId (s.factories f).groupType
            (text.toString p) checked) returned returned s'
      | .reinit w t checked => returned = ((s.factories f).clients.lookup p).join ∧
          Finished s f p (s.heap.setClient w t checked) returned returned s' := by
  obtain ⟨⟨p, plan, purpose⟩, hbusy, hpending⟩ := Option.map_eq_some_iff.mp hfinish
  refine ⟨p, plan, purpose, hbusy, ?_⟩
  have hfinished : ∀ h slot code,
      (({ s with heap := (settle h (s.factories f).clients p slot code).1 }.setFactory f
        (settle h (s.factories f).clients p slot code).2.1 none).queueData purpose
        (settle h (s.factories f).clients p slot code).2.2,
        (settle h (s.factories f).clients p slot code).2.2) = (s', returned) →
      returned = (settle h (s.factories f).clients p slot code).2.2 ∧
        Finished s f p (settle h (s.factories f).clients p slot code).1 slot returned s' := by
    intro h slot code heq
    obtain ⟨hs', rfl⟩ := Prod.mk.inj heq
    refine ⟨rfl, ?_⟩
    obtain ⟨queue, hqueue, hmem⟩ := queueData_cases
      ({ s with heap := (settle h (s.factories f).clients p slot code).1 }.setFactory f
        (settle h (s.factories f).clients p slot code).2.1 none) purpose
      (settle h (s.factories f).clients p slot code).2.2
    rw [hqueue] at hs'
    subst hs'
    refine ⟨rfl, rfl, ?_, ?_, ?_, fun q => ?_,
      fun f' hf' => State.setFactory_of_ne _ _ _ hf', hmem, rfl⟩
    · simp
    · simp
    · simp
    · simp [lookup_settle]
  cases plan with
  | refuse code failed =>
    obtain ⟨hreturned, hdone⟩ := hfinished s.heap _ code hpending
    rw [(settle_failed failed).2] at hreturned
    rw [(settle_failed failed).1] at hdone
    exact ⟨hreturned, hdone⟩
  | create t checked =>
    obtain ⟨rfl, hdone⟩ := hfinished _ _ .ok hpending
    exact ⟨rfl, hdone⟩
  | reinit w t checked =>
    obtain ⟨rfl, hdone⟩ := hfinished _ _ .ok hpending
    exact ⟨rfl, hdone⟩

/-- The second half of a call, whatever its plan. -/
theorem finish_done {returned : Slot} (hfinish : s.finish text f = some (s', returned)) :
    ∃ p plan purpose h slot, (s.factories f).busy = some ⟨p, plan, purpose⟩ ∧
      Finished s f p h slot returned s' := by
  obtain ⟨p, plan, purpose, hbusy, hplan⟩ := finish_cases hfinish
  cases plan <;> exact ⟨p, _, purpose, _, _, hbusy, hplan.2⟩

/-- The second half of a call leaves the transports alone. -/
theorem finish_transports {returned : Slot} (hfinish : s.finish text f = some (s', returned)) :
    s'.heap.transports = s.heap.transports := by
  obtain ⟨p, plan, purpose, -, hplan⟩ := finish_cases hfinish
  cases plan <;> rw [hplan.2.heap] <;> rfl

/-! ## All other steps -/

/-- The two values of a transport that never change. -/
def Transport.SameIdentity (x x' : Transport) : Prop := x'.id = x.id ∧ x'.endpoint = x.endpoint

/-- The transport whose `bad_service` the step counts up. -/
def Label.bumped : Label → Option ℕ
  | .raftDone t status => if status = .invalidArgument then some t else none
  | .dataDone t failed => if failed then some t else none
  | _ => none

/-- A step that leaves the caches, the wrappers and the identity of the transports
alone, and counts up `bad_service` only where `bumps` says so. -/
structure Quiet (bumps : ℕ → Prop) (s s' : State) : Prop where
  groupClients : s'.groupClients = s.groupClients
  factories : s'.factories = s.factories
  wrappers : s'.heap.wrappers = s.heap.wrappers
  lookups : s'.heap.lookups = s.heap.lookups
  constructed : s'.heap.constructed = s.heap.constructed
  transports : ∀ (t : ℕ) (x : Transport), s.heap.transports[t]? = some x →
    ∃ x', s'.heap.transports[t]? = some x' ∧ x.SameIdentity x' ∧
      (x'.badService = x.badService ∨ bumps t ∧ x'.badService = x.badService + 1)
  length : s'.heap.transports.length = s.heap.transports.length
  toSend : ∀ x ∈ s'.toSend, x ∈ s.toSend

variable {bumps : ℕ → Prop}

/-- A step that does not touch the heap or the caches. -/
theorem quiet_of_eq (hheap : s'.heap = s.heap) (hgroup : s'.groupClients = s.groupClients)
    (hfactories : s'.factories = s.factories) (htoSend : ∀ x ∈ s'.toSend, x ∈ s.toSend) :
    Quiet bumps s s' := by
  refine ⟨hgroup, hfactories, ?_, ?_, ?_, fun t x hx => ⟨x, ?_, ⟨rfl, rfl⟩, Or.inl rfl⟩, ?_,
    htoSend⟩
  all_goals rw [hheap]
  exact hx

/-- A state that is kept is quiet. -/
theorem Quiet.refl (s : State) : Quiet bumps s s := quiet_of_eq rfl rfl rfl fun _ hx => hx

/-- A step that bumps nothing, followed by any other. -/
theorem Quiet.trans {s'' : State} (h : Quiet (fun _ => False) s s') (h' : Quiet bumps s' s'') :
    Quiet bumps s s'' := by
  refine ⟨h'.groupClients.trans h.groupClients, h'.factories.trans h.factories,
    h'.wrappers.trans h.wrappers, h'.lookups.trans h.lookups, h'.constructed.trans h.constructed,
    fun t x hx => ?_, h'.length.trans h.length, fun x hx => h.toSend x (h'.toSend x hx)⟩
  obtain ⟨x', hx', ⟨hid, hendpoint⟩, hbad⟩ := h.transports t x hx
  obtain ⟨x'', hx'', ⟨hid', hendpoint'⟩, hbad'⟩ := h'.transports t x' hx'
  have hsame : x'.badService = x.badService := hbad.resolve_right fun hbump => hbump.1
  rw [hsame] at hbad'
  exact ⟨x'', hx'', ⟨hid'.trans hid, hendpoint'.trans hendpoint⟩, hbad'⟩

/-- Counters of a transport can change without further effect. -/
theorem quiet_updateTransport {t : ℕ} {change : Transport → Transport}
    (hchange : ∀ x : Transport, x.SameIdentity (change x) ∧
      ((change x).badService = x.badService ∨
        bumps t ∧ (change x).badService = x.badService + 1)) :
    Quiet bumps s (s.updateTransport t change) := by
  refine ⟨rfl, rfl, rfl, rfl, rfl, fun u x hx => ⟨_, Cells.getElem?_update hx, ?_⟩,
    List.length_modify .., fun _ hx => hx⟩
  split
  · next hu =>
    subst hu
    exact hchange x
  · exact ⟨⟨rfl, rfl⟩, Or.inl rfl⟩

/-- A bad answer counts one; everything else of the transport stays. -/
theorem Transport.bump_cases (x : Transport) (bad : Bool) :
    x.SameIdentity (x.bump bad) ∧ ((x.bump bad).badService = x.badService ∨
      bad = true ∧ (x.bump bad).badService = x.badService + 1) := by
  cases bad with
  | false => exact ⟨⟨rfl, rfl⟩, Or.inl rfl⟩
  | true => exact ⟨⟨rfl, rfl⟩, Or.inr ⟨rfl, rfl⟩⟩

/-- Sending a data request. -/
theorem sendData_cases {bidirectional : Bool} {w : ℕ}
    {checked : Transport → Wrapper → Option UInt32}
    (hsend : s.sendData bidirectional w checked = some s') :
    ∃ wrapper t transport, s.heap.wrappers[w]? = some wrapper ∧ wrapper.client = some t ∧
      s.heap.transports[t]? = some transport ∧ Quiet bumps s s' ∧
      s'.sent = s.sent ++ [⟨bidirectional, t, checked transport wrapper⟩] := by
  obtain ⟨wrapper, hwrapper, hsend⟩ := Option.bind_eq_some_iff.mp hsend
  obtain ⟨t, ht, hsend⟩ := Option.bind_eq_some_iff.mp hsend
  obtain ⟨transport, htransport, hsend⟩ := Option.bind_eq_some_iff.mp hsend
  refine ⟨wrapper, t, transport, hwrapper, ht, htransport, ?_⟩
  have hlogged : ∀ bumps, Quiet bumps s
      { s with sent := s.sent ++ [⟨bidirectional, t, checked transport wrapper⟩] } :=
    fun _ => quiet_of_eq rfl rfl rfl fun _ hx => hx
  cases bidirectional with
  | false =>
    cases hsend
    exact ⟨hlogged bumps, rfl⟩
  | true =>
    cases hsend
    exact ⟨(hlogged _).trans (quiet_updateTransport fun _ => ⟨⟨rfl, rfl⟩, Or.inl rfl⟩), rfl⟩

/-- Every data request sent in a step was sent without a check, after a check that
found the transport good, or over a wrapper whose transport was checked before. -/
def SendsChecked (s s' : State) : Prop :=
  ∀ x ∈ s'.sent, x ∈ s.sent ∨ x.bidirectional = false ∨ x.checked = some 0 ∨
    ∃ (w : ℕ) (wrapper : Wrapper), s.heap.wrappers[w]? = some wrapper ∧
      x.checked = some wrapper.checked

/-- Without a new request nothing has to be checked. -/
theorem sendsChecked_of_eq (hsent : s'.sent = s.sent) : SendsChecked s s' := by
  intro x hx
  rw [hsent] at hx
  exact Or.inl hx

/-- A send to a cached client without a check. -/
theorem sendUnchecked_quiet {slot : Slot}
    (hsend : ((State.castProto slot).bind fun w => s.sendData false w fun _ _ => none) = some s') :
    Quiet bumps s s' ∧ ∀ x ∈ s'.sent, x ∈ s.sent ∨ x.bidirectional = false := by
  obtain ⟨w, -, hsend⟩ := Option.bind_eq_some_iff.mp hsend
  obtain ⟨wrapper, t, transport, -, -, -, hquiet, hsent⟩ := sendData_cases hsend
  refine ⟨hquiet, fun x hx => ?_⟩
  rw [hsent] at hx
  rcases List.mem_append.mp hx with hold | hnew
  · exact Or.inl hold
  · rw [List.mem_singleton.mp hnew]
    exact Or.inr rfl

/-- Sending to all cached clients, one after the other. -/
theorem broadcast_quiet {slots : List Slot}
    (hsend : slots.foldlM (fun (s : State) slot =>
      (State.castProto slot).bind fun w => s.sendData false w fun _ _ => none) s = some s') :
    Quiet bumps s s' ∧ ∀ x ∈ s'.sent, x ∈ s.sent ∨ x.bidirectional = false := by
  induction slots generalizing s with
  | nil =>
    cases hsend
    exact ⟨.refl _, fun x hx => Or.inl hx⟩
  | cons slot slots ih =>
    rw [List.foldlM_cons] at hsend
    obtain ⟨mid, hmid, hrest⟩ := Option.bind_eq_some_iff.mp hsend
    obtain ⟨hquiet, hsent⟩ := sendUnchecked_quiet hmid
    obtain ⟨hquiet', hsent'⟩ := ih hrest
    refine ⟨hquiet.trans hquiet', fun x hx => ?_⟩
    rcases hsent' x hx with hold | hnew
    · exact hsent x hold
    · exact Or.inr hnew

/-- `data_service_request_bidirectional` sends only after it read a zero. -/
theorem bidirectional_quiet (hsend : s.bidirectional f p = some s') :
    Quiet bumps s s' ∧ ∀ x ∈ s'.sent, x ∈ s.sent ∨ x.checked = some 0 := by
  have hidle : Quiet bumps s s ∧ ∀ x ∈ s.sent, x ∈ s.sent ∨ x.checked = some 0 :=
    ⟨.refl s, fun x hx => Or.inl hx⟩
  simp only [State.bidirectional] at hsend
  split at hsend
  · cases hsend
    exact hidle
  obtain ⟨w, -, hsend⟩ := Option.bind_eq_some_iff.mp hsend
  obtain ⟨wrapper, hwrapper, hsend⟩ := Option.bind_eq_some_iff.mp hsend
  split at hsend
  · cases hsend
    exact hidle
  next t ht =>
  obtain ⟨transport, htransport, hsend⟩ := Option.bind_eq_some_iff.mp hsend
  split at hsend
  · cases hsend
    exact hidle
  next hgood =>
  -- The lock is held, so the send uses the transport that was checked.
  obtain ⟨wrapper', t', transport', hwrapper', ht', htransport', hquiet, hsent⟩ :=
    sendData_cases hsend
  obtain rfl := Option.some.inj (hwrapper.symm.trans hwrapper')
  obtain rfl := Option.some.inj (ht.symm.trans ht')
  obtain rfl := Option.some.inj (htransport.symm.trans htransport')
  have hzero : transport.badService = 0 := by simpa using hgood
  refine ⟨hquiet, fun x hx => ?_⟩
  rw [hsent] at hx
  rcases List.mem_append.mp hx with hold | hnew
  · exact Or.inl hold
  · rw [List.mem_singleton.mp hnew, hzero]
    exact Or.inr rfl

/-- A data request that uses the wrapper it was given. -/
theorem dispatch_quiet {bidirectional : Bool} {w : ℕ}
    (hstep : step text s (.dispatch bidirectional w) = some s') :
    Quiet bumps s s' ∧ SendsChecked s s' := by
  simp only [step] at hstep
  split at hstep
  · obtain ⟨wrapper, t, transport, hwrapper, -, -, hquiet, hsent⟩ := sendData_cases hstep
    have hdequeue : Quiet (fun _ => False) s
        { s with toSend := s.toSend.erase (bidirectional, w) } :=
      quiet_of_eq rfl rfl rfl fun _ hx => List.mem_of_mem_erase hx
    refine ⟨hdequeue.trans hquiet, fun x hx => ?_⟩
    rw [hsent] at hx
    rcases List.mem_append.mp hx with hold | hnew
    · exact Or.inl hold
    · rw [List.mem_singleton.mp hnew]
      exact Or.inr (Or.inr (Or.inr ⟨w, wrapper, hwrapper, rfl⟩))
  · cases hstep

/-- A step that is half of a call on a `mesg_factory` or a call on the group factory. -/
def Label.IsCall : Label → Prop
  | .request .. | .finish _ | .group .. => True
  | _ => False

/-- What a step can be. -/
theorem step_cases {l : Label} (hstep : step text s l = some s') :
    (∃ f p force purpose around, l = .request f p force purpose around ∧
      s.request f p force purpose around = some s') ∨
    (∃ f returned, l = .finish f ∧ s.finish text f = some (s', returned)) ∨
    (∃ p force around h groupClients returned, l = .group p force around ∧
      groupCall s.heap s.groupClients p force around = some (h, groupClients, returned) ∧
      s' = { s with heap := h, groupClients := groupClients }) ∨
    ¬ l.IsCall ∧ Quiet (l.bumped = some ·) s s' ∧ SendsChecked s s' := by
  cases l with
  | request f p force purpose around => exact Or.inl ⟨f, p, force, purpose, around, rfl, hstep⟩
  | finish f =>
    obtain ⟨⟨s'', returned⟩, hfinish, rfl⟩ := Option.map_eq_some_iff.mp hstep
    exact Or.inr (Or.inl ⟨f, returned, rfl, hfinish⟩)
  | group p force around =>
    obtain ⟨⟨h, groupClients, returned⟩, hcall, rfl⟩ := Option.map_eq_some_iff.mp hstep
    exact Or.inr (Or.inr (Or.inl
      ⟨p, force, around, h, groupClients, returned, rfl, hcall, rfl⟩))
  | unidirectional f p =>
    refine Or.inr (Or.inr (Or.inr ⟨id, ?_⟩))
    simp only [step, State.unidirectional] at hstep
    split at hstep
    · cases hstep
    split at hstep
    · cases hstep
      exact ⟨.refl s, sendsChecked_of_eq rfl⟩
    · obtain ⟨hquiet, hsent⟩ := sendUnchecked_quiet hstep
      exact ⟨hquiet, fun x hx => (hsent x hx).imp_right Or.inl⟩
  | bidirectional f p =>
    refine Or.inr (Or.inr (Or.inr ⟨id, ?_⟩))
    simp only [step] at hstep
    split at hstep
    · cases hstep
    · obtain ⟨hquiet, hsent⟩ := bidirectional_quiet hstep
      exact ⟨hquiet, fun x hx => (hsent x hx).imp_right fun h => Or.inr (Or.inl h)⟩
  | broadcast f =>
    refine Or.inr (Or.inr (Or.inr ⟨id, ?_⟩))
    simp only [step] at hstep
    split at hstep
    · cases hstep
    · obtain ⟨hquiet, hsent⟩ := broadcast_quiet hstep
      exact ⟨hquiet, fun x hx => (hsent x hx).imp_right Or.inl⟩
  | dispatch bidirectional w => exact Or.inr (Or.inr (Or.inr ⟨id, dispatch_quiet hstep⟩))
  | sendRaft w =>
    obtain ⟨wrapper, -, hstep⟩ := Option.bind_eq_some_iff.mp hstep
    obtain ⟨t, -, hstep⟩ := Option.bind_eq_some_iff.mp hstep
    cases hstep
    exact Or.inr (Or.inr (Or.inr
      ⟨id, quiet_updateTransport fun _ => ⟨⟨rfl, rfl⟩, Or.inl rfl⟩, sendsChecked_of_eq rfl⟩))
  | raftDone t status =>
    obtain ⟨x, -, hstep⟩ := Option.bind_eq_some_iff.mp hstep
    split at hstep
    · cases hstep
    · cases hstep
      refine Or.inr (Or.inr (Or.inr
        ⟨id, quiet_updateTransport fun x => ?_, sendsChecked_of_eq rfl⟩))
      obtain ⟨hsame, hbad⟩ := Transport.bump_cases { x with raftCalls := x.raftCalls - 1 }
        (decide (status = StatusCode.invalidArgument))
      exact ⟨hsame, hbad.imp_right fun hbump => ⟨if_pos (of_decide_eq_true hbump.1), hbump.2⟩⟩
  | dataDone t failed =>
    obtain ⟨x, -, hstep⟩ := Option.bind_eq_some_iff.mp hstep
    split at hstep
    · cases hstep
    · cases hstep
      refine Or.inr (Or.inr (Or.inr
        ⟨id, quiet_updateTransport fun x => ?_, sendsChecked_of_eq rfl⟩))
      obtain ⟨hsame, hbad⟩ := Transport.bump_cases { x with dataCalls := x.dataCalls - 1 } failed
      exact ⟨hsame, hbad.imp_right fun hbump => ⟨if_pos hbump.1, hbump.2⟩⟩

/-! ## A call and what happens during it -/

/-- What a call can be going to do, by the entry that it found. -/
def Plan.FitsEntry (entry : Option Slot) (force : Bool) : Plan → Prop
  | .refuse _ _ => True
  | .create _ _ => entry = none ∨ force = true
  | .reinit w _ _ => entry = some (some (.proto w)) ∧ force = false

/-- The state of a factory after the first half of a call. -/
theorem request_pending {purpose purpose' : Purpose} {plan : Plan}
    (hrequest : s.request f p force purpose around = some s')
    (hbusy : (s'.factories f).busy = some ⟨q, plan, purpose'⟩) :
    q = p ∧ (s'.factories f).clients = Table.emplace (s.factories f).clients p none ∧
      plan.FitsEntry ((s.factories f).clients.lookup p) force := by
  obtain ⟨-, ⟨choice, h, groupClients, returned, hchooses, -, rfl⟩ | ⟨slot, -, -, -, rfl⟩⟩ :=
    request_cases hrequest
  · rw [State.setFactory_self] at hbusy ⊢
    rcases pendingAfter_eq_some hbusy with ⟨t, -, heq⟩ | heq
    · cases heq
      refine ⟨rfl, rfl, ?_⟩
      cases hchooses with
      | create hcreate => exact hcreate
      | reinit w hentry hforce => exact ⟨hentry, hforce⟩
    · cases heq
      exact ⟨rfl, rfl, trivial⟩
  · rw [State.setFactory_self] at hbusy ⊢
    cases hbusy
    exact ⟨rfl, rfl, trivial⟩

/-- While a call holds the lock of a factory nobody else changes the factory. -/
theorem step_factory_of_busy {l : Label} {pending : Pending}
    (hbusy : (s.factories f).busy = some pending) (hl : l ≠ .finish f)
    (hstep : step text s l = some s') : s'.factories f = s.factories f := by
  rcases step_cases hstep with ⟨f', p, force, purpose, around, rfl, hrequest⟩ |
    ⟨f', returned, rfl, hfinish⟩ | ⟨p, force, around, h, groupClients, returned, rfl, -, rfl⟩ |
    ⟨-, hquiet, -⟩
  · obtain ⟨hfree, h, groupClients, busy, rfl, -⟩ := request_locks hrequest
    have hne : f ≠ f' := by
      rintro rfl
      rw [hfree] at hbusy
      cases hbusy
    exact State.setFactory_of_ne _ _ _ hne
  · have hne : f ≠ f' := fun heq => hl (by rw [heq])
    obtain ⟨p, plan, purpose, h, slot, -, hdone⟩ := finish_done hfinish
    exact hdone.others f hne
  · rfl
  · rw [hquiet.factories]

/-- The same over a run that does not finish the call. -/
theorem run_factory_of_busy {ls : List Label} {pending : Pending}
    (hbusy : (s.factories f).busy = some pending) (hls : .finish f ∉ ls)
    (hrun : Transition.run (step text) s ls = some s') : s'.factories f = s.factories f := by
  refine Transition.run_invariant_of_labels (I := fun s' => s'.factories f = s.factories f)
    (P := (· ≠ .finish f)) (fun x l x' hx hl hstep => ?_) rfl
    (fun l hl => ne_of_mem_of_not_mem hl hls) hrun
  rw [← hx] at hbusy ⊢
  exact step_factory_of_busy hbusy hl hstep

/-- When a call that got the lock ends, its plan and its slot are those of its first
half. -/
theorem call_pending {purpose : Purpose} {asked before : State} {mid : List Label}
    (hrequest : s.request f p force purpose around = some asked)
    (hlocked : (asked.factories f).busy ≠ none) (hothers : .finish f ∉ mid)
    (hbetween : Transition.run (step text) asked mid = some before) :
    ∃ plan purpose', (asked.factories f).busy = some ⟨p, plan, purpose'⟩ ∧
      (before.factories f).busy = some ⟨p, plan, purpose'⟩ ∧
      plan.FitsEntry ((s.factories f).clients.lookup p) force ∧
      ((before.factories f).clients.lookup p).join =
        ((s.factories f).clients.lookup p).join := by
  obtain ⟨⟨q, plan, purpose'⟩, hbusy⟩ := Option.ne_none_iff_exists'.mp hlocked
  obtain ⟨rfl, hclients, hfits⟩ := request_pending hrequest hbusy
  have hfactory := run_factory_of_busy hbusy hothers hbetween
  refine ⟨plan, purpose', hbusy, by rw [hfactory, hbusy], hfits, ?_⟩
  rw [hfactory, hclients, lookup_emplace_none, if_pos rfl]
  rfl

/-! ## What never changes -/

/-- Locks and caches do not change the group of a factory. -/
theorem setFactory_groupId (f f' : ℕ) (clients : Clients) (busy : Option Pending) :
    ((s.setFactory f clients busy).factories f').groupId = (s.factories f').groupId := by
  by_cases hf : f' = f
  · rw [hf, State.setFactory_self]
  · rw [State.setFactory_of_ne s clients busy hf]

/-- A factory belongs to one group for ever. -/
theorem step_groupId {l : Label} (hstep : step text s l = some s') (f : ℕ) :
    (s'.factories f).groupId = (s.factories f).groupId := by
  rcases step_cases hstep with ⟨f', p, force, purpose, around, rfl, hrequest⟩ |
    ⟨f', returned, rfl, hfinish⟩ | ⟨p, force, around, h, groupClients, returned, rfl, -, rfl⟩ |
    ⟨-, hquiet, -⟩
  · obtain ⟨-, h, groupClients, busy, rfl, -⟩ := request_locks hrequest
    exact setFactory_groupId ..
  · obtain ⟨p, plan, purpose, h, slot, -, hdone⟩ := finish_done hfinish
    exact hdone.forall_factories
      (P := fun f factory => factory.groupId = (s.factories f).groupId) hdone.groupId
      (fun _ _ => rfl) f
  · rfl
  · rw [hquiet.factories]

/-- Along a run a factory keeps its group. -/
theorem run_groupId {groups : ℕ → GroupId × GroupType} {ls : List Label}
    (hrun : Transition.run (step text) (State.init groups) ls = some s) (f : ℕ) :
    (s.factories f).groupId = (groups f).1 :=
  Transition.run_invariant (I := fun s => (s.factories f).groupId = (groups f).1)
    (fun _ _ _ hs hstep => (step_groupId hstep f).trans hs) rfl hrun

end NuraftMesg.Factory
