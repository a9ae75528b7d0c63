import NuraftMesg.Factory.Rules

/-!
# The heap of clients only grows

Clients are never taken out of the heap, and what identifies them never changes:
the id and the endpoint of a transport, the id, the group and the peer of a wrapper.
The counter of constructed clients never goes back.
-/

namespace NuraftMesg.Factory

variable {text : UuidText} {h h' h'' : Heap} {clients clients' : Clients} {p q : PeerId}
  {force : Bool} {around : Surroundings} {returned : Returned} {s s' : State} {f : ℕ}

/-- The values of a wrapper that never change. -/
def Wrapper.SameIdentity (x x' : Wrapper) : Prop :=
  x'.id = x.id ∧ x'.groupId = x.groupId ∧ x'.groupType = x.groupType ∧ x'.clientAddr = x.clientAddr

/-- Everything in `h` is still in `h'`. -/
structure Heap.Grows (h h' : Heap) : Prop where
  transports : ∀ (t : ℕ) (x : Transport), h.transports[t]? = some x →
    ∃ x', h'.transports[t]? = some x' ∧ x.SameIdentity x'
  wrappers : ∀ (w : ℕ) (x : Wrapper), h.wrappers[w]? = some x →
    ∃ x', h'.wrappers[w]? = some x' ∧ x.SameIdentity x'
  lookups : ∀ e ∈ h.lookups, e ∈ h'.lookups
  constructed : h.constructed ≤ h'.constructed

/-- A heap has grown from itself. -/
theorem Heap.Grows.refl (h : Heap) : h.Grows h :=
  ⟨fun _ x hx => ⟨x, hx, rfl, rfl⟩, fun _ x hx => ⟨x, hx, rfl, rfl, rfl, rfl⟩, fun _ he => he,
    le_rfl⟩

/-- Growth adds up, since identities are compared by equality. -/
theorem Heap.Grows.trans (hgrows : h.Grows h') (hgrows' : h'.Grows h'') : h.Grows h'' := by
  refine ⟨fun t x hx => ?_, fun w x hx => ?_, fun e he => ?_,
    Nat.le_trans hgrows.constructed hgrows'.constructed⟩
  · obtain ⟨x', hx', hid, hendpoint⟩ := hgrows.transports t x hx
    obtain ⟨x'', hx'', hid', hendpoint'⟩ := hgrows'.transports t x' hx'
    exact ⟨x'', hx'', hid'.trans hid, hendpoint'.trans hendpoint⟩
  · obtain ⟨x', hx', hid, hg, hty, haddr⟩ := hgrows.wrappers w x hx
    obtain ⟨x'', hx'', hid', hg', hty', haddr'⟩ := hgrows'.wrappers w x' hx'
    exact ⟨x'', hx'', hid'.trans hid, hg'.trans hg, hty'.trans hty, haddr'.trans haddr⟩
  · exact hgrows'.lookups e (hgrows.lookups e he)

/-- The address of a transport stays valid. -/
theorem Heap.Grows.lt_transports {t : ℕ} (hgrows : h.Grows h') (ht : t < h.transports.length) :
    t < h'.transports.length := by
  obtain ⟨x', hx', -⟩ := hgrows.transports t _ (List.getElem?_eq_getElem ht)
  exact Cells.lt_of_getElem? hx'

/-- The address of a wrapper stays valid. -/
theorem Heap.Grows.lt_wrappers {w : ℕ} (hgrows : h.Grows h') (hw : w < h.wrappers.length) :
    w < h'.wrappers.length := by
  obtain ⟨x', hx', -⟩ := hgrows.wrappers w _ (List.getElem?_eq_getElem hw)
  exact Cells.lt_of_getElem? hx'

/-! ## The single operations -/

/-- A recorded search adds to the log of searches. -/
theorem grows_record (h : Heap) (p : PeerId) (endpoint : String) : h.Grows (h.record p endpoint) :=
  ⟨fun _ x hx => ⟨x, hx, rfl, rfl⟩, fun _ x hx => ⟨x, hx, rfl, rfl, rfl, rfl⟩,
    fun _ he => List.mem_append_left _ he, le_rfl⟩

/-- An id that is drawn for nothing only moves the counter. -/
theorem grows_spend (h : Heap) (constructed : Bool) : h.Grows (h.spend constructed) := by
  cases constructed with
  | false => exact .refl h
  | true =>
    exact ⟨fun _ x hx => ⟨x, hx, rfl, rfl⟩, fun _ x hx => ⟨x, hx, rfl, rfl, rfl, rfl⟩,
      fun _ he => he, Nat.le_succ _⟩

/-- An error client only moves the counter. -/
theorem grows_newError (h : Heap) : h.Grows h.newError.1 :=
  ⟨fun _ x hx => ⟨x, hx, rfl, rfl⟩, fun _ x hx => ⟨x, hx, rfl, rfl, rfl, rfl⟩, fun _ he => he,
    Nat.le_succ _⟩

/-- A new transport stands behind the others. -/
theorem grows_newTransport (h : Heap) (endpoint : String) : h.Grows (h.newTransport endpoint) := by
  exact ⟨fun t x hx => ⟨x, Cells.getElem?_alloc hx, rfl, rfl⟩,
    fun _ x hx => ⟨x, hx, rfl, rfl, rfl, rfl⟩, fun _ he => he, Nat.le_succ _⟩

/-- A new wrapper stands behind the others. -/
theorem grows_newWrapper (h : Heap) (t : ℕ) (g : GroupId) (ty : GroupType) (addr : String)
    (checked : UInt32) : h.Grows (h.newWrapper t g ty addr checked) := by
  exact ⟨fun _ x hx => ⟨x, hx, rfl, rfl⟩,
    fun w x hx => ⟨x, Cells.getElem?_alloc hx, rfl, rfl, rfl, rfl⟩, fun _ he => he, Nat.le_succ _⟩

/-- `setClient` changes none of the values that identify the wrapper. -/
theorem grows_setClient (h : Heap) (w t : ℕ) (checked : UInt32) :
    h.Grows (h.setClient w t checked) := by
  refine ⟨fun _ x hx => ⟨x, hx, rfl, rfl⟩, fun v x hx => ?_, fun _ he => he, le_rfl⟩
  refine ⟨_, Cells.getElem?_update hx, ?_⟩
  split <;> exact ⟨rfl, rfl, rfl, rfl⟩

/-! ## The steps -/

/-- A call on the group factory keeps the heap and makes no wrapper. -/
theorem GroupMoves.grows (hmoves : GroupMoves h clients p force around h' clients' returned) :
    h.Grows h' ∧ h'.wrappers = h.wrappers := by
  cases hmoves with
  | reuse => exact ⟨.refl h, rfl⟩
  | fresh => exact ⟨(grows_record h p _).trans (grows_newTransport _ _), rfl⟩
  | noEndpoint => exact ⟨(grows_record h p _).trans (grows_newError _), rfl⟩
  | null constructed =>
    refine ⟨((grows_record h p _).trans (grows_spend _ constructed)).trans (grows_newError _), ?_⟩
    cases constructed <;> rfl
  | threw constructed =>
    refine ⟨(grows_record h p _).trans (grows_spend _ constructed), ?_⟩
    cases constructed <;> rfl

/-- A send or an answer changes counters of transports only. -/
theorem Quiet.grows {bumps : ℕ → Prop} (hquiet : Quiet bumps s s') : s.heap.Grows s'.heap := by
  refine ⟨fun t x hx => ?_, fun w x hx => ⟨x, ?_, rfl, rfl, rfl, rfl⟩, fun e he => ?_, ?_⟩
  · obtain ⟨x', hx', hsame, -⟩ := hquiet.transports t x hx
    exact ⟨x', hx', hsame⟩
  · rw [hquiet.wrappers, hx]
  · rwa [hquiet.lookups]
  · rw [hquiet.constructed]

/-- The first half of a call keeps the heap and makes no wrapper. -/
theorem request_grows {purpose : Purpose}
    (hrequest : s.request f p force purpose around = some s') :
    s.heap.Grows s'.heap ∧ s'.heap.wrappers = s.heap.wrappers := by
  obtain ⟨-, ⟨plan, h, groupClients, returned, -, hcall, rfl⟩ | ⟨slot, -, -, -, rfl⟩⟩ :=
    request_cases hrequest
  · exact (groupMoves_of_groupCall hcall).grows
  · exact ⟨.refl _, rfl⟩

/-- The second half of a call keeps the heap. -/
theorem finish_grows {slot : Slot} (hfinish : s.finish text f = some (s', slot)) :
    s.heap.Grows s'.heap := by
  obtain ⟨p, plan, purpose, -, hplan⟩ := finish_cases hfinish
  cases plan with
  | refuse code failed =>
    rw [hplan.2.heap]
    exact grows_newError _
  | create t checked =>
    rw [hplan.2.heap]
    exact grows_newWrapper ..
  | reinit w t checked =>
    rw [hplan.2.heap]
    exact grows_setClient ..

/-- No step loses a client. -/
theorem step_grows {l : Label} (hstep : step text s l = some s') : s.heap.Grows s'.heap := by
  rcases step_cases hstep with ⟨f, p, force, purpose, around, -, hrequest⟩ |
    ⟨f, slot, -, hfinish⟩ | ⟨p, force, around, h, groupClients, returned, -, hcall, rfl⟩ |
    ⟨-, hquiet, -⟩
  · exact (request_grows hrequest).1
  · exact finish_grows hfinish
  · exact (groupMoves_of_groupCall hcall).grows.1
  · exact hquiet.grows

/-- Along a run the heap grows. -/
theorem run_grows {ls : List Label} (hrun : Transition.run (step text) s ls = some s') :
    s.heap.Grows s'.heap :=
  Transition.run_invariant (I := fun x => s.heap.Grows x.heap)
    (fun _ _ _ hgrows hstep => hgrows.trans (step_grows hstep)) (.refl _) hrun

end NuraftMesg.Factory
