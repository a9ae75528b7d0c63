import NuraftMesg.Factory.Likeness
import NuraftMesg.UuidText

/-!
# Calls that yield no client

A call puts a null placeholder into the cache of its factory, and then one into the cache
of the group factory, before it tries to construct a client. Each is taken out again on
the normal way back, whatever went wrong; an exception leaves both where they are. This
file says when a call that failed has left no trace: the caches are as if only the other
steps had happened, and so is everything that happens later.
-/

namespace NuraftMesg.Factory

open Transition

/-- The step of `create_client(string)` and of `create_or_reinit_client(string)`, unless the
name is no UUID. -/
def callByName (text : UuidText) (f : ℕ) (client : String) (force : Bool) (around : Surroundings) :
    Option Label :=
  (text.stringGenerator client).map fun p => .request f p force .caller around

/-- The group factory comes to construct a transport. -/
def Constructs (s : State) (p : PeerId) (force : Bool) (around : Surroundings) : Prop :=
  Renews s.heap s.groupClients p force around ∧ around.endpoint ≠ ""

/-- The condition on a step: where `make` throws, the peer is in the caches already, and where
it returns null, the peer is not in the cache of the group factory. -/
def Sheltered (s : State) : Label → Prop
  | .request f p _ _ around => Constructs s p false around →
      (∀ constructed, around.made = .throws constructed →
        p ∈ (s.factories f).clients ∧ p ∈ s.groupClients) ∧
      ∀ constructed, around.made = .null constructed → p ∉ s.groupClients
  | .group p force around => Constructs s p force around →
      (∀ constructed, around.made = .throws constructed → p ∈ s.groupClients) ∧
      ∀ constructed, around.made = .null constructed → p ∉ s.groupClients
  | _ => True

/-- A call that yields no usable client: the `mesg_factory` that was called, if it was one, the
steps from the call to its end, those of others among them, and the state at the end. -/
inductive FailedCall (text : UuidText) (s : State) :
    Option ℕ → List Label → List Label → State → Prop
  /-- The name of the peer cannot be read. -/
  | unreadable (f : ℕ) (client : String) (force : Bool) (around : Surroundings)
      (hread : callByName text f client force around = none) :
      FailedCall text s (some f) [] [] s
  /-- The group factory itself is called. -/
  | group (p : PeerId) (force : Bool) (around : Surroundings) {h : Heap} {clients : Clients}
      {returned : Returned}
      (hcall : groupCall s.heap s.groupClients p force around = some (h, clients, returned))
      (hfailed : ∀ t, returned ≠ .client (some (.messaging t))) :
      FailedCall text s none [.group p force around] []
        { s with heap := h, groupClients := clients }
  /-- An exception ends the call. -/
  | threw (f : ℕ) (p : PeerId) (force : Bool) (purpose : Purpose) (around : Surroundings)
      {s' : State} (hrequest : s.request f p force purpose around = some s')
      (hfree : (s'.factories f).busy = none) :
      FailedCall text s (some f) [.request f p force purpose around] [] s'
  /-- The call returns an error client. -/
  | refused (f : ℕ) (p : PeerId) (force : Bool) (purpose : Purpose) (around : Surroundings)
      {asked before s' : State} {returned : Slot} {mid : List Label}
      (hrequest : s.request f p force purpose around = some asked)
      (hlocked : (asked.factories f).busy ≠ none) (hothers : .finish f ∉ mid)
      (hbetween : run (step text) asked mid = some before)
      (hfinish : before.finish text f = some (s', returned))
      (hfailed : ∀ w, returned ≠ some (.proto w)) :
      FailedCall text s (some f) (.request f p force purpose around :: (mid ++ [.finish f])) mid s'

variable {text : UuidText} {groups : ℕ → GroupId × GroupType} {h h' : Heap}
  {clients clients' : Clients} {p q : PeerId} {force : Bool} {around : Surroundings}
  {returned : Returned} {purpose : Purpose} {s s' : State} {f : ℕ} {l : Label}

/-! ## The group factory -/

/-- Without an endpoint nothing is constructed. -/
theorem groupMoves_of_noEndpoint (hendpoint : around.endpoint = "")
    (hcall : groupCall h clients p force around = some (h', clients', returned)) :
    GroupMoves h clients p force { around with made := .client } h' clients' returned := by
  apply groupMoves_of_groupCall
  rw [← hcall]
  simp only [groupCall, groupReinit, groupCreate, hendpoint, if_true]

/-- What a call on the group factory does to a cache without placeholders: it yields a
transport or leaves the cache as it was. -/
theorem groupCall_cases
    (hcall : groupCall h clients p force around = some (h', clients', returned))
    (hfull : ∀ q, clients.lookup q ≠ some none)
    (hthrows : Renews h clients p force around → around.endpoint ≠ "" →
      ∀ constructed, around.made = .throws constructed → p ∈ clients)
    (hnull : Renews h clients p force around → around.endpoint ≠ "" →
      ∀ constructed, around.made = .null constructed → p ∉ clients) :
    (∃ t, returned = .client (some (.messaging t)) ∧ ∀ q, clients'.lookup q ≠ some none) ∨
      h'.Alike h ∧ (∀ q, clients'.lookup q = clients.lookup q) ∧
        (returned = .threw → Renews h clients p force around ∧ around.endpoint ≠ "" ∧
          ∃ constructed, around.made = .throws constructed) := by
  by_cases hendpoint : around.endpoint = ""
  · cases groupMoves_of_noEndpoint hendpoint hcall with
    | reuse t transport hforce hentry htransport hready hgood hclients =>
      refine Or.inl ⟨t, rfl, fun q => ?_⟩
      rw [hclients q]
      exact hfull q
    | fresh hrenews hfound => exact absurd hendpoint hfound
    | noEndpoint hrenews hnone hclients =>
      refine Or.inr ⟨(alike_newError _).trans (alike_record ..), fun q => ?_, nofun⟩
      rw [hclients q]
      split
      · next hq =>
        subst hq
        cases hentry : clients.lookup q with
        | none => rfl
        | some slot =>
          cases slot with
          | none => exact absurd hentry (hfull q)
          | some c => rfl
      · rfl
    | null constructed hrenews hmade => cases hmade
    | threw constructed hrenews hmade => cases hmade
  · cases groupMoves_of_groupCall hcall with
    | reuse t transport hforce hentry htransport hready hgood hclients =>
      refine Or.inl ⟨t, rfl, fun q => ?_⟩
      rw [hclients q]
      exact hfull q
    | fresh hrenews hfound hmade hclients =>
      refine Or.inl ⟨_, rfl, fun q => ?_⟩
      rw [hclients q]
      split
      · simp
      · exact hfull q
    | noEndpoint hrenews hnone => exact absurd hnone hendpoint
    | null constructed hrenews hmade hclients =>
      refine Or.inr ⟨?_, fun q => ?_, nofun⟩
      · exact ((alike_newError _).trans (alike_spend ..)).trans (alike_record ..)
      · rw [hclients q]
        split
        · next hq =>
          rw [hq, AList.lookup_eq_none.mpr (hnull hrenews hendpoint constructed hmade)]
        · rfl
    | threw constructed hrenews hmade hclients =>
      refine Or.inr ⟨(alike_spend ..).trans (alike_record ..), fun q => ?_,
        fun _ => ⟨hrenews, hendpoint, constructed, hmade⟩⟩
      rw [hclients q]
      split
      · next hq =>
        subst hq
        have hmem := hthrows hrenews hendpoint constructed hmade
        obtain ⟨slot, hentry⟩ := Option.isSome_iff_exists.mp (AList.lookup_isSome.mpr hmem)
        rw [hentry]
        rfl
      · rfl

/-! ## No placeholder outside a call -/

/-- A null entry is the placeholder of the call that holds the lock. -/
structure Placed (s : State) : Prop where
  group : ∀ p, s.groupClients.lookup p ≠ some none
  factories : ∀ f p, (s.factories f).clients.lookup p = some none →
    ∃ pending, (s.factories f).busy = some pending ∧ pending.peer = p

/-- At the beginning all caches are empty. -/
theorem placed_init : Placed (State.init groups) := by
  constructor
  · intro p hp
    cases hp
  · intro f p hp
    cases hp

/-- Outside a call no entry of a factory is null. -/
theorem Placed.ne_null (hs : Placed s) (hfree : (s.factories f).busy = none) :
    (s.factories f).clients.lookup p ≠ some none := by
  intro hnull
  obtain ⟨pending, hbusy, -⟩ := hs.factories f p hnull
  rw [hfree] at hbusy
  cases hbusy

/-- Only an exception ends a call before its second half. -/
theorem threw_of_pendingAfter {plan : ℕ → UInt32 → Plan}
    (hpending : State.pendingAfter p purpose plan h returned = none) : returned = .threw := by
  rcases returned with (_ | t | w | id) | _
  · cases hpending
  · cases hpending
  · cases hpending
  · cases hpending
  · rfl

/-- The placeholder of a call that goes on, or of one that found an entry. -/
theorem Placed.lock {busy : Option Pending} (hs : Placed s) (hfree : (s.factories f).busy = none)
    (hfull : ∀ q, clients.lookup q ≠ some none)
    (hpeer : ∀ pending, busy = some pending → pending.peer = p)
    (hentry : busy = none → p ∈ (s.factories f).clients) :
    Placed ({ s with heap := h, groupClients := clients }.setFactory f
      (Table.emplace (s.factories f).clients p none) busy) := by
  refine ⟨hfull, fun f' q hnull => ?_⟩
  by_cases hf : f' = f
  · subst hf
    rw [State.setFactory_self] at hnull ⊢
    have hnull : (Table.emplace (s.factories f').clients p none).lookup q = some none := hnull
    rw [lookup_emplace_none] at hnull
    split at hnull
    · next hq =>
      cases hbusy : busy with
      | none =>
        obtain ⟨slot, hslot⟩ := Option.isSome_iff_exists.mp
          (AList.lookup_isSome.mpr (hentry hbusy))
        have hjoin : slot = none := by simpa [hslot] using hnull
        rw [hjoin] at hslot
        exact absurd hslot (hs.ne_null hfree)
      | some pending => exact ⟨pending, rfl, (hpeer pending hbusy).trans hq.symm⟩
    · exact absurd hnull (hs.ne_null hfree)
  · rw [State.setFactory_of_ne _ _ _ hf] at hnull ⊢
    exact hs.factories f' q hnull

/-- A call that has only changed its own factory. -/
theorem alikeBut_lock (stored : Clients) (busy : Option Pending) (hheap : h.Alike s.heap)
    (hlookup : ∀ q, clients.lookup q = s.groupClients.lookup q) :
    AlikeBut (some f)
      ({ s with heap := h, groupClients := clients }.setFactory f stored busy) s := by
  refine ⟨hheap, hlookup, fun f' hf' => ?_, rfl, .rfl⟩
  rw [State.setFactory_of_ne _ _ _ fun heq => hf' (by rw [heq])]
  exact .refl _

/-- The first half of a call. If it ended in an exception, or the call is going to be refused,
it has left nothing but a placeholder in its own factory. -/
theorem request_sheltered (hs : Placed s)
    (hsheltered : Sheltered s (.request f p force purpose around))
    (hrequest : s.request f p force purpose around = some s') :
    Placed s' ∧ ((s'.factories f).busy = none → p ∈ (s.factories f).clients) ∧
      ((∃ pending t checked, (s'.factories f).busy = some pending ∧
          (pending.plan = .create t checked ∨ ∃ w, pending.plan = .reinit w t checked)) ∨
        AlikeBut (some f) s' s) := by
  obtain ⟨hfree, ⟨plan, h, groupClients, returned, hchooses, hcall, rfl⟩ |
    ⟨slot, hslot, -, -, rfl⟩⟩ := request_cases hrequest
  · have hcases := groupCall_cases hcall hs.group
      (fun hrenews hfound constructed hmade =>
        ((hsheltered ⟨hrenews, hfound⟩).1 constructed hmade).2)
      (fun hrenews hfound => (hsheltered ⟨hrenews, hfound⟩).2)
    have hpeer : ∀ pending, State.pendingAfter p purpose plan h returned = some pending →
        pending.peer = p := by
      intro pending hpending
      rcases pendingAfter_eq_some hpending with ⟨t, -, rfl⟩ | rfl <;> rfl
    simp only [State.setFactory_self]
    rcases hcases with ⟨t, rfl, hfull⟩ | ⟨hheap, hsame, hthrew⟩
    · refine ⟨hs.lock hfree hfull hpeer nofun, nofun, Or.inl ?_⟩
      cases hchooses with
      | create => exact ⟨_, t, _, rfl, Or.inl rfl⟩
      | reinit w => exact ⟨_, t, _, rfl, Or.inr ⟨w, rfl⟩⟩
    · have hentry : State.pendingAfter p purpose plan h returned = none →
          p ∈ (s.factories f).clients := by
        intro hpending
        obtain ⟨hrenews, hfound, constructed, hmade⟩ := hthrew (threw_of_pendingAfter hpending)
        exact ((hsheltered ⟨hrenews, hfound⟩).1 constructed hmade).1
      have hfull : ∀ q, groupClients.lookup q ≠ some none := by
        intro q
        rw [hsame q]
        exact hs.group q
      exact ⟨hs.lock hfree hfull hpeer hentry, hentry, Or.inr (alikeBut_lock _ _ hheap hsame)⟩
  · have hmem : p ∈ (s.factories f).clients := by
      rw [← AList.lookup_isSome, hslot]
      rfl
    refine ⟨hs.lock hfree hs.group (fun pending hpending => ?_) fun _ => hmem, fun _ => hmem,
      Or.inr (alikeBut_lock _ _ (.refl _) fun _ => rfl)⟩
    cases hpending
    rfl

/-- A sheltered step leaves no placeholder behind. -/
theorem Placed.step (hs : Placed s) (hsheltered : Sheltered s l)
    (hstep : Factory.step text s l = some s') : Placed s' := by
  rcases step_cases hstep with ⟨f, p, force, purpose, around, rfl, hrequest⟩ |
    ⟨f, slot, rfl, hfinish⟩ | ⟨p, force, around, h, groupClients, returned, rfl, hcall, rfl⟩ |
    ⟨-, hquiet, -⟩
  · exact (request_sheltered hs hsheltered hrequest).1
  · obtain ⟨p, plan, purpose, h, slot, hbusy, hdone⟩ := finish_done hfinish
    refine ⟨fun q => ?_, fun f' q hnull => ?_⟩
    · rw [hdone.groupClients]
      exact hs.group q
    · by_cases hf : f' = f
      · subst hf
        rw [hdone.lookup] at hnull
        split at hnull
        · cases slot <;> cases hnull
        · next hq =>
          obtain ⟨pending, hpending, hpeer⟩ := hs.factories f' q hnull
          rw [hbusy] at hpending
          cases hpending
          exact absurd hpeer.symm hq
      · rw [hdone.others f' hf] at hnull ⊢
        exact hs.factories f' q hnull
  · refine ⟨fun q => ?_, hs.factories⟩
    rcases groupCall_cases hcall hs.group (fun hrenews hfound => (hsheltered ⟨hrenews, hfound⟩).1)
      (fun hrenews hfound => (hsheltered ⟨hrenews, hfound⟩).2) with ⟨t, -, hfull⟩ | ⟨-, hsame, -⟩
    · exact hfull q
    · change groupClients.lookup q ≠ some none
      rw [hsame q]
      exact hs.group q
  · refine ⟨fun q => ?_, fun f q hnull => ?_⟩
    · rw [hquiet.groupClients]
      exact hs.group q
    · rw [hquiet.factories] at hnull ⊢
      exact hs.factories f q hnull

/-! ## What others do during a call -/

/-- A factory that a step does not name is left alone by it. -/
theorem factories_of_step (hl : l.factory ≠ some f) (hstep : Factory.step text s l = some s') :
    s'.factories f = s.factories f := by
  rcases step_cases hstep with ⟨f', p, force, purpose, around, rfl, hrequest⟩ |
    ⟨f', slot, rfl, hfinish⟩ | ⟨p, force, around, h, groupClients, returned, rfl, -, rfl⟩ |
    ⟨-, hquiet, -⟩
  · obtain ⟨-, h, groupClients, busy, rfl, -⟩ := request_locks hrequest
    exact State.setFactory_of_ne _ _ _ fun heq => hl (by rw [heq]; rfl)
  · obtain ⟨p, plan, purpose, h, slot, -, hdone⟩ := finish_done hfinish
    exact hdone.others f fun heq => hl (by rw [heq]; rfl)
  · rfl
  · rw [hquiet.factories]

/-- While the lock of a factory is held, only the end of the call names the factory. -/
theorem factory_ne_of_busy {pending : Pending} (hbusy : (s.factories f).busy = some pending)
    (hl : l ≠ .finish f) (hstep : Factory.step text s l = some s') : l.factory ≠ some f := by
  intro hf
  cases l with
  | request f' p force purpose around =>
    cases hf
    obtain ⟨hfree, -⟩ := request_locks hstep
    rw [hfree] at hbusy
    cases hbusy
  | finish f' =>
    cases hf
    exact hl rfl
  | unidirectional f' p =>
    cases hf
    simp [Factory.step, hbusy] at hstep
  | bidirectional f' p =>
    cases hf
    simp [Factory.step, hbusy] at hstep
  | broadcast f' =>
    cases hf
    simp [Factory.step, hbusy] at hstep
  | _ => cases hf

/-- What others do while a call holds the lock of its factory they can do without the call. -/
theorem run_without {x y x' : State} {pending : Pending} {mid : List Label}
    (hbusy : (x.factories f).busy = some pending) (hxy : AlikeBut (some f) x y)
    (hothers : .finish f ∉ mid) (hrun : run (step text) x mid = some x') :
    ∃ y', run (step text) y mid = some y' ∧ AlikeBut (some f) x' y' ∧
      y'.factories f = y.factories f := by
  induction mid generalizing x y with
  | nil =>
    cases hrun
    exact ⟨y, rfl, hxy, rfl⟩
  | cons l mid ih =>
    obtain ⟨next, hstep, hrest⟩ := Option.bind_eq_some_iff.mp hrun
    have hl : l ≠ .finish f := fun heq => hothers (by rw [heq]; exact List.mem_cons_self)
    have hother : l.factory ≠ some f := factory_ne_of_busy hbusy hl hstep
    obtain ⟨next', hstep', halike⟩ := Simulation.exists_of_rel
      (hxy.step l fun f' hf' heq => hother (by rw [hf', heq])) hstep
    have hlocked : (next.factories f).busy = some pending := by
      rw [factories_of_step hother hstep, hbusy]
    obtain ⟨y', hrun', halike', hsame⟩ := ih hlocked halike
      (fun hmem => hothers (List.mem_cons_of_mem l hmem)) hrest
    refine ⟨y', ?_, halike', hsame.trans (factories_of_step hother hstep')⟩
    rw [run_cons, hstep']
    exact hrun'

/-- The end of a call that is refused. -/
theorem finish_refused {code : CmdResultCode} {failed : code ≠ .ok} {returned : Slot}
    (hbusy : (s.factories f).busy = some ⟨p, .refuse code failed, purpose⟩)
    (hfinish : s.finish text f = some (s', returned)) :
    ∃ stored, s' = { s with heap := s.heap.newError.1 }.setFactory f stored none ∧
      ∀ q, stored.lookup q = if q = p then ((s.factories f).clients.lookup p).join.map some
        else (s.factories f).clients.lookup q := by
  simp only [State.finish, hbusy, Option.map_some, State.conclude, (settle_failed failed).1,
    (settle_failed failed).2] at hfinish
  cases hfinish
  cases purpose with
  | caller => exact ⟨_, rfl, fun q => lookup_settle⟩
  | data bidirectional => exact ⟨_, rfl, fun q => lookup_settle⟩

/-! ## Failed calls -/

/-- The called factory is as it was, and all others are as they would be without the call. -/
theorem AlikeBut.close {x y : State} (hxy : AlikeBut (some f) x y)
    (hf : (x.factories f).Alike (y.factories f)) : AlikeBut none x y := by
  refine ⟨hxy.heap, hxy.group, fun f' _ => ?_, hxy.toSend, hxy.sent⟩
  by_cases heq : f' = f
  · rw [heq]
    exact hf
  · exact hxy.factories f' fun hsome => heq (Option.some.inj hsome).symm

/-- A call that is refused was planned to be refused from its first half on. -/
theorem refused_plan {asked before : State} {returned : Slot} {mid : List Label}
    (hrequest : s.request f p force purpose around = some asked)
    (hlocked : (asked.factories f).busy ≠ none) (hothers : .finish f ∉ mid)
    (hbetween : Transition.run (step text) asked mid = some before)
    (hfinish : before.finish text f = some (s', returned))
    (hfailed : ∀ w, returned ≠ some (.proto w)) :
    ∃ code failed purpose', (asked.factories f).busy = some ⟨p, .refuse code failed, purpose'⟩ := by
  obtain ⟨plan, purpose', hasked, hbefore, hfits, hjoin⟩ :=
    call_pending hrequest hlocked hothers hbetween
  obtain ⟨p', plan', purpose'', hbusy, hplan⟩ := finish_cases hfinish
  rw [hbefore] at hbusy
  cases hbusy
  cases plan with
  | refuse code failed => exact ⟨code, failed, purpose', hasked⟩
  | create t checked => exact absurd hplan.1 (hfailed _)
  | reinit w t checked =>
    have hreturned := hplan.1
    rw [hjoin, hfits.1] at hreturned
    exact absurd hreturned (hfailed w)

/-- The labels of a failed call, with those of the others between them, are a run. -/
theorem FailedCall.run {called : Option ℕ} {labels others : List Label}
    (hcall : FailedCall text s called labels others s') :
    Transition.run (step text) s labels = some s' := by
  cases hcall with
  | unreadable => rfl
  | group p force around hcall =>
    rw [run_cons, step, hcall]
    rfl
  | threw f p force purpose around hrequest =>
    rw [run_cons, step, hrequest]
    rfl
  | refused f p force purpose around hrequest hlocked hothers hbetween hfinish =>
    rw [run_cons, step, hrequest]
    refine run_snoc hbetween ?_
    rw [step, hfinish]
    rfl

/-- A failed call is undone: what is left is what others did. -/
theorem FailedCall.undone {called : Option ℕ} {labels others : List Label}
    (hcall : FailedCall text s called labels others s') (hs : Placed s)
    (hsheltered : Meets (step text) Sheltered s labels) :
    ∃ without, Transition.run (step text) s others = some without ∧ AlikeBut none s' without ∧
      ∀ f, called = some f → without.factories f = s.factories f := by
  cases hcall with
  | unreadable f client force around hread =>
    exact ⟨s, rfl, ⟨.refl _, fun _ => rfl, fun f _ => .refl _, rfl, .rfl⟩, fun _ _ => rfl⟩
  | group p force around hcall hfailed =>
    have hhead := hsheltered.1
    rcases groupCall_cases hcall hs.group (fun hrenews hfound => (hhead ⟨hrenews, hfound⟩).1)
      (fun hrenews hfound => (hhead ⟨hrenews, hfound⟩).2) with ⟨t, rfl, -⟩ | ⟨hheap, hsame, -⟩
    · exact absurd rfl (hfailed t)
    · exact ⟨s, rfl, ⟨hheap, hsame, fun f _ => .refl _, rfl, .rfl⟩, fun _ _ => rfl⟩
  | threw f p force purpose around hrequest hfree =>
    obtain ⟨-, hentry, ⟨pending, t, checked, hbusy, -⟩ | halike⟩ :=
      request_sheltered hs hsheltered.1 hrequest
    · rw [hfree] at hbusy
      cases hbusy
    · refine ⟨s, rfl, halike.close ?_, fun _ _ => rfl⟩
      obtain ⟨hbefore, h, groupClients, busy, rfl, -⟩ := request_locks hrequest
      have hmem := hentry hfree
      rw [State.setFactory_self] at hfree ⊢
      rw [Table.emplace_of_mem hmem]
      exact ⟨rfl, rfl, fun _ => rfl, hfree.trans hbefore.symm⟩
  | refused f p force purpose around hrequest hlocked hothers hbetween hfinish hfailed =>
    obtain ⟨code, failed, purpose', hbusy⟩ :=
      refused_plan hrequest hlocked hothers hbetween hfinish hfailed
    obtain ⟨-, -, ⟨pending, t, checked, hpending, hplan⟩ | halike⟩ :=
      request_sheltered hs hsheltered.1 hrequest
    · rw [hbusy] at hpending
      cases hpending
      rcases hplan with hplan | ⟨w, hplan⟩ <;> cases hplan
    obtain ⟨without, hwithout, hbeside, hsame⟩ := run_without hbusy halike hothers hbetween
    have hfactory := run_factory_of_busy hbusy hothers hbetween
    obtain ⟨stored, rfl, hstored⟩ := finish_refused (by rw [hfactory, hbusy]) hfinish
    have hended : AlikeBut (some f) _ without :=
      (alikeBut_lock stored none (alike_newError _) fun _ => rfl).trans hbeside
    refine ⟨without, hwithout, hended.close ?_, fun f' hf' => ?_⟩
    · obtain ⟨hfree, h, groupClients, busy, rfl, -⟩ := request_locks hrequest
      rw [State.setFactory_self] at hfactory
      rw [State.setFactory_self, hsame, hfactory]
      refine ⟨rfl, rfl, fun q => ?_, hfree.symm⟩
      -- The placeholder goes if the call put it there; an entry that was there stays.
      rw [hstored q, hfactory, lookup_emplace_none, lookup_emplace_none, if_pos rfl,
        Option.join_some]
      split
      · next hq =>
        rw [hq]
        cases hentry : (s.factories f).clients.lookup p with
        | none => rfl
        | some slot =>
          cases slot with
          | none => exact absurd hentry (hs.ne_null hfree)
          | some c => rfl
      · rfl
    · cases hf'
      exact hsame

/-- In every run in which `make` only throws for peers that are in the caches already, and
returns null only for peers that the group factory has no transport for: a call that yields no
usable client leaves its factory as it was, leaves both levels of caches as they would be if
only the other steps had happened, and no later steps can tell the difference. -/
theorem failed_calls_atomic {ls labels others : List Label} {called : Option ℕ}
    (hrun : run (step text) (State.init groups) ls = some s)
    (hcall : FailedCall text s called labels others s')
    (hsheltered : Meets (step text) Sheltered (State.init groups) (ls ++ labels)) :
    run (step text) s labels = some s' ∧
      (∀ f, called = some f →
        ∀ q, (s'.factories f).clients.lookup q = (s.factories f).clients.lookup q) ∧
      ∃ without, run (step text) s others = some without ∧
        (∀ q, s'.groupClients.lookup q = without.groupClients.lookup q) ∧
        (∀ f q, (s'.factories f).clients.lookup q = (without.factories f).clients.lookup q) ∧
        ∀ later, Option.Rel (AlikeBut none) (run (step text) s' later)
          (run (step text) without later) := by
  obtain ⟨hbefore, hduring⟩ := hsheltered.of_append hrun
  have hs : Placed s := run_invariant_of_meets (fun _ _ _ hx hl hstep => hx.step hl hstep)
    placed_init hbefore hrun
  obtain ⟨without, hwithout, halike, hsame⟩ := hcall.undone hs hduring
  have hlookup : ∀ f q, (s'.factories f).clients.lookup q =
      (without.factories f).clients.lookup q :=
    fun f q => (halike.factories f nofun).lookup q
  refine ⟨hcall.run, fun f hf q => ?_, without, hwithout, halike.group, hlookup, fun later => ?_⟩
  · rw [hlookup f q, hsame f hf]
  · exact Simulation.run_rel (fun x y l hxy => hxy.step l fun _ _ => nofun) halike later

/-- The peer is found nowhere. -/
def nowhere : Surroundings where
  endpoint := ""
  ready := true
  made := .client

/-- The peer is found, and the connection is up. -/
def found : Surroundings where
  endpoint := "10.0.0.7:4000"
  ready := true
  made := .client

/-- The peer is found, and the named worker does not exist. -/
def workerless : Surroundings where
  endpoint := "10.0.0.7:4000"
  ready := true
  made := .throws true

/-- Another factory gets a client while the first factory looks for the peer. -/
def foundMeanwhile : List Label := [.request 1 7 true .caller found, .finish 1]

/-- The first factory finds no endpoint, and then returns an error client. -/
def notFound : List Label :=
  .request 0 7 true .caller nowhere :: (foundMeanwhile ++ [.finish 0])

/-- After it the first factory has no entry, and the caches are those of a run in which only
the second factory was asked. -/
theorem caches_after_notFound :
    ∃ s' without, run (step canonicalText) (State.init fun f => (f, "raft")) notFound = some s' ∧
      run (step canonicalText) (State.init fun f => (f, "raft")) foundMeanwhile = some without ∧
      (s'.factories 0).clients.lookup 7 = none ∧
      s'.groupClients.lookup 7 = without.groupClients.lookup 7 ∧
      (s'.factories 1).clients.lookup 7 = some (some (.proto 0)) := by
  have hmade : ∀ l ∈ notFound, ∀ s, Sheltered s l := by
    simp [notFound, foundMeanwhile, Sheltered, nowhere, found]
  have hcall : FailedCall canonicalText (State.init fun f => (f, "raft")) (some 0) notFound
      foundMeanwhile _ :=
    .refused 0 7 true .caller nowhere rfl (Option.some_ne_none _) (by decide) rfl rfl
      fun w hw => by cases hw
  obtain ⟨hrun, hsame, without, hwithout, hgroup, hfactories, -⟩ :=
    failed_calls_atomic (run_nil _) hcall (.of_always hmade)
  cases hwithout
  exact ⟨_, _, hrun, rfl, hsame 0 rfl 7, hgroup 7, hfactories 1 7⟩

/-- A first call for a peer, in which the construction of the transport throws, leaves null
entries in both caches. Later calls and data requests for the peer have no behaviour then,
which they have without the call. -/
theorem placeholders_left_by_exception :
    ∃ s', run (step canonicalText) (State.init fun f => (f, "raft"))
        [.request 0 7 true .caller workerless] = some s' ∧
      FailedCall canonicalText (State.init fun f => (f, "raft")) (some 0)
        [.request 0 7 true .caller workerless] [] s' ∧
      (s'.factories 0).clients.lookup 7 = some none ∧ s'.groupClients.lookup 7 = some none ∧
      step canonicalText s' (.unidirectional 0 7) = none ∧
      step canonicalText s' (.bidirectional 0 7) = none ∧
      step canonicalText s' (.request 0 7 true .caller found) = none ∧
      step canonicalText s' (.request 1 7 true .caller found) = none ∧
      (step canonicalText (State.init fun f => (f, "raft")) (.unidirectional 0 7)).isSome ∧
      (step canonicalText (State.init fun f => (f, "raft")) (.bidirectional 0 7)).isSome ∧
      (step canonicalText (State.init fun f => (f, "raft"))
        (.request 0 7 true .caller found)).isSome ∧
      (step canonicalText (State.init fun f => (f, "raft"))
        (.request 1 7 true .caller found)).isSome := by
  refine ⟨_, rfl, .threw 0 7 true .caller workerless rfl rfl, ?_⟩
  refine ⟨rfl, rfl, rfl, rfl, rfl, rfl, rfl, rfl, rfl, rfl⟩

end NuraftMesg.Factory
