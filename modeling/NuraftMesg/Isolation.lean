import NuraftMesg.Base.Unwinding
import NuraftMesg.DataService.Binding
import NuraftMesg.Manager.Joins
import NuraftMesg.Manager.Projection

/-!
# Isolation of the groups

A node serves many groups with one set of registries and one table of handlers. This
file puts the manager, the service and the data service together and compares two runs:
one with all steps and one in which the steps of the other groups are left out. Both
show the same of a group. The argument is an unwinding: a step of another group is not
seen, and a step that stays can be repeated where the others never happened.
-/

namespace NuraftMesg

/-! ## The handlers of a group -/

/-- The data services agree on the handlers of the group. -/
structure DataService.Agree (text : UuidText) (g : GroupId) (d d' : DataService) : Prop where
  running : d.server.running = d'.server.running
  requestMap : ∀ requestName,
    d.requestMap.lookup (getGenericMethodName text requestName g) =
      d'.requestMap.lookup (getGenericMethodName text requestName g)
  registered : ∀ requestName,
    d.server.handlerFor (getGenericMethodName text requestName g) =
      d'.server.handlerFor (getGenericMethodName text requestName g)

namespace DataService.Agree

variable {text : UuidText} {g g' : GroupId} {d d' d'' : DataService}

/-- The data service agrees with itself on every group. -/
theorem refl (text : UuidText) (g : GroupId) (d : DataService) : Agree text g d d :=
  ⟨rfl, fun _ => rfl, fun _ => rfl⟩

/-- Agreement on a group can be read in both directions. -/
theorem symm (h : Agree text g d d') : Agree text g d' d :=
  ⟨h.running.symm, fun r => (h.requestMap r).symm, fun r => (h.registered r).symm⟩

/-- It is kept along two changes. -/
theorem trans (h : Agree text g d d') (h' : Agree text g d' d'') : Agree text g d d'' :=
  ⟨h.running.trans h'.running, fun r => (h.requestMap r).trans (h'.requestMap r),
    fun r => (h.registered r).trans (h'.registered r)⟩

/-- A bind for another group works under another name. -/
theorem bind_of_ne (htext : ∀ id, (text.toString id).length = 36) (hne : g' ≠ g)
    (requestName : String) (cb : Option HandlerId) :
    Agree text g d (d.bind text requestName g' cb).1 := by
  cases cb with
  | none => exact refl text g d
  | some cb =>
    have hname (r : String) :
        getGenericMethodName text requestName g' ≠ getGenericMethodName text r g :=
      fun heq => hne (getGenericMethodName_injective htext heq).2
    refine ⟨running_bindHandler.symm, fun r => ?_, fun r => ?_⟩
    · simp only [DataService.bind]
      rw [lookup_bindHandler, if_neg (hname r), Option.or_none]
    · exact (handlerFor_bindHandler_of_ne (hname r)).symm

/-- A bind for the group gets the same answer where the group has the same handlers. -/
theorem answer (h : Agree text g d d') (requestName : String) (cb : Option HandlerId) :
    (d.bind text requestName g cb).2 = (d'.bind text requestName g cb).2 := by
  cases cb with
  | none => rfl
  | some cb =>
    simp only [DataService.bind]
    rw [answer_bindHandler, answer_bindHandler, h.running, h.requestMap, h.registered]

/-- Whether a handler is new depends on the handlers of the group. -/
theorem bind (h : Agree text g d d') (requestName : String) (cb : Option HandlerId) :
    Agree text g (d.bind text requestName g cb).1 (d'.bind text requestName g cb).1 := by
  have hanswer := h.answer requestName cb
  cases cb with
  | none => exact h
  | some cb =>
    simp only [DataService.bind] at hanswer ⊢
    refine ⟨?_, fun r => ?_, fun r => ?_⟩
    · simp only [running_bindHandler, h.running]
    · simp only [lookup_bindHandler, h.requestMap]
    · by_cases hname : getGenericMethodName text requestName g = getGenericMethodName text r g
      · simp only [← hname, handlerFor_bindHandler_self, hanswer, h.registered]
      · simp only [handlerFor_bindHandler_of_ne hname, h.registered]

end DataService.Agree

namespace Isolation

open Transition

/-! ## The node as a whole -/

/-- Manager, service and data service of a node. -/
structure State where
  manager : Manager.Config
  /-- `_data_service_enabled`. -/
  enabled : Bool
  data : DataService
  /-- What the calls of `bind_data_service_request` for a group came to. -/
  answers : GroupId → List (String × Bound)

/-- A step of the node. -/
inductive Label where
  | manager (l : Manager.Label)
  | bind (requestName : String) (g : GroupId) (cb : Option HandlerId)

/-- `bind_data_service_request`. -/
def State.bind (text : UuidText) (s : State) (requestName : String) (g : GroupId)
    (cb : Option HandlerId) : State :=
  let result := if s.enabled then s.data.bind text requestName g cb else (s.data, .refused)
  { s with
    data := result.1
    answers := Function.update s.answers g (s.answers g ++ [(requestName, result.2)]) }

/-- One step of the node. -/
def step (node : Node) (s : State) : Label → Option State
  | .manager l => (Manager.step node s.manager l).map fun c => { s with manager := c }
  | .bind requestName g cb => some (s.bind node.text requestName g cb)

/-- A node that has just started. -/
def start (types : List GroupType) (enabled : Bool) : State where
  manager := Manager.start types
  enabled := enabled
  data := .init
  answers _ := []

/-- The group that a step belongs to. -/
def Label.group (text : UuidText) (s : State) : Label → Option GroupId
  | .manager l => Manager.Label.group text s.manager l
  | .bind _ g _ => some g

/-- The step belongs to another group. -/
def Foreign (text : UuidText) (g : GroupId) (s : State) (l : Label) : Prop :=
  l.group text s ≠ none ∧ l.group text s ≠ some g

instance (text : UuidText) (g : GroupId) (s : State) (l : Label) :
    Decidable (Foreign text g s l) := inferInstanceAs (Decidable (_ ∧ _))

/-- The thread works for another group. -/
def Elsewhere (text : UuidText) (g : GroupId) (pc : Manager.Pc) : Prop :=
  pc.group text ≠ none ∧ pc.group text ≠ some g

instance (text : UuidText) (g : GroupId) (pc : Manager.Pc) : Decidable (Elsewhere text g pc) :=
  inferInstanceAs (Decidable (_ ∧ _))

/-- What two states show of a group is the same: its entries in the registries, its
handlers in the map and on the server, and the answers it got. -/
structure SameView (text : UuidText) (g : GroupId) (s s' : State) : Prop where
  registry : s.manager.shared.Agree g s'.manager.shared
  enabled : s.enabled = s'.enabled
  data : s.data.Agree text g s'.data
  answers : s.answers g = s'.answers g

variable {node : Node} {text : UuidText} {g g' : GroupId} {s s' s'' t t' : State} {l : Label}

namespace SameView

/-- A state looks like itself to every group. -/
theorem refl (text : UuidText) (g : GroupId) (s : State) : SameView text g s s :=
  ⟨.refl g _, rfl, .refl text g _, rfl⟩

/-- Having the same view can be read in both directions. -/
theorem symm (h : SameView text g s s') : SameView text g s' s :=
  ⟨h.registry.symm, h.enabled.symm, h.data.symm, h.answers.symm⟩

/-- It is kept along two changes. -/
theorem trans (h : SameView text g s s') (h' : SameView text g s' s'') :
    SameView text g s s'' :=
  ⟨h.registry.trans h'.registry, h.enabled.trans h'.enabled, h.data.trans h'.data,
    h.answers.trans h'.answers⟩

/-- Binding a handler for another group does not show. -/
theorem bind_of_ne (htext : ∀ id, (text.toString id).length = 36) (hne : g' ≠ g)
    (requestName : String) (cb : Option HandlerId) :
    SameView text g s (s.bind text requestName g' cb) := by
  refine ⟨.refl g _, rfl, ?_, (Function.update_of_ne hne.symm ..).symm⟩
  simp only [State.bind]
  split
  · exact .bind_of_ne htext hne requestName cb
  · exact .refl text g _

/-- Binding a handler for the group shows on both sides. -/
theorem bind (h : SameView text g s s') (requestName : String) (cb : Option HandlerId) :
    SameView text g (s.bind text requestName g cb) (s'.bind text requestName g cb) := by
  cases henabled : s'.enabled with
  | true =>
    refine ⟨h.registry, h.enabled, ?_, ?_⟩
    · simp only [State.bind, h.enabled, henabled, if_true]
      exact h.data.bind requestName cb
    · simp only [State.bind, h.enabled, henabled, if_true, Function.update_self, h.answers,
        h.data.answer requestName cb]
  | false =>
    refine ⟨h.registry, h.enabled, ?_, ?_⟩
    · simp only [State.bind, h.enabled, henabled]
      exact h.data
    · simp only [State.bind, h.enabled, henabled, Function.update_self, h.answers,
        Bool.false_eq_true, if_false]

end SameView

/-! ## One step -/

/-- The thread that a step schedules. -/
def Label.mover : Label → Option ℕ
  | .manager l => l.mover
  | .bind _ _ _ => none

/-- What a step of the manager or of the service does to the node. -/
theorem step_manager {l : Manager.Label} (hstep : step node s (.manager l) = some s') :
    ∃ c, Manager.step node s.manager l = some c ∧ s' = { s with manager := c } := by
  obtain ⟨c, hc, rfl⟩ := Option.map_eq_some_iff.mp hstep
  exact ⟨c, hc, rfl⟩

/-- A step moves one thread of the manager at most. -/
theorem threads_of_step {u : ℕ} (hstep : step node s l = some s') (hu : l.mover ≠ some u) :
    s'.manager.threads u = s.manager.threads u := by
  cases l with
  | manager l =>
    obtain ⟨c, hc, rfl⟩ := step_manager hstep
    exact Interleaving.threads_eq_of_step hc hu
  | bind requestName g cb =>
    cases hstep
    rfl

/-- A thread that moves was idle, or worked for the group of the step. -/
theorem group_before {u : ℕ} (hstep : step node s l = some s') (hmover : l.mover = some u) :
    s.manager.threads u = .idle ∨
      (s.manager.threads u).group node.text = l.group node.text s := by
  cases l with
  | manager l =>
    obtain ⟨c, hc, -⟩ := step_manager hstep
    exact Manager.group_before hc hmover
  | bind requestName g cb => cases hmover

/-- It works for the group of the step afterwards. -/
theorem group_after {u : ℕ} (hstep : step node s l = some s')
    (hadmitted : ∀ u, Manager.Admitted node (s.manager.threads u)) (hmover : l.mover = some u) :
    (s'.manager.threads u).group node.text = l.group node.text s := by
  cases l with
  | manager l =>
    obtain ⟨c, hc, rfl⟩ := step_manager hstep
    exact Manager.group_after hc hadmitted hmover
  | bind requestName g cb => cases hmover

/-- The groups of received messages stay those that the checks let in. -/
theorem admitted_of_step (hstep : step node s l = some s')
    (hadmitted : ∀ u, Manager.Admitted node (s.manager.threads u)) :
    ∀ u, Manager.Admitted node (s'.manager.threads u) := by
  cases l with
  | manager l =>
    obtain ⟨c, hc, rfl⟩ := step_manager hstep
    exact Manager.admitted_of_step hc hadmitted
  | bind requestName g cb =>
    cases hstep
    exact hadmitted

/-- A step of another group does not show. -/
theorem sameView_of_ne (htext : ∀ id, (node.text.toString id).length = 36)
    (hstep : step node s l = some s') (hgroup : l.group node.text s = some g') (hne : g' ≠ g) :
    SameView node.text g s s' := by
  cases l with
  | manager l =>
    obtain ⟨c, hc, rfl⟩ := step_manager hstep
    exact ⟨Manager.step_agree_of_ne hc hgroup hne, rfl, .refl _ g _, rfl⟩
  | bind requestName g'' cb =>
    cases hgroup
    cases hstep
    exact .bind_of_ne htext hne requestName cb

/-- A step of the group, or of none, can be repeated in a state that shows the same of
the group and has the scheduled thread at the same place. -/
theorem step_of_sameView (hstep : step node s l = some s') (hview : SameView node.text g s t)
    (hgroup : ∀ g', l.group node.text s = some g' → g' = g)
    (hmover : ∀ u, l.mover = some u → t.manager.threads u = s.manager.threads u) :
    ∃ t', step node t l = some t' ∧ SameView node.text g s' t' ∧
      ∀ u, l.mover = some u → t'.manager.threads u = s'.manager.threads u := by
  cases l with
  | manager l =>
    obtain ⟨c, hc, rfl⟩ := step_manager hstep
    obtain ⟨d, hd, hagree, hthreads⟩ :=
      Manager.step_of_agree hc hview.registry hgroup hmover
    refine ⟨{ t with manager := d }, ?_, { hview with registry := hagree }, hthreads⟩
    simp only [step, hd, Option.map_some]
  | bind requestName g' cb =>
    obtain rfl := hgroup g' rfl
    cases hstep
    refine ⟨_, rfl, hview.bind requestName cb, fun u hu => ?_⟩
    cases hu

/-! ## Two runs -/

/-- A state of the full run and the one that the purged run has reached with it. -/
structure Alike (node : Node) (g : GroupId) (s t : State) : Prop where
  view : SameView node.text g s t
  threads : ∀ u, t.manager.threads u =
    if Elsewhere node.text g (s.manager.threads u) then .idle else s.manager.threads u
  admitted : ∀ u, Manager.Admitted node (s.manager.threads u)

namespace Alike

/-- A step of another group: its thread is idle in the purged run before and after. -/
theorem hidden (htext : ∀ id, (node.text.toString id).length = 36) (h : Alike node g s t)
    (hforeign : Foreign node.text g s l) (hstep : step node s l = some s') :
    Alike node g s' t := by
  obtain ⟨g', hgroup⟩ := Option.ne_none_iff_exists'.mp hforeign.1
  have hne : g' ≠ g := fun heq => hforeign.2 (by rw [hgroup, heq])
  refine ⟨(sameView_of_ne htext hstep hgroup hne).symm.trans h.view, fun u => ?_,
    admitted_of_step hstep h.admitted⟩
  by_cases hmover : l.mover = some u
  · have hafter : Elsewhere node.text g (s'.manager.threads u) := by
      unfold Elsewhere
      rw [group_after hstep h.admitted hmover]
      exact hforeign
    rw [if_pos hafter, h.threads u]
    rcases group_before hstep hmover with hidle | hbefore
    · rw [hidle, ite_self]
    · rw [if_pos]
      unfold Elsewhere
      rw [hbefore]
      exact hforeign
  · rw [threads_of_step hstep hmover]
    exact h.threads u

/-- A step that stays finds its thread where it is in the full run. -/
theorem shown (h : Alike node g s t) (hforeign : ¬ Foreign node.text g s l)
    (hstep : step node s l = some s') : ∃ t', step node t l = some t' ∧ Alike node g s' t' := by
  have hgroup : ∀ g', l.group node.text s = some g' → g' = g := by
    intro g' hg'
    by_contra hne
    refine hforeign ⟨by simp [hg'], fun heq => hne ?_⟩
    exact Option.some.inj (hg'.symm.trans heq)
  have hmover : ∀ u, l.mover = some u → t.manager.threads u = s.manager.threads u := by
    intro u hu
    rw [h.threads u]
    rcases group_before hstep hu with hidle | hbefore
    · rw [hidle, ite_self]
    · rw [if_neg]
      unfold Elsewhere
      rw [hbefore]
      exact hforeign
  obtain ⟨t', hstep', hview, hthreads⟩ := step_of_sameView hstep h.view hgroup hmover
  refine ⟨t', hstep', hview, fun u => ?_, admitted_of_step hstep h.admitted⟩
  by_cases hu : l.mover = some u
  · rw [hthreads u hu, if_neg]
    unfold Elsewhere
    rw [group_after hstep h.admitted hu]
    exact hforeign
  · rw [threads_of_step hstep' hu, threads_of_step hstep hu]
    exact h.threads u

end Alike

variable {types : List GroupType} {enabled : Bool} {labels : List Label}

/-- Both runs begin in the same state. -/
theorem alike_start (node : Node) (g : GroupId) (types : List GroupType) (enabled : Bool) :
    Alike node g (start types enabled) (start types enabled) :=
  ⟨.refl _ g _, fun _ => (ite_self _).symm, fun _ => trivial⟩

/-- In every reachable state the group of a received message is one that the checks let in. -/
theorem admitted_of_run (hrun : run (step node) (start types enabled) labels = some s) :
    ∀ u, Manager.Admitted node (s.manager.threads u) :=
  run_invariant (I := fun s => ∀ u, Manager.Admitted node (s.manager.threads u))
    (fun _ _ _ hs hstep => admitted_of_step hstep hs)
    (alike_start node 0 types enabled).admitted hrun

/-! ## Two steps -/

/-- A step keeps the group of a step that another thread takes. -/
theorem group_of_step {l' : Label} (hstep : step node s l = some s')
    (hother : ∀ u, l.mover = some u → l'.mover ≠ some u) :
    l'.group text s' = l'.group text s := by
  cases l' with
  | bind requestName g cb => rfl
  | manager l' =>
    cases l' with
    | env event => cases event <;> rfl
    | thread u input =>
      cases input with
      | call op => rfl
      | go a =>
        have hu : l.mover ≠ some u := fun hmover => hother u hmover rfl
        exact congrArg (Manager.Pc.group text) (threads_of_step hstep hu)

/-- Two successive steps of different groups are taken by different threads. -/
theorem mover_ne {l₁ l₂ : Label} {s₁ s₂ : State} {g₁ g₂ : GroupId}
    (hadmitted : ∀ u, Manager.Admitted node (s.manager.threads u))
    (h₁ : step node s l₁ = some s₁) (h₂ : step node s₁ l₂ = some s₂)
    (hg₁ : l₁.group node.text s = some g₁) (hg₂ : l₂.group node.text s₁ = some g₂)
    (hne : g₁ ≠ g₂) : ∀ u, l₁.mover = some u → l₂.mover ≠ some u := by
  intro u hu₁ hu₂
  have hafter := group_after h₁ hadmitted hu₁
  rcases group_before h₂ hu₂ with hidle | hbefore
  · rw [hidle, hg₁] at hafter
    cases hafter
  · rw [hbefore, hg₁, hg₂] at hafter
    exact hne (Option.some.inj hafter).symm

/-- Two successive steps of different groups can be taken in the other order. -/
theorem steps_commute {l₁ l₂ : Label} {s₁ s₂ : State} {g₁ g₂ : GroupId}
    (htext : ∀ id, (node.text.toString id).length = 36)
    (hadmitted : ∀ u, Manager.Admitted node (s.manager.threads u))
    (h₁ : step node s l₁ = some s₁) (h₂ : step node s₁ l₂ = some s₂)
    (hg₁ : l₁.group node.text s = some g₁) (hg₂ : l₂.group node.text s₁ = some g₂)
    (hne : g₁ ≠ g₂) :
    ∃ mid last, step node s l₂ = some mid ∧ step node mid l₁ = some last ∧
      (∀ g, SameView node.text g s₂ last) ∧ last.manager.threads = s₂.manager.threads := by
  have hapart := mover_ne hadmitted h₁ h₂ hg₁ hg₂ hne
  have hfixed₂ : ∀ u, l₂.mover = some u → s.manager.threads u = s₁.manager.threads u :=
    fun u hu => (threads_of_step h₁ fun hu₁ => hapart u hu₁ hu).symm
  -- the second step does not depend on the first one
  obtain ⟨mid, hmid, hview₂, hthreads₂⟩ := step_of_sameView h₂
    (sameView_of_ne htext h₁ hg₁ hne).symm
    (fun g' hg' => Option.some.inj (hg'.symm.trans hg₂)) hfixed₂
  have hg₂' : l₂.group node.text s = some g₂ := (group_of_step h₁ hapart).symm.trans hg₂
  have hfixed₁ : ∀ u, l₁.mover = some u → mid.manager.threads u = s.manager.threads u :=
    fun u hu => threads_of_step hmid (hapart u hu)
  -- and the first one not on the second
  obtain ⟨last, hlast, hview₁, hthreads₁⟩ := step_of_sameView h₁
    (sameView_of_ne htext hmid hg₂' hne.symm)
    (fun g' hg' => Option.some.inj (hg'.symm.trans hg₁)) hfixed₁
  have hg₁' : l₁.group node.text mid = some g₁ :=
    (group_of_step hmid fun u hu₂ hu₁ => hapart u hu₁ hu₂).trans hg₁
  refine ⟨mid, last, hmid, hlast, fun g => ?_, funext fun u => ?_⟩
  · by_cases hsecond : g₂ = g
    · subst hsecond
      exact hview₂.trans (sameView_of_ne htext hlast hg₁' hne)
    have hskip₂ := (sameView_of_ne htext h₂ hg₂ hsecond).symm
    by_cases hfirst : g₁ = g
    · subst hfirst
      exact hskip₂.trans hview₁
    · exact hskip₂.trans <| (sameView_of_ne htext h₁ hg₁ hfirst).symm.trans <|
        (sameView_of_ne htext hmid hg₂' hsecond).trans (sameView_of_ne htext hlast hg₁' hfirst)
  · by_cases hu₁ : l₁.mover = some u
    · rw [hthreads₁ u hu₁, threads_of_step h₂ (hapart u hu₁)]
    · rw [threads_of_step hlast hu₁]
      by_cases hu₂ : l₂.mover = some u
      · exact hthreads₂ u hu₂
      · rw [threads_of_step hmid hu₂, threads_of_step h₂ hu₂, threads_of_step h₁ hu₁]

/-- The groups of a node are isolated. Leaving out of a run the steps of the other
groups gives a run that shows the same of the group, with the same answers, and with
the group's own threads at the same places and with the same results; the threads of
the other groups have not started in it. Steps of different groups commute. -/
theorem groups_isolated (htext : ∀ id, (node.text.toString id).length = 36)
    (hrun : run (step node) (start types enabled) labels = some s) :
    (∀ g, ∃ t,
      run (step node) (start types enabled)
        (purge (step node) (Foreign node.text g) (start types enabled) labels) = some t ∧
      SameView node.text g s t ∧
      ∀ u, t.manager.threads u =
        if Elsewhere node.text g (s.manager.threads u) then .idle else s.manager.threads u) ∧
    ∀ l₁ l₂ s₁ s₂ g₁ g₂, step node s l₁ = some s₁ → step node s₁ l₂ = some s₂ →
      l₁.group node.text s = some g₁ → l₂.group node.text s₁ = some g₂ → g₁ ≠ g₂ →
      ∃ mid last, step node s l₂ = some mid ∧ step node mid l₁ = some last ∧
        (∀ g, SameView node.text g s₂ last) ∧ last.manager.threads = s₂.manager.threads := by
  refine ⟨fun g => ?_, fun l₁ l₂ s₁ s₂ g₁ g₂ h₁ h₂ hg₁ hg₂ hne =>
    steps_commute htext (admitted_of_run hrun) h₁ h₂ hg₁ hg₂ hne⟩
  obtain ⟨t, hpurged, halike⟩ := run_purge (fun _ _ _ _ h hl hstep => h.hidden htext hl hstep)
    (fun _ _ _ _ h hl hstep => h.shown hl hstep) (alike_start node g types enabled) hrun
  exact ⟨t, hpurged, halike.view, halike.threads⟩

/-- One group is created while another one binds a handler and receives an event. -/
def twoTenants : List Label :=
  [.bind "read" 2 (some 20), .manager (.thread 0 (.call (.createGroup 1 "raft"))),
    .manager (.env (.raftEvent 2 .becomeLeader)), .manager (.thread 0 (.go {})),
    .bind "read" 1 (some 10)]

/-- Without the other group the new one has the same flag and the same handler. -/
theorem isolated_in_twoTenants :
    ∃ t, run (step Manager.sampleNode) (start ["raft"] true)
        (purge (step Manager.sampleNode) (Foreign canonicalText 1) (start ["raft"] true)
          twoTenants) = some t ∧
      t.manager.shared.isLeader 1 = some false ∧ t.answers 1 = [("read", .bound)] ∧
      t.answers 2 = [] := by
  obtain ⟨s, hrun, hflag, hanswers⟩ : ∃ s,
      run (step Manager.sampleNode) (start ["raft"] true) twoTenants = some s ∧
      s.manager.shared.isLeader 1 = some false ∧ s.answers 1 = [("read", .bound)] :=
    ⟨_, rfl, rfl, by decide⟩
  have htext : ∀ id, (Manager.sampleNode.text.toString id).length = 36 := canonicalText_length
  obtain ⟨t, hpurged, hview, -⟩ := (groups_isolated htext hrun).1 1
  refine ⟨t, hpurged, ?_, ?_, ?_⟩
  · rw [← hview.registry.leader]
    exact hflag
  · rw [← hview.answers]
    exact hanswers
  · cases hpurged
    rfl

end Isolation

end NuraftMesg
