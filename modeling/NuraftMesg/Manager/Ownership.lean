import NuraftMesg.Base.Custody
import NuraftMesg.Manager.Joins
import Mathlib.Data.List.Nodup

/-!
# The owner of a group's persistent state

`joinRaftGroup` checks for duplicates without a lock, so that several joins of a group
can be under way at once. What keeps them from having two state managers is the
emplacement in `_state_managers`. A history variable cuts the life of a group at the
erasures of its entry and records for each span what state managers came in and which
contexts were built from them. The state managers themselves are handed on from the
callers to the map and from there to `permanent_destroy`.
-/

namespace NuraftMesg.Manager.Ownership

open Transition

variable {node : Node} {g : GroupId} {t : ℕ} {r r' : Registry} {pc pc' : Pc} {input : Input}

/-! ## Spans -/

/-- How a state manager comes into `_state_managers`. -/
inductive Origin where
  /-- `group_init` invoked `create_state_mgr`. -/
  | created
  /-- The caller of `join_group` supplied it. -/
  | supplied
  deriving DecidableEq

/-- What happened to a group since its entry was last erased. -/
structure Span where
  /-- The invocations of `create_state_mgr` and the objects that `join_group` stored, in
  their order, with what they brought. -/
  origins : List (Origin × Option StateMgrId) := []
  /-- The state managers of the contexts that `group_init` completed. -/
  contexts : List StateMgrId := []
  deriving DecidableEq

/-- The object that `create_state_mgr` came back with. -/
def object : Created → Option StateMgrId
  | .stateMgr m => some m
  | .null | .throws => none

/-- What a step of a thread brings into the entry of the group: what `create_state_mgr` came back
with if `group_init` invoked it, or the argument of `join_group` if it was emplaced. -/
def origin (g : GroupId) (r : Registry) : Pc → Input → Option (Origin × Option StateMgrId)
  | .joinInit _ g' ty, .go around =>
    if g' = g ∧ (r.groupInit g' ty around.created around.ready).invoked then
      some (.created, object around.created)
    else none
  | .joinEmplace g' _ stateMgr, .go _ =>
    if g' = g ∧ r.stateManagers g = none then some (.supplied, stateMgr) else none
  | _, _ => none

/-- The same for all steps. -/
def originOf (g : GroupId) (c : Config) : Label → Option (Origin × Option StateMgrId)
  | .thread t input => origin g c.shared (c.threads t) input
  | .env _ => none

/-- The state manager of a context that `group_init` has completed. -/
def contextManager : InitResult → Option StateMgrId
  | .context _ m => some m
  | _ => none

/-- The state manager of the context that a step of a thread completes for the group, whatever
becomes of the server that is to be built from it. -/
def completed (g : GroupId) (r : Registry) : Pc → Input → Option StateMgrId
  | .joinInit _ g' ty, .go around =>
    if g' = g then contextManager (r.groupInit g' ty around.created around.ready).result else none
  | _, _ => none

/-- The same for all steps. -/
def completedOf (g : GroupId) (c : Config) : Label → Option StateMgrId
  | .thread t input => completed g c.shared (c.threads t) input
  | .env _ => none

/-- The object that a step brings into the node: an argument of `join_group`, or what an
invocation of `create_state_mgr` came back with. -/
def issues (r : Registry) : Pc → Input → Option StateMgrId
  | _, .call (.joinGroup _ _ stateMgr) => stateMgr
  | .joinInit _ g ty, .go around =>
    if (r.groupInit g ty around.created around.ready).invoked then object around.created else none
  | _, _ => none

/-- The same for all steps. -/
def issuesOf (c : Config) : Label → Option StateMgrId
  | .thread t input => issues c.shared (c.threads t) input
  | .env _ => none

/-- The step erases the entry of the group. -/
def Erases (g : GroupId) (r r' : Registry) : Prop :=
  r.stateManagers g ≠ none ∧ r'.stateManagers g = none

instance (g : GroupId) (r r' : Registry) : Decidable (Erases g r r') :=
  inferInstanceAs (Decidable (_ ∧ _))

/-- The history of a node. -/
structure History where
  /-- The spans of a group that were ended by an erasure. -/
  closed : GroupId → List Span
  /-- The span of a group since its last erasure. -/
  current : GroupId → Span
  /-- All objects that came into the node. -/
  issued : List StateMgrId

/-- Keep the history. -/
def observe (c : Config) (l : Label) (c' : Config) (h : History) : History where
  closed g :=
    if Erases g c.shared c'.shared then h.closed g ++ [h.current g] else h.closed g
  current g :=
    if Erases g c.shared c'.shared then {}
    else {
      origins := (h.current g).origins ++ (originOf g c l).toList
      contexts := (h.current g).contexts ++ (completedOf g c l).toList }
  issued := h.issued ++ (issuesOf c l).toList

/-- The node together with its history. -/
def trackedStep (node : Node) : Config × History → Label → Option (Config × History) :=
  track (step node) observe

/-- A node that has just started. -/
def trackedStart (types : List GroupType) : Config × History :=
  (start types, ⟨fun _ => [], fun _ => {}, []⟩)

/-- The step brings no object into the node that has been there before. -/
def Fresh (c : Config × History) (l : Label) : Prop :=
  ∀ m ∈ issuesOf c.1 l, m ∉ c.2.issued

instance (c : Config × History) (l : Label) : Decidable (Fresh c l) :=
  inferInstanceAs (Decidable (∀ m ∈ issuesOf c.1 l, m ∉ c.2.issued))

/-! ## One step -/

/-- What an emplacement adds to an entry. -/
theorem toList_emplace (entries : PartialMap GroupId (Option StateMgrId)) (g g' : GroupId)
    (m : Option StateMgrId) :
    (entries.emplace g' m g).toList =
      (entries g).toList ++ if g' = g ∧ entries g = none then [m] else [] := by
  by_cases hg : g' = g
  · subst hg
    cases hentry : entries g' <;> simp [hentry]
  · have hne : g ≠ g' := Ne.symm hg
    simp [hg, hne]

/-- A call of `group_init` that does not invoke `create_state_mgr` brings in nothing. -/
theorem origin_eq_none {a : Surroundings} {caller : Caller} {g' : GroupId} {ty : GroupType}
    (hinvoked : ¬ (ty ∈ r.stateMgrTypes ∧ r.stateManagers g' = none)) :
    origin g r (.joinInit caller g' ty) (.go a) = none := by
  simp only [origin, Registry.invoked_groupInit]
  exact if_neg fun h => hinvoked h.2

/-- A call of `group_init` that does brings in what it came back with, if it is for this group. -/
theorem toList_origin {a : Surroundings} {caller : Caller} {g' : GroupId} {ty : GroupType}
    (htype : ty ∈ r.stateMgrTypes) (hentry : r.stateManagers g' = none) :
    ((origin g r (.joinInit caller g' ty) (.go a)).map Prod.snd).toList =
      if g' = g ∧ r.stateManagers g = none then [object a.created] else [] := by
  simp only [origin, Registry.invoked_groupInit, htype, hentry, and_true]
  by_cases hg : g' = g
  · subst hg
    simp [hentry]
  · simp [hg]

/-- A step erases the entry of the group or adds to it what it brings in. -/
theorem entry_of_moves (hmove : Moves node t r pc input r' pc') (g : GroupId) :
    Erases g r r' ∨ (r'.stateManagers g).toList =
      (r.stateManagers g).toList ++ ((origin g r pc input).map Prod.snd).toList := by
  have hquiet : origin g r pc input = none → (r.stateManagers g).toList =
      (r.stateManagers g).toList ++ ((origin g r pc input).map Prod.snd).toList := by
    intro hnone
    rw [hnone]
    exact (List.append_nil _).symm
  cases hmove with
  | joinEmplace g' ty m =>
    right
    rw [Registry.emplaceManager, toList_emplace, origin]
    split <;> rfl
  | initRefused caller g' ty htype => exact Or.inr (hquiet (origin_eq_none fun h => htype h.1))
  | initReuse caller g' ty m htype hentry =>
    exact Or.inr (hquiet (origin_eq_none fun h => by simp [hentry] at h))
  | initReuseAborted caller g' ty m dies htype hentry =>
    exact Or.inr (hquiet (origin_eq_none fun h => by simp [hentry] at h))
  | initCreate caller g' ty m htype hentry hcreated =>
    right
    rw [toList_origin htype hentry, hcreated]
    exact toList_emplace ..
  | initCreateAborted caller g' ty m dies htype hentry hcreated =>
    right
    rw [toList_origin htype hentry, hcreated]
    exact toList_emplace ..
  | initThrew caller g' ty htype hentry hcreated =>
    right
    rw [toList_origin htype hentry, hcreated]
    exact toList_emplace ..
  | rollback g' code =>
    by_cases hg : g = g'
    · subst hg
      cases hentry : r.stateManagers g with
      | none => exact Or.inr (by simp [origin, Registry.eraseManager])
      | some m => exact Or.inl ⟨by simp [hentry], PartialMap.erase_self⟩
    · exact Or.inr (by simp [origin, Registry.eraseManager, hg])
  | leaveDestroy g' m hentry =>
    by_cases hg : g = g'
    · subst hg
      exact Or.inl ⟨by simp [hentry], PartialMap.erase_self⟩
    · exact Or.inr (by simp [origin, Registry.eraseManager, hg])
  | _ => exact Or.inr (List.append_nil _).symm

/-- The state manager of a completed context was stored for the group, or `create_state_mgr` has
just come back with it. -/
theorem contextManager_groupInit {ty : GroupType} {created : Created} {ready : Bool}
    {m : StateMgrId} (hm : contextManager (r.groupInit g ty created ready).result = some m) :
    ty ∈ r.stateMgrTypes ∧ (r.stateManagers g = some (some m) ∨
      r.stateManagers g = none ∧ created = .stateMgr m) := by
  have hprepared : ∀ {r₁ : Registry} {m₁ : StateMgrId},
      contextManager (r₁.prepare m₁ ready) = some m → m₁ = m := by
    intro r₁ m₁ h
    cases ready <;> cases h
    rfl
  by_cases htype : ty ∈ r.stateMgrTypes
  · refine ⟨htype, ?_⟩
    rcases hentry : r.stateManagers g with _ | _ | m₁
    · cases created with
      | stateMgr m₁ =>
        rw [groupInit_absent ready htype hentry] at hm
        exact Or.inr ⟨rfl, by rw [hprepared hm]⟩
      | null => simp [Registry.groupInit, htype, hentry, contextManager] at hm
      | throws => simp [Registry.groupInit, htype, hentry, contextManager] at hm
    · simp [Registry.groupInit, htype, hentry, contextManager] at hm
    · rw [groupInit_stored created ready htype hentry] at hm
      exact Or.inl (by rw [hprepared hm])
  · simp [Registry.groupInit, htype, contextManager] at hm

/-- A context holds the state manager that is stored for its group. -/
theorem completed_of_moves (hmove : Moves node t r pc input r' pc') {m : StateMgrId}
    (hm : completed g r pc input = some m) : r'.stateManagers g = some (some m) := by
  obtain ⟨caller, ty, a, rfl, rfl, hcontext⟩ : ∃ caller ty a, pc = .joinInit caller g ty ∧
      input = .go a ∧ contextManager (r.groupInit g ty a.created a.ready).result = some m := by
    unfold completed at hm
    split at hm
    · next caller g' ty a =>
      split at hm
      · next hg =>
        subst hg
        exact ⟨caller, ty, a, rfl, rfl, hm⟩
      · cases hm
    · cases hm
  obtain ⟨htype, hstored | ⟨hnone, hcreated⟩⟩ := contextManager_groupInit hcontext
  · exact hmove.stateManagers_kept hstored nofun
  · have hemplaced : (r.stateManagers.emplace g (some m)) g = some (some m) := by
      rw [PartialMap.emplace_self, hnone]
      rfl
    cases hmove with
    | initRefused _ _ _ hunknown => exact absurd htype hunknown
    | initReuse _ _ _ m' _ hentry => cases hnone.symm.trans hentry
    | initReuseAborted _ _ _ m' _ _ hentry => cases hnone.symm.trans hentry
    | initCreate _ _ _ m' _ _ hcreated' =>
      cases hcreated.symm.trans hcreated'
      exact hemplaced
    | initCreateAborted _ _ _ m' _ _ _ hcreated' =>
      cases hcreated.symm.trans hcreated'
      exact hemplaced
    | initThrew _ _ _ _ _ hthrew => cases hcreated.symm.trans hthrew

/-! ## The spans of a run -/

/-- What the history says about the current entry of a group. -/
structure Owned (entry : Option (Option StateMgrId)) (span : Span) : Prop where
  origins : span.origins.map Prod.snd = entry.toList
  contexts : ∀ m ∈ span.contexts, entry = some (some m)

/-- At most one state manager came in, and all contexts hold it. -/
def Span.Sound (span : Span) : Prop :=
  span.origins.length ≤ 1 ∧ ∀ m ∈ span.contexts, span.origins.map Prod.snd = [some m]

/-- The history is sound as long as it describes the entry. -/
theorem Owned.sound {entry : Option (Option StateMgrId)} {span : Span} (h : Owned entry span) :
    span.Sound := by
  refine ⟨?_, fun m hm => ?_⟩
  · have hlength := congrArg List.length h.origins
    rw [List.length_map] at hlength
    cases entry <;> simp_all
  · rw [h.origins, h.contexts m hm]
    rfl

/-- The span grows by what comes in and by the contexts that are built. -/
theorem Owned.extend {entry entry' : Option (Option StateMgrId)} {span : Span}
    {new : Option (Origin × Option StateMgrId)} {contexts : List StateMgrId}
    (h : Owned entry span)
    (hentry : entry'.toList = entry.toList ++ (new.map Prod.snd).toList)
    (hcontexts : ∀ m ∈ contexts, entry' = some (some m)) :
    Owned entry' ⟨span.origins ++ new.toList, span.contexts ++ contexts⟩ := by
  refine ⟨?_, fun m hm => ?_⟩
  · rw [hentry, List.map_append, h.origins]
    cases new <;> rfl
  · rcases List.mem_append.mp hm with hold | hnew
    · -- an entry that is there stays
      rw [h.contexts m hold] at hentry
      cases entry' with
      | none => cases hentry
      | some m' =>
        obtain ⟨rfl, -⟩ := List.cons.inj hentry
        rfl
    · exact hcontexts m hnew

variable {c c' : Config} {l : Label}

/-- The same for all steps: the entry is erased, or only what came in is new. -/
theorem entry_of_step (hstep : step node c l = some c') (g : GroupId) :
    Erases g c.shared c'.shared ∨ (c'.shared.stateManagers g).toList =
      (c.shared.stateManagers g).toList ++ ((originOf g c l).map Prod.snd).toList := by
  cases l with
  | thread t input =>
    obtain ⟨r', pc', hexec, rfl⟩ := Interleaving.step_thread hstep
    exact entry_of_moves (moves_of_exec hexec) g
  | env event =>
    obtain ⟨r', hdeliver, rfl⟩ := Interleaving.step_env hstep
    obtain ⟨-, -, hentries, -⟩ := deliver_frame hdeliver
    exact Or.inr (by simp [hentries, originOf])

/-- The same for all steps. -/
theorem completed_of_step (hstep : step node c l = some c') {m : StateMgrId}
    (hm : completedOf g c l = some m) : c'.shared.stateManagers g = some (some m) := by
  cases l with
  | thread t input =>
    obtain ⟨r', pc', hexec, rfl⟩ := Interleaving.step_thread hstep
    exact completed_of_moves (moves_of_exec hexec) hm
  | env event => cases hm

/-- The invariant of the history. -/
def SpansSound (c : Config × History) : Prop :=
  ∀ g, Owned (c.1.shared.stateManagers g) (c.2.current g) ∧ ∀ span ∈ c.2.closed g, span.Sound

/-- An erasure closes the span of the group; every other step extends it. -/
theorem SpansSound.step {s s' : Config × History} (hs : SpansSound s)
    (hstep : trackedStep node s l = some s') : SpansSound s' := by
  obtain ⟨hmove, hhistory⟩ := track_eq_some.mp hstep
  intro g
  obtain ⟨howned, hclosed⟩ := hs g
  rw [hhistory]
  by_cases herases : Erases g s.1.shared s'.1.shared
  · simp only [observe, if_pos herases]
    refine ⟨⟨by simp [herases.2], fun m hm => by cases hm⟩, fun span hspan => ?_⟩
    rcases List.mem_append.mp hspan with hold | hnew
    · exact hclosed span hold
    · obtain rfl := List.mem_singleton.mp hnew
      exact howned.sound
  · simp only [observe, if_neg herases]
    have hentry := (entry_of_step hmove g).resolve_left herases
    refine ⟨howned.extend hentry fun m hm => ?_, hclosed⟩
    exact completed_of_step hmove (Option.mem_toList.mp hm)

/-! ## Handing on the state managers -/

/-- Where a state manager can be. -/
inductive Place where
  /-- In `_state_managers`. -/
  | entry (g : GroupId)
  /-- With a thread that is about to store it. -/
  | thread (u : ℕ)
  /-- `permanent_destroy` was called on it. -/
  | destroyed (i : ℕ)
  deriving DecidableEq

/-- The state manager that a thread is about to store. -/
def carries : Pc → Option StateMgrId
  | .joinEmplace _ _ stateMgr => stateMgr
  | _ => none

/-- What is where. -/
def holds (r : Registry) (threads : ℕ → Pc) : PartialMap Place StateMgrId
  | .entry g => (r.stateManagers g).join
  | .thread u => carries (threads u)
  | .destroyed i => r.destroyed[i]?

section

variable {threads : ℕ → Pc}

/-- A thread is one of the holders. -/
theorem holds_update (r : Registry) (threads : ℕ → Pc) (t : ℕ) (pc : Pc) :
    holds r (Function.update threads t pc) =
      Function.update (holds r threads) (.thread t) (carries pc) := by
  funext place
  cases place with
  | entry g => rfl
  | destroyed i => rfl
  | thread u =>
    by_cases hu : u = t
    · subst hu
      simp [holds]
    · simp [holds, hu]

/-- So is the entry of a group. -/
theorem holds_entry {entry : Option (Option StateMgrId)}
    (hentries : r'.stateManagers = Function.update r.stateManagers g entry)
    (hdestroyed : r'.destroyed = r.destroyed) :
    holds r' threads = Function.update (holds r threads) (.entry g) entry.join := by
  funext place
  cases place with
  | thread u => rfl
  | destroyed i => simp [holds, hdestroyed]
  | entry g' =>
    by_cases hg : g' = g
    · subst hg
      simp [holds, hentries]
    · simp [holds, hentries, hg]

/-- A destroyed manager is held by its place in the list. -/
theorem holds_destroyed {m : StateMgrId} (hentries : r'.stateManagers = r.stateManagers)
    (hdestroyed : r'.destroyed = r.destroyed ++ [m]) :
    holds r' threads =
      Function.update (holds r threads) (.destroyed r.destroyed.length) (some m) := by
  funext place
  cases place with
  | thread u => rfl
  | entry g => simp [holds, hentries]
  | destroyed i =>
    by_cases hi : i = r.destroyed.length
    · subst hi
      simp [holds, hdestroyed]
    · have hne : Place.destroyed i ≠ .destroyed r.destroyed.length := fun h => hi (by injection h)
      rw [Function.update_of_ne hne]
      simp only [holds, hdestroyed]
      rcases Nat.lt_or_gt_of_ne hi with hlt | hgt
      · exact List.getElem?_append_left hlt
      · have hlength : (r.destroyed ++ [m]).length ≤ i := by
          rw [List.length_append, List.length_singleton]
          omega
        rw [List.getElem?_eq_none hlength, List.getElem?_eq_none hgt.le]

/-- A thread that carries nothing goes on without carrying anything. -/
theorem holds_empty_handed (hcarried : carries (threads t) = none) (hcarries : carries pc' = none) :
    holds r (Function.update threads t pc') = holds r threads := by
  rw [holds_update, hcarries, ← hcarried]
  exact Function.update_eq_self (.thread t) (holds r threads)

/-- A thread whose step concerns no state manager. -/
theorem holds_of_frame (hcarried : carries (threads t) = none) (hcarries : carries pc' = none)
    (hentries : r'.stateManagers = r.stateManagers) (hdestroyed : r'.destroyed = r.destroyed) :
    holds r' (Function.update threads t pc') = holds r threads := by
  rw [holds_empty_handed hcarried hcarries]
  funext place
  cases place <;> simp only [holds, hentries, hdestroyed]

/-- A thread that comes back to its caller carries nothing. -/
theorem carries_of_landing {m : Option Proto.RaftGroupMsg} (hpc : Landing g m pc) :
    carries pc = none := by
  cases hpc <;> rfl

/-- Storing a state manager under a group. -/
theorem holds_emplaceManager (r : Registry) (g : GroupId) (m : Option StateMgrId) :
    holds (r.emplaceManager g m) threads =
      if r.stateManagers g = none then Function.update (holds r threads) (.entry g) m
      else holds r threads := by
  cases hentry : r.stateManagers g with
  | some old =>
    rw [if_neg (by simp)]
    have hkept : r.emplaceManager g m = r := by
      simp [Registry.emplaceManager, PartialMap.emplace, hentry]
    rw [hkept]
  | none =>
    rw [if_pos rfl]
    change _ = Function.update (holds r threads) (.entry g) (some m).join
    refine holds_entry ?_ rfl
    simp [Registry.emplaceManager, PartialMap.emplace, PartialMap.assign, hentry]

/-- Erasing the state manager of a group. -/
theorem holds_eraseManager (r : Registry) (g : GroupId) :
    holds (r.eraseManager g) threads = (holds r threads).erase (.entry g) := by
  change _ = Function.update (holds r threads) (.entry g) (none : Option (Option StateMgrId)).join
  exact holds_entry rfl rfl

/-- What `create_state_mgr` came back with is brought in. -/
theorem issues_of_invoked {a : Surroundings} {caller : Caller} {ty : GroupType} {m : StateMgrId}
    (htype : ty ∈ r.stateMgrTypes) (hentry : r.stateManagers g = none)
    (hcreated : a.created = .stateMgr m) :
    issues r (.joinInit caller g ty) (.go a) = some m := by
  simp only [issues, Registry.invoked_groupInit, htype, hentry, and_self, if_true, hcreated, object]

/-- A step of a thread hands on one state manager at most. -/
theorem passes_of_moves (hmove : Moves node t r pc input r' pc') (hpc : threads t = pc) :
    Custody.Passes (holds r threads) (issues r pc input)
      (holds r' (Function.update threads t pc')) := by
  have hcarried : carries (threads t) = carries pc := congrArg carries hpc
  cases hmove with
  | call op =>
    rw [holds_update]
    cases op with
    | joinGroup g ty stateMgr =>
      cases stateMgr with
      | some m => exact .put (Place.thread t) m rfl
      | none => exact .drop (Place.thread t)
    | _ => exact .drop (Place.thread t)
  | joinEmplace g ty stateMgr =>
    rw [holds_emplaceManager]
    cases stateMgr with
    | none =>
      rw [holds_empty_handed hcarried rfl]
      split
      · exact .drop (Place.entry g)
      · exact .keep
    | some m =>
      rw [holds_update]
      split
      · exact .move (Place.thread t) (Place.entry g) m hcarried
      · exact .drop (Place.thread t)
  | @initCreate a caller g ty m htype hentry hcreated =>
    have hholds : holds ((r.emplaceManager g (some m)).buildServer t g m) threads =
        Function.update (holds r threads) (.entry g) (some m) := by
      refine Eq.trans ?_ ((holds_emplaceManager r g (some m)).trans (if_pos hentry))
      rfl
    rw [holds_empty_handed hcarried rfl, hholds]
    exact .put (Place.entry g) m (issues_of_invoked htype hentry hcreated)
  | @initCreateAborted a caller g ty m dies htype hentry hcreated =>
    rw [holds_empty_handed hcarried (carries_of_landing (landing_afterListener ..)),
      holds_emplaceManager, if_pos hentry]
    exact .put (Place.entry g) m (issues_of_invoked htype hentry hcreated)
  | initThrew caller g ty htype hentry hcreated =>
    rw [holds_empty_handed hcarried rfl, holds_emplaceManager, if_pos hentry]
    exact .drop (Place.entry g)
  | rollback g code =>
    rw [holds_empty_handed hcarried rfl, holds_eraseManager]
    exact .drop (Place.entry g)
  | leaveDestroy g m hentry =>
    have hmoved : holds { r.eraseManager g with destroyed := r.destroyed ++ [m] } threads =
        ((holds r threads).erase (.entry g)).assign (.destroyed r.destroyed.length) m := by
      rw [← holds_eraseManager]
      exact holds_destroyed rfl rfl
    rw [holds_empty_handed hcarried rfl, hmoved]
    exact .move (Place.entry g) (Place.destroyed _) m (by simp [holds, hentry])
  | lockFailed caller | initRefused caller =>
    rw [holds_of_frame hcarried (carries_of_landing (caller.landing_refused ..)) rfl rfl]
    exact .keep
  | duplicate caller =>
    rw [holds_of_frame hcarried (carries_of_landing (caller.landing_accepted _)) rfl rfl]
    exact .keep
  | listenerMissing g resume | listenerErase g resume =>
    rw [holds_of_frame hcarried (carries_of_landing (resume.landing_next g)) rfl rfl]
    exact .keep
  | initReuseAborted | «return» | leaveShutdown | reap =>
    rw [holds_of_frame hcarried (carries_of_landing (landing_afterListener ..)) rfl rfl]
    exact .keep
  | _ =>
    rw [holds_of_frame hcarried rfl rfl rfl]
    exact .keep

end

/-- In a step a manager passes to one holder, from another one or from `create_state_mgr`. -/
theorem passes_of_step (hstep : step node c l = some c') :
    Custody.Passes (holds c.shared c.threads) (issuesOf c l) (holds c'.shared c'.threads) := by
  cases l with
  | thread t input =>
    obtain ⟨r', pc', hexec, rfl⟩ := Interleaving.step_thread hstep
    exact passes_of_moves (moves_of_exec hexec) rfl
  | env event =>
    obtain ⟨r', hdeliver, rfl⟩ := Interleaving.step_env hstep
    obtain ⟨-, -, hentries, hdestroyed⟩ := deliver_frame hdeliver
    have hsame : holds r' c.threads = holds c.shared c.threads := by
      funext place
      cases place <;> simp only [holds, hentries, hdestroyed]
    simp only [hsame]
    exact .keep

/-- Every object is at one place, and was brought in. -/
def SoleOwners (s : Config × History) : Prop :=
  Custody.Sole (holds s.1.shared s.1.threads) ∧
    ∀ place m, holds s.1.shared s.1.threads place = some m → m ∈ s.2.issued

/-- As long as `create_state_mgr` returns new managers, each has one holder. -/
theorem SoleOwners.step {s s' : Config × History} (hs : SoleOwners s) (hfresh : Fresh s l)
    (hstep : trackedStep node s l = some s') : SoleOwners s' := by
  obtain ⟨hmove, hhistory⟩ := track_eq_some.mp hstep
  have hpasses := passes_of_step hmove
  refine ⟨hpasses.sole hs.1 hs.2 hfresh, fun place m hm => ?_⟩
  rw [hhistory]
  exact hpasses.mem_seen hs.2 hm

/-- No manager is destroyed twice. -/
theorem SoleOwners.destroyed {s : Config × History} (hs : SoleOwners s) :
    s.1.shared.destroyed.Nodup := by
  refine List.nodup_iff_getElem?_ne_getElem?.mpr fun i j hij hj heq => ?_
  obtain ⟨m, hm⟩ : ∃ m, s.1.shared.destroyed[j]? = some m := ⟨_, List.getElem?_eq_getElem hj⟩
  have hplace := hs.1 (.destroyed i) (.destroyed j) m (heq.trans hm) hm
  injection hplace with hindex
  omega

/-! ## Whole runs -/

variable {types : List GroupType} {labels : List Label} {h : History}

end NuraftMesg.Manager.Ownership
