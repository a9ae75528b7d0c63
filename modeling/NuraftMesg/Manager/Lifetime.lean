import NuraftMesg.Manager.Joins

/-!
# The end of the manager

The manager lives as long as there is a strong reference to it. The application holds one;
a call of `joinRaftGroup` holds one from the moment it locks `_manager` to the end of its
frame, and so does a call of `internal_raft_event_handler`. Whoever drops the last of them
runs `~ManagerImpl`, which may thus be a thread that serves a join request. The destructor
walks through `_raft_servers`, stopping each server, while other threads go on.

Here the threads are put together with these references and with the destructor.
-/

namespace NuraftMesg.Manager

/-- The thread is in `joinRaftGroup`, after it has locked `_manager`. -/
def Pc.holdsManager : Pc → Bool
  | .joinFind .. | .joinInit .. | .joinInsert .. | .joinReturn .. => true
  | .listenerFind _ (.joinRaftGroup _) | .listenerErase _ (.joinRaftGroup _) => true
  | .listenerFind _ .unwind | .listenerErase _ .unwind => true
  | _ => false

variable {node : Node} {g : GroupId} {t : ℕ} {r r' : Registry} {pc pc' : Pc} {input : Input}

/-- A thread comes to hold the manager only by locking it. -/
theorem holdsManager_of_exec (hexec : exec node t r pc input = some (r', pc'))
    (hholds : pc'.holdsManager = true) :
    pc.holdsManager = true ∨ ∃ caller g ty around, pc = .joinLock caller g ty ∧
      input = .go around ∧ around.managerAlive = true := by
  cases moves_of_exec hexec with
  | call op => cases op <;> cases hholds
  | @lock around caller g ty ty' halive => exact Or.inr ⟨caller, g, ty, around, rfl, rfl, halive⟩
  | lockFailed caller => cases caller <;> cases hholds
  | duplicate | noDuplicate | initRefused | initReuse | initReuseAborted | initCreate
  | initCreateAborted | insert | «return» => exact Or.inl rfl
  | listenerFound g resume | listenerMissing g resume | listenerErase g resume =>
    cases resume with
    | joinRaftGroup | unwind => exact Or.inl rfl
    | leaveGroup | reap => cases hholds
  | leaveShutdown | reap =>
    unfold afterListener at hholds
    split at hholds <;> cases hholds
  | _ => cases hholds

namespace Lifetime

open Transition

/-- Who holds a strong reference to the manager. -/
inductive Owner where
  /-- The application, until it releases its last reference. -/
  | application
  /-- The local `mgr` of the call of `joinRaftGroup` on a thread. -/
  | frame (t : ℕ)
  /-- A call of `internal_raft_event_handler`. -/
  | handler (k : ℕ)
  deriving DecidableEq

/-- How far `~ManagerImpl` has come. -/
inductive Destructor where
  /-- There is still a reference. -/
  | pending
  | entered
  /-- The loop of `msg_service::shutdown`, with the entries that the iterator has ahead. -/
  | loop (entries : List (GroupId × ℕ))
  /-- The same, where the listener of a server has died: `shutdown_for`, find the group. -/
  | listenerFind (g : GroupId) (entries : List (GroupId × ℕ))
  /-- `shutdown_for`, erase the group. -/
  | listenerErase (g : GroupId) (entries : List (GroupId × ℕ))
  /-- `_mesg_service->shutdown()` has returned. -/
  | ended
  deriving DecidableEq

/-- A node and the references to its manager. -/
structure State where
  config : Config
  /-- The strong references; their number is the use count. -/
  owners : List Owner
  /-- Whose reference was the last one; this one runs the destructor. -/
  last : Option Owner
  destructor : Destructor
  /-- The servers on which the destructor has called `stop_server` and `shutdown`. -/
  stopped : List (GroupId × ℕ)

/-- `_raft_servers`. -/
abbrev State.raftServers (s : State) : PartialMap GroupId ℕ := s.config.shared.raftServers

/-- A node that has just started. -/
def start (types : List GroupType) : State where
  config := Manager.start types
  owners := [.application]
  last := none
  destructor := .pending
  stopped := []

inductive Label where
  /-- A thread moves. The application's own operations may run at any time here, also
  after it has given up its reference. -/
  | thread (t : ℕ) (input : Input)
  | registerMgrType (ty : GroupType)
  /-- `internal_raft_event_handler` locks its pointer to the manager. -/
  | lockHandler (k : ℕ)
  /-- A handler calls `generic_raft_event_handler`. -/
  | raftEvent (k : ℕ) (g : GroupId) (event : RaftEvent)
  /-- A reference is given up. -/
  | drop (owner : Owner)
  /-- The destructor starts to iterate; the entries are those that it will come to. -/
  | iterate (entries : List (GroupId × ℕ))
  /-- The destructor goes on. An entry that was erased in the meantime may be visited or
  not. -/
  | destruct (visitsErased : Bool)

/-- `_manager.lock()` succeeds exactly if there is still a reference. -/
def locksTruly (owners : List Owner) : Pc → Input → Bool
  | .joinLock .., .go around => around.managerAlive == !owners.isEmpty
  | _, _ => true

/-- The thread has to give up its reference at the end of a frame, or runs the
destructor. -/
def State.Detained (s : State) (t : ℕ) : Prop :=
  (.frame t ∈ s.owners ∧ (s.config.threads t).holdsManager = false) ∨
    (s.last = some (.frame t) ∧ s.destructor ≠ .ended)

instance (s : State) (t : ℕ) : Decidable (s.Detained t) := inferInstanceAs (Decidable (_ ∨ _))

/-- A reference that may be given up; the one of a frame, when the frame ends. -/
def Owner.Leaves (c : Config) : Owner → Prop
  | .frame t => (c.threads t).holdsManager = false
  | _ => True

instance (c : Config) : ∀ owner : Owner, Decidable (owner.Leaves c)
  | .frame _ => inferInstanceAs (Decidable (_ = _))
  | .application | .handler _ => inferInstanceAs (Decidable True)

/-- Give up a reference. The destructor follows on the last one. -/
def State.dropOwner (s : State) (owner : Owner) : State :=
  if s.owners.erase owner = [] then
    { s with owners := [], last := some owner, destructor := .entered }
  else { s with owners := s.owners.erase owner }

/-- Change the registries. -/
def State.withShared (s : State) (r : Registry) : State :=
  { s with config := { s.config with shared := r } }

/-- One step of the loop in `msg_service::shutdown`. -/
def State.destruct (s : State) (visitsErased : Bool) : Option State :=
  let r := s.config.shared
  match s.destructor with
  | .pending | .entered | .ended => none
  | .loop [] => some { s with destructor := .ended }
  | .loop ((g, server) :: entries) =>
    if r.raftServers g = some server ∨ visitsErased then
      some { s.withShared (r.shutdownServer g server).1 with
        stopped := s.stopped ++ [(g, server)]
        destructor :=
          if (r.shutdownServer g server).2 then .listenerFind g entries else .loop entries }
    else some { s with destructor := .loop entries }
  | .listenerFind g entries =>
    if (r.raftServers g).isSome then some { s with destructor := .listenerErase g entries }
    else some { s with destructor := .loop entries }
  | .listenerErase g entries =>
    some { s.withShared (r.eraseServer g) with destructor := .loop entries }

/-- One step of the node, its manager included. -/
def step (node : Node) (s : State) : Label → Option State
  | .thread t input =>
    if s.Detained t ∨ locksTruly s.owners (s.config.threads t) input = false then none
    else (Manager.step node s.config (.thread t input)).map fun c =>
      { s with
        config := c
        owners := if (c.threads t).holdsManager then s.owners.insert (.frame t) else s.owners }
  | .registerMgrType ty => some (s.withShared (s.config.shared.registerMgrType ty))
  | .lockHandler k =>
    if s.owners = [] then none else some { s with owners := s.owners.insert (.handler k) }
  | .raftEvent k g event =>
    if .handler k ∈ s.owners then
      some (s.withShared (s.config.shared.genericRaftEventHandler g event))
    else none
  | .drop owner =>
    if owner ∈ s.owners ∧ owner.Leaves s.config then some (s.dropOwner owner) else none
  | .iterate entries =>
    if s.destructor = .entered then some { s with destructor := .loop entries } else none
  | .destruct visitsErased => s.destruct visitsErased

/-- The iteration comes to all entries that are there when it starts, and thus to all
that are there throughout. -/
def Thorough (s : State) : Label → Prop
  | .iterate entries => ∀ g server, s.raftServers g = some server → (g, server) ∈ entries
  | _ => True

/-! ## The steps as rules -/

/-- The ways in which the destructor can go on. -/
inductive Destructs (s : State) : State → Prop
  | ends (hd : s.destructor = .loop []) : Destructs s { s with destructor := .ended }
  | visit (g : GroupId) (server entries) (hd : s.destructor = .loop ((g, server) :: entries)) :
      Destructs s { s.withShared (s.config.shared.shutdownServer g server).1 with
        stopped := s.stopped ++ [(g, server)]
        destructor := if (s.config.shared.shutdownServer g server).2 then .listenerFind g entries
          else .loop entries }
  | skip (g : GroupId) (server entries) (hd : s.destructor = .loop ((g, server) :: entries))
      (herased : s.raftServers g ≠ some server) : Destructs s { s with destructor := .loop entries }
  | listenerFound (g : GroupId) (entries) (hd : s.destructor = .listenerFind g entries) :
      Destructs s { s with destructor := .listenerErase g entries }
  | listenerMissing (g : GroupId) (entries) (hd : s.destructor = .listenerFind g entries) :
      Destructs s { s with destructor := .loop entries }
  | listenerErase (g : GroupId) (entries) (hd : s.destructor = .listenerErase g entries) :
      Destructs s { s.withShared (s.config.shared.eraseServer g) with destructor := .loop entries }

/-- The ways in which the node can go on. -/
inductive Takes (node : Node) (s : State) : Label → State → Prop
  | thread (t : ℕ) (input : Input) (r' : Registry) (pc' : Pc)
      (htruly : locksTruly s.owners (s.config.threads t) input = true)
      (hexec : exec node t s.config.shared (s.config.threads t) input = some (r', pc')) :
      Takes node s (.thread t input) { s with
        config := ⟨r', Function.update s.config.threads t pc'⟩
        owners := if pc'.holdsManager then s.owners.insert (.frame t) else s.owners }
  | registerMgrType (ty) : Takes node s (.registerMgrType ty)
      (s.withShared (s.config.shared.registerMgrType ty))
  | lockHandler (k) (halive : s.owners ≠ []) : Takes node s (.lockHandler k)
      { s with owners := s.owners.insert (.handler k) }
  | raftEvent (k : ℕ) (g : GroupId) (event : RaftEvent) (hhandler : .handler k ∈ s.owners) :
      Takes node s (.raftEvent k g event)
        (s.withShared (s.config.shared.genericRaftEventHandler g event))
  | drop (owner) (howner : owner ∈ s.owners) (hleaves : owner.Leaves s.config) :
      Takes node s (.drop owner) (s.dropOwner owner)
  | iterate (entries) (hentered : s.destructor = .entered) : Takes node s (.iterate entries)
      { s with destructor := .loop entries }
  | destruct {s'} (visitsErased) (hdestructs : Destructs s s') :
      Takes node s (.destruct visitsErased) s'

variable {types : List GroupType} {s s' : State} {l : Label} {labels : List Label}

/-- The steps of the destructor as rules. -/
theorem destructs_of_destruct {visitsErased : Bool} (hstep : s.destruct visitsErased = some s') :
    Destructs s s' := by
  simp only [State.destruct] at hstep
  split at hstep
  · cases hstep
  · cases hstep
  · cases hstep
  · cases hstep
    exact .ends ‹_›
  · next g server entries hd =>
    split at hstep <;> cases hstep
    · exact .visit g server entries hd
    · next hskipped => exact .skip g server entries hd fun h => hskipped (Or.inl h)
  · next g entries hd =>
    split at hstep <;> cases hstep
    · exact .listenerFound g entries hd
    · exact .listenerMissing g entries hd
  · next g entries hd =>
    cases hstep
    exact .listenerErase g entries hd

/-- Every step is an instance of a rule. -/
theorem takes_of_step (hstep : step node s l = some s') : Takes node s l s' := by
  cases l with
  | thread t input =>
    simp only [step] at hstep
    split at hstep
    · cases hstep
    · next hfree =>
      obtain ⟨-, htruly⟩ := not_or.mp hfree
      obtain ⟨c, hc, rfl⟩ := Option.map_eq_some_iff.mp hstep
      obtain ⟨r', pc', hexec, rfl⟩ := Interleaving.step_thread hc
      have htakes := Takes.thread t input r' pc' (by simpa using htruly) hexec
      simpa using htakes
  | registerMgrType ty =>
    cases hstep
    exact .registerMgrType ty
  | lockHandler k =>
    simp only [step] at hstep
    split at hstep <;> cases hstep
    exact .lockHandler k ‹_›
  | raftEvent k g event =>
    simp only [step] at hstep
    split at hstep <;> cases hstep
    exact .raftEvent k g event ‹_›
  | drop owner =>
    simp only [step] at hstep
    split at hstep
    · next hdrop =>
      cases hstep
      exact .drop owner hdrop.1 hdrop.2
    · cases hstep
  | iterate entries =>
    simp only [step] at hstep
    split at hstep <;> cases hstep
    exact .iterate entries ‹_›
  | destruct visitsErased => exact .destruct visitsErased (destructs_of_destruct hstep)

/-! ## What holds throughout -/

/-- The entries that a started iteration still has ahead. -/
def Destructor.ahead : Destructor → Option (List (GroupId × ℕ))
  | .pending | .entered => none
  | .loop entries | .listenerFind _ entries | .listenerErase _ entries => some entries
  | .ended => some []

/-- The calls that hold the manager are among its owners, and the destructor runs when
there is none. -/
structure Referenced (s : State) : Prop where
  frames : ∀ t, (s.config.threads t).holdsManager = true → .frame t ∈ s.owners
  gone : s.destructor ≠ .pending → s.owners = []

/-- The iteration has stopped every server that it does not have ahead. -/
def Covered (s : State) : Prop :=
  ∀ entries, s.destructor.ahead = some entries → ∀ g server,
    s.raftServers g = some server → (g, server) ∈ s.stopped ∨ (g, server) ∈ entries

/-- A destructor that iterates has been entered. -/
theorem Destructor.ne_pending_of_ahead {d : Destructor} {entries : List (GroupId × ℕ)}
    (hahead : d.ahead = some entries) : d ≠ .pending := by
  rintro rfl
  cases hahead

/-- At the beginning no call has begun. -/
theorem referenced_start : Referenced (start types) := by
  refine ⟨fun t hholds => ?_, fun hne => absurd rfl hne⟩
  cases hholds

/-- The owner is taken out, whether or not it was the last one. -/
@[simp] theorem owners_dropOwner (s : State) (owner : Owner) :
    (s.dropOwner owner).owners = s.owners.erase owner := by
  unfold State.dropOwner
  split
  · next hempty => exact hempty.symm
  · rfl

/-- Dropping a reference moves no thread. -/
@[simp] theorem config_dropOwner (s : State) (owner : Owner) :
    (s.dropOwner owner).config = s.config := by
  unfold State.dropOwner
  split <;> rfl

/-- The destructor only erases from `_raft_servers`. -/
theorem Destructs.raftServers {server : ℕ} (hdestructs : Destructs s s')
    (hserver : s'.raftServers g = some server) : s.raftServers g = some server := by
  cases hdestructs with
  | listenerErase g' entries hd => exact (PartialMap.eq_some_of_erase_eq_some hserver).2
  | _ => exact hserver

/-- What the destructor leaves alone. -/
theorem Destructs.frame (hdestructs : Destructs s s') :
    s'.config.threads = s.config.threads ∧ s'.owners = s.owners ∧ s.destructor ≠ .pending := by
  have hstarted : ∀ {d}, s.destructor = d → d ≠ .pending → s.destructor ≠ .pending :=
    fun hd hne => hd ▸ hne
  cases hdestructs <;> exact ⟨rfl, rfl, hstarted ‹_› fun h => by cases h⟩

/-- Without a reference, no call can lock the manager. -/
theorem not_holdsManager_of_gone (hs : Referenced s) (hgone : s.owners = [])
    (htruly : locksTruly s.owners (s.config.threads t) input = true)
    (hexec : exec node t s.config.shared (s.config.threads t) input = some (r', pc')) :
    pc'.holdsManager = false := by
  rw [Bool.eq_false_iff]
  intro hholds
  rcases holdsManager_of_exec hexec hholds with hheld | ⟨caller, g, ty, around, hpc, rfl, halive⟩
  · have hmem := hs.frames t hheld
    rw [hgone] at hmem
    cases hmem
  · simp [hpc, locksTruly, hgone, halive] at htruly

/-- Once the last reference is gone, there will be none, and no server is inserted. -/
theorem Takes.of_gone (htakes : Takes node s l s') (hs : Referenced s) (hgone : s.owners = []) :
    s'.owners = [] ∧
      ∀ g server, s'.raftServers g = some server → s.raftServers g = some server := by
  cases htakes with
  | thread t input r' pc' htruly hexec =>
    have hfree := not_holdsManager_of_gone hs hgone htruly hexec
    refine ⟨by simp [hfree, hgone], fun g server hserver => ?_⟩
    rcases (moves_of_exec hexec).raftServers hserver with hold | ⟨-, caller, hpc⟩
    · exact hold
    · have hmem := hs.frames t (by rw [hpc]; rfl)
      rw [hgone] at hmem
      cases hmem
  | registerMgrType ty => exact ⟨hgone, fun g server hserver => hserver⟩
  | lockHandler k halive => exact absurd hgone halive
  | raftEvent k g event hhandler =>
    rw [hgone] at hhandler
    cases hhandler
  | drop owner howner hleaves =>
    rw [hgone] at howner
    cases howner
  | iterate entries hentered => exact ⟨hgone, fun g server hserver => hserver⟩
  | destruct visitsErased hdestructs =>
    exact ⟨hdestructs.frame.2.1.trans hgone, fun g server => hdestructs.raftServers⟩

/-- The loop stops the server of the entry that it leaves behind. -/
theorem Destructs.covered (hdestructs : Destructs s s') (hs : Covered s) : Covered s' := by
  intro entries hahead g server hserver
  have hbefore := hdestructs.raftServers hserver
  have hcovered := fun entries hd => hs entries hd g server hbefore
  cases hdestructs with
  | ends hd =>
    cases hahead
    exact hcovered [] (by rw [hd]; rfl)
  | visit g' server' rest hd =>
    obtain rfl : rest = entries := by
      change (if (s.config.shared.shutdownServer g' server').2 then Destructor.listenerFind g' rest
        else .loop rest).ahead = some entries at hahead
      split at hahead <;> exact Option.some.inj hahead
    rcases hcovered _ (by rw [hd]; rfl) with hstopped | hentry
    · exact Or.inl (List.mem_append_left _ hstopped)
    · rcases List.mem_cons.mp hentry with hhead | hrest
      · exact Or.inl (List.mem_append_right _ (List.mem_singleton.mpr hhead))
      · exact Or.inr hrest
  | skip g' server' rest hd herased =>
    cases hahead
    rcases hcovered _ (by rw [hd]; rfl) with hstopped | hentry
    · exact Or.inl hstopped
    · rcases List.mem_cons.mp hentry with hhead | hrest
      -- an entry that is still there cannot be skipped
      · cases hhead
        exact absurd hbefore herased
      · exact Or.inr hrest
  | listenerFound g' rest hd | listenerMissing g' rest hd | listenerErase g' rest hd =>
    cases hahead
    exact hcovered _ (by rw [hd]; rfl)

/-- A thread that holds the manager has its reference among the owners. -/
theorem frames_of_thread (hframes : ∀ u, (s.config.threads u).holdsManager = true →
      .frame u ∈ s.owners) (u : ℕ)
    (hholds : (Function.update s.config.threads t pc' u).holdsManager = true) :
    .frame u ∈ if pc'.holdsManager then s.owners.insert (.frame t) else s.owners := by
  by_cases hu : u = t
  · subst hu
    rw [Function.update_self] at hholds
    rw [if_pos hholds]
    exact List.mem_insert_self
  · rw [Function.update_of_ne hu] at hholds
    have hmem := hframes u hholds
    split
    · exact List.mem_insert_of_mem hmem
    · exact hmem

/-- A call drops its reference when it does not need the manager any more, and the last one
enters the destructor. -/
theorem Referenced.drop {owner : Owner} (hs : Referenced s) (howner : owner ∈ s.owners)
    (hleaves : owner.Leaves s.config) : Referenced (s.dropOwner owner) := by
  have hpending : s.destructor = .pending := by
    by_contra hne
    rw [hs.gone hne] at howner
    cases howner
  refine ⟨fun u hholds => ?_, fun hne => ?_⟩
  · rw [config_dropOwner] at hholds
    have hother : Owner.frame u ≠ owner := by
      rintro rfl
      rw [show (s.config.threads u).holdsManager = false from hleaves] at hholds
      cases hholds
    rw [owners_dropOwner, List.mem_erase_of_ne hother]
    exact hs.frames u hholds
  · unfold State.dropOwner at hne ⊢
    split at hne
    · next hlast => rw [if_pos hlast]
    · exact absurd hpending hne

/-- A call takes its reference when it begins, and `lock()` succeeds only while there is
another one. -/
theorem Referenced.step (hs : Referenced s) (htakes : Takes node s l s') : Referenced s' := by
  have hquiet := fun hgone => htakes.of_gone hs hgone
  cases htakes with
  | thread t input r' pc' htruly hexec =>
    exact ⟨fun u => frames_of_thread hs.frames u, fun hne => (hquiet (hs.gone hne)).1⟩
  | registerMgrType | raftEvent => exact ⟨hs.frames, hs.gone⟩
  | lockHandler k halive =>
    exact ⟨fun u hholds => List.mem_insert_of_mem (hs.frames u hholds),
      fun hne => absurd (hs.gone hne) halive⟩
  | drop owner howner hleaves => exact hs.drop howner hleaves
  | iterate entries hentered => exact ⟨hs.frames, fun _ => hs.gone (by rw [hentered]; decide)⟩
  | destruct visitsErased hdestructs =>
    obtain ⟨hthreads, howners, hne⟩ := hdestructs.frame
    refine ⟨fun u hholds => ?_, fun _ => howners.trans (hs.gone hne)⟩
    rw [howners]
    rw [hthreads] at hholds
    exact hs.frames u hholds

/-- A step of another party leaves the iteration where it is, and only erases. -/
theorem Covered.of_frame (hs : Covered s) (hdestructor : s'.destructor = s.destructor)
    (hstopped : s'.stopped = s.stopped)
    (hshrinks : s.destructor ≠ .pending → ∀ g server, s'.raftServers g = some server →
      s.raftServers g = some server) : Covered s' := by
  intro entries hahead g server hserver
  rw [hdestructor] at hahead
  rw [hstopped]
  have hne := Destructor.ne_pending_of_ahead hahead
  exact hs entries hahead g server (hshrinks hne g server hserver)

/-- The iteration takes over the entries that are there when it begins; it stops the entry that
it passes, and by then nobody adds one. -/
theorem Covered.step (hs : Covered s) (href : Referenced s) (hthorough : Thorough s l)
    (htakes : Takes node s l s') : Covered s' := by
  have hshrinks := fun hne => (htakes.of_gone href (href.gone hne)).2
  cases htakes with
  | thread | registerMgrType | lockHandler | raftEvent => exact hs.of_frame rfl rfl hshrinks
  | drop owner howner hleaves =>
    intro entries hahead
    unfold State.dropOwner at hahead
    split at hahead
    · cases hahead
    · rw [href.gone (Destructor.ne_pending_of_ahead hahead)] at howner
      cases howner
  | iterate entries hentered =>
    intro entries' hahead g server hserver
    cases hahead
    exact Or.inr (hthorough g server hserver)
  | destruct visitsErased hdestructs => exact hdestructs.covered hs

/-- Once `~ManagerImpl` has run `_mesg_service->shutdown()`, it has called `stop_server` and
`shutdown` on every server that is still in `_raft_servers`. And from the moment the
destructor is entered, no call of `joinRaftGroup` comes past the lock of `_manager`,
whatever the threads go on to do, and no server is added. -/
theorem stopped_before_end (hrun : run (step node) (start types) labels = some s)
    (hthorough : Meets (step node) Thorough (start types) labels) :
    (s.destructor = .ended → ∀ g server, s.raftServers g = some server →
      (g, server) ∈ s.stopped) ∧
    (s.destructor ≠ .pending → ∀ later s', run (step node) s later = some s' →
      (∀ t, (s'.config.threads t).holdsManager = false) ∧
      ∀ g server, s'.raftServers g = some server → s.raftServers g = some server) := by
  have hstart : Referenced (start types) ∧ Covered (start types) := by
    refine ⟨referenced_start, fun entries hahead => ?_⟩
    cases hahead
  obtain ⟨href, hcovered⟩ := run_invariant_of_meets
    (I := fun s => Referenced s ∧ Covered s)
    (fun _ _ _ hs hl hstep =>
      ⟨hs.1.step (takes_of_step hstep), hs.2.step hs.1 hl (takes_of_step hstep)⟩)
    hstart hthorough hrun
  refine ⟨fun hended g server hserver => ?_, fun hne later s' hlater => ?_⟩
  · rcases hcovered [] (by rw [hended]; rfl) g server hserver with hstopped | hahead
    · exact hstopped
    · cases hahead
  · have hpres : ∀ x l x', (Referenced x ∧ x.owners = [] ∧
          ∀ g server, x.raftServers g = some server → s.raftServers g = some server) →
        step node x l = some x' → Referenced x' ∧ x'.owners = [] ∧
          ∀ g server, x'.raftServers g = some server → s.raftServers g = some server := by
      rintro x l x' ⟨hx, hgone, hfew⟩ hstep
      obtain ⟨hgone', hfewer⟩ := (takes_of_step hstep).of_gone hx hgone
      exact ⟨hx.step (takes_of_step hstep), hgone',
        fun g server hserver => hfew g server (hfewer g server hserver)⟩
    obtain ⟨href', hgone', hshrinks⟩ :=
      run_invariant hpres ⟨href, href.gone hne, fun _ _ h => h⟩ hlater
    refine ⟨fun t => Bool.eq_false_iff.mpr fun hholds => ?_, hshrinks⟩
    have hmem := href'.frames t hholds
    rw [hgone'] at hmem
    cases hmem

/-- A request to join group 1. -/
def joinRequest : Proto.RaftGroupMsg where
  groupId := canonicalText.toString 1
  msg := ⟨some ⟨0, MsgType.joinClusterRequest.val.toUInt32, 2, 1⟩, none⟩
  intendedAddr := canonicalText.toString 7
  groupType := "raft"

/-- A thread goes on `n` times. -/
def onThread (t n : ℕ) (alive : Bool) : List Label :=
  List.replicate n (.thread t (.go { managerAlive := alive, created := .stateMgr 10 }))

/-- The application gives up its reference while a join request is served and the group
is being left. -/
def released : List Label :=
  .thread 0 (.call (.raftStep joinRequest)) :: onThread 0 6 true ++
    .thread 1 (.call (.leaveGroup 1)) :: onThread 1 3 true ++ [.drop .application, .drop (.frame 0)]

/-- The thread that serves the request runs the destructor. -/
def destructed : List Label := [.iterate [(1, 0)], .destruct false, .destruct false]

/-- The server is stopped, although its listener was already dead, and a second request
does not come past the lock. -/
theorem stopped_by_last_frame :
    ∃ s s', run (step sampleNode) (start ["raft"]) (released ++ destructed) = some s ∧
      s.last = some (.frame 0) ∧ s.destructor = .ended ∧ s.raftServers 1 = some 0 ∧
      (1, 0) ∈ s.stopped ∧
      run (step sampleNode) s (.thread 2 (.call (.raftStep joinRequest)) :: onThread 2 2 false) =
        some s' ∧
      (s'.config.threads 2).holdsManager = false := by
  have hthorough : Meets (step sampleNode) Thorough (start ["raft"]) (released ++ destructed) := by
    refine Meets.append (.of_always fun l hl s => ?_) fun s hrun => ⟨fun g server hserver => ?_,
      fun s' _ => .of_always fun l hl s => ?_⟩
    · revert l
      simp [released, onThread, Thorough]
    · have hmap : (run (step sampleNode) (start ["raft"]) released).map State.raftServers =
          some (PartialMap.emplace (fun _ => none) 1 0) := rfl
      rw [hrun] at hmap
      rw [Option.some.inj hmap] at hserver
      rcases PartialMap.eq_some_of_emplace_eq_some hserver with hold | ⟨rfl, -, rfl⟩
      · cases hold
      · simp
    · revert l
      simp [Thorough]
  obtain ⟨s, s', hrun, hlast, hended, hserver, hlater⟩ : ∃ s s',
      run (step sampleNode) (start ["raft"]) (released ++ destructed) = some s ∧
      s.last = some (.frame 0) ∧ s.destructor = .ended ∧ s.raftServers 1 = some 0 ∧
      run (step sampleNode) s (.thread 2 (.call (.raftStep joinRequest)) :: onThread 2 2 false) =
        some s' :=
    ⟨_, _, rfl, rfl, rfl, rfl, rfl⟩
  obtain ⟨hstopped, hclosed⟩ := stopped_before_end hrun hthorough
  have hentered : s.destructor ≠ .pending := by
    rw [hended]
    decide
  exact ⟨s, s', hrun, hlast, hended, hserver, hstopped hended 1 0 hserver, hlater,
    (hclosed hentered _ s' hlater).1 2⟩

end Lifetime

end NuraftMesg.Manager
