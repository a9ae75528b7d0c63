import NuraftMesg.Manager.Effects
import NuraftMesg.UuidText

/-!
# Concurrent joins of one group

`joinRaftGroup` checks for a duplicate, builds a server and then tries to insert
it. A join that loses the insertion destroys its server together with the
listener, and the destructor of the listener erases the group by its key: the
entry that goes is the winner's. The same happens when the constructor of the server
throws: the listener is there already and dies as the exception leaves the call. As
long as no insertion is lost, no listener of a failed construction finds an entry, and
nobody leaves the group, the entry stays from the first join that returns `OK` on.
-/

namespace NuraftMesg.Manager

variable {node : Node} {g : GroupId} {t : ℕ} {r r' : Registry} {pc pc' : Pc} {input : Input}

/-- `joinRaftGroup` for the group has just returned `OK` to its caller. -/
def JoinReturnedOk (g : GroupId) : Pc → Prop
  | .createWait g' => g' = g
  | .done (.joined g') => g' = g
  | .stepFind _ g' (some code) => g' = g ∧ code = .ok
  | _ => False

/-- The group for which a join was left by an exception of the server's constructor, and whose
entry the dying listener is about to look for. -/
def Pc.unwinds : Pc → Option GroupId
  | .listenerFind g .unwind => some g
  | _ => none

/-- The condition on a step: a `try_emplace` for the group finds no entry, and neither does the
listener of a join that the constructor of its server left by an exception. -/
def NoLosingJoin (g : GroupId) (c : Config) : Label → Prop
  | .thread t _ => (c.threads t).inserts = some g ∨ (c.threads t).unwinds = some g →
      c.shared.raftServers g = none
  | .env _ => True

instance (g : GroupId) (c : Config) : ∀ l, Decidable (NoLosingJoin g c l)
  | .thread _ _ => inferInstanceAs (Decidable (_ → _))
  | .env _ => inferInstanceAs (Decidable True)

/-- Every server of the group has its listener, and is registered once the frame
that built it has ended. -/
def Intact (g : GroupId) (r : Registry) : Prop :=
  ∀ i s, (r.servers g)[i]? = some s →
    s.listener = true ∧ (s.frame = none → r.raftServers g = some i)

/-- The server is held by the frame of thread `t`. -/
def Framed (g : GroupId) (t : ℕ) (r : Registry) (server : ℕ) : Prop :=
  ∃ s, (r.servers g)[server]? = some s ∧ s.frame = some t

/-- What holds for a thread at each program counter while nobody leaves the
group and no join loses. -/
def Outline (g : GroupId) (t : ℕ) (r : Registry) : Pc → Prop
  | .joinInsert _ g' server => g' = g → Framed g t r server
  | .joinReturn _ g' server inserted =>
    g' = g → inserted = true ∧ r.raftServers g = some server ∧ Framed g t r server
  | .listenerFind g' resume => g' = g → resume = .unwind
  | .listenerErase g' _ => g' ≠ g
  | .leaveCheck g' => g' ≠ g
  | .leaveFind g' => g' ≠ g
  | .leaveShutdown g' _ => g' ≠ g
  | .leaveDestroy g' => g' ≠ g
  | pc => JoinReturnedOk g pc → (r.raftServers g).isSome

/-- What a step of thread `t` leaves to the other threads: the entry of the
group and the servers that their frames hold. -/
structure Respects (g : GroupId) (t : ℕ) (r r' : Registry) : Prop where
  entry : ∀ i, r.raftServers g = some i → r'.raftServers g = some i
  framed : ∀ u i, u ≠ t → Framed g u r i → Framed g u r' i

/-- Other threads keep their assertions. -/
theorem Respects.outline {u : ℕ} (h : Respects g t r r') (hu : u ≠ t) (hpc : Outline g u r pc) :
    Outline g u r' pc := by
  have hsome : (r.raftServers g).isSome → (r'.raftServers g).isSome := by
    intro hr
    obtain ⟨i, hi⟩ := Option.isSome_iff_exists.mp hr
    rw [h.entry i hi]
    rfl
  cases pc with
  | joinInsert caller g' server => exact fun hg => h.framed u server hu (hpc hg)
  | joinReturn caller g' server inserted =>
    intro hg
    obtain ⟨hins, hentry, hframed⟩ := hpc hg
    exact ⟨hins, h.entry server hentry, h.framed u server hu hframed⟩
  | listenerFind | listenerErase | leaveCheck | leaveFind | leaveShutdown | leaveDestroy =>
    exact hpc
  | _ => exact fun hret => hsome (hpc hret)

/-! ## The single operations -/

/-- A step that touches neither the map nor the servers of the group. -/
theorem respects_of_eq (hI : Intact g r) (hmap : r'.raftServers g = r.raftServers g)
    (hservers : r'.servers g = r.servers g) : Intact g r' ∧ Respects g t r r' := by
  refine ⟨?_, ?_, ?_⟩
  · intro i s hs
    rw [hservers] at hs
    rw [hmap]
    exact hI i s hs
  · intro i hi
    rw [hmap, hi]
  · intro u i _ hframed
    rwa [Framed, hservers]

/-- A step that changes nothing. -/
theorem respects_refl (hI : Intact g r) : Intact g r ∧ Respects g t r r := respects_of_eq hI rfl rfl

/-- Building a server. -/
theorem intact_buildServer {g' : GroupId} {m : StateMgrId} (hI : Intact g r) :
    Intact g (r.buildServer t g' m) ∧ Respects g t r (r.buildServer t g' m) := by
  refine ⟨fun i s hs => ?_, fun i hi => hi, fun u i _ hframed => ?_⟩
  · by_cases hg : g' = g
    · subst hg
      rcases Registry.getElem?_buildServer_eq_some hs with hold | ⟨-, rfl⟩
      · exact hI i s hold
      · exact ⟨rfl, fun hnone => by cases hnone⟩
    · rw [Registry.servers_buildServer_of_ne r t m (Ne.symm hg)] at hs
      exact hI i s hs
  · obtain ⟨s, hs, hframe⟩ := hframed
    exact ⟨s, Registry.getElem?_buildServer hs, hframe⟩

/-- The server that was just built is held by the thread that built it. -/
theorem framed_buildServer (r : Registry) (m : StateMgrId) :
    Framed g t (r.buildServer t g m) (r.servers g).length :=
  ⟨_, by rw [Registry.servers_buildServer, List.getElem?_concat_length], rfl⟩

/-- An insertion, which never replaces an entry. -/
theorem intact_tryEmplace {g' : GroupId} {server : ℕ} (hI : Intact g r) :
    Intact g (r.tryEmplace g' server).1 ∧ Respects g t r (r.tryEmplace g' server).1 := by
  have hentry : ∀ i, r.raftServers g = some i → (r.tryEmplace g' server).1.raftServers g = some i :=
    fun i hi => PartialMap.emplace_eq_some_of_eq_some hi
  refine ⟨fun i s hs => ?_, hentry, fun u i _ hframed => hframed⟩
  obtain ⟨hlistener, hregistered⟩ := hI i s hs
  exact ⟨hlistener, fun hnone => hentry i (hregistered hnone)⟩

/-- The end of a frame whose server was inserted. -/
theorem intact_endFrame {server : ℕ} (hI : Intact g r) (hframed : Framed g t r server)
    (hregistered : r.raftServers g = some server) :
    Intact g (r.endFrame g server true).1 ∧ Respects g t r (r.endFrame g server true).1 ∧
      (r.endFrame g server true).2 = false := by
  obtain ⟨own, hown, howner⟩ := hframed
  have hservers : (r.endFrame g server true).1.servers g =
      (r.servers g).modify server
        fun s => { s with listener := s.listener && true, frame := none } :=
    Registry.servers_updateServer ..
  refine ⟨fun i s hs => ?_, ⟨fun i hi => hi, fun u i hu hother => ?_⟩, ?_⟩
  · change s.listener = true ∧ (s.frame = none → r.raftServers g = some i)
    rw [hservers] at hs
    by_cases hi : server = i
    · subst hi
      rw [List.getElem?_modify_eq, hown] at hs
      cases hs
      exact ⟨by simp [(hI server own hown).1], fun _ => hregistered⟩
    · rw [List.getElem?_modify_ne _ _ hi] at hs
      exact hI i s hs
  · -- A server in another thread's frame is not the one whose frame ends here.
    obtain ⟨s, hs, hframe⟩ := hother
    have hne : server ≠ i := by
      rintro rfl
      obtain rfl := Option.some.inj (hown.symm.trans hs)
      exact hu (Option.some.inj (hframe.symm.trans howner))
    refine ⟨s, ?_, hframe⟩
    rw [hservers, List.getElem?_modify_ne _ _ hne, hs]
  · simp [Registry.endFrame, hown, (hI server own hown).1]

/-- Operations on the server of another group. -/
theorem intact_updateServer_of_ne {g' : GroupId} {server : ℕ} {f : RaftServer → RaftServer}
    (hI : Intact g r) (hne : g' ≠ g) :
    Intact g (r.updateServer g' server f) ∧ Respects g t r (r.updateServer g' server f) :=
  respects_of_eq hI rfl (Registry.servers_updateServer_of_ne r server f (Ne.symm hne))

/-- A server of the group that nothing refers to would have been registered. -/
theorem Intact.not_unreferenced {server : ℕ} (hI : Intact g r) : ¬ r.Unreferenced g server := by
  rintro ⟨hany, hunregistered⟩
  obtain ⟨s, hs, hframe⟩ := (Option.any_eq_true _ _).mp hany
  exact hunregistered ((hI server s hs).2 (by simpa using hframe))

/-! ## The steps of a thread -/

/-- A thread whose join was accepted, where the group has its entry. -/
theorem outline_accepted {g' : GroupId} (caller : Caller)
    (hentry : g' = g → (r.raftServers g).isSome) : Outline g t r (caller.accepted g') := by
  cases caller with
  | createGroup => exact hentry
  | joinGroup => exact hentry
  | raftStep msg => exact fun hret => hentry hret.1

/-- A thread whose join was refused. -/
theorem outline_refused {g' : GroupId} {code : CmdResultCode} (caller : Caller)
    (hcode : code ≠ .ok) : Outline g t r (caller.refused g' code) := by
  cases caller with
  | createGroup => exact fun hret => hret.elim
  | joinGroup => exact fun hret => hret.elim
  | raftStep msg => exact fun hret => absurd hret.2 hcode

/-- A thread that comes back from a join of another group, or has to do with the listener of
another group. -/
theorem Landing.outline {g' : GroupId} {m : Option Proto.RaftGroupMsg} (hpc : Landing g' m pc)
    (hne : g' ≠ g) : Outline g t r pc := by
  cases hpc with
  | createWait | joined | leaveDestroy | listenerFind => exact fun hg => absurd hg hne
  | stepFind msg code => exact fun hret => absurd hret.1 hne
  | createRefused | joinRollback | threw | reaped => exact fun hret => hret.elim

/-- A thread that an exception takes out of its join. -/
theorem outline_unwind {g' : GroupId} (dies : Bool) :
    Outline g t r (afterListener dies g' .unwind) := by
  cases dies with
  | false => exact fun hret => hret.elim
  | true => exact fun _ => rfl

/-- A thread that starts anything but leaving the group. -/
theorem outline_entry {op : Operation} (hop : op ≠ .leaveGroup g) : Outline g t r op.entry := by
  cases op with
  | leaveGroup g' => exact fun hg => hop (by rw [hg])
  | _ => exact fun hret => hret.elim

/-- One step of a thread: the servers stay intact, the thread reaches its next
assertion and the other threads are respected. -/
theorem Moves.outline (hmove : Moves node t r pc input r' pc') (hI : Intact g r)
    (hpc : Outline g t r pc)
    (hwins : pc.inserts = some g ∨ pc.unwinds = some g → r.raftServers g = none)
    (hleave : input ≠ .call (.leaveGroup g)) :
    (Intact g r' ∧ Respects g t r r') ∧ Outline g t r' pc' := by
  have hquiet := respects_refl (t := t) hI
  cases hmove with
  | call op => exact ⟨hquiet, outline_entry fun h => hleave (by rw [h])⟩
  | lockFailed caller g' ty => exact ⟨hquiet, outline_refused caller (by decide)⟩
  | duplicate caller g' ty hfound =>
    exact ⟨hquiet, outline_accepted caller fun h => h ▸ hfound⟩
  | initRefused caller g' ty htype => exact ⟨hquiet, outline_refused caller (by decide)⟩
  | initReuse caller g' ty m htype hentry =>
    refine ⟨intact_buildServer hI, fun h => ?_⟩
    subst h
    exact framed_buildServer r m
  | initCreate caller g' ty m htype hentry hcreated =>
    have hI' : Intact g (r.emplaceManager g' (some m)) := hI
    obtain ⟨hintact, hrespects⟩ := intact_buildServer (t := t) (m := m) hI'
    refine ⟨⟨hintact, hrespects.entry, hrespects.framed⟩, fun h => ?_⟩
    subst h
    exact framed_buildServer (r.emplaceManager g' (some m)) m
  | initReuseAborted caller g' ty m dies => exact ⟨hquiet, outline_unwind dies⟩
  | initCreateAborted caller g' ty m dies =>
    exact ⟨respects_of_eq hI rfl rfl, outline_unwind dies⟩
  | insert caller g' server =>
    refine ⟨intact_tryEmplace hI, fun h => ?_⟩
    subst h
    -- The insertion happened, so the entry is the server in this frame.
    have hnone := hwins (Or.inl rfl)
    exact ⟨by simp [Registry.tryEmplace, hnone],
      by simp [Registry.tryEmplace, hnone], hpc rfl⟩
  | «return» caller g' server inserted =>
    by_cases h : g' = g
    · subst h
      obtain ⟨rfl, hregistered, hframed⟩ := hpc rfl
      obtain ⟨hintact, hrespects, hlives⟩ := intact_endFrame hI hframed hregistered
      refine ⟨⟨hintact, hrespects⟩, ?_⟩
      rw [hlives]
      refine outline_accepted caller fun _ => ?_
      rw [hrespects.entry server hregistered]
      rfl
    · exact ⟨intact_updateServer_of_ne hI h, (landing_afterListener ..).outline h⟩
  | listenerFound g' resume hfound =>
    refine ⟨hquiet, fun h => ?_⟩
    -- The listener of an exception would not have found the entry.
    subst h
    obtain rfl := hpc rfl
    rw [hwins (Or.inr rfl)] at hfound
    cases hfound
  | listenerMissing g' resume hnone =>
    refine ⟨hquiet, ?_⟩
    by_cases h : g' = g
    · obtain rfl := hpc h
      exact fun hret => hret.elim
    · exact (resume.landing_next g').outline h
  | listenerErase g' resume =>
    exact ⟨respects_of_eq hI (PartialMap.erase_of_ne (Ne.symm hpc)) rfl,
      (resume.landing_next g').outline hpc⟩
  | leaveKnown g' hfound => exact ⟨hquiet, hpc⟩
  | leaveFound g' server hfound => exact ⟨hquiet, hpc⟩
  | leaveMissing g' hnone => exact ⟨hquiet, hpc⟩
  | leaveShutdown g' server =>
    exact ⟨intact_updateServer_of_ne hI hpc, (landing_afterListener ..).outline hpc⟩
  | createWait g' hflag => exact ⟨respects_of_eq hI rfl rfl, hpc⟩
  | reap g' server hunreferenced =>
    have hne : g' ≠ g := fun h => (h ▸ hI).not_unreferenced hunreferenced
    exact ⟨intact_updateServer_of_ne hI hne, (landing_afterListener ..).outline hne⟩
  | _ => exact ⟨respects_of_eq hI rfl rfl, fun hret => hret.elim⟩

/-! ## Whole runs -/

/-- The invariant of all runs without a leaving thread and a losing join. -/
def JoinInvariant (g : GroupId) (c : Config) : Prop :=
  Intact g c.shared ∧ ∀ u, Outline g u c.shared (c.threads u)

/-- External events leave the servers alone. -/
theorem deliver_frame {event : External} (hdeliver : deliver r event = some r') :
    r'.raftServers = r.raftServers ∧ r'.servers = r.servers ∧
      r'.stateManagers = r.stateManagers ∧ r'.destroyed = r.destroyed := by
  cases event with
  | registerMgrType ty =>
    cases hdeliver
    exact ⟨rfl, rfl, rfl, rfl⟩
  | raftEvent g event =>
    cases hdeliver
    unfold Registry.genericRaftEventHandler
    split <;> exact ⟨rfl, rfl, rfl, rfl⟩

/-- What every step of the node does, by a thread or by an external event. -/
theorem step_respects {c c' : Config} {l : Label} (hc : JoinInvariant g c)
    (hwins : NoLosingJoin g c l) (hleave : ∀ u, l ≠ .thread u (.call (.leaveGroup g)))
    (hstep : step node c l = some c') :
    JoinInvariant g c' ∧
      ∀ i, c.shared.raftServers g = some i → c'.shared.raftServers g = some i := by
  obtain ⟨hI, hthreads⟩ := hc
  have hmoves : ∀ u input r' pc', l = .thread u input →
      exec node u c.shared (c.threads u) input = some (r', pc') →
      (Intact g r' ∧ Respects g u c.shared r') ∧ Outline g u r' pc' := by
    rintro u input r' pc' rfl hexec
    exact (moves_of_exec hexec).outline hI (hthreads u) hwins
      fun h => hleave u (by rw [h])
  have hevents : ∀ u event r', deliver c.shared event = some r' →
      Intact g r' ∧ Respects g u c.shared r' := by
    intro u event r' hdeliver
    obtain ⟨hmap, hservers, -, -⟩ := deliver_frame hdeliver
    exact respects_of_eq hI (by rw [hmap]) (by rw [hservers])
  have hentry : (Intact g c'.shared ∧ ∀ i, c.shared.raftServers g = some i →
      c'.shared.raftServers g = some i) ∧ ∀ u, Outline g u c'.shared (c'.threads u) := by
    refine Interleaving.step_outline (I := fun r' => Intact g r' ∧
      ∀ i, c.shared.raftServers g = some i → r'.raftServers g = some i) hstep hthreads ?_ ?_ ?_
    · intro u input r' pc' hl hexec
      obtain ⟨⟨hintact, hrespects⟩, hown⟩ := hmoves u input r' pc' hl hexec
      exact ⟨⟨hintact, hrespects.entry⟩, hown⟩
    · intro u input r' pc' v hl hexec hv hpc
      exact (hmoves u input r' pc' hl hexec).1.2.outline hv hpc
    · intro event r' _ hdeliver
      obtain ⟨hintact, hrespects⟩ := hevents 0 event r' hdeliver
      refine ⟨⟨hintact, hrespects.entry⟩, fun u hpc => ?_⟩
      exact (hevents (u + 1) event r' hdeliver).2.outline (by omega) hpc
  exact ⟨⟨hentry.1.1, hentry.2⟩, hentry.1.2⟩

/-- A thread whose join has returned finds the entry. -/
theorem JoinInvariant.entry {c : Config} (hc : JoinInvariant g c)
    (hreturned : JoinReturnedOk g (c.threads t)) : (c.shared.raftServers g).isSome := by
  have hpc := hc.2 t
  cases hat : c.threads t <;> rw [hat] at hreturned hpc <;>
    first | exact hpc hreturned | exact hreturned.elim

/-- A node that has just started. -/
theorem joinInvariant_start (types : List GroupType) : JoinInvariant g (start types) := by
  refine ⟨fun i s hs => ?_, fun u hret => hret.elim⟩
  simp [start, Registry.init] at hs

/-- In every run in which no `try_emplace` for the group finds an entry, no listener of a join
whose server's constructor threw finds one, and nobody starts to leave the group: once a
`joinRaftGroup` for it has returned `OK`, the group has an entry in every later state. -/
theorem registered_after_join {types : List GroupType} {front back : List Label} {c c' : Config}
    (hfront : Transition.run (step node) (start types) front = some c)
    (hreturned : JoinReturnedOk g (c.threads t))
    (hback : Transition.run (step node) c back = some c')
    (hleave : ∀ u, Interleaving.Action.thread u (.call (.leaveGroup g)) ∉ front ++ back)
    (hwins : Transition.Meets (step node) (NoLosingJoin g) (start types) (front ++ back)) :
    (c'.shared.raftServers g).isSome := by
  have hlabels : ∀ l ∈ front ++ back, ∀ u, l ≠ .thread u (.call (.leaveGroup g)) :=
    fun l hl u h => hleave u (h ▸ hl)
  obtain ⟨hmeetsFront, hmeetsBack⟩ := (hwins.and (.of_forall hlabels)).of_append hfront
  have hc : JoinInvariant g c := Transition.run_invariant_of_meets
    (fun _ _ _ hc hcond hstep => (step_respects hc hcond.1 hcond.2 hstep).1)
    (joinInvariant_start types) hmeetsFront hfront
  have hc' := Transition.run_invariant_of_meets
    (I := fun c => JoinInvariant g c ∧ (c.shared.raftServers g).isSome) ?_
    ⟨hc, hc.entry hreturned⟩ hmeetsBack hback
  · exact hc'.2
  · intro s l s' ⟨hs, hentry⟩ hcond hstep
    obtain ⟨hs', hkeeps⟩ := step_respects hs hcond.1 hcond.2 hstep
    obtain ⟨i, hi⟩ := Option.isSome_iff_exists.mp hentry
    exact ⟨hs', Option.isSome_iff_exists.mpr ⟨i, hkeeps i hi⟩⟩

/-- A node with a default group type. -/
def sampleNode : Node where
  serviceAddress := 7
  defaultGroupType := "raft"
  text := canonicalText

/-- Two joins that overlap. Both have passed the quick check when the constructor of the second
server throws; its listener finds no entry, and then the first join inserts and returns. -/
def overlappingJoins : List Label :=
  .thread 0 (.call (.createGroup 1 "raft")) :: goes 0 4 10 ++
    .thread 1 (.call (.joinGroup 1 "raft" (some 11))) :: goes 1 3 0 ++
    [.thread 1 (.go { construction := .threw true })] ++ goes 1 1 0 ++ goes 0 2 0

/-- A third join of the group finds the duplicate. -/
def laterJoin : List Label := .thread 2 (.call (.createGroup 1 "raft")) :: goes 2 3 0

/-- The entry of the first join is there although the second one failed beside it. -/
theorem registered_after_overlappingJoins :
    ∃ c c', Transition.run (step sampleNode) (start ["raft"]) overlappingJoins = some c ∧
      JoinReturnedOk 1 (c.threads 0) ∧ c.threads 1 = .done (.threw 1) ∧
      Transition.run (step sampleNode) c laterJoin = some c' ∧ JoinReturnedOk 1 (c'.threads 2) ∧
      (c'.shared.raftServers 1).isSome := by
  obtain ⟨c, c', hfront, hreturned, hthrew, hback, hlater⟩ : ∃ c c',
      Transition.run (step sampleNode) (start ["raft"]) overlappingJoins = some c ∧
      JoinReturnedOk 1 (c.threads 0) ∧ c.threads 1 = .done (.threw 1) ∧
      Transition.run (step sampleNode) c laterJoin = some c' ∧ JoinReturnedOk 1 (c'.threads 2) :=
    ⟨_, _, rfl, rfl, rfl, rfl, rfl⟩
  refine ⟨c, c', hfront, hreturned, hthrew, hback, hlater,
    registered_after_join hfront hreturned hback ?_ ?_⟩
  · simp [overlappingJoins, laterJoin, goes]
  · decide

/-- Two `create_group` calls that both pass the quick check; the first one wins
the insertion and returns. -/
def racingJoins : List Label :=
  [.thread 0 (.call (.createGroup 1 "raft"))] ++ goes 0 4 10 ++
    [.thread 1 (.call (.createGroup 1 "raft"))] ++ goes 1 4 11 ++ goes 0 2 0

/-- The second call then loses the insertion, and the listener of its server
erases the entry of the first one. -/
theorem entry_lost_by_racingJoins :
    ∃ c c', Transition.run (step sampleNode) (start ["raft"]) racingJoins = some c ∧
      JoinReturnedOk 1 (c.threads 0) ∧ (c.shared.raftServers 1).isSome ∧
      Transition.run (step sampleNode) c (goes 1 4 0) = some c' ∧
      JoinReturnedOk 1 (c'.threads 1) ∧ c'.shared.raftServers 1 = none :=
  ⟨_, _, rfl, rfl, rfl, rfl, rfl, rfl⟩

/-- The same, where the second call does not even come to its insertion: the constructor of its
server throws, and the listener dies with the exception. -/
example :
    ∃ c c', Transition.run (step sampleNode) (start ["raft"])
        (.thread 0 (.call (.createGroup 1 "raft")) :: goes 0 4 10 ++
          .thread 1 (.call (.createGroup 1 "raft")) :: goes 1 3 11 ++ goes 0 2 0) = some c ∧
      JoinReturnedOk 1 (c.threads 0) ∧
      Transition.run (step sampleNode) c
        (.thread 1 (.go { construction := .threw true }) :: goes 1 2 0) = some c' ∧
      c'.threads 1 = .done (.threw 1) ∧ c'.shared.raftServers 1 = none :=
  ⟨_, _, rfl, rfl, rfl, rfl, rfl⟩

end NuraftMesg.Manager
