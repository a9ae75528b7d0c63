import NuraftMesg.DataService.Restart

/-!
# The server that the manager starts with

`init_messaging` calls `start`, which creates the messaging service and then calls
`restart_server`. When `GrpcServer::make` fails there, `restart_server` logs it and returns:
the messaging service is installed, there is no server, and the pointer of the data service
was never set. The destructor asks for the service and uses the server; a bind uses the
pointer of the data service. This file adds the start and the end of a manager to the
threads of `Restart` and says when both find a server.
-/

namespace NuraftMesg.DataService.Startup

open Transition Restart

/-- What `sisl::GrpcServer::make` comes to. -/
inductive Make where
  | server
  | null
  /-- A `std::runtime_error`. -/
  | throws
  deriving DecidableEq

/-- `restart_server` goes on with a server only. -/
def Make.succeeds : Make → Bool
  | .server => true
  | .null | .throws => false

/-- A manager with the threads that restart its server and bind handlers. -/
structure State where
  node : Restart.Config
  /-- `_mesg_service` is set. -/
  mesgService : Bool
  /-- The thread that called `start` first. -/
  starter : Option ℕ
  /-- `~ManagerImpl` has run. -/
  destroyed : Bool

inductive Label where
  /-- `start`: install the messaging service under the lock and enter `restart_server`. -/
  | start (t : ℕ) (andDataSvc : Bool)
  /-- Call `restart_server` or `bind_data_service_request`. -/
  | call (t : ℕ) (op : Operation)
  | go (t : ℕ) (made : Make)
  /-- `~ManagerImpl`. -/
  | destroy

namespace State

variable (s : State)

/-- The messaging service is created by the first `start` and keeps its data service enabled or
not. -/
def install (t : ℕ) (andDataSvc : Bool) : State :=
  if s.mesgService then s
  else { s with
    mesgService := true
    starter := some t
    node := { s.node with shared := { s.node.shared with enabled := andDataSvc } } }

/-- `start` has returned. -/
def Started : Prop := ∃ t result, s.starter = some t ∧ s.node.threads t = .restartDone result

end State

/-- One step; a null pointer that is used, one that was never set, and a failed assertion have
no behaviour. -/
def step (text : UuidText) (s : State) : Label → Option State
  | .start t andDataSvc =>
    if s.destroyed ∨ s.node.shared.managerLock ≠ none then none
    else (Restart.step text (s.install t andDataSvc).node (.thread t (.call .restart))).map
      fun c => { s.install t andDataSvc with node := c }
  | .call t op =>
    -- the assertion on `_mesg_service`
    if s.destroyed ∨ s.mesgService = false then none
    else (Restart.step text s.node (.thread t (.call op))).map fun c => { s with node := c }
  | .go t made =>
    if s.destroyed then none
    else (Restart.step text s.node (.thread t (.go made.succeeds))).map fun c =>
      { s with node := c }
  | .destroy =>
    if s.destroyed then none
    else if s.mesgService ∧ s.node.shared.grpcServer = none then none
    else some { s with destroyed := true }

/-- A manager before `start`. -/
def start : State := ⟨Restart.start false, false, none, false⟩

/-- A restart has reset `_grpc_server` and not yet assigned its server to it. -/
def resetting : Pc → Bool
  | .restartInstall _ => true
  | _ => false

/-- A restart has reset `_grpc_server` and not yet called `set_grpc_server`: the data service
points to the server that is being destroyed. -/
def replacing : Pc → Bool
  | .restartInstall _ | .restartAssociate _ => true
  | _ => false

/-- The condition on a step: a server is made as long as there is none, and no new handler is
bound while a restart is between `reset()` and `set_grpc_server`. -/
def Careful (s : State) : Label → Prop
  | .go t made =>
    (s.node.threads t = .restartMake → s.node.shared.grpcServer = none → made = .server) ∧
      ∀ name cb, s.node.threads t = .bindSection name cb → name ∉ s.node.shared.requestMap →
        ∀ u, replacing (s.node.threads u) = false
  | _ => True

/-- There is a server, the data service points to it, and whoever uses the one or the other
finds it. Exempt are the states in which a restart has reset the one pointer and not yet set it,
or the other, again. -/
structure Safe (text : UuidText) (s : State) : Prop where
  server : s.mesgService = true → (∀ u, resetting (s.node.threads u) = false) →
    s.node.shared.grpcServer ≠ none
  pointer : s.node.shared.enabled = true → (∀ u, replacing (s.node.threads u) = false) →
    s.node.shared.dataServer = s.node.shared.grpcServer
  destroy : s.destroyed = false → (∀ u, resetting (s.node.threads u) = false) →
    (step text s .destroy).isSome
  bind : ∀ t made, s.destroyed = false → Careful s (.go t made) →
    ((∃ name cb, s.node.threads t = .bindCheck name cb) ∨
      ∃ name cb, s.node.threads t = .bindSection name cb) → (step text s (.go t made)).isSome
  notMade : ∀ t made, s.destroyed = false → s.node.threads t = .restartMake →
    s.node.shared.managerLock = none → made ≠ .server → ∃ s',
      step text s (.go t made) = some s' ∧ s'.node.shared = s.node.shared ∧
        s'.node.threads t = .restartDone .notMade

variable {text : UuidText} {s s' : Shared} {t u : ℕ} {pc pc' : Pc} {input : Input}
  {name : String} {cb : HandlerId} {result : Bound}

/-! ## What the threads rely on -/

/-- The data service, if it is used, points to the server of the manager. -/
def Aligned (s : Shared) : Prop := s.enabled = true → s.dataServer = s.grpcServer

/-- The server of the manager exists, and the pointers agree while no restart is under way. -/
structure Sane (s : Shared) : Prop where
  exists_server : ∀ i, s.grpcServer = some i → i < s.servers.length
  aligned : s.managerLock = none → Aligned s

/-- What a thread relies on at its program counter. -/
def Rests (s : Shared) : Pc → Prop
  | .bindSection .. => s.enabled = true
  | .restartReset i => i < s.servers.length ∧ Aligned s
  | .restartInstall i => i < s.servers.length
  | .restartAssociate i => s.grpcServer = some i
  | .restartRun i | .restartRebind i | .restartRaftStep i => s.grpcServer = some i ∧ Aligned s
  | .restartDone _ => s.enabled = true → s.dataServer ≠ none
  | _ => True

/-- The assertion of a thread. -/
def Holds (t : ℕ) (s : Shared) (pc : Pc) : Prop :=
  (pc.locks = true ↔ s.managerLock = some t) ∧ Rests s pc

/-- A bind leaves the pointers and the number of servers alone. -/
theorem bind_pointers (hbind : s.bind name cb = some (s', result)) :
    s'.dataServer = s.dataServer ∧ s'.servers.length = s.servers.length := by
  rcases bind_cases hbind with ⟨-, -, rfl⟩ | ⟨-, i, server, -, -, -, -, rfl⟩
  · exact ⟨rfl, rfl⟩
  · exact ⟨rfl, List.length_set ..⟩

/-- Alignment is about the two pointers and the flag. -/
theorem Aligned.of_eq (hs : Aligned s) (henabled : s'.enabled = s.enabled)
    (hgrpc : s'.grpcServer = s.grpcServer) (hdata : s'.dataServer = s.dataServer) :
    Aligned s' := by
  intro hen
  rw [hdata, hgrpc]
  exact hs (henabled.symm.trans hen)

/-- With a server the pointer of the data service is set. -/
theorem Aligned.dataServer_ne_none (hs : Aligned s) (hgrpc : s.grpcServer ≠ none)
    (henabled : s.enabled = true) : s.dataServer ≠ none := by
  rw [hs henabled]
  exact hgrpc

/-- Sanity is about the pointers, the flag, the number of servers and the lock. -/
theorem Sane.of_eq (hs : Sane s) (henabled : s'.enabled = s.enabled)
    (hgrpc : s'.grpcServer = s.grpcServer) (hdata : s'.dataServer = s.dataServer)
    (hlength : s'.servers.length = s.servers.length) (hlock : s'.managerLock = s.managerLock) :
    Sane s' := by
  constructor
  · intro i hi
    rw [hlength]
    exact hs.exists_server i (hgrpc.symm.trans hi)
  · intro hfree
    exact (hs.aligned (hlock.symm.trans hfree)).of_eq henabled hgrpc hdata

/-- A restart that has installed its server lets go of the lock when it ends, however it ends. -/
theorem Sane.released {servers : List GrpcServer} {i : ℕ} (hs : Sane s)
    (hrests : s.grpcServer = some i ∧ Aligned s) (hlength : servers.length = s.servers.length)
    (ended : Restarted) :
    Sane { s with servers := servers, managerLock := none } ∧
      Holds t { s with servers := servers, managerLock := none } (.restartDone ended) := by
  obtain ⟨hgrpc, haligned⟩ := hrests
  refine ⟨⟨fun j hj => ?_, fun _ => haligned⟩, ?_, ?_⟩
  · rw [hlength]
    exact hs.exists_server j hj
  · simp [Pc.locks]
  · exact haligned.dataServer_ne_none (Option.ne_none_iff_exists'.mpr ⟨i, hgrpc⟩)

/-- One step of a thread. -/
theorem own_step (hs : Sane s) (hpc : Holds t s pc)
    (hmade : pc' = .restartDone .notMade → s.managerLock = none ∧ s.grpcServer ≠ none)
    (hmove : Moves text t s pc input s' pc') : Sane s' ∧ Holds t s' pc' := by
  obtain ⟨hlocks, hrests⟩ := hpc
  have hheld : pc.locks = true → s.managerLock ≠ none := by
    intro h
    rw [hlocks.mp h]
    exact Option.some_ne_none t
  cases hmove with
  | call op => cases op <;> exact ⟨hs, hlocks, trivial⟩
  | refused name cb => exact ⟨hs, hlocks, trivial⟩
  | enter name cb henabled => exact ⟨hs, hlocks, henabled⟩
  | bind name cb result hbind =>
    obtain ⟨henabled, hlock, hgrpc, -⟩ := bind_frame hbind
    obtain ⟨hdata, hlength⟩ := bind_pointers hbind
    refine ⟨hs.of_eq henabled hgrpc hdata hlength hlock, ?_, trivial⟩
    rw [hlock]
    exact hlocks
  | make hfree =>
    refine ⟨⟨fun i hi => ?_, fun h => ?_⟩, ⟨fun _ => rfl, fun _ => rfl⟩, ?_, hs.aligned hfree⟩
    · have hlt := hs.exists_server i hi
      simp only [List.length_append, List.length_singleton]
      omega
    · cases h
    · simp
  | notMade =>
    obtain ⟨hfree, hgrpc⟩ := hmade rfl
    exact ⟨hs, hlocks, (hs.aligned hfree).dataServer_ne_none hgrpc⟩
  | reset i =>
    exact ⟨⟨fun j hj => (by cases hj), fun hfree => absurd hfree (hheld rfl)⟩, hlocks, hrests.1⟩
  | install i =>
    refine ⟨⟨fun j hj => ?_, fun hfree => absurd hfree (hheld rfl)⟩, hlocks, rfl⟩
    cases hj
    exact hrests
  | associate i henabled =>
    refine ⟨⟨fun j hj => ?_, fun hfree => absurd hfree (hheld rfl)⟩, hlocks, hrests, ?_⟩
    · simp only [Shared.update, List.length_modify]
      exact hs.exists_server j hj
    · intro _
      exact hrests.symm
  | associateNothing i hdisabled =>
    refine ⟨hs, hlocks, hrests, fun henabled => ?_⟩
    rw [hdisabled] at henabled
    cases henabled
  | run i => exact ⟨hs.of_eq rfl rfl rfl (List.length_modify ..) rfl, hlocks, hrests⟩
  | rebind i hall =>
    obtain ⟨servers, rfl, hlength⟩ := rebindAll_eq hall
    exact ⟨hs.of_eq rfl rfl rfl hlength rfl, hlocks, hrests⟩
  | rebindThrew i hall =>
    obtain ⟨servers, rfl, hlength⟩ := rebindAll_eq hall
    exact hs.released hrests hlength _
  | raftStep i => exact hs.released hrests (List.length_modify ..) _

/-- The pointer of the data service is set once and for all. -/
theorem dataServer_kept (hmove : Moves text t s pc input s' pc') (hdata : s.dataServer ≠ none) :
    s'.dataServer ≠ none := by
  cases hmove with
  | bind name cb result hbind =>
    rw [(bind_pointers hbind).1]
    exact hdata
  | associate i henabled => exact Option.some_ne_none i
  | rebind i hall | rebindThrew i hall =>
    obtain ⟨servers, rfl, -⟩ := rebindAll_eq hall
    exact hdata
  | _ => exact hdata

/-- No thread disturbs another one. -/
theorem other_step {pcu : Pc} (ht : Holds t s pc) (hu : Holds u s pcu) (hne : u ≠ t)
    (hmove : Moves text t s pc input s' pc') : Holds u s' pcu := by
  refine ⟨hmove.locks_iff ht.1.mp hu.1 hne, ?_⟩
  have hrests := hu.2
  cases hlocks : pcu.locks with
  | false =>
    have henabled := hmove.framed.enabled
    cases pcu with
    | bindSection name cb => exact henabled.trans hrests
    | restartDone result =>
      intro hen
      exact dataServer_kept hmove (hrests (henabled.symm.trans hen))
    | idle | bindCheck | bindDone | restartMake => trivial
    | _ => cases hlocks
  | true =>
    have hlock := hu.1.mp hlocks
    rcases hmove.effect with rfl | ⟨name, cb, result, rfl, hbind⟩ | ⟨hfree | hmine, -⟩
    · exact hrests
    · obtain ⟨henabled, -, hgrpc, -⟩ := bind_frame hbind
      obtain ⟨hdata, hlength⟩ := bind_pointers hbind
      cases pcu with
      | restartReset i =>
        refine ⟨?_, hrests.2.of_eq henabled hgrpc hdata⟩
        rw [hlength]
        exact hrests.1
      | restartInstall i =>
        have hlt : i < s.servers.length := hrests
        exact hlt.trans_eq hlength.symm
      | restartAssociate i => exact hgrpc.trans hrests
      | restartRun i | restartRebind i | restartRaftStep i =>
        exact ⟨hgrpc.trans hrests.1, hrests.2.of_eq henabled hgrpc hdata⟩
      | _ => cases hlocks
    · rw [hlock] at hfree
      cases hfree
    · exact absurd (Option.some.inj (hlock.symm.trans (ht.1.mp hmine))) hne

/-- A restart gives up only when no server could be made. -/
theorem restartMake_of_notMade (hexec : exec text t s pc input = some (s', pc'))
    (hpc' : pc' = .restartDone .notMade) :
    pc = .restartMake ∧ input = .go false ∧ s.managerLock = none := by
  cases moves_of_exec hexec with
  | call op => cases op <;> cases hpc'
  | notMade =>
    refine ⟨rfl, rfl, ?_⟩
    by_contra hheld
    simp [exec, advance, hheld] at hexec
  | _ => cases hpc'

/-! ## Whole runs -/

/-- A step of the node keeps it sane, if a restart without a new server finds an old one. -/
theorem node_step {c c' : Config} (hs : Sane c.shared)
    (hthreads : ∀ u, Holds u c.shared (c.threads u))
    (hmade : c.threads t = .restartMake → input = .go false → c.shared.grpcServer ≠ none)
    (hstep : Restart.step text c (.thread t input) = some c') :
    Sane c'.shared ∧ ∀ u, Holds u c'.shared (c'.threads u) := by
  refine Interleaving.step_outline hstep hthreads ?_ ?_ fun event => event.elim
  · rintro t input s' pc' heq hexec
    cases heq
    refine own_step hs (hthreads t) (fun hpc' => ?_) (moves_of_exec hexec)
    obtain ⟨hpc, hinput, hfree⟩ := restartMake_of_notMade hexec hpc'
    exact ⟨hfree, hmade hpc hinput⟩
  · rintro t input s' pc' u heq hexec hne hu
    cases heq
    exact other_step (hthreads t) hu hne (moves_of_exec hexec)

/-- Once a restart has ended, in whatever way, a server is missing only during another one. -/
theorem bridged_of_node_step {c c' : Config} {ended : Restarted}
    (hthreads : ∀ u, Holds u c.shared (c.threads u))
    (hmade : c.threads t = .restartMake → input = .go false → c.shared.grpcServer ≠ none)
    (hbridged : ∀ u ended, c.threads u = .restartDone ended → Bridged c)
    (hstep : Restart.step text c (.thread t input) = some c')
    (hpc : c'.threads u = .restartDone ended) : Bridged c' := by
  obtain ⟨hexec, hothers⟩ := Interleaving.exec_of_step hstep
  by_cases hut : u = t
  · subst hut
    obtain ⟨hsame, hbefore⟩ := (moves_of_exec hexec).ended hpc
    have hrests := (hthreads u).2
    have hsome : c.shared.grpcServer ≠ none := by
      rcases hbefore with ⟨-, rfl⟩ | ⟨i, ⟨hpc, -⟩ | hpc⟩
      · obtain ⟨hmake, hinput, -⟩ := restartMake_of_notMade hexec hpc
        exact hmade hmake hinput
      · rw [hpc] at hrests
        exact Option.ne_none_iff_exists'.mpr ⟨i, hrests.1⟩
      · rw [hpc] at hrests
        exact Option.ne_none_iff_exists'.mpr ⟨i, hrests.1⟩
    intro hnone
    exact absurd (hsame.symm.trans hnone) hsome
  · rw [hothers u hut] at hpc
    exact (hbridged u ended hpc).step (fun u => (hthreads u).1) hstep

/-- The invariant of a manager. -/
structure Inv (s : State) : Prop where
  sane : Sane s.node.shared
  threads : ∀ t, Holds t s.node.shared (s.node.threads t)
  bridged : ∀ u ended, s.node.threads u = .restartDone ended → Bridged s.node
  /-- Nothing happens before the messaging service is installed. -/
  before : s.mesgService = false → s.node.shared.grpcServer = none ∧
    s.node.shared.dataServer = none ∧ ∀ t, s.node.threads t = .idle

/-- At the beginning every thread is idle. -/
theorem inv_start : Inv start := by
  refine ⟨⟨fun i hi => ?_, fun _ _ => rfl⟩, fun t => ⟨⟨fun h => ?_, fun h => ?_⟩, trivial⟩,
    fun _ _ hpc => (by cases hpc), fun _ => ⟨rfl, rfl, fun _ => rfl⟩⟩
  · cases hi
  · cases h
  · cases h

variable {m m' : State} {l : Label}

/-- The first `start` finds a manager in which nothing has happened. -/
theorem Inv.install (hm : Inv m) (t : ℕ) (andDataSvc : Bool) :
    Inv (m.install t andDataSvc) ∧ (m.install t andDataSvc).mesgService = true := by
  unfold State.install
  split
  · next hservice => exact ⟨hm, hservice⟩
  · next hservice =>
    obtain ⟨hgrpc, hdata, hidle⟩ := hm.before (by simpa using hservice)
    refine ⟨⟨⟨hm.sane.exists_server, fun _ _ => ?_⟩, fun u => ⟨(hm.threads u).1, ?_⟩,
      fun u ended hpc => ?_, fun hnone => (by cases hnone)⟩, rfl⟩
    · rw [hgrpc, hdata]
    · rw [hidle u]
      trivial
    · cases (hidle u).symm.trans hpc

/-- A step of a thread keeps the invariant, if a server is made where there is none. -/
theorem Inv.of_node_step {c : Config} (hm : Inv m)
    (hmade : m.node.threads t = .restartMake → input = .go false →
      m.node.shared.grpcServer ≠ none)
    (hstep : Restart.step text m.node (.thread t input) = some c)
    (hservice : m.mesgService = true) : Inv { m with node := c } := by
  obtain ⟨hsane, hthreads⟩ := node_step hm.sane hm.threads hmade hstep
  refine ⟨hsane, hthreads, fun u ended hpc => ?_, fun hnone => ?_⟩
  · exact bridged_of_node_step hm.threads hmade hm.bridged hstep hpc
  · cases hservice.symm.trans hnone

/-- A thread that goes on has been called, so the messaging service is installed. -/
theorem Inv.mesgService_of_go {c : Config} {made : Bool} (hm : Inv m)
    (hstep : Restart.step text m.node (.thread t (.go made)) = some c) : m.mesgService = true := by
  by_contra hservice
  obtain ⟨r', pc', hexec, -⟩ := Interleaving.step_thread hstep
  rw [(hm.before (by simpa using hservice)).2.2 t] at hexec
  cases hexec

/-- The invariant is kept by a careful step. -/
theorem Inv.step (hm : Inv m) (hcareful : Careful m l) (hstep : Startup.step text m l = some m') :
    Inv m' := by
  cases l with
  | start t andDataSvc =>
    simp only [Startup.step] at hstep
    split at hstep
    · cases hstep
    · obtain ⟨c, hc, rfl⟩ := Option.map_eq_some_iff.mp hstep
      obtain ⟨hinstalled, hservice⟩ := hm.install t andDataSvc
      exact hinstalled.of_node_step (fun _ h => by cases h) hc hservice
  | call t op =>
    simp only [Startup.step] at hstep
    split at hstep
    · cases hstep
    · next hservice =>
      obtain ⟨c, hc, rfl⟩ := Option.map_eq_some_iff.mp hstep
      exact hm.of_node_step (fun _ h => by cases h) hc (by simpa using (not_or.mp hservice).2)
  | go t made =>
    simp only [Startup.step] at hstep
    split at hstep
    · cases hstep
    · obtain ⟨c, hc, rfl⟩ := Option.map_eq_some_iff.mp hstep
      refine hm.of_node_step (fun hpc hfails hnone => ?_) hc (hm.mesgService_of_go hc)
      rw [hcareful.1 hpc hnone] at hfails
      cases hfails
  | destroy =>
    simp only [Startup.step] at hstep
    split at hstep
    · cases hstep
    · split at hstep
      · cases hstep
      · cases hstep
        exact ⟨hm.sane, hm.threads, hm.bridged, hm.before⟩

/-! ## The uses -/

/-- The pointers agree unless a restart has reset the one and not yet set the other. -/
theorem Inv.aligned (hm : Inv m) (hnone : ∀ u, replacing (m.node.threads u) = false) :
    Aligned m.node.shared := by
  cases hlock : m.node.shared.managerLock with
  | none => exact hm.sane.aligned hlock
  | some u =>
    obtain ⟨hlocks, hrests⟩ := hm.threads u
    have hheld := hlocks.mpr hlock
    cases hpc : m.node.threads u with
    | restartReset i | restartRun i | restartRebind i | restartRaftStep i =>
      rw [hpc] at hrests
      exact hrests.2
    | restartInstall i | restartAssociate i =>
      have hreplacing := hnone u
      rw [hpc] at hreplacing
      cases hreplacing
    | _ =>
      rw [hpc] at hheld
      cases hheld

/-- A thread that can go on does so. -/
theorem step_go {made : Make} (hdestroyed : m.destroyed = false)
    (hadvance : advance t m.node.shared made.succeeds (m.node.threads t) = some (s', pc')) :
    step text m (.go t made) =
      some { m with node := ⟨s', Function.update m.node.threads t pc'⟩ } := by
  simp only [step, hdestroyed, Bool.false_eq_true, if_false, step_of_advance hadvance,
    Option.map_some]

/-- A thread that can go on is not stuck. -/
theorem isSome_step_go {made : Make} (hdestroyed : m.destroyed = false)
    (hadvance : (advance t m.node.shared made.succeeds (m.node.threads t)).isSome) :
    (step text m (.go t made)).isSome := by
  obtain ⟨⟨s', pc'⟩, hsome⟩ := Option.isSome_iff_exists.mp hadvance
  rw [step_go hdestroyed hsome]
  rfl

/-- A bind finds a server in its section. -/
theorem isSome_bind (hs : Sane s) (henabled : s.enabled = true)
    (hnew : name ∉ s.requestMap → s.grpcServer ≠ none ∧ Aligned s) : (s.bind name cb).isSome := by
  by_cases hname : name ∈ s.requestMap
  · rw [bind_of_mem hname]
    rfl
  · obtain ⟨hgrpc, haligned⟩ := hnew hname
    obtain ⟨i, hi⟩ := Option.ne_none_iff_exists'.mp hgrpc
    have hdata : s.dataServer = some i := (haligned henabled).trans hi
    have hserver : i < s.servers.length := hs.exists_server i hi
    simp [Shared.bind, hname, hdata, hi, hserver]

/-- After `start` there is a server, unless a restart has just reset the pointer to it. -/
theorem Inv.grpcServer (hm : Inv m) (hstarted : m.Started)
    (hnone : ∀ u, resetting (m.node.threads u) = false) : m.node.shared.grpcServer ≠ none := by
  obtain ⟨t₀, ended, -, hdone⟩ := hstarted
  intro hmissing
  obtain ⟨v, i, -, hpc⟩ := hm.bridged t₀ ended hdone hmissing
  have hresetting := hnone v
  rw [hpc] at hresetting
  cases hresetting

/-- A restart that has reset the pointer is replacing the server. -/
theorem resetting_of_replacing (hreplacing : replacing pc = false) : resetting pc = false := by
  cases pc with
  | restartInstall i => cases hreplacing
  | _ => rfl

/-- After `start` a careful run is safe. -/
theorem Inv.safe (hm : Inv m) (hstarted : m.Started) : Safe text m := by
  have hgrpc := hm.grpcServer hstarted
  obtain ⟨t₀, result, hstarter, hdone⟩ := hstarted
  have hdata := (hm.threads t₀).2
  rw [hdone] at hdata
  constructor
  · exact fun _ => hgrpc
  · exact fun henabled hnone => hm.aligned hnone henabled
  · intro hdestroyed hnone
    simp [Startup.step, hdestroyed, hgrpc hnone]
  · rintro t made hdestroyed hcareful (⟨name, cb, hpc⟩ | ⟨name, cb, hpc⟩)
    · apply isSome_step_go hdestroyed
      rw [hpc]
      simp only [advance]
      by_cases henabled : m.node.shared.enabled = true
      · rw [if_pos henabled, if_neg (hdata henabled)]
        cases cb <;> rfl
      · rw [if_neg henabled]
        rfl
    · apply isSome_step_go hdestroyed
      have henabled := (hm.threads t).2
      rw [hpc] at henabled ⊢
      simp only [advance, Option.isSome_map]
      refine isSome_bind hm.sane henabled fun hname => ?_
      have hnone := hcareful.2 name cb hpc hname
      exact ⟨hgrpc fun u => resetting_of_replacing (hnone u), hm.aligned hnone⟩
  · intro t made hdestroyed hpc hfree hmade
    have hfails : made.succeeds = false := by
      cases made with
      | server => exact absurd rfl hmade
      | null => rfl
      | throws => rfl
    have hadvance : advance t m.node.shared made.succeeds (m.node.threads t) =
        some (m.node.shared, .restartDone .notMade) := by
      rw [hpc, hfails]
      simp [advance, hfree]
    exact ⟨_, step_go hdestroyed hadvance, rfl, Function.update_self ..⟩

/-- In every run in which a server is made as long as there is none, and no new handler is bound
while a restart is between `reset()` and `set_grpc_server`: once `start` has returned, there is a
server and the data service points to it, the destructor and every bind find it, and a restart
that cannot make a server changes nothing. While a restart is between `reset()` and the assignment
there is no server, and until `set_grpc_server` the data service points to the old one. -/
theorem server_present {labels : List Label} (hrun : run (step text) start labels = some m)
    (hcareful : Meets (step text) Careful start labels) (hstarted : m.Started) :
    Safe text m := by
  have hm : Inv m := run_invariant_of_meets (fun _ _ _ hm hcond hstep => hm.step hcond hstep)
    inv_start hcareful hrun
  exact hm.safe hstarted

/-- `start` with the data service, a restart that makes no server, and a bind. -/
def startThenNotMade : List Label :=
  .start 0 true :: List.replicate 7 (.go 0 .server) ++
    [.call 1 .restart, .go 1 .throws, .call 2 (.bind "read" 1 (some 10))]

/-- The step is careful if it makes a server and binds nothing. -/
theorem careful_go_server (hpc : ∀ name cb, m.node.threads t ≠ .bindSection name cb) :
    Careful m (.go t .server) :=
  ⟨fun _ _ => rfl, fun name cb hbind => absurd hbind (hpc name cb)⟩

/-- The bind finds the server that `start` made, and so does the destructor. -/
theorem safe_after_startThenNotMade :
    ∃ m, run (step canonicalText) start startThenNotMade = some m ∧ m.Started ∧
      m.node.threads 1 = .restartDone .notMade ∧ m.node.shared.grpcServer ≠ none ∧
      (step canonicalText m .destroy).isSome ∧ (step canonicalText m (.go 2 .server)).isSome := by
  obtain ⟨m, hrun, hstarted, hfirst, hnotMade, hbind, hothers, hservice, hdestroyed⟩ : ∃ m,
      run (step canonicalText) start startThenNotMade = some m ∧ m.Started ∧
      m.node.threads 0 = .restartDone .returned ∧ m.node.threads 1 = .restartDone .notMade ∧
      m.node.threads 2 = .bindCheck (getGenericMethodName canonicalText "read" 1) (some 10) ∧
      (∀ u, m.node.threads (u + 3) = .idle) ∧ m.mesgService = true ∧ m.destroyed = false :=
    ⟨_, rfl, ⟨0, _, rfl, rfl⟩, rfl, rfl, rfl, fun _ => rfl, rfl, rfl⟩
  have hquiet : ∀ u, resetting (m.node.threads u) = false := by
    intro u
    match u with
    | 0 => rw [hfirst]; rfl
    | 1 => rw [hnotMade]; rfl
    | 2 => rw [hbind]; rfl
    | u + 3 => rw [hothers u]; rfl
  have hcareful : Meets (step canonicalText) Careful start startThenNotMade :=
    .cons rfl trivial <| .cons rfl (careful_go_server nofun) <|
      .cons rfl (careful_go_server nofun) <| .cons rfl (careful_go_server nofun) <|
      .cons rfl (careful_go_server nofun) <| .cons rfl (careful_go_server nofun) <|
      .cons rfl (careful_go_server nofun) <| .cons rfl (careful_go_server nofun) <|
      .cons rfl trivial <| .cons rfl ⟨fun _ => nofun, nofun⟩ <| .cons rfl trivial trivial
  have hsafe := server_present hrun hcareful hstarted
  have hnext : Careful m (.go 2 .server) := careful_go_server (by rw [hbind]; nofun)
  exact ⟨m, hrun, hstarted, hnotMade, hsafe.server hservice hquiet, hsafe.destroy hdestroyed hquiet,
    hsafe.bind 2 .server hdestroyed hnext (Or.inl ⟨_, _, hbind⟩)⟩

/-- `start` makes no server; then a handler is bound. -/
def startNotMade : List Label :=
  [.start 0 true, .go 0 .throws, .call 1 (.bind "read" 1 (some 10))]

/-- `start` has returned, with a messaging service and no server; neither the bind nor the
destructor can go on. -/
theorem no_server_after_startNotMade :
    ∃ m, run (step canonicalText) start startNotMade = some m ∧ m.Started ∧
      m.mesgService = true ∧ m.node.shared.grpcServer = none ∧
      step canonicalText m .destroy = none ∧
      step canonicalText m (.go 1 .server) = none :=
  ⟨_, rfl, ⟨0, _, rfl, rfl⟩, rfl, rfl, rfl, rfl⟩

-- a bind while the old server of a restart is being destroyed uses the pointer to it, and there is
-- no server for the destructor of the manager
example : ∃ m, run (step canonicalText) start (.start 0 true :: List.replicate 7 (.go 0 .server) ++
      [.call 2 (.bind "read" 1 (some 10)), .go 2 .server, .call 1 .restart, .go 1 .server,
        .go 1 .server]) = some m ∧
    m.mesgService = true ∧ m.node.shared.dataServer = some 0 ∧ m.node.shared.grpcServer = none ∧
    step canonicalText m (.go 2 .server) = none ∧ step canonicalText m .destroy = none :=
  ⟨_, rfl, rfl, rfl, rfl, rfl, rfl⟩

end NuraftMesg.DataService.Startup
