import NuraftMesg.DataService.Restart
import NuraftMesg.Manager.Joins

/-!
# Handlers and the groups they were bound for

A handler of data requests is bound for a request name and a group. There is no call that
takes a binding back: `leave_group` does not come near `_request_map`, `restart_server`
registers the whole map again, and `bind` refuses a name that is in it. This file runs the
manager, the data service and incoming data requests together and follows the requests over
any history of groups that are left and created again.

The sections of the manager that wait while a restart has `_manager_lock` are not held back
here; this only adds runs.
-/

namespace NuraftMesg.Handlers

open Transition DataService Restart

/-- A node with the data requests that it got. -/
structure State where
  manager : Manager.Config
  data : Restart.Config
  /-- The data requests so far, each with the handler that it was dispatched to. -/
  served : List (String × GroupId × Option HandlerId)

inductive Label where
  | manager (l : Manager.Label)
  /-- A step of a bind or of a restart. -/
  | data (l : Restart.Label)
  /-- A data request comes in. -/
  | request (requestName : String) (g : GroupId)

namespace State

variable (text : UuidText) (s : State) (requestName : String) (g : GroupId)

/-- The handler that the server of the manager has for a data request. -/
def dispatch : Option HandlerId :=
  s.data.shared.grpcServer.bind fun i => s.data.shared.servers[i]?.bind fun server =>
    if server.running then server.handlerFor (getGenericMethodName text requestName g) else none

/-- The handler that the first bind under the name of the request and the group was called
with. -/
def firstBound : Option HandlerId :=
  (s.data.shared.calls.find? fun call => call.1 = getGenericMethodName text requestName g).map
    Prod.snd

end State

def step (node : Node) (s : State) : Label → Option State
  | .manager l => (Manager.step node s.manager l).map fun c => { s with manager := c }
  | .data l => (Restart.step node.text s.data l).map fun c => { s with data := c }
  | .request requestName g =>
    some { s with served := s.served ++ [(requestName, g, s.dispatch node.text requestName g)] }

/-- A node that has just started, before its first server is made. -/
def start (types : List GroupType) (enabled : Bool) : State :=
  ⟨Manager.start types, Restart.start enabled, []⟩

/-- No bind adds a handler while a restart is between the installation of its server and the end
of the loop over the map. -/
def Undisturbed (s : State) : Label → Prop
  | .data l => Restart.Undisturbed s.data l
  | _ => True

instance (m : State) : ∀ l, Decidable (Undisturbed m l)
  | .data l => inferInstanceAs (Decidable (Restart.Undisturbed m.data l))
  | .manager _ | .request _ _ => inferInstanceAs (Decidable True)

variable {node : Node} {text : UuidText} {types : List GroupType} {enabled : Bool}
  {requestMap : Table String HandlerId} {server : GrpcServer} {name : String} {cb : HandlerId}
  {i t : ℕ}

/-! ## The registrations and the map -/

/-- The server has no handler that the map does not have. -/
def Agrees (requestMap : Table String HandlerId) (server : GrpcServer) : Prop :=
  ∀ name cb, server.handlerFor name = some cb → requestMap.lookup name = some cb

/-- A handler of the map may be registered. -/
theorem Agrees.append (hserver : Agrees requestMap server)
    (hlookup : requestMap.lookup name = some cb) :
    Agrees requestMap { server with genericRpcs := server.genericRpcs ++ [(name, cb)] } := by
  intro other cb' hhandler
  rw [GrpcServer.handlerFor_append, Option.or_eq_some_iff] at hhandler
  rcases hhandler with hold | ⟨-, hnew⟩
  · exact hserver other cb' hold
  · split at hnew
    · next hother =>
      cases hnew
      rw [← hother]
      exact hlookup
    · cases hnew

/-- The map grows only, so a server that a bind does not change agrees with it as before. -/
theorem Agrees.of_bind (hserver : Agrees requestMap server) (other : GrpcServer) (name : String)
    (cb : HandlerId) : Agrees (bindHandler requestMap other name cb).1 server := by
  intro name' cb' hhandler
  rw [lookup_bindHandler, hserver name' cb' hhandler, Option.some_or]

/-- A bind registers a handler on the server only after it came new into the map. -/
theorem Agrees.bindHandler (hserver : Agrees requestMap server) :
    Agrees (bindHandler requestMap server name cb).1
      (bindHandler requestMap server name cb).2.1 := by
  have hkept := hserver.of_bind server name cb
  rcases bindHandler_cases requestMap server name cb with
    ⟨-, heq⟩ | ⟨hname, -, -, heq⟩ | ⟨-, -, heq⟩
  · rw [heq] at hkept ⊢
    exact hkept
  · rw [heq] at hkept ⊢
    apply hkept.append
    rw [Table.lookup_emplace_ite, if_pos rfl, AList.lookup_eq_none.mpr hname, Option.getD_none]
  · rw [heq] at hkept ⊢
    exact hkept

/-- The loop over the map registers handlers of the map only. -/
theorem Agrees.rebind {entries : List (String × HandlerId)} (hserver : Agrees requestMap server)
    (hentries : ∀ entry ∈ entries, requestMap.lookup entry.1 = some entry.2) :
    Agrees requestMap (rebind server entries).1 := by
  induction entries generalizing server with
  | nil => exact hserver
  | cons entry rest ih =>
    obtain ⟨name, cb⟩ := entry
    have hrest : ∀ entry ∈ rest, requestMap.lookup entry.1 = some entry.2 :=
      fun entry hmem => hentries entry (List.mem_cons_of_mem _ hmem)
    simp only [Restart.rebind]
    cases hregister : server.registerGenericRpc name cb with
    | none => exact hserver
    | some server' =>
      obtain ⟨-, -, rfl⟩ := GrpcServer.registerGenericRpc_eq_some hregister
      exact ih (hserver.append (hentries _ List.mem_cons_self)) hrest

/-- The entries of the map are what is looked up in it. -/
theorem lookup_of_mem_pairs {entry : String × HandlerId} (hmem : entry ∈ pairs requestMap) :
    requestMap.lookup entry.1 = some entry.2 := by
  obtain ⟨entry', hentry', rfl⟩ := List.mem_map.mp hmem
  exact AList.mem_lookup_iff.mpr hentry'

/-! ## One step of the data service -/

/-- The map has the first handler of every name, and no server has another one. -/
structure Faithful (s : Shared) : Prop where
  first : ∀ name, s.requestMap.lookup name =
    (s.calls.find? fun call => call.1 = name).map Prod.snd
  agrees : ∀ (i : ℕ) (server : GrpcServer), s.servers[i]? = some server →
    Agrees s.requestMap server

variable {s s' : Shared} {pc pc' : Pc} {input : Input} {result : Bound}

/-- A bind puts a handler into the map only for a new name. -/
theorem Faithful.bind (hs : Faithful s) (hbind : s.bind name cb = some (s', result)) :
    Faithful s' := by
  rcases bind_cases hbind with ⟨hname, -, rfl⟩ | ⟨hname, i, server, -, -, hserver, -, rfl⟩
  · refine ⟨fun other => ?_, hs.agrees⟩
    rw [← first_append hs.first other, Table.emplace_of_mem hname]
  · constructor
    · intro other
      have hmap : (bindHandler s.requestMap server name cb).1 = s.requestMap.emplace name cb := by
        rcases bindHandler_cases s.requestMap server name cb with
          ⟨hmem, -⟩ | ⟨-, -, -, heq⟩ | ⟨-, -, heq⟩
        · exact absurd hmem hname
        · rw [heq]
        · rw [heq]
      rw [hmap]
      exact first_append hs.first other
    · intro j server' hserver'
      by_cases hj : i = j
      · subst hj
        rw [List.getElem?_set_self (List.getElem?_eq_some_iff.mp hserver).1] at hserver'
        cases hserver'
        exact (hs.agrees i server hserver).bindHandler
      · rw [List.getElem?_set_ne hj] at hserver'
        exact (hs.agrees j server' hserver').of_bind server name cb

/-- A change to a server that leaves its handlers. -/
theorem Faithful.update {f : GrpcServer → GrpcServer} (hs : Faithful s)
    (hf : ∀ server, (f server).genericRpcs = server.genericRpcs) :
    ∀ (j : ℕ) (server : GrpcServer), (s.update i f).servers[j]? = some server →
      Agrees s.requestMap server := by
  intro j server hserver other cb' hhandler
  simp only [Shared.update, List.getElem?_modify, Option.map_eq_map] at hserver
  obtain ⟨server', hserver', rfl⟩ := Option.map_eq_some_iff.mp hserver
  refine hs.agrees j server' hserver' other cb' ?_
  split at hhandler
  · rw [GrpcServer.handlerFor, hf] at hhandler
    exact hhandler
  · exact hhandler

/-- The loop over the map registers handlers of the map. -/
theorem Faithful.rebindAll {ok : Bool} (hs : Faithful s) (hall : s.rebindAll = some (s', ok)) :
    Faithful s' := by
  unfold Shared.rebindAll at hall
  split at hall
  · obtain ⟨i, -, hrest⟩ := Option.bind_eq_some_iff.mp hall
    obtain ⟨server, hserver, heq⟩ := Option.map_eq_some_iff.mp hrest
    cases heq
    refine ⟨hs.first, fun j server' hserver' => ?_⟩
    by_cases hj : i = j
    · subst hj
      rw [List.getElem?_set_self (List.getElem?_eq_some_iff.mp hserver).1] at hserver'
      cases hserver'
      exact (hs.agrees i server hserver).rebind fun _ hmem => lookup_of_mem_pairs hmem
    · rw [List.getElem?_set_ne hj] at hserver'
      exact hs.agrees j server' hserver'
  · cases hall
    exact hs

/-- No other step of the data service changes the map, and a new server has no handlers. -/
theorem Faithful.moves (hs : Faithful s) (hmove : Moves text t s pc input s' pc') :
    Faithful s' := by
  cases hmove with
  | call | refused | enter | notMade | associateNothing => exact hs
  | bind name cb result hbind => exact hs.bind hbind
  | make hfree =>
    refine ⟨hs.first, fun j server hserver => ?_⟩
    rw [List.getElem?_append] at hserver
    split at hserver
    · exact hs.agrees j server hserver
    · -- the new server has no handlers
      obtain rfl : server = {} := List.mem_singleton.mp (List.mem_of_getElem? hserver)
      intro name cb hhandler
      cases hhandler
  | reset i | install i => exact ⟨hs.first, hs.agrees⟩
  | associate i henabled => exact ⟨hs.first, hs.update fun _ => rfl⟩
  | run i => exact ⟨hs.first, hs.update fun _ => rfl⟩
  | rebind i hall => exact hs.rebindAll hall
  | rebindThrew i hall =>
    have hs' := hs.rebindAll hall
    exact ⟨hs'.first, hs'.agrees⟩
  | raftStep i => exact ⟨hs.first, hs.update fun _ => rfl⟩

/-- The calls are recorded in their order. -/
theorem calls_of_moves (hmove : Moves text t s pc input s' pc') :
    ∃ new, s'.calls = s.calls ++ new := by
  cases hmove with
  | bind name cb result hbind =>
    rcases bind_cases hbind with ⟨-, -, rfl⟩ | ⟨-, i, server, -, -, -, -, rfl⟩
    · exact ⟨_, rfl⟩
    · exact ⟨_, rfl⟩
  | rebind i hall | rebindThrew i hall =>
    obtain ⟨servers, rfl, -⟩ := rebindAll_eq hall
    exact ⟨[], (List.append_nil _).symm⟩
  | _ => exact ⟨[], (List.append_nil _).symm⟩

/-! ## Whole runs -/

variable {m m' : State} {l : Label} {requestName : String} {g : GroupId}

/-- What was bound first stays the first. -/
theorem firstBound_of_step (hstep : step node m l = some m')
    (hfirst : m.firstBound text requestName g = some cb) :
    m'.firstBound text requestName g = some cb := by
  cases l with
  | manager l =>
    obtain ⟨c, -, rfl⟩ := Option.map_eq_some_iff.mp hstep
    exact hfirst
  | data l =>
    obtain ⟨c, hc, rfl⟩ := Option.map_eq_some_iff.mp hstep
    cases l with
    | thread t input =>
      obtain ⟨s', pc', hexec, rfl⟩ := Interleaving.step_thread hc
      obtain ⟨new, hcalls⟩ := calls_of_moves (moves_of_exec hexec)
      obtain ⟨call, hcall, rfl⟩ := Option.map_eq_some_iff.mp hfirst
      simp only [State.firstBound, hcalls, List.find?_append, hcall, Option.some_or,
        Option.map_some]
    | env event => exact event.elim
  | request requestName' g' =>
    cases hstep
    exact hfirst

/-- A request is dispatched to what was bound first, if to a handler at all. -/
theorem firstBound_of_dispatch (hm : Faithful m.data.shared)
    (hdispatch : m.dispatch text requestName g = some cb) :
    m.firstBound text requestName g = some cb := by
  obtain ⟨i, -, hrest⟩ := Option.bind_eq_some_iff.mp hdispatch
  obtain ⟨server, hserver, hhandler⟩ := Option.bind_eq_some_iff.mp hrest
  split at hhandler
  · have hlookup := hm.agrees i server hserver _ cb hhandler
    rw [hm.first] at hlookup
    exact hlookup
  · cases hhandler

/-- The invariant: the handlers are the first ones, now and for all requests so far. -/
structure Inv (text : UuidText) (m : State) : Prop where
  faithful : Faithful m.data.shared
  served : ∀ requestName g cb, (requestName, g, some cb) ∈ m.served →
    m.firstBound text requestName g = some cb

/-- At the beginning nothing is bound, and no request was dispatched. -/
theorem inv_start : Inv text (start types enabled) := by
  refine ⟨⟨fun _ => rfl, fun i server hserver => ?_⟩, fun requestName g cb hmem => ?_⟩
  · cases hserver
  · cases hmem

/-- Each field is kept by a step of the manager, of the data service, and by a request. -/
theorem Inv.step (hm : Inv node.text m) (hstep : Handlers.step node m l = some m') :
    Inv node.text m' := by
  have hkept : ∀ requestName g cb, (requestName, g, some cb) ∈ m.served →
      m'.firstBound node.text requestName g = some cb :=
    fun requestName g cb hmem => firstBound_of_step hstep (hm.served requestName g cb hmem)
  cases l with
  | manager l =>
    obtain ⟨c, -, rfl⟩ := Option.map_eq_some_iff.mp hstep
    exact ⟨hm.faithful, hkept⟩
  | data l =>
    obtain ⟨c, hc, rfl⟩ := Option.map_eq_some_iff.mp hstep
    refine ⟨?_, hkept⟩
    cases l with
    | thread t input =>
      obtain ⟨s', pc', hexec, rfl⟩ := Interleaving.step_thread hc
      exact hm.faithful.moves (moves_of_exec hexec)
    | env event => exact event.elim
  | request requestName' g' =>
    cases hstep
    refine ⟨hm.faithful, fun requestName g cb hmem => ?_⟩
    rcases List.mem_append.mp hmem with hold | hnew
    · exact hkept requestName g cb hold
    · obtain ⟨rfl, hpair⟩ := Prod.mk.inj (List.mem_singleton.mp hnew)
      obtain ⟨rfl, hdispatch⟩ := Prod.mk.inj hpair
      exact firstBound_of_dispatch hm.faithful hdispatch.symm

/-- A bind under a name that was bound before is refused and changes neither the map nor a
server. -/
theorem refused_of_firstBound (hm : Faithful m.data.shared) {input : Input}
    (hpc : m.data.threads t = .bindSection (getGenericMethodName node.text requestName g) cb)
    (hfirst : m.firstBound node.text requestName g ≠ none)
    (hstep : step node m (.data (.thread t input)) = some m') :
    m'.data.threads t = .bindDone .refused ∧
      m'.data.shared.requestMap = m.data.shared.requestMap ∧
      m'.data.shared.servers = m.data.shared.servers := by
  obtain ⟨c, hc, rfl⟩ := Option.map_eq_some_iff.mp hstep
  obtain ⟨s', pc', hexec, rfl⟩ := Interleaving.step_thread hc
  have hmove := moves_of_exec hexec
  rw [hpc] at hmove
  cases hmove with
  | bind name cb result hbind =>
    rcases bind_cases hbind with ⟨-, rfl, rfl⟩ | ⟨hnew, -⟩
    · exact ⟨Function.update_self .., rfl, rfl⟩
    · rw [State.firstBound, ← hm.first] at hfirst
      exact absurd (AList.lookup_eq_none.mpr hnew) hfirst

/-! ## Runs in which binds keep out of restarts -/

/-- A server that has the entries of the map has the handlers of the map. -/
theorem handlerFor_of_perm (hperm : server.genericRpcs.Perm (pairs requestMap)) :
    server.handlerFor name = requestMap.lookup name := by
  cases hlookup : requestMap.lookup name with
  | none =>
    apply handlerFor_eq_none
    intro hmem
    have hname := (hperm.map Prod.fst).mem_iff.mp hmem
    rw [mem_map_fst_pairs] at hname
    exact AList.lookup_eq_none.mp hlookup hname
  | some cb => rw [GrpcServer.handlerFor, ← List.head?_filter, filter_of_perm hperm hlookup]; rfl

/-- A bind of a new name finds the server that serves. -/
theorem isSome_bind_of_serves {raft : Bool} (cb : HandlerId) (hserves : Serves s i raft)
    (henabled : s.enabled = true) (hgrpc : s.grpcServer = some i) (hname : name ∉ s.requestMap) :
    (s.bind name cb).isSome := by
  obtain ⟨hpointer, server, hserver, -⟩ := hserves
  simp [Shared.bind, hname, hpointer henabled, hgrpc, hserver]

/-- A server that serves dispatches by the map. -/
theorem dispatch_of_serves {raft : Bool} (hgrpc : m.data.shared.grpcServer = some i)
    (hserves : Serves m.data.shared i raft) :
    m.dispatch text requestName g =
      m.data.shared.requestMap.lookup (getGenericMethodName text requestName g) := by
  obtain ⟨-, server, hserver, hrunning, -, hperm⟩ := hserves
  simp only [State.dispatch, hgrpc, Option.bind_some, hserver, hrunning, if_true]
  exact handlerFor_of_perm hperm

/-- The invariant of `Restart`. -/
def Kept (m : State) : Prop :=
  Orderly m.data.shared ∧ ∀ u, Outline u m.data.shared (m.data.threads u)

/-- The invariant of `Restart` is not touched by the manager and by requests. -/
theorem Kept.step (hm : Kept m) (hundisturbed : Undisturbed m l)
    (hstep : Handlers.step node m l = some m') : Kept m' := by
  cases l with
  | manager l =>
    obtain ⟨c, -, rfl⟩ := Option.map_eq_some_iff.mp hstep
    exact hm
  | data l =>
    obtain ⟨c, hc, rfl⟩ := Option.map_eq_some_iff.mp hstep
    exact orderly_of_step hm.1 hm.2 hundisturbed hc
  | request requestName g =>
    cases hstep
    exact hm

/-- While no restart is under way, a bind under a new name succeeds, and requests reach its
handler. -/
theorem Kept.bound (hm : Kept m) (hfree : m.data.shared.managerLock = none)
    (hgrpc : m.data.shared.grpcServer = some i) (made : Bool)
    (hpc : m.data.threads t = .bindSection (getGenericMethodName node.text requestName g) cb)
    (hfirst : m.firstBound node.text requestName g = none) :
    ∃ m', Handlers.step node m (.data (.thread t (.go made))) = some m' ∧
      m'.data.threads t = .bindDone .bound ∧ m'.dispatch node.text requestName g = some cb := by
  obtain ⟨hs, hthreads⟩ := hm
  have hserves := hs.serves hfree i hgrpc
  have henabled : m.data.shared.enabled = true := by
    have hrelies := (hthreads t).2
    rw [hpc] at hrelies
    exact hrelies
  have hname : getGenericMethodName node.text requestName g ∉ m.data.shared.requestMap := by
    rw [← AList.lookup_eq_none, hs.first]
    exact hfirst
  obtain ⟨⟨s', result⟩, hbind⟩ := Option.isSome_iff_exists.mp
    (isSome_bind_of_serves cb hserves henabled hgrpc hname)
  obtain ⟨rfl, hserves', server, hs'⟩ := bind_of_serves hserves henabled hgrpc hname hbind
  have hadvance : advance t m.data.shared made (m.data.threads t) =
      some (s', .bindDone .bound) := by
    rw [hpc]
    simp only [advance, hbind, Option.map_some]
  refine ⟨{ m with data := ⟨s', Function.update m.data.threads t (.bindDone .bound)⟩ }, ?_,
    Function.update_self .., ?_⟩
  · simp only [Handlers.step, step_of_advance hadvance, Option.map_some]
  · have hgrpc' : s'.grpcServer = some i := by
      rw [hs']
      exact hgrpc
    rw [dispatch_of_serves hgrpc' hserves', hs']
    simp [Table.lookup_emplace_ite, AList.lookup_eq_none.mpr hname]

/-- Whatever groups are created, joined and left meanwhile (in particular if `leave_group` of
the group has completed when the node is at `m`): every data request that was dispatched to a
handler at all was dispatched to the one that its first bind was called with, and what was
bound first at `m` is so ever after; a bind under a name that was bound before is refused and
changes nothing. If no bind adds a handler within a restart then, whenever there is a server and
no restart is under way, a request is dispatched to what was bound first for it, and a bind
for a request and a group that nothing was bound for succeeds and gets the requests. -/
theorem handlers_outlive_groups {front back : List Label}
    (hfront : run (step node) (start types enabled) front = some m)
    (hback : run (step node) m back = some m') :
    (∀ requestName g cb, (requestName, g, some cb) ∈ m'.served →
      m'.firstBound node.text requestName g = some cb) ∧
    (∀ requestName g cb, m.firstBound node.text requestName g = some cb →
      m'.firstBound node.text requestName g = some cb) ∧
    (∀ t input requestName g cb m'',
      m'.data.threads t = .bindSection (getGenericMethodName node.text requestName g) cb →
      m'.firstBound node.text requestName g ≠ none →
      step node m' (.data (.thread t input)) = some m'' →
      m''.data.threads t = .bindDone .refused ∧
        m''.data.shared.requestMap = m'.data.shared.requestMap ∧
        m''.data.shared.servers = m'.data.shared.servers) ∧
    (Meets (step node) Undisturbed (start types enabled) (front ++ back) →
      m'.data.shared.managerLock = none → m'.data.shared.grpcServer ≠ none →
      (∀ requestName g,
        m'.dispatch node.text requestName g = m'.firstBound node.text requestName g) ∧
      ∀ t made requestName g cb,
        m'.data.threads t = .bindSection (getGenericMethodName node.text requestName g) cb →
        m'.firstBound node.text requestName g = none →
        ∃ m'', step node m' (.data (.thread t (.go made))) = some m'' ∧
          m''.data.threads t = .bindDone .bound ∧
          m''.dispatch node.text requestName g = some cb) := by
  have hrun := run_trans hfront hback
  have hm' : Inv node.text m' := run_invariant (fun _ _ _ hm hstep => hm.step hstep) inv_start hrun
  refine ⟨hm'.served, ?_, ?_, ?_⟩
  · intro requestName g cb hfirst
    exact run_invariant (I := fun m => m.firstBound node.text requestName g = some cb)
      (fun _ _ _ hm hstep => firstBound_of_step hstep hm) hfirst hback
  · intro t input requestName g cb m'' hpc hfirst hstep
    exact refused_of_firstBound hm'.faithful hpc hfirst hstep
  · intro hundisturbed hfree hserver
    obtain ⟨i, hgrpc⟩ := Option.ne_none_iff_exists'.mp hserver
    have hstart : Kept (start types enabled) := orderly_start
    have hkept : Kept m' := run_invariant_of_meets
      (fun _ _ _ hm hcond hstep => hm.step hcond hstep) hstart hundisturbed hrun
    constructor
    · intro requestName g
      rw [dispatch_of_serves hgrpc (hkept.1.serves hfree i hgrpc), hkept.1.first]
      rfl
    · intro t made requestName g cb hpc hfirst
      exact hkept.bound hfree hgrpc made hpc hfirst

/-- A `join_group` of group 1 on thread `t`. -/
def joinOn (t : ℕ) (stateMgr : StateMgrId) : List Label :=
  (.thread t (.call (.joinGroup 1 "raft" (some stateMgr))) :: Manager.goes t 6 0).map .manager

/-- A `leave_group` of group 1 on thread `t`. -/
def leaveOn (t : ℕ) : List Label :=
  (.thread t (.call (.leaveGroup 1)) :: Manager.goes t 6 0).map .manager

/-- A server is made, the group is joined, and a handler is bound for it. -/
def joinAndBind : List Label :=
  (restartOn 0).map .data ++ joinOn 0 20 ++ (bindOn 1 "read" 10).map .data

/-- The group is left and joined again, and a second handler is bound; then a request comes. -/
def leaveAndRejoin : List Label :=
  leaveOn 1 ++ joinOn 2 21 ++ (bindOn 2 "read" 11).map .data ++ [.request "read" 1]

/-- The first handler stays the one that requests are dispatched to. -/
theorem dispatch_after_rejoin :
    ∃ m m', run (step Manager.sampleNode) (start ["raft"] true) (joinAndBind ++ leaveOn 1) =
        some m ∧
      m.manager.threads 1 = .done (.left 1) ∧
      run (step Manager.sampleNode) m (joinOn 2 21) = some m' ∧
      m'.firstBound canonicalText "read" 1 = some 10 ∧
      m'.dispatch canonicalText "read" 1 = some 10 ∧
      m'.dispatch canonicalText "write" 1 = none := by
  obtain ⟨m, m', hfront, hleft, hback, hfirst, hnone, hfree, hserver⟩ : ∃ m m',
      run (step Manager.sampleNode) (start ["raft"] true) (joinAndBind ++ leaveOn 1) = some m ∧
      m.manager.threads 1 = .done (.left 1) ∧
      run (step Manager.sampleNode) m (joinOn 2 21) = some m' ∧
      m.firstBound canonicalText "read" 1 = some 10 ∧
      m'.firstBound canonicalText "write" 1 = none ∧
      m'.data.shared.managerLock = none ∧ m'.data.shared.grpcServer = some 0 :=
    ⟨_, _, rfl, rfl, rfl, rfl, rfl, rfl, rfl⟩
  have hundisturbed : Meets (step Manager.sampleNode) Undisturbed (start ["raft"] true)
      (joinAndBind ++ leaveOn 1 ++ joinOn 2 21) := by
    decide
  obtain ⟨-, hkept, -, hserves⟩ := handlers_outlive_groups hfront hback
  have hfirst' := hkept "read" 1 10 hfirst
  have hsome : m'.data.shared.grpcServer ≠ none := by
    rw [hserver]
    exact Option.some_ne_none 0
  obtain ⟨hdispatch, -⟩ := hserves hundisturbed hfree hsome
  exact ⟨m, m', hfront, hleft, hback, hfirst', (hdispatch "read" 1).trans hfirst',
    (hdispatch "write" 1).trans hnone⟩

/-- The second bind is refused, and the request is dispatched to the handler that was bound
before the leave. -/
theorem old_handler_after_rejoin :
    ∃ m m', run (step Manager.sampleNode) (start ["raft"] true) (joinAndBind ++ leaveOn 1) =
        some m ∧
      m.manager.threads 1 = .done (.left 1) ∧
      run (step Manager.sampleNode) (start ["raft"] true) (joinAndBind ++ leaveAndRejoin) =
        some m' ∧
      m'.manager.threads 2 = .done (.joined 1) ∧
      m'.data.threads 2 = .bindDone .refused ∧ m'.served = [("read", 1, some 10)] :=
  ⟨_, _, rfl, rfl, rfl, rfl, rfl, rfl⟩

end NuraftMesg.Handlers
