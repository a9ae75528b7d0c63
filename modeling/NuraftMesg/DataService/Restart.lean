import NuraftMesg.Base.Interleaving
import NuraftMesg.DataService.Binding
import NuraftMesg.UuidText

/-!
# Binding handlers while the server is restarted

`restart_server` holds `_manager_lock`, destroys the old server, installs a new one, lets
the services associate with it, runs it and registers all handlers of `_request_map` on it
again. `bind_data_service_request` takes another lock, `_req_lock`, and registers on
whatever server the data service points to. A bind that comes between the start of the new
server and the loop over the map registers its handler there first, and the loop then fails
on it. This file has the two operations as threads and shows that they agree otherwise.
-/

namespace NuraftMesg.DataService.Restart

open Transition

/-- What the operations share. -/
structure Shared where
  /-- `_data_service_enabled`. -/
  enabled : Bool
  /-- `_request_map`. -/
  requestMap : Table String HandlerId
  /-- The pointer of the data service. -/
  dataServer : Option ℕ
  /-- The manager's `_grpc_server`, which owns the server; all others are gone. It is null while
  the old server of a restart is being destroyed. -/
  grpcServer : Option ℕ
  /-- All servers ever made. -/
  servers : List GrpcServer
  /-- The thread that holds `_manager_lock`. -/
  managerLock : Option ℕ
  /-- The names and handlers of all binds, in the order in which they took `_req_lock`. -/
  calls : List (String × HandlerId)

/-- The loop of `data_service_grpc::bind`. It throws at the first handler that cannot be
registered, which is `false`. -/
def rebind (server : GrpcServer) : List (String × HandlerId) → GrpcServer × Bool
  | [] => (server, true)
  | (name, cb) :: rest =>
    match server.registerGenericRpc name cb with
    | some server => rebind server rest
    | none => (server, false)

/-- The entries of the map. -/
def pairs (requestMap : Table String HandlerId) : List (String × HandlerId) :=
  requestMap.entries.map fun entry => (entry.1, entry.2)

/-- What a call of `restart_server` came to. -/
inductive Restarted where
  | returned
  /-- No server could be made, and nothing was changed. -/
  | notMade
  /-- A handler could not be registered. -/
  | threw
  deriving DecidableEq

/-- The next step of a thread. -/
inductive Pc where
  | idle
  /-- `bind_data_service_request`, up to `_req_lock`. -/
  | bindCheck (name : String) (cb : Option HandlerId)
  /-- The section under `_req_lock`. -/
  | bindSection (name : String) (cb : HandlerId)
  | bindDone (result : Bound)
  /-- Take `_manager_lock` and make a server. -/
  | restartMake
  /-- `_grpc_server.reset()`. -/
  | restartReset (server : ℕ)
  /-- The assignment to `_grpc_server`. -/
  | restartInstall (server : ℕ)
  | restartAssociate (server : ℕ)
  | restartRun (server : ℕ)
  /-- The loop under `_req_lock`. -/
  | restartRebind (server : ℕ)
  /-- Register `RaftStep` and return. -/
  | restartRaftStep (server : ℕ)
  | restartDone (result : Restarted)
  deriving DecidableEq

/-- What a thread can be started on. -/
inductive Operation where
  | bind (requestName : String) (g : GroupId) (cb : Option HandlerId)
  | restart

/-- What drives a thread; `made` tells whether a server can be made. -/
inductive Input where
  | call (op : Operation)
  | go (made : Bool)

def Operation.entry (text : UuidText) : Operation → Pc
  | .bind requestName g cb => .bindCheck (getGenericMethodName text requestName g) cb
  | .restart => .restartMake

/-- The section of a bind. A new handler is registered on the server that the data
service points to; there is no behaviour if this server is gone. -/
def Shared.bind (s : Shared) (name : String) (cb : HandlerId) : Option (Shared × Bound) :=
  let s := { s with calls := s.calls ++ [(name, cb)] }
  if name ∈ s.requestMap then some (s, .refused)
  else s.dataServer.bind fun i =>
    if s.grpcServer = some i then
      s.servers[i]?.map fun server =>
        let result := bindHandler s.requestMap server name cb
        ({ s with requestMap := result.1, servers := s.servers.set i result.2.1 }, result.2.2)
    else none

/-- Change a server. -/
def Shared.update (s : Shared) (i : ℕ) (f : GrpcServer → GrpcServer) : Shared :=
  { s with servers := s.servers.modify i f }

/-- Register the handlers of the map again; the second component is `false` if this
throws. -/
def Shared.rebindAll (s : Shared) : Option (Shared × Bool) :=
  if s.enabled then
    s.dataServer.bind fun i => s.servers[i]?.map fun server =>
      let result := rebind server (pairs s.requestMap)
      ({ s with servers := s.servers.set i result.1 }, result.2)
  else some (s, true)

/-- One step of thread `t`. -/
def advance (t : ℕ) (s : Shared) (made : Bool) : Pc → Option (Shared × Pc)
  | .idle => none
  | .bindCheck name cb =>
    if s.enabled then
      -- the assertion on the pointer
      if s.dataServer = none then none
      else match cb with
        | none => some (s, .bindDone .refused)
        | some cb => some (s, .bindSection name cb)
    else some (s, .bindDone .refused)
  | .bindSection name cb => (s.bind name cb).map fun result => (result.1, .bindDone result.2)
  | .bindDone _ => none
  | .restartMake =>
    if s.managerLock ≠ none then none
    else if made then
      some ({ s with managerLock := some t, servers := s.servers ++ [{}] },
        .restartReset s.servers.length)
    else some (s, .restartDone .notMade)
  -- the pointer is null before the old server is destroyed
  | .restartReset i => some ({ s with grpcServer := none }, .restartInstall i)
  | .restartInstall i => some ({ s with grpcServer := some i }, .restartAssociate i)
  | .restartAssociate i =>
    if s.enabled then
      some ({ s.update i fun server => { server with genericService := true } with
        dataServer := some i }, .restartRun i)
    else some (s, .restartRun i)
  | .restartRun i =>
    some (s.update i fun server => { server with running := true }, .restartRebind i)
  | .restartRebind i => s.rebindAll.map fun result =>
    if result.2 then (result.1, .restartRaftStep i)
    else ({ result.1 with managerLock := none }, .restartDone .threw)
  | .restartRaftStep i =>
    some ({ s.update i fun server => { server with raftStep := true } with managerLock := none },
      .restartDone .returned)
  | .restartDone _ => none

/-- A thread is started or goes on. -/
def exec (text : UuidText) (t : ℕ) (s : Shared) : Pc → Input → Option (Shared × Pc)
  | .idle, .call op => some (s, op.entry text)
  | _, .call _ => none
  | pc, .go made => advance t s made pc

abbrev Config := Interleaving.Config Shared Pc

abbrev Label := Interleaving.Action Input Empty

/-- One step of the node. -/
def step (text : UuidText) : Config → Label → Option Config :=
  Interleaving.step (exec text) fun _ event => event.elim

/-- Before the first server is made. -/
def start (enabled : Bool) : Config where
  shared := ⟨enabled, ∅, none, none, [], none, []⟩
  threads _ := .idle

/-- A restart has installed its server and has not yet registered the handlers on it. -/
def Pc.inWindow : Pc → Bool
  | .restartAssociate _ | .restartRun _ | .restartRebind _ => true
  | _ => false

/-- The name that a thread is about to bind. -/
def Pc.binds : Pc → Option String
  | .bindSection name _ => some name
  | _ => none

/-- The condition on a step: no bind adds a handler while a restart is between the
installation of its server and the end of the loop over the map. -/
def Undisturbed (c : Config) : Label → Prop
  | .thread t _ => ∀ name ∈ (c.threads t).binds, name ∉ c.shared.requestMap →
      ∀ u ∈ c.shared.managerLock, (c.threads u).inWindow = false
  | .env _ => True

instance (c : Config) : ∀ l, Decidable (Undisturbed c l)
  | .thread t _ => inferInstanceAs (Decidable (∀ name ∈ (c.threads t).binds, _))
  | .env _ => inferInstanceAs (Decidable True)

/-! ## The steps as rules -/

/-- The ways in which a thread can go on. -/
inductive Moves (text : UuidText) (t : ℕ) (s : Shared) : Pc → Input → Shared → Pc → Prop
  | call (op) : Moves text t s .idle (.call op) s (op.entry text)
  | refused {made} (name cb) : Moves text t s (.bindCheck name cb) (.go made) s (.bindDone .refused)
  | enter {made} (name cb) (henabled : s.enabled = true) :
      Moves text t s (.bindCheck name (some cb)) (.go made) s (.bindSection name cb)
  | bind {made s'} (name cb result) (hbind : s.bind name cb = some (s', result)) :
      Moves text t s (.bindSection name cb) (.go made) s' (.bindDone result)
  | make (hfree : s.managerLock = none) : Moves text t s .restartMake (.go true)
      { s with managerLock := some t, servers := s.servers ++ [{}] }
      (.restartReset s.servers.length)
  | notMade : Moves text t s .restartMake (.go false) s (.restartDone .notMade)
  | reset {made} (i) : Moves text t s (.restartReset i) (.go made)
      { s with grpcServer := none } (.restartInstall i)
  | install {made} (i) : Moves text t s (.restartInstall i) (.go made)
      { s with grpcServer := some i } (.restartAssociate i)
  | associate {made} (i) (henabled : s.enabled = true) :
      Moves text t s (.restartAssociate i) (.go made)
        { s.update i fun server => { server with genericService := true } with
          dataServer := some i } (.restartRun i)
  | associateNothing {made} (i) (hdisabled : s.enabled = false) :
      Moves text t s (.restartAssociate i) (.go made) s (.restartRun i)
  | run {made} (i) : Moves text t s (.restartRun i) (.go made)
      (s.update i fun server => { server with running := true }) (.restartRebind i)
  | rebind {made s'} (i) (hall : s.rebindAll = some (s', true)) :
      Moves text t s (.restartRebind i) (.go made) s' (.restartRaftStep i)
  | rebindThrew {made s'} (i) (hall : s.rebindAll = some (s', false)) :
      Moves text t s (.restartRebind i) (.go made) { s' with managerLock := none }
        (.restartDone .threw)
  | raftStep {made} (i) : Moves text t s (.restartRaftStep i) (.go made)
      { s.update i fun server => { server with raftStep := true } with managerLock := none }
      (.restartDone .returned)

/-- A thread that goes on does what `advance` says, wherever it is. -/
theorem exec_go {text : UuidText} {t : ℕ} {s : Shared} {pc : Pc} (made : Bool) :
    exec text t s pc (.go made) = advance t s made pc := by
  cases pc <;> rfl

/-- What a thread can do next is a step of the node. -/
theorem step_of_advance {text : UuidText} {t : ℕ} {c : Config} {made : Bool} {s' : Shared}
    {pc' : Pc} (hadvance : advance t c.shared made (c.threads t) = some (s', pc')) :
    step text c (.thread t (.go made)) = some ⟨s', Function.update c.threads t pc'⟩ :=
  Interleaving.step_of_exec ((exec_go made).trans hadvance)

/-- Every step of a thread is an instance of a rule. -/
theorem moves_of_exec {text : UuidText} {t : ℕ} {s s' : Shared} {pc pc' : Pc} {input : Input}
    (hexec : exec text t s pc input = some (s', pc')) : Moves text t s pc input s' pc' := by
  cases input with
  | call op =>
    cases pc with
    | idle =>
      cases hexec
      exact .call op
    | _ => cases hexec
  | go made =>
    cases pc with
    | idle | bindDone | restartDone => cases hexec
    | bindCheck name cb =>
      simp only [exec, advance] at hexec
      split at hexec
      · split at hexec
        · cases hexec
        · cases cb <;> cases hexec
          · exact .refused name none
          · exact .enter name _ ‹_›
      · cases hexec
        exact .refused name cb
    | bindSection name cb =>
      obtain ⟨⟨s'', result⟩, hbind, heq⟩ := Option.map_eq_some_iff.mp hexec
      cases heq
      exact .bind name cb result hbind
    | restartMake =>
      simp only [exec, advance] at hexec
      split at hexec
      · cases hexec
      · next hfree =>
        cases made <;> cases hexec
        · exact .notMade
        · exact .make (by simpa using hfree)
    | restartReset i => cases hexec; constructor
    | restartInstall i => cases hexec; constructor
    | restartAssociate i =>
      simp only [exec, advance] at hexec
      split at hexec <;> cases hexec
      · exact .associate i ‹_›
      · exact .associateNothing i (by simpa using ‹¬ s.enabled = true›)
    | restartRun i => cases hexec; constructor
    | restartRebind i =>
      obtain ⟨⟨s'', ok⟩, hall, heq⟩ := Option.map_eq_some_iff.mp hexec
      cases ok <;> cases heq
      · exact .rebindThrew i hall
      · exact .rebind i hall
    | restartRaftStep i => cases hexec; constructor

/-! ## The map and the registrations -/

variable {requestMap : Table String HandlerId} {server : GrpcServer} {name : String}
  {cb : HandlerId}

/-- A new name stands in front. -/
theorem pairs_emplace (hname : name ∉ requestMap) :
    pairs (requestMap.emplace name cb) = (name, cb) :: pairs requestMap := by
  rw [Table.emplace, if_neg hname, pairs, AList.entries_insert_of_notMem hname]
  rfl

/-- The names of the pairs are the keys of the map. -/
theorem map_fst_pairs : (pairs requestMap).map Prod.fst = requestMap.keys := by
  simp [pairs, AList.keys, List.keys, Function.comp_def]

/-- A name is in the map if a pair has it. -/
theorem mem_map_fst_pairs : name ∈ (pairs requestMap).map Prod.fst ↔ name ∈ requestMap := by
  rw [map_fst_pairs, AList.mem_keys]

/-- No name stands there twice. -/
theorem nodup_pairs : ((pairs requestMap).map Prod.fst).Nodup := by
  rw [map_fst_pairs]
  exact requestMap.keys_nodup

/-- A name of the map stands there once, with its handler. -/
theorem filter_pairs (hlookup : requestMap.lookup name = some cb) :
    (pairs requestMap).filter (fun rpc => rpc.1 = name) = [(name, cb)] := by
  have hmem : (name, cb) ∈ pairs requestMap :=
    List.mem_map.mpr ⟨⟨name, cb⟩, AList.mem_lookup_iff.mp hlookup, rfl⟩
  have hsame : ∀ rpc ∈ pairs requestMap, (rpc.1 = name) = (rpc = (name, cb)) := by
    intro rpc hrpc
    refine propext ⟨fun hname => ?_, fun heq => by rw [heq]⟩
    exact List.inj_on_of_nodup_map nodup_pairs hrpc hmem hname
  have hcount : (pairs requestMap).count (name, cb) = 1 :=
    List.count_eq_one_of_mem nodup_pairs.of_map hmem
  calc (pairs requestMap).filter (fun rpc => rpc.1 = name)
      = (pairs requestMap).filter (fun rpc => rpc = (name, cb)) :=
        List.filter_congr fun rpc hrpc => by simp only [hsame rpc hrpc]
    _ = List.replicate 1 (name, cb) := by rw [List.filter_eq, hcount]

/-- So it stands once on a server that has the entries of the map. -/
theorem filter_of_perm (hperm : server.genericRpcs.Perm (pairs requestMap))
    (hlookup : requestMap.lookup name = some cb) :
    server.genericRpcs.filter (fun rpc => rpc.1 = name) = [(name, cb)] := by
  rw [← List.perm_singleton, ← filter_pairs hlookup]
  exact hperm.filter _

/-- A server without the name has no handler for it. -/
theorem handlerFor_eq_none (hname : name ∉ server.genericRpcs.map Prod.fst) :
    server.handlerFor name = none := by
  rw [GrpcServer.handlerFor, Option.map_eq_none_iff, List.find?_eq_none]
  intro rpc hrpc heq
  exact hname (List.mem_map.mpr ⟨rpc, hrpc, by simpa using heq⟩)

/-- The loop succeeds on a running server that has none of the names. -/
theorem rebind_eq {entries : List (String × HandlerId)} (hrunning : server.running)
    (hnodup : (server.genericRpcs ++ entries).map Prod.fst |>.Nodup) :
    rebind server entries =
      ({ server with genericRpcs := server.genericRpcs ++ entries }, true) := by
  induction entries generalizing server with
  | nil => simp [rebind]
  | cons entry rest ih =>
    obtain ⟨name, cb⟩ := entry
    have hfree : server.handlerFor name = none := by
      refine handlerFor_eq_none fun hmem => ?_
      rw [List.map_append, List.nodup_append] at hnodup
      exact hnodup.2.2 name hmem name (by simp) rfl
    have hregister : server.registerGenericRpc name cb =
        some { server with genericRpcs := server.genericRpcs ++ [(name, cb)] } :=
      if_pos ⟨hrunning, hfree⟩
    simp only [rebind, hregister]
    rw [ih (by exact hrunning) (by simpa using hnodup)]
    simp

/-! ## What the threads rely on -/

variable {text : UuidText} {s s' : Shared} {t u i : ℕ} {raft : Bool} {pc pc' : Pc} {input : Input}
  {result : Bound}

/-- The server has exactly the handlers of the map, and the data service points to it. -/
def Serves (s : Shared) (i : ℕ) (raft : Bool) : Prop :=
  (s.enabled = true → s.dataServer = some i) ∧
    ∃ server, s.servers[i]? = some server ∧ server.running = true ∧ server.raftStep = raft ∧
      server.genericRpcs.Perm (pairs s.requestMap)

/-- The map holds the handlers that were bound first, and the server of a manager that is
not restarting serves them. -/
structure Orderly (s : Shared) : Prop where
  disabled : s.enabled = false → s.requestMap = ∅
  first : ∀ name, s.requestMap.lookup name =
    (s.calls.find? fun call => call.1 = name).map Prod.snd
  serves : s.managerLock = none → ∀ i, s.grpcServer = some i → Serves s i true

/-- The thread is in `restart_server` and holds the lock. -/
def Pc.locks : Pc → Bool
  | .restartReset _ | .restartInstall _ | .restartAssociate _ | .restartRun _
  | .restartRebind _ | .restartRaftStep _ => true
  | _ => false

/-- What a thread relies on at its program counter. -/
def Relies (s : Shared) : Pc → Prop
  | .bindSection _ _ => s.enabled = true
  | .bindDone result => result ≠ .threw
  | .restartReset i => s.servers[i]? = some {} ∧ s.grpcServer ≠ some i ∧
      ∀ j, s.grpcServer = some j → Serves s j true
  | .restartInstall i => s.grpcServer = none ∧ s.servers[i]? = some {}
  | .restartAssociate i => s.grpcServer = some i ∧ s.servers[i]? = some {}
  | .restartRun i => s.grpcServer = some i ∧
      s.servers[i]? = some { genericService := s.enabled } ∧
      (s.enabled = true → s.dataServer = some i)
  | .restartRebind i => s.grpcServer = some i ∧
      s.servers[i]? = some { running := true, genericService := s.enabled } ∧
      (s.enabled = true → s.dataServer = some i)
  | .restartRaftStep i => s.grpcServer = some i ∧ Serves s i false
  | .restartDone result => result ≠ .threw
  | _ => True

/-- The assertion of a thread. -/
def Outline (t : ℕ) (s : Shared) (pc : Pc) : Prop :=
  (pc.locks = true ↔ s.managerLock = some t) ∧ Relies s pc

/-! ## The section of a bind -/

/-- A bind of a name that is taken changes nothing. -/
theorem bind_of_mem (hname : name ∈ s.requestMap) :
    s.bind name cb = some ({ s with calls := s.calls ++ [(name, cb)] }, .refused) :=
  if_pos hname

/-- The section of a bind: nothing for a name that is taken, and otherwise `bindHandler` on the
server that both pointers lead to. -/
theorem bind_cases (hbind : s.bind name cb = some (s', result)) :
    (name ∈ s.requestMap ∧ result = .refused ∧
      s' = { s with calls := s.calls ++ [(name, cb)] }) ∨
    (name ∉ s.requestMap ∧ ∃ i server, s.dataServer = some i ∧ s.grpcServer = some i ∧
      s.servers[i]? = some server ∧ result = (bindHandler s.requestMap server name cb).2.2 ∧
      s' = { s with
        calls := s.calls ++ [(name, cb)]
        requestMap := (bindHandler s.requestMap server name cb).1
        servers := s.servers.set i (bindHandler s.requestMap server name cb).2.1 }) := by
  simp only [Shared.bind] at hbind
  split at hbind
  · next hname =>
    cases hbind
    exact Or.inl ⟨hname, rfl, rfl⟩
  · next hname =>
    obtain ⟨i, hdata, hrest⟩ := Option.bind_eq_some_iff.mp hbind
    split at hrest
    · next hgrpc =>
      obtain ⟨server, hserver, heq⟩ := Option.map_eq_some_iff.mp hrest
      cases heq
      exact Or.inr ⟨hname, i, server, hdata, hgrpc, hserver, rfl, rfl⟩
    · cases hrest

/-- What a bind leaves alone; a new handler needs a server. -/
theorem bind_frame (hbind : s.bind name cb = some (s', result)) :
    s'.enabled = s.enabled ∧ s'.managerLock = s.managerLock ∧ s'.grpcServer = s.grpcServer ∧
      (name ∉ s.requestMap → ∃ i, s.grpcServer = some i) := by
  rcases bind_cases hbind with ⟨hname, -, rfl⟩ | ⟨-, i, server, -, hgrpc, -, -, rfl⟩
  · exact ⟨rfl, rfl, rfl, fun hnew => absurd hname hnew⟩
  · exact ⟨rfl, rfl, rfl, fun _ => ⟨i, hgrpc⟩⟩

/-- A bind of a new name registers its handler on the server that serves. -/
theorem bind_of_serves (hserves : Serves s i raft) (henabled : s.enabled = true)
    (hgrpc : s.grpcServer = some i) (hname : name ∉ s.requestMap)
    (hbind : s.bind name cb = some (s', result)) :
    result = .bound ∧ Serves s' i raft ∧ ∃ server,
      s' = { s with
        calls := s.calls ++ [(name, cb)]
        requestMap := s.requestMap.emplace name cb
        servers := s.servers.set i server } := by
  obtain ⟨hpointer, server, hserver, hrunning, hraft, hperm⟩ := hserves
  have hfree : server.handlerFor name = none := by
    refine handlerFor_eq_none fun hmem => hname ?_
    rw [← mem_map_fst_pairs]
    exact (hperm.map Prod.fst).mem_iff.mp hmem
  have hresult : bindHandler s.requestMap server name cb = (s.requestMap.emplace name cb,
      { server with genericRpcs := server.genericRpcs ++ [(name, cb)] }, .bound) := by
    rw [bindHandler, if_neg hname, GrpcServer.registerGenericRpc, if_pos ⟨hrunning, hfree⟩]
  simp only [Shared.bind, if_neg hname, hpointer henabled, Option.bind_some, hgrpc, if_true,
    hserver, Option.map_some, hresult, Option.some.injEq, Prod.mk.injEq] at hbind
  obtain ⟨rfl, rfl⟩ := hbind
  refine ⟨rfl, ⟨fun _ => rfl, _, List.getElem?_set_self (List.getElem?_eq_some_iff.mp hserver).1,
    hrunning, hraft, ?_⟩, _, by rw [hpointer henabled, hgrpc]⟩
  rw [pairs_emplace hname]
  exact (List.perm_append_singleton _ _).trans (hperm.cons _)

/-- The first handler of each name, after one more bind. -/
theorem first_append {calls : List (String × HandlerId)}
    (hfirst : ∀ name, requestMap.lookup name =
      (calls.find? fun call => call.1 = name).map Prod.snd) (other : String) :
    (requestMap.emplace name cb).lookup other =
      ((calls ++ [(name, cb)]).find? fun call => call.1 = other).map Prod.snd := by
  rw [List.find?_append, Table.lookup_emplace_ite, hfirst, hfirst]
  by_cases hname : other = name
  · subst hname
    cases calls.find? fun call => call.1 = other <;> simp
  · have hne : ¬ name = other := fun h => hname h.symm
    cases calls.find? fun call => call.1 = other <;> simp [hname, hne]

/-- A bind keeps the map orderly, if it finds a server that serves. -/
theorem Orderly.bind (hs : Orderly s) (henabled : s.enabled = true)
    (hserving : name ∉ s.requestMap → ∀ i, s.grpcServer = some i →
      ∃ raft, Serves s i raft ∧ (s.managerLock = none → raft = true))
    (hbind : s.bind name cb = some (s', result)) :
    Orderly s' ∧ result ≠ .threw := by
  by_cases hname : name ∈ s.requestMap
  · rw [bind_of_mem hname] at hbind
    cases hbind
    refine ⟨⟨hs.disabled, fun other => ?_, hs.serves⟩, by decide⟩
    rw [← first_append hs.first other, Table.emplace, if_pos hname]
  · obtain ⟨i, hgrpc⟩ := (bind_frame hbind).2.2.2 hname
    obtain ⟨raft, hserves, hraft⟩ := hserving hname i hgrpc
    obtain ⟨rfl, hserves', server, rfl⟩ := bind_of_serves hserves henabled hgrpc hname hbind
    refine ⟨⟨fun hdisabled => ?_, first_append hs.first, fun hfree j hj => ?_⟩, by decide⟩
    · rw [show s.enabled = false from hdisabled] at henabled
      cases henabled
    · obtain rfl : i = j := Option.some.inj (hgrpc.symm.trans hj)
      rw [← hraft hfree]
      exact hserves'

/-! ## The steps of a restart -/

/-- As long as a restart holds the lock, the map is all that has to be kept. -/
theorem Orderly.locked (hs : Orderly s) (hlock : s'.managerLock ≠ none)
    (henabled : s'.enabled = s.enabled) (hmap : s'.requestMap = s.requestMap)
    (hcalls : s'.calls = s.calls) : Orderly s' where
  disabled := by rw [henabled, hmap]; exact hs.disabled
  first := by rw [hmap, hcalls]; exact hs.first
  serves hfree := absurd hfree hlock

/-- A change to the servers other than the one that serves. -/
theorem Serves.of_eq (hserves : Serves s i raft) (henabled : s'.enabled = s.enabled)
    (hmap : s'.requestMap = s.requestMap) (hdata : s'.dataServer = s.dataServer)
    (hserver : s'.servers[i]? = s.servers[i]?) : Serves s' i raft := by
  obtain ⟨hpointer, server, hi, hrest⟩ := hserves
  refine ⟨by rw [henabled, hdata]; exact hpointer, server, hserver.trans hi, ?_⟩
  rw [hmap]
  exact hrest

/-- Making a server. -/
theorem relies_made (hs : Orderly s) (hfree : s.managerLock = none) :
    Relies { s with managerLock := some t, servers := s.servers ++ [{}] }
      (.restartReset s.servers.length) := by
  refine ⟨by simp, fun hgrpc => ?_, fun j hj => ?_⟩
  · obtain ⟨-, server, hserver, -⟩ := hs.serves hfree _ hgrpc
    exact Nat.lt_irrefl _ (List.getElem?_eq_some_iff.mp hserver).1
  · have hserves := hs.serves hfree j hj
    obtain ⟨-, server, hserver, -⟩ := hserves
    exact (hs.serves hfree j hj).of_eq rfl rfl rfl
      (List.getElem?_append_left (List.getElem?_eq_some_iff.mp hserver).1)

/-- The loop over the map registers every handler once. -/
theorem rebindAll_of_relies (hs : Orderly s) (hrelies : Relies s (.restartRebind i)) :
    ∃ s', s.rebindAll = some (s', true) ∧ s'.managerLock = s.managerLock ∧
      s'.enabled = s.enabled ∧ s'.requestMap = s.requestMap ∧ s'.calls = s.calls ∧
      s'.grpcServer = s.grpcServer ∧ Serves s' i false := by
  obtain ⟨hgrpc, hserver, hpointer⟩ := hrelies
  by_cases henabled : s.enabled = true
  · let served : GrpcServer :=
      { running := true, genericService := s.enabled, genericRpcs := pairs s.requestMap }
    have hrebind : rebind { running := true, genericService := s.enabled } (pairs s.requestMap) =
        (served, true) := rebind_eq rfl nodup_pairs
    refine ⟨{ s with servers := s.servers.set i served }, ?_, rfl, rfl, rfl, rfl, rfl,
      hpointer, _, List.getElem?_set_self (List.getElem?_eq_some_iff.mp hserver).1, rfl, rfl,
      .refl _⟩
    rw [Shared.rebindAll, if_pos henabled]
    refine Option.bind_eq_some_iff.mpr ⟨i, hpointer henabled, ?_⟩
    refine Option.map_eq_some_iff.mpr ⟨_, hserver, ?_⟩
    rw [hrebind]
  · have hdisabled : s.enabled = false := by simpa using henabled
    refine ⟨s, if_neg henabled, rfl, rfl, rfl, rfl, rfl, hpointer, _, hserver, rfl, rfl, ?_⟩
    rw [hs.disabled hdisabled]
    exact .nil

/-- A refused bind relies on nothing. -/
theorem relies_refused (s : Shared) : Relies s (.bindDone .refused) :=
  show Bound.refused ≠ .threw by decide

/-- The end of a restart. -/
theorem Orderly.returned (hs : Orderly s) (hrelies : Relies s (.restartRaftStep i)) :
    Orderly { s.update i fun server => { server with raftStep := true } with
      managerLock := none } := by
  obtain ⟨hgrpc, hpointer, server, hserver, hrunning, hraft, hperm⟩ := hrelies
  refine ⟨hs.disabled, hs.first, fun _ j hj => ?_⟩
  obtain rfl : i = j := Option.some.inj (hgrpc.symm.trans hj)
  refine ⟨hpointer, { server with raftStep := true }, ?_, hrunning, rfl, hperm⟩
  simp [Shared.update, hserver]

/-- One step of a thread keeps the map orderly and establishes what it relies on next. -/
theorem own_step (hs : Orderly s) (houtline : Outline t s pc)
    (hserving : ∀ name cb, pc = .bindSection name cb → name ∉ s.requestMap →
      ∀ i, s.grpcServer = some i → ∃ raft, Serves s i raft ∧ (s.managerLock = none → raft = true))
    (hmove : Moves text t s pc input s' pc') : Orderly s' ∧ Outline t s' pc' := by
  obtain ⟨hlocks, hrelies⟩ := houtline
  have hheld : pc.locks = true → s.managerLock ≠ none := fun h => by
    rw [hlocks.mp h]
    exact Option.some_ne_none t
  cases hmove with
  | call op => cases op <;> exact ⟨hs, hlocks, trivial⟩
  | refused name cb => exact ⟨hs, hlocks, relies_refused s⟩
  | enter name cb henabled => exact ⟨hs, hlocks, henabled⟩
  | bind name cb result hbind =>
    obtain ⟨-, hlock, -, -⟩ := bind_frame hbind
    obtain ⟨horderly, hresult⟩ := hs.bind hrelies (hserving name cb rfl) hbind
    refine ⟨horderly, ?_, hresult⟩
    rw [hlock]
    exact hlocks
  | make hfree =>
    exact ⟨hs.locked (Option.some_ne_none t) rfl rfl rfl, ⟨fun _ => rfl, fun _ => rfl⟩,
      relies_made hs hfree⟩
  | notMade => exact ⟨hs, hlocks, Restarted.noConfusion⟩
  | reset i => exact ⟨hs.locked (hheld rfl) rfl rfl rfl, hlocks, rfl, hrelies.1⟩
  | install i => exact ⟨hs.locked (hheld rfl) rfl rfl rfl, hlocks, rfl, hrelies.2⟩
  | associate i henabled =>
    obtain ⟨hgrpc, hserver⟩ := hrelies
    refine ⟨hs.locked (hheld rfl) rfl rfl rfl, hlocks, hgrpc, ?_, fun _ => rfl⟩
    simp [Shared.update, hserver, henabled]
  | associateNothing i hdisabled =>
    obtain ⟨hgrpc, hserver⟩ := hrelies
    refine ⟨hs, hlocks, hgrpc, ?_, fun henabled => ?_⟩
    · rw [hserver, hdisabled]
    · rw [hdisabled] at henabled
      cases henabled
  | run i =>
    obtain ⟨hgrpc, hserver, hpointer⟩ := hrelies
    refine ⟨hs.locked (hheld rfl) rfl rfl rfl, hlocks, hgrpc, ?_, hpointer⟩
    simp [Shared.update, hserver]
  | rebind i hall =>
    have hgrpc : s.grpcServer = some i := hrelies.1
    obtain ⟨s'', hall', hlock, henabled, hmap, hcalls, hgrpc', hserves⟩ :=
      rebindAll_of_relies hs hrelies
    cases hall.symm.trans hall'
    refine ⟨hs.locked (by rw [hlock]; exact hheld rfl) henabled hmap hcalls, ?_,
      hgrpc'.trans hgrpc, hserves⟩
    rw [hlock]
    exact hlocks
  | rebindThrew i hall =>
    -- the loop does not throw on a server without handlers
    obtain ⟨s'', hall', -⟩ := rebindAll_of_relies hs hrelies
    cases hall.symm.trans hall'
  | raftStep i =>
    refine ⟨hs.returned hrelies, ⟨fun h => ?_, fun h => ?_⟩, Restarted.noConfusion⟩
    · cases h
    · cases h

/-! ## Interference -/

/-- The loop over the map changes servers only, and none comes or goes. -/
theorem rebindAll_eq {ok : Bool} (hall : s.rebindAll = some (s', ok)) :
    ∃ servers, s' = { s with servers := servers } ∧ servers.length = s.servers.length := by
  unfold Shared.rebindAll at hall
  split at hall
  · obtain ⟨j, -, hrest⟩ := Option.bind_eq_some_iff.mp hall
    obtain ⟨server, -, heq⟩ := Option.map_eq_some_iff.mp hrest
    cases heq
    exact ⟨_, rfl, List.length_set ..⟩
  · cases hall
    exact ⟨_, rfl, rfl⟩

/-- What a step of thread `t` leaves alone. -/
structure Framed (t : ℕ) (s s' : Shared) : Prop where
  enabled : s'.enabled = s.enabled
  managerLock : s'.managerLock = s.managerLock ∨ s'.managerLock = some t ∨ s'.managerLock = none

/-- A step changes nothing, or is the section of a bind, or belongs to a restart that has
the lock or takes it. -/
theorem Moves.effect (hmove : Moves text t s pc input s' pc') :
    s' = s ∨ (∃ name cb result, pc = .bindSection name cb ∧ s.bind name cb = some (s', result)) ∨
      (s.managerLock = none ∨ pc.locks = true) ∧ Framed t s s' := by
  cases hmove with
  | call | refused | enter | notMade | associateNothing => exact Or.inl rfl
  | bind name cb result hbind => exact Or.inr (Or.inl ⟨name, cb, result, rfl, hbind⟩)
  | make hfree => exact Or.inr (Or.inr ⟨Or.inl hfree, rfl, Or.inr (Or.inl rfl)⟩)
  | reset | install | associate | run => exact Or.inr (Or.inr ⟨Or.inr rfl, rfl, Or.inl rfl⟩)
  | rebind i hall =>
    obtain ⟨servers, rfl, -⟩ := rebindAll_eq hall
    exact Or.inr (Or.inr ⟨Or.inr rfl, rfl, Or.inl rfl⟩)
  | rebindThrew i hall =>
    obtain ⟨servers, rfl, -⟩ := rebindAll_eq hall
    exact Or.inr (Or.inr ⟨Or.inr rfl, rfl, Or.inr (Or.inr rfl)⟩)
  | raftStep i => exact Or.inr (Or.inr ⟨Or.inr rfl, rfl, Or.inr (Or.inr rfl)⟩)

/-- Every step leaves `_data_service_enabled` alone, and the lock to its holder. -/
theorem Moves.framed (hmove : Moves text t s pc input s' pc') : Framed t s s' := by
  rcases hmove.effect with rfl | ⟨name, cb, result, -, hbind⟩ | ⟨-, hframed⟩
  · exact ⟨rfl, Or.inl rfl⟩
  · obtain ⟨henabled, hlock, -, -⟩ := bind_frame hbind
    exact ⟨henabled, Or.inl hlock⟩
  · exact hframed

/-- While a thread restarts, the others can do nothing but bind. -/
theorem step_of_locked (houtline : Outline t s pc) (hlock : s.managerLock = some u) (hne : u ≠ t)
    (hmove : Moves text t s pc input s' pc') :
    s' = s ∨ ∃ name cb result, pc = .bindSection name cb ∧ s.bind name cb = some (s', result) := by
  rcases hmove.effect with hsame | hbind | ⟨hfree | hlocks, -⟩
  · exact Or.inl hsame
  · exact Or.inr hbind
  · rw [hlock] at hfree
    cases hfree
  · rw [houtline.1.mp hlocks] at hlock
    exact absurd (Option.some.inj hlock).symm hne

/-- A bind outside the window leaves what a restart relies on. -/
theorem Relies.bind (hrelies : Relies s pc) (hlocks : pc.locks = true)
    (henabled : s.enabled = true) (hwindow : name ∉ s.requestMap → pc.inWindow = false)
    (hbind : s.bind name cb = some (s', result)) : Relies s' pc := by
  by_cases hname : name ∈ s.requestMap
  · rw [bind_of_mem hname] at hbind
    cases hbind
    cases pc <;> exact hrelies
  · obtain ⟨j, hj⟩ := (bind_frame hbind).2.2.2 hname
    have houtside := hwindow hname
    cases pc with
    | restartInstall i => cases hrelies.1.symm.trans hj
    | restartReset i =>
      obtain ⟨hserver, hgrpc, hserves⟩ := hrelies
      obtain ⟨-, hserves', server, rfl⟩ :=
        bind_of_serves (hserves j hj) henabled hj hname hbind
      have hne : j ≠ i := fun heq => hgrpc (heq ▸ hj)
      refine ⟨(List.getElem?_set_ne hne).trans hserver, hgrpc, fun j' hj' => ?_⟩
      obtain rfl : j = j' := Option.some.inj (hj.symm.trans hj')
      exact hserves'
    | restartRaftStep i =>
      obtain ⟨hgrpc, hserves⟩ := hrelies
      obtain ⟨-, hserves', server, rfl⟩ := bind_of_serves hserves henabled hgrpc hname hbind
      exact ⟨hgrpc, hserves'⟩
    | restartAssociate i | restartRun i | restartRebind i => cases houtside
    | _ => cases hlocks

/-- Who holds the lock is not changed by the others. -/
theorem Moves.locks_iff {pcu : Pc} (hmove : Moves text t s pc input s' pc')
    (ht : pc.locks = true → s.managerLock = some t)
    (hu : pcu.locks = true ↔ s.managerLock = some u) (hne : u ≠ t) :
    pcu.locks = true ↔ s'.managerLock = some u := by
  constructor
  · intro hlocks
    have hlock := hu.mp hlocks
    rcases hmove.effect with rfl | ⟨name, cb, result, -, hbind⟩ | ⟨hfree | hmine, -⟩
    · exact hlock
    · exact (bind_frame hbind).2.1.trans hlock
    · rw [hlock] at hfree
      cases hfree
    · exact absurd (Option.some.inj (hlock.symm.trans (ht hmine))) hne
  · intro hlock
    rcases hmove.framed.managerLock with hsame | hmine | hfree
    · exact hu.mpr (hsame.symm.trans hlock)
    · exact absurd (Option.some.inj (hlock.symm.trans hmine)) hne
    · rw [hlock] at hfree
      cases hfree

/-- No thread disturbs another one. -/
theorem other_step {pcu : Pc} (ht : Outline t s pc) (hu : Outline u s pcu) (hne : u ≠ t)
    (hquiet : ∀ name cb, pc = .bindSection name cb → name ∉ s.requestMap →
      s.managerLock = some u → pcu.inWindow = false)
    (hmove : Moves text t s pc input s' pc') : Outline u s' pcu := by
  refine ⟨hmove.locks_iff ht.1.mp hu.1 hne, ?_⟩
  cases hlocks : pcu.locks with
  | true =>
    have hlock : s.managerLock = some u := hu.1.mp hlocks
    rcases step_of_locked ht hlock hne hmove with rfl | ⟨name, cb, result, rfl, hbind⟩
    · exact hu.2
    · exact hu.2.bind hlocks ht.2 (fun hname => hquiet name cb rfl hname hlock) hbind
  | false =>
    have hrelies := hu.2
    cases pcu with
    | bindSection name cb => exact hmove.framed.enabled.trans hrelies
    | idle | bindCheck | restartMake => trivial
    | bindDone result | restartDone result => exact hrelies
    | _ => cases hlocks

/-! ## Whole runs -/

variable {c c' : Config} {l : Label} {labels : List Label} {enabled : Bool}

/-- A new handler finds a server that serves, unless a restart is in its window. -/
theorem serving_of_outline (hs : Orderly c.shared)
    (hthreads : ∀ u, Outline u c.shared (c.threads u))
    (houtside : ∀ u ∈ c.shared.managerLock, (c.threads u).inWindow = false)
    (hi : c.shared.grpcServer = some i) :
    ∃ raft, Serves c.shared i raft ∧ (c.shared.managerLock = none → raft = true) := by
  cases hlock : c.shared.managerLock with
  | none => exact ⟨true, hs.serves hlock i hi, fun _ => rfl⟩
  | some u =>
    obtain ⟨hlocks, hrelies⟩ := hthreads u
    have hheld := hlocks.mpr hlock
    have hnot := houtside u hlock
    cases hpc : c.threads u with
    | restartReset j =>
      rw [hpc] at hrelies
      exact ⟨true, hrelies.2.2 i hi, fun _ => rfl⟩
    | restartInstall j =>
      rw [hpc] at hrelies
      cases hrelies.1.symm.trans hi
    | restartRaftStep j =>
      rw [hpc] at hrelies
      obtain rfl : j = i := Option.some.inj (hrelies.1.symm.trans hi)
      exact ⟨false, hrelies.2, fun h => by cases h⟩
    | restartAssociate j | restartRun j | restartRebind j =>
      rw [hpc] at hnot
      cases hnot
    | _ =>
      rw [hpc] at hheld
      cases hheld

/-- A step that is not disturbed keeps the state in order, and the assertions of all threads
with it. -/
theorem orderly_of_step (hs : Orderly c.shared) (hthreads : ∀ u, Outline u c.shared (c.threads u))
    (hundisturbed : Undisturbed c l) (hstep : step text c l = some c') :
    Orderly c'.shared ∧ ∀ u, Outline u c'.shared (c'.threads u) := by
  refine Interleaving.step_outline hstep hthreads ?_ ?_ fun event => event.elim
  · rintro t input s' pc' rfl hexec
    refine own_step hs (hthreads t) (fun name cb hpc hname i hi => ?_) (moves_of_exec hexec)
    have hbinds : name ∈ (c.threads t).binds := by rw [hpc]; rfl
    exact serving_of_outline hs hthreads (hundisturbed name hbinds hname) hi
  · rintro t input s' pc' u rfl hexec hne hu
    refine other_step (hthreads t) hu hne (fun name cb hpc hname hlock => ?_)
      (moves_of_exec hexec)
    have hbinds : name ∈ (c.threads t).binds := by rw [hpc]; rfl
    exact hundisturbed name hbinds hname u hlock

/-- At the beginning nothing is bound, and every thread is idle. -/
theorem orderly_start : Orderly (start enabled).shared ∧
    ∀ u, Outline u (start enabled).shared ((start enabled).threads u) := by
  refine ⟨⟨fun _ => rfl, fun _ => rfl, fun _ i hi => ?_⟩,
    fun u => ⟨⟨fun h => ?_, fun h => ?_⟩, trivial⟩⟩
  · cases hi
  · cases h
  · cases h

/-! ## The server that is missing during a restart -/

/-- There is a server, or a restart is between `reset()` and the assignment. -/
def Bridged (c : Config) : Prop :=
  c.shared.grpcServer = none →
    ∃ v i, c.shared.managerLock = some v ∧ c.threads v = .restartInstall i

/-- What a step can do to the server of the manager: nothing, destroy it, or install one. -/
theorem Moves.grpcServer (hmove : Moves text t s pc input s' pc') :
    (s'.grpcServer = s.grpcServer ∧ ∀ i, pc ≠ .restartInstall i) ∨
      (pc.locks = true ∧ s'.managerLock = s.managerLock ∧ ∃ i, pc' = .restartInstall i) ∨
      s'.grpcServer ≠ none := by
  cases hmove with
  | bind name cb result hbind => exact Or.inl ⟨(bind_frame hbind).2.2.1, fun _ => Pc.noConfusion⟩
  | reset i => exact Or.inr (Or.inl ⟨rfl, rfl, i, rfl⟩)
  | install i => exact Or.inr (Or.inr (Option.some_ne_none i))
  | rebind i hall | rebindThrew i hall =>
    obtain ⟨servers, rfl, -⟩ := rebindAll_eq hall
    exact Or.inl ⟨rfl, fun _ => Pc.noConfusion⟩
  | _ => exact Or.inl ⟨rfl, fun _ => Pc.noConfusion⟩

/-- A server that is there stays, but for the time between `reset()` and the assignment. -/
theorem Bridged.step (h : Bridged c)
    (hlocks : ∀ u, (c.threads u).locks = true ↔ c.shared.managerLock = some u)
    (hstep : Restart.step text c (.thread t input) = some c') : Bridged c' := by
  obtain ⟨s', pc', hexec, rfl⟩ := Interleaving.step_thread hstep
  have hmove := moves_of_exec hexec
  intro hnone
  rcases hmove.grpcServer with ⟨hsame, hpc⟩ | ⟨hheld, hlock, i, rfl⟩ | hsome
  · obtain ⟨v, i, hlock, hthread⟩ := h (hsame.symm.trans hnone)
    have hne : v ≠ t := by
      rintro rfl
      exact hpc i hthread
    have hkept := (hmove.locks_iff (hlocks t).mp (hlocks v) hne).mp ((hlocks v).mpr hlock)
    exact ⟨v, i, hkept, (Function.update_of_ne hne ..).trans hthread⟩
  · exact ⟨t, i, hlock.trans ((hlocks t).mp hheld), Function.update_self ..⟩
  · exact absurd hnone hsome

/-- The last step of a restart leaves the server as it is. -/
theorem Moves.ended {ended : Restarted} (hmove : Moves text t s pc input s' pc')
    (hpc' : pc' = .restartDone ended) :
    s'.grpcServer = s.grpcServer ∧ ((pc = .restartMake ∧ ended = .notMade) ∨
      ∃ i, (pc = .restartRebind i ∧ ended = .threw) ∨ pc = .restartRaftStep i) := by
  cases hmove with
  | call op => cases op <;> cases hpc'
  | notMade =>
    cases hpc'
    exact ⟨rfl, Or.inl ⟨rfl, rfl⟩⟩
  | rebindThrew i hall =>
    cases hpc'
    obtain ⟨servers, rfl, -⟩ := rebindAll_eq hall
    exact ⟨rfl, Or.inr ⟨i, Or.inl ⟨rfl, rfl⟩⟩⟩
  | raftStep i => exact ⟨rfl, Or.inr ⟨i, Or.inr rfl⟩⟩
  | _ => cases hpc'

/-- Once a restart has returned, a server is missing only during another one. -/
theorem bridged_of_step (hthreads : ∀ u, Outline u c.shared (c.threads u))
    (hbridged : ∀ u, c.threads u = .restartDone .returned → Bridged c)
    (hstep : step text c (.thread t input) = some c')
    (hpc : c'.threads u = .restartDone .returned) : Bridged c' := by
  obtain ⟨hexec, hothers⟩ := Interleaving.exec_of_step hstep
  by_cases hut : u = t
  · subst hut
    obtain ⟨hsame, ⟨-, hresult⟩ | ⟨i, ⟨-, hresult⟩ | hbefore⟩⟩ := (moves_of_exec hexec).ended hpc
    · cases hresult
    · cases hresult
    have hrelies := (hthreads u).2
    rw [hbefore] at hrelies
    intro hnone
    rw [hsame, hrelies.1] at hnone
    cases hnone
  · rw [hothers u hut] at hpc
    exact (hbridged u hpc).step (fun u => (hthreads u).1) hstep

/-- What holds in every undisturbed run. -/
structure Inv (c : Config) : Prop where
  orderly : Orderly c.shared
  threads : ∀ u, Outline u c.shared (c.threads u)
  bridged : ∀ u, c.threads u = .restartDone .returned → Bridged c

/-- It holds in every state that undisturbed steps lead to. -/
theorem inv_of_run (hrun : run (step text) (start enabled) labels = some c)
    (hundisturbed : Meets (step text) Undisturbed (start enabled) labels) : Inv c := by
  have hstart : Inv (start enabled) :=
    ⟨orderly_start.1, orderly_start.2, fun _ hpc => by cases hpc⟩
  refine run_invariant_of_meets (fun c l c' hc hl hstep => ?_) hstart hundisturbed hrun
  obtain ⟨horderly, hthreads⟩ := orderly_of_step hc.orderly hc.threads hl hstep
  refine ⟨horderly, hthreads, fun u hpc => ?_⟩
  cases l with
  | thread t input => exact bridged_of_step hc.threads hc.bridged hstep hpc
  | env event => exact event.elim

/-- In every run in which no bind adds a handler while a restart is between the
installation of its server and the end of the loop over the map: no call throws; a restart that
comes to its last step returns with its server as the current one, and from then on there is a
server, except while another restart is between `reset()` and the assignment; and whenever no
restart is under way, in particular when one has just returned, `RaftStep` is registered on the
current server, and so is every name of the map, exactly once and with the handler that was bound
first under it. -/
theorem restart_keeps_handlers
    (hrun : run (step text) (start enabled) labels = some c)
    (hundisturbed : Meets (step text) Undisturbed (start enabled) labels) :
    (∀ u, c.threads u ≠ .bindDone .threw ∧ c.threads u ≠ .restartDone .threw) ∧
    (∀ u i made, c.threads u = .restartRaftStep i →
      ∃ c', step text c (.thread u (.go made)) = some c' ∧ c'.threads u = .restartDone .returned ∧
        c'.shared.managerLock = none ∧ c'.shared.grpcServer = some i) ∧
    (∀ u, c.threads u = .restartDone .returned → c.shared.grpcServer = none →
      ∃ v i, c.shared.managerLock = some v ∧ c.threads v = .restartInstall i) ∧
    (c.shared.managerLock = none → ∀ i, c.shared.grpcServer = some i →
      ∃ server, c.shared.servers[i]? = some server ∧ server.raftStep = true ∧
        ∀ name cb, c.shared.requestMap.lookup name = some cb →
          server.genericRpcs.filter (fun rpc => rpc.1 = name) = [(name, cb)] ∧
          (c.shared.calls.find? fun call => call.1 = name).map Prod.snd = some cb) := by
  obtain ⟨horderly, hthreads, hbridged⟩ := inv_of_run hrun hundisturbed
  refine ⟨fun u => ⟨fun hpc => ?_, fun hpc => ?_⟩, fun u i made hpc => ?_, hbridged,
    fun hfree i hi => ?_⟩
  · have hrelies := (hthreads u).2
    rw [hpc] at hrelies
    exact hrelies rfl
  · have hrelies := (hthreads u).2
    rw [hpc] at hrelies
    exact hrelies rfl
  · have hrelies := (hthreads u).2
    rw [hpc] at hrelies
    have hadvance : advance u c.shared made (c.threads u) = some
        ({ c.shared.update i fun server => { server with raftStep := true } with
          managerLock := none }, .restartDone .returned) := by
      rw [hpc]
      rfl
    exact ⟨_, step_of_advance hadvance, Function.update_self .., rfl, hrelies.1⟩
  · obtain ⟨-, server, hserver, -, hraft, hperm⟩ := horderly.serves hfree i hi
    refine ⟨server, hserver, hraft, fun name cb hlookup => ⟨filter_of_perm hperm hlookup, ?_⟩⟩
    rw [← horderly.first name]
    exact hlookup

/-- A whole call of `restart_server` on thread `t`. -/
def restartOn (t : ℕ) : List Label :=
  .thread t (.call .restart) :: List.replicate 7 (.thread t (.go true))

/-- A whole bind on thread `t`. -/
def bindOn (t : ℕ) (requestName : String) (cb : HandlerId) : List Label :=
  [.thread t (.call (.bind requestName 1 (some cb))), .thread t (.go true), .thread t (.go true)]

/-- A bind between two restarts. -/
def bindBetween : List Label := restartOn 0 ++ bindOn 1 "read" 10 ++ restartOn 2

/-- The handler is registered on the second server. -/
theorem handlers_kept_by_bindBetween :
    ∃ c, run (step canonicalText) (start true) bindBetween = some c ∧
      c.shared.grpcServer = some 1 ∧ ∃ server, c.shared.servers[1]? = some server ∧
        server.raftStep = true ∧
        server.genericRpcs.filter (fun rpc => rpc.1 = getGenericMethodName canonicalText "read" 1) =
          [(getGenericMethodName canonicalText "read" 1, 10)] := by
  have hend : (run (step canonicalText) (start true) bindBetween).map (fun c =>
      (c.shared.managerLock, c.shared.grpcServer,
        c.shared.requestMap.lookup (getGenericMethodName canonicalText "read" 1))) =
      some (none, some 1, some 10) := by
    decide
  obtain ⟨c, hrun, hc⟩ := Option.map_eq_some_iff.mp hend
  obtain ⟨hfree, hc⟩ := Prod.ext_iff.mp hc
  obtain ⟨hgrpc, hlookup⟩ := Prod.ext_iff.mp hc
  have hundisturbed : Meets (step canonicalText) Undisturbed (start true) bindBetween := by
    decide
  obtain ⟨-, -, -, hserves⟩ := restart_keeps_handlers hrun hundisturbed
  obtain ⟨server, hserver, hraft, hkeys⟩ := hserves hfree 1 hgrpc
  exact ⟨c, hrun, hgrpc, server, hserver, hraft, (hkeys _ _ hlookup).1⟩

/-- A bind after the new server of a restart was started and before the loop. -/
def bindDuring : List Label :=
  restartOn 0 ++ (restartOn 2).take 6 ++ bindOn 1 "read" 10 ++ [.thread 2 (.go true)]

/-- The restart throws, and `RaftStep` is not registered on its server. -/
theorem raftStep_lost_by_bindDuring :
    ∃ c server, run (step canonicalText) (start true) bindDuring = some c ∧
      c.threads 1 = .bindDone .bound ∧ c.threads 2 = .restartDone .threw ∧
      c.shared.managerLock = none ∧ c.shared.grpcServer = some 1 ∧
      c.shared.servers[1]? = some server ∧ server.raftStep = false :=
  ⟨_, _, rfl, rfl, rfl, rfl, rfl, rfl, rfl⟩

end NuraftMesg.DataService.Restart
