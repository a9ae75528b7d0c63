import NuraftMesg.Factory.Step
import NuraftMesg.UuidText

/-!
# Where a data request goes

The application names the receiver of a data request by a peer, by a Raft server id or
by a role. `get_peer_id` turns this into a peer with the help of the Raft server, and
`data_service_request_unidirectional` hands the request to the factory of the group.
A server id without an entry in the configuration is answered with an error; a leader
without one makes `string_generator` read an empty text.
-/

namespace NuraftMesg

/-- What a context asks the Raft server of its group. -/
structure RaftView where
  /-- The servers of the current configuration: their ids and endpoints. -/
  config : List (Int32 × String)
  /-- `get_leader()`, which is `-1` if there is none. -/
  leader : Int32
  /-- `is_leader()`. -/
  isLeader : Bool

/-- `id_to_str`: the endpoint that the configuration has for an id. -/
def RaftView.idToStr (view : RaftView) (id : Int32) : String :=
  (view.config.lookup id).getD ""

/-- The peer is in the configuration: the endpoint of a server is the text of its UUID. -/
def RaftView.HasMember (text : UuidText) (view : RaftView) (p : PeerId) : Prop :=
  text.toString p ∈ view.config.map Prod.snd

instance (text : UuidText) (view : RaftView) (p : PeerId) : Decidable (view.HasMember text p) :=
  inferInstanceAs (Decidable (_ ∈ _))

/-- `role_regex`. -/
inductive RoleRegex where
  | leader
  | follower
  | all
  | any
  deriving DecidableEq

/-- `destination_t`. -/
inductive Destination where
  | peer (p : PeerId)
  | role (role : RoleRegex)
  | server (id : Int32)
  deriving DecidableEq

/-- `repl_service_ctx_grpc`; either pointer can be null. -/
structure ReplServiceCtx where
  server : Option RaftView
  /-- `m_mesg_factory`. -/
  factory : Option ℕ

namespace ReplServiceCtx

/-- `get_peer_id`. The inner `none` is `std::nullopt`; without a result, an endpoint was
not a UUID and `string_generator` threw. -/
def getPeerId (text : UuidText) (ctx : ReplServiceCtx) (dest : Destination) :
    Option (Option (Except CmdResultCode PeerId)) :=
  match dest, ctx.server with
  | .peer p, _ => some (some (.ok p))
  | _, none => some (some (.error .serverNotFound))
  | .server id, some view =>
    if view.idToStr id = "" then some (some (.error .serverNotFound))
    else (text.stringGenerator (view.idToStr id)).map fun p => some (.ok p)
  | .role .leader, some view =>
    if view.isLeader then some (some (.error .badRequest))
    else if view.leader = -1 then some (some (.error .serverNotFound))
    else (text.stringGenerator (view.idToStr view.leader)).map fun p => some (.ok p)
  | .role .all, some _ => some none
  | .role _, some _ => some (some (.error .badRequest))

/-- `data_service_request_unidirectional`: the call on the factory that a request comes
to, or the error that it is answered with. -/
def dataServiceRequestUnidirectional (text : UuidText) (ctx : ReplServiceCtx)
    (dest : Destination) : Option (Except CmdResultCode Factory.Label) :=
  match ctx.factory with
  | none => some (.error .serverNotFound)
  | some f => (ctx.getPeerId text dest).map fun
    | none => .ok (.broadcast f)
    | some (.ok p) => .ok (.unidirectional f p)
    | some (.error code) => .error code

variable {text : UuidText} {ctx : ReplServiceCtx} {dest : Destination} {f : ℕ}

/-- The destination that stands for all peers is the only one without a peer or an error. -/
theorem getPeerId_eq_nullopt_iff :
    ctx.getPeerId text dest = some none ↔ dest = .role .all ∧ ctx.server ≠ none := by
  rcases hserver : ctx.server with _ | view
  · rcases dest with p | role | id <;> simp [getPeerId, hserver]
  · rcases dest with p | (_ | _ | _ | _) | id
    · simp [getPeerId]
    · simp only [getPeerId, hserver]
      split_ifs <;> simp
    · simp [getPeerId, hserver]
    · simp [getPeerId, hserver]
    · simp [getPeerId, hserver]
    · simp only [getPeerId, hserver]
      split_ifs <;> simp

/-- So it is the only one that goes to all clients of the factory. -/
theorem request_eq_broadcast_iff :
    ctx.dataServiceRequestUnidirectional text dest = some (.ok (.broadcast f)) ↔
      dest = .role .all ∧ ctx.server ≠ none ∧ ctx.factory = some f := by
  rcases hfactory : ctx.factory with _ | f'
  · simp [dataServiceRequestUnidirectional, hfactory]
  · rw [dataServiceRequestUnidirectional, hfactory]
    constructor
    · intro hrequest
      obtain ⟨result, hresult, heq⟩ := Option.map_eq_some_iff.mp hrequest
      rcases result with _ | code | p
      · cases heq
        obtain ⟨hdest, hserver⟩ := getPeerId_eq_nullopt_iff.mp hresult
        exact ⟨hdest, hserver, rfl⟩
      · cases heq
      · cases heq
    · rintro ⟨hdest, hserver, heq⟩
      cases heq
      rw [getPeerId_eq_nullopt_iff.mpr ⟨hdest, hserver⟩]
      rfl

/-! ## Resolving a destination -/

variable {view : RaftView} {id : Int32} {p : PeerId}

/-- The server that a destination stands for, if it is one server of the group. -/
def designates (view : RaftView) : Destination → Option Int32
  | .server id => some id
  | .role .leader => some view.leader
  | _ => none

/-- A server without an entry has the empty text, and with UUIDs for endpoints no other
server has. -/
theorem idToStr_eq_empty_iff (hempty : text.stringGenerator "" = none)
    (huuid : ∀ server ∈ view.config, (text.stringGenerator server.2).isSome) :
    view.idToStr id = "" ↔ view.config.lookup id = none := by
  unfold RaftView.idToStr
  cases hlookup : view.config.lookup id with
  | none => simp
  | some endpoint =>
    obtain ⟨front, back, hconfig, -⟩ := List.lookup_eq_some_iff.mp hlookup
    have hmem : (id, endpoint) ∈ view.config := by
      rw [hconfig]
      simp
    have hne : endpoint ≠ "" := by
      rintro rfl
      have hread := huuid _ hmem
      rw [hempty] at hread
      cases hread
    simpa using hne

/-- A peer that was read from the configuration is the endpoint of an entry. -/
theorem read_idToStr {result : Option (Except CmdResultCode PeerId)}
    (hempty : text.stringGenerator "" = none)
    (hread : (text.stringGenerator (view.idToStr id)).map (fun p => some (.ok p)) = some result)
    (hresult : result = some (.ok p)) :
    ∃ endpoint, view.config.lookup id = some endpoint ∧ text.stringGenerator endpoint = some p := by
  obtain ⟨q, hq, rfl⟩ := Option.map_eq_some_iff.mp hread
  cases hresult
  unfold RaftView.idToStr at hq
  cases hlookup : view.config.lookup id with
  | none =>
    rw [hlookup, Option.getD_none, hempty] at hq
    cases hq
  | some endpoint =>
    rw [hlookup] at hq
    exact ⟨endpoint, rfl, hq⟩

/-- A server id is always resolved, with an error if the configuration does not have it. -/
theorem getPeerId_server (hempty : text.stringGenerator "" = none)
    (huuid : ∀ server ∈ view.config, (text.stringGenerator server.2).isSome)
    (hserver : ctx.server = some view) :
    (ctx.getPeerId text (.server id)).isSome ∧
      (view.config.lookup id = none →
        ctx.getPeerId text (.server id) = some (some (.error .serverNotFound))) := by
  simp only [getPeerId, hserver, idToStr_eq_empty_iff hempty huuid]
  cases hlookup : view.config.lookup id with
  | none => simp
  | some endpoint =>
    obtain ⟨front, back, hconfig, -⟩ := List.lookup_eq_some_iff.mp hlookup
    have hread : (text.stringGenerator endpoint).isSome := by
      apply huuid (id, endpoint)
      rw [hconfig]
      simp
    simpa [RaftView.idToStr, hlookup] using hread

/-- A leader that is known is resolved like its server id, exactly if the configuration
has it. -/
theorem getPeerId_leader_iff (hempty : text.stringGenerator "" = none)
    (huuid : ∀ server ∈ view.config, (text.stringGenerator server.2).isSome)
    (hserver : ctx.server = some view) (hfollows : view.isLeader = false)
    (hknown : view.leader ≠ -1) :
    ctx.getPeerId text (.role .leader) = ctx.getPeerId text (.server view.leader) ↔
      (view.config.lookup view.leader).isSome := by
  simp only [getPeerId, hserver, hfollows, if_neg hknown, Bool.false_eq_true, if_false]
  by_cases hpresent : view.idToStr view.leader = ""
  · have hnone := (idToStr_eq_empty_iff hempty huuid).mp hpresent
    simp [hpresent, hempty, hnone]
  · have hsome := mt (idToStr_eq_empty_iff hempty huuid).mpr hpresent
    simpa [hpresent, Option.isSome_iff_ne_none] using hsome

/-- A peer that is returned was given by the caller or is the endpoint that the
configuration has for the server that the destination stands for. -/
theorem getPeerId_eq_ok (hempty : text.stringGenerator "" = none)
    (hpeer : ctx.getPeerId text dest = some (some (.ok p))) :
    dest = .peer p ∨ ∃ view id endpoint, ctx.server = some view ∧
      designates view dest = some id ∧ view.config.lookup id = some endpoint ∧
      text.stringGenerator endpoint = some p := by
  rcases dest with q | role | id
  · left
    simp only [getPeerId] at hpeer
    cases hpeer
    rfl
  · right
    rcases hserver : ctx.server with _ | view
    · simp [getPeerId, hserver] at hpeer
    · cases role with
      | leader =>
        simp only [getPeerId, hserver] at hpeer
        split_ifs at hpeer
        · cases hpeer
        · cases hpeer
        · obtain ⟨endpoint, hendpoint⟩ := read_idToStr hempty hpeer rfl
          exact ⟨view, view.leader, endpoint, rfl, rfl, hendpoint⟩
      | _ => simp [getPeerId, hserver] at hpeer
  · right
    rcases hserver : ctx.server with _ | view
    · simp [getPeerId, hserver] at hpeer
    · simp only [getPeerId, hserver] at hpeer
      split_ifs at hpeer
      · cases hpeer
      · obtain ⟨endpoint, hendpoint⟩ := read_idToStr hempty hpeer rfl
        exact ⟨view, id, endpoint, rfl, rfl, hendpoint⟩

/-- For every view whose configuration has UUIDs for endpoints: every destination is
resolved to a value, an unknown server id to an error; a known leader is resolved like its
server id; and a peer comes from the caller or from the configuration. This holds exactly
if the configuration has the leader, unless this node is the leader or none is known. -/
theorem resolution_total_iff (hempty : text.stringGenerator "" = none)
    (huuid : ∀ view ∈ ctx.server, ∀ server ∈ view.config,
      (text.stringGenerator server.2).isSome) :
    ((∀ dest, (ctx.getPeerId text dest).isSome) ∧
      (∀ view ∈ ctx.server, ∀ id, view.config.lookup id = none →
        ctx.getPeerId text (.server id) = some (some (.error .serverNotFound))) ∧
      (∀ view ∈ ctx.server, view.isLeader = false → view.leader ≠ -1 →
        ctx.getPeerId text (.role .leader) = ctx.getPeerId text (.server view.leader)) ∧
      ∀ dest p, ctx.getPeerId text dest = some (some (.ok p)) →
        dest = .peer p ∨ ∃ view id endpoint, ctx.server = some view ∧
          designates view dest = some id ∧ view.config.lookup id = some endpoint ∧
          text.stringGenerator endpoint = some p) ↔
    ∀ view ∈ ctx.server, view.isLeader = false → view.leader ≠ -1 →
      (view.config.lookup view.leader).isSome := by
  constructor
  · rintro ⟨-, -, hagree, -⟩ view hserver hfollows hknown
    exact (getPeerId_leader_iff hempty (huuid view hserver) hserver hfollows hknown).mp
      (hagree view hserver hfollows hknown)
  · intro hpresent
    have hagree : ∀ view ∈ ctx.server, view.isLeader = false → view.leader ≠ -1 →
        ctx.getPeerId text (.role .leader) = ctx.getPeerId text (.server view.leader) := by
      intro view hserver hfollows hknown
      exact (getPeerId_leader_iff hempty (huuid view hserver) hserver hfollows hknown).mpr
        (hpresent view hserver hfollows hknown)
    refine ⟨fun dest => ?_, fun view hserver id => ?_, hagree, fun dest p hpeer => ?_⟩
    · rcases hserver : ctx.server with _ | view
      · cases dest <;> simp [getPeerId, hserver]
      have hids : ∀ id, (ctx.getPeerId text (.server id)).isSome :=
        fun id => (getPeerId_server hempty (huuid view hserver) hserver).1
      rcases dest with p | role | id
      · rfl
      · cases role with
        | leader =>
          by_cases hfollows : view.isLeader = false
          · by_cases hknown : view.leader = -1
            · simp [getPeerId, hserver, hfollows, hknown]
            · rw [hagree view hserver hfollows hknown]
              exact hids view.leader
          · simp [getPeerId, hserver, hfollows]
        | _ => simp [getPeerId, hserver]
      · exact hids id
    · exact (getPeerId_server hempty (huuid view hserver) hserver).2
    · exact getPeerId_eq_ok hempty hpeer

/-- A follower of server `2`, which is in the configuration. -/
def followsKnown : ReplServiceCtx where
  server := some ⟨[(1, canonicalText.toString 1), (2, canonicalText.toString 2)], 2, false⟩
  factory := some 0

/-- Its leader is resolved to the endpoint of server `2`. -/
theorem leader_resolved_by_followsKnown :
    followsKnown.getPeerId canonicalText (.role .leader) =
      followsKnown.getPeerId canonicalText (.server 2) ∧
    followsKnown.getPeerId canonicalText (.server 2) = some (some (.ok 2)) := by
  have huuid : ∀ view ∈ followsKnown.server, ∀ server ∈ view.config,
      (canonicalText.stringGenerator server.2).isSome := by
    rintro view ⟨⟩ server hserver
    simp only [List.mem_cons, List.not_mem_nil, or_false] at hserver
    rcases hserver with rfl | rfl <;> rw [canonicalText.read_print] <;> rfl
  have hpresent : ∀ view ∈ followsKnown.server, view.isLeader = false → view.leader ≠ -1 →
      (view.config.lookup view.leader).isSome := by
    rintro view ⟨⟩ - -
    rfl
  obtain ⟨-, -, hagree, -⟩ := (resolution_total_iff (by decide) huuid).mpr hpresent
  refine ⟨hagree _ rfl rfl (by decide), ?_⟩
  decide

/-- A follower of server `3`, which has left the configuration. -/
def followsRemoved : ReplServiceCtx where
  server := some ⟨[(1, canonicalText.toString 1), (2, canonicalText.toString 2)], 3, false⟩
  factory := some 0

/-- The role is not resolved at all, where the server id is answered with an error. -/
theorem leader_unresolved_by_followsRemoved :
    followsRemoved.getPeerId canonicalText (.role .leader) = none ∧
      followsRemoved.getPeerId canonicalText (.server 3) =
        some (some (.error .serverNotFound)) := by
  decide

end ReplServiceCtx

end NuraftMesg
