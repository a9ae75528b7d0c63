import NuraftMesg.Service.Step
import NuraftMesg.UuidText

/-!
# What a server makes of a message

A peer can put any `RaftMessage` on the wire. `raftStep` compares the type of the message
with `join_cluster_request` on 32 bits and routes by its last eight; `toRequest` takes the
last eight, too, fills in a missing base and asserts that there is an `rc_request`. The
server therefore acts on what was sent exactly if the message is one that a sender can
have encoded.
-/

namespace NuraftMesg

open Proto

/-- The type that `raftStep` routes a message by. -/
def routedType (msg : RaftGroupMsg) : MsgType := ⟨msg.msg.getBase.type.toUInt8⟩

theorem poolFor_eq (msg : RaftGroupMsg) :
    poolFor msg = if isSlowMessage (routedType msg) then .io else .raft := rfl

/-- The last eight bits are all there is to a type below 256. -/
theorem toUInt32_toUInt8_eq_iff (type : UInt32) : type.toUInt8.toUInt32 = type ↔ type < 256 := by
  rw [UInt32.toUInt32_toUInt8, ← UInt32.toNat_inj, UInt32.toNat_mod, UInt32.lt_iff_toNat_lt]
  have hmodulus : (256 : UInt32).toNat = 256 := rfl
  rw [hmodulus]
  omega

/-! ## Encoding again what was decoded -/

/-- An entry is encoded as it was received. -/
theorem fromLogEntry_toLogEntry (beyond : ℕ → UInt8) (log : Proto.LogEntry) :
    (fromLogEntry beyond (toLogEntry log)).1 = log := by
  have hbuffer : copyBytes ((Buffer.ofBytes log.buffer).rewind.data beyond)
      (Buffer.ofBytes log.buffer).rewind.size = log.buffer :=
    Buffer.copy_data_of_pos_eq_zero beyond rfl
  simp [fromLogEntry, toLogEntry, hbuffer]

/-- So are all entries of a request. -/
theorem map_fromLogEntry_toLogEntry (beyond : ℕ → UInt8) (logs : List Proto.LogEntry) :
    ((logs.map toLogEntry).map (fromLogEntry beyond)).map Prod.fst = logs := by
  induction logs with
  | nil => rfl
  | cons log logs ih =>
    simp only [List.map_cons, fromLogEntry_toLogEntry]
    rw [ih]

/-- A decoded request is encoded as it was received, apart from a base that was missing
and the upper bits of the type. -/
theorem requestMessage_toRequest {raftMsg : RaftMessage} {req : ReqMsg}
    (hdecode : toRequest raftMsg = some req) (beyond : ℕ → UInt8) :
    requestMessage beyond req =
      { raftMsg with
        base := some { raftMsg.getBase with
          type := raftMsg.getBase.type.toUInt8.toUInt32 } } := by
  obtain ⟨base, reqResp⟩ := raftMsg
  rcases reqResp with _ | rc | resp
  · cases hdecode
  · cases hdecode
    simp only [requestMessage, fromBaseRequest, fromRCRequest, map_fromLogEntry_toLogEntry]
  · cases hdecode

/-- It is encoded as it was received exactly if there was a base with a type below 256. -/
theorem requestMessage_toRequest_eq_iff {raftMsg : RaftMessage} {req : ReqMsg}
    (hdecode : toRequest raftMsg = some req) (beyond : ℕ → UInt8) :
    requestMessage beyond req = raftMsg ↔ ∃ base, raftMsg.base = some base ∧ base.type < 256 := by
  rw [requestMessage_toRequest hdecode beyond]
  obtain ⟨base, reqResp⟩ := raftMsg
  cases base with
  | none => simp
  | some base =>
    obtain ⟨term, type, src, dest⟩ := base
    simpa [RaftMessage.getBase] using toUInt32_toUInt8_eq_iff type

/-- A message is decoded exactly if it carries an `rc_request`. -/
theorem toRequest_isSome_iff (raftMsg : RaftMessage) :
    (∃ req, toRequest raftMsg = some req) ↔ ∃ rc, raftMsg.reqResp = some (.rcRequest rc) := by
  obtain ⟨base, reqResp⟩ := raftMsg
  rcases reqResp with _ | rc | resp <;> simp [toRequest]

/-- The type of a decoded request is the one that the message was routed by. -/
theorem type_toRequest {msg : RaftGroupMsg} {req : ReqMsg}
    (hdecode : toRequest msg.msg = some req) : req.type = routedType msg := by
  unfold toRequest at hdecode
  split at hdecode
  · cases hdecode
    rfl
  · cases hdecode

/-- Routing sees the type that was sent exactly if it is below 256. -/
theorem routedType_eq_iff (msg : RaftGroupMsg) :
    (routedType msg).val.toUInt32 = msg.msg.getBase.type ↔ msg.msg.getBase.type < 256 :=
  toUInt32_toUInt8_eq_iff _

/-- For every message and whatever `process_req` answers: the message is handed on without
tripping the assertion, as a request that is encoded to the same message, with the type
that it was routed by and that it was compared with. There is no other way to answer a
message, and this one is taken exactly by the messages that carry a base with a type below
256 and an `rc_request`. -/
theorem acts_on_wire_iff (msg : RaftGroupMsg) :
    ((∀ beyond answer, ∃ req reply, executeStep beyond msg answer = some (req, reply) ∧
        (∀ beyond, requestMessage beyond req = msg.msg) ∧ req.type = routedType msg ∧
        poolFor msg = if isSlowMessage req.type then .io else .raft) ∧
      (routedType msg).val.toUInt32 = msg.msg.getBase.type) ↔
    ∃ base rc, msg.msg = ⟨some base, some (.rcRequest rc)⟩ ∧ base.type < 256 := by
  constructor
  · rintro ⟨hhanded, -⟩
    obtain ⟨req, reply, hexecute, hsame, -⟩ := hhanded (fun _ => 0) .null
    obtain ⟨req', hdecode, heq⟩ := Option.map_eq_some_iff.mp hexecute
    obtain rfl : req' = req := congrArg Prod.fst heq
    obtain ⟨rc, hrc⟩ := (toRequest_isSome_iff msg.msg).mp ⟨req', hdecode⟩
    obtain ⟨base, hbase, htype⟩ :=
      (requestMessage_toRequest_eq_iff hdecode fun _ => 0).mp (hsame _)
    refine ⟨base, rc, ?_, htype⟩
    rw [← hbase, ← hrc]
  · rintro ⟨base, rc, hmsg, htype⟩
    have hbase : msg.msg.base = some base := by rw [hmsg]
    have hgetBase : msg.msg.getBase = base := by rw [RaftMessage.getBase, hbase]; rfl
    obtain ⟨req, hdecode⟩ := (toRequest_isSome_iff msg.msg).mpr ⟨rc, by rw [hmsg]⟩
    have hrouted := type_toRequest hdecode
    refine ⟨fun beyond answer => ?_, ?_⟩
    · obtain ⟨reply, hexecute⟩ : ∃ reply, executeStep beyond msg answer = some (req, reply) := by
        unfold executeStep
        rw [hdecode]
        exact ⟨_, rfl⟩
      refine ⟨req, reply, hexecute, fun beyond' => ?_, hrouted, by rw [poolFor_eq, hrouted]⟩
      exact (requestMessage_toRequest_eq_iff hdecode beyond').mpr ⟨base, hbase, htype⟩
    · rw [routedType_eq_iff, hgetBase]
      exact htype

/-- A request of type `268`, whose last eight bits are those of `join_cluster_request`, to
the node with the address `7`. -/
def wideJoin : RaftGroupMsg where
  groupId := canonicalText.toString 1
  msg := ⟨some { type := 268 }, some (.rcRequest ⟨0, 0, 0, []⟩)⟩
  intendedAddr := canonicalText.toString 7
  groupType := "raft"

/-- The same request without a base. -/
def baseless : RaftGroupMsg := { wideJoin with msg := { wideJoin.msg with base := none } }

/-- A message that carries neither a request nor a response. -/
def contentless : RaftGroupMsg := { wideJoin with msg := { wideJoin.msg with reqResp := none } }

/-- All three pass the checks at the start of `raftStep`. The first message does not make the
node join and is then handed on as a join; the second one is handed on with a base that was
not sent; the third one trips the assertion. -/
theorem wideJoin_handed_on_as_join :
    (∀ msg ∈ [wideJoin, baseless, contentless],
      checkMessage ⟨7, "raft", canonicalText⟩ msg = .ok 1) ∧
    (∃ req reply, executeStep (fun _ => 0) wideJoin .null = some (req, reply) ∧
      isJoinRequest wideJoin = false ∧ req.type = .joinClusterRequest ∧
      requestMessage (fun _ => 0) req ≠ wideJoin.msg) ∧
    (∃ req reply, executeStep (fun _ => 0) baseless .null = some (req, reply) ∧
      requestMessage (fun _ => 0) req ≠ baseless.msg) ∧
    (executeStep (fun _ => 0) contentless .null).isNone := by
  refine ⟨?_, ⟨_, _, rfl, by decide, by decide, by decide⟩, ⟨_, _, rfl, by decide⟩, rfl⟩
  simp [checkMessage, wideJoin, baseless, contentless, canonicalText.read_print]

end NuraftMesg
