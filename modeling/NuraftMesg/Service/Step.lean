import NuraftMesg.Wire.Codec

/-!
# Receiving a Raft message

`proto_service::raftStep` runs on a gRPC thread: it checks that the message is
meant for this node, lets the node join the group if the message asks for it,
finds the group's server and posts a task to one of two pools. The task runs
`execute_step`, which hands the request to NuRaft and sends the answer. This file
has the parts of these functions that do not touch the node's registries.
-/

namespace NuraftMesg

open Proto

/-- What a node is configured with. -/
structure Node where
  /-- `_service_address`. -/
  serviceAddress : PeerId
  /-- `_default_group_type`. -/
  defaultGroupType : GroupType
  /-- Boost's conversion of UUIDs. -/
  text : UuidText

/-- The pools that a received message can be posted to. -/
inductive Pool where
  /-- `_raft_thread_pool`. -/
  | raft
  /-- `_io_thread_pool`. -/
  | io
  deriving DecidableEq

/-- `is_slow_message`. -/
def isSlowMessage (type : MsgType) : Bool :=
  type = .appendEntriesRequest || type = .installSnapshotRequest

/-- The pool for a message, chosen after the cast of its type to `msg_type`. -/
def poolFor (msg : RaftGroupMsg) : Pool :=
  if isSlowMessage ⟨msg.msg.getBase.type.toUInt8⟩ then .io else .raft

/-- The comparison with `join_cluster_request`, made on all 32 bits. -/
def isJoinRequest (msg : RaftGroupMsg) : Bool :=
  MsgType.joinClusterRequest.val.toUInt32 = msg.msg.getBase.type

/-- The status for a message whose group or address is not a UUID. -/
def badGroup (msg : RaftGroupMsg) : Status :=
  ⟨.invalidArgument, "Bad GroupID " ++ msg.groupId⟩

/-- The status for a message that was meant for another node. -/
def wrongService (node : Node) (msg : RaftGroupMsg) : Status :=
  ⟨.invalidArgument, "intended addr: [" ++ msg.intendedAddr ++ "], our addr: [" ++
    node.text.toString node.serviceAddress ++ "]"⟩

/-- The status for a group without a server. -/
def missingGroup (msg : RaftGroupMsg) : Status :=
  ⟨.notFound, "Missing RAFT group " ++ msg.groupId⟩

/-- The checks at the start of `raftStep`: the group of an acceptable message, or
the status it is answered with. -/
def checkMessage (node : Node) (msg : RaftGroupMsg) : Except Status GroupId :=
  match node.text.stringGenerator msg.groupId, node.text.stringGenerator msg.intendedAddr with
  | some gid, some sid =>
    if sid = node.serviceAddress then .ok gid else .error (wrongService node msg)
  | _, _ => .error (badGroup msg)

/-- What NuRaft's `process_req` came back with. -/
inductive Answer where
  /-- An answer, and the endpoint that `get_srv_config` has for its `dst`. -/
  | resp (resp : RespMsg) (endpoint : Option String)
  /-- A null pointer. -/
  | null
  /-- A `std::runtime_error`. -/
  | throws

/-- The reply that is sent over gRPC. -/
structure Reply where
  status : Status := {}
  groupId : String := ""
  msg : RaftMessage := ⟨none, none⟩

/-- `set_dest_addr` on the response of a message. -/
def setDestAddr (reply : RaftMessage) (endpoint : String) : RaftMessage :=
  match reply.reqResp with
  | some (.rcResponse resp) =>
    { reply with reqResp := some (.rcResponse { resp with destAddr := endpoint }) }
  | _ => reply

/-- `proto_service::step` after `process_req`: the status and the message. -/
def stepReply (beyond : ℕ → UInt8) (resp : RespMsg) (endpoint : Option String) : RaftMessage :=
  let reply := replyMessage beyond resp
  if resp.accepted then reply
  else match endpoint with
    | some endpoint => setDestAddr reply endpoint
    | none => reply

/-- `execute_step`: the request handed to `process_req` and the reply. Without
an `rc_request` the assertion in `toRequest` fails. -/
def executeStep (beyond : ℕ → UInt8) (msg : RaftGroupMsg) (answer : Answer) :
    Option (ReqMsg × Reply) :=
  (toRequest msg.msg).map fun req =>
    (req, match answer with
      | .resp resp endpoint => { groupId := msg.groupId, msg := stepReply beyond resp endpoint }
      | .null => { status := ⟨.cancelled, "Server rejected request"⟩, groupId := msg.groupId }
      | .throws => { status := missingGroup msg, groupId := msg.groupId })

/-- A message is let in only on the node whose address it names. -/
theorem checkMessage_eq_ok {node : Node} {msg : RaftGroupMsg} {g : GroupId}
    (hok : checkMessage node msg = .ok g) :
    node.text.stringGenerator msg.groupId = some g ∧
      node.text.stringGenerator msg.intendedAddr = some node.serviceAddress := by
  unfold checkMessage at hok
  split at hok
  · split at hok
    · cases hok
      simp_all
    · cases hok
  · cases hok

/-- Every refusal of the checks is an `INVALID_ARGUMENT`. -/
theorem checkMessage_eq_error {node : Node} {msg : RaftGroupMsg} {status : Status}
    (herror : checkMessage node msg = .error status) : status.code = .invalidArgument := by
  unfold checkMessage at herror
  split at herror
  · split at herror
    · cases herror
    · cases herror
      rfl
  · cases herror
    rfl

end NuraftMesg
