import NuraftMesg.Wire.Messages
import Mathlib.Data.List.GetD

/-!
# Encoding and decoding of Raft messages

The sender builds a `RaftMessage` in `grpc_base_client::send`, the server takes
it apart in `proto_service::step` and answers with one built from NuRaft's
response, which the sender decodes again. The encoders read `nuraft::buffer`s
through `data()` and `size()`, so they are given the memory `beyond` a buffer.
-/

namespace NuraftMesg

open Proto

/-- `fromBaseRequest` (`utils.hpp`). -/
def fromBaseRequest (rcbase : MsgBase) : RCMsgBase where
  term := rcbase.term
  src := rcbase.src
  dest := rcbase.dst
  type := rcbase.type.val.toUInt32

/-- `fromLogEntry`: the wire entry, and the entry whose buffer was rewound for
the copy. -/
def fromLogEntry (beyond : ℕ → UInt8) (entry : NuraftMesg.LogEntry) :
    Proto.LogEntry × NuraftMesg.LogEntry :=
  let buffer := entry.buf.rewind
  ({ term := entry.term
     type := ⟨entry.valType.val.toInt32⟩
     buffer := copyBytes (buffer.data beyond) buffer.size
     timestamp := entry.timestamp },
   { entry with buf := buffer })

/-- `fromRCRequest`: the wire request, and the message whose buffers were
rewound. -/
def fromRCRequest (beyond : ℕ → UInt8) (rcmsg : ReqMsg) : RCRequest × ReqMsg :=
  let entries := rcmsg.logEntries.map (fromLogEntry beyond)
  ({ lastLogTerm := rcmsg.lastLogTerm
     lastLogIndex := rcmsg.lastLogIdx
     commitIndex := rcmsg.commitIdx
     logEntries := entries.map Prod.fst },
   { rcmsg with logEntries := entries.map Prod.snd })

/-- The message that `grpc_base_client::send` puts on the wire. -/
def requestMessage (beyond : ℕ → UInt8) (req : ReqMsg) : RaftMessage where
  base := some (fromBaseRequest req.toMsgBase)
  reqResp := some (.rcRequest (fromRCRequest beyond req).1)

/-- The loop body of `toRequest`: allocate, copy and wrap one entry. -/
def toLogEntry (log : Proto.LogEntry) : NuraftMesg.LogEntry where
  term := log.term
  buf := Buffer.ofBytes log.buffer
  valType := ⟨log.type.val.toUInt32⟩
  timestamp := log.timestamp

/-- `toRequest`. A message without `rc_request` trips the assertion. -/
def toRequest (raftMsg : RaftMessage) : Option ReqMsg :=
  match raftMsg.reqResp with
  | some (.rcRequest req) =>
    let base := raftMsg.getBase
    some
      { term := base.term
        type := ⟨base.type.toUInt8⟩
        src := base.src
        dst := base.dest
        lastLogTerm := req.lastLogTerm
        lastLogIdx := req.lastLogIndex
        commitIdx := req.commitIndex
        logEntries := req.logEntries.map toLogEntry }
  | _ => none

/-- `fromRCResponse`. Unlike `fromLogEntry` it takes `data()` at the buffer's
current position, with the length of the whole buffer. -/
def fromRCResponse (beyond : ℕ → UInt8) (rcmsg : RespMsg) : RCResponse where
  nextIndex := rcmsg.nextIdx
  accepted := rcmsg.accepted
  batchSizeHint := rcmsg.nextBatchSizeHintInBytes.toUInt64
  resultCode := ⟨0 - rcmsg.resultCode.val⟩
  context :=
    match rcmsg.ctx with
    | some ctx => copyBytes (ctx.data beyond) ctx.size
    | none => []

/-- The reply that `proto_service::step` builds from an answer, before it adds
the leader's endpoint. -/
def replyMessage (beyond : ℕ → UInt8) (resp : RespMsg) : RaftMessage where
  base := some (fromBaseRequest resp.toMsgBase)
  reqResp := some (.rcResponse (fromRCResponse beyond resp))

/-- `toResponse`, null when the message carries no `rc_response`. -/
def toResponse (raftMsg : RaftMessage) : Option GrpcResp :=
  match raftMsg.reqResp with
  | some (.rcResponse resp) =>
    let base := raftMsg.getBase
    let resultCode : CmdResultCode := ⟨0 - resp.resultCode.val⟩
    some
      { term := base.term
        type := ⟨base.type.toUInt8⟩
        src := base.src
        dst := base.dest
        nextIdx := resp.nextIndex
        accepted := resp.accepted
        nextBatchSizeHintInBytes := resp.batchSizeHint.toInt64
        resultCode := resultCode
        ctx := if 0 < resp.context.length then some (Buffer.ofBytes resp.context) else none
        destAddr := if resultCode = .notLeader then resp.destAddr else "" }
  | _ => none

/-! ## Reading a buffer through its pointer -/

@[simp] theorem copyBytes_length (ptr : ℕ → UInt8) (length : ℕ) :
    (copyBytes ptr length).length = length := by
  simp [copyBytes]

/-- Reading `size()` bytes at `data()` gives the remaining bytes of the block
and, if the position is not zero, as many bytes from beyond its end. -/
theorem Buffer.copy_data (b : Buffer) (beyond : ℕ → UInt8) :
    copyBytes (b.data beyond) b.size =
      b.bytes.drop b.pos ++ (List.range b.pos).map beyond := by
  have hpos := b.pos_le
  apply List.ext_getElem
  · simp only [copyBytes_length, Buffer.size, List.length_append, List.length_drop,
      List.length_map, List.length_range]
    omega
  · intro i hi _
    have hsize : i < b.bytes.length := by simpa [Buffer.size] using hi
    simp only [copyBytes, List.getElem_map, List.getElem_range, Buffer.data]
    by_cases hin : b.pos + i < b.bytes.length
    · rw [List.getElem_append_left (by simp only [List.length_drop]; omega), List.getElem_drop,
        List.getD_eq_getElem _ _ hin]
    · rw [List.getElem_append_right (by simp only [List.length_drop]; omega), List.getElem_map,
        List.getElem_range, List.getD_eq_default _ _ (by omega)]
      congr 1
      simp only [List.length_drop]
      omega

/-- A rewound buffer is read as a whole. -/
theorem Buffer.copy_data_of_pos_eq_zero {b : Buffer} (beyond : ℕ → UInt8) (hpos : b.pos = 0) :
    copyBytes (b.data beyond) b.size = b.bytes := by
  rw [b.copy_data, hpos]
  simp

end NuraftMesg
