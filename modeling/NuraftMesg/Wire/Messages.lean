import NuraftMesg.Common

/-!
# Messages on both sides of the wire

NuRaft's own message classes, with the fields that the codec reads or sets, and
the protobuf messages of `raft_types.proto` and `messaging_service.proto`.
Enumerations are open in both worlds, so they carry any number of their width.
-/

namespace NuraftMesg

/-- `nuraft::buffer`: a block of bytes with a current position. `pos(p)` clips
at the size, so the position never leaves the block. -/
structure Buffer where
  /-- The whole content; `size()` is its length. -/
  bytes : List UInt8
  /-- The current position. -/
  pos : ℕ
  /-- The position lies within the block. -/
  pos_le : pos ≤ bytes.length
  deriving DecidableEq

namespace Buffer

/-- `size()`: the whole size, whatever the position. -/
def size (b : Buffer) : ℕ := b.bytes.length

/-- `pos(0)`. -/
def rewind (b : Buffer) : Buffer := ⟨b.bytes, 0, Nat.zero_le _⟩

/-- `buffer::alloc` followed by a copy of `bytes` to `data()`. -/
def ofBytes (bytes : List UInt8) : Buffer := ⟨bytes, 0, Nat.zero_le _⟩

/-- `data()`: the memory from the current position on. `beyond` is what lies
in memory after the block. -/
def data (b : Buffer) (beyond : ℕ → UInt8) (i : ℕ) : UInt8 :=
  b.bytes.getD (b.pos + i) (beyond (b.pos + i - b.bytes.length))

end Buffer

/-- The bytes a protobuf setter takes from a pointer and a length. -/
def copyBytes (ptr : ℕ → UInt8) (length : ℕ) : List UInt8 := (List.range length).map ptr

/-- `nuraft::msg_type`, an enumeration of eight bits. -/
structure MsgType where
  val : UInt8
  deriving DecidableEq

namespace MsgType

def appendEntriesRequest : MsgType := ⟨3⟩

def clientRequest : MsgType := ⟨5⟩

def addServerRequest : MsgType := ⟨6⟩

def removeServerRequest : MsgType := ⟨8⟩

def joinClusterRequest : MsgType := ⟨12⟩

def installSnapshotRequest : MsgType := ⟨16⟩

end MsgType

/-- `nuraft::log_val_type`: no enumerator is negative, so the underlying type is
`unsigned int`. -/
structure LogValType where
  val : UInt32
  deriving DecidableEq

/-- `nuraft::log_entry` with a non-null buffer. -/
structure LogEntry where
  term : UInt64
  buf : Buffer
  valType : LogValType
  timestamp : UInt64
  deriving DecidableEq

/-- `nuraft::msg_base`. -/
structure MsgBase where
  term : UInt64
  type : MsgType
  src : Int32
  dst : Int32
  deriving DecidableEq

/-- `nuraft::req_msg`. -/
structure ReqMsg extends MsgBase where
  lastLogTerm : UInt64
  lastLogIdx : UInt64
  commitIdx : UInt64
  logEntries : List LogEntry
  deriving DecidableEq

/-- `nuraft::resp_msg`. -/
structure RespMsg extends MsgBase where
  nextIdx : UInt64
  accepted : Bool
  nextBatchSizeHintInBytes : Int64
  resultCode : CmdResultCode
  ctx : Option Buffer
  deriving DecidableEq

/-- `grpc_resp`: an answer together with the endpoint of the leader it names. -/
structure GrpcResp extends RespMsg where
  destAddr : String
  deriving DecidableEq

namespace Proto

/-- `enum LogType`. -/
structure LogType where
  val : Int32
  deriving DecidableEq

/-- `enum ResultCode`: the negated `cmd_result_code`. -/
structure ResultCode where
  val : Int32
  deriving DecidableEq

/-- `message LogEntry`. -/
structure LogEntry where
  term : UInt64
  type : LogType
  buffer : List UInt8
  timestamp : UInt64
  deriving DecidableEq

/-- `message RCMsgBase`. -/
structure RCMsgBase where
  term : UInt64 := 0
  type : UInt32 := 0
  src : Int32 := 0
  dest : Int32 := 0
  deriving DecidableEq

/-- `message RCRequest`. -/
structure RCRequest where
  lastLogTerm : UInt64
  lastLogIndex : UInt64
  commitIndex : UInt64
  logEntries : List LogEntry
  deriving DecidableEq

/-- `message RCResponse`. -/
structure RCResponse where
  nextIndex : UInt64
  accepted : Bool
  context : List UInt8 := []
  destAddr : String := ""
  resultCode : ResultCode
  batchSizeHint : UInt64
  deriving DecidableEq

/-- The `oneof req_resp` of a `RaftMessage`. -/
inductive ReqResp where
  | rcRequest (req : RCRequest)
  | rcResponse (resp : RCResponse)
  deriving DecidableEq

/-- `message RaftMessage`. -/
structure RaftMessage where
  base : Option RCMsgBase
  reqResp : Option ReqResp
  deriving DecidableEq

/-- `base()`: the default instance when the field is not set. -/
def RaftMessage.getBase (m : RaftMessage) : RCMsgBase := m.base.getD {}

/-- `message RaftGroupMsg`. -/
structure RaftGroupMsg where
  groupId : String
  msg : RaftMessage
  intendedAddr : String
  groupType : GroupType
  deriving DecidableEq

end Proto

end NuraftMesg
