import NuraftMesg.Base.Promise
import NuraftMesg.Base.Transition
import NuraftMesg.Wire.Messages

/-!
# Client calls and their redirection

`grpc_factory::add_server`, `rem_server` and `append_entry` send a message to a
cluster member and hand a future to the caller. The completion handler either
settles the caller's promise or forwards the request to the leader it was told
about. A call is a small transition system: its two kinds of steps are the
completion of an outstanding RPC and the caller's thread running `ctx->future()`,
which the source does after it has sent the first message.
-/

namespace NuraftMesg

/-- What NuRaft contributes to the payload of a message. -/
structure Serializer where
  /-- `nuraft::srv_config(id, endpoint).serialize()`. -/
  srvConfig : Int32 → String → Buffer
  /-- The four bytes that `buffer::put(int32)` writes. -/
  putInt32 : Int32 → List UInt8

/-- `nuraft::srv_config`, as far as the factory reads it. -/
structure SrvConfig where
  /-- The server id. -/
  id : Int32
  /-- The endpoint, which is the text of the server's UUID. -/
  endpoint : String
  deriving DecidableEq

/-- The `Payload` of a `client_ctx`, one constructor for each instance of the
template. -/
inductive Payload where
  /-- `uint32_t`: the server to add. -/
  | addServer (srvId : UInt32)
  /-- `int32_t`: the server to remove. -/
  | removeServer (srvId : Int32)
  /-- `std::shared_ptr<buffer>`: the entry to append. -/
  | appendEntry (buf : Buffer)
  deriving DecidableEq

/-- Encoding a message rewinds the caller's buffer, which the message shares. -/
def Payload.rewind : Payload → Payload
  | .appendEntry buf => .appendEntry buf.rewind
  | payload => payload

/-- `createMessage`. -/
def createMessage (nuraft : Serializer) (text : UuidText) (payload : Payload) (srvAddr : PeerId) :
    ReqMsg :=
  match payload with
  | .addServer srvId =>
    { term := 0, type := .addServerRequest, src := 0, dst := 0
      lastLogTerm := 0, lastLogIdx := 0, commitIdx := 0
      logEntries := [{ term := 0, buf := nuraft.srvConfig srvId.toInt32 (text.toString srvAddr)
                       valType := ⟨3⟩, timestamp := 0 }] }
  | .appendEntry buf =>
    { term := 0, type := .clientRequest, src := 0, dst := 1
      lastLogTerm := 0, lastLogIdx := 0, commitIdx := 0
      logEntries := [{ term := 0, buf := buf, valType := ⟨1⟩, timestamp := 0 }] }
  | .removeServer srvId =>
    { term := 0, type := .removeServerRequest, src := 0, dst := 0
      lastLogTerm := 0, lastLogIdx := 0, commitIdx := 0
      logEntries := [{ term := 0, buf := Buffer.ofBytes (nuraft.putInt32 srvId)
                       valType := ⟨3⟩, timestamp := 0 }] }

/-- `NullResult`: success carries no value. -/
abbrev NullResult := Except CmdResultCode Unit

/-- The value that `client_ctx::set` gives to the promise. -/
def nullResult (code : CmdResultCode) : NullResult :=
  if code = .ok then .ok () else .error code

/-- What `create_or_reinit_client(std::string)` came back with. -/
inductive Target where
  /-- A null pointer: the endpoint is not a UUID, or the creation threw. -/
  | null
  /-- A `grpc_error_client`, which completes inside `send` with an error. -/
  | errorClient
  /-- A client that sends over the network. -/
  | remote
  deriving DecidableEq

/-- A call in progress: the `client_ctx` and what became of its messages. -/
structure Call where
  /-- All promise cores the call has made. -/
  store : Promise.Store NullResult
  /-- `_promise`. -/
  promise : ℕ
  /-- `_cur_dest`: the server id of the latest destination. -/
  curDest : Int32
  /-- `_new_srv_addr`. -/
  newSrvAddr : PeerId
  /-- `_payload`. -/
  payload : Payload
  /-- RPCs sent and not yet completed; each handler keeps the context alive. -/
  outstanding : ℕ
  /-- The future handed to the caller, once `ctx->future()` has run. -/
  future : Option ℕ
  /-- The codes given to `client_ctx::set`, in order. -/
  settled : List CmdResultCode
  /-- The messages sent, with the endpoint each was sent to. -/
  sent : List (String × ReqMsg)

namespace Call

variable (nuraft : Serializer) (text : UuidText)

/-- `client_ctx::set`; `none` if the promise had a value already. -/
def set (c : Call) (code : CmdResultCode) : Option Call :=
  (c.store.setValue c.promise (nullResult code)).map fun store =>
    { c with store := store, settled := c.settled ++ [code] }

/-- `client->send(msg, handler)` with a message made from the context's payload.
`grpc_error_client::send` runs the handler on the spot, without a response; a
null client has no behaviour. -/
def send (c : Call) (endpoint : String) : Target → Option Call
  | .null => none
  | .errorClient => c.set .serverNotFound
  | .remote => some
      { c with
        outstanding := c.outstanding + 1
        payload := c.payload.rewind
        sent := c.sent ++ [(endpoint, createMessage nuraft text c.payload c.newSrvAddr)] }

/-- `respHandler`, given the client that a redirection would obtain. -/
def respHandler (c : Call) (rsp : Option GrpcResp) (err : Bool) (target : Target) : Option Call :=
  match rsp with
  | none => c.set .serverNotFound
  | some rsp =>
    if err then c.set rsp.resultCode
    else if rsp.accepted then c.set rsp.resultCode
    else if c.curDest = rsp.dst then c.set rsp.resultCode
    else if rsp.dst < 0 then c.set rsp.resultCode
    else send nuraft text { c with curDest := rsp.dst } rsp.destAddr target

/-- The context dies with the last handler, once the caller's frame is gone. -/
def release (c : Call) : Call :=
  if c.outstanding = 0 ∧ c.future.isSome then { c with store := c.store.detach c.promise } else c

/-- `client_ctx::future`: a new contract is moved over the context's promise. -/
def makeFuture (c : Call) : Call :=
  let fresh := c.store.new
  { c with store := fresh.1.detach c.promise, promise := fresh.2, future := some fresh.2 }

/-- One step of a call. -/
inductive Label where
  /-- The caller's thread runs `ctx->future()` and returns. -/
  | future
  /-- An outstanding RPC completes; `target` is the client a redirection gets. -/
  | complete (rsp : Option GrpcResp) (err : Bool) (target : Target)

/-- The effect of one step; the caller runs `ctx->future()` once. -/
def step (c : Call) : Label → Option Call
  | .future => if c.future.isSome then none else some c.makeFuture.release
  | .complete rsp err target =>
    if c.outstanding = 0 then none
    else (respHandler nuraft text { c with outstanding := c.outstanding - 1 } rsp err target).map
      release

/-- The context as it is constructed: the promise is a default one, whose core
no future refers to. -/
def context (payload : Payload) (dest : Int32) (newSrvAddr : PeerId) : Call where
  store := Promise.Store.empty.new.1
  promise := (Promise.Store.empty : Promise.Store NullResult).new.2
  curDest := dest
  newSrvAddr := newSrvAddr
  payload := payload
  outstanding := 0
  future := none
  settled := []
  sent := []

/-- What the three operations share: build the context and send the first
message. Without a client the operation answers `CANCELLED` and makes no call. -/
def start (payload : Payload) (newSrvAddr : PeerId) (destCfg : SrvConfig) (target : Target) :
    Option Call :=
  send nuraft text (context payload destCfg.id newSrvAddr) destCfg.endpoint target

/-- `grpc_factory::add_server`. -/
def addServer (srvId : UInt32) (srvAddr : PeerId) (destCfg : SrvConfig) (target : Target) :
    Option Call :=
  start nuraft text (.addServer srvId) srvAddr destCfg target

/-- `grpc_factory::rem_server`. -/
def remServer (srvId : UInt32) (destCfg : SrvConfig) (target : Target) : Option Call :=
  start nuraft text (.removeServer srvId.toInt32) 0 destCfg target

/-- `grpc_factory::append_entry`. -/
def appendEntry (buf : Buffer) (destCfg : SrvConfig) (target : Target) : Option Call :=
  start nuraft text (.appendEntry buf) 0 destCfg target

/-- A call as one of the three operations leaves it after its first `send`. -/
inductive Started : Call → Prop
  /-- Started by `add_server`. -/
  | addServer {srvId srvAddr destCfg target c} :
      addServer nuraft text srvId srvAddr destCfg target = some c → Started c
  /-- Started by `rem_server`. -/
  | remServer {srvId destCfg target c} :
      remServer nuraft text srvId destCfg target = some c → Started c
  /-- Started by `append_entry`. -/
  | appendEntry {buf destCfg target c} :
      appendEntry nuraft text buf destCfg target = some c → Started c

variable {nuraft text}

/-- Every started call was started through the common path. -/
theorem Started.exists_start {c : Call} (hstarted : Started nuraft text c) :
    ∃ payload newSrvAddr destCfg target,
      start nuraft text payload newSrvAddr destCfg target = some c := by
  cases hstarted with
  | addServer h => exact ⟨_, _, _, _, h⟩
  | remServer h => exact ⟨_, _, _, _, h⟩
  | appendEntry h => exact ⟨_, _, _, _, h⟩

end Call

end NuraftMesg
