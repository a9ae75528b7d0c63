import Mathlib.Data.Nat.Notation

/-!
# Identifiers and result codes

Peers and groups are named by UUIDs (`peer_id_t`, `group_id_t`). Results of
Raft operations are NuRaft's `cmd_result_code`, an `int` enumeration whose
failures are negative. Reading and printing UUIDs is the business of Boost; what
the code relies on is that printing is undone by reading.
-/

namespace NuraftMesg

/-- `boost::uuids::uuid`: sixteen bytes. -/
abbrev Uuid := BitVec 128

/-- `peer_id_t`: the service address of a node. -/
abbrev PeerId := Uuid

/-- `group_id_t`: a Raft group. -/
abbrev GroupId := Uuid

/-- `group_type_t`: the name under which a group's parameters are registered. -/
abbrev GroupType := String

/-- `boost::uuids::to_string` and `boost::uuids::string_generator`, where `none`
stands for the `std::runtime_error` of an invalid text. -/
structure UuidText where
  /-- The canonical text of a UUID. -/
  toString : Uuid → String
  /-- Read a text, failing on one that is not a UUID. -/
  stringGenerator : String → Option Uuid
  /-- Reading undoes printing. -/
  read_print : ∀ id, stringGenerator (toString id) = some id

/-- Different UUIDs have different texts. -/
theorem UuidText.toString_injective (text : UuidText) : Function.Injective text.toString := by
  intro id id' heq
  have hread := congrArg text.stringGenerator heq
  rw [text.read_print, text.read_print] at hread
  exact Option.some.inj hread

/-- `nuraft::cmd_result_code`. The enumeration is open: every `int` can occur. -/
structure CmdResultCode where
  /-- The numeric value; zero is success. -/
  val : Int32
  deriving DecidableEq

namespace CmdResultCode

def ok : CmdResultCode := ⟨0⟩

def cancelled : CmdResultCode := ⟨-1⟩

def timeout : CmdResultCode := ⟨-2⟩

def notLeader : CmdResultCode := ⟨-3⟩

def badRequest : CmdResultCode := ⟨-4⟩

def serverNotFound : CmdResultCode := ⟨-8⟩

end CmdResultCode

/-- `grpc::StatusCode`. -/
inductive StatusCode where
  | ok
  | cancelled
  | unknown
  | invalidArgument
  | deadlineExceeded
  | notFound
  | alreadyExists
  | permissionDenied
  | resourceExhausted
  | failedPrecondition
  | aborted
  | outOfRange
  | unimplemented
  | internal
  | unavailable
  | dataLoss
  | unauthenticated
  deriving DecidableEq

/-- `grpc::Status`; the default one is a success. -/
structure Status where
  code : StatusCode := .ok
  message : String := ""
  deriving DecidableEq

end NuraftMesg
