import CppRedis.Model.RedisClient.Reply
import Mathlib.Data.List.Infix

/-! # The listing of a cluster

Nodes and what the cluster client reads about them: `CLUSTER NODES`, redirections and error types. Texts of
errors are left out, their codes and types are kept.
-/

namespace CppRedis.Model.R3c

open Machine RedisCpp RedisClient

/-- An address. -/
abbrev Node := CppString × UInt16

abbrev NodeId := CppString

structure NodeInfo where
  node : Node
  id : NodeId
  flags : CppString
  masterId : NodeId
  pingSent : ℤ := 0
  pongRecv : ℤ := 0
  epoch : ℤ := 0
  connected : Bool := true
  /-- Ranges of slots, with both ends. -/
  slots : List (ℤ × ℤ) := []
deriving DecidableEq

namespace NodeInfo

def isMaster (nodeinfo : NodeInfo) : Bool := text "master" <:+: nodeinfo.flags

def isReplica (nodeinfo : NodeInfo) : Bool := text "slave" <:+: nodeinfo.flags

def isFail (nodeinfo : NodeInfo) : Bool := text "fail" <:+: nodeinfo.flags

/-- A master whose slots are taken over. -/
def liveMaster (nodeinfo : NodeInfo) : Bool := nodeinfo.isMaster && !nodeinfo.isFail

/-- A replica that is passed on to `init_replica_nodes`. -/
def liveReplica (nodeinfo : NodeInfo) : Bool := !nodeinfo.liveMaster && (nodeinfo.isReplica && !nodeinfo.isFail)

/-- A slot is in one of the ranges. -/
def Owns (nodeinfo : NodeInfo) (slot : ℤ) : Prop :=
  ∃ segment ∈ nodeinfo.slots, segment.1 ≤ slot ∧ slot ≤ segment.2

instance (nodeinfo : NodeInfo) (slot : ℤ) : Decidable (nodeinfo.Owns slot) := by
  unfold Owns
  infer_instance

end NodeInfo

/-- `ErrorInfo` without its texts. -/
structure ErrorInfo where
  errcode : ℤ := 0
  errtype : CppString := []
deriving DecidableEq

def errorCommand : ℤ := -3
def errorZeroKey : ℤ := -12
def errorUnexceptedReplyType : ℤ := -15
def errorReplyFormat : ℤ := -16
def errorNoAnyNode : ℤ := -18

/-- Code that the client follows into undefined behaviour, or stops at. -/
inductive Fault where
  /-- A division by the size of an empty table. -/
  | divisionByZero
  /-- `loop_counter` passes the largest `int`. -/
  | overflow
  /-- An assertion that does not hold. -/
  | assertion
  /-- A null `str` that is copied. -/
  | nullText
  /-- A slot outside of `_slot2node`. -/
  | slotRange
  /-- The first entry of an empty table. -/
  | emptyTable
  /-- A node that is not in the tables, or a reply that is not there. -/
  | dangling
deriving DecidableEq, Repr

/-- The text before and behind the first separator. -/
def cut (separator : UInt8) (str : CppString) : Option (CppString × CppString) :=
  match str.dropWhile (· ≠ separator) with
  | [] => none
  | _ :: rest => some (str.takeWhile (· ≠ separator), rest)

/-- `split` at a separator of one byte, which is what it is called with. -/
def split (source : CppString) (separator : UInt8) : List CppString :=
  if source = [] then [] else source.splitOn separator

/-- An `int` that is assigned to a port. -/
def toPort (value : ℤ) : UInt16 := UInt16.ofNat (value % 65536).toNat

def parseNodeString (nodeString : CppString) : Option Node :=
  (cut 0x3A nodeString).map fun (ip, port) => (ip, toPort (atoi port))

def parseSlotString (slotString : CppString) : ℤ × ℤ :=
  match cut 0x2D slotString with
  | none => (atoi slotString, atoi slotString)
  | some (start, stop) => (atoi start, atoi stop)

/-- `parse_moved_string`: the address behind the last blank. -/
def parseMovedString (movedString : CppString) : Option Node :=
  if 0x20 ∈ movedString then
    match cut 0x3A (movedString.reverse.takeWhile (· ≠ 0x20)).reverse with
    | none => none
    | some (ip, port) => if toPort (atoi port) = 0 then none else some (ip, toPort (atoi port))
  else none

/-- The addresses that `parse_nodes` adds. -/
def parseNodes (nodesString : CppString) : List Node := (nodesString.splitOn 0x2C).filterMap parseNodeString

def node2string (node : Node) : CppString := node.1 ++ 0x3A :: convertToString node.2.toNat

def isUpper (byte : UInt8) : Bool := 65 ≤ byte && byte ≤ 90

/-- `extract_errtype`, over the type that is there before. -/
def extractErrtype (str errtype : CppString) : CppString :=
  let code := (cStr str).takeWhile (· ≠ 0x20)
  if 2 < str.length ∧ 0x20 ∈ cStr str ∧ 2 < code.length ∧ (code.take 3).all isUpper then code else errtype

/-- One line; `none` when it has too few tokens or no address. -/
def parseRow : List CppString → Option NodeInfo
  | id :: address :: flags :: masterId :: pingSent :: pongRecv :: epoch :: connected :: slots =>
      (parseNodeString address).map fun node =>
        let nodeinfo : NodeInfo := {
          node := node
          id := id
          flags := flags
          masterId := masterId
          pingSent := atoi pingSent
          pongRecv := atoi pongRecv
          epoch := atoi epoch
          connected := connected = text "connected" }
        if nodeinfo.liveMaster then
          { nodeinfo with slots := (slots.filter fun token => token.head? ≠ some 0x5B).map parseSlotString }
        else nodeinfo
  | _ => none

/-- The loop over the lines. It ends at an empty line, and forgets all nodes at one that it cannot read. -/
def parseRows (nodesInfo : List NodeInfo) : List CppString → List NodeInfo × ErrorInfo
  | [] => (nodesInfo, {})
  | line :: lines =>
      if split line 0x20 = [] then (nodesInfo, {})
      else
        match parseRow (split line 0x20) with
        | none => ([], { errcode := errorReplyFormat })
        | some nodeinfo => parseRows (nodesInfo ++ [nodeinfo]) lines

/-- What `list_cluster_nodes` makes of a reply. -/
def parseListing : RedisReply → Except Fault (List NodeInfo × ErrorInfo)
  | .string str =>
      let lines := split (cStr str) 0x0A
      if lines = [] then .ok ([], { errcode := errorReplyFormat }) else .ok (parseRows [] lines)
  | .error _ => .ok ([], { errcode := errorCommand })
  | .status _ => .ok ([], { errcode := errorUnexceptedReplyType })
  | _ => .error .nullText

end CppRedis.Model.R3c
