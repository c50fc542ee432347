import CppRedis.Model.R3c.Numbers

/-! # Replies to commands on streams

The records of streams in `r3c.h`, and the functions of `r3c.cpp` that read them out of replies, over whatever the
outputs hold before. What is read from a reply without a text, or without an integer, is empty or zero.
-/

namespace CppRedis.Model.R3c

open Machine RedisCpp RedisClient

structure FVPair where
  field : CppString := []
  value : CppString := []
deriving DecidableEq

structure StreamEntry where
  id : CppString := []
  fvpairs : List FVPair := []
deriving DecidableEq

structure Stream where
  key : CppString := []
  entries : List StreamEntry := []
deriving DecidableEq

structure DetailedPending where
  id : CppString := []
  consumer : CppString := []
  elapsed : Int64 := 0
  delivered : Int64 := 0
deriving DecidableEq

structure ConsumerPending where
  name : CppString := []
  count : Int32 := 0
deriving DecidableEq

structure GroupPending where
  count : Int32 := 0
  start : CppString := []
  end_ : CppString := []
  consumers : List ConsumerPending := []
deriving DecidableEq

structure ConsumerInfo where
  name : CppString := []
  pendings : Int32 := 0
  idletime : Int64 := 0
deriving DecidableEq

structure GroupInfo where
  name : CppString := []
  lastDeliveredId : CppString := []
  consumers : Int32 := 0
  pendings : Int32 := 0
deriving DecidableEq

/-- What goes wrong while a reply is read. -/
inductive Misread where
  /-- An assertion that does not hold. -/
  | assertion
  /-- An element past the end of a reply, or past the end of the output. -/
  | outOfRange
  /-- A size that is negative. -/
  | lengthError
deriving DecidableEq, Repr

abbrev Reading (α : Type) := Except Misread α

/-- `reply->element`, with `reply->elements` for its length. -/
def elementsOf : RedisReply → List RedisReply
  | .array element => element
  | _ => []

def elementAt (reply : RedisReply) (position : ℕ) : Reading RedisReply :=
  match (elementsOf reply)[position]? with
  | some element => .ok element
  | none => .error .outOfRange

/-- `assign(reply->str, reply->len)`. -/
def textOf (reply : RedisReply) : CppString := reply.str?.getD []

/-- `static_cast<int>` of a number of elements. -/
def countOf (reply : RedisReply) : Int32 := Int32.ofNat (elementsOf reply).length

variable {α : Type}

def resize (size : ℕ) (value : α) (values : List α) : List α :=
  values.take size ++ List.replicate (size - values.length) value

/-- `resize` to an `int`. -/
def resizeTo (size : Int32) (value : α) (values : List α) : Reading (List α) :=
  if 0 ≤ size then .ok (resize size.toInt.toNat value values) else .error .lengthError

/-- A loop over so many positions, each with what it makes of the value there. -/
def fill (decode : ℕ → α → Reading α) : ℕ → ℕ → List α → Reading (List α)
  | 0, _, values => .ok values
  | _ + 1, _, [] => .error .outOfRange
  | count + 1, position, value :: values => do
      let value ← decode position value
      let values ← fill decode count (position + 1) values
      return value :: values

/-- The loops over field-value pairs: `k` is twice `h`, and the last `k` may be the last element. -/
def fillPairs (reply : RedisReply) (fvpairs : List FVPair) : Reading (List FVPair) :=
  fill (fun h _ => do
    let field ← elementAt reply (2 * h)
    let value ← elementAt reply (2 * h + 1)
    return { field := textOf field, value := textOf value }) (((elementsOf reply).length + 1) / 2) 0 fvpairs

/-- The body of the loops over entries. -/
def decodeEntry (reply : RedisReply) (entry : StreamEntry) : Reading StreamEntry := do
  let id ← elementAt reply 0
  let pairs ← elementAt reply 1
  let fvpairs ← fillPairs pairs (resize ((elementsOf pairs).length / 2) {} entry.fvpairs)
  return { id := textOf id, fvpairs := fvpairs }

/-- `get_entry`, which takes the number of elements for an `int`. -/
def getEntry (reply : RedisReply) (entry : StreamEntry) : Reading StreamEntry := do
  let id ← elementAt reply 0
  let pairs ← elementAt reply 1
  let fvpairs ← resizeTo (countOf pairs / 2) {} entry.fvpairs
  let fvpairs ← fillPairs pairs fvpairs
  return { id := textOf id, fvpairs := fvpairs }

/-- A loop over the elements of a reply, over an output that is resized to them. -/
def fillFrom (decode : RedisReply → α → Reading α) (fresh : α) (reply : RedisReply) (values : List α) :
    Reading (List α) :=
  fill (fun i value => do decode (← elementAt reply i) value) (elementsOf reply).length 0
    (resize (elementsOf reply).length fresh values)

/-- The body of the loop over streams. -/
def decodeStream (reply : RedisReply) (stream : Stream) : Reading Stream := do
  let key ← elementAt reply 0
  let entriesReply ← elementAt reply 1
  let entries ← fillFrom decodeEntry {} entriesReply stream.entries
  return { key := textOf key, entries := entries }

/-- The assertion at the start of `get_values` for streams and for entries. -/
def isNilOrArray : RedisReply → Bool
  | .nil | .array _ => true
  | _ => false

/-- `get_values` for streams and for entries; the output may be a null pointer. -/
def getValues (asserts : Bool) (decode : RedisReply → α → Reading α) (fresh : α) (reply : RedisReply)
    (values : Option (List α)) : Reading (Int32 × Option (List α)) :=
  if asserts && !isNilOrArray reply then .error .assertion
  else
    match values, reply with
    | none, _ => .ok (-1, none)
    | some values, .nil => .ok (0, some values)
    | some values, reply => do
        let values ← fillFrom decode fresh reply values
        return (countOf reply, some values)

/-- `get_values(vector<Stream>)`. -/
def getStreams (asserts : Bool) : RedisReply → Option (List Stream) → Reading (Int32 × Option (List Stream)) :=
  getValues asserts decodeStream {}

/-- `get_values(vector<StreamEntry>)`. -/
def getStreamEntries (asserts : Bool) :
    RedisReply → Option (List StreamEntry) → Reading (Int32 × Option (List StreamEntry)) :=
  getValues asserts decodeEntry {}

def integerAt (reply : RedisReply) (position : ℕ) : Reading ℤ := integerField <$> elementAt reply position

def textAt (reply : RedisReply) (position : ℕ) : Reading CppString := textOf <$> elementAt reply position

/-- `get_values(vector<DetailedPending>)`. -/
def getDetailedPendings (reply : RedisReply) (pendings : List DetailedPending) :
    Reading (Int32 × List DetailedPending) := do
  let numPendings := countOf reply
  let pendings ← resizeTo numPendings {} pendings
  let pendings ← fill (fun i _ => do
    let entry ← elementAt reply i
    return {
      id := ← textAt entry 0
      consumer := ← textAt entry 1
      elapsed := Int64.ofInt (← integerAt entry 2)
      delivered := Int64.ofInt (← integerAt entry 3) }) numPendings.toInt.toNat 0 pendings
  return (numPendings, pendings)

/-- `get_values(GroupPending)`. It takes the number of elements of the whole reply for the number of consumers. -/
def getGroupPending (reply : RedisReply) (groups : GroupPending) : Reading (Int32 × GroupPending) := do
  let numConsumers := countOf reply
  let count ← integerAt reply 0
  let start ← textAt reply 1
  let end_ ← textAt reply 2
  let consumersReply ← elementAt reply 3
  let consumers ← resizeTo numConsumers {} groups.consumers
  let consumers ← fill (fun i _ => do
    let consumer ← elementAt consumersReply i
    return { name := ← textAt consumer 0, count := string2int32 (← textAt consumer 1) })
    numConsumers.toInt.toNat 0 consumers
  return (Int32.ofInt count, { count := Int32.ofInt count, start := start, end_ := end_, consumers := consumers })

/-- `get_values(vector<ConsumerInfo>)`. It reads the elements of the whole reply for each consumer. -/
def getConsumerInfos (reply : RedisReply) (infos : List ConsumerInfo) : Reading (Int32 × List ConsumerInfo) := do
  let numConsumers := countOf reply
  if 0 < numConsumers then
    let infos ← fill (fun _ _ => do
      return {
        name := ← textAt reply 0
        pendings := Int32.ofInt (← integerAt reply 1)
        idletime := Int64.ofInt (← integerAt reply 2) }) numConsumers.toInt.toNat 0
      (resize numConsumers.toInt.toNat {} infos)
    return (numConsumers, infos)
  else return (numConsumers, infos)

/-- What the loop over groups assigns. Two fields are assigned twice, and the others never. -/
def decodeGroupInfo (reply : RedisReply) (info : GroupInfo) : Reading GroupInfo := do
  let info := { info with name := ← textAt reply 1 }
  let info := { info with consumers := Int32.ofInt (← integerAt reply 3) }
  let info := { info with consumers := Int32.ofInt (← integerAt reply 5) }
  return { info with name := ← textAt reply 7 }

/-- `get_values(vector<GroupInfo>)`. A reply of another number of elements is passed over. -/
def getGroupInfos (reply : RedisReply) (infos : List GroupInfo) : Reading (Int32 × List GroupInfo) := do
  let numGroups := countOf reply
  if 0 < numGroups then
    let infos ← fill (fun i info => do
      let infoReply ← elementAt reply i
      if (elementsOf infoReply).length = 8 then decodeGroupInfo infoReply info else return info)
      numGroups.toInt.toNat 0 (resize numGroups.toInt.toNat {} infos)
    return (numGroups, infos)
  else return (numGroups, infos)

end CppRedis.Model.R3c
