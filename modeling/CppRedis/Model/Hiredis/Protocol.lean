import CppRedis.Model.Hiredis.Reader
import CppRedis.Machine.Parsing
import Mathlib.Algebra.Group.Even
import CppRedis.Model.RedisClient.Reply

/-! # What the reader is for

The replies of a stream by recursive descent, from its beginning and without an end in sight: a value is complete,
or the stream stops short of its end, or it is malformed. Beside it, values with the bytes that a server writes for
them.
-/

namespace CppRedis.Model.Hiredis

open Machine RedisCpp

/-- What a stream of bytes starts with. -/
abbrev Reading (α : Type) := Parsed UInt8 Error α

/-- Where the first line ends. -/
def newline? : CppString → Option ℕ
  | [] => none
  | [_] => none
  | first :: second :: rest =>
      if first = 13 ∧ second = 10 then some 0 else (newline? (second :: rest)).map (· + 1)

def line (input : CppString) : Reading CppString :=
  match newline? input with
  | none => .more
  | some len => .done (input.take len) (input.drop (len + 2))

/-- What stands in one place: a whole object, or the head of one with elements. -/
inductive Piece (δ : Type) where
  | object (obj : RedisReply δ)
  | head (type : ReplyType) (size : ℕ)

section

variable {δ : Type} (doubles : Doubles δ) (calloc : ℕ → Bool)

def bulk (input : CppString) : Reading (Piece δ) :=
  (line input).bind fun p rest =>
    match string2ll p with
    | none => .bad badBulkLength
    | some len =>
        if len < -1 then .bad bulkLengthRange
        else if len = -1 then .done (.object .createNil) rest
        else if len.toNat + 2 ≤ rest.length then
          .done (.object (.createString .string (rest.take len.toNat))) (rest.drop (len.toNat + 2))
        else .more

/-- The number of objects in an aggregate: keys and values count by themselves. -/
def elementCount (type : ReplyType) (elements : ℤ) : ℕ :=
  if type = .map then elements.toNat * 2 else elements.toNat

def aggregateHead (type : ReplyType) (input : CppString) : Reading (Piece δ) :=
  (line input).bind fun p rest =>
    match string2ll p with
    | none => .bad badMultiBulkLength
    | some elements =>
        if elements < -1 then .bad multiBulkLengthRange
        else if elements = -1 then .done (.object .createNil) rest
        else if elementCount type elements = 0 then .done (.object (.createArray type 0)) rest
        else if calloc (elementCount type elements) then .done (.head type (elementCount type elements)) rest
        else .bad outOfMemory

/-- What follows a type byte. -/
def piece (deep : Bool) (type : ReplyType) (input : CppString) : Reading (Piece δ) :=
  match type with
  | .error | .status | .integer | .double | .nil | .bool =>
      (line input).bind fun p rest => .ofExcept ((lineObject doubles type p).map Piece.object) rest
  | .string => bulk input
  | .array | .map | .set => if deep then .bad nestedTooDeep else aggregateHead calloc type input
  | .attr | .push | .bignum => .more

/-- A value, given what its elements are, if it may have any. -/
def valueWith (nested : Option (CppString → Reading (RedisReply δ))) (input : CppString) : Reading (RedisReply δ) :=
  match input with
  | [] => .more
  | byte :: rest =>
      match replyTypeOf byte with
      | none => .bad (protocolByte byte)
      | some type =>
          (piece doubles calloc nested.isNone type rest).bind fun piece rest =>
            match piece, nested with
            | .object obj, _ => .done obj rest
            | .head type size, some one =>
                (Parsed.many one size rest).map fun elements => .mk type 0 none none (elements.map some)
            | .head _ _, none => .more

/-- A value with aggregates in at most that many levels. -/
def value : ℕ → CppString → Reading (RedisReply δ)
  | 0 => valueWith doubles calloc none
  | levels + 1 => valueWith doubles calloc (some (value levels))

/-- The complete replies at the front of a stream, up to a number of them, and the error behind them. -/
def repliesUpTo : ℕ → CppString → List (RedisReply δ) × Option Error
  | 0, _ => ([], none)
  | count + 1, input =>
      match value doubles calloc 8 input with
      | .done obj rest =>
          let (later, error) := repliesUpTo count rest
          (obj :: later, error)
      | .more => ([], none)
      | .bad error => ([], some error)

/-- All complete replies of a stream and the error behind them. Every reply takes a byte. -/
def replies (input : CppString) : List (RedisReply δ) × Option Error :=
  repliesUpTo doubles calloc (input.length + 1) input

end

/-- The types with elements. -/
inductive Aggregate where
  | array
  | map
  | set
deriving DecidableEq, Repr

def Aggregate.type : Aggregate → ReplyType
  | .array => .array
  | .map => .map
  | .set => .set

/-- How a server writes that there is nothing. -/
inductive Nothing where
  | bulk
  | array
  | null
deriving DecidableEq, Repr

/-- A value that a server replies with. A map has its keys and values one after the other. -/
inductive Value where
  | status (str : CppString)
  | error (str : CppString)
  | integer (value : ℤ)
  | double (str : CppString)
  | nothing (form : Nothing)
  | bool (value : Bool)
  | string (str : CppString)
  | aggregate (kind : Aggregate) (elements : List Value)

def crlf : CppString := [13, 10]

/-- The decimal text of a length. -/
def decimal (value : ℕ) : CppString := RedisClient.convertToString value

def Aggregate.head (kind : Aggregate) (size : ℕ) : CppString :=
  match kind with
  | .array => [42] ++ decimal size ++ crlf
  | .map => [37] ++ decimal (size / 2) ++ crlf
  | .set => [126] ++ decimal size ++ crlf

def Nothing.encode : Nothing → CppString
  | .bulk => text "$-1" ++ crlf
  | .array => text "*-1" ++ crlf
  | .null => text "_" ++ crlf

mutual

/-- The bytes of a value. -/
def Value.encode : Value → CppString
  | .status str => [43] ++ str ++ crlf
  | .error str => [45] ++ str ++ crlf
  | .integer value => [58] ++ RedisClient.convertToString value ++ crlf
  | .double str => [44] ++ str ++ crlf
  | .nothing form => form.encode
  | .bool value => (if value then text "#t" else text "#f") ++ crlf
  | .string str => [36] ++ decimal str.length ++ crlf ++ str ++ crlf
  | .aggregate kind elements => kind.head elements.length ++ Value.encodeAll elements

def Value.encodeAll : List Value → CppString
  | [] => []
  | value :: rest => value.encode ++ Value.encodeAll rest

end

/-- A text that ends with its line. -/
def OneLine (str : CppString) : Prop := ¬crlf <:+: str

section

variable {δ : Type} (doubles : Doubles δ) (calloc : ℕ → Bool)

mutual

/-- The reply that shows a value. -/
def Value.object : Value → RedisReply δ
  | .status str => .createString .status str
  | .error str => .createString .error str
  | .integer value => .createInteger value
  | .double str => ((doubleObject doubles str).toOption).getD .createNil
  | .nothing _ => .createNil
  | .bool value => .createBool value
  | .string str => .createString .string str
  | .aggregate kind elements => .mk kind.type 0 none none ((Value.objects elements).map some)

def Value.objects : List Value → List (RedisReply δ)
  | [] => []
  | value :: rest => value.object :: Value.objects rest

end

mutual

/-- The values that the protocol can carry and the reader takes, with aggregates in at most that many levels. -/
def Value.Writable : ℕ → Value → Prop
  | _, .status str => OneLine str
  | _, .error str => OneLine str
  | _, .integer value => -9223372036854775808 ≤ value ∧ value < 9223372036854775808
  | _, .double str => OneLine str ∧ (doubleObject doubles str).toOption.isSome
  | levels, .nothing form => form = .array → 0 < levels
  | _, .bool _ => True
  | _, .string str => str.length < 9223372036854775808
  | 0, .aggregate _ _ => False
  | levels + 1, .aggregate kind elements =>
      (elements ≠ [] → calloc elements.length = true) ∧ elements.length < 9223372036854775808 ∧
        (kind = .map → Even elements.length) ∧ Value.AllWritable levels elements

def Value.AllWritable : ℕ → List Value → Prop
  | _, [] => True
  | levels, value :: rest => value.Writable levels ∧ Value.AllWritable levels rest

end

end

/-- What a command is to the server, an array of its words. -/
def Value.command (words : List CppString) : Value := .aggregate .array (words.map .string)

/-- The values whose bytes are all among the first ones. -/
def arrived : List Value → ℕ → List Value
  | [], _ => []
  | value :: rest, bytes =>
      if value.encode.length ≤ bytes then value :: arrived rest (bytes - value.encode.length) else []

end CppRedis.Model.Hiredis
