import CppRedis.Model.RedisCpp.Methods

/-! # The protocol reader

`read.c`, with the functions of `hiredis.c` that build a reply. The task stack is a list with the current task in
front, so `ridx` is one less than its length. A child task's object is stored where the indices of the tasks lead to
from the root, which is where `parent->element[idx]` lies. `none` stands for a failed assertion or a store outside of
an `element` array. The reader always has the functions that `redisReaderCreate` gives it, and memory for anything
but an `element` array, whose size the server chooses.
-/

namespace CppRedis.Model.Hiredis

open Machine RedisCpp

/-- `REDIS_OK` and `REDIS_ERR`. -/
inductive Status where
  | ok
  | err
deriving DecidableEq, Repr

/-- `REDIS_ERR_IO` and so on. -/
inductive ErrorType where
  | io
  | other
  | eof
  | protocol
  | oom
  | timeout
deriving DecidableEq, Repr

/-- `err` and `errstr`. -/
structure Error where
  type : ErrorType
  str : CppString
deriving DecidableEq, Repr

/-- `redisReply`, over what stands for a `double`. What a type does not use is zero or null. -/
inductive RedisReply (δ : Type) where
  | mk (type : ReplyType) (integer : ℤ) (dval : Option δ) (str : Option CppString)
      (element : List (Option (RedisReply δ)))

/-- What the reader asks of the C library about doubles: `strtod` gives nothing where it does not read a whole text
or reads it as no number. -/
structure Doubles (δ : Type) where
  infinity : δ
  negInfinity : δ
  strtod : CppString → Option δ

/-- `redisReadTask`, without `obj`, `parent` and `privdata`. -/
structure ReadTask where
  type : Option ReplyType := none
  elements : ℤ := -1
  idx : ℤ
deriving DecidableEq, Repr

/-- `redisReader`. Its `len` is the length of `buf`. -/
structure RedisReader (δ : Type) where
  err : Option Error := none
  buf : CppString := []
  pos : ℕ := 0
  rstack : List ReadTask := []
  reply : Option (RedisReply δ) := none

variable {δ : Type}

namespace RedisReply

/-- The types that the reader asserts of a parent. -/
def isAggregate : ReplyType → Bool
  | .array | .map | .set => true
  | _ => false

/-- The object or the place for one that the indices lead to. -/
def slot? : List ℕ → Option (RedisReply δ) → Option (Option (RedisReply δ))
  | [], slot => some slot
  | _ :: _, none => none
  | idx :: path, some (.mk type _ _ _ element) =>
      if isAggregate type then element[idx]?.bind (slot? path) else none

/-- A store where the indices lead to. -/
def store (obj : RedisReply δ) : List ℕ → Option (RedisReply δ) → Option (RedisReply δ)
  | [], _ => some obj
  | _ :: _, none => none
  | idx :: path, some (.mk type integer dval str element) =>
      some (.mk type integer dval str (element.set idx (store obj path (element[idx]?.getD none))))

/-- `createReplyObject`. -/
def create (type : ReplyType) : RedisReply δ := .mk type 0 none none []

/-- `createStringObject`. -/
def createString (type : ReplyType) (str : CppString) : RedisReply δ := .mk type 0 none (some str) []

/-- `createArrayObject`. -/
def createArray (type : ReplyType) (elements : ℕ) : RedisReply δ :=
  .mk type 0 none none (List.replicate elements none)

/-- `createIntegerObject`. -/
def createInteger (value : ℤ) : RedisReply δ := .mk .integer value none none []

/-- `createDoubleObject`. -/
def createDouble (value : δ) (str : CppString) : RedisReply δ := .mk .double 0 (some value) (some str) []

/-- `createNilObject`. -/
def createNil : RedisReply δ := create .nil

/-- `createBoolObject`. -/
def createBool (bval : Bool) : RedisReply δ := .mk .bool (if bval then 1 else 0) none none []

end RedisReply

/-- `size_t` as an `int`. -/
def toInt (value : ℤ) : ℤ := value.bmod 4294967296

/-- The loop of `seekNewline`, over that many places. -/
def seekNewlineWithin : ℕ → CppString → Option ℕ
  | 0, _ => none
  | _ + 1, [] => none
  | _ + 1, [_] => none
  | places + 1, first :: second :: rest =>
      if first = 13 ∧ second = 10 then some 0
      else (seekNewlineWithin places (second :: rest)).map (· + 1)

/-- `seekNewline`. The number of places is an `int`. -/
def seekNewline (s : CppString) : Option ℕ := seekNewlineWithin (toInt (s.length - 1)).toNat s

/-- The loop of `string2ll` over the digits, and what it leaves; `none` where it would overflow. -/
def readDigits (v : UInt64) : CppString → Option (UInt64 × CppString)
  | [] => some (v, [])
  | p :: rest =>
      if 48 ≤ p ∧ p ≤ 57 then
        if v > 18446744073709551615 / 10 then none
        else if v * 10 > 18446744073709551615 - (p - 48).toUInt64 then none
        else readDigits (v * 10 + (p - 48).toUInt64) rest
      else some (v, p :: rest)

/-- `string2ll` from the first digit on. -/
def readNumber (negative : Bool) (s : CppString) : Option ℤ :=
  match s with
  | [] => none
  | first :: rest =>
      if 49 ≤ first ∧ first ≤ 57 then
        match readDigits (first - 48).toUInt64 rest with
        | some (v, []) =>
            if negative then
              if v > (-(Int64.minValue + 1)).toUInt64 + 1 then none else some (-v).toInt64.toInt
            else if v > Int64.maxValue.toUInt64 then none
            else some v.toInt64.toInt
        | _ => none
      else none

/-- `string2ll`. -/
def string2ll (s : CppString) : Option ℤ :=
  if s = [] then none
  else if s = [48] then some 0
  else if s.head? = some 45 then readNumber true s.tail
  else readNumber false s

/-- `isprint` in the C locale. -/
def isPrint (byte : UInt8) : Bool := 32 ≤ byte && byte ≤ 126

/-- A digit of `%02x`. -/
def hexDigit (value : UInt8) : UInt8 := if value < 10 then 48 + value else 87 + value

/-- `chrtos`. -/
def chrtos (byte : UInt8) : CppString :=
  [34] ++
    (if byte = 92 ∨ byte = 34 then [92, byte]
    else if byte = 10 then text "\\n"
    else if byte = 13 then text "\\r"
    else if byte = 9 then text "\\t"
    else if byte = 7 then text "\\a"
    else if byte = 8 then text "\\b"
    else if isPrint byte then [byte]
    else text "\\x" ++ [hexDigit (byte / 16), hexDigit (byte % 16)]) ++
    [34]

/-- `__redisReaderSetErrorProtocolByte`. -/
def protocolByte (byte : UInt8) : Error :=
  ⟨.protocol, text "Protocol error, got " ++ chrtos byte ++ text " as reply type byte"⟩

def badInteger : Error := ⟨.protocol, text "Bad integer value"⟩

def largeDouble : Error := ⟨.protocol, text "Double value is too large"⟩

def badDouble : Error := ⟨.protocol, text "Bad double value"⟩

def badBulkLength : Error := ⟨.protocol, text "Bad bulk string length"⟩

def bulkLengthRange : Error := ⟨.protocol, text "Bulk string length out of range"⟩

def nestedTooDeep : Error := ⟨.protocol, text "No support for nested multi bulk replies with depth > 7"⟩

def badMultiBulkLength : Error := ⟨.protocol, text "Bad multi-bulk length"⟩

def multiBulkLengthRange : Error := ⟨.protocol, text "Multi-bulk length out of range"⟩

/-- `__redisReaderSetErrorOOM`. -/
def outOfMemory : Error := ⟨.oom, text "Out of memory"⟩

/-- The type that a byte announces. -/
def replyTypeOf (byte : UInt8) : Option ReplyType :=
  if byte = 45 then some .error
  else if byte = 43 then some .status
  else if byte = 58 then some .integer
  else if byte = 44 then some .double
  else if byte = 95 then some .nil
  else if byte = 36 then some .string
  else if byte = 42 then some .array
  else if byte = 37 then some .map
  else if byte = 126 then some .set
  else if byte = 35 then some .bool
  else none

/-- `tolower` in the C locale. -/
def toLower (byte : UInt8) : UInt8 := if 65 ≤ byte ∧ byte ≤ 90 then byte + 32 else byte

/-- The double in a line. -/
def doubleObject (doubles : Doubles δ) (p : CppString) : Except Error (RedisReply δ) :=
  if 326 ≤ p.length then .error largeDouble
  else
    let buf := cStr p
    if buf.map toLower = text ",inf" then .ok (.createDouble doubles.infinity p)
    else if buf.map toLower = text ",-inf" then .ok (.createDouble doubles.negInfinity p)
    else if buf = [] then .error badDouble
    else match doubles.strtod buf with
      | none => .error badDouble
      | some d => .ok (.createDouble d p)

/-- The object that `processLineItem` makes of a line. -/
def lineObject (doubles : Doubles δ) (type : ReplyType) (p : CppString) : Except Error (RedisReply δ) :=
  match type with
  | .integer =>
      match string2ll p with
      | none => .error badInteger
      | some v => .ok (.createInteger v)
  | .double => doubleObject doubles p
  | .nil => .ok .createNil
  | .bool => .ok (.createBool (p.head? = some 116 || p.head? = some 84))
  | type => .ok (.createString type p)

namespace RedisReader

variable (r : RedisReader δ)

def unread : CppString := r.buf.drop r.pos

/-- What `__redisReaderSetError` leaves of a reader. -/
def failed (error : Error) : RedisReader δ := { err := some { error with str := error.str.take 127 } }

/-- `readBytes`. -/
def readBytes (bytes : ℕ) : Option (CppString × RedisReader δ) :=
  if bytes ≤ r.buf.length - r.pos then some (r.unread.take bytes, { r with pos := r.pos + bytes }) else none

/-- `readLine`. -/
def readLine : Option (CppString × RedisReader δ) :=
  (seekNewline r.unread).map fun len => (r.unread.take len, { r with pos := r.pos + len + 2 })

end RedisReader

/-- `moveToNextTask`. -/
def moveToNextTask : List ReadTask → Option (List ReadTask)
  | [] => some []
  | [_] => some []
  | cur :: prv :: below =>
      if prv.type.any RedisReply.isAggregate then
        if cur.idx = prv.elements - 1 then moveToNextTask (prv :: below)
        else if cur.idx < prv.elements then
          some ({ type := none, elements := -1, idx := cur.idx + 1 } :: prv :: below)
        else none
      else none

/-- The indices that lead from the root to the object of the current task. -/
def path : List ReadTask → List ℕ
  | [] => []
  | [_] => []
  | cur :: prv :: below => path (prv :: below) ++ [cur.idx.toNat]

namespace RedisReader

variable (doubles : Doubles δ) (calloc : ℕ → Bool) (r : RedisReader δ)

/-- A new object in its parent, or as the reply where its task is the root. -/
def store (obj : RedisReply δ) : Option (RedisReader δ) :=
  if (RedisReply.slot? (path r.rstack) r.reply).isSome then
    some { r with reply := RedisReply.store obj (path r.rstack) r.reply }
  else none

def nextTask : Option (RedisReader δ) := (moveToNextTask r.rstack).map fun rstack => { r with rstack := rstack }

/-- A new object that has no elements to come. -/
def complete (obj : RedisReply δ) : Option (Status × RedisReader δ) := do
  let r ← r.store obj
  let r ← r.nextTask
  return (.ok, r)

/-- `processLineItem`. -/
def processLineItem (type : ReplyType) : Option (Status × RedisReader δ) :=
  match r.readLine with
  | none => some (.err, r)
  | some (p, r) =>
      match lineObject doubles type p with
      | .error error => some (.err, .failed error)
      | .ok obj => r.complete obj

/-- `processBulkItem`. -/
def processBulkItem : Option (Status × RedisReader δ) :=
  match seekNewline r.unread with
  | none => some (.err, r)
  | some s =>
      match string2ll (r.unread.take s) with
      | none => some (.err, .failed badBulkLength)
      | some len =>
          if len < -1 then some (.err, .failed bulkLengthRange)
          else if len = -1 then { r with pos := r.pos + (s + 2) }.complete .createNil
          else
            let bytelen := s + 2 + (len.toNat + 2)
            if r.pos + bytelen ≤ r.buf.length then
              { r with pos := r.pos + bytelen }.complete
                (.createString .string ((r.unread.drop (s + 2)).take len.toNat))
            else some (.err, r)

/-- The part of `processAggregateItem` for a number of elements that is not negative. -/
def openAggregate (cur : ReadTask) (below : List ReadTask) (type : ReplyType) (elements : ℤ) :
    Option (Status × RedisReader δ) :=
  let elements := if type = .map then (elements * 2).bmod (2 ^ 64) else elements
  let size := (elements % 2 ^ 64).toNat
  if 0 < size ∧ !calloc size then some (.err, .failed outOfMemory)
  else do
    let r ← r.store (.createArray type size)
    if 0 < elements then
      return (.ok, { r with rstack := { idx := 0 } :: { cur with elements := toInt elements } :: below })
    else
      let r ← r.nextTask
      return (.ok, r)

/-- `processAggregateItem`. -/
def processAggregateItem (cur : ReadTask) (below : List ReadTask) (type : ReplyType) :
    Option (Status × RedisReader δ) :=
  if below.length = 8 then some (.err, .failed nestedTooDeep)
  else
    match r.readLine with
    | none => some (.err, r)
    | some (p, r) =>
        match string2ll p with
        | none => some (.err, .failed badMultiBulkLength)
        | some elements =>
            if elements < -1 then some (.err, .failed multiBulkLengthRange)
            else if elements = -1 then r.complete .createNil
            else r.openAggregate calloc cur below type elements

/-- `processItem`, once the type is known. -/
def processTyped (cur : ReadTask) (below : List ReadTask) (type : ReplyType) : Option (Status × RedisReader δ) :=
  match type with
  | .error | .status | .integer | .double | .nil | .bool => r.processLineItem doubles type
  | .string => r.processBulkItem
  | .array | .map | .set => r.processAggregateItem calloc cur below type
  | .attr | .push | .bignum => none

/-- `processItem`. -/
def processItem : Option (Status × RedisReader δ) :=
  match r.rstack with
  | [] => none
  | cur :: below =>
      match cur.type with
      | some type => r.processTyped doubles calloc cur below type
      | none =>
          match r.readBytes 1 with
          | none => some (.err, r)
          | some (p, r) =>
              match replyTypeOf (p.headD 0) with
              | none => some (.err, .failed (protocolByte (p.headD 0)))
              | some type =>
                  let cur := { cur with type := some type }
                  { r with rstack := cur :: below }.processTyped doubles calloc cur below type

/-- The loop of `redisReaderGetReply`, for at most that many items. -/
def processItems : ℕ → RedisReader δ → Option (RedisReader δ)
  | 0, r => some r
  | fuel + 1, r =>
      if r.rstack = [] then some r
      else match r.processItem doubles calloc with
        | none => none
        | some (.err, r) => some r
        | some (.ok, r) => processItems fuel r

end RedisReader

/-- `sdsrange`. -/
def sdsrange (s : CppString) (start finish : ℤ) : CppString :=
  if s = [] then s
  else
    let len : ℤ := s.length
    let start := if start < 0 then max 0 (toInt (len + start)) else start
    let finish := if finish < 0 then max 0 (toInt (len + finish)) else finish
    if finish < start then []
    else if toInt len ≤ start then []
    else if toInt len ≤ finish then (s.drop start.toNat).take (len - 1 - start + 1).toNat
    else (s.drop start.toNat).take (finish - start + 1).toNat

/-- `redisReaderFeed`. -/
def redisReaderFeed (r : RedisReader δ) (buf : CppString) : Status × RedisReader δ :=
  if r.err.isSome then (.err, r) else (.ok, { r with buf := r.buf ++ buf })

/-- The task that `redisReaderGetReply` starts with. -/
def rootTask : ReadTask := { idx := -1 }

/-- The end of `redisReaderGetReply`. -/
def emit (r : RedisReader δ) : Status × Option (RedisReply δ) × RedisReader δ :=
  if r.err.isSome then (.err, none, r)
  else
    let r := if 1024 ≤ r.pos then { r with buf := sdsrange r.buf (toInt r.pos) (-1), pos := 0 } else r
    if r.rstack = [] then (.ok, r.reply, { r with reply := none }) else (.ok, none, r)

/-- `redisReaderGetReply`. Every item but the last takes a byte. -/
def redisReaderGetReply (doubles : Doubles δ) (calloc : ℕ → Bool) (r : RedisReader δ) :
    Option (Status × Option (RedisReply δ) × RedisReader δ) :=
  if r.err.isSome then some (.err, none, r)
  else if r.buf = [] then some (.ok, none, r)
  else
    let r := if r.rstack = [] then { r with rstack := [rootTask] } else r
    (r.processItems doubles calloc (r.unread.length + 1)).map emit

end CppRedis.Model.Hiredis
