import CppRedis.Model.RedisCpp.CRedisConn
import Mathlib.Logic.Function.Basic

/-! # The command methods of a link

The methods of `CRedisConn` that send a command, over replies with all their fields, as hiredis fills them in.
They share a test for a connection and a test for an error, and differ in how they take the reply apart.
`none` stands for a dereference of a null pointer, or of one past the end.
-/

namespace CppRedis.Model.RedisCpp

open Machine

/-- `REDIS_REPLY_STRING` and so on. `REDIS_REPLY_VERB` has the number of `REDIS_REPLY_MAP`. -/
inductive ReplyType where
  | string
  | array
  | integer
  | nil
  | status
  | error
  | double
  | bool
  | map
  | set
  | attr
  | push
  | bignum
deriving DecidableEq, Repr

/-- A `redisReply`. What a type does not use is zero or null. -/
inductive HiReply where
  | mk (type : ReplyType) (integer : ℤ) (str : Option CppString) (element : List HiReply)

namespace HiReply

def type : HiReply → ReplyType
  | mk type _ _ _ => type

def integer : HiReply → ℤ
  | mk _ integer _ _ => integer

def str : HiReply → Option CppString
  | mk _ _ str _ => str

def element : HiReply → List HiReply
  | mk _ _ _ element => element

/-- A `str` that is assigned to a `std::string`. -/
def assigned (reply : HiReply) : Option CppString := reply.str.map cStr

end HiReply

mutual

/-- A reply of one of the six types of the protocol, with all its fields. -/
def RedisReply.fields : RedisReply → HiReply
  | .string str => .mk .string 0 (some str) []
  | .array element => .mk .array 0 none (RedisReply.fieldsOfAll element)
  | .integer value => .mk .integer value none []
  | .nil => .mk .nil 0 none []
  | .status str => .mk .status 0 (some str) []
  | .error str => .mk .error 0 (some str) []

def RedisReply.fieldsOfAll : List RedisReply → List HiReply
  | [] => []
  | reply :: element => reply.fields :: RedisReply.fieldsOfAll element

end

/-- The hiredis call behind a method. -/
abbrev Hiredis := Command → Option HiReply

/-- What a method returns, its output argument afterwards, and the link. -/
abbrev Returned (α : Type) := Option (Bool × α × CRedisConn)

/-- A `std::map`. -/
abbrev ValueMap := CppString → Option CppString

/-- `std::map::insert`, which keeps the value of a key that is there. -/
def ValueMap.insert (valueMap : ValueMap) (key value : CppString) : ValueMap :=
  if (valueMap key).isSome then valueMap else Function.update valueMap key (some value)

/-- `%d`. -/
def decimal (value : ℤ) : CppString := text (toString (value.bmod 4294967296))

inductive InsertPos where
  | before
  | after
deriving DecidableEq, Repr

def InsertPos.text : InsertPos → CppString
  | .before => RedisCpp.text "BEFORE"
  | .after => RedisCpp.text "AFTER"

namespace CRedisConn

/-- `_getError(const redisReply*)`. -/
def replyError (conn : CRedisConn) : Option HiReply → Option (Bool × CRedisConn)
  | none => some (false, { conn with errStr := ErrorNo.null.description })
  | some reply =>
      if reply.type = .error then reply.assigned.map fun str => (true, { conn with errStr := str })
      else some (false, { conn with errStr := ErrorNo.noError.description })

variable {α : Type}

/-- What the methods have in common once the reply is there. -/
def received (conn : CRedisConn) (reply : Option HiReply) (value : α) (unpack : CRedisConn → Returned α) : Returned α :=
  (conn.replyError reply).bind fun (failed, conn) => if failed then some (false, value, conn) else unpack conn

/-- What the methods have in common: `before` is the output argument at first, `value` when the command is sent. -/
def command (conn : CRedisConn) (hiredis : Hiredis) (words : Command) (before value : α)
    (unpack : Option HiReply → CRedisConn → Returned α) : Returned α :=
  if !conn.connected || !conn.redCtx then some (false, before, { conn with errStr := ErrorNo.noConnect.description })
  else conn.received (hiredis words) value (unpack (hiredis words))

/-- `reply->integer` is what the method puts out. -/
def unpackInteger (modulus : ℤ) (reply : Option HiReply) (conn : CRedisConn) : Returned ℤ :=
  reply.map fun reply => (true, reply.integer % modulus, conn)

/-- `reply->str` is what the method puts out, unless it is null. -/
def unpackPopped (reply : Option HiReply) (conn : CRedisConn) : Returned CppString :=
  reply.map fun reply =>
    match reply.assigned with
    | none => (false, [], { conn with errStr := ErrorNo.noKey.description })
    | some str => (true, str, conn)

/-- `reply->str` is what the method puts out, unless the reply is nil. -/
def unpackString (missing : CppString) (absent : CppString) (reply : Option HiReply) (conn : CRedisConn) :
    Returned CppString :=
  reply.bind fun reply =>
    if reply.type = .nil then some (false, absent, { conn with errStr := missing })
    else reply.assigned.map fun str => (true, str, conn)

/-- `_getArryToList`. -/
def getArryToList (valueList : List CppString) : List HiReply → Option (List CppString)
  | [] => some valueList
  | reply :: element => reply.assigned.bind fun str => getArryToList (valueList ++ [str]) element

/-- `_getArryToMap`. -/
def getArryToMap (valueMap : ValueMap) : List HiReply → Option ValueMap
  | [] => some valueMap
  | [_] => none
  | field :: reply :: element =>
      field.assigned.bind fun key => reply.assigned.bind fun value => getArryToMap (valueMap.insert key value) element

/-- Only `auth` does not ask for a context. hiredis follows the context. -/
def auth (conn : CRedisConn) (hiredis : Hiredis) (password : CppString) : Returned Unit :=
  if !conn.connected then some (false, (), { conn with errStr := ErrorNo.noConnect.description })
  else if !conn.redCtx then none
  else conn.received (hiredis [text "AUTH", cStr password]) () fun conn => some (true, (), conn)

def ping (conn : CRedisConn) (hiredis : Hiredis) : Returned Unit :=
  conn.command hiredis [text "PING"] () () fun _ conn => some (true, (), conn)

def lpush (conn : CRedisConn) (hiredis : Hiredis) (key value : CppString) (retval : ℤ) : Returned ℤ :=
  conn.command hiredis [text "LPUSH", cStr key, cStr value] retval 0 (unpackInteger 18446744073709551616)

def lpop (conn : CRedisConn) (hiredis : Hiredis) (key value : CppString) : Returned CppString :=
  conn.command hiredis [text "LPOP", cStr key] value value unpackPopped

def lrange (conn : CRedisConn) (hiredis : Hiredis) (key : CppString) (start stop : ℤ) (valueList : List CppString) :
    Returned (List CppString) :=
  conn.command hiredis [text "LRANGE", cStr key, decimal start, decimal stop] valueList valueList fun reply conn =>
    reply.bind fun reply =>
      if reply.type = .array ∧ reply.element = [] then
        some (false, valueList, { conn with
          errStr := ErrorNo.index.description ++ text " or " ++ ErrorNo.noKey.description })
      else (getArryToList valueList reply.element).map fun valueList => (true, valueList, conn)

def rpush (conn : CRedisConn) (hiredis : Hiredis) (key value : CppString) (retval : ℤ) : Returned ℤ :=
  conn.command hiredis [text "RPUSH", cStr key, cStr value] retval 0 (unpackInteger 18446744073709551616)

def rpop (conn : CRedisConn) (hiredis : Hiredis) (key value : CppString) : Returned CppString :=
  conn.command hiredis [text "RPOP", cStr key] value value unpackPopped

def linsert (conn : CRedisConn) (hiredis : Hiredis) (key : CppString) (position : InsertPos) (pivot value : CppString)
    (retval : ℤ) : Returned ℤ :=
  conn.command hiredis [text "LINSERT", cStr key, position.text, cStr pivot, cStr value] retval retval fun reply conn =>
    reply.map fun reply =>
      if reply.type = .integer then
        if reply.integer = -1 then (false, retval, { conn with errStr := ErrorNo.noPivot.description })
        else if reply.integer = 0 then (false, retval, { conn with errStr := ErrorNo.noKey.description })
        else (true, reply.integer, conn)
      else (false, retval, conn)

def lindex (conn : CRedisConn) (hiredis : Hiredis) (key : CppString) (index : ℤ) (value : CppString) :
    Returned CppString :=
  conn.command hiredis [text "LINDEX", cStr key, decimal index] value value
    (unpackString (ErrorNo.noKey.description ++ text " or " ++ ErrorNo.index.description) [])

def llen (conn : CRedisConn) (hiredis : Hiredis) (key : CppString) (retval : ℤ) : Returned ℤ :=
  conn.command hiredis [text "LLEN", cStr key] retval retval fun reply conn =>
    reply.map fun reply =>
      if reply.type = .integer ∧ reply.integer = 0 then
        (false, retval, { conn with errStr := ErrorNo.noKey.description })
      else (true, reply.integer % 18446744073709551616, conn)

/-- `CRedisConn::get`. -/
def getKey (conn : CRedisConn) (hiredis : Hiredis) (key value : CppString) : Returned CppString :=
  conn.command hiredis [text "GET", cStr key] value value
    (unpackString (ErrorNo.noKey.description ++ text " or " ++ ErrorNo.noField.description) value)

/-- `CRedisConn::set`. -/
def setKey (conn : CRedisConn) (hiredis : Hiredis) (key value : CppString) (retval : ℤ) : Returned ℤ :=
  conn.command hiredis [text "SET", cStr key, cStr value] retval retval (unpackInteger 4294967296)

def del (conn : CRedisConn) (hiredis : Hiredis) (key : CppString) (retval : ℤ) : Returned ℤ :=
  conn.command hiredis [text "DEL", cStr key] retval retval (unpackInteger 4294967296)

def hget (conn : CRedisConn) (hiredis : Hiredis) (key filed value : CppString) : Returned CppString :=
  conn.command hiredis [text "HGET", cStr key, cStr filed] value value
    (unpackString (ErrorNo.noKey.description ++ text " or " ++ ErrorNo.noField.description) value)

def hset (conn : CRedisConn) (hiredis : Hiredis) (key filed value : CppString) (retval : ℤ) : Returned ℤ :=
  conn.command hiredis [text "HSET", cStr key, cStr filed, cStr value] retval retval (unpackInteger 4294967296)

def hdel (conn : CRedisConn) (hiredis : Hiredis) (key filed : CppString) (retval : ℤ) : Returned ℤ :=
  conn.command hiredis [text "HDEL", cStr key, cStr filed] retval retval fun reply conn =>
    reply.map fun reply =>
      if reply.type = .integer ∧ reply.integer = 0 then
        (false, retval, { conn with
          errStr := ErrorNo.noKey.description ++ text " or " ++ ErrorNo.noField.description })
      else (true, reply.integer % 4294967296, conn)

def hgetall (conn : CRedisConn) (hiredis : Hiredis) (key : CppString) (valueMap : ValueMap) : Returned ValueMap :=
  conn.command hiredis [text "HGETALL", cStr key] valueMap valueMap fun reply conn =>
    reply.bind fun reply =>
      if reply.type = .array ∧ reply.element = [] then
        some (false, valueMap, { conn with errStr := ErrorNo.noKey.description })
      else (getArryToMap valueMap reply.element).map fun valueMap => (true, valueMap, conn)

/-- On replies of the protocol this is the `get` above. -/
theorem getKey_fields (conn : CRedisConn) (redis : Server) (key value : CppString) :
    conn.getKey (fun words => (redis words).map RedisReply.fields) key value =
      (conn.get redis key).map fun (found, conn) => (found.isSome, found.getD value, conn) := by
  rw [getKey, command, get]
  split_ifs
  · rfl
  · rcases redis [text "GET", cStr key] with _ | (str | element | number | _ | str | str) <;> rfl

end CRedisConn

end CppRedis.Model.RedisCpp
