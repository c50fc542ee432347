import CppRedis.Machine.Bytes

/-! # A link to a Redis server

`CRedisConn.h`, the string commands, over hiredis replies. The server is a function from the words
of a command to its reply; a null reply stands for a lost connection. `_getError` reports a null
reply as no error, so the callers go on to dereference it.
-/

namespace CppRedis.Model.RedisCpp

open Machine

/-- A `redisReply` by its `type`. -/
inductive RedisReply where
  | string (str : CppString)
  | array (element : List RedisReply)
  | integer (value : ℤ)
  | nil
  | status (str : CppString)
  | error (str : CppString)

/-- `reply->str`, null for the types that carry no text. -/
def RedisReply.str? : RedisReply → Option CppString
  | .string str | .status str | .error str => some str
  | _ => none

/-- The words of a command, as hiredis formats them. -/
abbrev Command := List CppString

/-- A Redis server seen through one link. -/
abbrev Server := Command → Option RedisReply

/-- `E_ERROR_NO`. -/
inductive ErrorNo where
  | noError
  | null
  | noConnect
  | noPivot
  | noKey
  | noField
  | index
deriving DecidableEq, Repr

/-- ASCII text as bytes. -/
def text (message : String) : CppString := message.toList.map fun char => char.toNat.toUInt8

/-- `CRedisConn::_errDes`. -/
def ErrorNo.description : ErrorNo → CppString
  | .noError => text "No error."
  | .null => text "NULL pointer "
  | .noConnect => text "No connection to the redis server."
  | .noPivot => text "Inser Error,pivot not found."
  | .noKey => text "key not found"
  | .noField => text "hash field not found"
  | .index => text "error index"

/-- `CRedisConn`. Of `_redCtx` only whether it is null is observed. -/
structure CRedisConn where
  redCtx : Bool := false
  connected : Bool := false
  errStr : CppString := ErrorNo.noError.description

namespace CRedisConn

/-- `CRedisConn::_getError(const redisReply*)`. -/
def getError (conn : CRedisConn) : Option RedisReply → Bool × CRedisConn
  | none => (false, { conn with errStr := ErrorNo.null.description })
  | some (.error str) => (true, { conn with errStr := cStr str })
  | some _ => (false, { conn with errStr := ErrorNo.noError.description })

/-- `CRedisConn::get`: the value assigned when it returns true. The outer `none` is a dereference
of a null pointer. -/
def get (conn : CRedisConn) (redis : Server) (key : CppString) :
    Option (Option CppString × CRedisConn) :=
  if !conn.connected || !conn.redCtx then
    some (none, { conn with errStr := ErrorNo.noConnect.description })
  else
    let reply := redis [text "GET", cStr key]
    let (failed, conn) := conn.getError reply
    if failed then some (none, conn)
    else
      match reply with
      | none => none
      | some .nil =>
          some (none, { conn with
            errStr := ErrorNo.noKey.description ++ text " or " ++ ErrorNo.noField.description })
      | some reply => reply.str?.map fun str => (some (cStr str), conn)

end CRedisConn

end CppRedis.Model.RedisCpp
