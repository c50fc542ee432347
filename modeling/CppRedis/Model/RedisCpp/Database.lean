import CppRedis.Machine.Keyspace
import CppRedis.Model.RedisCpp.Methods

/-! # A Redis database

What Redis documents of the commands by which a link writes and reads single values, in the upper case that the
link writes them in, and the methods of a link over a connection on which nothing is lost.
-/

namespace CppRedis.Model.RedisCpp

open Machine

/-- A value. A list that runs empty is removed. -/
inductive Content where
  | string (value : CppString)
  | hash (fields : Keyspace CppString CppString)
  | list (first : CppString) (rest : List CppString)

abbrev Database := Keyspace CppString Content

/-- The commands that look at one key. -/
inductive Query where
  | set (value : CppString)
  | get
  | hset (field value : CppString)
  | hget (field : CppString)
  | lpush (value : CppString)
  | lpop

/-- The command that the words make, and its key. -/
def parseQuery : Command → Option (CppString × Query)
  | [name, key] =>
      if name = text "GET" then some (key, .get)
      else if name = text "LPOP" then some (key, .lpop)
      else none
  | [name, key, second] =>
      if name = text "SET" then some (key, .set second)
      else if name = text "HGET" then some (key, .hget second)
      else if name = text "LPUSH" then some (key, .lpush second)
      else none
  | [name, key, field, value] => if name = text "HSET" then some (key, .hset field value) else none
  | _ => none

def wrongType : RedisReply := .error (text "WRONGTYPE Operation against a key holding the wrong kind of value")

/-- What a command does with what its key holds. -/
def Query.act : Query → Option Content → RedisReply × Option Content
  | .set value, _ => (.status (text "OK"), some (.string value))
  | .get, none => (.nil, none)
  | .get, some (.string value) => (.string value, some (.string value))
  | .hset field value, none => (.integer 1, some (.hash (Keyspace.put (fun _ => none) field value)))
  | .hset field value, some (.hash fields) =>
      (.integer (if (fields field).isSome then 0 else 1), some (.hash (fields.put field value)))
  | .hget _, none => (.nil, none)
  | .hget field, some (.hash fields) => ((fields field).elim .nil .string, some (.hash fields))
  | .lpush value, none => (.integer 1, some (.list value []))
  | .lpush value, some (.list first rest) => (.integer (rest.length + 2), some (.list value (first :: rest)))
  | .lpop, none => (.nil, none)
  | .lpop, some (.list first []) => (.string first, none)
  | .lpop, some (.list first (second :: rest)) => (.string first, some (.list second rest))
  | _, some content => (wrongType, some content)

namespace Database

def execute (database : Database) (words : Command) : RedisReply × Database :=
  match parseQuery words with
  | none => (.error (text "ERR unknown command"), database)
  | some (key, query) => database.atKey key query.act

/-- What the link reaches under a key. -/
def under (key : CppString) (database : Database) : Option Content := database (cStr key)

/-- What the link reaches under a field of a hash. -/
def fieldUnder (key field : CppString) (database : Database) : Option CppString :=
  match database.under key with
  | some (.hash fields) => fields (cStr field)
  | _ => none

end Database

/-- hiredis, when these words are replied to. -/
def replying (words : Command) (reply : RedisReply) : Hiredis := fun sent =>
  if sent = words then some reply.fields else none

/-- A method sends its words, they are executed, and it gets the reply. -/
def Executes {α : Type} (method : Hiredis → Returned α) (source : Database) (result : Bool × α × CRedisConn)
    (target : Database) : Prop :=
  ∃ words, method (replying words (source.execute words).1) = some result ∧ target = (source.execute words).2

end CppRedis.Model.RedisCpp
