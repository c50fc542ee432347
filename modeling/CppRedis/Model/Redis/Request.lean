import CppRedis.Model.RedisClient.Reply

/-! # Requests to a Redis server

The commands by which keys are read, written and moved, in the forms that the client sends, as Redis reads
them from the words. Names are not case-sensitive.
-/

namespace CppRedis.Model.Redis

open Machine RedisCpp RedisClient

/-- The commands that look at one key. -/
inductive KeyCommand where
  | get
  | set (value : CppString)
  | del
  | exists
  | dump
  | pttl
  | restore (ttl payload : CppString)

inductive Request where
  | on (key : CppString) (command : KeyCommand)
  | mget (keys : List CppString)
  | mset (entries : List (CppString × CppString))
  | rename (key newKey : CppString)
  | renamenx (key newKey : CppString)

/-- The keys of a request, by which a cluster finds its slot. -/
def Request.keys : Request → List CppString
  | .on key _ => [key]
  | .mget keys => keys
  | .mset entries => entries.map Prod.fst
  | .rename key newKey | .renamenx key newKey => [key, newKey]

def lower (name : CppString) : CppString := name.map fun byte => if 65 ≤ byte ∧ byte ≤ 90 then byte + 32 else byte

/-- The keys and values of `MSET`. -/
def parsePairs : List CppString → Option (List (CppString × CppString))
  | [] => some []
  | [_] => none
  | key :: value :: rest => (parsePairs rest).map ((key, value) :: ·)

/-- The request that the words make; `none` where the server does not know the command or its form. -/
def parse : List CppString → Option Request
  | [] => none
  | name :: args =>
      let name := lower name
      if name = text "mget" then if args = [] then none else some (.mget args)
      else if name = text "mset" then if args = [] then none else (parsePairs args).map .mset
      else
        match args with
        | [key] =>
            if name = text "get" then some (.on key .get)
            else if name = text "del" then some (.on key .del)
            else if name = text "exists" then some (.on key .exists)
            else if name = text "dump" then some (.on key .dump)
            else if name = text "pttl" then some (.on key .pttl)
            else none
        | [key, second] =>
            if name = text "set" then some (.on key (.set second))
            else if name = text "rename" then some (.rename key second)
            else if name = text "renamenx" then some (.renamenx key second)
            else none
        | [key, ttl, payload] => if name = text "restore" then some (.on key (.restore ttl payload)) else none
        | _ => none

section

variable (key second third : CppString)

theorem parse_get : parse [text "get", key] = some (.on key .get) := rfl

theorem parse_set : parse [text "set", key, second] = some (.on key (.set second)) := rfl

theorem parse_del : parse [text "del", key] = some (.on key .del) := rfl

theorem parse_exists : parse [text "exists", key] = some (.on key .exists) := rfl

theorem parse_dump : parse [text "dump", key] = some (.on key .dump) := rfl

theorem parse_pttl : parse [text "pttl", key] = some (.on key .pttl) := rfl

theorem parse_restore : parse [text "restore", key, second, third] = some (.on key (.restore second third)) := rfl

theorem parse_rename : parse [text "rename", key, second] = some (.rename key second) := rfl

theorem parse_renamenx : parse [text "renamenx", key, second] = some (.renamenx key second) := rfl

theorem parse_mget (keys : List CppString) : parse (text "mget" :: key :: keys) = some (.mget (key :: keys)) := rfl

end

end CppRedis.Model.Redis
