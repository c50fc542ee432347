import CppRedis.Model.RedisCpp.Database
import CppRedis.Model.Redis.Server

/-! # Hashes and lists of a Redis database

What Redis documents of `HGETALL` and `LRANGE`, in the upper case that a link writes them in, and what becomes of a
command of a link.
-/

namespace CppRedis.Model.RedisCpp

open Machine

/-- A value. The pairs of a hash are in the order in which they are sent. -/
inductive Collection where
  | hash (pairs : List (CppString × CppString)) (distinct : (pairs.map Prod.fst).Nodup)
  | list (elements : List CppString)
  | other

abbrev Collections := Keyspace CppString Collection

/-- The reply with the fields of a hash, each before its value. -/
def pairsReply (pairs : List (CppString × CppString)) : RedisReply :=
  .array (pairs.flatMap fun pair => [.string pair.1, .string pair.2])

/-- The part of a list between two positions, which count from the end when they are negative. -/
def range {α : Type} (elements : List α) (start stop : ℤ) : List α :=
  let start := if start < 0 then start + elements.length else start
  let stop := if stop < 0 then stop + elements.length else stop
  (elements.take (stop + 1).toNat).drop start.toNat

namespace Collections

def hgetall (store : Collections) (key : CppString) : RedisReply :=
  match store key with
  | none => .array []
  | some (.hash pairs _) => pairsReply pairs
  | some _ => wrongType

def lrange (store : Collections) (key : CppString) (start stop : ℤ) : RedisReply :=
  match store key with
  | none => .array []
  | some (.list elements) => .array ((range elements start stop).map .string)
  | some _ => wrongType

/-- The reply to the words of a command. Other commands are not modeled and answer with an error. -/
def answer (store : Collections) : Command → RedisReply
  | [name, key] =>
      if name = text "HGETALL" then store.hgetall key else .error (text "ERR unknown command")
  | [name, key, start, stop] =>
      if name = text "LRANGE" then
        match Redis.parseInteger start, Redis.parseInteger stop with
        | some start, some stop => store.lrange key start stop
        | _, _ => .error (text "ERR value is not an integer or out of range")
      else .error (text "ERR unknown command")
  | _ => .error (text "ERR unknown command")

end Collections

/-- What becomes of the command of a link. -/
inductive Delivery where
  /-- The connection is lost. -/
  | lost
  /-- The server does not carry the command out. -/
  | refused (error : CppString)
  | answered
deriving DecidableEq, Repr

def Delivery.hiredis (delivery : Delivery) (store : Collections) : Hiredis := fun words =>
  match delivery with
  | lost => none
  | refused error => some (RedisReply.error error).fields
  | answered => some (store.answer words).fields

end CppRedis.Model.RedisCpp
