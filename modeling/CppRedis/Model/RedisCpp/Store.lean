import CppRedis.Model.RedisCpp.CRedisConn

/-! # A Redis server with a fixed store

What Redis documents about `GET`: the value of a string key, nil for a missing key, and an error
for a key of another type. Other commands are not modeled and answer with an error.
-/

namespace CppRedis.Model.RedisCpp

open Machine

/-- A stored value, as far as `GET` tells values apart. -/
inductive RedisValue where
  | string (value : CppString)
  | other

/-- The contents of a Redis database. -/
abbrev Store := CppString → Option RedisValue

/-- The reply to `GET key`. -/
def Store.get (store : Store) (key : CppString) : RedisReply :=
  match store key with
  | none => .nil
  | some (.string value) => .string value
  | some .other => .error (text "WRONGTYPE Operation against a key holding the wrong kind of value")

/-- The server that answers from the store. -/
def Store.server (store : Store) : Server := fun command =>
  match command with
  | [name, key] =>
      if name = text "GET" then some (store.get key) else some (.error (text "ERR unknown command"))
  | _ => some (.error (text "ERR unknown command"))

/-- The string stored under a key. -/
def Store.string? (store : Store) (key : CppString) : Option CppString :=
  match store key with
  | some (.string value) => some value
  | _ => none

theorem Store.server_get (store : Store) (key : CppString) :
    store.server [text "GET", key] = some (store.get key) := by
  simp only [Store.server, ↓reduceIte]

/-- A connected `get` reports a value exactly for string keys, cut at its first zero. -/
theorem CRedisConn.get_server {conn : CRedisConn} (connected : conn.connected = true)
    (context : conn.redCtx = true) (store : Store) (key : CppString) :
    ∃ errStr, conn.get store.server key =
      some ((store.string? (cStr key)).map cStr, { conn with errStr := errStr }) := by
  rcases conn with ⟨redCtx, linked, errStr⟩
  obtain rfl : linked = true := connected
  obtain rfl : redCtx = true := context
  simp only [CRedisConn.get, Bool.not_true, Bool.or_self, Bool.false_eq_true, ↓reduceIte,
    Store.server_get, Store.get, Store.string?]
  rcases store (cStr key) with _ | (value | _)
  · exact ⟨_, rfl⟩
  · exact ⟨_, rfl⟩
  · exact ⟨_, rfl⟩

end CppRedis.Model.RedisCpp
