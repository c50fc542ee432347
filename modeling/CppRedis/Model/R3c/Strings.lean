import CppRedis.Model.R3c.Command
import CppRedis.Model.R3c.Streams

/-! # Values of keys

`get` and `mget`, with `get_value` and `get_values`, from `r3c.cpp`. A command that is cut off, in the sense that its
rounds do not suffice, has no result.
-/

namespace CppRedis.Model.R3c

open Machine RedisCpp RedisClient

/-- What surrounds the program while the words of a command are sent. -/
abbrev Surroundings := List CppString → Env

/-- How `get` ends, with what `value` is then. -/
inductive Got where
  | returned (found : Bool) (value : CppString)
  | thrown (errinfo : ErrorInfo)

/-- How `mget` ends: with a count or with an exception, and with what `values` is then. -/
structure MultiGot where
  values : List CppString
  result : Except ErrorInfo Int32

def getArgs (key : CppString) : List CppString := [text "GET", key]

def mgetArgs (keys : List CppString) : List CppString := text "MGET" :: keys

/-- `get_value`. -/
def getValue : RedisReply → Bool × CppString
  | .nil => (false, [])
  | reply => (true, textOf reply)

/-- What `get` returns for a reply, with `value`. -/
def getReturn (value : CppString) : RedisReply → Bool × CppString
  | .nil => (false, value)
  | .string str => getValue (.string str)
  | _ => (true, value)

/-- `get_values` for strings, which are empty before. -/
def getStrings (element : List RedisReply) : List CppString :=
  element.map fun
    | .nil => []
    | valueReply => textOf valueReply

variable (surroundings : Surroundings) (rounds : ℕ) (numRetries : ℤ)

namespace CRedisClient

def get (key value : CppString) : Action (Option Got) := do
  match ← redisCommand (surroundings (getArgs key)) rounds true numRetries key with
  | none => return none
  | some (.thrown errinfo) => return some (.thrown errinfo)
  | some (.returned none) => throw .dangling
  | some (.returned (some reply)) =>
      let (found, value) := getReturn value reply
      return some (.returned found value)

/-- The loop of `mget` over the keys, whose values are empty before, until `get` throws. -/
def getEach : List CppString → Action (Option (Except ErrorInfo (List CppString)))
  | [] => return some (.ok [])
  | key :: keys => do
      match ← CRedisClient.get surroundings rounds numRetries key [] with
      | none => return none
      | some (.thrown errinfo) => return some (.error errinfo)
      | some (.returned _ value) =>
          let rest ← getEach keys
          return rest.map (·.map (value :: ·))

/-- `mget` on a single server. -/
def mgetAlone (keys : List CppString) : Action (Option MultiGot) := do
  match ← redisCommand (surroundings (mgetArgs keys)) rounds true numRetries [] with
  | none => return none
  | some (.thrown errinfo) => return some { values := [], result := .error errinfo }
  | some (.returned none) => throw .dangling
  | some (.returned (some (.array element))) =>
      return some { values := getStrings element, result := .ok (Int32.ofNat element.length) }
  | some (.returned (some _)) => return some { values := [], result := .ok 0 }

def mget (keys : List CppString) : Action (Option MultiGot) := do
  if !(← MonadState.get).client.clusterMode then mgetAlone surroundings rounds numRetries keys
  else
    match ← getEach surroundings rounds numRetries keys with
    | none => return none
    | some (.error errinfo) => return some { values := [], result := .error errinfo }
    | some (.ok values) => return some { values := values, result := .ok (Int32.ofNat values.length) }

end CRedisClient

end CppRedis.Model.R3c
