import CppRedis.Machine.Keyspace
import CppRedis.Model.R3c.Scripts
import CppRedis.Model.R3c.Utils

/-! # Scripts in Redis

What Redis documents of `hmincrby_script` and of the commands that it calls. A script is carried out alone, and what
its commands have done stays when one of them fails.
-/

namespace CppRedis.Model.Redis

open Machine RedisCpp RedisClient R3c

/-- What a key holds, as far as hashes go. -/
inductive Holding where
  | hash (fields : Keyspace CppString CppString)
  | other

abbrev Hashes := Keyspace CppString Holding

/-- The hash at a key, empty where there is none; no hash where the key holds something else. -/
def fieldsOf : Option Holding → Option (Keyspace CppString CppString)
  | none => some fun _ => none
  | some (.hash fields) => some fields
  | some .other => none

/-- The number that a field holds. -/
def fieldValue : Option CppString → Option ℤ
  | none => some 0
  | some str => string2ll str

/-- The range of `long long`. -/
def inRange (value : ℤ) : Bool := -9223372036854775808 ≤ value && value < 9223372036854775808

/-- `HINCRBY`: the new value and what the key holds then, or an error. -/
def hincrby (field increment : CppString) (holding : Option Holding) : Except CppString (ℤ × Holding) :=
  match string2ll increment with
  | none => .error (text "ERR value is not an integer or out of range")
  | some increment =>
      match fieldsOf holding with
      | none => .error (text "WRONGTYPE Operation against a key holding the wrong kind of value")
      | some fields =>
          match fieldValue (fields field) with
          | none => .error (text "ERR hash value is not an integer")
          | some value =>
              if inRange (value + increment) then
                .ok (value + increment, .hash (fields.put field (convertToString (value + increment))))
              else .error (text "ERR increment or decrement would overflow")

/-- `SET` of a marker with `EX` and `NX`: whether it is set, or an error. -/
def setMarker (hk seconds : CppString) (store : Hashes) : Except CppString Bool × Hashes :=
  match string2ll seconds with
  | none => (.error (text "ERR value is not an integer or out of range"), store)
  | some seconds =>
      if seconds ≤ 0 then (.error (text "ERR invalid expire time in 'set' command"), store)
      else if (store hk).isSome then (.ok false, store)
      else (.ok true, store.put hk .other)

/-- The interpreter of the scripts. -/
structure Lua where
  /-- What becomes of an integer that a command returns to a script and the script to its caller. -/
  number : ℤ → ℤ
  /-- The error of a script in which a command has failed. -/
  raised : CppString → CppString

/-- The loop of `hmincrby_script`: its results or the error, and what the key holds then. -/
def hincrbyLoop : List CppString → Option Holding → Except CppString (List ℤ) × Option Holding
  | field :: value :: rest, holding =>
      match hincrby field value holding with
      | .error str => (.error str, holding)
      | .ok (result, after) =>
          match hincrbyLoop rest (some after) with
          | (.error str, last) => (.error str, last)
          | (.ok results, last) => (.ok (result :: results), last)
  | [_], holding => (.error (text "ERR Lua redis lib command arguments must be strings or integers"), holding)
  | [], holding => (.ok [], holding)

/-- `hmincrby_script` for a key and the other arguments. -/
def hmincrbyRun (lua : Lua) (key : CppString) : List CppString → Hashes → RedisReply × Hashes
  | uid :: seconds :: increments, store =>
      match setMarker (markerKey key uid) seconds store with
      | (.error str, store) => (.error (lua.raised str), store)
      | (.ok false, store) => (.nil, store)
      | (.ok true, store) =>
          match hincrbyLoop increments (store key) with
          | (.error str, holding) => (.error (lua.raised str), Function.update store key holding)
          | (.ok results, holding) =>
              (.array (results.map fun result => .integer (lua.number result)), Function.update store key holding)
  | _, store => (.error (lua.raised (text "ERR attempt to concatenate a nil value")), store)

/-- What the words of a command do that runs the script, on a server that caches it under its SHA-1. -/
def hmincrbyCommand (lua : Lua) (sha1 : CppString → CppString) : List CppString → Option (Hashes → RedisReply × Hashes)
  | name :: script :: numkeys :: key :: parameters =>
      if (name = text "EVAL" ∧ script = hmincrbyScript ∨ name = text "EVALSHA" ∧ script = sha1 hmincrbyScript) ∧
          numkeys = text "1" then
        some (hmincrbyRun lua key parameters)
      else none
  | _ => none

end CppRedis.Model.Redis
