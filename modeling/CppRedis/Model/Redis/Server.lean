import CppRedis.Machine.Keyspace
import CppRedis.Model.Redis.Request
import CppRedis.Model.RedisClient.HashSlot
import Mathlib.Data.FinEnum

/-! # Redis servers

What Redis documents of these requests, for a server of its own and for the nodes of a cluster. No time
passes. A node answers for its slots only, and a request has its keys in one slot.
-/

namespace CppRedis.Model.Redis

open Machine RedisCpp RedisClient

variable {o : Type}

/-- A value, as far as `GET` tells values apart. -/
inductive Value (o : Type) where
  | string (str : CppString)
  | other (value : o)
deriving DecidableEq

structure Entry (o : Type) where
  value : Value o
  /-- What is left of its life, in milliseconds. -/
  ttl : Option ℕ := none
deriving DecidableEq

abbrev Store (o : Type) := Keyspace CppString (Entry o)

/-- What `DUMP` makes of a value, and `RESTORE` of a payload. -/
structure Format (o : Type) where
  dump : Value o → CppString
  load : CppString → Option (Value o)
  load_dump : ∀ value, load (dump value) = some value
  dump_ne_nil : ∀ value, dump value ≠ []

/-- A number without a sign. -/
def parseNatural (digits : CppString) : Option ℕ :=
  if digits ≠ [] ∧ ∀ digit ∈ digits, isDigit digit then some (digitsValue digits) else none

/-- A number within the range of `long long`. -/
def parseInteger (word : CppString) : Option ℤ :=
  let value :=
    if word.head? = some 45 then (parseNatural word.tail).map fun (value : ℕ) => -(value : ℤ)
    else (parseNatural word).map fun (value : ℕ) => (value : ℤ)
  value.filter fun value => -9223372036854775808 ≤ value ∧ value < 9223372036854775808

def wrongType : RedisReply := .error (text "WRONGTYPE Operation against a key holding the wrong kind of value")

def noSuchKey : RedisReply := .error (text "ERR no such key")

def ok : RedisReply := .status (text "OK")

def getReply : Option (Entry o) → RedisReply
  | none => .nil
  | some { value := .string str, .. } => .string str
  | some { value := .other _, .. } => wrongType

/-- In the array of `MGET` a key of another type is like a missing one. -/
def mgetReply : Option (Entry o) → RedisReply
  | some { value := .string str, .. } => .string str
  | _ => .nil

def pttlReply : Option (Entry o) → RedisReply
  | none => .integer (-2)
  | some { ttl := none, .. } => .integer (-1)
  | some { ttl := some ttl, .. } => .integer ttl

variable (format : Format o)

/-- `RESTORE` looks at the key before it looks at the number, and at the payload last. -/
def restoreEntry (ttl payload : CppString) : Option (Entry o) → RedisReply × Option (Entry o)
  | some entry => (.error (text "BUSYKEY Target key name already exists."), some entry)
  | none =>
      match parseInteger ttl with
      | none => (.error (text "ERR value is not an integer or out of range"), none)
      | some ttl =>
          if ttl < 0 then (.error (text "ERR Invalid TTL value, must be >= 0"), none)
          else
            match format.load payload with
            | none => (.error (text "ERR DUMP payload version or checksum are wrong"), none)
            | some value => (ok, some { value := value, ttl := if ttl = 0 then none else some ttl.toNat })

def held (entry : Option (Entry o)) : RedisReply := .integer (if entry.isSome then 1 else 0)

/-- What a command does with what its key holds. -/
def KeyCommand.act : KeyCommand → Option (Entry o) → RedisReply × Option (Entry o)
  | .get, entry => (getReply entry, entry)
  | .set value, _ => (ok, some { value := .string value })
  | .del, entry => (held entry, none)
  | .exists, entry => (held entry, entry)
  | .dump, entry => (entry.elim .nil fun entry => .string (format.dump entry.value), entry)
  | .pttl, entry => (pttlReply entry, entry)
  | .restore ttl payload, entry => restoreEntry format ttl payload entry

def renamed (key newKey : CppString) (entry : Entry o) (store : Store o) : Store o :=
  (store.erase key).put newKey entry

/-- One server with one store. -/
def execute (request : Request) (store : Store o) : RedisReply × Store o :=
  match request with
  | .on key command => store.atKey key (command.act format)
  | .mget keys => (.array (keys.map fun key => mgetReply (store key)), store)
  | .mset entries => (ok, store.putAll (entries.map fun entry => (entry.1, { value := .string entry.2 })))
  | .rename key newKey =>
      match store key with
      | none => (noSuchKey, store)
      | some entry => (ok, renamed key newKey entry store)
  | .renamenx key newKey =>
      match store key with
      | none => (noSuchKey, store)
      | some entry =>
          if (store newKey).isSome then (.integer 0, store) else (.integer 1, renamed key newKey entry store)

section

open Keyspace

theorem renamed_frame {key newKey : CppString} {entry : Entry o} {store : Store o} {other : CppString}
    (outside : other ∉ [key, newKey]) : renamed key newKey entry store other = store other := by
  simp only [List.mem_cons, List.not_mem_nil, or_false, not_or] at outside
  rw [renamed, put_of_ne _ outside.2, erase_of_ne outside.1]

theorem renamed_agree {key newKey : CppString} (entry : Entry o) {store other : Store o} :
    Agree [key, newKey] (renamed key newKey entry store) (renamed key newKey entry other) := by
  intro moved member
  by_cases target : moved = newKey
  · rw [target, renamed, renamed, put_self, put_self]
  · have source : moved = key := by simpa [target] using member
    rw [renamed, renamed, put_of_ne _ target, put_of_ne _ target, source, erase_self, erase_self]

/-- A request looks at its keys, and changes no others. -/
theorem execute_local (request : Request) : Local request.keys (execute format request) := by
  cases request with
  | on key command => exact atKey_local key _
  | mget keys =>
    refine ⟨fun _ _ _ => rfl, fun store other agree => ?_, fun _ _ agree => agree⟩
    exact congrArg RedisReply.array (List.map_congr_left fun key member => congrArg mgetReply (agree key member))
  | mset entries =>
    have isLocal := putAll_local ok (entries.map fun entry => (entry.1, ({ value := .string entry.2 } : Entry o)))
    rwa [List.map_map] at isLocal
  | rename key newKey =>
    refine ⟨fun store other outside => ?_, fun store other agree => ?_, fun store other agree => ?_⟩
    · simp only [execute]
      cases store key with
      | none => rfl
      | some entry => exact renamed_frame outside
    · simp only [execute, agree key List.mem_cons_self]
      cases other key <;> rfl
    · simp only [execute, agree key List.mem_cons_self]
      cases other key with
      | none => exact agree
      | some entry => exact renamed_agree entry
  | renamenx key newKey =>
    refine ⟨fun store other outside => ?_, fun store other agree => ?_, fun store other agree => ?_⟩
    · simp only [execute]
      cases store key with
      | none => rfl
      | some entry =>
        dsimp only
        split_ifs
        · rfl
        · exact renamed_frame outside
    · simp only [execute, agree key List.mem_cons_self, agree newKey (List.mem_cons_of_mem _ List.mem_cons_self)]
      cases other key with
      | none => rfl
      | some entry => split_ifs <;> rfl
    · simp only [execute, agree key List.mem_cons_self, agree newKey (List.mem_cons_of_mem _ List.mem_cons_self)]
      cases other key with
      | none => exact agree
      | some entry =>
        dsimp only
        split_ifs
        · exact agree
        · exact renamed_agree entry

end

def unknownCommand : RedisReply := .error (text "ERR unknown command")

/-- A server of its own, whatever its address. -/
def serveAlone (store : Store o) (_ : CppString × ℤ) (words : List CppString) : RedisReply × Store o :=
  match parse words with
  | none => (unknownCommand, store)
  | some request => execute format request store

section

variable (owner : ℕ → CppString × ℤ)

/-- The node of a key. -/
def nodeOf (key : CppString) : CppString × ℤ := owner (hashSlot key)

/-- The stores of a cluster. -/
abbrev Stores (o : Type) := Shards (nodeOf owner) (Entry o)

def crossSlot : RedisReply := .error (text "CROSSSLOT Keys in request don't hash to the same slot")

def moved (slot : ℕ) : RedisReply :=
  .error (text "MOVED " ++ convertToString slot ++ text " " ++ (owner slot).1 ++ text ":" ++
    convertToString (owner slot).2)

def oneSlot (keys : List CppString) : Bool := keys.all fun key => keys.all fun other => hashSlot key = hashSlot other

variable {owner}

/-- The node at an address. -/
def serveNode (stores : Stores owner o) (node : CppString × ℤ) (words : List CppString) : RedisReply × Stores owner o :=
  match parse words with
  | none => (unknownCommand, stores)
  | some request =>
      if !oneSlot request.keys then (crossSlot, stores)
      else if own : ∀ key ∈ request.keys, nodeOf owner key = node then
        stores.run node (execute format request) (Shards.placed_of_local (execute_local format request) own)
      else (moved owner (hashSlot (request.keys.headD [])), stores)

end

end CppRedis.Model.Redis
