import CppRedis.Machine.Buckets
import CppRedis.Model.Hiredis.Reader

/-! # The dictionary

`dict.c`, over keys and values of any type. The size of a table is the number of its chains, and a pointer to an entry
is the key of the entry, which no other entry has. `none` stands for a failed assertion, for an access outside of the
table and for a pointer to nothing. There is memory for the table. Keys are shorter than 2^31 bytes.
-/

namespace CppRedis.Model.Hiredis

open Machine RedisCpp

/-- `dictType`, without what copies and frees keys and values. -/
structure DictType (κ : Type) where
  hashFunction : κ → UInt32
  keyCompare : κ → κ → Bool

/-- `dict`. -/
structure Dict (κ ν : Type) where
  table : Buckets κ ν := []
  used : ℕ := 0
deriving DecidableEq, Repr

/-- `dictIterator`. -/
structure DictIterator (κ : Type) where
  index : ℤ := -1
  entry : Option κ := none
  nextEntry : Option κ := none
deriving DecidableEq, Repr

/-- `dictGenHashFunction`. -/
def dictGenHashFunction (buf : CppString) : UInt32 :=
  buf.foldl (fun hash byte => ((hash <<< 5) + hash) + byte.toUInt32) 5381

/-- The loop of `_dictNextPower`, for at most that many turns. -/
def nextPowerFrom (size : ℕ) : ℕ → ℕ → ℕ
  | 0, i => i
  | turns + 1, i => if size ≤ i then i else nextPowerFrom size turns (i * 2)

/-- `_dictNextPower`. Below `LONG_MAX` 61 turns are enough. -/
def dictNextPower (size : ℕ) : ℕ := if 9223372036854775807 ≤ size then 9223372036854775807 else nextPowerFrom size 61 4

/-- The index of a key in a table of that size. -/
def dictHome {κ : Type} (type : DictType κ) (size : ℕ) (key : κ) : ℕ := (type.hashFunction key).toNat &&& (size - 1)

namespace Dict

variable {κ ν : Type} (type : DictType κ) (ht : Dict κ ν)

def size : ℕ := ht.table.length

/-- The chain where a key belongs. -/
def chain (key : κ) : List (κ × ν) := ht.table[dictHome type ht.size key]?.getD []

/-- The loop of `dictExpand`: what it leaves of `used`, and the new table. -/
def moveChains (realsize : ℕ) : List (List (κ × ν)) → ℕ → Buckets κ ν → ℕ × Buckets κ ν
  | [], used, table => (used, table)
  | chain :: rest, used, table =>
      if 0 < used then
        moveChains realsize rest (used - chain.length) (chain.foldl (pushFront (dictHome type realsize)) table)
      else (used, table)

/-- `dictExpand`. -/
def dictExpand (size : ℕ) : Option (Status × Dict κ ν) :=
  let realsize := dictNextPower size
  if size < ht.used then some (.err, ht)
  else
    let (used, table) := moveChains type realsize ht.table ht.used (List.replicate realsize [])
    if used = 0 then some (.ok, { table := table, used := ht.used }) else none

/-- `_dictExpandIfNeeded`. -/
def dictExpandIfNeeded : Option (Status × Dict κ ν) :=
  if ht.size = 0 then ht.dictExpand type 4
  else if ht.used = ht.size then ht.dictExpand type (ht.size * 2)
  else some (.ok, ht)

/-- `dictFind`. -/
def dictFind (key : κ) : Option (κ × ν) :=
  if ht.size = 0 then none else (ht.chain type key).find? fun entry => type.keyCompare key entry.1

/-- `_dictKeyIndex`: an `int`, and the dictionary, which it may have expanded. -/
def dictKeyIndex (key : κ) : Option (ℤ × Dict κ ν) :=
  (ht.dictExpandIfNeeded type).map fun (status, ht) =>
    if status = .err then (-1, ht)
    else if ((ht.chain type key).find? fun entry => type.keyCompare key entry.1).isSome then (-1, ht)
    else (toInt (dictHome type ht.size key), ht)

/-- `dictAdd`. -/
def dictAdd (key : κ) (val : ν) : Option (Status × Dict κ ν) :=
  (ht.dictKeyIndex type key).bind fun (index, ht) =>
    if index = -1 then some (.err, ht)
    else if 0 ≤ index then
      ht.table[index.toNat]?.map fun chain =>
        (.ok, { table := ht.table.set index.toNat ((key, val) :: chain), used := ht.used + 1 })
    else none

/-- Another value in the entry that `dictFind` comes to. -/
def setVal (key : κ) (val : ν) : List (κ × ν) → List (κ × ν)
  | [] => []
  | entry :: chain => if type.keyCompare key entry.1 then (entry.1, val) :: chain else entry :: setVal key val chain

/-- A store into the entry that `dictFind` comes to. -/
def setEntry (key : κ) (val : ν) : Dict κ ν :=
  { ht with table := ht.table.set (dictHome type ht.size key) (setVal type key val (ht.chain type key)) }

/-- `dictReplace`, with whether the key is new. -/
def dictReplace (key : κ) (val : ν) : Option (Bool × Dict κ ν) :=
  (ht.dictAdd type key val).bind fun (status, ht) =>
    if status = .ok then some (true, ht) else (ht.dictFind type key).map fun _ => (false, ht.setEntry type key val)

/-- The loop of `dictDelete`: the chain without the entry. -/
def unlink (key : κ) : List (κ × ν) → Option (List (κ × ν))
  | [] => none
  | entry :: chain => if type.keyCompare key entry.1 then some chain else (unlink key chain).map (entry :: ·)

/-- `dictDelete`. -/
def dictDelete (key : κ) : Status × Dict κ ν :=
  if ht.size = 0 then (.err, ht)
  else
    match unlink type key (ht.chain type key) with
    | none => (.err, ht)
    | some chain => (.ok, { table := ht.table.set (dictHome type ht.size key) chain, used := ht.used - 1 })

/-- The pointer `next` of an entry. -/
def next (key : κ) : Option κ :=
  ((ht.chain type key).dropWhile fun entry => !type.keyCompare key entry.1).tail.head?.map Prod.fst

/-- The loop of `dictNext`, for at most that many turns. -/
def dictNextWithin : ℕ → DictIterator κ → Option (Option (κ × ν) × DictIterator κ)
  | 0, _ => none
  | turns + 1, iter =>
      match iter.entry with
      | none =>
          let index := iter.index + 1
          if toInt ht.size ≤ index then some (none, { iter with index := index })
          else
            match (ht.table[index.toNat]?.getD []).head? with
            | none => dictNextWithin turns { iter with index := index }
            | some entry =>
                some (some entry, { index := index, entry := some entry.1, nextEntry := ht.next type entry.1 })
      | some _ =>
          match iter.nextEntry with
          | none => dictNextWithin turns { iter with entry := none }
          | some key =>
              (ht.dictFind type key).map fun entry =>
                (some entry, { iter with entry := some entry.1, nextEntry := ht.next type entry.1 })

/-- `dictNext`. -/
def dictNext (iter : DictIterator κ) : Option (Option (κ × ν) × DictIterator κ) :=
  ht.dictNextWithin type (ht.size + 2) iter

end Dict

end CppRedis.Model.Hiredis
