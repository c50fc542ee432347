import Mathlib.Logic.Function.Basic
import Mathlib.Data.List.Basic

/-! # Keyspaces and their shards

A keyspace is a partial map. Shards are keyspaces that hold disjoint sets of keys, as an owner of each key
says. A command that looks at keys of one owner only does on the shard of the owner what it does on the
union of all shards, so a run of such commands over shards is a run of them over one keyspace.
-/

namespace CppRedis.Machine

/-- A partial map from keys to entries. -/
abbrev Keyspace (κ ε : Type*) := κ → Option ε

namespace Keyspace

variable {κ ε α : Type*}

section

variable [DecidableEq κ]

def put (store : Keyspace κ ε) (key : κ) (entry : ε) : Keyspace κ ε := Function.update store key (some entry)

def erase (store : Keyspace κ ε) (key : κ) : Keyspace κ ε := Function.update store key none

@[simp] theorem put_self (store : Keyspace κ ε) (key : κ) (entry : ε) : store.put key entry key = some entry :=
  Function.update_self _ _ _

@[simp] theorem put_of_ne {store : Keyspace κ ε} {key other : κ} (entry : ε) (different : other ≠ key) :
    store.put key entry other = store other := Function.update_of_ne different _ _

@[simp] theorem erase_self (store : Keyspace κ ε) (key : κ) : store.erase key key = none := Function.update_self _ _ _

@[simp] theorem erase_of_ne {store : Keyspace κ ε} {key other : κ} (different : other ≠ key) :
    store.erase key other = store other := Function.update_of_ne different _ _

theorem erase_of_none {store : Keyspace κ ε} {key : κ} (absent : store key = none) : store.erase key = store := by
  rw [erase, ← absent, Function.update_eq_self]

theorem erase_erase (store : Keyspace κ ε) (key : κ) : (store.erase key).erase key = store.erase key :=
  Function.update_idem _ _ _

/-- Entries for several keys, one after the other. -/
def putAll (store : Keyspace κ ε) (entries : List (κ × ε)) : Keyspace κ ε :=
  entries.foldl (fun store entry => store.put entry.1 entry.2) store

/-- What a key holds in the end depends on the entries for the key alone. -/
theorem putAll_apply (entries : List (κ × ε)) (store : Keyspace κ ε) (key : κ) :
    store.putAll entries key = ((entries.filter fun entry => entry.1 = key).getLast?.map Prod.snd).or (store key) := by
  induction entries generalizing store with
  | nil => rfl
  | cons entry entries ih =>
    obtain ⟨first, value⟩ := entry
    have next : store.putAll ((first, value) :: entries) = (store.put first value).putAll entries := rfl
    rw [next, ih]
    by_cases same : first = key
    · subst first
      rw [put_self, List.filter_cons_of_pos (by simp only [decide_true]), List.getLast?_cons]
      cases (entries.filter fun entry => entry.1 = key).getLast? <;> rfl
    · rw [put_of_ne _ (Ne.symm same), List.filter_cons_of_neg
        (by simp only [same, decide_false, Bool.false_eq_true, not_false_iff])]

/-- Entries may be put in any order that keeps the order of those for each key. -/
theorem putAll_eq_of_filter {entries others : List (κ × ε)}
    (same : ∀ key, entries.filter (fun entry => entry.1 = key) = others.filter fun entry => entry.1 = key)
    (store : Keyspace κ ε) : store.putAll entries = store.putAll others := by
  funext key
  rw [putAll_apply, putAll_apply, same]

/-- The first entries for the keys of a list. -/
def ofList (entries : List (κ × ε)) : Keyspace κ ε := fun key => (entries.find? fun entry => entry.1 = key).map Prod.snd

/-- An entry for a key that has none. -/
def insert (store : Keyspace κ ε) (key : κ) (entry : ε) : Keyspace κ ε :=
  if (store key).isSome then store else store.put key entry

def insertAll (store : Keyspace κ ε) (entries : List (κ × ε)) : Keyspace κ ε :=
  entries.foldl (fun store entry => store.insert entry.1 entry.2) store

theorem ofList_cons (key : κ) (entry : ε) (entries : List (κ × ε)) (other : κ) :
    ofList ((key, entry) :: entries) other = if key = other then some entry else ofList entries other := by
  rw [ofList, List.find?_cons]
  split_ifs with same
  · rw [decide_eq_true same, Option.map_some]
  · rw [decide_eq_false same, ofList]

theorem insert_apply (store : Keyspace κ ε) (key : κ) (entry : ε) (other : κ) :
    store.insert key entry other = (store other).or (if key = other then some entry else none) := by
  rw [insert]
  by_cases same : key = other
  · subst other
    rw [if_pos rfl]
    cases there : store key with
    | some old => rw [Option.isSome_some, if_pos rfl, there, Option.some_or]
    | none => rw [Option.isSome_none, if_neg Bool.false_ne_true, put_self, Option.none_or]
  · rw [if_neg same, Option.or_none]
    split_ifs
    · rfl
    · exact put_of_ne entry (Ne.symm same)

/-- What was there stays, and a new key gets the first of its entries. -/
theorem insertAll_apply (store : Keyspace κ ε) (entries : List (κ × ε)) (key : κ) :
    store.insertAll entries key = (store key).or (ofList entries key) := by
  induction entries generalizing store with
  | nil => exact (Option.or_none).symm
  | cons entry entries ih =>
    have next : store.insertAll (entry :: entries) = (store.insert entry.1 entry.2).insertAll entries := rfl
    rw [next, ih, insert_apply, Option.or_assoc, ofList_cons]
    split_ifs
    · rw [Option.some_or]
    · rw [Option.none_or]

/-- From an empty keyspace only the entries are left. -/
theorem insertAll_empty (entries : List (κ × ε)) : insertAll (fun _ => none) entries = ofList entries := by
  funext key
  rw [insertAll_apply, Option.none_or]

theorem mem_of_ofList {entries : List (κ × ε)} {key : κ} {entry : ε} (found : ofList entries key = some entry) :
    (key, entry) ∈ entries := by
  obtain ⟨⟨first, value⟩, here, rfl⟩ := Option.map_eq_some_iff.mp found
  have same := List.find?_some here
  rw [← of_decide_eq_true same]
  exact List.mem_of_find?_eq_some here

/-- With an entry for each key at most, all of them are there. -/
theorem ofList_eq_some_iff {entries : List (κ × ε)} (distinct : (entries.map Prod.fst).Nodup) {key : κ} {entry : ε} :
    ofList entries key = some entry ↔ (key, entry) ∈ entries := by
  refine ⟨mem_of_ofList, fun member => ?_⟩
  induction entries with
  | nil => cases member
  | cons first entries ih =>
    rw [List.map_cons, List.nodup_cons] at distinct
    rw [ofList_cons]
    rcases List.mem_cons.mp member with rfl | later
    · rw [if_pos rfl]
    · rw [if_neg fun same => distinct.1 (List.mem_map.mpr ⟨(key, entry), later, same.symm⟩), ih distinct.2 later]

end

/-- The keyspaces agree on these keys. -/
def Agree (keys : List κ) (store other : Keyspace κ ε) : Prop := ∀ key ∈ keys, store key = other key

/-- A command that looks at these keys only and changes no others. -/
structure Local (keys : List κ) (command : Keyspace κ ε → α × Keyspace κ ε) : Prop where
  frame : ∀ store key, key ∉ keys → (command store).2 key = store key
  value : ∀ store other, Agree keys store other → (command store).1 = (command other).1
  agree : ∀ store other, Agree keys store other → Agree keys (command store).2 (command other).2

section

variable [DecidableEq κ]

/-- A command that looks at one key. -/
def atKey (key : κ) (act : Option ε → α × Option ε) (store : Keyspace κ ε) : α × Keyspace κ ε :=
  ((act (store key)).1, Function.update store key (act (store key)).2)

theorem atKey_local (key : κ) (act : Option ε → α × Option ε) : Local [key] (atKey key act) where
  frame store other outside := Function.update_of_ne (fun same => outside (List.mem_singleton.mpr same)) _ _
  value store other agree := by rw [atKey, atKey, agree key (List.mem_singleton_self key)]
  agree store other agree := by
    intro _ member
    cases List.mem_singleton.mp member
    simp only [atKey, agree key (List.mem_singleton_self key), Function.update_self]

theorem putAll_local (value : α) (entries : List (κ × ε)) :
    Local (entries.map Prod.fst) fun store => (value, putAll store entries) where
  frame store key outside := by
    have none : entries.filter (fun entry => entry.1 = key) = [] := by
      rw [List.filter_eq_nil_iff]
      intro entry member same
      exact outside (List.mem_map.mpr ⟨entry, member, of_decide_eq_true same⟩)
    dsimp only
    rw [putAll_apply, none]
    rfl
  value _ _ _ := rfl
  agree store other agree := by
    intro key member
    dsimp only
    rw [putAll_apply, putAll_apply, agree key member]

end

end Keyspace

/-- Keyspaces that hold only keys of their own. -/
structure Shards {κ ι : Type*} (owner : κ → ι) (ε : Type*) where
  shard : ι → Keyspace κ ε
  placed : ∀ node key, owner key ≠ node → shard node key = none

namespace Shards

open Keyspace

variable {κ ι ε α : Type*} {owner : κ → ι}

/-- All that the shards hold. -/
def union (shards : Shards owner ε) : Keyspace κ ε := fun key => shards.shard (owner key) key

variable [DecidableEq ι]

/-- A keyspace over its shards. -/
def split (owner : κ → ι) (store : Keyspace κ ε) : Shards owner ε where
  shard node key := if owner key = node then store key else none
  placed _ _ foreign := if_neg foreign

theorem union_split (store : Keyspace κ ε) : (split owner store).union = store := by
  funext key
  exact if_pos rfl

variable {keys : List κ} {command : Keyspace κ ε → α × Keyspace κ ε}

omit [DecidableEq ι] in
theorem placed_of_local (isLocal : Local keys command) {shards : Shards owner ε} {node : ι}
    (owned : ∀ key ∈ keys, owner key = node) (key : κ) (foreign : owner key ≠ node) :
    (command (shards.shard node)).2 key = none := by
  rw [isLocal.frame _ _ fun member => foreign (owned key member)]
  exact shards.placed node key foreign

omit [DecidableEq ι] in
theorem agree_union (shards : Shards owner ε) {node : ι} (owned : ∀ key ∈ keys, owner key = node) :
    Agree keys (shards.shard node) shards.union := by
  intro key member
  rw [union, owned key member]

/-- A command on a shard that changes only keys of the shard. -/
def run (shards : Shards owner ε) (node : ι) (command : Keyspace κ ε → α × Keyspace κ ε)
    (own : ∀ key, owner key ≠ node → (command (shards.shard node)).2 key = none) : α × Shards owner ε :=
  ((command (shards.shard node)).1, {
    shard := Function.update shards.shard node (command (shards.shard node)).2
    placed := by
      intro other key foreign
      by_cases same : other = node
      · subst other
        rw [Function.update_self]
        exact own key foreign
      · rw [Function.update_of_ne same]
        exact shards.placed other key foreign })

/-- On the shard of its keys a command does what it does on the union. -/
theorem run_fst (isLocal : Local keys command) (shards : Shards owner ε) {node : ι}
    (owned : ∀ key ∈ keys, owner key = node) (own) :
    (shards.run node command own).1 = (command shards.union).1 :=
  isLocal.value _ _ (shards.agree_union owned)

theorem run_union (isLocal : Local keys command) (shards : Shards owner ε) {node : ι}
    (owned : ∀ key ∈ keys, owner key = node) (own) :
    (shards.run node command own).2.union = (command shards.union).2 := by
  funext key
  have shard : (shards.run node command own).2.union key =
      Function.update shards.shard node (command (shards.shard node)).2 (owner key) key := rfl
  rw [shard]
  by_cases member : key ∈ keys
  · rw [owned key member, Function.update_self]
    exact isLocal.agree _ _ (shards.agree_union owned) key member
  · rw [isLocal.frame _ _ member]
    by_cases here : owner key = node
    · rw [here, Function.update_self, isLocal.frame _ _ member, union, here]
    · rw [Function.update_of_ne here, union]

end Shards

end CppRedis.Machine
