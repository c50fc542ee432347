import CppRedis.Model.Hiredis.Dict
import CppRedis.Soundness.ReplyStream
import Mathlib.Data.Finset.Card

/-! # The dictionary is a map

Under any sequence of additions, replacements, deletions and lookups, the dictionary answers as a partial map does,
across all expansions of its table. A walk with an iterator comes to every entry once, also where the entries that it
came to are deleted on the way. Both hold below 2^30 keys, where a size is an `int`.
-/

namespace CppRedis.Soundness.Dictionaries

open Machine Model.Hiredis

variable {κ ν : Type} [DecidableEq κ] {type : DictType κ}

/-- Keys compare as what they are. -/
def Compares (type : DictType κ) : Prop := ∀ key other, type.keyCompare key other = true ↔ key = other

section

variable (compares : Compares type)

include compares

theorem compare_eq (key : κ) :
    (fun entry : κ × ν => type.keyCompare key entry.1) = fun entry => decide (entry.1 = key) := by
  funext entry
  rw [Bool.eq_iff_iff, compares, decide_eq_true_iff, eq_comm]

theorem find_chain (key : κ) (chain : List (κ × ν)) :
    (chain.find? fun entry => type.keyCompare key entry.1) = (Keyspace.ofList chain key).map (key, ·) := by
  rw [compare_eq compares, Keyspace.ofList, Option.map_map]
  cases found : chain.find? fun entry => decide (entry.1 = key) with
  | none => rfl
  | some entry =>
    have same : entry.1 = key := by simpa using List.find?_some found
    rw [Option.map_some, Function.comp_apply, ← same]

theorem setVal_eq (key : κ) (val : ν) (chain : List (κ × ν)) :
    Dict.setVal type key val chain = assign key val chain := by
  induction chain with
  | nil => rfl
  | cons entry chain ih =>
    rw [Dict.setVal, assign, ih]
    exact if_congr (compares key entry.1) rfl rfl

theorem unlink_eq (key : κ) (chain : List (κ × ν)) :
    Dict.unlink type key chain = (Keyspace.ofList chain key).map fun _ => remove key chain := by
  induction chain with
  | nil => rfl
  | cons entry chain ih =>
    obtain ⟨first, old⟩ := entry
    rw [Dict.unlink, remove, Keyspace.ofList_cons, ih]
    by_cases same : key = first
    · rw [if_pos ((compares _ _).mpr same), if_pos same, if_pos same.symm, Option.map_some]
    · rw [if_neg (fun equal => same ((compares _ _).mp equal)), if_neg same, if_neg (Ne.symm same), Option.map_map]
      rfl

omit [DecidableEq κ] in
/-- What stands behind an entry of a chain. -/
theorem tail_dropWhile {before rest : List (κ × ν)} {entry : κ × ν}
    (distinct : ((before ++ entry :: rest).map Prod.fst).Nodup) :
    ((before ++ entry :: rest).dropWhile fun other => !type.keyCompare entry.1 other.1).tail = rest := by
  induction before with
  | nil =>
    rw [List.nil_append, List.dropWhile_cons_of_neg (by simp [(compares _ _).mpr rfl]), List.tail_cons]
  | cons first before ih =>
    simp only [List.cons_append, List.map_cons, List.nodup_cons] at distinct
    have other : entry.1 ≠ first.1 := by
      intro same
      exact distinct.1 (List.mem_map.mpr ⟨entry, by simp, same⟩)
    have differ : type.keyCompare entry.1 first.1 = false :=
      Bool.eq_false_iff.mpr fun equal => other ((compares _ _).mp equal)
    rw [List.cons_append, List.dropWhile_cons_of_pos (by simp [differ]), ih distinct.2]

end

theorem nextPowerFrom_eq {power : ℕ} : ∀ {turns start : ℕ}, start ≤ power → power ≤ start + turns →
    nextPowerFrom (2 ^ power) turns (2 ^ start) = 2 ^ power := by
  intro turns
  induction turns with
  | zero =>
    intro start low high
    obtain rfl : start = power := by omega
    rfl
  | succ turns ih =>
    intro start low high
    rw [nextPowerFrom]
    rcases Nat.lt_or_eq_of_le low with below | rfl
    · rw [if_neg (Nat.not_le.mpr (Nat.pow_lt_pow_right (by omega) below)), ← pow_succ, ih below (by omega)]
    · rw [if_pos (le_refl _)]

/-- A power of two stays what it is. -/
theorem dictNextPower_eq {power : ℕ} (low : 2 ≤ power) (high : power ≤ 62) : dictNextPower (2 ^ power) = 2 ^ power := by
  have bound : 2 ^ power ≤ 2 ^ 62 := Nat.pow_le_pow_right (by omega) high
  rw [dictNextPower, if_neg (by omega)]
  exact nextPowerFrom_eq (by omega : 2 ≤ power) (by omega)

omit [DecidableEq κ] in
theorem dictHome_lt (type : DictType κ) {size : ℕ} (positive : 0 < size) (key : κ) : dictHome type size key < size :=
  Nat.lt_of_le_of_lt Nat.and_le_right (by omega)

/-- A table that stands for a map, with a power of two for its size. -/
structure Proper (type : DictType κ) (keys : Finset κ) (ht : Dict κ ν) : Prop where
  settled : Settled (dictHome type ht.size) ht.table
  used : ht.used = ht.table.flatten.length
  within : ∀ key ∈ ht.table.flatten.map Prod.fst, key ∈ keys
  size : ht.size = 0 ∨ ∃ power, 2 ≤ power ∧ power ≤ 30 ∧ ht.size = 2 ^ power
  room : ht.used ≤ ht.size

/-- The map that a dictionary stands for. -/
def contents (type : DictType κ) (ht : Dict κ ν) : Keyspace κ ν := held (dictHome type ht.size) ht.table

omit [DecidableEq κ] in
theorem proper_empty (type : DictType κ) (keys : Finset κ) : Proper type keys ({} : Dict κ ν) :=
  ⟨settled_replicate _ 0, rfl, by simp, .inl rfl, le_refl _⟩

section

variable {keys : Finset κ} {ht : Dict κ ν}

theorem Proper.used_le (proper : Proper type keys ht) : ht.used ≤ keys.card := by
  have distinct := proper.settled.distinct_flatten
  have inside : (ht.table.flatten.map Prod.fst).toFinset ⊆ keys := fun key member =>
    proper.within key (List.mem_toFinset.mp member)
  have count := Finset.card_le_card inside
  rwa [List.toFinset_card_of_nodup distinct, List.length_map, ← proper.used] at count

omit [DecidableEq κ] in
theorem Proper.size_le (proper : Proper type keys ht) : ht.size ≤ 1073741824 := by
  obtain empty | ⟨power, -, high, size⟩ := proper.size
  · omega
  · rw [size]
    exact Nat.pow_le_pow_right (by omega) high

theorem contents_eq_ofList (key : κ) : contents type ht key = Keyspace.ofList (ht.chain type key) key := rfl

/-- `dictFind` looks a key up. -/
theorem dictFind_eq (compares : Compares type) (key : κ) :
    ht.dictFind type key = (contents type ht key).map (key, ·) := by
  rw [Dict.dictFind, find_chain compares, ← contents_eq_ofList]
  split_ifs with empty
  · have nothing : ht.table = [] := List.eq_nil_of_length_eq_zero empty
    rw [contents, held, nothing]
    rfl
  · rfl

omit [DecidableEq κ] in
/-- The loop of `dictExpand` moves every entry. -/
theorem moveChains_eq (realsize : ℕ) (chains : List (List (κ × ν))) (table : Buckets κ ν) :
    Dict.moveChains type realsize chains chains.flatten.length table =
      (0, chains.flatten.foldl (pushFront (dictHome type realsize)) table) := by
  induction chains generalizing table with
  | nil => rfl
  | cons chain rest ih =>
    rw [Dict.moveChains]
    split_ifs with some
    · have behind : (chain :: rest).flatten.length - chain.length = rest.flatten.length := by simp
      rw [behind, ih, List.flatten_cons, List.foldl_append]
    · have none : (chain :: rest).flatten = [] := List.eq_nil_of_length_eq_zero (by omega)
      rw [none]
      rfl

/-- A larger table stands for the same map. -/
theorem dictExpand_spec (proper : Proper type keys ht) (power : ℕ) (low : 2 ≤ power) (high : power ≤ 30)
    (enough : ht.used ≤ 2 ^ power) :
    ∃ next, ht.dictExpand type (2 ^ power) = some (.ok, next) ∧ Proper type keys next ∧ next.size = 2 ^ power ∧
      next.used = ht.used ∧ contents type next = contents type ht := by
  have positive : 0 < 2 ^ power := Nat.two_pow_pos power
  have nothing : (List.replicate (2 ^ power) ([] : List (κ × ν))).flatten = [] := by simp
  have distinct : ((ht.table.flatten ++ (List.replicate (2 ^ power) ([] : List (κ × ν))).flatten).map
      Prod.fst).Nodup := by
    rw [nothing, List.append_nil]
    exact proper.settled.distinct_flatten
  obtain ⟨settled, perm, same⟩ := (settled_replicate (dictHome type (2 ^ power)) (2 ^ power)).fill
    (fun key => by rw [List.length_replicate]; exact dictHome_lt type positive key) distinct
  rw [nothing, List.append_nil] at perm
  rw [List.length_replicate] at same
  refine ⟨{ table := ht.table.flatten.foldl (pushFront (dictHome type (2 ^ power))) (List.replicate (2 ^ power) []),
            used := ht.used }, ?_, ?_, same, rfl, ?_⟩
  · rw [Dict.dictExpand, dictNextPower_eq low (by omega)]
    dsimp only
    rw [if_neg (by omega), proper.used, moveChains_eq]
    rfl
  · refine ⟨?_, proper.used.trans perm.length_eq.symm, fun key member => ?_, .inr ⟨power, low, high, same⟩, ?_⟩
    · rw [Dict.size, same]
      exact settled
    · exact proper.within key ((perm.map Prod.fst).mem_iff.mp member)
    · rw [Dict.size, same]
      exact enough
  · rw [contents, Dict.size, same]
    exact held_eq_of_perm settled proper.settled perm

/-- Room for one more entry. -/
theorem dictExpandIfNeeded_spec (proper : Proper type keys ht) (few : keys.card < 1073741824) :
    ∃ next, ht.dictExpandIfNeeded type = some (.ok, next) ∧ Proper type keys next ∧ 0 < next.size ∧
      next.used < next.size ∧ next.used = ht.used ∧ contents type next = contents type ht := by
  have count := proper.used_le
  have room := proper.room
  rw [Dict.dictExpandIfNeeded]
  obtain empty | ⟨power, low, high, size⟩ := proper.size
  · obtain ⟨next, expanded, proper', size, used, same⟩ :=
      dictExpand_spec proper 2 (by omega) (by omega) (by omega)
    refine ⟨next, ?_, proper', ?_, ?_, used, same⟩
    · rw [if_pos empty]
      exact expanded
    · omega
    · omega
  · have positive : 0 < 2 ^ power := Nat.two_pow_pos power
    rw [if_neg (by omega)]
    by_cases full : ht.used = ht.size
    · have below : power < 30 := by
        by_contra most
        obtain rfl : power = 30 := by omega
        omega
      obtain ⟨next, expanded, proper', size', used, same⟩ :=
        dictExpand_spec proper (power + 1) (by omega) (by omega) (by rw [pow_succ]; omega)
      rw [pow_succ] at size'
      refine ⟨next, ?_, proper', by omega, by omega, used, same⟩
      rw [if_pos full, size, ← pow_succ]
      exact expanded
    · rw [if_neg full]
      exact ⟨ht, rfl, proper, by omega, by omega, rfl, rfl⟩

/-- The index where a new key goes, and `-1` for a key that is there. -/
theorem dictKeyIndex_spec (compares : Compares type) (proper : Proper type keys ht)
    (few : keys.card < 1073741824) (key : κ) :
    ∃ next, Proper type keys next ∧ 0 < next.size ∧ next.used < next.size ∧ next.used = ht.used ∧
      contents type next = contents type ht ∧
      ht.dictKeyIndex type key =
        some (if (contents type ht key).isSome then (-1 : ℤ) else dictHome type next.size key, next) := by
  obtain ⟨next, expanded, proper', positive, room, used, same⟩ := dictExpandIfNeeded_spec proper few
  refine ⟨next, proper', positive, room, used, same, ?_⟩
  have bound := dictHome_lt type positive key
  have small := proper'.size_le
  rw [Dict.dictKeyIndex, expanded, Option.map_some]
  dsimp only
  rw [find_chain compares, ← contents_eq_ofList, same, Option.isSome_map, if_neg (by simp),
    ReplyStream.toInt_of_lt (by omega) (by omega)]
  split_ifs <;> rfl

omit [DecidableEq κ] in
/-- A change of the chain of one key, which leaves the other keys alone. -/
theorem proper_set (proper : Proper type keys ht) (positive : 0 < ht.size) {key : κ} {chain : List (κ × ν)} {used : ℕ}
    (known : ∀ entry ∈ chain, entry ∈ ht.chain type key ∨ entry.1 = key) (inside : key ∈ keys)
    (distinct : (chain.map Prod.fst).Nodup) (count : used + (ht.chain type key).length = ht.used + chain.length)
    (room : used ≤ ht.size) :
    Proper type keys ⟨ht.table.set (dictHome type ht.size key) chain, used⟩ := by
  have bound := dictHome_lt type positive key
  have here : ht.table[dictHome type ht.size key]? = some (ht.chain type key) := by
    rw [Dict.chain, List.getElem?_eq_getElem bound, Option.getD_some]
  have same : Dict.size ⟨ht.table.set (dictHome type ht.size key) chain, used⟩ = ht.size := List.length_set
  have lengths := length_flatten_set here chain
  refine ⟨?_, ?_, ?_, by rw [same]; exact proper.size, by rw [same]; exact room⟩
  · rw [same]
    refine proper.settled.set (fun entry member => ?_) distinct
    rcases known entry member with before | new
    · exact proper.settled.homed _ _ here entry before
    · rw [new]
  · have old := proper.used
    dsimp only
    omega
  · intro other member
    obtain ⟨entry, there, rfl⟩ := List.mem_map.mp member
    obtain ⟨found, place, entered⟩ := List.mem_flatten.mp there
    rcases List.mem_or_eq_of_mem_set place with before | rfl
    · exact proper.within _ (List.mem_map.mpr ⟨entry, List.mem_flatten.mpr ⟨found, before, entered⟩, rfl⟩)
    · rcases known entry entered with before | new
      · exact proper.within _ (List.mem_map.mpr ⟨entry,
          List.mem_flatten.mpr ⟨_, List.mem_of_getElem? here, before⟩, rfl⟩)
      · rwa [new]

theorem contents_set (positive : 0 < ht.size) {key : κ} {chain : List (κ × ν)} {used : ℕ} {entry : Option ν}
    (changed : Keyspace.ofList chain = Function.update (Keyspace.ofList (ht.chain type key)) key entry) :
    contents type ⟨ht.table.set (dictHome type ht.size key) chain, used⟩ =
      Function.update (contents type ht) key entry := by
  have same : Dict.size ⟨ht.table.set (dictHome type ht.size key) chain, used⟩ = ht.size := List.length_set
  rw [contents, same]
  exact held_set_of_update (dictHome_lt type positive key) changed

omit [DecidableEq κ] in
theorem chain_distinct (proper : Proper type keys ht) (key : κ) : ((ht.chain type key).map Prod.fst).Nodup := by
  rw [Dict.chain]
  cases here : ht.table[dictHome type ht.size key]? with
  | none => exact List.nodup_nil
  | some chain => exact proper.settled.distinct chain (List.mem_of_getElem? here)

variable (compares : Compares type) (few : keys.card < 1073741824)

include compares

section

include few

/-- `dictAdd` adds a key that is not there. -/
theorem dictAdd_spec (proper : Proper type keys ht) {key : κ} (inside : key ∈ keys) (val : ν) :
    ∃ next, Proper type keys next ∧ 0 < next.size ∧
      contents type next = (contents type ht).insert key val ∧
      ht.dictAdd type key val = some (if (contents type ht key).isSome then .err else .ok, next) := by
  obtain ⟨next, proper', positive, room, used, same, index⟩ := dictKeyIndex_spec compares proper few key
  have bound := dictHome_lt type positive key
  rw [Dict.dictAdd, index, Option.bind_some, Keyspace.insert]
  dsimp only
  cases there : contents type ht key with
  | some old =>
    rw [if_pos (by simp), if_pos (by simp)]
    exact ⟨next, proper', positive, same, rfl⟩
  | none =>
    have here : next.table[dictHome type next.size key]? = some (next.chain type key) := by
      rw [Dict.chain, List.getElem?_eq_getElem bound, Option.getD_some]
    have fresh : key ∉ (next.chain type key).map Prod.fst := by
      intro member
      rw [← same, contents, held_eq_none_iff proper'.settled] at there
      obtain ⟨entry, place, rfl⟩ := List.mem_map.mp member
      exact there (List.mem_map.mpr ⟨entry, List.mem_flatten.mpr ⟨_, List.mem_of_getElem? here, place⟩, rfl⟩)
    refine ⟨⟨next.table.set (dictHome type next.size key) ((key, val) :: next.chain type key),
      next.used + 1⟩, ?_, ?_, ?_, ?_⟩
    · refine proper_set proper' positive (fun entry member => ?_) inside ?_ ?_ room
      · rcases List.mem_cons.mp member with rfl | before
        · exact .inr rfl
        · exact .inl before
      · rw [List.map_cons, List.nodup_cons]
        exact ⟨fresh, chain_distinct proper' key⟩
      · rw [List.length_cons]
        omega
    · rw [Dict.size, List.length_set]
      exact positive
    · rw [if_neg (by simp), ← same, Keyspace.put]
      exact contents_set positive (ofList_front key val _)
    · have absent : ¬(none : Option ν).isSome = true := by simp
      rw [if_neg absent, if_neg absent, if_neg (by omega), if_pos (by omega), Int.toNat_natCast, here]
      rfl

omit few in
/-- A store into an entry puts a value under its key. -/
theorem setEntry_spec (proper : Proper type keys ht) (positive : 0 < ht.size) {key : κ}
    (there : (contents type ht key).isSome) (inside : key ∈ keys) (val : ν) :
    Proper type keys (ht.setEntry type key val) ∧
      contents type (ht.setEntry type key val) = (contents type ht).put key val := by
  rw [contents_eq_ofList] at there
  rw [Dict.setEntry, setVal_eq compares, Keyspace.put]
  refine ⟨proper_set proper positive (fun entry member => ?_) inside ?_ ?_ proper.room,
    contents_set positive (ofList_assign there val)⟩
  · obtain ⟨other, old⟩ := entry
    by_cases new : other = key
    · exact .inr new
    · left
      have apart : ((assign key val (ht.chain type key)).map Prod.fst).Nodup := by
        rw [keys_assign]
        exact chain_distinct proper key
      have value := (Keyspace.ofList_eq_some_iff apart).mpr member
      rw [ofList_assign there, Function.update_of_ne new] at value
      exact Keyspace.mem_of_ofList value
  · rw [keys_assign]
    exact chain_distinct proper key
  · have count := congrArg List.length (keys_assign key val (ht.chain type key))
    simp only [List.length_map] at count
    omega

/-- `dictReplace` puts a value under a key. -/
theorem dictReplace_spec (proper : Proper type keys ht) {key : κ} (inside : key ∈ keys) (val : ν) :
    ∃ next, Proper type keys next ∧ contents type next = (contents type ht).put key val ∧
      ht.dictReplace type key val = some ((contents type ht key).isNone, next) := by
  obtain ⟨next, proper', positive, same, added⟩ := dictAdd_spec compares few proper inside val
  rw [Dict.dictReplace, added, Option.bind_some]
  rw [Keyspace.insert] at same
  cases there : contents type ht key with
  | none =>
    rw [there, if_neg (by simp)] at same
    exact ⟨next, proper', same, rfl⟩
  | some old =>
    rw [there, if_pos (by simp)] at same
    have found : contents type next key = some old := by rw [same, there]
    obtain ⟨proper'', stored⟩ := setEntry_spec compares proper' positive (by rw [found]; rfl) inside val
    rw [same] at stored
    refine ⟨next.setEntry type key val, proper'', stored, ?_⟩
    dsimp only
    rw [if_pos Option.isSome_some, if_neg (by simp), dictFind_eq compares, found]
    rfl

end

/-- `dictDelete` takes a key out. -/
theorem dictDelete_spec (proper : Proper type keys ht) (key : κ) :
    Proper type keys (ht.dictDelete type key).2 ∧
      contents type (ht.dictDelete type key).2 = (contents type ht).erase key ∧
      (ht.dictDelete type key).1 = if (contents type ht key).isSome then .ok else .err := by
  have nothing : contents type ht key = none → (contents type ht).erase key = contents type ht := Keyspace.erase_of_none
  rw [Dict.dictDelete]
  by_cases empty : ht.size = 0
  · have none : contents type ht key = none := by
      rw [contents, held, List.eq_nil_of_length_eq_zero (l := ht.table) empty]
      rfl
    rw [if_pos empty, nothing none, none]
    exact ⟨proper, rfl, rfl⟩
  · have positive : 0 < ht.size := by omega
    rw [if_neg empty, unlink_eq compares, ← contents_eq_ofList]
    cases there : contents type ht key with
    | none =>
      rw [nothing there]
      exact ⟨proper, rfl, rfl⟩
    | some old =>
      have found : (Keyspace.ofList (ht.chain type key) key).isSome := by
        rw [← contents_eq_ofList, there]
        rfl
      have shorter := length_remove found
      have inside : key ∈ keys := by
        refine proper.within key (List.mem_map.mpr ⟨(key, old), ?_, rfl⟩)
        exact (held_eq_some_iff proper.settled).mp there
      have place : ht.table[dictHome type ht.size key]? = some (ht.chain type key) := by
        rw [Dict.chain, List.getElem?_eq_getElem (dictHome_lt type positive key), Option.getD_some]
      have total := length_flatten_set place []
      have used := proper.used
      have room := proper.room
      rw [List.length_nil] at total
      refine ⟨?_, contents_set positive (ofList_remove (chain_distinct proper key)), rfl⟩
      refine proper_set proper positive (fun entry member => ?_) inside ?_ ?_ ?_
      · exact .inl ((remove_sublist key _).subset member)
      · exact ((remove_sublist key _).map Prod.fst).nodup (chain_distinct proper key)
      · dsimp only
        omega
      · omega

end

/-- What a program does with a dictionary. -/
inductive Operation (κ ν : Type) where
  | add (key : κ) (val : ν)
  | replace (key : κ) (val : ν)
  | delete (key : κ)
  | find (key : κ)

/-- What it is told. -/
inductive Answer (κ ν : Type) where
  | added (status : Status)
  | replaced (new : Bool)
  | deleted (status : Status)
  | found (entry : Option (κ × ν))
deriving DecidableEq

def Operation.key : Operation κ ν → κ
  | .add key _ | .replace key _ | .delete key | .find key => key

/-- An operation of the code. -/
def perform (type : DictType κ) (ht : Dict κ ν) : Operation κ ν → Option (Answer κ ν × Dict κ ν)
  | .add key val => (ht.dictAdd type key val).map fun (status, ht) => (.added status, ht)
  | .replace key val => (ht.dictReplace type key val).map fun (new, ht) => (.replaced new, ht)
  | .delete key => some (.deleted (ht.dictDelete type key).1, (ht.dictDelete type key).2)
  | .find key => some (.found (ht.dictFind type key), ht)

/-- An operation on a map. -/
def meaning (store : Keyspace κ ν) : Operation κ ν → Answer κ ν × Keyspace κ ν
  | .add key val => (.added (if (store key).isSome then .err else .ok), store.insert key val)
  | .replace key val => (.replaced (store key).isNone, store.put key val)
  | .delete key => (.deleted (if (store key).isSome then .ok else .err), store.erase key)
  | .find key => (.found ((store key).map (key, ·)), store)

def performAll (type : DictType κ) : List (Operation κ ν) → Dict κ ν → Option (List (Answer κ ν) × Dict κ ν)
  | [], ht => some ([], ht)
  | operation :: operations, ht =>
      (perform type ht operation).bind fun (answer, ht) =>
        (performAll type operations ht).map fun (answers, ht) => (answer :: answers, ht)

def meaningAll : List (Operation κ ν) → Keyspace κ ν → List (Answer κ ν) × Keyspace κ ν
  | [], store => ([], store)
  | operation :: operations, store =>
      let (answer, store) := meaning store operation
      let (answers, store) := meaningAll operations store
      (answer :: answers, store)

/-- The keys that operations are about. -/
def keysOf (operations : List (Operation κ ν)) : Finset κ := (operations.map Operation.key).toFinset

theorem contents_empty : contents type ({} : Dict κ ν) = fun _ => none := rfl

section

variable {keys : Finset κ} (compares : Compares type) (few : keys.card < 1073741824)

include compares few

theorem perform_spec {ht : Dict κ ν} (proper : Proper type keys ht) {operation : Operation κ ν}
    (inside : operation.key ∈ keys) :
    ∃ next, Proper type keys next ∧ contents type next = (meaning (contents type ht) operation).2 ∧
      perform type ht operation = some ((meaning (contents type ht) operation).1, next) := by
  cases operation with
  | add key val =>
    have inside : key ∈ keys := inside
    obtain ⟨next, proper', -, same, added⟩ := dictAdd_spec compares few proper inside val
    exact ⟨next, proper', same, by rw [perform, added]; rfl⟩
  | replace key val =>
    have inside : key ∈ keys := inside
    obtain ⟨next, proper', same, replaced⟩ := dictReplace_spec compares few proper inside val
    exact ⟨next, proper', same, by rw [perform, replaced]; rfl⟩
  | delete key =>
    obtain ⟨proper', same, status⟩ := dictDelete_spec compares proper key
    exact ⟨_, proper', same, by rw [perform, status]; rfl⟩
  | find key => exact ⟨ht, proper, rfl, by rw [perform, dictFind_eq compares]; rfl⟩

theorem performAll_spec {operations : List (Operation κ ν)} {ht : Dict κ ν} (proper : Proper type keys ht)
    (inside : ∀ operation ∈ operations, operation.key ∈ keys) :
    ∃ next, Proper type keys next ∧ contents type next = (meaningAll operations (contents type ht)).2 ∧
      performAll type operations ht = some ((meaningAll operations (contents type ht)).1, next) := by
  induction operations generalizing ht with
  | nil => exact ⟨ht, proper, rfl, rfl⟩
  | cons operation operations ih =>
    obtain ⟨middle, proper', same, first⟩ := perform_spec compares few proper (inside operation List.mem_cons_self)
    obtain ⟨next, proper'', same', rest⟩ := ih proper' fun other member => inside other (List.mem_cons_of_mem _ member)
    rw [same] at same' rest
    refine ⟨next, proper'', same', ?_⟩
    rw [performAll, first, Option.bind_some]
    dsimp only
    rw [rest]
    rfl

end

omit [DecidableEq κ] in
theorem mem_keysOf [DecidableEq κ] {operations : List (Operation κ ν)} :
    ∀ operation ∈ operations, operation.key ∈ keysOf operations := fun _ member =>
  List.mem_toFinset.mpr (List.mem_map_of_mem member)

/-- The count of a dictionary is the number of its keys. -/
theorem Proper.used_eq {keys : Finset κ} {ht : Dict κ ν} (proper : Proper type keys ht) :
    ht.used = (keys.filter fun key => (contents type ht key).isSome).card := by
  have distinct := proper.settled.distinct_flatten
  have same : keys.filter (fun key => (contents type ht key).isSome) = (ht.table.flatten.map Prod.fst).toFinset := by
    ext key
    rw [Finset.mem_filter, List.mem_toFinset, ← not_iff_not]
    have absent : contents type ht key = none ↔ _ := held_eq_none_iff proper.settled
    rw [← absent, not_and]
    constructor
    · intro missing
      by_contra there
      have found := Option.isSome_iff_ne_none.mpr there
      refine missing (proper.within key ?_) found
      by_contra outside
      exact there (absent.mpr outside)
    · intro nothing _ found
      rw [nothing] at found
      cases found
  rw [same, List.toFinset_card_of_nodup distinct, List.length_map, proper.used]

/-- From an empty dictionary, operations answer as on a map, and the dictionary counts the keys. -/
theorem dictionaries_exact (compares : Compares type) {operations : List (Operation κ ν)}
    (few : (keysOf operations).card < 1073741824) :
    ∃ ht, performAll type operations {} = some ((meaningAll operations fun _ => none).1, ht) ∧
      (∀ key, ht.dictFind type key = ((meaningAll operations fun _ => none).2 key).map (key, ·)) ∧
      ht.used = ((keysOf operations).filter fun key => ((meaningAll operations fun _ => none).2 key).isSome).card := by
  obtain ⟨ht, proper, same, ran⟩ :=
    performAll_spec compares few (proper_empty type (keysOf operations)) mem_keysOf
  refine ⟨ht, ran, fun key => ?_, ?_⟩
  · rw [dictFind_eq compares, same]
    rfl
  · rw [proper.used_eq, same]
    rfl

/-- What an iterator is still to come to. -/
inductive Upcoming (ht : Dict κ ν) (iter : DictIterator κ) : List (κ × ν) → Prop
  | slot (index : ℕ) (bound : index ≤ ht.size) (before : iter.entry = none) (here : iter.index = (index : ℤ) - 1) :
      Upcoming ht iter (ht.table.drop index).flatten
  | inside (index : ℕ) (done rest : List (κ × ν)) (behind : iter.entry.isSome) (here : iter.index = index)
      (next : iter.nextEntry = rest.head?.map Prod.fst) (chain : ht.table[index]? = some (done ++ rest)) :
      Upcoming ht iter (rest ++ (ht.table.drop (index + 1)).flatten)

/-- Where an iterator is when it has come to an entry. -/
structure Reached (ht : Dict κ ν) (iter : DictIterator κ) (entry : κ × ν) (later : List (κ × ν)) : Prop where
  place : ∃ index done rest, iter.index = (index : ℕ) ∧ iter.nextEntry = rest.head?.map Prod.fst ∧
    ht.table[index]? = some (done ++ entry :: rest) ∧ later = rest ++ (ht.table.drop (index + 1)).flatten
  behind : iter.entry.isSome

/-- The next entry of those that are ahead, or the end. -/
def Comes (ht : Dict κ ν) (entry : Option (κ × ν)) (iter : DictIterator κ) : List (κ × ν) → Prop
  | [] => entry = none
  | first :: later => entry = some first ∧ Reached ht iter first later

section

variable {keys : Finset κ} {ht : Dict κ ν} (compares : Compares type) (proper : Proper type keys ht)

include compares proper

/-- The entry that a position in a chain is about. -/
theorem position_spec {index : ℕ} {done rest : List (κ × ν)} {entry : κ × ν}
    (place : ht.table[index]? = some (done ++ entry :: rest)) :
    ht.next type entry.1 = rest.head?.map Prod.fst ∧ ht.dictFind type entry.1 = some entry := by
  have home : dictHome type ht.size entry.1 = index := proper.settled.homed index _ place entry (by simp)
  have chain : ht.chain type entry.1 = done ++ entry :: rest := by rw [Dict.chain, home, place, Option.getD_some]
  have distinct := chain_distinct proper entry.1
  constructor
  · rw [chain] at distinct
    rw [Dict.next, chain, tail_dropWhile compares distinct]
  · have member : (entry.1, entry.2) ∈ ht.chain type entry.1 := by
      rw [chain]
      simp
    rw [dictFind_eq compares, contents_eq_ofList, (Keyspace.ofList_eq_some_iff distinct).mpr member]
    rfl

/-- From before a chain, an iterator comes to the next entry there is. -/
theorem dictNext_slot (turns : ℕ) {index : ℕ} {iter : DictIterator κ} (bound : index ≤ ht.size)
    (before : iter.entry = none)
    (here : iter.index = (index : ℤ) - 1) (enough : ht.size < index + turns) :
    ∃ entry next, ht.dictNextWithin type turns iter = some (entry, next) ∧
      Comes ht entry next (ht.table.drop index).flatten := by
  have small := proper.size_le
  have size : toInt ht.size = ht.size := ReplyStream.toInt_of_lt (by omega) (by omega)
  induction turns generalizing index iter with
  | zero => omega
  | succ turns ih =>
    have step : iter.index + 1 = index := by omega
    rw [Dict.dictNextWithin, before]
    dsimp only
    rw [size, step]
    obtain inside | past := Nat.lt_or_ge index ht.size
    · have place : ht.table[index]? = some ht.table[index] := List.getElem?_eq_getElem inside
      rw [if_neg (by omega), Int.toNat_natCast, place, Option.getD_some, List.drop_eq_getElem_cons inside,
        List.flatten_cons]
      cases chain : ht.table[index] with
      | nil => exact ih inside rfl (by dsimp only; omega) (by omega)
      | cons first rest =>
        rw [chain] at place
        have front : ht.table[index]? = some ([] ++ first :: rest) := place
        have position := position_spec compares proper front
        exact ⟨some first, _, rfl, rfl, ⟨index, [], rest, rfl, position.1, place, rfl⟩, rfl⟩
    · rw [if_pos (by omega), List.drop_eq_nil_of_le past]
      exact ⟨none, _, rfl, rfl⟩

/-- An iterator comes to the next entry there is. -/
theorem dictNext_spec {iter : DictIterator κ} {upcoming : List (κ × ν)} (stands : Upcoming ht iter upcoming) :
    ∃ entry next, ht.dictNext type iter = some (entry, next) ∧ Comes ht entry next upcoming := by
  cases stands with
  | slot index bound before here => exact dictNext_slot compares proper (ht.size + 2) bound before here (by omega)
  | inside index done rest behind here next chain =>
    obtain ⟨last, present⟩ := Option.isSome_iff_exists.mp behind
    have inside : index < ht.size := (List.getElem?_eq_some_iff.mp chain).1
    rw [Dict.dictNext, Dict.dictNextWithin, present, next]
    cases rest with
    | nil =>
      rw [List.head?_nil, Option.map_none]
      dsimp only
      refine dictNext_slot compares proper (ht.size + 1) inside rfl ?_ (by omega)
      dsimp only
      omega
    | cons first rest =>
      have position := position_spec compares proper chain
      dsimp only [List.head?_cons, Option.map_some]
      rw [position.2, Option.map_some, position.1]
      exact ⟨some first, _, rfl, rfl, ⟨index, done, rest, here, rfl, chain, rfl⟩, rfl⟩

omit compares proper [DecidableEq κ] in
/-- An iterator that has come to an entry goes on behind it. -/
theorem Reached.goes_on {iter : DictIterator κ} {entry : κ × ν} {later : List (κ × ν)}
    (reached : Reached ht iter entry later) :
    Upcoming ht iter later := by
  obtain ⟨⟨index, done, rest, here, next, chain, rfl⟩, behind⟩ := reached
  exact .inside index (done ++ [entry]) rest behind here next (by rw [chain]; simp)

omit compares proper [DecidableEq κ] in
theorem remove_middle [DecidableEq κ] {done rest : List (κ × ν)} {entry : κ × ν}
    (distinct : ((done ++ entry :: rest).map Prod.fst).Nodup) :
    remove entry.1 (done ++ entry :: rest) = done ++ rest := by
  induction done with
  | nil => rw [List.nil_append, remove, if_pos rfl, List.nil_append]
  | cons first done ih =>
    simp only [List.cons_append, List.map_cons, List.nodup_cons] at distinct
    have other : entry.1 ≠ first.1 := fun same => distinct.1 (List.mem_map.mpr ⟨entry, by simp, same⟩)
    rw [List.cons_append, remove, if_neg other, ih distinct.2, List.cons_append]

/-- It goes on also when the entry was deleted. -/
theorem Reached.goes_on_deleted {iter : DictIterator κ} {entry : κ × ν} {later : List (κ × ν)}
    (reached : Reached ht iter entry later) : Upcoming (ht.dictDelete type entry.1).2 iter later := by
  obtain ⟨⟨index, done, rest, here, next, place, rfl⟩, behind⟩ := reached
  have home : dictHome type ht.size entry.1 = index := proper.settled.homed index _ place entry (by simp)
  have chain : ht.chain type entry.1 = done ++ entry :: rest := by rw [Dict.chain, home, place, Option.getD_some]
  have distinct := chain_distinct proper entry.1
  obtain ⟨bound, -⟩ := List.getElem?_eq_some_iff.mp place
  have filled : ¬ht.size = 0 := by
    have inside : index < ht.size := bound
    omega
  have found : Keyspace.ofList (ht.chain type entry.1) entry.1 = some entry.2 :=
    (Keyspace.ofList_eq_some_iff distinct).mpr (by rw [chain]; simp)
  have deleted : (ht.dictDelete type entry.1).2 =
      { table := ht.table.set index (done ++ rest), used := ht.used - 1 } := by
    rw [Dict.dictDelete, if_neg filled, unlink_eq compares, found, Option.map_some, home]
    rw [chain] at distinct ⊢
    rw [remove_middle distinct]
  have same : (ht.table.set index (done ++ rest)).drop (index + 1) = ht.table.drop (index + 1) :=
    List.drop_set_of_lt (Nat.lt_succ_self index)
  rw [deleted, ← same]
  exact .inside index done rest behind here next (List.getElem?_set_self bound)

/-- A loop over a dictionary that deletes some of the entries that it comes to. -/
def sweep (type : DictType κ) (doomed : κ × ν → Bool) : ℕ → DictIterator κ → Dict κ ν → Option (List (κ × ν) × Dict κ ν)
  | 0, _, _ => none
  | turns + 1, iter, ht =>
      (ht.dictNext type iter).bind fun (entry, iter) =>
        match entry with
        | none => some ([], ht)
        | some entry =>
            (sweep type doomed turns iter (if doomed entry then (ht.dictDelete type entry.1).2 else ht)).map
                fun (visited, ht) =>
              (entry :: visited, ht)

/-- The loop comes to what is ahead, and leaves what is not doomed. -/
theorem sweep_spec (doomed : κ × ν → Bool) (turns : ℕ) {iter : DictIterator κ} {upcoming : List (κ × ν)}
    (stands : Upcoming ht iter upcoming) (enough : upcoming.length < turns) :
    ∃ last, sweep type doomed turns iter ht = some (upcoming, last) ∧ Proper type keys last ∧
      contents type last = (upcoming.filter doomed).foldl (fun store entry => store.erase entry.1)
        (contents type ht) := by
  induction turns generalizing ht iter upcoming with
  | zero => omega
  | succ turns ih =>
    obtain ⟨entry, next, ran, outcome⟩ := dictNext_spec compares proper stands
    rw [sweep, ran, Option.bind_some]
    cases upcoming with
    | nil =>
      obtain rfl : entry = none := outcome
      exact ⟨ht, rfl, proper, rfl⟩
    | cons first later =>
      obtain ⟨rfl, reached⟩ := outcome
      have shorter : later.length < turns := by simpa using enough
      dsimp only
      by_cases gone : doomed first = true
      · obtain ⟨proper', erased, -⟩ := dictDelete_spec compares proper first.1
        obtain ⟨last, swept, proper'', same⟩ := ih proper' (reached.goes_on_deleted compares proper) shorter
        rw [if_pos gone, swept, List.filter_cons_of_pos gone, List.foldl_cons, ← erased]
        exact ⟨last, rfl, proper'', same⟩
      · obtain ⟨last, swept, proper'', same⟩ := ih proper reached.goes_on shorter
        rw [if_neg gone, swept, List.filter_cons_of_neg gone]
        exact ⟨last, rfl, proper'', same⟩

end

theorem foldl_erase (entries : List (κ × ν)) (store : Keyspace κ ν) (key : κ) :
    entries.foldl (fun store entry => store.erase entry.1) store key =
      if key ∈ entries.map Prod.fst then none else store key := by
  induction entries generalizing store with
  | nil => rfl
  | cons entry entries ih =>
    rw [List.foldl_cons, ih, List.map_cons]
    by_cases same : key = entry.1
    · subst same
      rw [Keyspace.erase_self]
      split_ifs <;> simp_all
    · rw [Keyspace.erase_of_ne same]
      exact if_congr (by simp [same]) rfl rfl

/-- A walk over a dictionary comes to every entry once, and the entries that were not deleted on the way stay. -/
theorem walks_exact (compares : Compares type) {operations : List (Operation κ ν)}
    (few : (keysOf operations).card < 1073741824) (doomed : κ × ν → Bool) :
    ∃ answers ht visited last, performAll type operations {} = some (answers, ht) ∧
      sweep type doomed (ht.used + 1) {} ht = some (visited, last) ∧ (visited.map Prod.fst).Nodup ∧
      (∀ key val, (key, val) ∈ visited ↔ (meaningAll operations fun _ => none).2 key = some val) ∧
      ∀ key, last.dictFind type key =
        (((meaningAll operations fun _ => none).2 key).filter fun val => !doomed (key, val)).map (key, ·) := by
  obtain ⟨ht, proper, same, ran⟩ :=
    performAll_spec compares few (proper_empty type (keysOf operations)) mem_keysOf
  rw [contents_empty] at same
  have start : Upcoming ht {} ht.table.flatten := .slot 0 (Nat.zero_le _) rfl rfl
  obtain ⟨last, swept, -, left⟩ :=
    sweep_spec compares proper doomed (ht.used + 1) start (by rw [proper.used]; exact Nat.lt_succ_self _)
  have all : ∀ key val, (key, val) ∈ ht.table.flatten ↔ (meaningAll operations fun _ => none).2 key = some val := by
    intro key val
    rw [← same, contents, held_eq_some_iff proper.settled]
  refine ⟨_, ht, ht.table.flatten, last, ran, swept, proper.settled.distinct_flatten, all, fun key => ?_⟩
  rw [dictFind_eq compares, left, foldl_erase, same]
  refine congrArg (Option.map (key, ·)) ?_
  cases found : (meaningAll operations fun _ => none).2 key with
  | none => simp
  | some val =>
    have only : key ∈ (ht.table.flatten.filter doomed).map Prod.fst ↔ doomed (key, val) = true := by
      constructor
      · intro member
        obtain ⟨⟨_, other⟩, there, rfl⟩ := List.mem_map.mp member
        obtain ⟨inside, gone⟩ := List.mem_filter.mp there
        have equal := (all _ _).mp inside
        rw [found] at equal
        cases equal
        exact gone
      · exact fun gone => List.mem_map.mpr ⟨_, List.mem_filter.mpr ⟨(all key val).mpr found, gone⟩, rfl⟩
    rw [if_congr only rfl rfl, Option.filter_some]
    cases doomed (key, val) <;> rfl

/-- Bytes that all have one hash. -/
def colliding : DictType UInt8 := ⟨fun _ => 7, fun key other => key == other⟩

theorem colliding_compares : Compares colliding := fun _ _ => beq_iff_eq

/-- Five keys, one more than the first table has chains. -/
def fiveKeys : List (Operation UInt8 ℕ) :=
  [.add 1 10, .add 2 20, .add 3 30, .replace 2 21, .add 4 40, .add 5 50, .delete 3, .add 1 11, .find 2]

theorem dictionaries_exact_five :
    ∃ ht, performAll colliding fiveKeys {} = some ((meaningAll fiveKeys fun _ => none).1, ht) ∧
      (∀ key, ht.dictFind colliding key = ((meaningAll fiveKeys fun _ => none).2 key).map (key, ·)) ∧
      ht.used = ((keysOf fiveKeys).filter fun key => ((meaningAll fiveKeys fun _ => none).2 key).isSome).card :=
  dictionaries_exact colliding_compares (by decide +kernel)

theorem walks_exact_five :
    ∃ answers ht visited last, performAll colliding fiveKeys {} = some (answers, ht) ∧
      sweep colliding (fun entry => entry.2 < 30) (ht.used + 1) {} ht = some (visited, last) ∧
        (visited.map Prod.fst).Nodup ∧
      (∀ key val, (key, val) ∈ visited ↔ (meaningAll fiveKeys fun _ => none).2 key = some val) ∧
      ∀ key, last.dictFind colliding key =
        (((meaningAll fiveKeys fun _ => none).2 key).filter fun val => !decide (val < 30)).map (key, ·) :=
  walks_exact colliding_compares (by decide +kernel) _

end CppRedis.Soundness.Dictionaries
