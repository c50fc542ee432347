import CppRedis.Model.RedisClient.Collections
import CppRedis.Model.RedisCpp.Collections

/-! # Replies that are decoded

`FetchStringArray` and `FetchMap` invert the encoding of a list of strings and of a map, whatever their output held
before. `FetchIntegerArray` asks for the wrong type and takes no array.
-/

namespace CppRedis.Soundness.Decoding

open Machine Model.RedisClient Model.RedisCpp

theorem fetchStrings_strings (values : List CppString) : fetchStrings (values.map .string) = (.success, values) := by
  induction values with
  | nil => rfl
  | cons value values ih =>
    rw [List.map_cons, fetchStrings, ih]
    rfl

theorem fetchPairs_pairs (pairs : List (CppString × CppString)) (mapFv : ValueMap) :
    fetchPairs mapFv (pairs.flatMap fun pair => [.string pair.1, .string pair.2]) =
      (.success, Keyspace.insertAll mapFv pairs) := by
  induction pairs generalizing mapFv with
  | nil => rfl
  | cons pair pairs ih => exact ih (mapFv.insert pair.1 pair.2)

theorem length_flatMap_pairs (pairs : List (CppString × CppString)) :
    (pairs.flatMap fun pair => [RedisReply.string pair.1, RedisReply.string pair.2]).length = 2 * pairs.length := by
  simp only [List.length_flatMap, List.length_cons, List.length_nil, List.map_const', List.sum_replicate_nat]
  omega

theorem fetchMap_pairsReply (pairs : List (CppString × CppString)) :
    fetchMap (pairsReply pairs) = (.success, some (Keyspace.ofList pairs)) := by
  have even : (pairs.flatMap fun pair => [RedisReply.string pair.1, RedisReply.string pair.2]).length % 2 = 0 := by
    rw [length_flatMap_pairs, Nat.mul_mod_right]
  rw [pairsReply, fetchMap, if_neg (not_not.mpr even), fetchPairs_pairs, Keyspace.insertAll_empty]

/-- A value that is encoded in an array, and what the output holds before. -/
inductive Datum where
  | integers (values before : List ℤ)
  | strings (values before : List CppString)
  | map (pairs : List (CppString × CppString)) (distinct : (pairs.map Prod.fst).Nodup) (before : ValueMap)

/-- The function reports success, and the output is as it should be then. -/
def Fetched {α : Type} (funcFetch : Fetch α) (reply : RedisReply) (before : α) (proper : α → Prop) : Prop :=
  (funcFetch reply).1 = .success ∧ proper ((funcFetch reply).2.getD before)

def Datum.Decoded : Datum → Prop
  | .integers values before => Fetched fetchIntegerArray (.array (values.map .integer)) before (· = values)
  | .strings values before => Fetched fetchStringArray (.array (values.map .string)) before (· = values)
  | .map pairs _ before =>
      Fetched fetchMap (pairsReply pairs) before fun mapFv => ∀ field value, mapFv field = some value ↔
        (field, value) ∈ pairs

/-- Lists of strings and maps are decoded, and no list of integers is. -/
theorem decoded_iff (datum : Datum) : datum.Decoded ↔ ∀ values before, datum ≠ .integers values before := by
  cases datum with
  | integers values before =>
    refine iff_of_false (fun decoded => ?_) fun other => other values before rfl
    cases decoded.1
  | strings values before =>
    refine iff_of_true ?_ nofun
    rw [Datum.Decoded, Fetched, fetchStringArray, fetchStrings_strings]
    exact ⟨rfl, rfl⟩
  | map pairs distinct before =>
    refine iff_of_true ?_ nofun
    rw [Datum.Decoded, Fetched, fetchMap_pairsReply]
    exact ⟨rfl, fun field value => Keyspace.ofList_eq_some_iff distinct⟩

/-- A list with one integer. -/
theorem integers_undecoded : ¬ (Datum.integers [1] []).Decoded := by
  rintro ⟨code, -⟩
  cases code

end CppRedis.Soundness.Decoding
