import CppRedis.Model.Redis.Server
import Mathlib.Data.Nat.Digits.Defs

/-! # The stores of a cluster

A node answers for its keys as one server with all keys would, and the numbers that the client writes are
read as they were.
-/

namespace CppRedis.Soundness.Stores

open Machine Model.RedisClient Model.RedisCpp Model.Redis

/-- The byte of a decimal digit. -/
def digitByte (digit : Char) : UInt8 := digit.toNat.toUInt8

theorem digitByte_digitChar : ∀ digit < 10, isDigit (digitByte (Nat.digitChar digit)) = true ∧
    (digitByte (Nat.digitChar digit)).toNat - 48 = digit := by decide

theorem digitsValue_append (digits : CppString) (digit : UInt8) :
    digitsValue (digits ++ [digit]) = 10 * digitsValue digits + (digit.toNat - 48) := by
  rw [digitsValue, List.foldl_append]
  rfl

/-- The digits of a number have its value. -/
theorem toDigits_spec (value : ℕ) :
    digitsValue ((Nat.toDigits 10 value).map digitByte) = value ∧
      ∀ digit ∈ (Nat.toDigits 10 value).map digitByte, isDigit digit = true := by
  induction value using Nat.strongRecOn with
  | ind value ih =>
    by_cases small : value < 10
    · obtain ⟨isDigit, same⟩ := digitByte_digitChar value small
      rw [Nat.toDigits_of_lt_base small]
      refine ⟨?_, fun digit member => ?_⟩
      · rw [List.map_singleton, ← List.nil_append [_], digitsValue_append, same]
        exact Nat.zero_add value
      · rw [List.map_singleton, List.mem_singleton] at member
        rwa [member]
    · obtain ⟨isDigit, same⟩ := digitByte_digitChar (value % 10) (Nat.mod_lt _ (by decide))
      obtain ⟨high, digits⟩ := ih (value / 10) (by omega)
      rw [Nat.toDigits_of_base_le (by decide) (not_lt.mp small), List.map_append, List.map_singleton]
      refine ⟨?_, fun digit member => ?_⟩
      · rw [digitsValue_append, high, same]
        omega
      · rcases List.mem_append.mp member with early | last
        · exact digits digit early
        · rwa [List.mem_singleton.mp last]

theorem parseNatural_toDigits (value : ℕ) : parseNatural ((Nat.toDigits 10 value).map digitByte) = some value := by
  obtain ⟨same, digits⟩ := toDigits_spec value
  have nonempty : (Nat.toDigits 10 value).map digitByte ≠ [] := fun empty =>
    Nat.toDigits_ne_nil (List.map_eq_nil_iff.mp empty)
  rw [parseNatural, if_pos ⟨nonempty, digits⟩, same]

/-- What `ConvertToString` writes is read as it was. -/
theorem parseInteger_convertToString {value : ℤ} (low : -9223372036854775808 ≤ value)
    (high : value < 9223372036854775808) : parseInteger (convertToString value) = some value := by
  have natural := parseNatural_toDigits value.natAbs
  have digits := (toDigits_spec value.natAbs).2
  have written : convertToString value =
      (if value < 0 then text "-" else []) ++ (Nat.toDigits 10 value.natAbs).map digitByte := rfl
  have kept : (some value).filter (fun value => decide (-9223372036854775808 ≤ value ∧ value < 9223372036854775808)) =
      some value := by simp only [Option.filter_some, low, high, and_self, decide_true, ↓reduceIte]
  rw [written]
  by_cases negative : value < 0
  · have sign : (text "-" : CppString) = [45] := rfl
    have absolute : -(value.natAbs : ℤ) = value := by omega
    rw [if_pos negative, sign, List.singleton_append, parseInteger]
    simp only [List.head?_cons, List.tail_cons, ↓reduceIte, natural, Option.map_some, absolute]
    exact kept
  · have absolute : (value.natAbs : ℤ) = value := by omega
    have notSign : ((Nat.toDigits 10 value.natAbs).map digitByte).head? ≠ some 45 := by
      intro sign
      exact absurd (digits 45 (List.mem_of_head? sign)) (by decide)
    rw [if_neg negative, List.nil_append, parseInteger]
    simp only [notSign, ↓reduceIte, natural, Option.map_some, absolute]
    exact kept

variable {o : Type} (format : Format o) {owner : ℕ → CppString × ℤ}

theorem serveNode_of_parse {words : List CppString} {request : Request} (parsed : parse words = some request)
    (stores : Stores owner o) {node : CppString × ℤ} (slot : oneSlot request.keys = true)
    (owned : ∀ key ∈ request.keys, nodeOf owner key = node) :
    (serveNode format stores node words).1 = (execute format request stores.union).1 ∧
      (serveNode format stores node words).2.union = (execute format request stores.union).2 := by
  have served : serveNode format stores node words =
      stores.run node (execute format request) (Shards.placed_of_local (execute_local format request) owned) := by
    rw [serveNode, parsed]
    dsimp only
    rw [slot, Bool.not_true, if_neg Bool.false_ne_true, dif_pos owned]
  rw [served]
  exact ⟨Shards.run_fst (execute_local format request) stores owned _,
    Shards.run_union (execute_local format request) stores owned _⟩

/-- A command for one key, at the node of the key. -/
theorem serveNode_on {words : List CppString} {key : CppString} {command : KeyCommand}
    (parsed : parse words = some (.on key command)) (stores : Stores owner o) :
    (serveNode format stores (nodeOf owner key) words).1 = (command.act format (stores.union key)).1 ∧
      (serveNode format stores (nodeOf owner key) words).2.union =
        Function.update stores.union key (command.act format (stores.union key)).2 := by
  have slot : oneSlot (Request.on key command).keys = true := by simp only [oneSlot, Request.keys, List.all_cons,
    List.all_nil, decide_true, Bool.and_true]
  apply serveNode_of_parse format parsed stores slot
  intro other member
  rw [List.mem_singleton.mp member]

/-- A node does not look at keys of different slots. -/
theorem serveNode_crossSlot {words : List CppString} {request : Request} (parsed : parse words = some request)
    (stores : Stores owner o) (node : CppString × ℤ) (slots : oneSlot request.keys = false) :
    serveNode format stores node words = (crossSlot, stores) := by
  rw [serveNode, parsed]
  dsimp only
  rw [slots, Bool.not_false, if_pos rfl]

end CppRedis.Soundness.Stores
