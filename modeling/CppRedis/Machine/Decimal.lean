import Mathlib.Algebra.Order.Ring.Nat
import Mathlib.Data.List.Induction
import Mathlib.Tactic.Positivity
import Mathlib.Tactic.Ring

/-! # Decimal text

Natural numbers as bytes of digits. Exactly the texts of digits that do not start with a zero, and `0`, are
written for a number, each for the number that it reads as.
-/

namespace CppRedis.Machine.Decimal

/-- The byte of a digit. -/
def digit (value : ℕ) : UInt8 := (Nat.digitChar value).toNat.toUInt8

/-- The text of a number. -/
def write (value : ℕ) : List UInt8 := (Nat.toDigits 10 value).map fun char => char.toNat.toUInt8

/-- The number that digits read as. -/
def read (digits : List UInt8) : ℕ := digits.foldl (fun value digit => 10 * value + (digit.toNat - 48)) 0

def isDigit (byte : UInt8) : Bool := 48 ≤ byte && byte ≤ 57

theorem isDigit_iff {byte : UInt8} : isDigit byte = true ↔ 48 ≤ byte.toNat ∧ byte.toNat ≤ 57 := by
  rw [isDigit, Bool.and_eq_true, decide_eq_true_eq, decide_eq_true_eq, UInt8.le_iff_toNat_le, UInt8.le_iff_toNat_le]
  rfl

theorem digit_toNat : ∀ value < 10, (digit value).toNat = 48 + value := by decide

theorem isDigit_digit {value : ℕ} (small : value < 10) : isDigit (digit value) = true := by
  rw [isDigit_iff, digit_toNat value small]
  omega

/-- A byte of a digit is that of its value. -/
theorem digit_sub {byte : UInt8} (isDigit : isDigit byte = true) : digit (byte.toNat - 48) = byte := by
  obtain ⟨low, high⟩ := isDigit_iff.mp isDigit
  rw [← UInt8.toNat_inj, digit_toNat _ (by omega)]
  omega

@[simp]
theorem read_nil : read [] = 0 := rfl

theorem read_append (digits : List UInt8) (last : UInt8) :
    read (digits ++ [last]) = 10 * read digits + (last.toNat - 48) := by
  rw [read, List.foldl_append]
  rfl

/-- Reading goes on from what was read before. -/
theorem foldl_read (digits : List UInt8) (start : ℕ) :
    digits.foldl (fun value digit => 10 * value + (digit.toNat - 48)) start =
      start * 10 ^ digits.length + read digits := by
  induction digits using List.reverseRecOn with
  | nil => exact (Nat.mul_one start).symm
  | append_singleton digits last ih =>
    rw [List.foldl_append, ih, read_append, List.length_append, List.length_singleton, pow_succ]
    simp only [List.foldl_cons, List.foldl_nil]
    ring

theorem read_cons (first : UInt8) (digits : List UInt8) :
    read (first :: digits) = (first.toNat - 48) * 10 ^ digits.length + read digits := by
  rw [read, List.foldl_cons, foldl_read, Nat.mul_zero, Nat.zero_add]

theorem write_ne_nil (value : ℕ) : write value ≠ [] := fun none => Nat.toDigits_ne_nil (List.map_eq_nil_iff.mp none)

theorem write_of_lt {value : ℕ} (small : value < 10) : write value = [digit value] := by
  rw [write, Nat.toDigits_of_lt_base small]
  rfl

theorem write_of_le {value : ℕ} (large : 10 ≤ value) : write value = write (value / 10) ++ [digit (value % 10)] := by
  rw [write, Nat.toDigits_of_base_le (by decide) large, List.map_append]
  rfl

/-- Two digits at once. -/
theorem write_pair {value : ℕ} (large : 100 ≤ value) :
    write value = write (value / 100) ++ [digit (value % 100 / 10), digit (value % 10)] := by
  have quotient : value / 10 / 10 = value / 100 := Nat.div_div_eq_div_mul ..
  have middle : value / 10 % 10 = value % 100 / 10 := by omega
  rw [write_of_le (by omega), write_of_le (by omega : 10 ≤ value / 10), quotient, middle, List.append_assoc]
  rfl

theorem write_two {value : ℕ} (large : 10 ≤ value) (small : value < 100) :
    write value = [digit (value / 10), digit (value % 10)] := by
  rw [write_of_le large, write_of_lt (by omega)]
  rfl

theorem isDigit_of_mem_write {value : ℕ} : ∀ byte ∈ write value, isDigit byte = true := by
  induction value using Nat.strongRecOn with
  | ind value ih =>
    intro byte member
    by_cases small : value < 10
    · rw [write_of_lt small, List.mem_singleton] at member
      rw [member]
      exact isDigit_digit small
    · rw [write_of_le (not_lt.mp small)] at member
      rcases List.mem_append.mp member with early | last
      · exact ih (value / 10) (by omega) byte early
      · rw [List.mem_singleton.mp last]
        exact isDigit_digit (Nat.mod_lt _ (by decide))

/-- What is written reads as it was. -/
@[simp]
theorem read_write (value : ℕ) : read (write value) = value := by
  induction value using Nat.strongRecOn with
  | ind value ih =>
    by_cases small : value < 10
    · rw [write_of_lt small, ← List.nil_append [_], read_append, digit_toNat value small]
      simp
    · rw [write_of_le (not_lt.mp small), read_append, ih (value / 10) (by omega),
        digit_toNat _ (Nat.mod_lt _ (by decide))]
      omega

/-- Only the text of zero starts with a zero. -/
theorem head_write {value : ℕ} (positive : 0 < value) : (write value).head? ≠ some 48 := by
  induction value using Nat.strongRecOn with
  | ind value ih =>
    by_cases small : value < 10
    · rw [write_of_lt small, List.head?_cons]
      intro zero
      have same := congrArg UInt8.toNat (Option.some.inj zero)
      rw [digit_toNat value small] at same
      exact absurd same (by change ¬ 48 + value = 48; omega)
    · rw [write_of_le (not_lt.mp small), List.head?_append_of_ne_nil _ (write_ne_nil _)]
      exact ih (value / 10) (by omega) (by omega)

/-- Digits that do not start with a zero are written for the number that they read as. -/
theorem write_read {digits : List UInt8} (each : ∀ byte ∈ digits, isDigit byte = true) (filled : digits ≠ [])
    (lead : digits.head? ≠ some 48) : write (read digits) = digits ∧ 0 < read digits := by
  induction digits using List.reverseRecOn with
  | nil => exact absurd rfl filled
  | append_singleton digits last ih =>
    have isLast := each last (List.mem_append_right _ (List.mem_singleton_self _))
    obtain ⟨low, high⟩ := isDigit_iff.mp isLast
    rw [read_append]
    by_cases single : digits = []
    · subst single
      have other : last.toNat ≠ 48 := fun same => lead (congrArg some (UInt8.toNat_inj.mp same))
      rw [read_nil, Nat.mul_zero, Nat.zero_add, write_of_lt (by omega), digit_sub isLast]
      exact ⟨rfl, by omega⟩
    · rw [List.head?_append_of_ne_nil _ single] at lead
      obtain ⟨same, positive⟩ := ih (fun byte member => each byte (List.mem_append_left _ member)) single lead
      have quotient : (10 * read digits + (last.toNat - 48)) / 10 = read digits := by omega
      have rest : (10 * read digits + (last.toNat - 48)) % 10 = last.toNat - 48 := by omega
      rw [write_of_le (by omega), quotient, rest, same, digit_sub isLast]
      exact ⟨rfl, by omega⟩

theorem length_write_le_iff {value length : ℕ} (positive : 0 < length) :
    (write value).length ≤ length ↔ value < 10 ^ length := by
  rw [write, List.length_map]
  exact Nat.length_toDigits_le_iff (by decide) positive

/-- The number of digits between two powers of ten. -/
theorem length_write {value length : ℕ} (low : 10 ^ length ≤ value) (high : value < 10 ^ (length + 1)) :
    (write value).length = length + 1 := by
  apply Nat.le_antisymm ((length_write_le_iff (Nat.succ_pos length)).mpr high)
  rcases length.eq_zero_or_pos with rfl | positive
  · exact List.length_pos_iff.mpr (write_ne_nil value)
  · by_contra short
    exact absurd ((length_write_le_iff positive).mp (Nat.le_of_not_lt short)) (Nat.not_lt.mpr low)

theorem length_write_of_lt {value : ℕ} (small : value < 10) : (write value).length = 1 := by
  rw [write_of_lt small, List.length_singleton]

/-- Dividing by a power of ten takes so many digits off. -/
theorem length_write_div {value : ℕ} (count : ℕ) (large : 10 ^ count ≤ value) :
    (write value).length = (write (value / 10 ^ count)).length + count := by
  induction count with
  | zero => rw [pow_zero, Nat.div_one, Nat.add_zero]
  | succ count ih =>
    have smaller : 10 ^ count ≤ value := le_trans (Nat.pow_le_pow_right (by decide) (Nat.le_succ count)) large
    have tens : 10 ≤ value / 10 ^ count := by
      rw [Nat.le_div_iff_mul_le (by positivity), ← pow_succ']
      exact large
    rw [ih smaller, write_of_le tens, Nat.div_div_eq_div_mul, ← pow_succ, List.length_append, List.length_singleton]
    omega

end CppRedis.Machine.Decimal
