import CppRedis.Model.R3c.Numbers
import CppRedis.Soundness.Stores

/-! # Numbers that are written and read

What `ConvertToString` writes for a natural number is read by `atoi`, whatever follows it, and what it writes for an
integer of 64 bits is read by `string2ll`.
-/

namespace CppRedis.Soundness.Numerals

open Machine Model Model.RedisClient

theorem digits_convertToString (value : ℕ) :
    digitsValue (convertToString value) = value ∧ (∀ digit ∈ convertToString value, isDigit digit = true) ∧
      convertToString value ≠ [] := by
  have written : convertToString value = (Nat.toDigits 10 value).map Stores.digitByte := by
    rw [convertToString, if_neg (Int.not_lt.mpr (Int.natCast_nonneg value)), Int.natAbs_natCast]
    rfl
  obtain ⟨same, digits⟩ := Stores.toDigits_spec value
  rw [written]
  exact ⟨same, digits, fun none => Nat.toDigits_ne_nil (List.map_eq_nil_iff.mp none)⟩

/-- A byte that is no digit is not in a number. -/
theorem notMem_convertToString {byte : UInt8} (other : isDigit byte = false) (value : ℕ) :
    byte ∉ convertToString value := by
  intro member
  have digit := (digits_convertToString value).2.1 byte member
  rw [other] at digit
  cases digit

/-- A number is read up to the first byte that is no digit. -/
theorem leadingNumber_convertToString_append (value : ℕ) {rest : CppString}
    (stops : ∀ byte ∈ rest.head?, isDigit byte = false) : leadingNumber (convertToString value ++ rest) = value := by
  obtain ⟨same, digits, filled⟩ := digits_convertToString value
  rcases written : convertToString value with _ | ⟨first, others⟩
  · exact absurd written filled
  · rw [written] at same digits
    have digit := digits first List.mem_cons_self
    have unblank : (first = 32 || (9 ≤ first && first ≤ 13)) = false := by
      simp only [isDigit, Bool.and_eq_true, decide_eq_true_eq, UInt8.le_iff_toNat_le] at digit
      simp only [Bool.or_eq_false_iff, Bool.and_eq_false_iff, decide_eq_false_iff_not, UInt8.le_iff_toNat_le,
        ← UInt8.toNat_inj]
      have low : (48 : UInt8).toNat = 48 := rfl
      have blank : (32 : UInt8).toNat = 32 := rfl
      have high : (13 : UInt8).toNat = 13 := rfl
      omega
    have unsigned (sign : UInt8) (other : isDigit sign = false) : first ≠ sign := by
      rintro rfl
      exact Bool.false_ne_true (other.symm.trans digit)
    have behind : rest.takeWhile isDigit = [] := by
      rcases rest with _ | ⟨byte, bytes⟩
      · rfl
      · rw [List.takeWhile_cons, stops byte rfl, if_neg Bool.false_ne_true]
    have whole : (first :: others ++ rest).takeWhile isDigit = first :: others := by
      rw [List.takeWhile_append_of_pos digits, behind, List.append_nil]
    rw [leadingNumber, List.cons_append, List.dropWhile_cons_of_neg (by rw [unblank]; exact Bool.false_ne_true)]
    split
    · next _ minus => exact absurd (List.cons.inj minus).1 (unsigned 45 (by decide))
    · next _ plus => exact absurd (List.cons.inj plus).1 (unsigned 43 (by decide))
    · rw [← List.cons_append, whole, same]

theorem leadingNumber_convertToString (value : ℕ) : leadingNumber (convertToString value) = value := by
  have whole := @leadingNumber_convertToString_append value [] nofun
  rwa [List.append_nil] at whole

theorem atoi_convertToString_append {value : ℕ} (small : value < 2147483648) {rest : CppString}
    (stops : ∀ byte ∈ rest.head?, isDigit byte = false) : atoi (convertToString value ++ rest) = value := by
  have number := leadingNumber_convertToString_append value stops
  rw [atoi_of_lt (by omega) (by omega), number]

theorem atoi_convertToString {value : ℕ} (small : value < 2147483648) : atoi (convertToString value) = value := by
  have number := leadingNumber_convertToString value
  rw [atoi_of_lt (by omega) (by omega), number]

/-- Digits do not start with a zero but for zero itself. -/
theorem head_toDigits {value : ℕ} (positive : 0 < value) :
    ((Nat.toDigits 10 value).map Stores.digitByte).head? ≠ some 0x30 := by
  induction value using Nat.strongRecOn with
  | ind value ih =>
    by_cases small : value < 10
    · rw [Nat.toDigits_of_lt_base small]
      have lead : ∀ digit < 10, 0 < digit → ([Nat.digitChar digit].map Stores.digitByte).head? ≠ some 0x30 := by decide
      exact lead value small positive
    · have shorter := ih (value / 10) (by omega) (by omega)
      have filled : (Nat.toDigits 10 (value / 10)).map Stores.digitByte ≠ [] := fun none =>
        Nat.toDigits_ne_nil (List.map_eq_nil_iff.mp none)
      rw [Nat.toDigits_of_base_le (by decide) (not_lt.mp small), List.map_append]
      rwa [List.head?_append_of_ne_nil _ filled]

theorem string2ll_convertToString {value : ℤ} (low : -9223372036854775808 ≤ value)
    (high : value < 9223372036854775808) : R3c.string2ll (convertToString value) = some value := by
  obtain ⟨same, each⟩ := Stores.toDigits_spec value.natAbs
  have written : convertToString value = (if value < 0 then RedisCpp.text "-" else []) ++
      (Nat.toDigits 10 value.natAbs).map Stores.digitByte := rfl
  have filled : (Nat.toDigits 10 value.natAbs).map Stores.digitByte ≠ [] := fun none =>
    Nat.toDigits_ne_nil (List.map_eq_nil_iff.mp none)
  by_cases zero : value = 0
  · rw [zero]; decide +kernel
  · have lead := head_toDigits (Int.natAbs_pos.mpr zero)
    rw [written]
    generalize (Nat.toDigits 10 value.natAbs).map Stores.digitByte = digits at same each filled lead
    have plain : digits.any (!isDigit ·) = false := by
      rw [List.any_eq_false]
      intro digit member
      rw [each digit member]
      exact Bool.false_ne_true
    have proper : ¬ (digits = [] ∨ digits.head? = some 0x30 ∨ digits.any (!isDigit ·) = true) := by
      rw [plain]
      rintro (none | start | wrong)
      exacts [filled none, lead start, Bool.false_ne_true wrong]
    by_cases negative : value < 0
    · have sign : RedisCpp.text "-" = ([0x2D] : CppString) := rfl
      have fits : ¬ 9223372036854775808 < digitsValue digits := by omega
      have absolute : -(digitsValue digits : ℤ) = value := by omega
      have longer : (0x2D :: digits : CppString) ≠ [0x30] := fun same => absurd (List.cons.inj same).1 (by decide)
      rw [if_pos negative, sign, List.singleton_append, R3c.string2ll]
      simp only [List.head?_cons, List.tail_cons, ↓reduceIte, longer, proper, fits, absolute]
    · have unsigned : digits.head? ≠ some 0x2D := by
        intro sign
        exact absurd (each 0x2D (List.mem_of_head? sign)) (by decide)
      have fits : ¬ 9223372036854775807 < digitsValue digits := by omega
      have absolute : (digitsValue digits : ℤ) = value := by omega
      have other : digits ≠ [0x30] := fun same => lead (by rw [same]; rfl)
      rw [if_neg negative, List.nil_append, R3c.string2ll]
      simp only [unsigned, ↓reduceIte, other, proper, fits, absolute]

end CppRedis.Soundness.Numerals
