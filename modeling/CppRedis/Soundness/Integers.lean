import CppRedis.Machine.Decimal
import CppRedis.Model.R3c.Integers
import CppRedis.Soundness.Numerals

/-! # Integers and their texts

`int2string` writes the decimal text of every `int64_t`, two digits at a time, and `string2int` reads these texts and
no others. The overloads for other types go through casts to `int64_t`: an unsigned number from 2^63 on gets the
text of a negative one, and a text beyond the range of an `int32_t` is read for a number that it does not write.
-/

namespace CppRedis.Soundness.Integers

open Machine Model.RedisClient Model.R3c.Utils

theorem digits10_eq (v : ℕ) : digits10 v = (Decimal.write v).length := by
  induction v using Nat.strongRecOn with
  | ind v ih =>
    have many (count : ℕ) (low : 10 ^ count ≤ v) (high : v < 10 ^ (count + 1)) :
        (Decimal.write v).length = count + 1 := Decimal.length_write low high
    rw [digits10]
    split_ifs with one two three twelve eight six four ten
    · exact (Decimal.length_write_of_lt one).symm
    · exact (many 1 (by omega) (by omega)).symm
    · exact (many 2 (by omega) (by omega)).symm
    · exact (many 3 (by omega) (by omega)).symm
    · by_cases large : v ≥ 100000
      · rw [decide_eq_true large, many 5 (by omega) (by omega)]
        rfl
      · rw [decide_eq_false large, many 4 (by omega) (by omega)]
        rfl
    · by_cases large : v ≥ 10000000
      · rw [decide_eq_true large, many 7 (by omega) (by omega)]
        rfl
      · rw [decide_eq_false large, many 6 (by omega) (by omega)]
        rfl
    · by_cases large : v ≥ 1000000000
      · rw [decide_eq_true large, many 9 (by omega) (by omega)]
        rfl
      · rw [decide_eq_false large, many 8 (by omega) (by omega)]
        rfl
    · by_cases large : v ≥ 100000000000
      · rw [decide_eq_true large, many 11 (by omega) (by omega)]
        rfl
      · rw [decide_eq_false large, many 10 (by omega) (by omega)]
        rfl
    · have rest := Decimal.length_write_div 12 (not_lt.mp twelve)
      rw [ih _ (by omega), rest, Nat.add_comm]
      rfl

theorem digits_eq : digits = (List.range 100).flatMap fun i => [Decimal.digit (i / 10), Decimal.digit (i % 10)] := by
  decide +kernel

theorem digits_pair : ∀ i < 100,
    digits.getD (i * 2) 0 = Decimal.digit (i / 10) ∧ digits.getD (i * 2 + 1) 0 = Decimal.digit (i % 10) := by
  rw [digits_eq]
  decide +kernel

theorem set_one (front : List UInt8) (old new : UInt8) (rest : List UInt8) :
    (front ++ old :: rest).set front.length new = front ++ new :: rest := by
  rw [List.set_append_right _ _ le_rfl, Nat.sub_self]
  rfl

theorem set_two (front : List UInt8) (old old' new new' : UInt8) (rest : List UInt8) :
    ((front ++ old :: old' :: rest).set (front.length + 1) new').set front.length new =
      front ++ new :: new' :: rest := by
  have second := set_one (front ++ [old]) old' new' rest
  rw [List.length_append, List.length_singleton, List.append_assoc, List.append_assoc] at second
  exact (congrArg (List.set · front.length new) second).trans (set_one front old new (new' :: rest))

theorem exists_two {hole : List UInt8} (two : 2 ≤ hole.length) : ∃ before first second,
    hole = before ++ [first, second] := by
  refine ⟨hole.take (hole.length - 2), hole[hole.length - 2], hole[hole.length - 1], ?_⟩
  have last : hole.drop (hole.length - 2) = [hole[hole.length - 2], hole[hole.length - 1]] := by
    rw [List.drop_eq_getElem_cons (by omega), List.drop_eq_getElem_cons (by omega), List.drop_eq_nil_of_le (by omega)]
    simp only [show hole.length - 2 + 1 = hole.length - 1 by omega]
  rw [← last, List.take_append_drop]

/-- The digits of a value below a hundred. -/
theorem writeLast_spec {value : ℕ} (small : value < 100) (front : List UInt8) {hole : List UInt8} (rest : List UInt8)
    (fits : hole.length = (Decimal.write value).length) :
    writeLast value (front.length + hole.length - 1) (front ++ hole ++ rest) =
      front ++ Decimal.write value ++ rest := by
  rw [writeLast]
  split_ifs with one
  · rw [Decimal.length_write_of_lt one] at fits
    obtain ⟨old, rfl⟩ := List.length_eq_one_iff.mp fits
    have byte : 48 + value.toUInt8 = Decimal.digit value := by
      revert value
      decide
    rw [Decimal.write_of_lt one, byte, List.append_assoc, List.append_assoc]
    exact set_one front old _ rest
  · obtain ⟨first, second⟩ := digits_pair value small
    rw [Decimal.write_two (not_lt.mp one) small] at fits ⊢
    obtain ⟨old, old', rfl⟩ := List.length_eq_two.mp fits
    rw [first, second, List.append_assoc, List.append_assoc]
    exact set_two front old old' _ _ rest

/-- The digits of a value take the place of as many bytes. -/
theorem writePairs_spec {value : ℕ} (front : List UInt8) {hole : List UInt8} (rest : List UInt8)
    (fits : hole.length = (Decimal.write value).length) :
    writePairs value (front.length + hole.length - 1) (front ++ hole ++ rest) =
      front ++ Decimal.write value ++ rest := by
  induction value using Nat.strongRecOn generalizing hole rest with
  | ind value ih =>
    rw [writePairs]
    split_ifs with large
    · obtain ⟨first, second⟩ := digits_pair (value % 100) (Nat.mod_lt _ (by decide))
      have units : value % 100 % 10 = value % 10 := by omega
      rw [units] at second
      rw [Decimal.write_pair large] at fits ⊢
      rw [List.length_append, List.length_cons, List.length_singleton] at fits
      obtain ⟨before, old, old', rfl⟩ := exists_two (by omega : 2 ≤ hole.length)
      have place : front.length + (before ++ [old, old']).length - 1 = (front ++ before).length + 1 := by
        simp only [List.length_append, List.length_cons, List.length_nil]
        omega
      have written := set_two (front ++ before) old old' (Decimal.digit (value % 100 / 10))
        (Decimal.digit (value % 10)) rest
      have fewer : before.length = (Decimal.write (value / 100)).length := by
        simp only [List.length_append, List.length_cons, List.length_nil] at fits
        omega
      have later := ih (value / 100) (by omega)
        (Decimal.digit (value % 100 / 10) :: Decimal.digit (value % 10) :: rest) fewer
      have shorter : (front ++ before).length + 1 - 2 = front.length + before.length - 1 := by
        rw [List.length_append]
        omega
      have joined : front ++ (before ++ [old, old']) ++ rest = front ++ before ++ old :: old' :: rest := by
        simp only [List.append_assoc, List.cons_append, List.nil_append]
      dsimp only
      rw [place, first, second, joined, Nat.add_sub_cancel, written, shorter, later]
      simp only [List.append_assoc, List.cons_append, List.nil_append]
    · exact writeLast_spec (not_le.mp large) front rest fits

theorem toInt_toInt64 (v : UInt64) :
    v.toNat < 2 ^ 63 ∧ v.toInt64.toInt = v.toNat ∨ 2 ^ 63 ≤ v.toNat ∧ v.toInt64.toInt = v.toNat - 2 ^ 64 := by
  have cast : v.toInt64.toInt = if 2 * v.toNat < 2 ^ 64 then (v.toNat : ℤ) else v.toNat - (2 ^ 64 : ℕ) :=
    BitVec.toInt_eq_toNat_cond v.toBitVec
  split_ifs at cast with small
  · exact .inl ⟨by omega, cast⟩
  · exact .inr ⟨by omega, cast⟩

theorem toInt_toInt64_eq (v : UInt64) :
    v.toInt64.toInt = if (v.toNat : ℤ) < 2 ^ 63 then (v.toNat : ℤ) else v.toNat - 2 ^ 64 := by
  rcases toInt_toInt64 v with ⟨below, same⟩ | ⟨least, same⟩
  · rw [if_pos (by omega), same]
  · rw [if_neg (by omega), same]

theorem toNat_toUInt64 {n : Int64} (natural : 0 ≤ n.toInt) : (n.toUInt64.toNat : ℤ) = n.toInt := by
  have cast := toInt_toInt64 n.toUInt64
  rw [Int64.toInt64_toUInt64] at cast
  have bound := n.toUInt64.toNat_lt
  omega

theorem toInt_neg {n : Int64} (other : n ≠ Int64.minValue) : (-n).toInt = -n.toInt := by
  have least : n.toInt ≠ -2 ^ 63 := fun same => other (Int64.toInt_inj.mp same)
  have low := n.le_toInt
  have high := n.toInt_lt
  rw [Int64.toInt_neg]
  exact Int.bmod_eq_of_le (by omega) (by omega)

/-- The product of an `int64_t` with -1, for a number up to 2^63 that was cast. -/
theorem toInt_mul_neg_one {v : UInt64} (small : v.toNat ≤ 2 ^ 63) : (v.toInt64 * -1).toInt = -(v.toNat : ℤ) := by
  have cast := toInt_toInt64 v
  have minus : (-1 : Int64).toInt = -1 := by decide
  rw [Int64.toInt_mul, minus]
  rcases cast with ⟨below, same⟩ | ⟨least, same⟩
  · rw [same]
    exact (Int.bmod_eq_of_le (by omega) (by omega)).trans (by omega)
  · have border : v.toNat = 2 ^ 63 := by omega
    rw [same, border]
    decide

theorem magnitude_toNat (n : Int64) : (magnitude n).toNat = n.toInt.natAbs := by
  have zero : (0 : Int64).toInt = 0 := rfl
  rw [magnitude]
  split_ifs with negative other
  · rw [Int64.lt_iff_toInt_lt, zero] at negative
    have same := @toNat_toUInt64 (-n) (by rw [toInt_neg other]; omega)
    rw [toInt_neg other] at same
    omega
  · rw [not_not.mp other]
    decide
  · rw [Int64.lt_iff_toInt_lt, zero] at negative
    have same := toNat_toUInt64 (not_lt.mp negative)
    omega

theorem convertToString_eq (value : ℤ) :
    convertToString value = (if value < 0 then [45] else []) ++ Decimal.write value.natAbs := rfl

/-- The digits in a buffer of zeros, behind the place of a sign. -/
theorem writePairs_zeros {value signs size : ℕ} (room : (Decimal.write value).length + signs ≤ size) :
    writePairs value ((Decimal.write value).length + signs - 1) (List.replicate size 0) = List.replicate signs 0 ++
      Decimal.write value ++ List.replicate (size - ((Decimal.write value).length + signs)) 0 := by
  have split : List.replicate size (0 : UInt8) = List.replicate signs 0 ++
      List.replicate (Decimal.write value).length 0 ++
        List.replicate (size - ((Decimal.write value).length + signs)) 0 := by
    rw [List.replicate_append_replicate, List.replicate_append_replicate]
    congr 1
    omega
  have written := @writePairs_spec value (List.replicate signs 0) (List.replicate (Decimal.write value).length 0)
    (List.replicate (size - ((Decimal.write value).length + signs)) 0) List.length_replicate
  rw [← split, List.length_replicate, List.length_replicate, Nat.add_comm signs] at written
  exact written

/-- The text of every `int64_t` is its decimal text. -/
theorem int2string_eq (n : Int64) : int2string n = convertToString n.toInt := by
  have low := n.le_toInt
  have high := n.toInt_lt
  have few : (Decimal.write n.toInt.natAbs).length ≤ 19 := (Decimal.length_write_le_iff (by decide)).mpr (by omega)
  have sign : decide (n < 0) = decide (n.toInt < 0) := decide_eq_decide.mpr Int64.lt_iff_toInt_lt
  have room : (Decimal.write n.toInt.natAbs).length + (decide (n.toInt < 0)).toNat < 22 := by
    have small := Bool.toNat_le (decide (n.toInt < 0))
    omega
  have written := writePairs_zeros room.le
  rw [int2string, ll2string, magnitude_toNat, digits10_eq, sign]
  simp only [List.length_replicate, if_neg (not_le.mpr room), List.set_replicate_self, written]
  rw [convertToString_eq]
  by_cases negative : n.toInt < 0
  · rw [decide_eq_true negative, if_pos rfl, if_pos negative, Bool.toNat_true, List.replicate_one, List.append_assoc,
      List.singleton_append, List.set_cons_zero, List.take_succ_cons, List.take_left' rfl]
    rfl
  · rw [decide_eq_false negative, if_neg Bool.false_ne_true, if_neg negative, Bool.toNat_false, List.replicate_zero,
      List.nil_append, Nat.add_zero, List.take_left' rfl]

theorem digit_iff {p : UInt8} : 48 ≤ p ∧ p ≤ 57 ↔ Decimal.isDigit p = true := by
  rw [Decimal.isDigit, Bool.and_eq_true, decide_eq_true_eq, decide_eq_true_eq]

theorem toNat_digit {p : UInt8} (isDigit : Decimal.isDigit p = true) : (p - 48).toUInt64.toNat = p.toNat - 48 := by
  obtain ⟨low, -⟩ := Decimal.isDigit_iff.mp isDigit
  have least : (48 : UInt8) ≤ p := UInt8.le_iff_toNat_le.mpr low
  rw [UInt8.toNat_toUInt64, UInt8.toNat_sub_of_le _ _ least]
  rfl

/-- A digit more, when the number is read from the front. -/
theorem read_step (value : ℕ) (p : UInt8) (s : List UInt8) :
    value * 10 ^ (p :: s).length + Decimal.read (p :: s) =
      (value * 10 + (p.toNat - 48)) * 10 ^ s.length + Decimal.read s := by
  rw [Decimal.read_cons, List.length_cons, pow_succ]
  ring

theorem fits_of_range {v d : ℕ} (bound : v < 2 ^ 64) (digit : d ≤ 9) :
    ¬ 1844674407370955161 < v ∧ ¬ 18446744073709551615 - d < v * 10 % 2 ^ 64 ↔ v * 10 + d < 2 ^ 64 := by omega

/-- The tests of the loop before it takes a digit: the number fits, and has no overflow. -/
theorem fits_iff {v : UInt64} {p : UInt8} (isDigit : Decimal.isDigit p = true) :
    ¬ v > 18446744073709551615 / 10 ∧ ¬ v * 10 > 18446744073709551615 - (p - 48).toUInt64 ↔
      v.toNat * 10 + (p.toNat - 48) < 2 ^ 64 := by
  obtain ⟨low, high⟩ := Decimal.isDigit_iff.mp isDigit
  have digit := toNat_digit isDigit
  have most : (18446744073709551615 : UInt64).toNat = 18446744073709551615 := by decide
  have below : (p - 48).toUInt64 ≤ 18446744073709551615 := by
    rw [UInt64.le_iff_toNat_le, digit, most]
    omega
  have tenth : ((18446744073709551615 : UInt64) / 10).toNat = 1844674407370955161 := by decide
  have ten : (10 : UInt64).toNat = 10 := rfl
  rw [gt_iff_lt, gt_iff_lt, UInt64.lt_iff_toNat_lt, UInt64.lt_iff_toNat_lt, tenth, UInt64.toNat_mul,
    UInt64.toNat_sub_of_le _ _ below, digit, most, ten]
  exact fits_of_range v.toNat_lt (by omega)

/-- The loop gets to the end just when all bytes are digits and the number fits, and has that number then. -/
theorem readDigits_done {v w : UInt64} {s : CppString} :
    readDigits v s = some (w, []) ↔
      (∀ byte ∈ s, Decimal.isDigit byte = true) ∧ w.toNat = v.toNat * 10 ^ s.length + Decimal.read s := by
  induction s generalizing v with
  | nil =>
    rw [readDigits, List.length_nil, pow_zero, Nat.mul_one, Decimal.read_nil, Nat.add_zero, UInt64.toNat_inj]
    constructor
    · intro same
      cases same
      exact ⟨nofun, rfl⟩
    · rintro ⟨-, rfl⟩
      rfl
  | cons p s ih =>
    rw [readDigits, read_step, List.forall_mem_cons]
    by_cases isDigit : Decimal.isDigit p = true
    · rw [if_pos (digit_iff.mpr isDigit)]
      by_cases fits : v.toNat * 10 + (p.toNat - 48) < 2 ^ 64
      · obtain ⟨small, smaller⟩ := (fits_iff isDigit).mpr fits
        have next : (v * 10 + (p - 48).toUInt64).toNat = v.toNat * 10 + (p.toNat - 48) := by
          have ten : (10 : UInt64).toNat = 10 := rfl
          rw [UInt64.toNat_add, UInt64.toNat_mul, toNat_digit isDigit, ten]
          omega
        rw [if_neg small, if_neg smaller, ih, next, and_iff_right isDigit]
      · have beyond : ∀ value < 2 ^ 64, value ≠ (v.toNat * 10 + (p.toNat - 48)) * 10 ^ s.length + Decimal.read s := by
          intro value bound
          have positive : 0 < 10 ^ s.length := Nat.pow_pos (by decide)
          have more := Nat.le_mul_of_pos_right (v.toNat * 10 + (p.toNat - 48)) positive
          omega
        refine iff_of_false (fun done => ?_) fun same => beyond _ w.toNat_lt same.2
        split_ifs at done with small smaller
        exact fits ((fits_iff isDigit).mp ⟨small, smaller⟩)
    · rw [if_neg fun digit => isDigit (digit_iff.mp digit)]
      exact iff_of_false nofun fun each => isDigit each.1.1

/-- The number with its sign, where an `int64_t` has room for it. -/
theorem signed_eq_some {negative : Bool} {v : UInt64} {n : Int64} :
    signed negative v = some n ↔ n.toInt = if negative then -(v.toNat : ℤ) else v.toNat := by
  have low := n.le_toInt
  have high := n.toInt_lt
  have cast := toInt_toInt64 v
  cases negative with
  | true =>
    have least : v > (-(Int64.minValue + 1)).toUInt64 + 1 ↔ 2 ^ 63 < v.toNat := UInt64.lt_iff_toNat_lt
    rw [signed, if_pos rfl, if_pos rfl]
    by_cases large : 2 ^ 63 < v.toNat
    · rw [if_pos (least.mpr large)]
      exact iff_of_false nofun (by omega)
    · have product : (v.toInt64 * -1).toInt = -(v.toNat : ℤ) := toInt_mul_neg_one (not_lt.mp large)
      rw [if_neg (least.not.mpr large), Option.some_inj, ← Int64.toInt_inj, product, eq_comm]
  | false =>
    have most : v > Int64.maxValue.toUInt64 ↔ 2 ^ 63 ≤ v.toNat := UInt64.lt_iff_toNat_lt
    rw [signed, if_neg Bool.false_ne_true, if_neg Bool.false_ne_true]
    by_cases large : 2 ^ 63 ≤ v.toNat
    · rw [if_pos (most.mpr large)]
      exact iff_of_false nofun (by omega)
    · have value : v.toInt64.toInt = v.toNat := by omega
      rw [if_neg (most.not.mpr large), Option.some_inj, ← Int64.toInt_inj, value, eq_comm]

/-- Behind the sign stands the text of the absolute value, which is not zero. -/
theorem readNumber_eq_some {negative : Bool} {digits : CppString} {n : Int64} :
    readNumber negative digits = some n ↔
      n.toInt ≠ 0 ∧ negative = decide (n.toInt < 0) ∧ digits = Decimal.write n.toInt.natAbs := by
  have signs (v : ℕ) (positive : 0 < v) :
      (n.toInt = if negative then -(v : ℤ) else v) ↔ negative = decide (n.toInt < 0) ∧ v = n.toInt.natAbs := by
    rcases negative with _ | _
    · rw [if_neg Bool.false_ne_true, eq_comm (a := false), decide_eq_false_iff_not]
      omega
    · rw [if_pos rfl, eq_comm (a := true), decide_eq_true_iff]
      omega
  have low := n.le_toInt
  have high := n.toInt_lt
  rcases digits with _ | ⟨first, rest⟩
  · exact iff_of_false nofun fun each => Decimal.write_ne_nil _ each.2.2.symm
  · have lead : 49 ≤ first ∧ first ≤ 57 ↔ Decimal.isDigit first = true ∧ first ≠ 48 := by
      have byte : first = 48 ↔ first.toNat = 48 := UInt8.toNat_inj.symm
      rw [Decimal.isDigit_iff, UInt8.le_iff_toNat_le, UInt8.le_iff_toNat_le, Ne, byte]
      change 49 ≤ first.toNat ∧ first.toNat ≤ 57 ↔ _
      omega
    rw [readNumber]
    by_cases proper : Decimal.isDigit first = true ∧ first ≠ 48
    · obtain ⟨isDigit, other⟩ := proper
      have start : (first - 48).toUInt64.toNat * 10 ^ rest.length + Decimal.read rest =
          Decimal.read (first :: rest) := by
        rw [toNat_digit isDigit, Decimal.read_cons]
      rw [if_pos (lead.mpr ⟨isDigit, other⟩)]
      constructor
      · intro accepted
        split at accepted
        · next v done =>
            obtain ⟨each, value⟩ := readDigits_done.mp done
            obtain ⟨written, positive⟩ := Decimal.write_read (List.forall_mem_cons.mpr ⟨isDigit, each⟩)
              (List.cons_ne_nil first rest) fun zero => other (Option.some.inj zero)
            rw [start] at value
            have signed := (signs v.toNat (by omega)).mp (signed_eq_some.mp accepted)
            rw [value] at signed
            exact ⟨by omega, signed.1, by rw [← signed.2, written]⟩
        · cases accepted
      · rintro ⟨nonzero, sign, written⟩
        have each : ∀ byte ∈ rest, Decimal.isDigit byte = true := fun byte member =>
          Decimal.isDigit_of_mem_write byte (written ▸ List.mem_cons_of_mem first member)
        have value : (UInt64.ofNat n.toInt.natAbs).toNat = n.toInt.natAbs := 
          UInt64.toNat_ofNat_of_lt (lt_of_lt_of_le (by omega : n.toInt.natAbs < 2 ^ 64) le_rfl)
        have done : readDigits (first - 48).toUInt64 rest = some (UInt64.ofNat n.toInt.natAbs, []) :=
          readDigits_done.mpr ⟨each, by rw [value, start, written, Decimal.read_write]⟩
        rw [done]
        exact signed_eq_some.mpr ((signs _ (by omega)).mpr ⟨sign, value⟩)
    · rw [if_neg (lead.not.mpr proper)]
      refine iff_of_false nofun ?_
      rintro ⟨nonzero, -, written⟩
      refine proper ⟨Decimal.isDigit_of_mem_write first (written ▸ List.mem_cons_self), fun zero => ?_⟩
      refine Decimal.head_write (Int.natAbs_pos.mpr nonzero) ?_
      rw [← written, zero]
      rfl

theorem head_write_ne_minus (value : ℕ) : (Decimal.write value).head? ≠ some 45 := fun minus =>
  absurd (Decimal.isDigit_of_mem_write 45 (List.mem_of_head? minus)) (by decide)

theorem convertToString_of_neg {value : ℤ} (negative : value < 0) :
    convertToString value = 45 :: Decimal.write value.natAbs := by
  rw [convertToString_eq, if_pos negative]
  rfl

theorem convertToString_of_nonneg {value : ℤ} (natural : 0 ≤ value) :
    convertToString value = Decimal.write value.natAbs := by
  rw [convertToString_eq, if_neg (not_lt.mpr natural), List.nil_append]

/-- A sign stands in front of the negative numbers only. -/
theorem head_convertToString {value : ℤ} : (convertToString value).head? = some 45 ↔ value < 0 := by
  by_cases negative : value < 0
  · rw [convertToString_of_neg negative]
    exact iff_of_true rfl negative
  · rw [convertToString_of_nonneg (not_lt.mp negative)]
    exact iff_of_false (head_write_ne_minus _) negative

/-- A number has one text. -/
theorem convertToString_injective : Function.Injective convertToString := by
  intro value other same
  have signs : value < 0 ↔ other < 0 := by rw [← head_convertToString, same, head_convertToString]
  by_cases negative : value < 0
  · rw [convertToString_of_neg negative, convertToString_of_neg (signs.mp negative)] at same
    have digits := congrArg Decimal.read (List.cons.inj same).2
    rw [Decimal.read_write, Decimal.read_write] at digits
    omega
  · rw [convertToString_of_nonneg (not_lt.mp negative), convertToString_of_nonneg (by omega)] at same
    have digits := congrArg Decimal.read same
    rw [Decimal.read_write, Decimal.read_write] at digits
    omega

/-- A text is read for the one integer that it is written for. -/
theorem string2ll_eq_some {s : CppString} {n : Int64} : string2ll s = some n ↔ s = convertToString n.toInt := by
  have zero : convertToString (0 : Int64).toInt = [48] := by decide
  rw [string2ll]
  split_ifs with none single minus
  · rw [none, convertToString_eq]
    refine iff_of_false nofun fun same => Decimal.write_ne_nil _ (List.append_eq_nil_iff.mp same.symm).2
  · rw [Option.some_inj, single, ← zero, convertToString_injective.eq_iff, Int64.toInt_inj]
  · obtain ⟨rest, rfl⟩ : ∃ rest, s = 45 :: rest := List.head?_eq_some_iff.mp minus
    rw [readNumber_eq_some, List.tail_cons, eq_comm (a := true), decide_eq_true_iff]
    constructor
    · rintro ⟨-, negative, rfl⟩
      exact (convertToString_of_neg negative).symm
    · intro same
      have negative : n.toInt < 0 := head_convertToString.mp (by rw [← same]; rfl)
      rw [convertToString_of_neg negative] at same
      exact ⟨negative.ne, negative, (List.cons.inj same).2⟩
  · rw [readNumber_eq_some, eq_comm (a := false), decide_eq_false_iff_not]
    constructor
    · rintro ⟨-, natural, rfl⟩
      exact (convertToString_of_nonneg (not_lt.mp natural)).symm
    · intro same
      have natural : ¬ n.toInt < 0 := fun negative => minus (by rw [same]; exact head_convertToString.mpr negative)
      refine ⟨fun nothing => single ?_, natural, ?_⟩
      · rw [same, nothing]
        exact zero
      · rwa [convertToString_of_nonneg (not_lt.mp natural)] at same

theorem string2int_eq {s : CppString} {v errval : Int64} :
    string2int s errval = (true, v) ↔ s = convertToString v.toInt := by
  rw [← string2ll_eq_some, string2int]
  split
  · next llval accepted => rw [accepted, Prod.mk.injEq, and_iff_right rfl, Option.some_inj]
  · next refused =>
      rw [refused]
      exact iff_of_false (fun same => Bool.false_ne_true (Prod.mk.inj same).1) nofun

theorem string2int_other {s : CppString} (other : ∀ v : Int64, s ≠ convertToString v.toInt) (errval : Int64) :
    string2int s errval = (false, errval) := by
  rw [string2int]
  split
  · next llval accepted => exact absurd (string2ll_eq_some.mp accepted) (other llval)
  · rfl

/-- The reader of the numbers in replies accepts texts of numbers only. -/
theorem convertToString_of_string2ll {s : CppString} {n : ℤ} (accepted : Model.R3c.string2ll s = some n) :
    s = convertToString n ∧ -2 ^ 63 ≤ n ∧ n < 2 ^ 63 := by
  have digits {digits : CppString}
      (proper : ¬(digits = [] ∨ digits.head? = some 0x30 ∨ digits.any (!isDigit ·) = true)) :
      Decimal.write (digitsValue digits) = digits ∧ 0 < digitsValue digits := by
    obtain ⟨filled, lead, each⟩ := not_or.mp proper |>.imp_right not_or.mp
    refine Decimal.write_read (fun byte member => ?_) filled lead
    by_contra other
    exact each (List.any_eq_true.mpr ⟨byte, member, Bool.not_eq_true' _ |>.mpr (Bool.eq_false_iff.mpr other)⟩)
  rw [Model.R3c.string2ll] at accepted
  by_cases single : s = [48]
  · rw [if_pos single, Option.some_inj] at accepted
    rw [← accepted, single]
    exact ⟨by decide, by decide, by decide⟩
  rw [if_neg single] at accepted
  by_cases minus : s.head? = some 45
  · obtain ⟨rest, rfl⟩ : ∃ rest, s = 45 :: rest := List.head?_eq_some_iff.mp minus
    simp only [List.head?_cons, if_true, List.tail_cons] at accepted
    split_ifs at accepted with improper large
    obtain ⟨written, positive⟩ := digits improper
    have value := Option.some.inj accepted
    rw [convertToString_of_neg (by omega), ← value, Int.natAbs_neg, Int.natAbs_natCast, written]
    exact ⟨rfl, by omega, by omega⟩
  · simp only [if_neg minus] at accepted
    split_ifs at accepted with improper large
    obtain ⟨written, positive⟩ := digits improper
    have value := Option.some.inj accepted
    rw [convertToString_of_nonneg (by omega), ← value, Int.natAbs_natCast, written]
    exact ⟨rfl, by omega, by omega⟩

/-- The numbers in replies are read in the same way. -/
theorem string2ll_toInt (s : CppString) : (string2ll s).map Int64.toInt = Model.R3c.string2ll s := by
  cases read : string2ll s with
  | some n =>
    rw [string2ll_eq_some.mp read]
    exact (Numerals.string2ll_convertToString n.le_toInt n.toInt_lt).symm
  | none =>
    refine (Option.eq_none_iff_forall_ne_some.mpr fun n accepted => ?_).symm
    obtain ⟨written, low, high⟩ := convertToString_of_string2ll accepted
    have value : (Int64.ofInt n).toInt = n := Int64.toInt_ofInt_of_le low high
    rw [← value] at written
    rw [string2ll_eq_some.mpr written] at read
    cases read

/-- `int2string` writes the decimal text of every `int64_t`, and `string2int` reads these texts, each for its number,
and sets the error value for all others. -/
theorem integers_round_trip (n v errval : Int64) (s : CppString) :
    int2string n = convertToString n.toInt ∧ string2int (int2string n) errval = (true, n) ∧
      (string2int s errval = (true, v) ↔ s = int2string v) ∧
      ((∀ v, s ≠ int2string v) → string2int s errval = (false, errval)) := by
  refine ⟨int2string_eq n, string2int_eq.mpr (int2string_eq n), ?_,
    fun other => string2int_other (fun v same => ?_) errval⟩
  · rw [int2string_eq]
    exact string2int_eq
  · exact other v (same.trans (int2string_eq v).symm)

/-- A number gets the text of what the cast makes of it. -/
theorem overload_eq (n : Integer) :
    n.int2string = convertToString (if n.value < 2 ^ 63 then n.value else n.value - 2 ^ 64) := by
  cases n with
  | int64 n => rw [Integer.int2string, Integer.value, if_pos n.toInt_lt, int2string_eq]
  | int32 n =>
    have high := n.toInt_lt
    rw [Integer.int2string, Integer.value, if_pos (by omega), int2stringInt32, int2string_eq, Int32.toInt_toInt64]
  | int16 n =>
    have high := n.toInt_lt
    rw [Integer.int2string, Integer.value, if_pos (by omega), int2stringInt16, int2string_eq, Int16.toInt_toInt64]
  | uint64 n => rw [Integer.int2string, Integer.value, int2stringUInt64, int2string_eq, toInt_toInt64_eq]
  | uint32 n =>
    rw [Integer.int2string, Integer.value, int2stringUInt32, int2string_eq, toInt_toInt64_eq, UInt32.toNat_toUInt64]
  | uint16 n =>
    rw [Integer.int2string, Integer.value, int2stringUInt16, int2stringUInt64, int2string_eq, toInt_toInt64_eq,
      UInt16.toNat_toUInt64]

/-- What `string2int` promises for an `int32_t`. -/
def ReadsInt32 (s : CppString) (errval : Int32) : Prop :=
  (∀ v, string2int32 s errval = (true, v) ↔ s = convertToString v.toInt) ∧
    ((∀ v : Int32, s ≠ convertToString v.toInt) → string2int32 s errval = (false, errval))

/-- The value for an `int32_t` is the cast of that for an `int64_t`. -/
theorem string2int32_eq {s : CppString} {errval v : Int32} :
    string2int32 s errval = (true, v) ↔ ∃ n : Int64, s = convertToString n.toInt ∧ n.toInt32 = v := by
  rcases read : string2int s errval.toInt64 with ⟨_ | _, val64⟩
  · rw [string2int32, read]
    refine iff_of_false (fun same => Bool.false_ne_true (Prod.mk.inj same).1) ?_
    rintro ⟨n, written, -⟩
    rw [string2int_eq.mpr written] at read
    exact Bool.false_ne_true (Prod.mk.inj read).1.symm
  · have written := string2int_eq.mp read
    rw [string2int32, read]
    constructor
    · exact fun same => ⟨val64, written, (Prod.mk.inj same).2⟩
    · rintro ⟨n, same, rfl⟩
      rw [Int64.toInt_inj.mp (convertToString_injective (written.symm.trans same))]
      rfl

theorem toInt_toInt32 {n : Int64} : n.toInt32.toInt = n.toInt ↔ -2 ^ 31 ≤ n.toInt ∧ n.toInt < 2 ^ 31 := by
  constructor
  · intro same
    rw [← same]
    exact ⟨n.toInt32.le_toInt, n.toInt32.toInt_lt⟩
  · rintro ⟨low, high⟩
    rw [Int64.toInt_toInt32]
    exact Int.bmod_eq_of_le (by omega) (by omega)

theorem readsInt32_iff {s : CppString} {errval : Int32} :
    ReadsInt32 s errval ↔ ∀ v : Int64, s = convertToString v.toInt → -2 ^ 31 ≤ v.toInt ∧ v.toInt < 2 ^ 31 := by
  constructor
  · rintro ⟨reads, -⟩ v written
    have same := (reads v.toInt32).mp (string2int32_eq.mpr ⟨v, written, rfl⟩)
    exact toInt_toInt32.mp (convertToString_injective (same.symm.trans written))
  · intro proper
    have fits {v : Int64} (written : s = convertToString v.toInt) : s = convertToString v.toInt32.toInt := by
      rwa [toInt_toInt32.mpr (proper v written)]
    refine ⟨fun v => string2int32_eq.trans ⟨?_, fun written => ⟨v.toInt64, ?_, ?_⟩⟩, fun other => ?_⟩
    · rintro ⟨n, written, rfl⟩
      exact fits written
    · rwa [Int32.toInt_toInt64]
    · exact Int32.toInt32_toInt64 v
    · rw [string2int32, string2int_other fun v written => other v.toInt32 (fits written)]
      rfl

/-- A number gets its own text exactly below 2^63, and a text is read properly for an `int32_t` exactly when it is not
that of an `int64_t` out of range. -/
theorem overloads_right_iff (n : Integer) (s : CppString) (errval : Int32) :
    (n.int2string = convertToString n.value ↔ n.value < 2 ^ 63) ∧
      (ReadsInt32 s errval ↔
        ∀ v : Int64, s = convertToString v.toInt → -2 ^ 31 ≤ v.toInt ∧ v.toInt < 2 ^ 31) := by
  refine ⟨?_, readsInt32_iff⟩
  rw [overload_eq, convertToString_injective.eq_iff]
  split_ifs with small
  · exact iff_of_true rfl small
  · exact iff_of_false (by omega) small

/-- The largest `uint64_t` is written as -1, and 2^32 + 1 is read for an `int32_t`, as 1. -/
theorem overloads_of_casts :
    (Integer.uint64 18446744073709551615).int2string ≠ convertToString (Integer.uint64 18446744073709551615).value ∧
      ¬ ReadsInt32 (Model.RedisCpp.text "4294967297") (-1) := by
  constructor
  · rw [overload_eq, convertToString_injective.ne_iff]
    decide
  · intro reads
    have read : string2int32 (Model.RedisCpp.text "4294967297") (-1) = (true, 1) :=
      string2int32_eq.mpr ⟨4294967297, by decide +kernel, by decide⟩
    exact absurd ((reads.1 1).mp read) (by decide +kernel)

end CppRedis.Soundness.Integers
