import CppRedis.Machine.Memory
import Mathlib.Algebra.Group.Int.Defs
import Mathlib.Algebra.Group.Nat.Defs
import Mathlib.Data.List.TakeWhile

/-! # Bytes behind a pointer

Little-endian fields and C strings. A C string ends at the first zero behind its pointer, wherever
that is: the object the pointer was made from does not bound the search.
-/

namespace CppRedis.Machine

/-- The bytes at and behind a `char*`. -/
abbrev Bytes := Memory UInt8

/-- The contents of a `std::string`. -/
abbrev CppString := List UInt8

/-- A little-endian 16-bit field. -/
def uint16At (bytes : Bytes) (position : ℕ) : ℕ :=
  (bytes position).toNat + 256 * (bytes (position + 1)).toNat

/-- A little-endian two's complement 32-bit field. -/
def int32At (bytes : Bytes) (position : ℕ) : ℤ :=
  Int.bmod (uint16At bytes position + 65536 * uint16At bytes (position + 2)) 4294967296

/-- The two bytes of a 16-bit value, low byte first. -/
def uint16Bytes (value : UInt16) : List UInt8 :=
  [UInt8.ofNat (value.toNat % 256), UInt8.ofNat (value.toNat / 256)]

/-- What a reader of `c_str()` sees: the bytes before the first zero. -/
def cStr (text : CppString) : CppString := text.takeWhile (· ≠ 0)

/-- Bytes up to the first zero, searching at most `fuel` of them. -/
def cStringWithin (bytes : Bytes) : ℕ → ℕ → CppString
  | 0, _ => []
  | fuel + 1, position =>
      if bytes position = 0 then [] else bytes position :: cStringWithin bytes fuel (position + 1)

/-- The number of addresses, the only bound on the search for the end of a C string. -/
def addressSpace : ℕ := 18446744073709551616

/-- The C string a `char*` points to. -/
def cString (bytes : Bytes) : CppString := cStringWithin bytes addressSpace 0

/-- A pointer to the first byte of a byte string. -/
def ofList (bytes : List UInt8) : Bytes := fun index => bytes[index]?.getD 0

theorem ofList_read (memory : Bytes) {position count index : ℕ} (inside : index < count) :
    ofList (memory.read position count) index = memory.offset position index := by
  have bound : index < (memory.read position count).length := by rwa [Memory.read_length]
  rw [ofList, List.getElem?_eq_getElem bound, Option.getD_some, Memory.getElem_read]
  rfl

/-- A C string is what lies before the first zero of the memory it is read from. -/
theorem cStringWithin_eq (bytes : Bytes) (fuel position : ℕ) :
    cStringWithin bytes fuel position = cStr (bytes.read position fuel) := by
  induction fuel generalizing position with
  | zero => rfl
  | succ fuel ih =>
    have first : bytes.read position (fuel + 1) = bytes position :: bytes.read (position + 1) fuel := by
      rw [Nat.add_comm fuel 1, Memory.read_add]
      rfl
    rw [first, cStringWithin, ih, cStr, cStr, List.takeWhile_cons]
    by_cases zero : bytes position = 0
    · rw [if_pos zero, if_neg (by rw [zero]; decide)]
    · rw [if_neg zero, if_pos (decide_eq_true zero)]

theorem cStr_cStr (text : CppString) : cStr (cStr text) = cStr text := List.takeWhile_idem

theorem cStr_cString (bytes : Bytes) : cStr (cString bytes) = cString bytes := by
  rw [cString, cStringWithin_eq, cStr_cStr]

/-- Nothing behind a zero belongs to the string. -/
theorem cStr_append_of_mem {text : CppString} (terminated : 0 ∈ text) (more : CppString) :
    cStr (text ++ more) = cStr text := by
  rw [cStr, cStr, List.takeWhile_append, if_neg]
  intro whole
  have all : text.takeWhile (· ≠ 0) = text := (List.takeWhile_prefix _).eq_of_length whole
  exact absurd (List.takeWhile_eq_self_iff.mp all 0 terminated) (by decide)

/-- A C string that ends within the first bytes is decided by them. -/
theorem cString_of_mem {bytes : Bytes} {count : ℕ} (bound : count ≤ addressSpace)
    (terminated : 0 ∈ bytes.read 0 count) : cString bytes = cStr (bytes.read 0 count) := by
  obtain ⟨more, space⟩ := Nat.exists_eq_add_of_le bound
  calc cString bytes = cStr (bytes.read 0 addressSpace) := cStringWithin_eq bytes addressSpace 0
    _ = cStr (bytes.read 0 count ++ bytes.read (0 + count) more) := by rw [space, Memory.read_add]
    _ = cStr (bytes.read 0 count) := cStr_append_of_mem terminated _

/-- A text without a zero is the C string at a pointer to it exactly when a zero follows. -/
theorem cString_eq_iff {bytes : Bytes} {text : CppString} (nonzero : 0 ∉ text)
    (front : bytes.read 0 text.length = text) (bound : text.length < addressSpace) :
    cString bytes = text ↔ bytes text.length = 0 := by
  obtain ⟨more, space⟩ := Nat.exists_eq_add_of_lt bound
  have whole : cString bytes = cStr (text ++ (bytes text.length :: bytes.read (text.length + 1) more)) := by
    have next : bytes.read text.length (1 + more) = bytes text.length :: bytes.read (text.length + 1) more := by
      rw [Memory.read_add]
      rfl
    rw [cString, cStringWithin_eq, space, Nat.add_assoc, Nat.add_comm more 1, Memory.read_add, front, Nat.zero_add,
      next]
  have all : ∀ byte ∈ text, decide (byte ≠ 0) = true := fun byte member =>
    decide_eq_true fun zero => nonzero (zero ▸ member)
  rw [whole, cStr, List.takeWhile_append_of_pos all, List.append_right_eq_self]
  by_cases zero : bytes text.length = 0
  · refine iff_of_true ?_ zero
    rw [List.takeWhile_cons, if_neg (by rw [zero]; decide)]
  · refine iff_of_false ?_ zero
    rw [List.takeWhile_cons, if_pos (decide_eq_true zero)]
    exact List.cons_ne_nil _ _

/-- Numbers below the modulus can be told from their balanced remainders. -/
theorem bmod_inj {first second modulus : ℕ} (small : first < modulus) (smaller : second < modulus)
    (same : Int.bmod first modulus = Int.bmod second modulus) : first = second := by
  have mod := congrArg (· % (modulus : ℤ)) same
  simp only [Int.bmod_emod] at mod
  rw [Int.emod_eq_of_lt (by omega) (by omega), Int.emod_eq_of_lt (by omega) (by omega)] at mod
  exact Int.ofNat_inj.mp mod

/-- A 32-bit field is its four bytes. -/
theorem int32At_eq_iff {bytes other : Bytes} {position : ℕ} :
    int32At bytes position = int32At other position ↔ bytes.read position 4 = other.read position 4 := by
  refine ⟨fun same => ?_, fun same => ?_⟩
  swap
  · have cells := (Memory.read_eq_read_iff ..).mp same
    unfold int32At uint16At
    rw [cells position (by omega) (by omega), cells (position + 1) (by omega) (by omega),
      cells (position + 2) (by omega) (by omega), cells (position + 2 + 1) (by omega) (by omega)]
  have small (memory : Bytes) (index : ℕ) : uint16At memory index < 65536 := by
    have low := (memory index).toNat_lt
    have high := (memory (index + 1)).toNat_lt
    simp only [uint16At]
    omega
  have value : uint16At bytes position + 65536 * uint16At bytes (position + 2) =
      uint16At other position + 65536 * uint16At other (position + 2) := by
    have halves := And.intro (small bytes position) (small bytes (position + 2))
    have otherHalves := And.intro (small other position) (small other (position + 2))
    exact bmod_inj (by omega) (by omega) same
  have cells : (bytes position).toNat = (other position).toNat ∧
      (bytes (position + 1)).toNat = (other (position + 1)).toNat ∧
      (bytes (position + 2)).toNat = (other (position + 2)).toNat ∧
      (bytes (position + 2 + 1)).toNat = (other (position + 2 + 1)).toNat := by
    have first := (bytes position).toNat_lt
    have second := (bytes (position + 1)).toNat_lt
    have third := (bytes (position + 2)).toNat_lt
    have otherFirst := (other position).toNat_lt
    have otherSecond := (other (position + 1)).toNat_lt
    have otherThird := (other (position + 2)).toNat_lt
    unfold uint16At at value
    omega
  simp only [UInt8.toNat_inj] at cells
  obtain ⟨first, second, third, fourth⟩ := cells
  apply (Memory.read_eq_read_iff ..).mpr
  intro index lower upper
  obtain rfl | rfl | rfl | rfl : index = position ∨ index = position + 1 ∨ index = position + 2 ∨
      index = position + 2 + 1 := by omega
  · exact first
  · exact second
  · exact third
  · exact fourth

/-- A 16-bit value at the front of a byte string reads back. -/
theorem uint16At_ofList (value : UInt16) (rest : List UInt8) :
    uint16At (ofList (uint16Bytes value ++ rest)) 0 = value.toNat := by
  have small : value.toNat < 65536 := value.toNat_lt
  have low : ofList (uint16Bytes value ++ rest) 0 = UInt8.ofNat (value.toNat % 256) := rfl
  have high : ofList (uint16Bytes value ++ rest) (0 + 1) = UInt8.ofNat (value.toNat / 256) := rfl
  rw [uint16At, low, high]
  simp only [UInt8.toNat_ofNat']
  omega

/-- A 16-bit value written to memory reads back. -/
theorem uint16At_write (bytes : Bytes) (value : UInt16) :
    (uint16At (bytes.write 0 (uint16Bytes value)) 0).toUInt16 = value := by
  have small : value.toNat < 65536 := value.toNat_lt
  have low : (bytes.write 0 (uint16Bytes value)) 0 = UInt8.ofNat (value.toNat % 256) := rfl
  have high : (bytes.write 0 (uint16Bytes value)) (0 + 1) = UInt8.ofNat (value.toNat / 256) := rfl
  rw [uint16At, low, high]
  apply UInt16.toNat_inj.mp
  simp only [UInt8.toNat_ofNat', UInt16.toNat_ofNat', Nat.toUInt16]
  omega

end CppRedis.Machine
