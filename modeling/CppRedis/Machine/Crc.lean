import Mathlib.Data.List.Basic

/-! # Cyclic redundancy checks

A remainder fed with the bits of a message, most significant bit first and nothing reflected. Feeding is
linear in exclusive or, so a byte can be fed in one step, with the remainder that it leaves from zero taken
from a table.
-/

namespace CppRedis.Machine.Crc

variable {w : ℕ} (poly : BitVec w)

/-- One bit of a message enters the remainder. -/
def feed (crc : BitVec w) (bit : Bool) : BitVec w :=
  if crc.getMsbD 0 ^^ bit then (crc <<< 1) ^^^ poly else crc <<< 1

/-- The leading bits of a word. -/
def leading (word : BitVec w) (count : ℕ) : List Bool := (List.range count).map word.getMsbD

/-- The bits of a byte, most significant first. -/
def bits (byte : UInt8) : List Bool := leading byte.toBitVec 8

/-- A message enters the remainder bit by bit. -/
def serial (crc : BitVec w) (message : List UInt8) : BitVec w := (message.flatMap bits).foldl (feed poly) crc

/-- What a byte leaves of a zero remainder. -/
def table (byte : UInt8) : BitVec w := (bits byte).foldl (feed poly) 0

/-- The leading byte of a remainder. -/
def top (crc : BitVec w) : UInt8 := ⟨(crc >>> (w - 8)).setWidth 8⟩

/-- A byte enters the remainder in one step. -/
def feedByte (crc : BitVec w) (byte : UInt8) : BitVec w := (crc <<< 8) ^^^ table poly (top crc ^^^ byte)

theorem feed_xor (left right : BitVec w) (bit more : Bool) :
    feed poly (left ^^^ right) (bit ^^ more) = feed poly left bit ^^^ feed poly right more := by
  have shift : (left ^^^ right) <<< 1 = (left <<< 1) ^^^ (right <<< 1) := BitVec.shiftLeft_xor_distrib ..
  have first : (left ^^^ right).getMsbD 0 = (left.getMsbD 0 ^^ right.getMsbD 0) := BitVec.getMsbD_xor
  rw [feed, feed, feed, shift, first]
  cases left.getMsbD 0 <;> cases right.getMsbD 0 <;> cases bit <;> cases more <;>
    simp only [Bool.xor_true, Bool.xor_false, Bool.not_true, Bool.not_false, Bool.false_eq_true, ↓reduceIte] <;>
    grind

theorem foldl_feed_xor (left right : BitVec w) (bits more : List Bool) (same : bits.length = more.length) :
    (bits.zipWith xor more).foldl (feed poly) (left ^^^ right) =
      bits.foldl (feed poly) left ^^^ more.foldl (feed poly) right := by
  induction bits generalizing left right more with
  | nil =>
    obtain rfl := List.length_eq_zero_iff.mp same.symm
    rfl
  | cons bit bits ih =>
    cases more with
    | nil => cases same
    | cons first more =>
      rw [List.zipWith_cons_cons, List.foldl_cons, List.foldl_cons, List.foldl_cons, feed_xor]
      exact ih _ _ more (Nat.succ.inj same)

/-- A remainder that is fed its own leading bits only moves up. -/
theorem foldl_feed_leading (crc : BitVec w) (count : ℕ) :
    (leading crc count).foldl (feed poly) crc = crc <<< count := by
  induction count with
  | zero => rw [leading, List.range_zero, List.map_nil, List.foldl_nil, BitVec.shiftLeft_zero]
  | succ count ih =>
    have rest : leading crc (count + 1) = leading crc count ++ [crc.getMsbD count] := by
      rw [leading, List.range_succ, List.map_append]
      rfl
    rw [rest, List.foldl_append, ih, List.foldl_cons, List.foldl_nil, feed]
    have first : (crc <<< count).getMsbD 0 = crc.getMsbD count := by
      rw [BitVec.getMsbD_shiftLeft, Nat.zero_add]
    rw [first, Bool.xor_self, if_neg Bool.false_ne_true, BitVec.shiftLeft_add]

theorem bits_length (byte : UInt8) : (bits byte).length = 8 := by
  rw [bits, leading, List.length_map, List.length_range]

theorem bits_xor (left right : UInt8) : bits (left ^^^ right) = (bits left).zipWith xor (bits right) := by
  rw [bits, bits, bits, leading, leading, leading, List.zipWith_map, List.zipWith_self]
  apply List.map_congr_left
  intro index _
  rw [UInt8.toBitVec_xor, BitVec.getMsbD_xor]

theorem bits_top (wide : 8 ≤ w) (crc : BitVec w) : bits (top crc) = leading crc 8 := by
  apply List.map_congr_left
  intro index inside
  have bound : index < 8 := List.mem_range.mp inside
  have inside : index + w - 8 < w := by omega
  have past : ¬ index + w - 8 < w - 8 := by omega
  have place : index + w - 8 - (w - 8) = index := by omega
  rw [top, BitVec.getMsbD_setWidth, BitVec.getMsbD_ushiftRight, decide_eq_true inside, decide_eq_false past, place,
    Nat.sub_eq_zero_of_le wide, decide_eq_true (Nat.zero_le index)]
  rfl

theorem foldl_feed_bits (wide : 8 ≤ w) (crc : BitVec w) (byte : UInt8) :
    (bits byte).foldl (feed poly) crc = feedByte poly crc byte := by
  have split : bits byte = (bits (top crc)).zipWith xor (bits (top crc ^^^ byte)) := by
    rw [← bits_xor, ← UInt8.xor_assoc, UInt8.xor_self, UInt8.zero_xor]
  have zero : crc = crc ^^^ 0 := BitVec.xor_zero.symm
  calc
    (bits byte).foldl (feed poly) crc =
        ((bits (top crc)).zipWith xor (bits (top crc ^^^ byte))).foldl (feed poly) (crc ^^^ 0) := by
      rw [← split, ← zero]
    _ = (bits (top crc)).foldl (feed poly) crc ^^^ table poly (top crc ^^^ byte) :=
      foldl_feed_xor poly _ _ _ _ (by rw [bits_length, bits_length])
    _ = feedByte poly crc byte := by rw [bits_top wide, foldl_feed_leading, feedByte]

/-- Bit by bit and byte by byte lead to the same remainder. -/
theorem serial_eq_foldl (wide : 8 ≤ w) (crc : BitVec w) (message : List UInt8) :
    serial poly crc message = message.foldl (feedByte poly) crc := by
  induction message generalizing crc with
  | nil => rfl
  | cons byte message ih =>
    rw [List.foldl_cons, ← ih, ← foldl_feed_bits poly wide, serial, serial, List.flatMap_cons, List.foldl_append]

end CppRedis.Machine.Crc
