import CppRedis.Machine.Crc
import CppRedis.Machine.Delimited
import CppRedis.Model.R3c.Utils
import CppRedis.Model.RedisClient.HashSlot

/-! # The slot of a key, in both clients

Both clients compute the check sum of the Redis cluster for the part of a key that counts. The marker keys of
the cluster client do not always have the slot of their key.
-/

namespace CppRedis.Soundness.KeySlots

open Machine Machine.Crc Machine.Delimited Model

/-- The check sum of the Redis cluster: CRC-16, bit by bit. -/
def xmodem (text : CppString) : BitVec 16 := serial 0x1021 0 text

/-- The part of a key that counts. -/
def effectiveKey (key : CppString) : CppString := effective 0x7B 0x7D key

theorem crc16Table_eq (byte : UInt8) : (RedisClient.crc16Table.getD byte.toNat 0).toBitVec = table 0x1021#16 byte := by
  have all : ∀ index < 256, (RedisClient.crc16Table.getD index 0).toBitVec = table 0x1021#16 (UInt8.ofNat index) := by
    decide +kernel
  have one := all byte.toNat byte.toNat_lt
  rwa [UInt8.ofNat_toNat] at one

theorem crc16tab_eq (byte : UInt8) : (R3c.crc16tab.getD byte.toNat 0).toBitVec = table 0x1021#16 byte := by
  have all : ∀ index < 256, (R3c.crc16tab.getD index 0).toBitVec = table 0x1021#16 (UInt8.ofNat index) := by
    decide +kernel
  have one := all byte.toNat byte.toNat_lt
  rwa [UInt8.ofNat_toNat] at one

/-- The low byte of what both clients look up, whatever the promoted byte has above it. -/
theorem index_low {v : ℕ} (wide : 16 ≤ v) (crc : BitVec 16) (byte : UInt8) (word : BitVec v)
    (promoted : ∀ index < 8, word.getLsbD index = byte.toBitVec.getLsbD index) :
    ((crc.setWidth v >>> 8) ^^^ word) &&& 255#v = (top crc ^^^ byte).toBitVec.setWidth v := by
  apply BitVec.eq_of_getLsbD_eq
  intro index inside
  have mask : (255#v).getLsbD index = decide (index < 8) := by
    rw [BitVec.getLsbD_ofNat, show (255 : ℕ) = 2 ^ 8 - 1 by rfl, Nat.testBit_two_pow_sub_one, decide_eq_true inside,
      Bool.true_and]
  rw [BitVec.getLsbD_and, BitVec.getLsbD_xor, mask, BitVec.getLsbD_ushiftRight, BitVec.getLsbD_setWidth,
    BitVec.getLsbD_setWidth, UInt8.toBitVec_xor, BitVec.getLsbD_xor, decide_eq_true inside, Bool.true_and, top,
    BitVec.getLsbD_setWidth, BitVec.getLsbD_ushiftRight]
  by_cases low : index < 8
  · rw [promoted index low, decide_eq_true low, decide_eq_true (by omega : 8 + index < v)]
    simp only [Bool.and_true, Bool.true_and]
  · rw [decide_eq_false low, Bool.and_false, Bool.false_and, Bool.false_xor, BitVec.getLsbD_of_ge _ _ (not_lt.mp low)]

theorem crc16Step_eq (crc : UInt16) (byte : UInt8) :
    (RedisClient.crc16Step crc byte).toBitVec = feedByte 0x1021 crc.toBitVec byte := by
  have low := index_low (le_refl 16) crc.toBitVec byte byte.toUInt16.toBitVec (by
    intro index low
    rw [UInt8.toBitVec_toUInt16, BitVec.getLsbD_setWidth, decide_eq_true (by omega : index < 16), Bool.true_and])
  rw [BitVec.setWidth_eq] at low
  have place := congrArg BitVec.toNat low
  rw [BitVec.toNat_setWidth_of_le (by decide)] at place
  have index : (((crc >>> 8) ^^^ byte.toUInt16) &&& 0x00FF).toNat = (top crc.toBitVec ^^^ byte).toNat := place
  rw [RedisClient.crc16Step, index, UInt16.toBitVec_xor, crc16Table_eq]
  rfl

/-- The sign of a `char` does not reach the low byte. -/
theorem crc16Index_eq (crc : UInt16) (byte : UInt8) :
    R3c.crc16Index crc byte = (top crc.toBitVec ^^^ byte).toBitVec.setWidth 32 := by
  apply index_low (by decide)
  intro index low
  rw [BitVec.getLsbD_signExtend, decide_eq_true (by omega : index < 32), Bool.true_and, if_pos low]

theorem r3c_crc16Step_eq (crc : UInt16) (byte : UInt8) :
    (R3c.crc16Step crc byte).toBitVec = feedByte 0x1021 crc.toBitVec byte := by
  have index : (R3c.crc16Index crc byte).toNat = (top crc.toBitVec ^^^ byte).toNat := by
    rw [crc16Index_eq, BitVec.toNat_setWidth_of_le (by decide)]
    rfl
  rw [R3c.crc16Step, index, UInt16.toBitVec_xor, crc16tab_eq]
  rfl

theorem foldl_eq_xmodem {step : UInt16 → UInt8 → UInt16}
    (one : ∀ crc byte, (step crc byte).toBitVec = feedByte 0x1021 crc.toBitVec byte) (text : CppString) :
    (text.foldl step 0).toBitVec = xmodem text := by
  rw [xmodem, serial_eq_foldl _ (by decide)]
  exact (List.foldl_hom UInt16.toBitVec fun crc byte => (one crc byte).symm).symm

theorem and_mask (crc : UInt16) : (crc &&& 0x3FFF).toNat = crc.toBitVec.toNat % 16384 := by
  rw [UInt16.toNat_and]
  exact Nat.and_two_pow_sub_one_eq_mod crc.toNat 14

theorem hashSlot_eq (key : CppString) :
    RedisClient.hashSlot key = (xmodem (effectiveKey key)).toNat % 16384 := by
  have text : ∀ text, (RedisClient.crc16 text &&& 16383).toNat = (xmodem text).toNat % 16384 := by
    intro text
    rw [← foldl_eq_xmodem crc16Step_eq]
    exact and_mask _
  rw [effectiveKey, effective_scan 0x7B 0x7D key rfl rfl, RedisClient.hashSlot]
  split_ifs
  · exact text _
  · exact text _
  · exact text _

/-- The slot of a text without its braces, as the cluster client computes it. -/
def slotOf (text : CppString) : ℕ := (R3c.crc16 text (R3c.toInt text.length) &&& 0x3FFF).toNat

theorem toInt_le (size : ℕ) : (R3c.toInt size).toNat ≤ size := by
  by_cases short : size < 2147483648
  · rw [R3c.toInt_of_lt short, Int.toNat_natCast]
  · have bound := @Int.bmod_le size 4294967296 (by omega)
    have large : ((4294967296 : ℕ) - 1 : ℤ) / 2 ≤ size := by omega
    exact Int.toNat_le.mpr (Int.le_trans bound large)

theorem keyHashSlot_eq (key : CppString) : R3c.keyHashSlot key = slotOf (effectiveKey key) := by
  have inside : ∀ (buf : CppString) (size : ℕ), size ≤ buf.length →
      (R3c.crc16 buf (R3c.toInt size) &&& 0x3FFF).toNat = slotOf (buf.take size) := by
    intro buf size bound
    rw [slotOf, R3c.crc16, R3c.crc16, List.length_take_of_le bound, List.take_take, min_eq_left (toInt_le size)]
  rw [effectiveKey, effective_scan 0x7B 0x7D key rfl rfl, R3c.keyHashSlot]
  split_ifs with unopened unclosed
  · rfl
  · rfl
  · apply inside
    have rest := (List.takeWhile_prefix (l := key.drop ((key.takeWhile (· ≠ 0x7B)).length + 1)) (· ≠ 0x7D)).length_le
    omega

theorem slotOf_eq {text : CppString} (short : text.length < 2147483648) :
    slotOf text = (xmodem text).toNat % 16384 := by
  rw [slotOf, R3c.crc16_whole text short, ← foldl_eq_xmodem r3c_crc16Step_eq]
  exact and_mask _

theorem effectiveKey_length_le (key : CppString) : (effectiveKey key).length ≤ key.length := by
  rw [effectiveKey, effective_scan 0x7B 0x7D key rfl rfl]
  split_ifs
  · exact le_rfl
  · exact le_rfl
  · exact (List.length_take_le' _ _).trans (by rw [List.length_drop]; exact Nat.sub_le _ _)

/-- Both clients send a key to the slot that its check sum has in the Redis cluster. -/
theorem hash_slots_agree (key : CppString) (short : key.length < 2147483648) :
    RedisClient.hashSlot key = R3c.keyHashSlot key ∧
      RedisClient.hashSlot key = (xmodem (effectiveKey key)).toNat % 16384 := by
  have slot := hashSlot_eq key
  rw [keyHashSlot_eq, slotOf_eq ((effectiveKey_length_le key).trans_lt short), slot]
  exact ⟨rfl, rfl⟩

-- `{a}b` and `a` have one slot.
example : R3c.keyHashSlot [0x7B, 0x61, 0x7D, 0x62] = R3c.keyHashSlot [0x61] := by decide +kernel

/-- The key `{a}b`, whose tag counts. -/
theorem hash_slots_agree_tagged :
    ([0x7B, 0x61, 0x7D, 0x62] : CppString).length < 2147483648 ∧
      RedisClient.hashSlot [0x7B, 0x61, 0x7D, 0x62] = R3c.keyHashSlot [0x7B, 0x61, 0x7D, 0x62] ∧
      RedisClient.hashSlot [0x7B, 0x61, 0x7D, 0x62] =
        (xmodem (effectiveKey [0x7B, 0x61, 0x7D, 0x62])).toNat % 16384 :=
  have short : ([0x7B, 0x61, 0x7D, 0x62] : CppString).length < 2147483648 := by decide
  ⟨short, hash_slots_agree _ short⟩

open R3c (markerKey)

theorem effectiveKey_of_unclosed {key : CppString} (unclosed : 0x7D ∉ key) : effectiveKey key = key :=
  effective_of_unclosed unclosed

/-- The tag of a marker ends at the first closing brace of the key, or behind the key. -/
theorem effectiveKey_marker {tag rest uid : CppString} (unclosed : 0x7D ∉ tag) :
    effectiveKey (0x7B :: (tag ++ 0x7D :: rest ++ uid)) =
      if tag = [] then 0x7B :: (tag ++ 0x7D :: rest ++ uid) else tag := by
  apply effective_of_tagged
  exact ⟨[], rest ++ uid, by rw [List.append_assoc, List.cons_append, List.nil_append], List.not_mem_nil, unclosed⟩

/-- A key has no closing brace, or what stands before its first one, or the whole marker if nothing does, has by
accident the slot of the part of the key that counts. -/
def SameSlot (key uid : CppString) : Prop :=
  0x7D ∉ key ∨ ∃ tag rest, key = tag ++ 0x7D :: rest ∧ 0x7D ∉ tag ∧
    slotOf (if tag = [] then markerKey key uid else tag) = slotOf (effectiveKey key)

/-- A key goes on behind the other one with a closing brace, and so does the other id. -/
def Overlaps (key uid other otherUid : CppString) : Prop :=
  ∃ between, other = key ++ 0x7D :: between ∧ uid = between ++ 0x7D :: otherUid

theorem keyHashSlot_marker_iff {key uid : CppString} (filled : key ≠ []) :
    R3c.keyHashSlot (markerKey key uid) = R3c.keyHashSlot key ↔ SameSlot key uid := by
  rw [keyHashSlot_eq, keyHashSlot_eq, SameSlot]
  by_cases closed : 0x7D ∈ key
  · obtain ⟨tag, rest, rfl, unclosed⟩ := List.eq_append_cons_of_mem closed
    have marker : markerKey (tag ++ 0x7D :: rest) uid = 0x7B :: (tag ++ 0x7D :: rest ++ 0x7D :: uid) := rfl
    rw [marker, effectiveKey_marker unclosed, ← marker]
    constructor
    · exact fun same => .inr ⟨tag, rest, rfl, unclosed, same⟩
    · rintro (absent | ⟨other, otherRest, same, absent, slots⟩)
      · exact absurd closed absent
      · have cut := congrArg (List.takeWhile (· ≠ 0x7D)) same
        rw [takeWhile_mark unclosed, takeWhile_mark absent] at cut
        subst cut
        exact slots
  · have tagged : effectiveKey (markerKey key uid) = key := by
      have tag := @effectiveKey_marker key [] uid closed
      rw [if_neg filled, List.append_assoc] at tag
      exact tag
    rw [tagged, effectiveKey_of_unclosed closed]
    exact iff_of_true rfl (.inl closed)

theorem markerKey_ne_iff {key uid other otherUid : CppString} (different : other ≠ key) :
    markerKey other otherUid ≠ markerKey key uid ↔
      ¬ Overlaps key uid other otherUid ∧ ¬ Overlaps other otherUid key uid := by
  rw [← not_or, not_iff_not, markerKey, markerKey, List.cons.injEq, eq_self, true_and, List.append_eq_append_iff]
  constructor
  · rintro (⟨between, rfl, rest⟩ | ⟨between, rfl, rest⟩)
    · cases between with
      | nil => exact absurd (List.append_nil other).symm different
      | cons brace between =>
        obtain ⟨rfl, tail⟩ := List.cons.inj rest
        exact .inr ⟨between, rfl, tail⟩
    · cases between with
      | nil => exact absurd (List.append_nil key) different
      | cons brace between =>
        obtain ⟨rfl, tail⟩ := List.cons.inj rest
        exact .inl ⟨between, rfl, tail⟩
  · rintro (⟨between, rfl, rfl⟩ | ⟨between, rfl, rfl⟩)
    · exact .inr ⟨0x7D :: between, rfl, rfl⟩
    · exact .inl ⟨0x7D :: between, rfl, rfl⟩

/-- A marker has the slot of its key, and two keys have two markers, in these cases and no others. -/
theorem marker_keys_iff {key : CppString} (uid : CppString) (filled : key ≠ []) :
    (R3c.keyHashSlot (markerKey key uid) = R3c.keyHashSlot key ↔ SameSlot key uid) ∧
      ∀ other otherUid, other ≠ key → (markerKey other otherUid ≠ markerKey key uid ↔
        ¬ Overlaps key uid other otherUid ∧ ¬ Overlaps other otherUid key uid) :=
  ⟨keyHashSlot_marker_iff filled, fun _ _ => markerKey_ne_iff⟩

/-- Nothing can go wrong with keys that hold no closing brace. -/
theorem marker_keys_unclosed {key uid other otherUid : CppString} (first : 0x7D ∉ key) (second : 0x7D ∉ other) :
    SameSlot key uid ∧ ¬ Overlaps key uid other otherUid ∧ ¬ Overlaps other otherUid key uid := by
  refine ⟨.inl first, ?_, ?_⟩
  · rintro ⟨between, rfl, -⟩
    exact second (List.mem_append_right _ List.mem_cons_self)
  · rintro ⟨between, rfl, -⟩
    exact first (List.mem_append_right _ List.mem_cons_self)

theorem marker_keys_plain :
    (R3c.keyHashSlot (markerKey [0x61] [0x75]) = R3c.keyHashSlot [0x61]) ∧
      markerKey [0x62] [0x75] ≠ markerKey [0x61] [0x75] := by
  have cases := @marker_keys_iff [0x61] [0x75] (List.cons_ne_nil _ _)
  have plain := @marker_keys_unclosed [0x61] [0x75] [0x62] [0x75] (by decide) (by decide)
  exact ⟨cases.1.mpr plain.1, (cases.2 [0x62] [0x75] (by decide)).mpr plain.2⟩

/-- A key with a hash tag, `{a}b`, has a marker in another slot, and `a` with `b}c` has the marker of `a}b` with `c`. -/
theorem marker_keys_braces :
    R3c.keyHashSlot (markerKey [0x7B, 0x61, 0x7D, 0x62] [0x75]) ≠ R3c.keyHashSlot [0x7B, 0x61, 0x7D, 0x62] ∧
      markerKey [0x61] [0x62, 0x7D, 0x63] = markerKey [0x61, 0x7D, 0x62] [0x63] :=
  ⟨by decide +kernel, rfl⟩

end CppRedis.Soundness.KeySlots
