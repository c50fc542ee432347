import CppRedis.Model.RedisCpp.CRedisConn

/-! # Integers and their texts

`digits10`, `ll2string`, `string2ll` and the overloads of `int2string` and `string2int`, from `utils.cpp`, step by
step. Casts, and the product by which `string2ll` makes a number negative, are taken modulo powers of two.
-/

namespace CppRedis.Model.R3c.Utils

open Machine RedisCpp

/-- The table of `ll2string`, with two digits for each number below a hundred. -/
def digits : CppString :=
  text "0001020304050607080910111213141516171819" ++
  text "2021222324252627282930313233343536373839" ++
  text "4041424344454647484950515253545556575859" ++
  text "6061626364656667686970717273747576777879" ++
  text "8081828384858687888990919293949596979899"

def digits10 (v : ℕ) : ℕ :=
  if v < 10 then 1
  else if v < 100 then 2
  else if v < 1000 then 3
  else if v < 1000000000000 then
    if v < 100000000 then
      if v < 1000000 then
        if v < 10000 then 4 else 5 + (decide (v ≥ 100000)).toNat
      else 7 + (decide (v ≥ 10000000)).toNat
    else if v < 10000000000 then 9 + (decide (v ≥ 1000000000)).toNat
    else 11 + (decide (v ≥ 100000000000)).toNat
  else 12 + digits10 (v / 1000000000000)
termination_by v
decreasing_by omega

/-- The `unsigned long long` that `ll2string` works with. -/
def magnitude (svalue : Int64) : UInt64 :=
  if svalue < 0 then
    if svalue ≠ Int64.minValue then (-svalue).toUInt64 else Int64.maxValue.toUInt64 + 1
  else svalue.toUInt64

/-- The last one or two digits. -/
def writeLast (value next : ℕ) (dst : CppString) : CppString :=
  if value < 10 then dst.set next (48 + value.toUInt8)
  else (dst.set next (digits.getD (value * 2 + 1) 0)).set (next - 1) (digits.getD (value * 2) 0)

/-- The loop of `ll2string`, backwards from a position, and the last digits. -/
def writePairs (value next : ℕ) (dst : CppString) : CppString :=
  if 100 ≤ value then
    let i := value % 100 * 2
    writePairs (value / 100) (next - 2) ((dst.set next (digits.getD (i + 1) 0)).set (next - 1) (digits.getD i 0))
  else writeLast value next dst
termination_by value
decreasing_by omega

/-- `ll2string`: the length, zero when the buffer is too small, and the buffer. -/
def ll2string (dst : CppString) (svalue : Int64) : ℕ × CppString :=
  let value := (magnitude svalue).toNat
  let negative := decide (svalue < 0)
  let length := digits10 value + negative.toNat
  if length ≥ dst.length then (0, dst)
  else
    let dst := writePairs value (length - 1) (dst.set length 0)
    (length, if negative then dst.set 0 45 else dst)

/-- The loop of `string2ll` over the digits, and what it leaves; `none` where it would overflow. -/
def readDigits (v : UInt64) : CppString → Option (UInt64 × CppString)
  | [] => some (v, [])
  | p :: rest =>
      if 48 ≤ p ∧ p ≤ 57 then
        if v > 18446744073709551615 / 10 then none
        else if v * 10 > 18446744073709551615 - (p - 48).toUInt64 then none
        else readDigits (v * 10 + (p - 48).toUInt64) rest
      else some (v, p :: rest)

/-- The end of `string2ll`. -/
def signed (negative : Bool) (v : UInt64) : Option Int64 :=
  if negative then
    if v > (-(Int64.minValue + 1)).toUInt64 + 1 then none else some (v.toInt64 * -1)
  else if v > Int64.maxValue.toUInt64 then none
  else some v.toInt64

/-- `string2ll` behind the sign. -/
def readNumber (negative : Bool) : CppString → Option Int64
  | [] => none
  | first :: rest =>
      if 49 ≤ first ∧ first ≤ 57 then
        match readDigits (first - 48).toUInt64 rest with
        | some (v, []) => signed negative v
        | _ => none
      else none

/-- `string2ll`; `none` where it returns zero. -/
def string2ll (s : CppString) : Option Int64 :=
  if s = [] then none
  else if s = [48] then some 0
  else if s.head? = some 45 then readNumber true s.tail
  else readNumber false s

/-- `int2string(int64_t)`. The buffer has two bytes more than the longest text of an unsigned number. -/
def int2string (n : Int64) : CppString :=
  let (len, str) := ll2string (List.replicate 22 0) n
  str.take len

/-- `string2int` for an `int64_t`: whether the text is read, and the value. -/
def string2int (s : CppString) (errval : Int64) : Bool × Int64 :=
  match string2ll s with
  | some llval => (true, llval)
  | none => (false, errval)

def int2stringInt32 (n : Int32) : CppString := int2string n.toInt64

def int2stringInt16 (n : Int16) : CppString := int2string n.toInt64

def int2stringUInt64 (n : UInt64) : CppString := int2string n.toInt64

def int2stringUInt32 (n : UInt32) : CppString := int2string n.toUInt64.toInt64

def int2stringUInt16 (n : UInt16) : CppString := int2stringUInt64 n.toUInt64

/-- `string2int` for an `int32_t`. -/
def string2int32 (s : CppString) (errval : Int32) : Bool × Int32 :=
  let (read, val64) := string2int s errval.toInt64
  if read then (true, val64.toInt32) else (false, errval)

/-- An argument of `int2string`, by its overload. -/
inductive Integer where
  | int64 (n : Int64)
  | int32 (n : Int32)
  | int16 (n : Int16)
  | uint64 (n : UInt64)
  | uint32 (n : UInt32)
  | uint16 (n : UInt16)
deriving DecidableEq, Repr

namespace Integer

def int2string : Integer → CppString
  | int64 n => Utils.int2string n
  | int32 n => int2stringInt32 n
  | int16 n => int2stringInt16 n
  | uint64 n => int2stringUInt64 n
  | uint32 n => int2stringUInt32 n
  | uint16 n => int2stringUInt16 n

/-- The mathematical integer. -/
def value : Integer → ℤ
  | int64 n => n.toInt
  | int32 n => n.toInt
  | int16 n => n.toInt
  | uint64 n => n.toNat
  | uint32 n => n.toNat
  | uint16 n => n.toNat

end Integer

end CppRedis.Model.R3c.Utils
