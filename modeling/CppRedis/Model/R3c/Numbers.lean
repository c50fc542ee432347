import CppRedis.Model.RedisClient.Reply

/-! # Numbers in replies

`string2ll` and the functions `string2int`, from `utils.cpp`.
-/

namespace CppRedis.Model.R3c

open Machine RedisClient

/-- `string2ll`: nothing but a sign and digits, and no zero in front. -/
def string2ll (s : CppString) : Option ℤ :=
  let digits := if s.head? = some 0x2D then s.tail else s
  if s = [0x30] then some 0
  else if digits = [] ∨ digits.head? = some 0x30 ∨ digits.any (!isDigit ·) then none
  else if s.head? = some 0x2D then
    if 9223372036854775808 < digitsValue digits then none else some (-(digitsValue digits : ℤ))
  else if 9223372036854775807 < digitsValue digits then none
  else some (digitsValue digits)

/-- `string2int`, with the value that it gives to other texts. -/
def string2int (s : CppString) : ℤ := (string2ll s).getD (-1)

/-- `string2int` for an `int32_t`. -/
def string2int32 (s : CppString) : Int32 := Int32.ofInt (string2int s)

end CppRedis.Model.R3c
