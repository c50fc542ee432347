import CppRedis.Model.RedisCpp.CRedisConn
import CppRedis.Machine.Program

/-! # Return codes and replies

From `redis_client/src/RedisClient.hpp` and `.cpp`: the `RC_` codes, the functions that take a value
out of a reply, and the functions that turn the code of one into another. A function that assigns through
a pointer returns what it assigns.
-/

namespace CppRedis.Model.RedisClient

open Machine RedisCpp

/-- The `RC_` codes. -/
inductive ReturnCode where
  | resultEof
  | noEffect
  | objNotExist
  | objExist
  | partSuccess
  | success
  | paramErr
  | replyErr
  | rqstErr
  | noResource
  | pipelineErr
  | notSupport
  | slotChanged
deriving DecidableEq, Repr

def ReturnCode.value : ReturnCode → ℤ
  | .resultEof => 5
  | .noEffect => 4
  | .objNotExist => 3
  | .objExist => 2
  | .partSuccess => 1
  | .success => 0
  | .paramErr => -1
  | .replyErr => -2
  | .rqstErr => -3
  | .noResource => -4
  | .pipelineErr => -5
  | .notSupport => -6
  | .slotChanged => -100

/-- Pointers and positions that the code follows without a test. -/
inductive Fault where
  /-- `ServRequest` on a null `CRedisServer`. -/
  | nullServer
  /-- A field of a null `redisReply`. -/
  | nullReply
  /-- A null `str` or `element` of a reply of another type. -/
  | nullField
  /-- An element past the end of a vector. -/
  | outOfRange
deriving DecidableEq, Repr

/-- `reply->integer`, zero for the other types. -/
def integerField : RedisReply → ℤ
  | .integer value => value
  | _ => 0

/-- A `long` or `long long` assigned to an `int`. -/
def toInt (value : ℤ) : ℤ := value.bmod (2 ^ 32)

theorem toInt_of_lt {value : ℤ} (low : -2147483648 ≤ value) (high : value < 2147483648) : toInt value = value :=
  Int.bmod_eq_of_le (by omega) (by omega)

/-- `ConvertToString(long)`. -/
def convertToString (value : ℤ) : CppString :=
  (if value < 0 then text "-" else []) ++ (Nat.toDigits 10 value.natAbs).map fun digit => digit.toNat.toUInt8

def isDigit (byte : UInt8) : Bool := 48 ≤ byte && byte ≤ 57

/-- The number that decimal digits write. -/
def digitsValue (digits : CppString) : ℕ := digits.foldl (fun value digit => 10 * value + (digit.toNat - 48)) 0

/-- The number at the start of a text, behind blanks and a sign. -/
def leadingNumber (str : CppString) : ℤ :=
  match str.dropWhile fun byte => byte = 32 || (9 ≤ byte && byte ≤ 13) with
  | 45 :: rest => -(digitsValue (rest.takeWhile isDigit) : ℤ)
  | 43 :: rest => digitsValue (rest.takeWhile isDigit)
  | rest => digitsValue (rest.takeWhile isDigit)

/-- `strtol` to base ten, which stops at the ends of the range of a `long`. -/
def strtol (str : CppString) : ℤ := max (-9223372036854775808) (min 9223372036854775807 (leadingNumber str))

/-- `atoi`, which is `(int) strtol`. -/
def atoi (str : CppString) : ℤ := toInt (strtol str)

theorem strtol_of_lt {str : CppString} (low : -9223372036854775808 ≤ leadingNumber str)
    (high : leadingNumber str < 9223372036854775808) : strtol str = leadingNumber str := by
  rw [strtol]
  omega

/-- A number that an `int` holds is read as it is. -/
theorem atoi_of_lt {str : CppString} (low : -2147483648 ≤ leadingNumber str)
    (high : leadingNumber str < 2147483648) : atoi str = leadingNumber str := by
  rw [atoi, strtol_of_lt (by omega) (by omega), toInt_of_lt low high]

-- A time in milliseconds does not fit.
example : atoi (text "1464662426768") = 78578832 := by decide +kernel

/-- What `TFuncFetch` assigns, with its code. -/
abbrev Fetch (α : Type) := RedisReply → ReturnCode × Option α

def fetchInteger : Fetch ℤ
  | .integer value => (.success, some value)
  | .nil => (.objNotExist, none)
  | _ => (.replyErr, none)

def fetchString : Fetch CppString
  | .string str | .status str => (.success, some str)
  | .nil => (.success, some [])
  | _ => (.replyErr, none)

/-- `FetchIntegerArray`. It asks for an integer reply, which has no elements. -/
def fetchIntegerArray : Fetch (List ℤ)
  | .integer _ => (.success, some [])
  | _ => (.replyErr, none)

/-- The loop of `FetchStringArray`. -/
def fetchStrings : List RedisReply → ReturnCode × List CppString
  | [] => (.success, [])
  | reply :: rest =>
      let (nRet, vecStrVal) := fetchStrings rest
      match fetchString reply with
      | (.success, some strVal) => (nRet, strVal :: vecStrVal)
      | _ => (.partSuccess, vecStrVal)

def fetchStringArray : Fetch (List CppString)
  | .array element => let (nRet, vecStrVal) := fetchStrings element; (nRet, some vecStrVal)
  | .nil => (.success, some [])
  | _ => (.replyErr, none)

/-- `SlotRegion`. Servers are named by their addresses. -/
structure SlotRegion where
  nStartSlot : ℤ
  nEndSlot : ℤ
  strHost : CppString
  nPort : ℤ
  pRedisServ : Option ℕ := none
deriving DecidableEq, Repr

/-- One round of the loop of `FetchSlot`. -/
def fetchRegion : RedisReply → Except Fault (Option SlotRegion)
  | .array (start :: stop :: .array (host :: port :: _) :: _) =>
      match host.str? with
      | none => .error .nullField
      | some str =>
          .ok (some {
            nStartSlot := toInt (integerField start), nEndSlot := toInt (integerField stop)
            strHost := cStr str, nPort := toInt (integerField port) })
  | .array (_ :: _ :: _ :: _) => .error .nullField
  | _ => .ok none

/-- The loop of `FetchSlot`; `none` for `RC_REPLY_ERR`. -/
def fetchRegions : List RedisReply → Except Fault (Option (List SlotRegion))
  | [] => .ok (some [])
  | reply :: rest => do
      let some slotReg ← fetchRegion reply | return none
      return (← fetchRegions rest).map (slotReg :: ·)

/-- `FetchSlot`, as far as its result is used: the regions when it succeeds. -/
def fetchSlot : RedisReply → Except Fault (Option (List SlotRegion))
  | .array element => fetchRegions element
  | _ => .ok none

/-- `TFuncConvert`: no conversion, `IntResConv` or `StuResConv`. -/
inductive Convert where
  | default
  | intRes (nConvRet : ReturnCode) (nVal : ℤ)
  | stuRes (strVal : CppString)
deriving DecidableEq, Repr

/-- `StuResConv()`. -/
def Convert.ok : Convert := .stuRes (text "OK")

def Convert.apply (nRet : ReturnCode) (reply : RedisReply) : Convert → Except Fault ReturnCode
  | .default => .ok nRet
  | .intRes nConvRet nVal => .ok (if nRet = .success ∧ integerField reply = nVal then nConvRet else nRet)
  | .stuRes strVal =>
      if nRet = .success then
        match reply.str? with
        | none => .error .nullField
        | some str => .ok (if strVal ≠ cStr str then .replyErr else nRet)
      else .ok nRet

/-- `CRedisCommand::FetchResult`. -/
def fetchResult {α : Type} (funcFetch : Fetch α) (funcConv : Convert) :
    Option RedisReply → Except Fault (ReturnCode × Option α)
  | none => .error .nullReply
  | some reply => do
      let (nRet, value) := funcFetch reply
      return (← funcConv.apply nRet reply, value)

/-- `CRedisCommand::IsMovedErr`. -/
def isMovedErr : Option RedisReply → Bool
  | some (.error str) => str.take 5 = text "MOVED"
  | _ => false

end CppRedis.Model.RedisClient
