import CppRedis.Model.Hiredis.Reader

/-! # Strings with a length

From `sds.c`: numbers and formats. An argument of a format is a pointer to a text or a word of 64 bits, of which a
conversion may read the half. `none` stands for an access past the end of a format, or for an argument of another kind.
-/

namespace CppRedis.Model.Hiredis

open Machine

/-- The loop of `sdsull2str`, with the digits as they are before they are reversed. -/
def reversedDigits (v : ℕ) : CppString :=
  if v < 10 then [48 + v.toUInt8] else (48 + (v % 10).toUInt8) :: reversedDigits (v / 10)

/-- `sdsull2str`. -/
def sdsull2str (v : UInt64) : CppString := (reversedDigits v.toNat).reverse

/-- `sdsll2str`. -/
def sdsll2str (value : Int64) : CppString :=
  let v := if value < 0 then (-value).toUInt64 else value.toUInt64
  (reversedDigits v.toNat ++ if value < 0 then [45] else []).reverse

/-- What stands behind a format. -/
inductive FmtArg where
  | text (str : CppString)
  | word (value : UInt64)
deriving DecidableEq, Repr

/-- A conversion of `sdscatfmt`, with its argument. -/
def FmtArg.convert (next : UInt8) : FmtArg → Option CppString
  | text str =>
      if next = 115 then some (cStr str)
      else if next = 83 then some str
      else none
  | word value =>
      if next = 105 then some (sdsll2str value.toUInt32.toInt32.toInt64)
      else if next = 73 then some (sdsll2str value.toInt64)
      else if next = 117 then some (sdsull2str value.toUInt32.toUInt64)
      else if next = 85 then some (sdsull2str value)
      else none

/-- `sdscatfmt`. -/
def sdscatfmt : CppString → CppString → List FmtArg → Option CppString
  | s, [], _ => some s
  | s, f :: fmt, args =>
      if f = 37 then
        match fmt with
        | [] => none
        | next :: fmt =>
            if next ∈ ([115, 83, 105, 73, 117, 85] : CppString) then
              match args with
              | [] => none
              | arg :: args => (arg.convert next).bind fun str => sdscatfmt (s ++ str) fmt args
            else sdscatfmt (s ++ [next]) fmt args
      else sdscatfmt (s ++ [f]) fmt args

end CppRedis.Model.Hiredis
