import CppRedis.Model.RedisClient.SetArgs

/-! # The arguments of a command

The members of `CRedisCommand` that hold its arguments, and the functions of `RedisClient.cpp` that fill them. A
pointer to a word is the word itself, whether it is shared or copied.
-/

namespace CppRedis.Model.RedisClient

open Machine

/-- What goes wrong while arguments are set. -/
inductive Misset where
  /-- `new` of a negative number of elements. -/
  | badArrayLength
  /-- A vector is indexed past its end. -/
  | outOfRange
deriving DecidableEq, Repr

/-- `m_nArgs`, `m_nIdx`, `m_pszArgs` and `m_pnArgsLen`. Elements of the arrays are missing until they are assigned. -/
structure Arguments where
  strCmd : CppString
  nArgs : Int32 := 0
  nIdx : ℕ := 0
  pszArgs : List (Option CppString) := []
  pnArgsLen : List (Option ℕ) := []
deriving DecidableEq

namespace Arguments

def clearArgs (command : Arguments) : Arguments := { strCmd := command.strCmd }

def appendValue (command : Arguments) (strVal : CppString) : Arguments :=
  if command.nArgs.toInt ≤ command.nIdx then command
  else { command with
    pnArgsLen := command.pnArgsLen.set command.nIdx (some strVal.length)
    pszArgs := command.pszArgs.set command.nIdx (some strVal)
    nIdx := command.nIdx + 1 }

def initMemory (command : Arguments) (nArgs : Int32) : Except Misset Arguments :=
  if nArgs < 0 then .error .badArrayLength
  else
    let command := { command.clearArgs with
      nArgs := nArgs
      pszArgs := List.replicate nArgs.toInt.toNat none
      pnArgsLen := List.replicate nArgs.toInt.toNat none }
    .ok (command.appendValue command.strCmd)

/-- The loops over a vector or a set. -/
def appendValues (command : Arguments) (values : List CppString) : Arguments := values.foldl appendValue command

/-- The loops over a map. -/
def appendMap (command : Arguments) (mapArg : List (CppString × CppString)) : Arguments :=
  mapArg.foldl (fun command kvPair => (command.appendValue kvPair.1).appendValue kvPair.2) command

/-- The loops over two vectors, by the positions of the first. -/
def appendPairs (command : Arguments) : List CppString → List CppString → Except Misset Arguments
  | [], _ => .ok command
  | _ :: _, [] => .error .outOfRange
  | first :: vecArg1, second :: vecArg2 =>
      appendPairs ((command.appendValue first).appendValue second) vecArg1 vecArg2

/-- The overloads of `SetArgs`. A `size_t` becomes an `int` as it is passed to `InitMemory`. -/
def setArgs (command : Arguments) : SetArgs → Except Misset Arguments
  | .none => command.initMemory 1
  | .str strArg => do
      let command ← command.initMemory 2
      return command.appendValue strArg
  | .vec vecArg => do
      let command ← command.initMemory (Int32.ofNat (vecArg.length + 1))
      return command.appendValues vecArg
  | .strStr strArg1 strArg2 => do
      let command ← command.initMemory 3
      return (command.appendValue strArg1).appendValue strArg2
  | .strVec strArg1 vecArg2 => do
      let command ← command.initMemory (Int32.ofNat (vecArg2.length + 2))
      return (command.appendValue strArg1).appendValues vecArg2
  | .strSet strArg1 setArg2 => do
      let command ← command.initMemory (Int32.ofNat (setArg2.length + 2))
      return (command.appendValue strArg1).appendValues setArg2
  | .vecStr vecArg1 strArg2 =>
      if vecArg1 = [] then .ok command
      else do
        let command ← command.initMemory (Int32.ofNat (vecArg1.length + 2))
        return (command.appendValues vecArg1).appendValue strArg2
  | .vecVec vecArg1 vecArg2 =>
      if vecArg1.length ≠ vecArg2.length then .ok command
      else do
        let command ← command.initMemory (Int32.ofNat (vecArg1.length * 2 + 1))
        command.appendPairs vecArg1 vecArg2
  | .map mapArg => do
      let command ← command.initMemory (Int32.ofNat (mapArg.length * 2 + 1))
      return command.appendMap mapArg
  | .strMap strArg1 mapArg2 => do
      let command ← command.initMemory (Int32.ofNat (mapArg2.length * 2 + 2))
      return (command.appendValue strArg1).appendMap mapArg2
  | .strStrStr strArg1 strArg2 strArg3 => do
      let command ← command.initMemory 4
      return ((command.appendValue strArg1).appendValue strArg2).appendValue strArg3
  | .strStrVec strArg1 strArg2 vecArg3 => do
      let command ← command.initMemory (Int32.ofNat (vecArg3.length + 3))
      return ((command.appendValue strArg1).appendValue strArg2).appendValues vecArg3
  | .strVecVec strArg1 vecArg2 vecArg3 => do
      let command ← command.initMemory (Int32.ofNat (vecArg2.length * 2 + 2))
      (command.appendValue strArg1).appendPairs vecArg2 vecArg3
  | .strStrStrStr strArg1 strArg2 strArg3 strArg4 => do
      let command ← command.initMemory 5
      return (((command.appendValue strArg1).appendValue strArg2).appendValue strArg3).appendValue strArg4

/-- The code that `CmdRequest` and `CmdAppend` return by themselves, or else what they call hiredis with. -/
def handed (command : Arguments) (connected : Bool) :
    ReturnCode ⊕ (Int32 × List (Option CppString) × List (Option ℕ)) :=
  if command.nArgs ≤ 0 then .inl .paramErr
  else if !connected then .inl .rqstErr
  else .inr (command.nArgs, command.pszArgs, command.pnArgsLen)

end Arguments

end CppRedis.Model.RedisClient
