import CppRedis.Model.RedisClient.Reply

/-! # The words of a command

The overloads of `CRedisCommand::SetArgs`, by the types of their arguments. A set or a map is the list of
its elements in order. The words begin with the command itself; without words `m_nArgs` is zero.
-/

namespace CppRedis.Model.RedisClient

open Machine

/-- The arguments of an overload of `SetArgs`. -/
inductive SetArgs where
  | none
  | str (strArg : CppString)
  | vec (vecArg : List CppString)
  | strStr (strArg1 strArg2 : CppString)
  | strVec (strArg1 : CppString) (vecArg2 : List CppString)
  | strSet (strArg1 : CppString) (setArg2 : List CppString)
  | vecStr (vecArg1 : List CppString) (strArg2 : CppString)
  | vecVec (vecArg1 vecArg2 : List CppString)
  | map (mapArg : List (CppString × CppString))
  | strMap (strArg1 : CppString) (mapArg2 : List (CppString × CppString))
  | strStrStr (strArg1 strArg2 strArg3 : CppString)
  | strStrVec (strArg1 strArg2 : CppString) (vecArg3 : List CppString)
  | strVecVec (strArg1 : CppString) (vecArg2 vecArg3 : List CppString)
  | strStrStrStr (strArg1 strArg2 strArg3 strArg4 : CppString)

/-- Two vectors, one element of each in turn. -/
def interleave : List CppString → List CppString → List CppString
  | first :: vecArg1, second :: vecArg2 => first :: second :: interleave vecArg1 vecArg2
  | _, _ => []

namespace SetArgs

/-- The words; an error when a vector is indexed past its end. -/
def words (strCmd : CppString) : SetArgs → Except Fault (List CppString)
  | .none => .ok [strCmd]
  | .str strArg => .ok [strCmd, strArg]
  | .vec vecArg => .ok (strCmd :: vecArg)
  | .strStr strArg1 strArg2 => .ok [strCmd, strArg1, strArg2]
  | .strVec strArg1 vecArg2 => .ok (strCmd :: strArg1 :: vecArg2)
  | .strSet strArg1 setArg2 => .ok (strCmd :: strArg1 :: setArg2)
  | .vecStr vecArg1 strArg2 => .ok (if vecArg1 = [] then [] else strCmd :: (vecArg1 ++ [strArg2]))
  | .vecVec vecArg1 vecArg2 =>
      .ok (if vecArg1.length ≠ vecArg2.length then [] else strCmd :: interleave vecArg1 vecArg2)
  | .map mapArg => .ok (strCmd :: mapArg.flatMap fun kvPair => [kvPair.1, kvPair.2])
  | .strMap strArg1 mapArg2 => .ok (strCmd :: strArg1 :: mapArg2.flatMap fun kvPair => [kvPair.1, kvPair.2])
  | .strStrStr strArg1 strArg2 strArg3 => .ok [strCmd, strArg1, strArg2, strArg3]
  | .strStrVec strArg1 strArg2 vecArg3 => .ok (strCmd :: strArg1 :: strArg2 :: vecArg3)
  | .strVecVec strArg1 vecArg2 vecArg3 =>
      if vecArg3.length < vecArg2.length then .error .outOfRange
      else .ok (strCmd :: strArg1 :: interleave vecArg2 vecArg3)
  | .strStrStrStr strArg1 strArg2 strArg3 strArg4 => .ok [strCmd, strArg1, strArg2, strArg3, strArg4]

/-- The overloads that methods with a pipeline use. -/
def pipelined : SetArgs → Bool
  | .vec _ | .strSet _ _ | .vecStr _ _ | .vecVec _ _ | .map _ => false
  | _ => true

/-- A queued command always has its name. -/
theorem words_ne_nil {strCmd : CppString} {arguments : SetArgs} (queued : arguments.pipelined = true)
    {args : List CppString} (set : arguments.words strCmd = .ok args) : args ≠ [] := by
  rintro rfl
  cases arguments with
  | vec _ | strSet _ _ | vecStr _ _ | vecVec _ _ | map _ => cases queued
  | strVecVec strArg1 vecArg2 vecArg3 =>
    simp only [words] at set
    split_ifs at set
    cases set
  | _ => cases set

end SetArgs

end CppRedis.Model.RedisClient
