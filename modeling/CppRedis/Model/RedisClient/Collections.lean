import CppRedis.Model.RedisClient.Commands
import CppRedis.Model.RedisCpp.Methods

/-! # Replies for containers

`FetchMap`, and the methods of `CRedisClient` that collect replies in a container of the caller with code of their own:
`Keys`, and `Hmget` with a map. `Mget` is with the commands over several servers. A container that a method is given is
passed as it is before the call.
-/

namespace CppRedis.Model.RedisClient

open Machine RedisCpp

/-- The loop of `FetchMap`. It ends at an element that is no text, with what it has by then. -/
def fetchPairs (mapFv : ValueMap) : List RedisReply → ReturnCode × ValueMap
  | field :: value :: rest =>
      match fetchString field, fetchString value with
      | (.success, some strFld), (.success, some strVal) => fetchPairs (mapFv.insert strFld strVal) rest
      | (.success, some _), (nSubRet, _) => (nSubRet, mapFv)
      | (nSubRet, _), _ => (nSubRet, mapFv)
  | _ => (.success, mapFv)

def fetchMap : Fetch ValueMap
  | .array element =>
      if element.length % 2 ≠ 0 then (.replyErr, none)
      else let (nRet, mapFv) := fetchPairs (fun _ => none) element; (nRet, some mapFv)
  | _ => (.replyErr, none)

variable {σ : Type} (servers : Servers σ)

/-- The loop of `Hmget` over the fields and the values. -/
def insertValues (mapVal : ValueMap) : List CppString → List CppString → ValueMap
  | field :: fields, value :: vecVal =>
      insertValues (if value ≠ [] then mapVal.insert field value else mapVal) fields vecVal
  | _, _ => mapVal

/-- `Hmget` for a vector of fields, into a map. -/
def hmgetVec (strKey : CppString) (vecField : List CppString) (pmapVal : ValueMap) :
    Action σ (ReturnCode × ValueMap) := do
  let args ← setArgs (text "hmget") (.strVec strKey vecField)
  let (nRet, value) ← executeImpl servers args (hashSlot strKey) fetchStringArray
  let vecVal := value.getD []
  if nRet = .success then
    if vecVal ≠ [] ∧ vecField.length ≠ vecVal.length then return (.rqstErr, pmapVal)
    else return (.success, if vecVal ≠ [] then insertValues (fun _ => none) vecField vecVal else fun _ => none)
  else return (nRet, pmapVal)

/-- `Hmget` for a set of fields, into a map. -/
def hmgetSet (strKey : CppString) (setField : List CppString) (pmapVal : ValueMap) :
    Action σ (ReturnCode × ValueMap) := do
  let args ← setArgs (text "hmget") (.strSet strKey setField)
  let (nRet, value) ← executeImpl servers args (hashSlot strKey) fetchStringArray
  let vecVal := value.getD []
  if nRet = .success then
    if vecVal.length ≠ setField.length then return (.rqstErr, pmapVal)
    else return (.success, insertValues (fun _ => none) setField vecVal)
  else return (nRet, pmapVal)

/-- The loop of `Keys`. Each server gets the same command. -/
def keysFrom (command : ℕ) (vecVal pvecVal : List CppString) : List ℕ → Action σ (ReturnCode × List CppString)
  | [] => return (.success, pvecVal)
  | pRedisServ :: vecRedisServ => do
      let nRet ← servers.servRequest pRedisServ command
      if nRet ≠ .success then return (nRet, [])
      else
        let (nRet, value) ← fetchCommand fetchStringArray command
        let vecVal := value.getD vecVal
        if nRet ≠ .success then return (nRet, [])
        else keysFrom command vecVal (pvecVal ++ vecVal) vecRedisServ

def keys (strPattern : CppString) (pvecVal : List CppString) : Action σ (ReturnCode × List CppString) := do
  let command ← newCommand { args := [text "keys", strPattern] }
  keysFrom servers command [] pvecVal (← get).client.vecRedisServ

end CppRedis.Model.RedisClient
