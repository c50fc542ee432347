import CppRedis.Model.RedisClient.Client
import CppRedis.Model.RedisClient.SetArgs

/-! # Commands over several servers

The methods of `CRedisClient` that make up for commands over keys of different servers, `Mget`, `Mset`,
`Rename` and `Renamenx`, and the methods they call. `CreatePipeline` never fails, and a command that is
queued reports success, so their loops over keys run to the end.
-/

namespace CppRedis.Model.RedisClient

open Machine RedisCpp

variable {σ : Type} (servers : Servers σ)

/-- `SetArgs`, where it may index a vector past its end. -/
def setArgs (strCmd : CppString) (arguments : SetArgs) : Action σ (List CppString) :=
  match arguments.words strCmd with
  | .ok args => return args
  | .error fault => throw fault

def del (strKey : CppString) : Action σ (ReturnCode × Option ℤ) :=
  executeImpl servers [text "del", strKey] (hashSlot strKey) fetchInteger

def dump (strKey : CppString) : Action σ (ReturnCode × Option CppString) :=
  executeImpl servers [text "dump", strKey] (hashSlot strKey) fetchString

def exists_ (strKey : CppString) : Action σ (ReturnCode × Option ℤ) :=
  executeImpl servers [text "exists", strKey] (hashSlot strKey) fetchInteger

/-- `Pttl`, where a `long` has so many bits. What the other methods take for a `long` is at most one. -/
def pttl (longBits : ℕ) (strKey : CppString) : Action σ (ReturnCode × Option ℤ) := do
  let (nRet, nVal) ← executeImpl servers [text "pttl", strKey] (hashSlot strKey) fetchInteger
  return (nRet, nVal.map fun nVal => nVal.bmod (2 ^ longBits))

def restore (strKey : CppString) (nTtl : ℤ) (strVal : CppString) : Action σ (ReturnCode × Option CppString) :=
  executeImpl servers [text "restore", strKey, convertToString nTtl, strVal] (hashSlot strKey) fetchString .ok

/-- `Get` with a pipeline, for each key. -/
def queueGets (ppLine : CRedisPipeline) : List CppString → Action σ CRedisPipeline
  | [] => return ppLine
  | strKey :: vecKey => do
      let ppLine ← queueImpl [text "get", strKey] (hashSlot strKey) ppLine
      queueGets ppLine vecKey

/-- `Set` with a pipeline, for each key and the value at its position. -/
def queueSets (ppLine : CRedisPipeline) : List CppString → List CppString → Action σ CRedisPipeline
  | [], _ => return ppLine
  | _ :: _, [] => throw .outOfRange
  | strKey :: vecKey, strVal :: vecVal => do
      let ppLine ← queueImpl [text "set", strKey, strVal] (hashSlot strKey) ppLine .ok
      queueSets ppLine vecKey vecVal

/-- The loop of `Mget` over the replies, for at most so many rounds. -/
def fetchGets (ppLine : CRedisPipeline) (strVal : CppString) (pvecVal : List CppString) :
    ℕ → Action σ (ReturnCode × List CppString)
  | 0 => return (.success, pvecVal)
  | rounds + 1 => do
      let ((nSubRet, value), ppLine) ← fetchReply fetchString ppLine
      let strVal := value.getD strVal
      if nSubRet = .resultEof then return (.success, pvecVal)
      else if nSubRet = .success then fetchGets ppLine strVal (pvecVal ++ [strVal]) rounds
      else if nSubRet = .replyErr then fetchGets ppLine strVal (pvecVal ++ [[]]) rounds
      else return (nSubRet, pvecVal)

/-- The loop of `Mset` over the replies, for at most so many rounds. -/
def fetchSets (ppLine : CRedisPipeline) (nRet : ReturnCode) : ℕ → Action σ ReturnCode
  | 0 => return nRet
  | rounds + 1 => do
      let ((nSubRet, _), ppLine) ← fetchReply fetchString ppLine
      if nSubRet = .resultEof then return nRet
      else fetchSets ppLine (if nSubRet ≠ .success then .partSuccess else nRet) rounds

/-- `Mget`. A round for each command of the pipeline and one for its end are all that the loop takes. -/
def mget (vecKey pvecVal : List CppString) : Action σ (ReturnCode × List CppString) := do
  match vecKey with
  | [] => return (.success, pvecVal)
  | strKey :: _ =>
      if !(← get).client.bCluster then
        let args ← setArgs (text "mget") (.vec vecKey)
        let (nRet, value) ← executeImpl servers args (hashSlot strKey) fetchStringArray
        return (nRet, value.getD pvecVal)
      else
        let ppLine ← queueGets {} vecKey
        let _ ← flushPipeline servers (some ppLine)
        fetchGets ppLine [] pvecVal (ppLine.vecCmd.length + 1)

/-- `Mset`. -/
def mset (vecKey vecVal : List CppString) : Action σ ReturnCode := do
  match vecKey with
  | [] => return .success
  | strKey :: _ =>
      if !(← get).client.bCluster then
        let args ← setArgs (text "mset") (.vecVec vecKey vecVal)
        let (nRet, _) ← executeImpl servers args (hashSlot strKey) fetchString .ok
        return nRet
      else
        let ppLine ← queueSets {} vecKey vecVal
        let _ ← flushPipeline servers (some ppLine)
        fetchSets ppLine .success (ppLine.vecCmd.length + 1)

/-- The last lines of `Rename` and `Renamenx`. -/
def cleanUp (strNewKey : CppString) (nRet : ReturnCode) : Action σ ReturnCode := do
  let _ ← del servers strNewKey
  return if nRet = .success then .replyErr else nRet

def rename (longBits : ℕ) (strKey strNewKey : CppString) : Action σ ReturnCode := do
  if (← get).client.inSameNode strKey strNewKey then
    let (nRet, _) ← executeImpl servers [text "rename", strKey, strNewKey] (hashSlot strKey) fetchString .ok
    return nRet
  else
    let (nRet, strVal) ← dump servers strKey
    if nRet ≠ .success ∨ strVal.getD [] = [] then cleanUp servers strNewKey nRet
    else
      let (nRet, nTtl) ← pttl servers longBits strKey
      if nRet ≠ .success ∨ nTtl = some (-2) then cleanUp servers strNewKey nRet
      else
        let nTtl := if nTtl = some (-1) then 0 else nTtl.getD 0
        let (nRet, _) ← del servers strNewKey
        if nRet.value < 0 then cleanUp servers strNewKey nRet
        else
          let (nRet, _) ← restore servers strNewKey nTtl (strVal.getD [])
          if nRet ≠ .success then cleanUp servers strNewKey nRet
          else
            let (nRet, _) ← del servers strKey
            if nRet.value < 0 then cleanUp servers strNewKey nRet
            else return .success

def renamenx (longBits : ℕ) (strKey strNewKey : CppString) : Action σ ReturnCode := do
  if (← get).client.inSameNode strKey strNewKey then
    let (nRet, _) ← executeImpl servers [text "renamenx", strKey, strNewKey] (hashSlot strKey) fetchString .ok
    return nRet
  else
    let (nRet, nVal) ← exists_ servers strNewKey
    if nRet ≠ .success then return nRet
    else if nVal = some 1 then return .replyErr
    else
      let (nRet, strVal) ← dump servers strKey
      if nRet ≠ .success then cleanUp servers strNewKey nRet
      else
        let (nRet, nTtl) ← pttl servers longBits strKey
        if nRet ≠ .success then cleanUp servers strNewKey nRet
        else
          let nTtl := if nTtl = some (-1) then 0 else nTtl.getD 0
          let (nRet, _) ← restore servers strNewKey nTtl (strVal.getD [])
          if nRet ≠ .success then cleanUp servers strNewKey nRet
          else
            let (nRet, _) ← del servers strKey
            if nRet.value < 0 then cleanUp servers strNewKey nRet
            else return .success

end CppRedis.Model.RedisClient
