import CppRedis.Model.RedisClient.World
import CppRedis.Model.RedisClient.HashSlot
import CppRedis.Machine.Search
import Mathlib.Data.List.Sort

/-! # The client over its servers

`CRedisClient` and `CRedisPipeline` of `RedisClient.cpp`, over whatever answers their requests. A caller
that holds no lock leaves room for the refresh thread, which then gets through its loop any number of
times. A reply that a pipeline returns through a pointer to a pointer is returned as it is.
-/

namespace CppRedis.Model.RedisClient

open Machine RedisCpp

/-- What the client asks of its servers, and of its refresh thread. -/
structure Servers (σ : Type) where
  /-- The addresses by which a `std::map` orders the servers. -/
  address : ℕ → ℕ
  isValid : σ → ℕ → Bool
  servRequest : ℕ → ℕ → Action σ ReturnCode
  servRequests : ℕ → List ℕ → Action σ ReturnCode
  refreshThread : Action σ Unit

/-- `CRedisPipeline`. `m_mapCmd` is rebuilt in each flush. -/
structure CRedisPipeline where
  vecCmd : List ℕ := []
  nCursor : ℕ := 0

/-- `CRedisClient::FindServer(int)`, with `CompSlot`. -/
def findServer (vecSlot : List SlotRegion) (nSlot : ℤ) : Option ℕ :=
  let pairIter := equalRange (fun slotReg => decide (slotReg.nEndSlot < nSlot))
    (fun slotReg => decide (nSlot < slotReg.nStartSlot)) vecSlot
  if pairIter.1 ≠ vecSlot.length ∧ pairIter.1 ≠ pairIter.2 then
    vecSlot[pairIter.1]?.bind fun slotReg => slotReg.pRedisServ
  else none

namespace CRedisClient

def getMatchedServer (client : CRedisClient) (isValid : ℕ → Bool) (nSlot : ℤ) : Option ℕ :=
  if !client.bCluster then client.vecRedisServ.head?
  else if nSlot ≠ -1 then findServer client.vecSlot nSlot
  else client.vecRedisServ.find? isValid

def inSameNode (client : CRedisClient) (strKey1 strKey2 : CppString) : Bool :=
  if client.bCluster then
    findServer client.vecSlot (hashSlot strKey1) = findServer client.vecSlot (hashSlot strKey2)
  else true

/-- `CleanServer`, the sort and the two assignments at the end of `LoadClusterSlots`. -/
def install (client : CRedisClient) (vecSlot : List SlotRegion) (vecRedisServ : List ℕ) : CRedisClient :=
  { client with
    vecSlot := vecSlot.insertionSort fun lReg rReg => lReg.nStartSlot ≤ rReg.nStartSlot
    vecRedisServ := vecRedisServ }

end CRedisClient

variable {σ : Type} (servers : Servers σ)

/-- The server that `GetMatchedServer` finds for a command. -/
def matchedServer (world : World σ) (command : ℕ) : Option ℕ :=
  world.client.getMatchedServer (servers.isValid world.servers) (world.command command).nSlot

def simpleExecute (command : ℕ) : Action σ ReturnCode := do
  -- the refresh thread may come first to the lock
  servers.refreshThread
  let world ← get
  if !world.client.bValid then return .rqstErr
  else
    match matchedServer servers world command with
    | none => return .rqstErr
    | some pRedisServ => servers.servRequest pRedisServ command

/-- `WAIT_RETRY_TIMES`. -/
def waitRetryTimes : ℕ := 60

/-- The loop of `WaitForRefresh`. -/
def awaitValid : ℕ → Action σ Unit
  | 0 => return ()
  | nRetry + 1 => do
      if (← get).client.bValid then return ()
      else
        servers.refreshThread
        awaitValid nRetry

def waitForRefresh : Action σ Bool := do
  modify (World.note .waitForRefresh)
  servers.refreshThread
  awaitValid servers waitRetryTimes
  servers.refreshThread
  return (← get).client.bValid

/-- `Execute` without a pipeline. -/
def execute (command : ℕ) : Action σ ReturnCode := do
  if !(← get).client.bValid then return .rqstErr
  else
    let nRet ← simpleExecute servers command
    let world ← get
    if !world.client.bCluster then
      if nRet = .rqstErr then
        if ← waitForRefresh servers then simpleExecute servers command
        else return nRet
      else return nRet
    else
      if nRet = .replyErr ∧ isMovedErr (world.command command).pReply ∨ nRet = .rqstErr then
        if ← waitForRefresh servers then simpleExecute servers command
        else return nRet
      else return nRet

/-- `CRedisCommand::FetchResult` on a command of the world. -/
def fetchCommand {α : Type} (funcFetch : Fetch α) (command : ℕ) : Action σ (ReturnCode × Option α) := do
  let redisCmd := (← get).command command
  match fetchResult funcFetch redisCmd.funcConv redisCmd.pReply with
  | .ok result => return result
  | .error fault => throw fault

/-- `ExecuteImpl` without a pipeline. -/
def executeImpl {α : Type} (args : List CppString) (nSlot : ℤ) (funcFetch : Fetch α)
    (funcConv : Convert := .default) : Action σ (ReturnCode × Option α) := do
  let command ← newCommand { args := args, nSlot := nSlot, funcConv := funcConv }
  let nRet ← execute servers command
  if nRet = .success then fetchCommand funcFetch command
  else return (nRet, none)

/-- `ExecuteImpl` with a pipeline. -/
def queueImpl (args : List CppString) (nSlot : ℤ) (ppLine : CRedisPipeline) (funcConv : Convert := .default) :
    Action σ CRedisPipeline := do
  let command ← newCommand { args := args, nSlot := nSlot, funcConv := funcConv }
  return { ppLine with vecCmd := ppLine.vecCmd ++ [command] }

/-- `std::less` on the addresses of servers; the null pointer is the least. -/
def before (address : ℕ → ℕ) : Option ℕ → Option ℕ → Bool
  | none, none => false
  | none, some _ => true
  | some _, none => false
  | some first, some second => address first < address second

/-- A command goes to the entry of its server in `m_mapCmd`. -/
def insertCmd (address : ℕ → ℕ) (pRedisServ : Option ℕ) (command : ℕ) :
    List (Option ℕ × List ℕ) → List (Option ℕ × List ℕ)
  | [] => [(pRedisServ, [command])]
  | (key, vecCmd) :: mapCmd =>
      if key = pRedisServ then (key, vecCmd ++ [command]) :: mapCmd
      else if before address pRedisServ key then (pRedisServ, [command]) :: (key, vecCmd) :: mapCmd
      else (key, vecCmd) :: insertCmd address pRedisServ command mapCmd

/-- The first loop of `FlushCommand`. -/
def groupCmds (world : World σ) (vecCmd : List ℕ) : List (Option ℕ × List ℕ) :=
  vecCmd.foldl (fun mapCmd command =>
    insertCmd servers.address (matchedServer servers world command) command mapCmd) []

/-- The second loop of `FlushCommand`. -/
def requestAll : List (Option ℕ × List ℕ) → Action σ ReturnCode
  | [] => return .success
  | (none, _) :: _ => throw .nullServer
  | (some pRedisServ, vecCmd) :: mapCmd => do
      let nRet ← servers.servRequests pRedisServ vecCmd
      if nRet = .success then requestAll mapCmd
      else return nRet

def flushCommand (vecCmd : List ℕ) : Action σ ReturnCode := do
  requestAll servers (groupCmds servers (← get) vecCmd)

def flushPipeline : Option CRedisPipeline → Action σ ReturnCode
  | none => return .pipelineErr
  | some pPipeline => do
      let nRet ← flushCommand servers pPipeline.vecCmd
      if nRet ≠ .rqstErr then return nRet
      else if !(← get).client.bCluster then return nRet
      else if ← waitForRefresh servers then flushCommand servers pPipeline.vecCmd
      else return nRet

/-- `FetchReply` for a value, with `CRedisPipeline::FetchNext`. -/
def fetchReply {α : Type} (funcFetch : Fetch α) (ppLine : CRedisPipeline) :
    Action σ ((ReturnCode × Option α) × CRedisPipeline) := do
  match ppLine.vecCmd[ppLine.nCursor]? with
  | none => return ((.resultEof, none), ppLine)
  | some command =>
      let result ← fetchCommand funcFetch command
      return (result, { ppLine with nCursor := ppLine.nCursor + 1 })

/-- `FetchReply` for the reply itself. -/
def fetchRawReply (ppLine : CRedisPipeline) :
    Action σ ((ReturnCode × Option RedisReply) × CRedisPipeline) := do
  match ppLine.vecCmd[ppLine.nCursor]? with
  | none => return ((.resultEof, none), ppLine)
  | some command =>
      let pReply := ((← get).command command).pReply
      return ((.success, pReply), { ppLine with nCursor := ppLine.nCursor + 1 })

end CppRedis.Model.RedisClient
