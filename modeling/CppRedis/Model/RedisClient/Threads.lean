import CppRedis.Model.RedisClient.Refresh

/-! # The lock of the client

`m_rwLock`, `m_condAny` and `m_bValid` between any number of callers and the refresh thread. A step is a
section between two places where a thread can be held up: at the lock, in a wait, in a request, or before
it reads `m_bValid`. Which calls a caller makes is not restricted; the second attempts of `Execute` and
`FlushPipeline` are calls like the first. The last fields of the state are its history.
-/

namespace CppRedis.Model.RedisClient

open Machine RedisCpp

/-- What held when a call of `WaitForRefresh` began. -/
structure RefreshCall where
  bValid : Bool
  attempts : ℕ
  refreshes : ℕ

/-- Where a caller is. -/
inductive Caller where
  | idle
  /-- In the `ServRequest` of `SimpleExecute`, sharing the lock. -/
  | executing (serv command : ℕ)
  /-- In the first loop of `FlushCommand`, with the commands whose servers are not looked up yet. -/
  | grouping (vecCmd : List ℕ) (mapCmd : List (Option ℕ × List ℕ))
  /-- In the second loop of `FlushCommand`, with the entries that are not requested yet. -/
  | flushing (mapCmd : List (Option ℕ × List ℕ))
  /-- In the `ServRequest` of `Keys` on the server at a position of `m_vecRedisServ`. -/
  | scanning (position serv command : ℕ)
  /-- In the loop of `WaitForRefresh`. -/
  | polling (nRetry : ℕ) (call : RefreshCall)
  /-- Before the last read of `WaitForRefresh`. -/
  | leaving (call : RefreshCall)
  /-- Back from `WaitForRefresh`. -/
  | refreshed (result : Bool) (call : RefreshCall)

/-- The caller has no call under way. -/
def Caller.free : Caller → Bool
  | .idle | .refreshed _ _ => true
  | _ => false

/-- The servers that a caller has obtained and may still use. -/
def Caller.obtained : Caller → List ℕ
  | .executing serv _ | .scanning _ serv _ => [serv]
  | .grouping _ mapCmd | .flushing mapCmd => mapCmd.filterMap Prod.fst
  | _ => []

/-- Where the refresh thread is. -/
inductive Refresher where
  /-- Without the lock. -/
  | running
  /-- With the lock, before it refreshes. -/
  | locked
  /-- In the wait, without the lock. -/
  | waiting
  /-- Woken up, but without the lock. -/
  | woken
deriving DecidableEq

structure Threads (ρ : Type) where
  world : World (Pool ρ)
  caller : ℕ → Caller := fun _ => .idle
  refresher : Refresher := .running
  /-- The callers that share the lock. -/
  shared : List ℕ := []
  /-- A pointer or a position was followed that leads nowhere. -/
  crashed : Bool := false
  /-- The servers that `CleanServer` has deleted. -/
  deleted : List ℕ := []
  /-- How often `LoadClusterSlots` or `Initialize` was completed. -/
  attempts : ℕ := 0
  /-- How often it returned true. -/
  refreshes : ℕ := 0

inductive ThreadEvent where
  /-- `operator()` takes the lock, and waits if the client is valid. -/
  | lock
  /-- A wait ends, with or without a notification. -/
  | wake
  | relock
  /-- The rest of the section of `operator()`. -/
  | refresh
  | simpleExecute (thread command : ℕ)
  | served (thread : ℕ)
  | flushCommand (thread : ℕ) (vecCmd : List ℕ)
  | getMatchedServer (thread : ℕ)
  | flushed (thread : ℕ)
  | keys (thread : ℕ) (strPattern : CppString)
  | scanned (thread : ℕ)
  /-- The start of `WaitForRefresh`; `try_lock_shared` may fail at any time. -/
  | waitForRefresh (thread : ℕ) (granted : Bool)
  | poll (thread : ℕ)
  | leave (thread : ℕ)

namespace Threads

variable {ρ : Type}

def place (threads : Threads ρ) (thread : ℕ) (caller : Caller) : Threads ρ :=
  { threads with caller := Function.update threads.caller thread caller }

/-- What a program leaves to the threads. -/
def after {α : Type} (threads : Threads ρ) (program : Action (Pool ρ) α) (next : α → Threads ρ → Threads ρ) :
    Threads ρ :=
  match program threads.world with
  | .ok (value, world) => next value { threads with world := world }
  | .error _ => { threads with crashed := true }

variable (net : Network ρ) (address : ℕ → ℕ) (threads : Threads ρ)

def lock : Threads ρ :=
  if threads.refresher = .running ∧ threads.shared = [] then
    { threads with refresher := if threads.world.client.bValid then .waiting else .locked }
  else threads

def wake : Threads ρ :=
  if threads.refresher = .waiting then { threads with refresher := .woken } else threads

def relock : Threads ρ :=
  if threads.refresher = .woken ∧ threads.shared = [] then { threads with refresher := .locked } else threads

def refresh : Threads ρ :=
  if threads.refresher = .locked then
    threads.after (refreshRound net) fun _ after => { after with
      refresher := .running
      -- `CleanServer` is called where `LoadClusterSlots` returns true
      deleted :=
        if after.world.client.bCluster ∧ after.world.client.bValid then
          threads.deleted ++ threads.world.client.vecRedisServ
        else threads.deleted
      attempts := threads.attempts + 1
      refreshes := if after.world.client.bValid then threads.refreshes + 1 else threads.refreshes }
  else threads

/-- `SimpleExecute` up to its `ServRequest`. -/
def simpleExecute (thread command : ℕ) : Threads ρ :=
  if (threads.caller thread).free ∧ threads.refresher ≠ .locked then
    if !threads.world.client.bValid then threads.place thread .idle
    else
      match matchedServer (net.servers address) threads.world command with
      | none => threads.place thread .idle
      | some pRedisServ =>
          { threads.place thread (.executing pRedisServ command) with shared := thread :: threads.shared }
  else threads

def served (thread : ℕ) : Threads ρ :=
  match threads.caller thread with
  | .executing serv command =>
      threads.after (CRedisServer.servRequest net serv command) fun _ after =>
        { after.place thread .idle with shared := threads.shared.erase thread }
  | _ => threads

def flushCommand (thread : ℕ) (vecCmd : List ℕ) : Threads ρ :=
  if (threads.caller thread).free then threads.place thread (.grouping vecCmd []) else threads

/-- A round of the first loop of `FlushCommand`, or its end. -/
def getMatchedServer (thread : ℕ) : Threads ρ :=
  match threads.caller thread with
  | .grouping (command :: vecCmd) mapCmd =>
      threads.place thread (.grouping vecCmd
        (insertCmd address (matchedServer (net.servers address) threads.world command) command mapCmd))
  | .grouping [] mapCmd => threads.place thread (.flushing mapCmd)
  | _ => threads

/-- A round of the second loop of `FlushCommand`, or its end. -/
def flushed (thread : ℕ) : Threads ρ :=
  match threads.caller thread with
  | .flushing ((some serv, vecCmd) :: mapCmd) =>
      threads.after (CRedisServer.servRequests net serv vecCmd) fun nRet after =>
        after.place thread (if nRet = .success then .flushing mapCmd else .idle)
  | .flushing ((none, _) :: _) => { threads with crashed := true }
  | .flushing [] => threads.place thread .idle
  | _ => threads

/-- `Keys` goes on to the server at a position, where the vector has one. -/
def scan (thread position command : ℕ) : Threads ρ :=
  match threads.world.client.vecRedisServ[position]? with
  | some serv => threads.place thread (.scanning position serv command)
  | none => threads.place thread .idle

def keys (thread : ℕ) (strPattern : CppString) : Threads ρ :=
  if (threads.caller thread).free then
    threads.after (newCommand { args := [text "keys", strPattern] }) fun command after => after.scan thread 0 command
  else threads

/-- The condition in the loop of `Keys`. -/
def keysRequest (serv command : ℕ) : Action (Pool ρ) Bool := do
  if (← CRedisServer.servRequest net serv command) = .success then
    let (nRet, _) ← fetchCommand fetchStringArray command
    return nRet = .success
  else return false

def scanned (thread : ℕ) : Threads ρ :=
  match threads.caller thread with
  | .scanning position serv command =>
      threads.after (keysRequest net serv command) fun found after =>
        if found then after.scan thread (position + 1) command else after.place thread .idle
  | _ => threads

def waitForRefresh (thread : ℕ) (granted : Bool) : Threads ρ :=
  if (threads.caller thread).free then
    let call := { bValid := threads.world.client.bValid, attempts := threads.attempts, refreshes := threads.refreshes }
    { threads.place thread (.polling waitRetryTimes call) with
      refresher :=
        if granted ∧ threads.refresher = .waiting then .woken else threads.refresher }
  else threads

/-- The condition of the loop of `WaitForRefresh`. -/
def poll (thread : ℕ) : Threads ρ :=
  match threads.caller thread with
  | .polling (nRetry + 1) call =>
      threads.place thread (if threads.world.client.bValid then .leaving call else .polling nRetry call)
  | .polling 0 call => threads.place thread (.leaving call)
  | _ => threads

def leave (thread : ℕ) : Threads ρ :=
  match threads.caller thread with
  | .leaving call => threads.place thread (.refreshed threads.world.client.bValid call)
  | _ => threads

def step (event : ThreadEvent) : Threads ρ :=
  if threads.crashed then threads
  else
    match event with
    | .lock => threads.lock
    | .wake => threads.wake
    | .relock => threads.relock
    | .refresh => threads.refresh net
    | .simpleExecute thread command => threads.simpleExecute net address thread command
    | .served thread => threads.served net thread
    | .flushCommand thread vecCmd => threads.flushCommand thread vecCmd
    | .getMatchedServer thread => threads.getMatchedServer net address thread
    | .flushed thread => threads.flushed net thread
    | .keys thread strPattern => threads.keys thread strPattern
    | .scanned thread => threads.scanned net thread
    | .waitForRefresh thread granted => threads.waitForRefresh thread granted
    | .poll thread => threads.poll thread
    | .leave thread => threads.leave thread

end Threads

end CppRedis.Model.RedisClient
