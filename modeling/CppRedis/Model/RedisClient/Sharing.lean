import CppRedis.Model.RedisClient.Client
import CppRedis.Model.RedisClient.Connection
import Mathlib.Data.List.Rotate

/-! # The connections of one server between threads

`Execute` without a pipeline and outside of a cluster, called by any number of threads, and the refresh thread
with its `CRedisServer::Initialize`. A step is what a thread does between two places where others may come in
between; `m_mutexConn` makes one step of every access to the queue. Connections go by the number of their
allocation, what a request returns is the label's, and the last fields of the state are its history.
-/

namespace CppRedis.Model.RedisClient

/-- Where a thread is in `ServRequest`. -/
inductive ServRequest where
  /-- In the loop, with the tries that are left. -/
  | fetching (nTry : ℕ)
  /-- In `ConnRequest`. -/
  | requesting (pRedisConn : ℕ)
  /-- Before `ReturnConnection`. -/
  | returning (pRedisConn : ℕ) (nRet : ReturnCode)

def ServRequest.holds : ServRequest → Option ℕ
  | .fetching _ => none
  | .requesting pRedisConn | .returning pRedisConn _ => some pRedisConn

/-- Where a thread is in `Execute`; `again` is set in the second `SimpleExecute`. -/
inductive Executing where
  /-- In no call. -/
  | outside
  /-- Before `SimpleExecute` shares the lock. -/
  | entering (again : Bool)
  | serving (again : Bool) (request : ServRequest)
  /-- Before `SimpleExecute` gives the lock up. -/
  | exiting (again : Bool) (nRet : ReturnCode)
  /-- At the start of `WaitForRefresh`. -/
  | trying
  /-- Before `notify_all`, sharing the lock. -/
  | notifying
  /-- In the loop of `WaitForRefresh`. -/
  | polling (nRetry : ℕ)
  /-- Before `WaitForRefresh` returns. -/
  | leaving

/-- The thread shares the lock. -/
def Executing.sharing : Executing → Bool
  | .serving _ _ | .exiting _ _ | .notifying => true
  | _ => false

def Executing.holds : Executing → Option ℕ
  | .serving _ request => request.holds
  | _ => none

/-- Where the refresh thread is. -/
inductive Refreshing where
  /-- Without the lock. -/
  | running
  /-- In the wait, without the lock. -/
  | waiting
  /-- Woken up, but without the lock. -/
  | woken
  /-- Before `CleanConn`. -/
  | cleaning
  /-- In the loop of `Initialize`, with the connections that are still to be made. -/
  | opening (count : ℕ)
  /-- In the request for the timeout. -/
  | asking (request : ServRequest)
  /-- Before `m_bValid` is assigned and the lock given up. -/
  | assigning

/-- The refresh thread has the lock. -/
def Refreshing.exclusive : Refreshing → Bool
  | .running | .waiting | .woken => false
  | _ => true

def Refreshing.holds : Refreshing → Option ℕ
  | .asking request => request.holds
  | _ => none

/-- Who makes requests. -/
inductive Requester where
  | caller (thread : ℕ)
  | refresher
deriving DecidableEq

structure Sharing where
  nConnNum : ℕ
  queIdleConn : List ℕ
  bValid : Bool := true
  caller : ℕ → Executing := fun _ => .outside
  refresher : Refreshing := .running
  /-- The threads that share the lock. -/
  shared : List ℕ := []
  /-- `CRedisClient::Initialize` has started the refresh thread, but not assigned `m_bValid` yet. -/
  initializing : Bool := true
  /-- The number of connections allocated so far. -/
  allocated : ℕ
  /-- The connections made by the last `CRedisServer::Initialize`. -/
  made : List ℕ
  deleted : List ℕ := []

inductive SharingEvent where
  | execute (thread : ℕ)
  /-- `SimpleExecute` up to its `ServRequest`. -/
  | lockShared (thread : ℕ)
  /-- A step of `ServRequest`, and the result if it is `ConnRequest`. -/
  | servRequest (requester : Requester) (nRet : ReturnCode)
  | unlockShared (thread : ℕ)
  /-- `try_lock_shared` may fail at any time. -/
  | tryLockShared (thread : ℕ) (granted : Bool)
  | notifyAll (thread : ℕ)
  | poll (thread : ℕ)
  | leave (thread : ℕ)
  /-- The end of `CRedisClient::Initialize`. -/
  | initialized
  /-- `operator()` takes the lock, and waits if the client is valid. -/
  | lock
  /-- A wait ends, with or without a notification. -/
  | wake
  | relock
  | cleanConn
  /-- A round of the loop of `Initialize`. -/
  | openConnection (isValid : Bool)
  | assign

namespace Sharing

/-- When `CRedisClient::Initialize` starts the refresh thread: `isValid` has which connections could be made, and
the requests for `config` and `info` have each taken the first one and brought it back. -/
def start (nConnNum : ℕ) (isValid : ℕ → Bool) : Sharing where
  nConnNum := nConnNum
  queIdleConn := ((List.range nConnNum).filter isValid).rotate 2
  allocated := nConnNum
  made := (List.range nConnNum).filter isValid

variable (sharing : Sharing)

/-- What a requester has fetched and not returned. -/
def holds : Requester → Option ℕ
  | .caller thread => (sharing.caller thread).holds
  | .refresher => sharing.refresher.holds

def place (thread : ℕ) (position : Executing) : Sharing :=
  { sharing with caller := Function.update sharing.caller thread position }

def fetchConnection : Option ℕ × Sharing :=
  match sharing.queIdleConn with
  | [] => (none, sharing)
  | pRedisConn :: rest => (some pRedisConn, { sharing with queIdleConn := rest })

def returnConnection (pRedisConn : ℕ) : Sharing :=
  { sharing with queIdleConn := sharing.queIdleConn ++ [pRedisConn] }

/-- A step of `ServRequest` from a position to the next or to its result. -/
def serve (nRet : ReturnCode) : ServRequest → (ServRequest ⊕ ReturnCode) × Sharing
  | .fetching (nTry + 1) =>
      match sharing.fetchConnection with
      | (some pRedisConn, fetched) => (.inl (.requesting pRedisConn), fetched)
      | (none, same) => (.inl (.fetching nTry), same)
  | .fetching 0 => (.inr .noResource, sharing)
  | .requesting pRedisConn => (.inl (.returning pRedisConn nRet), sharing)
  | .returning pRedisConn nRet => (.inr nRet, sharing.returnConnection pRedisConn)

def servRequest (nRet : ReturnCode) : Requester → Sharing
  | .caller thread =>
      match sharing.caller thread with
      | .serving again request =>
          match sharing.serve nRet request with
          | (.inl request, after) => after.place thread (.serving again request)
          | (.inr nRet, after) => after.place thread (.exiting again nRet)
      | _ => sharing
  | .refresher =>
      match sharing.refresher with
      | .asking request =>
          match sharing.serve nRet request with
          | (.inl request, after) => { after with refresher := .asking request }
          | (.inr _, after) => { after with refresher := .assigning }
      | _ => sharing

/-- `Execute` up to its first `SimpleExecute`. -/
def execute (thread : ℕ) : Sharing :=
  match sharing.caller thread with
  | .outside => if sharing.bValid then sharing.place thread (.entering false) else sharing
  | _ => sharing

def lockShared (thread : ℕ) : Sharing :=
  match sharing.caller thread with
  | .entering again =>
      if sharing.refresher.exclusive then sharing
      else
        { sharing.place thread
            (if sharing.bValid then .serving again (.fetching CRedisServer.rqstRetryTimes)
              else .exiting again .rqstErr) with
          shared := thread :: sharing.shared }
  | _ => sharing

/-- The end of `SimpleExecute`, and where `Execute` goes on. -/
def unlockShared (thread : ℕ) : Sharing :=
  match sharing.caller thread with
  | .exiting again nRet =>
      { sharing.place thread (if again = false ∧ nRet = .rqstErr then .trying else .outside) with
        shared := sharing.shared.erase thread }
  | _ => sharing

def tryLockShared (thread : ℕ) (granted : Bool) : Sharing :=
  match sharing.caller thread with
  | .trying =>
      if granted ∧ sharing.refresher.exclusive = false then
        { sharing.place thread .notifying with shared := thread :: sharing.shared }
      else sharing.place thread (.polling waitRetryTimes)
  | _ => sharing

/-- `notify_all`, and the lock is given up. -/
def notifyAll (thread : ℕ) : Sharing :=
  match sharing.caller thread with
  | .notifying =>
      { sharing.place thread (.polling waitRetryTimes) with
        shared := sharing.shared.erase thread
        refresher :=
          match sharing.refresher with
          | .waiting => .woken
          | position => position }
  | _ => sharing

/-- The condition of the loop of `WaitForRefresh`. -/
def poll (thread : ℕ) : Sharing :=
  match sharing.caller thread with
  | .polling (nRetry + 1) => sharing.place thread (if sharing.bValid then .leaving else .polling nRetry)
  | .polling 0 => sharing.place thread .leaving
  | _ => sharing

/-- The result of `WaitForRefresh`, and where `Execute` goes on. -/
def leave (thread : ℕ) : Sharing :=
  match sharing.caller thread with
  | .leaving => sharing.place thread (if sharing.bValid then .entering true else .outside)
  | _ => sharing

def initialized : Sharing :=
  if sharing.initializing then { sharing with bValid := true, initializing := false } else sharing

def lock : Sharing :=
  match sharing.refresher with
  | .running =>
      if sharing.shared = [] then { sharing with refresher := if sharing.bValid then .waiting else .cleaning }
      else sharing
  | _ => sharing

def wake : Sharing :=
  match sharing.refresher with
  | .waiting => { sharing with refresher := .woken }
  | _ => sharing

def relock : Sharing :=
  match sharing.refresher with
  | .woken => if sharing.shared = [] then { sharing with refresher := .cleaning } else sharing
  | _ => sharing

def cleanConn : Sharing :=
  match sharing.refresher with
  | .cleaning => { sharing with
      refresher := .opening sharing.nConnNum
      queIdleConn := []
      made := []
      deleted := sharing.deleted ++ sharing.queIdleConn }
  | _ => sharing

def openConnection (isValid : Bool) : Sharing :=
  match sharing.refresher with
  | .opening (count + 1) =>
      let opened := { sharing with refresher := .opening count, allocated := sharing.allocated + 1 }
      if isValid then
        { opened with
          queIdleConn := sharing.queIdleConn ++ [sharing.allocated]
          made := sharing.made ++ [sharing.allocated] }
      else opened
  | .opening 0 => { sharing with
      refresher :=
        if sharing.queIdleConn = [] then .assigning else .asking (.fetching CRedisServer.rqstRetryTimes) }
  | _ => sharing

def assign : Sharing :=
  match sharing.refresher with
  | .assigning => { sharing with refresher := .running, bValid := !sharing.queIdleConn.isEmpty }
  | _ => sharing

def step (event : SharingEvent) : Sharing :=
  match event with
  | .execute thread => sharing.execute thread
  | .lockShared thread => sharing.lockShared thread
  | .servRequest requester nRet => sharing.servRequest nRet requester
  | .unlockShared thread => sharing.unlockShared thread
  | .tryLockShared thread granted => sharing.tryLockShared thread granted
  | .notifyAll thread => sharing.notifyAll thread
  | .poll thread => sharing.poll thread
  | .leave thread => sharing.leave thread
  | .initialized => sharing.initialized
  | .lock => sharing.lock
  | .wake => sharing.wake
  | .relock => sharing.relock
  | .cleanConn => sharing.cleanConn
  | .openConnection isValid => sharing.openConnection isValid
  | .assign => sharing.assign

end Sharing

end CppRedis.Model.RedisClient
