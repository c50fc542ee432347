import CppRedis.Model.GameServer.Packet
import CppRedis.Model.RedisCpp.CRedisConn

/-! # The Redis thread and its task queues

`RedisManager.h`. The packet thread pushes login requests and takes responses; the one Redis thread
takes a request, asks the server for the user's password and pushes the response. The two queues
are locked separately, so the thread's progress between them is part of the state.
-/

namespace CppRedis.Model.GameServer

open Machine RedisCpp

/-- `RedisManager`: the link and the two task queues. -/
structure RedisManager where
  mConn : CRedisConn := {}
  mRequestTask : List RedisTask := []
  mResponseTask : List RedisTask := []

namespace RedisManager

/-- `RedisManager::PushTask`. -/
def pushTask (manager : RedisManager) (task : RedisTask) : RedisManager :=
  { manager with mRequestTask := manager.mRequestTask ++ [task] }

/-- `RedisManager::TakeRequestTask`; the empty queue gives the default task. -/
def takeRequestTask (manager : RedisManager) : RedisTask × RedisManager :=
  match manager.mRequestTask with
  | [] => ({}, manager)
  | task :: rest => (task, { manager with mRequestTask := rest })

/-- `RedisManager::PushResponse`. -/
def pushResponse (manager : RedisManager) (task : RedisTask) : RedisManager :=
  { manager with mResponseTask := manager.mResponseTask ++ [task] }

/-- `RedisManager::TakeResponseTask`; the empty queue gives the default task. -/
def takeResponseTask (manager : RedisManager) : RedisTask × RedisManager :=
  match manager.mResponseTask with
  | [] => ({}, manager)
  | task :: rest => (task, { manager with mResponseTask := rest })

variable (manager : RedisManager)

theorem takeRequestTask_nil (empty : manager.mRequestTask = []) :
    manager.takeRequestTask = ({}, manager) := by
  simp only [takeRequestTask, empty]

theorem takeRequestTask_cons {task : RedisTask} {rest : List RedisTask}
    (queued : manager.mRequestTask = task :: rest) :
    manager.takeRequestTask = (task, { manager with mRequestTask := rest }) := by
  simp only [takeRequestTask, queued]

theorem takeResponseTask_nil (empty : manager.mResponseTask = []) :
    manager.takeResponseTask = ({}, manager) := by
  simp only [takeResponseTask, empty]

theorem takeResponseTask_cons {task : RedisTask} {rest : List RedisTask}
    (queued : manager.mResponseTask = task :: rest) :
    manager.takeResponseTask = (task, { manager with mResponseTask := rest }) := by
  simp only [takeResponseTask, queued]

end RedisManager

/-- `RedisLoginReq::UserID` of the request at a pointer, read as the C string the code reads. -/
def redisLoginUserId (pData : Bytes) : CppString := cString pData

/-- `RedisLoginReq::UserPW` of the request at a pointer, read as the C string the code reads. -/
def redisLoginUserPw (pData : Bytes) : CppString := cString (pData.offset (maxUserIdLen + 1))

/-- The `Result` that `TaskProcessThread` stores for a login request, given what `get` assigned.
Both branches below a successful `get` store the same value. -/
def loginResult (pRequest : Bytes) : Option CppString → ErrorCode
  | none => .loginUserInvalidPw
  | some value => if value = redisLoginUserPw pRequest then .none else .none

/-- The body of `TaskProcessThread` for one task: the response to push, if any. The outer `none`
is a dereference of a null reply; `behind` is what lies behind the response's block. -/
def processTask (conn : CRedisConn) (redis : Server) (task : RedisTask) (behind : Bytes) :
    Option (Option RedisTask × CRedisConn) :=
  if task.taskId = .requestLogin then
    (conn.get redis (redisLoginUserId task.pData)).map fun (value, conn) =>
      (some
        { userIndex := task.userIndex
          taskId := .responseLogin
          dataSize := redisLoginResSize
          pData := behind.write 0 (uint16Bytes (loginResult task.pData value).code) }, conn)
  else some (none, conn)

/-- Where the Redis thread stands in its loop. -/
inductive RedisThread where
  | takeRequestTask
  | process (task : RedisTask)
  | pushResponse (task : RedisTask)
  | crashed

end CppRedis.Model.GameServer
