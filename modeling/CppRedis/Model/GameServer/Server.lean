import CppRedis.Machine.Run
import CppRedis.Model.GameServer.PacketManager

/-! # The server as threads over shared state

`GameServer.h`, `PacketManager::ProcessPacket` and `RedisManager::TaskProcessThread`. IO workers
deliver chunks and connect/close notices, the packet thread runs its loop of one client packet, one
system packet and one Redis response, and the Redis thread serves requests. A step is one critical
section or one handler call, so that a packet is dequeued and handled in two steps and the memory it
points to may change between them. Which thread moves next is the label's choice.
-/

namespace CppRedis.Model.GameServer

open Machine RedisCpp

/-- `MAX_SOCK_RECVBUF`. -/
def maxSockRecvbuf : ℕ := 256

/-- The bytes of one receive completion. -/
structure Chunk where
  bytes : List UInt8
  nonempty : 1 ≤ bytes.length
  bounded : bytes.length ≤ maxSockRecvbuf

/-- Where the packet thread stands in `ProcessPacket`. -/
inductive PacketThread where
  | dequePacketData
  | processClient (packetData : PacketInfo)
  | dequeSystemPacketData
  | processSystem (packetData : PacketInfo)
  | takeResponseTask
  | processResponse (task : RedisTask)

/-- The shared state and the position of the two server threads. -/
structure Server where
  packetManager : PacketManager
  packetThread : PacketThread := .dequePacketData
  redisThread : RedisThread := .takeRequestTask

/-- One step of one thread. `behind` is what the step finds behind the objects it overreads. -/
inductive Event where
  | receive (clientIndex : ℕ) (chunk : Chunk)
  | onConnect (clientIndex : ℕ)
  | onClose (clientIndex : ℕ)
  | packetThread (behind : Bytes)
  | redisThread (behind : Bytes)

/-- What `pDataPtr` points to now: a null pointer is never read by a handler it is given to. -/
def PacketManager.pointer (manager : PacketManager) (packetData : PacketInfo) : Bytes :=
  match packetData.pDataPtr with
  | none => fun _ => 0
  | some position => (manager.user packetData.clientIndex).mPakcetDataBuffer.offset position

/-- `GameServer::OnConnect`. -/
def PacketManager.onConnect (manager : PacketManager) (clientIndex : ℕ) : PacketManager :=
  manager.pushSystemPacket { clientIndex := clientIndex, packetId := PacketId.sysUserConnect.value }

/-- `GameServer::OnClose`. -/
def PacketManager.onClose (manager : PacketManager) (clientIndex : ℕ) : PacketManager :=
  manager.pushSystemPacket { clientIndex := clientIndex, packetId := PacketId.sysUserDisconnect.value }

namespace Server

/-- The state after `GameServer::Run`. -/
def init (maxClient : ℕ) (allocated : ℕ → Bytes) : Server :=
  { packetManager := PacketManager.init maxClient allocated }

/-- One step of `PacketManager::ProcessPacket`. -/
def processPacket (server : Server) (behind : Bytes) : Server :=
  let manager := server.packetManager
  match server.packetThread with
  | .dequePacketData =>
      let (packetData, manager) := manager.dequePacketData
      { server with
        packetManager := manager
        packetThread :=
          if packetData.packetId > PacketId.sysEnd.value then .processClient packetData
          else .dequeSystemPacketData }
  | .processClient packetData =>
      { server with
        packetManager := manager.processRecvPacket packetData.clientIndex packetData.packetId
          packetData.dataSize (manager.pointer packetData) behind
        packetThread := .dequeSystemPacketData }
  | .dequeSystemPacketData =>
      let (packetData, manager) := manager.dequeSystemPacketData
      { server with
        packetManager := manager
        packetThread :=
          if packetData.packetId ≠ 0 then .processSystem packetData else .takeResponseTask }
  | .processSystem packetData =>
      { server with
        packetManager := manager.processRecvPacket packetData.clientIndex packetData.packetId
          packetData.dataSize (manager.pointer packetData) behind
        packetThread := .takeResponseTask }
  | .takeResponseTask =>
      let (task, redis) := manager.mRedisMgr.takeResponseTask
      { server with
        packetManager := { manager with mRedisMgr := redis }
        packetThread := if task.taskId ≠ .invalid then .processResponse task else .dequePacketData }
  | .processResponse task =>
      { server with
        packetManager := manager.processRecvPacket task.userIndex task.taskId.value task.dataSize
          task.pData behind
        packetThread := .dequePacketData }

/-- One step of `RedisManager::TaskProcessThread`. -/
def taskProcessThread (redis : RedisCpp.Server) (server : Server) (behind : Bytes) : Server :=
  let manager := server.packetManager
  match server.redisThread with
  | .takeRequestTask =>
      let (task, redisMgr) := manager.mRedisMgr.takeRequestTask
      { server with
        packetManager := { manager with mRedisMgr := redisMgr }
        redisThread := if task.taskId ≠ .invalid then .process task else .takeRequestTask }
  | .process task =>
      match processTask manager.mRedisMgr.mConn redis task behind with
      | none => { server with redisThread := .crashed }
      | some (response, conn) =>
          { server with
            packetManager := { manager with mRedisMgr := { manager.mRedisMgr with mConn := conn } }
            redisThread := response.elim .takeRequestTask .pushResponse }
  | .pushResponse task =>
      { server with
        packetManager := { manager with mRedisMgr := manager.mRedisMgr.pushResponse task }
        redisThread := .takeRequestTask }
  | .crashed => server

/-- The Redis thread does not move the packet thread. -/
theorem taskProcessThread_packetThread (redis : RedisCpp.Server) (server : Server) (behind : Bytes) :
    (server.taskProcessThread redis behind).packetThread = server.packetThread := by
  simp only [taskProcessThread]
  split
  · rfl
  · split <;> rfl
  · rfl
  · rfl

/-- The Redis thread touches nothing of the packet manager but the Redis manager. -/
theorem taskProcessThread_packetManager (redis : RedisCpp.Server) (server : Server) (behind : Bytes) :
    ∃ redisMgr, (server.taskProcessThread redis behind).packetManager =
      { server.packetManager with mRedisMgr := redisMgr } := by
  simp only [taskProcessThread]
  split
  · exact ⟨_, rfl⟩
  · split <;> exact ⟨_, rfl⟩
  · exact ⟨_, rfl⟩
  · exact ⟨_, rfl⟩

/-- One step of the whole server. -/
def step (redis : RedisCpp.Server) (server : Server) : Event → Server
  | .receive clientIndex chunk =>
      { server with packetManager := server.packetManager.receivePacketData clientIndex chunk.bytes }
  | .onConnect clientIndex =>
      { server with packetManager := server.packetManager.onConnect clientIndex }
  | .onClose clientIndex =>
      { server with packetManager := server.packetManager.onClose clientIndex }
  | .packetThread behind => server.processPacket behind
  | .redisThread behind => server.taskProcessThread redis behind

/-- The users, rooms and queues after a run from the start of the server. -/
def managerAfter (redis : RedisCpp.Server) (maxClient : ℕ) (allocated : ℕ → Bytes)
    (events : List Event) : PacketManager :=
  (run (step redis) (init maxClient allocated) events).packetManager

end Server

end CppRedis.Model.GameServer
