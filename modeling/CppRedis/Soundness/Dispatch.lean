import CppRedis.Model.GameServer.Server

/-! # Which handlers a packet can reach

One dictionary serves client packets, system packets and Redis responses. System packets and Redis
responses only ever carry their own ids. Client packets are only kept away from the ids up to
`SYS_END`, and the id of a Redis response lies above it: a client that sends a frame with that id
reaches `ProcessLoginDBResult`. Over every run this is the only way one source gets at a handler of
another.
-/

namespace CppRedis.Soundness.Dispatch

open Machine Model.GameServer

/-- An entry of the system queue. -/
def IsSystemPacket (packetData : PacketInfo) : Prop :=
  packetData.packetId = PacketId.sysUserConnect.value ∨
    packetData.packetId = PacketId.sysUserDisconnect.value

/-- What the packet thread holds comes from the right queue. -/
def HoldsOwn : PacketThread → Prop
  | .processClient packetData => packetData.packetId > PacketId.sysEnd.value
  | .processSystem packetData => IsSystemPacket packetData
  | .processResponse task => task.taskId = .responseLogin
  | _ => True

/-- What the Redis thread holds is a request, or the response it made. -/
def ServesOwn : RedisThread → Prop
  | .process task => task.taskId = .requestLogin
  | .pushResponse task => task.taskId = .responseLogin
  | _ => True

/-- The kinds of entries the queues and threads hold. -/
structure Queues (server : Server) : Prop where
  system : ∀ packetData ∈ server.packetManager.mSystemPacketQueue, IsSystemPacket packetData
  request : ∀ task ∈ server.packetManager.mRedisMgr.mRequestTask, task.taskId = .requestLogin
  response : ∀ task ∈ server.packetManager.mRedisMgr.mResponseTask, task.taskId = .responseLogin
  packetThread : HoldsOwn server.packetThread
  redisThread : ServesOwn server.redisThread

theorem queues_init (maxClient : ℕ) (allocated : ℕ → Bytes) : Queues (Server.init maxClient allocated) :=
  ⟨nofun, nofun, nofun, trivial, trivial⟩

/-- One more entry at the end of a queue. -/
theorem forall_mem_snoc {α : Type*} {good : α → Prop} {queue : List α} {last : α}
    (queued : ∀ entry ∈ queue, good entry) (pushed : good last) : ∀ entry ∈ queue ++ [last], good entry := by
  intro entry member
  rcases List.mem_append.mp member with old | new
  · exact queued entry old
  · rw [List.mem_singleton.mp new]
    exact pushed

/-- The entries of a handled packet: at most one login task more. -/
theorem Queues.processRecvPacket {server : Server} (queues : Queues server) (client id size : ℕ)
    (pPacket behind : Bytes) {thread : PacketThread} (holds : HoldsOwn thread) :
    Queues { server with
      packetManager := server.packetManager.processRecvPacket client id size pPacket behind
      packetThread := thread } := by
  have kept := server.packetManager.processRecvPacket_queues client id size pPacket behind
  have redis := server.packetManager.processRecvPacket_mRedisMgr client id size pPacket behind
  refine ⟨?_, ?_, ?_, holds, queues.redisThread⟩
  · rw [kept.1]
    exact queues.system
  · rw [redis]
    split_ifs
    · exact forall_mem_snoc queues.request rfl
    · exact queues.request
  · rw [redis]
    split_ifs <;> exact queues.response

/-- The response to a login request is a login response. -/
theorem processTask_taskId {conn next : Model.RedisCpp.CRedisConn} {redis : Model.RedisCpp.Server}
    {task response : RedisTask} {behind : Bytes}
    (answered : processTask conn redis task behind = some (some response, next)) :
    response.taskId = .responseLogin := by
  simp only [processTask] at answered
  split_ifs at answered
  · obtain ⟨_, -, same⟩ := Option.map_eq_some_iff.mp answered
    obtain rfl := Option.some.inj (Prod.mk.inj same).1
    rfl
  · cases answered

theorem Queues.processPacket {server : Server} (queues : Queues server) (behind : Bytes) :
    Queues (server.processPacket behind) := by
  have ⟨system, request, response, _, redisThread⟩ := queues
  simp only [Server.processPacket]
  cases server.packetThread with
  | dequePacketData =>
    obtain ⟨users, rest, same⟩ := server.packetManager.dequePacketData_eq
    dsimp only
    rw [same]
    refine ⟨system, request, response, ?_, redisThread⟩
    dsimp only
    split_ifs with above
    · exact above
    · trivial
  | processClient packetData => exact queues.processRecvPacket _ _ _ _ _ trivial
  | dequeSystemPacketData =>
    dsimp only
    cases queued : server.packetManager.mSystemPacketQueue with
    | nil =>
      rw [PacketManager.dequeSystemPacketData_nil _ queued]
      exact ⟨system, request, response, trivial, redisThread⟩
    | cons packetData rest =>
      rw [queued] at system
      rw [PacketManager.dequeSystemPacketData_cons _ queued]
      refine ⟨fun packet member => system packet (List.mem_cons_of_mem _ member), request, response, ?_,
        redisThread⟩
      dsimp only
      split_ifs
      · exact system packetData (List.mem_cons_self ..)
      · trivial
  | processSystem packetData => exact queues.processRecvPacket _ _ _ _ _ trivial
  | takeResponseTask =>
    dsimp only
    cases queued : server.packetManager.mRedisMgr.mResponseTask with
    | nil =>
      rw [RedisManager.takeResponseTask_nil _ queued]
      exact ⟨system, request, response, trivial, redisThread⟩
    | cons task rest =>
      rw [queued] at response
      rw [RedisManager.takeResponseTask_cons _ queued]
      refine ⟨system, request, fun task member => response task (List.mem_cons_of_mem _ member), ?_,
        redisThread⟩
      dsimp only
      split_ifs
      · exact response task (List.mem_cons_self ..)
      · trivial
  | processResponse task => exact queues.processRecvPacket _ _ _ _ _ trivial

theorem Queues.taskProcessThread {server : Server} (queues : Queues server) (redis : Model.RedisCpp.Server)
    (behind : Bytes) : Queues (server.taskProcessThread redis behind) := by
  have ⟨system, request, response, packetThread, redisThread⟩ := queues
  simp only [Server.taskProcessThread]
  cases thread : server.redisThread with
  | takeRequestTask =>
    dsimp only
    cases queued : server.packetManager.mRedisMgr.mRequestTask with
    | nil =>
      rw [RedisManager.takeRequestTask_nil _ queued]
      exact ⟨system, request, response, packetThread, trivial⟩
    | cons task rest =>
      rw [queued] at request
      rw [RedisManager.takeRequestTask_cons _ queued]
      refine ⟨system, fun task member => request task (List.mem_cons_of_mem _ member), response,
        packetThread, ?_⟩
      dsimp only
      split_ifs
      · exact request task (List.mem_cons_self ..)
      · trivial
  | process task =>
    dsimp only
    split
    · exact ⟨system, request, response, packetThread, trivial⟩
    · next result conn answered =>
      refine ⟨system, request, response, packetThread, ?_⟩
      cases result with
      | none => trivial
      | some pushing => exact processTask_taskId answered
  | pushResponse task =>
    rw [thread] at redisThread
    exact ⟨system, request, forall_mem_snoc response redisThread, packetThread, trivial⟩
  | crashed => exact queues

theorem Queues.step {server : Server} (queues : Queues server) (redis : Model.RedisCpp.Server)
    (event : Event) : Queues (server.step redis event) := by
  cases event with
  | receive client chunk =>
    exact ⟨queues.system, queues.request, queues.response, queues.packetThread, queues.redisThread⟩
  | onConnect client =>
    exact ⟨forall_mem_snoc queues.system (Or.inl rfl), queues.request, queues.response,
      queues.packetThread, queues.redisThread⟩
  | onClose client =>
    exact ⟨forall_mem_snoc queues.system (Or.inr rfl), queues.request, queues.response,
      queues.packetThread, queues.redisThread⟩
  | packetThread behind => exact queues.processPacket behind
  | redisThread behind => exact queues.taskProcessThread redis behind

/-- The handlers for packets of clients. -/
def clientHandlers : List Handler :=
  [.processLogin, .processEnterRoom, .processLeaveRoom, .processRoomChatMessage]

/-- What the packet thread is about to handle goes to a handler for its source, or to none. -/
def DispatchesBySource (server : Server) : Prop :=
  match server.packetThread with
  | .processClient packetData =>
      ∀ handler, recvFuntionDictionary.lookup packetData.packetId = some handler →
        handler ∈ clientHandlers
  | .processSystem packetData =>
      ∀ handler, recvFuntionDictionary.lookup packetData.packetId = some handler →
        handler = .processUserConnect ∨ handler = .processUserDisConnect
  | .processResponse task =>
      ∀ handler, recvFuntionDictionary.lookup task.taskId.value = some handler →
        handler = .processLoginDBResult
  | _ => True

/-- The slot whose turn it is has a complete frame at its read position with the id of a Redis
response. -/
def ForgedResponseNext (manager : PacketManager) : Prop :=
  ∃ client, manager.mInComingPacketUserIndex.head? = some client ∧
    let user := manager.user client
    let remainByte := subUInt32 user.mPakcetDataBufferWPos user.mPakcetDataBufferRPos
    let header := user.mPakcetDataBuffer.offset user.mPakcetDataBufferRPos
    packetHeaderLength ≤ remainByte ∧ packetLength header ≤ remainByte ∧
      packetId header = RedisTaskId.responseLogin.value

/-- The packet thread does not dequeue such a frame. -/
def NotForged (server : Server) (event : Event) : Prop :=
  match event, server.packetThread with
  | .packetThread _, .dequePacketData => ¬ ForgedResponseNext server.packetManager
  | _, _ => True

/-- A packet above `SYS_END` goes to a client handler exactly when it is not a Redis response. -/
theorem client_lookup_iff {id : ℕ} (above : id > PacketId.sysEnd.value) :
    (∀ handler, recvFuntionDictionary.lookup id = some handler → handler ∈ clientHandlers) ↔
      id ≠ RedisTaskId.responseLogin.value := by
  constructor
  · rintro all rfl
    have reached := all .processLoginDBResult rfl
    revert reached
    decide
  · intro other handler found
    have entry := (lookup_eq_some_iff id handler).mp found
    simp only [recvFuntionDictionary, List.mem_cons, Prod.mk.injEq, List.not_mem_nil, or_false] at entry
    rcases entry with ⟨rfl, rfl⟩ | ⟨rfl, rfl⟩ | ⟨rfl, rfl⟩ | ⟨rfl, rfl⟩ | ⟨rfl, rfl⟩ | ⟨rfl, rfl⟩ | ⟨rfl, rfl⟩
    · exact absurd above (by decide)
    · exact absurd above (by decide)
    · decide
    · exact absurd rfl other
    · decide
    · decide
    · decide

/-- What `GetPacket` hands out has the id of a Redis response exactly when the frame at the read
position is complete and has it. -/
theorem getPacket_packetId (user : User) :
    user.getPacket.1.packetId = RedisTaskId.responseLogin.value ↔
      packetHeaderLength ≤ subUInt32 user.mPakcetDataBufferWPos user.mPakcetDataBufferRPos ∧
        packetLength (user.mPakcetDataBuffer.offset user.mPakcetDataBufferRPos) ≤
          subUInt32 user.mPakcetDataBufferWPos user.mPakcetDataBufferRPos ∧
        packetId (user.mPakcetDataBuffer.offset user.mPakcetDataBufferRPos) =
          RedisTaskId.responseLogin.value := by
  simp only [User.getPacket]
  split_ifs with short incomplete
  · exact iff_of_false (by dsimp only; decide) fun complete => absurd complete.1 (Nat.not_le.mpr short)
  · exact iff_of_false (by dsimp only; decide) fun complete => absurd complete.2.1 (Nat.not_le.mpr incomplete)
  · exact ⟨fun same => ⟨Nat.le_of_not_lt short, Nat.le_of_not_lt incomplete, same⟩, fun complete => complete.2.2⟩

theorem dequePacketData_packetId (manager : PacketManager) :
    manager.dequePacketData.1.packetId = RedisTaskId.responseLogin.value ↔ ForgedResponseNext manager := by
  simp only [ForgedResponseNext]
  cases queued : manager.mInComingPacketUserIndex with
  | nil =>
    rw [PacketManager.dequePacketData_nil _ queued]
    exact iff_of_false nofun fun ⟨_, next, _⟩ => nomatch next
  | cons client rest =>
    rw [PacketManager.dequePacketData_cons _ queued]
    simp only [List.head?_cons, Option.some.injEq, exists_eq_left']
    exact getPacket_packetId _

/-- The system queue and the Redis responses never reach the wrong handlers, so only what the packet
thread has dequeued from a client is left to check. -/
theorem dispatches_iff {server : Server} (queues : Queues server) :
    DispatchesBySource server ↔
      ∀ packetData, server.packetThread = .processClient packetData →
        ∀ handler, recvFuntionDictionary.lookup packetData.packetId = some handler →
          handler ∈ clientHandlers := by
  have holds := queues.packetThread
  simp only [DispatchesBySource]
  cases thread : server.packetThread with
  | processClient packetData => simp only [PacketThread.processClient.injEq, forall_eq']
  | processSystem packetData =>
    rw [thread] at holds
    refine iff_of_true (fun handler found => ?_) nofun
    rcases holds with connect | disconnect
    · rw [connect] at found
      exact Or.inl (Option.some.inj found).symm
    · rw [disconnect] at found
      exact Or.inr (Option.some.inj found).symm
  | processResponse task =>
    rw [thread] at holds
    refine iff_of_true (fun handler found => ?_) nofun
    rw [show task.taskId = .responseLogin from holds] at found
    exact (Option.some.inj found).symm
  | dequePacketData => exact iff_of_true trivial nofun
  | dequeSystemPacketData => exact iff_of_true trivial nofun
  | takeResponseTask => exact iff_of_true trivial nofun

/-- One step of the packet thread holds a client packet for the wrong handler exactly when it has
dequeued a forged response. -/
theorem processPacket_dispatch_iff {server : Server} (queues : Queues server) (behind : Bytes) :
    DispatchesBySource (server.processPacket behind) ↔ NotForged server (.packetThread behind) := by
  rw [dispatches_iff (queues.processPacket behind)]
  simp only [Server.processPacket, NotForged]
  cases server.packetThread with
  | dequePacketData =>
    rw [← dequePacketData_packetId]
    dsimp only
    by_cases above : server.packetManager.dequePacketData.1.packetId > PacketId.sysEnd.value
    · rw [if_pos above]
      simp only [PacketThread.processClient.injEq, forall_eq']
      exact client_lookup_iff above
    · rw [if_neg above]
      refine iff_of_true nofun fun forged => above ?_
      rw [forged]
      decide
  | dequeSystemPacketData =>
    refine iff_of_true (fun packetData same => ?_) trivial
    dsimp only at same
    split_ifs at same
  | takeResponseTask =>
    refine iff_of_true (fun packetData same => ?_) trivial
    dsimp only at same
    split_ifs at same
  | processClient packetData => exact iff_of_true nofun trivial
  | processSystem packetData => exact iff_of_true nofun trivial
  | processResponse task => exact iff_of_true nofun trivial

/-- One step keeps the sources apart exactly when it does not dequeue a forged response. -/
theorem step_dispatch_iff {redis : Model.RedisCpp.Server} {server : Server} (queues : Queues server)
    (apart : DispatchesBySource server) (event : Event) :
    DispatchesBySource (server.step redis event) ↔ NotForged server event := by
  cases event with
  | receive client chunk => exact iff_of_true apart trivial
  | onConnect client => exact iff_of_true apart trivial
  | onClose client => exact iff_of_true apart trivial
  | redisThread behind =>
    have same : (server.step redis (.redisThread behind)).packetThread = server.packetThread :=
      server.taskProcessThread_packetThread redis behind
    rw [DispatchesBySource, same]
    exact iff_of_true apart trivial
  | packetThread behind => exact processPacket_dispatch_iff queues behind

/-- Over every run of the server, whatever the clients send and however the threads interleave,
packets only reach the handlers of their source if and only if the packet thread never dequeues a
complete client frame with the id of a Redis response. -/
theorem run_dispatch_iff_notForged (redis : Model.RedisCpp.Server) (maxClient : ℕ) (allocated : ℕ → Bytes)
    (events : List Event) :
    Always (Server.step redis) DispatchesBySource (Server.init maxClient allocated) events ↔
      Along (Server.step redis) NotForged (Server.init maxClient allocated) events :=
  always_iff_along Queues (fun _ event queues => queues.step redis event)
    (fun _ event queues apart => step_dispatch_iff queues apart event) (queues_init maxClient allocated)
    trivial events

/-- A client frame with the id of a Redis response. -/
def forgedChunk : Chunk where
  bytes := [7, 0, 234, 3, 0, 0, 0]
  nonempty := by decide
  bounded := by decide

/-- A client that sends it has it dispatched to `ProcessLoginDBResult`. -/
theorem run_dispatches_forged_response :
    ¬ Always (Server.step fun _ => none) DispatchesBySource (Server.init 3 fun _ _ => 0)
      [.receive 0 forgedChunk, .packetThread fun _ => 0] := by
  intro always
  have reached := always.last .processLoginDBResult (by decide +kernel)
  revert reached
  decide

end CppRedis.Soundness.Dispatch
