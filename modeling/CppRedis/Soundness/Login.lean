import CppRedis.Model.RedisCpp.Store
import CppRedis.Soundness.Dispatch

/-! # From a login request to its answer

A login request goes through the request queue, the Redis thread, the response queue and the packet
thread, all of them first in, first out, so the answers come in the order of the requests. The Redis
thread stores success as soon as `get` finds a string under the user id; the comparison with the
password changes nothing. The id itself is read as a C string, which runs on into the password field
when the client fills the whole id field.
-/

namespace CppRedis.Soundness.Login

open Machine Model.GameServer Dispatch
open Model.RedisCpp (Store)

/-- A login request handed to Redis: the client, the packet, and what lies behind the request's copy. -/
structure Request where
  clientIndex : ℕ
  pPacket : Bytes
  behind : Bytes

namespace Request

variable (request : Request)

/-- The `UserID` field, up to its first zero. -/
def userId : CppString := cStr (request.pPacket.read packetHeaderLength (maxUserIdLen + 1))

/-- The `UserPW` field, up to its first zero. -/
def userPw : CppString :=
  cStr (request.pPacket.read (packetHeaderLength + (maxUserIdLen + 1)) (maxUserPwLen + 1))

/-- The key the Redis thread asks for. -/
def key : CppString :=
  redisLoginUserId (PacketManager.loginTask request.clientIndex request.pPacket request.behind).pData

end Request

/-- The answer a request should get. -/
def expected (store : Store) (request : Request) : ErrorCode :=
  if store.string? request.userId = some request.userPw then .none else .loginUserInvalidPw

/-- The requests a step hands to Redis. -/
def requested (server : Server) (event : Event) : List Request :=
  match event, server.packetThread with
  | .packetThread behind, .processClient packetData =>
      let pPacket := server.packetManager.pointer packetData
      if packetData.packetId = PacketId.loginRequest.value ∧ server.packetManager.AsksRedis
          ⟨.processLogin, packetData.clientIndex, packetData.dataSize, pPacket, behind⟩ then
        [⟨packetData.clientIndex, pPacket, behind⟩]
      else []
  | _, _ => []

/-- The login responses among what was sent, with their clients. -/
def loginResponses (sent : List Sent) : List (ℕ × UInt16) :=
  sent.filterMap fun send =>
    match send.packet with
    | .loginResponse result => some (send.clientIndex, result)
    | _ => none

/-- The login responses a step sends for a task taken from Redis. -/
def answered (redis : Model.RedisCpp.Server) (server : Server) (event : Event) : List (ℕ × UInt16) :=
  match event, server.packetThread with
  | .packetThread _, .processResponse _ =>
      loginResponses (server.packetManager.newlySent (server.step redis event).packetManager)
  | _, _ => []

/-- What the Redis thread decides for a key. -/
def verdict (store : Store) (key : CppString) : ErrorCode :=
  if (store.string? key).isSome then .none else .loginUserInvalidPw

/-- The answer in a response task. -/
def responseOf (task : RedisTask) : ℕ × UInt16 := (task.userIndex, (uint16At task.pData 0).toUInt16)

/-- The answer a request task will get. -/
def responseTo (store : Store) (task : RedisTask) : ℕ × UInt16 :=
  (task.userIndex, (verdict store (redisLoginUserId task.pData)).code)

/-- The answer the packet thread is about to send. -/
def heldByPacketThread : PacketThread → List (ℕ × UInt16)
  | .processResponse task => [responseOf task]
  | _ => []

/-- The answer the Redis thread is working on. -/
def heldByRedisThread (store : Store) : RedisThread → List (ℕ × UInt16)
  | .process task => [responseTo store task]
  | .pushResponse task => [responseOf task]
  | _ => []

/-- The answers on their way, the next one first. -/
def inFlight (store : Store) (server : Server) : List (ℕ × UInt16) :=
  heldByPacketThread server.packetThread ++ server.packetManager.mRedisMgr.mResponseTask.map responseOf ++
    heldByRedisThread store server.redisThread ++
    server.packetManager.mRedisMgr.mRequestTask.map (responseTo store)

/-- The link stays up as long as the server answers from a store. -/
structure Live (server : Server) : Prop extends Queues server where
  connected : server.packetManager.mRedisMgr.mConn.connected = true
  context : server.packetManager.mRedisMgr.mConn.redCtx = true
  running : server.redisThread ≠ .crashed

/-- `TaskProcessThread` on a login request with a live link. -/
theorem processTask_eq {conn : Model.RedisCpp.CRedisConn} (connected : conn.connected = true)
    (context : conn.redCtx = true) (store : Store) {task : RedisTask}
    (login : task.taskId = .requestLogin) (behind : Bytes) :
    ∃ response errStr, processTask conn store.server task behind =
        some (some response, { conn with errStr := errStr }) ∧
      response.taskId = .responseLogin ∧ responseOf response = responseTo store task := by
  obtain ⟨errStr, got⟩ := Model.RedisCpp.CRedisConn.get_server connected context store
    (redisLoginUserId task.pData)
  rw [redisLoginUserId, cStr_cString, ← redisLoginUserId] at got
  simp only [processTask]
  rw [if_pos login, got, Option.map_some]
  refine ⟨_, errStr, rfl, rfl, ?_⟩
  simp only [responseOf, responseTo, uint16At_write, verdict]
  cases store.string? (redisLoginUserId task.pData) with
  | none => rfl
  | some value =>
    simp only [Option.map_some, loginResult, ite_self, Option.isSome_some, ↓reduceIte]

theorem live_init (maxClient : ℕ) (allocated : ℕ → Bytes) : Live (Server.init maxClient allocated) :=
  ⟨queues_init maxClient allocated, rfl, rfl, nofun⟩

/-- The packet thread leaves the link and the Redis thread alone. -/
theorem processPacket_link (server : Server) (behind : Bytes) :
    (server.processPacket behind).packetManager.mRedisMgr.mConn = server.packetManager.mRedisMgr.mConn ∧
      (server.processPacket behind).redisThread = server.redisThread := by
  have handled (client id size : ℕ) (pPacket : Bytes) :
      (server.packetManager.processRecvPacket client id size pPacket behind).mRedisMgr.mConn =
        server.packetManager.mRedisMgr.mConn := by
    rw [PacketManager.processRecvPacket_mRedisMgr]
    split_ifs <;> rfl
  unfold Server.processPacket
  cases server.packetThread with
  | dequePacketData =>
    obtain ⟨users, rest, same⟩ := server.packetManager.dequePacketData_eq
    dsimp only
    rw [same]
    exact ⟨rfl, rfl⟩
  | processClient packetData => exact ⟨handled .., rfl⟩
  | dequeSystemPacketData =>
    dsimp only
    cases queued : server.packetManager.mSystemPacketQueue with
    | nil =>
      rw [PacketManager.dequeSystemPacketData_nil _ queued]
      exact ⟨rfl, rfl⟩
    | cons packetData rest =>
      rw [PacketManager.dequeSystemPacketData_cons _ queued]
      exact ⟨rfl, rfl⟩
  | processSystem packetData => exact ⟨handled .., rfl⟩
  | takeResponseTask =>
    dsimp only
    cases queued : server.packetManager.mRedisMgr.mResponseTask with
    | nil =>
      rw [RedisManager.takeResponseTask_nil _ queued]
      exact ⟨rfl, rfl⟩
    | cons task rest =>
      rw [RedisManager.takeResponseTask_cons _ queued]
      exact ⟨rfl, rfl⟩
  | processResponse task => exact ⟨handled .., rfl⟩

/-- The Redis thread moves answers along and loses none. -/
theorem taskProcessThread_live {store : Store} {server : Server} (live : Live server) (behind : Bytes) :
    Live (server.taskProcessThread store.server behind) ∧
      inFlight store (server.taskProcessThread store.server behind) = inFlight store server := by
  have ⟨⟨_, request, _, _, redisThread⟩, connected, context, running⟩ := live
  suffices moved : ∀ next, server.taskProcessThread store.server behind = next →
      next.packetManager.mRedisMgr.mConn.connected = true ∧
      next.packetManager.mRedisMgr.mConn.redCtx = true ∧ next.redisThread ≠ .crashed ∧
      inFlight store next = inFlight store server by
    obtain ⟨connected, context, running, same⟩ := moved _ rfl
    exact ⟨⟨live.toQueues.taskProcessThread store.server behind, connected, context, running⟩, same⟩
  rintro _ rfl
  unfold Server.taskProcessThread
  cases thread : server.redisThread with
  | takeRequestTask =>
    dsimp only
    cases queued : server.packetManager.mRedisMgr.mRequestTask with
    | nil =>
      rw [RedisManager.takeRequestTask_nil _ queued]
      refine ⟨connected, context, nofun, ?_⟩
      simp only [inFlight, thread]
      rfl
    | cons task rest =>
      have kind := request task (queued ▸ List.mem_cons_self)
      rw [RedisManager.takeRequestTask_cons _ queued, if_pos (by rw [kind]; decide)]
      refine ⟨connected, context, nofun, ?_⟩
      simp only [inFlight, thread, queued, heldByRedisThread, List.map_cons, List.append_assoc,
        List.nil_append, List.singleton_append]
  | process task =>
    rw [thread] at redisThread
    obtain ⟨response, errStr, made, -, same⟩ := processTask_eq connected context store redisThread behind
    dsimp only
    rw [made]
    refine ⟨connected, context, nofun, ?_⟩
    simp only [inFlight, thread, heldByRedisThread, Option.elim_some, same]
  | pushResponse task =>
    refine ⟨connected, context, nofun, ?_⟩
    simp only [inFlight, thread, heldByRedisThread, RedisManager.pushResponse, List.map_append,
      List.map_cons, List.map_nil, List.append_assoc, List.nil_append]
  | crashed => exact absurd thread running

/-- Handling a client packet adds the request it hands to Redis, if any. -/
theorem processClient_balanced {store : Store} {server : Server} {packetData : PacketInfo}
    (thread : server.packetThread = .processClient packetData) (behind : Bytes) :
    inFlight store (server.processPacket behind) = inFlight store server ++
      (requested server (.packetThread behind)).map fun request =>
        (request.clientIndex, (verdict store request.key).code) := by
  simp only [inFlight, Server.processPacket, requested, thread, PacketManager.processRecvPacket_mRedisMgr]
  split_ifs
  · simp only [heldByPacketThread, RedisManager.pushTask, List.map_append, List.map_cons, List.map_nil,
      List.append_assoc]
    rfl
  · simp only [heldByPacketThread, List.map_nil, List.append_nil]

/-- The login response sent for a response of Redis. -/
theorem answered_processResponse {redis : Model.RedisCpp.Server} {server : Server} {task : RedisTask}
    (kind : task.taskId = .responseLogin) (thread : server.packetThread = .processResponse task)
    (behind : Bytes) : answered redis server (.packetThread behind) = [responseOf task] := by
  have sent : server.packetManager.newlySent (server.packetManager.processRecvPacket task.userIndex
      RedisTaskId.responseLogin.value task.dataSize task.pData behind) =
      [⟨task.userIndex, _, .loginResponse (uint16At task.pData 0).toUInt16⟩] := List.drop_left
  simp only [answered, thread, Server.step, Server.processPacket, kind, sent]
  rfl

/-- Handling a response sends the answer it carries. -/
theorem processResponse_balanced {store : Store} {server : Server} {task : RedisTask}
    (kind : task.taskId = .responseLogin) (thread : server.packetThread = .processResponse task)
    (behind : Bytes) :
    answered store.server server (.packetThread behind) ++ inFlight store (server.processPacket behind) =
      inFlight store server := by
  have quiet := server.packetManager.processRecvPacket_mRedisMgr task.userIndex
    RedisTaskId.responseLogin.value task.dataSize task.pData behind
  rw [if_neg fun asks => absurd asks.1 (by decide)] at quiet
  rw [answered_processResponse kind thread]
  simp only [inFlight, thread, Server.processPacket, kind, quiet]
  rfl

/-- Handling a system packet has nothing to do with logins. -/
theorem processSystem_balanced {store : Store} {server : Server} {packetData : PacketInfo}
    (kind : IsSystemPacket packetData) (thread : server.packetThread = .processSystem packetData)
    (behind : Bytes) : inFlight store (server.processPacket behind) = inFlight store server := by
  have other : packetData.packetId ≠ PacketId.loginRequest.value := by
    rcases kind with connect | disconnect
    · rw [connect]
      decide
    · rw [disconnect]
      decide
  simp only [inFlight, thread, Server.processPacket, PacketManager.processRecvPacket_mRedisMgr]
  rw [if_neg fun asks => other asks.1]
  rfl

/-- Taking a response off its queue keeps its place in front. -/
theorem takeResponseTask_balanced {store : Store} {server : Server} (queues : Queues server)
    (thread : server.packetThread = .takeResponseTask) (behind : Bytes) :
    inFlight store (server.processPacket behind) = inFlight store server := by
  simp only [Server.processPacket]
  rw [thread]
  dsimp only
  cases queued : server.packetManager.mRedisMgr.mResponseTask with
  | nil =>
    rw [RedisManager.takeResponseTask_nil _ queued]
    simp only [inFlight, thread, queued]
    rfl
  | cons task rest =>
    have kind := queues.response task (queued ▸ List.mem_cons_self)
    rw [RedisManager.takeResponseTask_cons _ queued, if_pos (by rw [kind]; decide)]
    simp only [inFlight, thread, queued, heldByPacketThread, List.map_cons, List.nil_append,
      List.singleton_append]

/-- Dequeueing client and system packets has nothing to do with logins. -/
theorem deque_balanced {store : Store} {server : Server}
    (thread : server.packetThread = .dequePacketData ∨ server.packetThread = .dequeSystemPacketData)
    (behind : Bytes) : inFlight store (server.processPacket behind) = inFlight store server := by
  unfold Server.processPacket
  rcases thread with thread | thread
  · obtain ⟨users, rest, same⟩ := server.packetManager.dequePacketData_eq
    rw [thread]
    simp only [inFlight, thread, same]
    split_ifs <;> rfl
  · rw [thread]
    dsimp only
    cases queued : server.packetManager.mSystemPacketQueue with
    | nil =>
      rw [PacketManager.dequeSystemPacketData_nil _ queued]
      simp only [inFlight, thread]
      rfl
    | cons packetData rest =>
      rw [PacketManager.dequeSystemPacketData_cons _ queued]
      simp only [inFlight, thread]
      split_ifs <;> rfl

theorem requested_eq_nil {server : Server} (other : ∀ packetData, server.packetThread ≠ .processClient packetData)
    (event : Event) : requested server event = [] := by
  simp only [requested]
  split
  · next thread => exact absurd thread (other _)
  · rfl

theorem answered_eq_nil {redis : Model.RedisCpp.Server} {server : Server}
    (other : ∀ task, server.packetThread ≠ .processResponse task) (event : Event) :
    answered redis server event = [] := by
  simp only [answered]
  split
  · next thread => exact absurd thread (other _)
  · rfl

/-- A step of the packet thread that handles neither a client's packet nor a response. -/
theorem balanced_of_quiet {store : Store} {server : Server} {behind : Bytes}
    (client : ∀ packetData, server.packetThread ≠ .processClient packetData)
    (response : ∀ task, server.packetThread ≠ .processResponse task)
    (same : inFlight store (server.step store.server (.packetThread behind)) = inFlight store server) :
    answered store.server server (.packetThread behind) ++
        inFlight store (server.step store.server (.packetThread behind)) =
      inFlight store server ++ (requested server (.packetThread behind)).map fun request =>
        (request.clientIndex, (verdict store request.key).code) := by
  rw [requested_eq_nil client, answered_eq_nil response, List.map_nil, List.append_nil, List.nil_append]
  exact same

/-- Every step gives out answers from the front and takes in requests at the back. -/
theorem step_balanced {store : Store} {server : Server} (live : Live server) (event : Event) :
    answered store.server server event ++ inFlight store (server.step store.server event) =
      inFlight store server ++ (requested server event).map fun request =>
        (request.clientIndex, (verdict store request.key).code) := by
  cases event with
  | receive client chunk => exact (List.append_nil _).symm
  | onConnect client => exact (List.append_nil _).symm
  | onClose client => exact (List.append_nil _).symm
  | redisThread behind => exact (taskProcessThread_live live behind).2.trans (List.append_nil _).symm
  | packetThread behind =>
    have holds := live.packetThread
    cases thread : server.packetThread with
    | processClient packetData =>
      rw [answered_eq_nil (by rw [thread]; nofun), List.nil_append]
      exact processClient_balanced thread behind
    | processResponse task =>
      rw [thread] at holds
      rw [requested_eq_nil (by rw [thread]; nofun), List.map_nil, List.append_nil]
      exact processResponse_balanced holds thread behind
    | processSystem packetData =>
      rw [thread] at holds
      exact balanced_of_quiet (by rw [thread]; nofun) (by rw [thread]; nofun)
        (processSystem_balanced holds thread behind)
    | takeResponseTask =>
      exact balanced_of_quiet (by rw [thread]; nofun) (by rw [thread]; nofun)
        (takeResponseTask_balanced live.toQueues thread behind)
    | dequePacketData =>
      exact balanced_of_quiet (by rw [thread]; nofun) (by rw [thread]; nofun)
        (deque_balanced (Or.inl thread) behind)
    | dequeSystemPacketData =>
      exact balanced_of_quiet (by rw [thread]; nofun) (by rw [thread]; nofun)
        (deque_balanced (Or.inr thread) behind)

/-- The connection to Redis is in the hands of the Redis thread alone. -/
theorem Live.step_of_redisThread {redis : Model.RedisCpp.Server} {server : Server} (live : Live server)
    {event : Event} (redisThread : ∀ behind, event = .redisThread behind → Live
      (server.taskProcessThread redis behind)) :
    Live (server.step redis event) := by
  have queues := live.toQueues.step redis event
  cases event with
  | receive client chunk => exact ⟨queues, live.connected, live.context, live.running⟩
  | onConnect client => exact ⟨queues, live.connected, live.context, live.running⟩
  | onClose client => exact ⟨queues, live.connected, live.context, live.running⟩
  | redisThread behind => exact redisThread behind rfl
  | packetThread behind =>
    obtain ⟨link, thread⟩ := processPacket_link server behind
    refine ⟨queues, ?_, ?_, ?_⟩
    · exact (congrArg _ link).trans live.connected
    · exact (congrArg _ link).trans live.context
    · exact fun crashed => live.running (thread.symm.trans crashed)

theorem Live.step {store : Store} {server : Server} (live : Live server) (event : Event) :
    Live (server.step store.server event) :=
  live.step_of_redisThread fun behind _ => (taskProcessThread_live live behind).1

/-- Over every run the answers are, in order, the verdicts on the requests, less those on their way. -/
theorem answers_append_inFlight (store : Store) (maxClient : ℕ) (allocated : ℕ → Bytes) (events : List Event) :
    outputs (Server.step store.server) (answered store.server) (Server.init maxClient allocated) events ++
        inFlight store (run (Server.step store.server) (Server.init maxClient allocated) events) =
      (outputs (Server.step store.server) requested (Server.init maxClient allocated) events).map
        fun request => (request.clientIndex, (verdict store request.key).code) := by
  rw [← outputs_map]
  exact outputs_append_held Live (inFlight store) (fun _ event live => live.step event)
    (fun _ event live => step_balanced live event) (live_init maxClient allocated) events

/-- The verdict is the expected answer exactly when a string is stored under the key that is asked for
just in case the password is stored under the user id. -/
theorem verdict_eq_expected_iff (store : Store) (request : Request) :
    (verdict store request.key).code = (expected store request).code ↔
      ((store.string? request.key).isSome = true ↔ store.string? request.userId = some request.userPw) := by
  simp only [verdict, expected]
  split_ifs with found granted granted
  · exact iff_of_true rfl (iff_of_true found granted)
  · exact iff_of_false (by decide) fun same => granted (same.mp found)
  · exact iff_of_false (by decide) fun same => found (same.mpr granted)
  · exact iff_of_true rfl (iff_of_false found granted)

/-- For every store, every run of the server and every interleaving of its threads: the answers that
come back through Redis are, in order, the answers the login requests should get, success exactly for
a user id under which the password is stored, if and only if for every request answered, a string is
stored under the key asked for just in case the password is stored under the user id. -/
theorem answers_expected_iff (store : Store) (maxClient : ℕ) (allocated : ℕ → Bytes) (events : List Event) :
    let requests := outputs (Server.step store.server) requested (Server.init maxClient allocated) events
    let answers := outputs (Server.step store.server) (answered store.server)
      (Server.init maxClient allocated) events
    answers <+: requests.map (fun request => (request.clientIndex, (expected store request).code)) ↔
      ∀ request ∈ requests.take answers.length,
        ((store.string? request.key).isSome = true ↔
          store.string? request.userId = some request.userPw) := by
  intro requests answers
  have conserved := answers_append_inFlight store maxClient allocated events
  have given : answers = (requests.take answers.length).map fun request =>
      (request.clientIndex, (verdict store request.key).code) := by
    rw [List.map_take, ← conserved, List.take_left]
  rw [List.prefix_iff_eq_take, ← List.map_take]
  constructor
  · intro same request member
    have equal := List.map_inj_left.mp (given.symm.trans same) request member
    exact (verdict_eq_expected_iff store request).mp (Prod.mk.inj equal).2
  · intro agree
    refine given.trans (List.map_congr_left fun request member => ?_)
    rw [(verdict_eq_expected_iff store request).mpr (agree request member)]

/-- For an id that the client ends with a zero, the key asked for is the user id. -/
theorem key_of_terminated (request : Request)
    (terminated : 0 ∈ request.pPacket.read packetHeaderLength (maxUserIdLen + 1)) :
    request.key = request.userId := by
  set userId := request.pPacket.read packetHeaderLength (maxUserIdLen + 1) with field
  set userPw := request.pPacket.read (packetHeaderLength + (maxUserIdLen + 1)) (maxUserPwLen + 1)
  have stored : (request.behind.write 0 (userId ++ userPw)).read 0 (maxUserIdLen + 1) = userId := by
    have whole := Memory.read_write_self request.behind 0 (userId ++ userPw)
    rw [List.length_append, Memory.read_add, field, Memory.read_length] at whole
    exact List.append_inj_left whole (by rw [Memory.read_length, Memory.read_length])
  change cString (request.behind.write 0 (userId ++ userPw)) = cStr userId
  rw [cString_of_mem (show maxUserIdLen + 1 ≤ addressSpace by decide) (stored ▸ terminated), stored]

/-- A login packet of user `a` with password `x`. -/
def loginChunk : Chunk where
  bytes := [71, 0, 201, 0, 0] ++ ([97] ++ List.replicate 32 0) ++ ([120] ++ List.replicate 32 0)
  nonempty := by decide
  bounded := by decide

/-- The password of user `a` is `y`. -/
def loginStore : Store := fun key => if key = [97] then some (.string [121]) else none

/-- Receive the packet, go round the packet thread, the Redis thread and the packet thread. -/
def loginEvents : List Event :=
  [.receive 0 loginChunk] ++ List.replicate 3 (.packetThread fun _ => 0) ++
    List.replicate 3 (.redisThread fun _ => 0) ++ List.replicate 2 (.packetThread fun _ => 0)

/-- A login with the wrong password is answered with success. -/
theorem answers_wrong_password :
    let requests := outputs (Server.step loginStore.server) requested (Server.init 3 fun _ _ => 0) loginEvents
    let answers := outputs (Server.step loginStore.server) (answered loginStore.server)
      (Server.init 3 fun _ _ => 0) loginEvents
    answers = [(0, ErrorCode.none.code)] ∧
      ¬ answers <+: requests.map fun request =>
        (request.clientIndex, (expected loginStore request).code) := by
  constructor <;> decide +kernel

end CppRedis.Soundness.Login
