import CppRedis.Soundness.Login

/-! # No login task is lost

Tasks go from `mRequestTask` through the Redis thread to `mResponseTask`, and from there to the packet
thread. As long as Redis replies to `GET` with a text, nil or an error, every step moves at most one task
to the next place and keeps the order. What has been taken, what is on its way and what has been pushed
match index by index, and the Redis thread alone brings everything that was pushed into the response queue.
A reply of another type has no text, and the task it is for is lost.
-/

namespace CppRedis.Soundness.Tasks

open Machine Model.GameServer Dispatch Login
open Model.RedisCpp (RedisReply CRedisConn text)

/-- `CRedisConn::get` finds nil or a text. -/
def Readable (reply : RedisReply) : Prop := reply = .nil ∨ reply.str?.isSome = true

instance : DecidablePred Readable
  | .nil => isTrue (.inl rfl)
  | .string _ | .status _ | .error _ => isTrue (.inr rfl)
  | .integer _ | .array _ => isFalse (by rintro (⟨⟨⟩⟩ | ⟨⟨⟩⟩))

/-- What Redis documents about `GET`: it is answered with a string, nil or an error. -/
def AnswersGet (redis : Model.RedisCpp.Server) : Prop :=
  ∀ key, ∃ reply, redis [text "GET", key] = some reply ∧ Readable reply

/-- A step, and how Redis replies while it lasts. -/
structure Label where
  redis : Model.RedisCpp.Server
  event : Event

def step (server : Server) (label : Label) : Server := server.step label.redis label.event

/-- The key that a step asks Redis for. -/
def asks (server : Server) (event : Event) : Option CppString :=
  match event, server.redisThread with
  | .redisThread _, .process task => some (cStr (redisLoginUserId task.pData))
  | _, _ => none

/-- The `GET` that a step sends is answered with nil or a text. -/
def Answered (server : Server) (label : Label) : Prop :=
  ∀ key ∈ asks server label.event, ∃ reply ∈ label.redis [text "GET", key], Readable reply

instance (server : Server) (label : Label) : Decidable (Answered server label) :=
  inferInstanceAs (Decidable (∀ key ∈ asks server label.event, ∃ reply ∈ label.redis [text "GET", key], Readable reply))

/-- The `REQUEST_LOGIN` tasks that a step pushes. -/
def pushed (server : Server) (label : Label) : List RedisTask :=
  (requested server label.event).map fun request =>
    PacketManager.loginTask request.clientIndex request.pPacket request.behind

/-- The tasks that `TakeResponseTask` returns in a step. -/
def taken (server : Server) (label : Label) : List RedisTask :=
  match label.event, server.packetThread with
  | .packetThread _, .takeResponseTask => server.packetManager.mRedisMgr.mResponseTask.head?.toList
  | _, _ => []

/-- The task in the Redis thread's hands. -/
def inProcessing : RedisThread → List RedisTask
  | .process task | .pushResponse task => [task]
  | .takeRequestTask | .crashed => []

/-- The tasks between a push and a take, the oldest first. -/
def underWay (server : Server) : List RedisTask :=
  server.packetManager.mRedisMgr.mResponseTask ++ inProcessing server.redisThread ++
    server.packetManager.mRedisMgr.mRequestTask

/-- A `get` over a live link returns, with or without a value. -/
theorem get_of_readable {conn : CRedisConn} (connected : conn.connected = true) (context : conn.redCtx = true)
    {redis : Model.RedisCpp.Server} {key : CppString} {reply : RedisReply}
    (replied : redis [text "GET", cStr key] = some reply) (readable : Readable reply) :
    ∃ value errStr, conn.get redis key = some (value, { conn with errStr := errStr }) := by
  rcases conn with ⟨redCtx, linked, errStr⟩
  obtain rfl : linked = true := connected
  obtain rfl : redCtx = true := context
  simp only [CRedisConn.get]
  rw [replied]
  cases reply with
  | string str => exact ⟨_, _, rfl⟩
  | status str => exact ⟨_, _, rfl⟩
  | error str => exact ⟨_, _, rfl⟩
  | nil => exact ⟨_, _, rfl⟩
  | integer value =>
    rcases readable with none | some
    · cases none
    · cases some
  | array element =>
    rcases readable with none | some
    · cases none
    · cases some

/-- `TaskProcessThread` answers a login request to the client that made it. -/
theorem processTask_userIndex {conn : CRedisConn} (connected : conn.connected = true)
    (context : conn.redCtx = true) {redis : Model.RedisCpp.Server} {task : RedisTask}
    (login : task.taskId = .requestLogin)
    (answers : ∃ reply ∈ redis [text "GET", cStr (redisLoginUserId task.pData)], Readable reply)
    (behind : Bytes) :
    ∃ response errStr, processTask conn redis task behind =
      some (some response, { conn with errStr := errStr }) ∧ response.userIndex = task.userIndex := by
  obtain ⟨reply, replied, readable⟩ := answers
  obtain ⟨value, errStr, got⟩ := get_of_readable connected context replied readable
  simp only [processTask]
  rw [if_pos login, got, Option.map_some]
  exact ⟨_, errStr, rfl, rfl⟩

/-- A step of the Redis thread leaves the tasks in their order. -/
theorem taskProcessThread_underWay {server : Server} (live : Live server) {redis : Model.RedisCpp.Server}
    {behind : Bytes} (answered : Answered server ⟨redis, .redisThread behind⟩) :
    Live (server.taskProcessThread redis behind) ∧
      (underWay (server.taskProcessThread redis behind)).map RedisTask.userIndex =
        (underWay server).map RedisTask.userIndex := by
  have queues := live.toQueues.taskProcessThread redis behind
  obtain ⟨⟨_, request, _, _, redisThread⟩, connected, context, running⟩ := live
  simp only [Server.taskProcessThread] at queues ⊢
  simp only [Answered, asks] at answered
  cases thread : server.redisThread with
  | takeRequestTask =>
    rw [thread] at queues
    dsimp only at queues ⊢
    cases queued : server.packetManager.mRedisMgr.mRequestTask with
    | nil =>
      rw [RedisManager.takeRequestTask_nil _ queued] at queues ⊢
      refine ⟨⟨queues, connected, context, by rintro ⟨⟩⟩, ?_⟩
      simp only [underWay, thread]
      rfl
    | cons task rest =>
      have kind := request task (queued ▸ List.mem_cons_self)
      rw [RedisManager.takeRequestTask_cons _ queued, if_pos (by rw [kind]; decide)] at queues ⊢
      refine ⟨⟨queues, connected, context, by rintro ⟨⟩⟩, ?_⟩
      simp only [underWay, thread, queued, inProcessing, List.append_nil, List.append_assoc,
        List.singleton_append]
  | process task =>
    rw [thread] at redisThread queues answered
    obtain ⟨response, errStr, made, same⟩ :=
      processTask_userIndex connected context redisThread (answered _ rfl) behind
    dsimp only at queues ⊢
    rw [made] at queues ⊢
    refine ⟨⟨queues, connected, context, by rintro ⟨⟩⟩, ?_⟩
    simp only [underWay, thread, inProcessing, Option.elim_some, List.map_append, List.map_cons,
      List.map_nil, same]
  | pushResponse task =>
    rw [thread] at queues
    refine ⟨⟨queues, connected, context, by rintro ⟨⟩⟩, ?_⟩
    simp only [underWay, thread, inProcessing, RedisManager.pushResponse, List.append_nil]
  | crashed => exact absurd thread running

/-- What a step of the packet thread does to the Redis manager. -/
theorem processPacket_mRedisMgr {server : Server} (queues : Queues server) (behind : Bytes) :
    (server.processPacket behind).packetManager.mRedisMgr =
      match server.packetThread with
      | .processClient packetData =>
          if packetData.packetId = PacketId.loginRequest.value ∧ server.packetManager.AsksRedis
              ⟨.processLogin, packetData.clientIndex, packetData.dataSize,
                server.packetManager.pointer packetData, behind⟩ then
            server.packetManager.mRedisMgr.pushTask (PacketManager.loginTask packetData.clientIndex
              (server.packetManager.pointer packetData) behind)
          else server.packetManager.mRedisMgr
      | .takeResponseTask => server.packetManager.mRedisMgr.takeResponseTask.2
      | _ => server.packetManager.mRedisMgr := by
  have holds := queues.packetThread
  have other {client id size : ℕ} {pPacket : Bytes} (different : id ≠ PacketId.loginRequest.value) :
      (server.packetManager.processRecvPacket client id size pPacket behind).mRedisMgr =
        server.packetManager.mRedisMgr := by
    rw [PacketManager.processRecvPacket_mRedisMgr, if_neg fun asks => different asks.1]
  simp only [Server.processPacket]
  cases thread : server.packetThread with
  | dequePacketData =>
    obtain ⟨users, rest, same⟩ := server.packetManager.dequePacketData_eq
    dsimp only
    rw [same]
  | processClient packetData => exact PacketManager.processRecvPacket_mRedisMgr ..
  | dequeSystemPacketData =>
    dsimp only
    cases queued : server.packetManager.mSystemPacketQueue with
    | nil => rw [PacketManager.dequeSystemPacketData_nil _ queued]
    | cons packetData rest => rw [PacketManager.dequeSystemPacketData_cons _ queued]
  | processSystem packetData =>
    rw [thread] at holds
    apply other
    rcases holds with connect | disconnect
    · rw [connect]
      decide
    · rw [disconnect]
      decide
  | takeResponseTask => rfl
  | processResponse task =>
    rw [thread] at holds
    apply other
    rw [show task.taskId = .responseLogin from holds]
    decide

/-- A step of the packet thread takes the oldest task or adds the newest one. -/
theorem processPacket_underWay {server : Server} (live : Live server) {label : Label} {behind : Bytes}
    (moves : label.event = .packetThread behind) :
    taken server label ++ underWay (server.processPacket behind) = underWay server ++ pushed server label := by
  have manager := processPacket_mRedisMgr live.toQueues behind
  have redisThread := (processPacket_link server behind).2
  simp only [underWay, pushed, taken, requested]
  rw [manager, redisThread, moves]
  cases thread : server.packetThread with
  | processClient packetData =>
    dsimp only
    split_ifs
    · simp only [RedisManager.pushTask, List.map_cons, List.map_nil, List.nil_append, List.append_assoc]
    · simp only [List.map_nil, List.nil_append, List.append_nil]
  | takeResponseTask =>
    dsimp only
    cases queued : server.packetManager.mRedisMgr.mResponseTask with
    | nil =>
      rw [RedisManager.takeResponseTask_nil _ queued, queued]
      exact (List.append_nil _).symm
    | cons task rest =>
      rw [RedisManager.takeResponseTask_cons _ queued]
      exact (List.append_nil _).symm
  | _ => exact (List.append_nil _).symm

theorem live_step {server : Server} (live : Live server) {label : Label} (answered : Answered server label) :
    Live (step server label) := by
  rcases label with ⟨redis, event⟩
  refine live.step_of_redisThread fun behind moves => ?_
  obtain rfl : event = .redisThread behind := moves
  exact (taskProcessThread_underWay live answered).1

/-- Every step gives out tasks from the front and takes tasks in at the back. -/
theorem step_conserves {server : Server} (live : Live server) {label : Label} (answered : Answered server label) :
    (taken server label).map RedisTask.userIndex ++ (underWay (step server label)).map RedisTask.userIndex =
      (underWay server).map RedisTask.userIndex ++ (pushed server label).map RedisTask.userIndex := by
  rcases label with ⟨redis, event⟩
  cases event with
  | receive client chunk => exact (List.append_nil _).symm
  | onConnect client => exact (List.append_nil _).symm
  | onClose client => exact (List.append_nil _).symm
  | redisThread behind => exact (taskProcessThread_underWay live answered).2.trans (List.append_nil _).symm
  | packetThread behind =>
    rw [← List.map_append, ← List.map_append]
    exact congrArg _ (processPacket_underWay live rfl)

/-- How many steps the Redis thread needs for the requests it has and those queued. -/
def remaining (server : Server) : ℕ :=
  3 * server.packetManager.mRedisMgr.mRequestTask.length +
    match server.redisThread with
    | .process _ => 2
    | .pushResponse _ => 1
    | _ => 0

/-- A Redis that keeps to what it documents answers every step. -/
theorem AnswersGet.answered {redis : Model.RedisCpp.Server} (answers : AnswersGet redis) (server : Server)
    (event : Event) : Answered server ⟨redis, event⟩ := fun key _ => answers key

theorem remaining_taskProcessThread {server : Server} (live : Live server) {redis : Model.RedisCpp.Server}
    (answers : AnswersGet redis) (behind : Bytes) (busy : remaining server ≠ 0) :
    remaining (server.taskProcessThread redis behind) < remaining server := by
  have ⟨⟨_, request, _, _, redisThread⟩, connected, context, running⟩ := live
  simp only [remaining] at busy ⊢
  simp only [Server.taskProcessThread]
  cases thread : server.redisThread with
  | takeRequestTask =>
    rw [thread] at busy
    dsimp only at busy ⊢
    cases queued : server.packetManager.mRedisMgr.mRequestTask with
    | nil =>
      rw [queued] at busy
      exact absurd rfl busy
    | cons task rest =>
      have kind := request task (queued ▸ List.mem_cons_self)
      rw [RedisManager.takeRequestTask_cons _ queued, if_pos (by rw [kind]; decide)]
      dsimp only
      rw [List.length_cons]
      omega
  | process task =>
    rw [thread] at redisThread
    obtain ⟨response, errStr, made, -⟩ := processTask_userIndex connected context redisThread (answers _) behind
    dsimp only
    rw [made]
    exact Nat.lt_succ_self _
  | pushResponse task => exact Nat.lt_succ_self _
  | crashed => exact absurd thread running

/-- The Redis thread alone brings all requests to the response queue. -/
theorem exists_drained {server : Server} (live : Live server) {redis : Model.RedisCpp.Server}
    (answers : AnswersGet redis) (behind : Bytes) :
    ∃ count, let drained := run step server (List.replicate count ⟨redis, .redisThread behind⟩)
      underWay drained = drained.packetManager.mRedisMgr.mResponseTask ∧
        (underWay drained).map RedisTask.userIndex = (underWay server).map RedisTask.userIndex := by
  induction left : remaining server using Nat.strong_induction_on generalizing server with
  | _ steps ih =>
    by_cases done : remaining server = 0
    · refine ⟨0, ?_, rfl⟩
      simp only [remaining] at done
      have none : server.packetManager.mRedisMgr.mRequestTask = [] :=
        List.eq_nil_of_length_eq_zero (by omega)
      have idle : inProcessing server.redisThread = [] := by
        cases thread : server.redisThread with
        | process task =>
          rw [thread] at done
          exact absurd done (Nat.succ_ne_zero _)
        | pushResponse task =>
          rw [thread] at done
          exact absurd done (Nat.succ_ne_zero _)
        | takeRequestTask => rfl
        | crashed => rfl
      change underWay server = server.packetManager.mRedisMgr.mResponseTask
      simp only [underWay]
      rw [none, idle, List.append_nil, List.append_nil]
    · obtain ⟨liveNext, same⟩ := taskProcessThread_underWay live (answers.answered server (.redisThread behind))
      have fewer := remaining_taskProcessThread live answers behind done
      obtain ⟨count, empty, kept⟩ := ih _ (left ▸ fewer) liveNext rfl
      exact ⟨count + 1, empty, kept.trans same⟩

/-- For every interleaving of the packet thread, the Redis thread and the IO workers in which every `GET` is
answered with nil or a text: the tasks taken by `TakeResponseTask`, followed by `mResponseTask`, the task in
processing and `mRequestTask`, match the tasks pushed one by one, in order and with equal `UserIndex`. Those
taken or in `mResponseTask` are login responses. From every state the Redis thread alone brings about one
response for each task pushed, to the same client and in the same order. -/
theorem tasks_conserved (maxClient : ℕ) (allocated : ℕ → Bytes) {labels : List Label}
    (answered : Along step Answered (Server.init maxClient allocated) labels) :
    let server := run step (Server.init maxClient allocated) labels
    let takenTasks := outputs step taken (Server.init maxClient allocated) labels
    let pushedTasks := outputs step pushed (Server.init maxClient allocated) labels
    (takenTasks ++ underWay server).map RedisTask.userIndex = pushedTasks.map RedisTask.userIndex ∧
      (∀ task ∈ pushedTasks, task.taskId = .requestLogin) ∧
      (∀ task ∈ takenTasks ++ server.packetManager.mRedisMgr.mResponseTask, task.taskId = .responseLogin) ∧
      ∀ redis, AnswersGet redis → ∀ behind, ∃ count,
        let drained := run step server (List.replicate count ⟨redis, .redisThread behind⟩)
        (takenTasks ++ drained.packetManager.mRedisMgr.mResponseTask).map RedisTask.userIndex =
          pushedTasks.map RedisTask.userIndex := by
  intro server takenTasks pushedTasks
  have initial := live_init maxClient allocated
  have preserved (server : Server) (label : Label) (live : Live server) (answered : Answered server label) :=
    live_step live answered
  have live : Live server := (always_of_along preserved initial answered).last
  have conserved : (takenTasks ++ underWay server).map RedisTask.userIndex =
      pushedTasks.map RedisTask.userIndex := by
    rw [List.map_append, ← outputs_map, ← outputs_map]
    exact outputs_append_held_along Live (fun server => (underWay server).map RedisTask.userIndex) preserved
      (fun _ _ live answered => step_conserves live answered) initial answered
  have kept (server : Server) (label : Label) (queues : Queues server) : Queues (step server label) :=
    queues.step label.redis label.event
  refine ⟨conserved, ?_, ?_, fun redis answers behind => ?_⟩
  · refine forall_mem_outputs Queues kept ?_ initial.toQueues labels
    intro _ _ _ task member
    obtain ⟨request, -, rfl⟩ := List.mem_map.mp member
    rfl
  · have responses : ∀ task ∈ takenTasks, task.taskId = .responseLogin := by
      refine forall_mem_outputs Queues kept ?_ initial.toQueues labels
      intro source label queues task member
      simp only [taken] at member
      split at member
      · exact queues.response task (List.mem_of_mem_head? (Option.mem_toList.mp member))
      · exact absurd member List.not_mem_nil
    intro task member
    rcases List.mem_append.mp member with took | queued
    · exact responses task took
    · exact live.response task queued
  · obtain ⟨count, empty, same⟩ := exists_drained live answers behind
    refine ⟨count, ?_⟩
    intro drained
    rw [← conserved, List.map_append, List.map_append, ← same]
    exact congrArg (fun tasks => _ ++ List.map RedisTask.userIndex tasks) empty.symm

/-- A client logs in, and so many steps of the Redis thread get the same reply. -/
def loginLabels (client : ℕ) (reply : RedisReply) (steps : ℕ) : List Label :=
  let events : List Event :=
    [.receive client loginChunk] ++ List.replicate 3 (.packetThread fun _ => 0) ++
      List.replicate steps (.redisThread fun _ => 0) ++ List.replicate 2 (.packetThread fun _ => 0)
  events.map fun event => ⟨fun _ => some reply, event⟩

/-- Three clients are answered with a text, nil and an error, the last of them not yet. -/
def threeLogins : List Label :=
  loginLabels 0 (.string [121]) 3 ++ loginLabels 1 .nil 3 ++ loginLabels 2 (.error (text "LOADING")) 2

theorem tasks_conserved_three :
    let server := run step (Server.init 3 fun _ _ => 0) threeLogins
    let takenTasks := outputs step taken (Server.init 3 fun _ _ => 0) threeLogins
    let pushedTasks := outputs step pushed (Server.init 3 fun _ _ => 0) threeLogins
    takenTasks.map RedisTask.userIndex = [0, 1] ∧ (underWay server).map RedisTask.userIndex = [2] ∧
      (takenTasks ++ underWay server).map RedisTask.userIndex = pushedTasks.map RedisTask.userIndex := by
  refine ⟨by decide +kernel, by decide +kernel, ?_⟩
  exact (tasks_conserved 3 (fun _ _ => 0) (show Along step Answered _ threeLogins by decide +kernel)).1

/-- A reply that is an integer has no text: the Redis thread crashes, and the task is lost. -/
theorem tasks_lost :
    let labels := loginLabels 0 (.integer 1) 3
    let server := run step (Server.init 3 fun _ _ => 0) labels
    let takenTasks := outputs step taken (Server.init 3 fun _ _ => 0) labels
    let pushedTasks := outputs step pushed (Server.init 3 fun _ _ => 0) labels
    pushedTasks.map RedisTask.userIndex = [0] ∧
      ¬ (takenTasks ++ underWay server).map RedisTask.userIndex = pushedTasks.map RedisTask.userIndex := by
  constructor <;> decide +kernel

end CppRedis.Soundness.Tasks
