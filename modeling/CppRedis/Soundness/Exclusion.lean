import CppRedis.Soundness.Tasks

/-! # One client for each user id

`ProcessLogin` looks the user id up in `mUserIDDictionary` and the login is granted after a round trip
through Redis, when `ProcessLoginDBResult` answers without an error. Nothing ever calls `AddUser`: the
branch for a granted login is empty, the dictionary stays empty in every run, and no request is refused
because its id is taken. A ghost state remembers which requests Redis has been asked, and which ids were
granted to each client on its connection. Every id has one holder exactly as long as nobody asks, and no
response without an error comes in, for an id that another client holds.
-/

namespace CppRedis.Soundness.Exclusion

open Machine Model.GameServer Login Tasks

/-- A step of the server, with a Redis that replies to `GET` as it documents while the step lasts. -/
structure Label extends Tasks.Label where
  answers : AnswersGet redis

theorem Label.answered (label : Label) (server : Server) : Answered server label.toLabel :=
  label.answers.answered server label.event

/-- The server, the requests Redis has been asked and not answered yet, the oldest first, the connected
clients, and the user ids granted to each client on its connection. -/
structure Logins where
  server : Server
  asked : List (ℕ × CppString) := []
  connected : ℕ → Bool := fun _ => false
  holds : ℕ → List CppString := fun _ => []

/-- The client that makes a request, and the user id that `ProcessLogin` looks up for it. -/
def asking (request : Request) : ℕ × CppString :=
  (request.clientIndex, cString (request.pPacket.offset packetHeaderLength))

/-- Whether a step handles a response of Redis. -/
def responds (server : Server) (event : Event) : Bool :=
  match event, server.packetThread with
  | .packetThread _, .processResponse _ => true
  | _, _ => false

namespace Logins

/-- The user id a step grants and to whom: a login response without an error, sent to a connected client
for a response of Redis, answers the oldest request. -/
def grant (logins : Logins) (label : Label) : Option (ℕ × CppString) :=
  match answered label.redis logins.server label.event, logins.asked with
  | (client, result) :: _, (_, userId) :: _ =>
      if result = ErrorCode.none.code ∧ logins.connected client = true then some (client, userId) else none
  | _, _ => none

/-- A step of the server. A connection lasts from its connect notice to its close notice. -/
def step (logins : Logins) (label : Label) : Logins where
  server := Tasks.step logins.server label.toLabel
  asked :=
    (if responds logins.server label.event then logins.asked.tail else logins.asked) ++
      (requested logins.server label.event).map asking
  connected :=
    match label.event with
    | .onConnect client => Function.update logins.connected client true
    | .onClose client => Function.update logins.connected client false
    | _ => logins.connected
  holds :=
    match label.event with
    | .onConnect client | .onClose client => Function.update logins.holds client []
    | _ =>
        match logins.grant label with
        | some (client, userId) => Function.update logins.holds client (userId :: logins.holds client)
        | none => logins.holds

def init (maxClient : ℕ) (allocated : ℕ → Bytes) : Logins where
  server := Server.init maxClient allocated

/-- Another client has been granted the user id and is still connected. -/
def HeldByOther (logins : Logins) (client : ℕ) (userId : CppString) : Prop :=
  ∃ other, other ≠ client ∧ userId ∈ logins.holds other

end Logins

/-- The login request a step handles. A packet that is not of the size of one is dropped unread. -/
def handled (server : Server) (event : Event) : Option (ℕ × CppString) :=
  match event, server.packetThread with
  | .packetThread _, .processClient packetData =>
      if packetData.packetId = PacketId.loginRequest.value ∧
          loginRequestPacketSize = packetData.dataSize then
        some (packetData.clientIndex,
          cString ((server.packetManager.pointer packetData).offset packetHeaderLength))
      else none
  | _, _ => none

/-- A request for an id that another client holds is answered with `LOGIN_USER_ALREADY`. -/
def RefusesHeld (logins : Logins) (label : Label) : Prop :=
  ∀ client userId, handled logins.server label.event = some (client, userId) →
    logins.HeldByOther client userId →
      (client, ErrorCode.loginUserAlready.code) ∈ loginResponses
        (logins.server.packetManager.newlySent (logins.step label).server.packetManager)

/-- No two connected clients have been granted one id. -/
def Exclusive (logins : Logins) : Prop :=
  ∀ client, ∀ userId ∈ logins.holds client, ¬ logins.HeldByOther client userId

/-- Nobody asks for an id that another client holds. -/
def AsksUnheld (logins : Logins) (label : Label) : Prop :=
  ∀ client userId, handled logins.server label.event = some (client, userId) →
    ¬ logins.HeldByOther client userId

/-- When the packet thread is about to answer a connected client with a response of Redis that has no
error, no other client holds the id that the response is for. -/
def AnswersUnheld (logins : Logins) (label : Label) : Prop :=
  ∀ behind task client userId rest, label.event = .packetThread behind →
    logins.server.packetThread = .processResponse task →
    (uint16At task.pData 0).toUInt16 = ErrorCode.none.code →
    logins.connected task.userIndex = true → logins.asked = (client, userId) :: rest →
      ¬ logins.HeldByOther task.userIndex userId

/-- No user id is registered. -/
def Unregistered (manager : PacketManager) : Prop :=
  ∀ userId, manager.mUserManager.mUserIDDictionary userId = none

theorem Unregistered.deleteUserInfo {manager : PacketManager} (unregistered : Unregistered manager)
    (client : ℕ) :
    Unregistered { manager with mUserManager := manager.mUserManager.deleteUserInfo client } := by
  intro userId
  simp only [UserManager.deleteUserInfo, UserManager.modify, Function.update_apply]
  split_ifs
  · rfl
  · exact unregistered userId

theorem Unregistered.leaveUser {manager : PacketManager} (unregistered : Unregistered manager)
    (client : ℕ) : Unregistered (manager.leaveUser client).2 := by
  intro userId
  exact (congrFun (RoomManager.leaveUser_mUserIDDictionary ..) userId).trans (unregistered userId)

/-- No handler registers a user id. -/
theorem Unregistered.call {manager : PacketManager} (unregistered : Unregistered manager) (call : Call) :
    Unregistered (manager.call call) := by
  rcases call with ⟨handler, client, size, pPacket, behind⟩
  cases handler with
  | processUserConnect => exact unregistered
  | processUserDisConnect =>
    simp only [PacketManager.call, PacketManager.processUserDisConnect, PacketManager.clearConnectionInfo]
    split_ifs
    · exact (unregistered.leaveUser client).deleteUserInfo client
    · exact unregistered.leaveUser client
    · exact unregistered.deleteUserInfo client
    · exact unregistered
  | processLogin =>
    simp only [PacketManager.call, PacketManager.processLogin]
    split_ifs <;> exact unregistered
  | processLoginDBResult => exact unregistered
  | processEnterRoom =>
    intro userId
    exact (congrFun (RoomManager.enterUser_mUserIDDictionary ..) userId).trans (unregistered userId)
  | processLeaveRoom => exact unregistered.leaveUser client
  | processRoomChatMessage =>
    obtain ⟨sent, same⟩ := manager.processRoomChatMessage_eq client pPacket behind
    rw [PacketManager.call, same]
    exact unregistered

theorem Unregistered.processRecvPacket {manager : PacketManager} (unregistered : Unregistered manager)
    (client id size : ℕ) (pPacket behind : Bytes) :
    Unregistered (manager.processRecvPacket client id size pPacket behind) := by
  simp only [PacketManager.processRecvPacket]
  split
  · exact unregistered
  · exact unregistered.call _

/-- The dictionary stays empty. -/
theorem Unregistered.step {server : Server} (unregistered : Unregistered server.packetManager)
    (label : Label) : Unregistered (Tasks.step server label.toLabel).packetManager := by
  rcases label with ⟨⟨redis, event⟩, answers⟩
  cases event with
  | receive client chunk => exact unregistered
  | onConnect client => exact unregistered
  | onClose client => exact unregistered
  | redisThread behind =>
    obtain ⟨redisMgr, same⟩ := server.taskProcessThread_packetManager redis behind
    change Unregistered (server.taskProcessThread redis behind).packetManager
    rw [same]
    exact unregistered
  | packetThread behind =>
    change Unregistered (server.processPacket behind).packetManager
    simp only [Server.processPacket]
    cases server.packetThread with
    | dequePacketData =>
      dsimp only
      cases queued : server.packetManager.mInComingPacketUserIndex with
      | nil =>
        rw [PacketManager.dequePacketData_nil _ queued]
        exact unregistered
      | cons client rest =>
        rw [PacketManager.dequePacketData_cons _ queued]
        exact unregistered
    | dequeSystemPacketData =>
      dsimp only
      cases queued : server.packetManager.mSystemPacketQueue with
      | nil =>
        rw [PacketManager.dequeSystemPacketData_nil _ queued]
        exact unregistered
      | cons packetData rest =>
        rw [PacketManager.dequeSystemPacketData_cons _ queued]
        exact unregistered
    | takeResponseTask => exact unregistered
    | processClient packetData => exact unregistered.processRecvPacket _ _ _ _ _
    | processSystem packetData => exact unregistered.processRecvPacket _ _ _ _ _
    | processResponse task => exact unregistered.processRecvPacket _ _ _ _ _

/-- While no id is registered, no login request is answered with `LOGIN_USER_ALREADY`. -/
theorem Unregistered.processLogin {manager : PacketManager} (unregistered : Unregistered manager)
    (client size : ℕ) (pPacket behind : Bytes) :
    (client, ErrorCode.loginUserAlready.code) ∉
      loginResponses (manager.newlySent (manager.processLogin client size pPacket behind)) := by
  have missing (userId : CppString) : manager.mUserManager.findUserIndexByID userId = -1 := by
    rw [UserManager.findUserIndexByID, unregistered userId]
  have silent {next : PacketManager} (same : next.sent = manager.sent) :
      (client, ErrorCode.loginUserAlready.code) ∉ loginResponses (manager.newlySent next) := by
    rw [PacketManager.newlySent, same, List.drop_length]
    exact List.not_mem_nil
  simp only [PacketManager.processLogin]
  rw [if_pos (missing _)]
  split_ifs
  · exact silent rfl
  · rw [PacketManager.newlySent, PacketManager.sendPacketFunc, List.drop_left]
    intro answered
    exact absurd (Prod.mk.inj (List.mem_singleton.mp answered)).2 (by decide)
  · exact silent rfl

/-- What a step that handles a login request does. -/
theorem handled_eq_some {server : Server} {label : Label} {client : ℕ} {userId : CppString}
    (request : handled server label.event = some (client, userId)) :
    ∃ size pPacket behind, (Tasks.step server label.toLabel).packetManager =
      server.packetManager.processLogin client size pPacket behind := by
  rcases label with ⟨⟨redis, event⟩, answers⟩
  unfold handled at request
  split at request
  · next behind packetData moves thread =>
    obtain rfl : event = .packetThread behind := moves
    split_ifs at request with login
    obtain ⟨rfl, -⟩ := Prod.mk.inj (Option.some.inj request)
    refine ⟨packetData.dataSize, server.packetManager.pointer packetData, behind, ?_⟩
    change (server.processPacket behind).packetManager = _
    simp only [Server.processPacket]
    rw [thread]
    dsimp only
    rw [login.1]
    rfl
  · cases request

/-- A request for an id of another client is never refused, so there must not be any. -/
theorem refusesHeld_iff {logins : Logins} (unregistered : Unregistered logins.server.packetManager)
    (label : Label) : RefusesHeld logins label ↔ AsksUnheld logins label := by
  refine forall_congr' fun client => forall_congr' fun userId => forall_congr' fun request => ?_
  obtain ⟨size, pPacket, behind, same⟩ := handled_eq_some request
  refine imp_congr_right fun _ => iff_false_intro ?_
  rw [show (logins.step label).server.packetManager = _ from same]
  exact unregistered.processLogin client size pPacket behind

/-- Taking ids away from one client. -/
theorem Exclusive.cleared {logins next : Logins} (exclusive : Exclusive logins) (client : ℕ)
    (fewer : next.holds = Function.update logins.holds client []) : Exclusive next := by
  have kept {other : ℕ} {userId : CppString} (held : userId ∈ next.holds other) :
      userId ∈ logins.holds other := by
    rw [fewer, Function.update_apply] at held
    split_ifs at held
    · cases held
    · exact held
  rintro holder userId held ⟨other, different, again⟩
  exact exclusive holder userId (kept held) ⟨other, different, kept again⟩

/-- Granting one more id. -/
theorem exclusive_grant_iff {logins next : Logins} (exclusive : Exclusive logins) {client : ℕ}
    {userId : CppString}
    (granted : next.holds = Function.update logins.holds client (userId :: logins.holds client)) :
    Exclusive next ↔ ¬ logins.HeldByOther client userId := by
  have other {user : ℕ} (different : user ≠ client) : next.holds user = logins.holds user := by
    rw [granted, Function.update_of_ne different]
  have self : next.holds client = userId :: logins.holds client := by
    rw [granted, Function.update_self]
  constructor
  · rintro after ⟨user, different, held⟩
    refine after client userId (self ▸ List.mem_cons_self) ⟨user, different, ?_⟩
    rw [other different]
    exact held
  · intro free holder held member
    rintro ⟨user, different, again⟩
    -- The new id is with one of the two holders, or neither of them is the client it was granted to.
    by_cases first : holder = client
    · subst first
      rw [other different] at again
      rw [self] at member
      rcases List.mem_cons.mp member with rfl | old
      · exact free ⟨user, different, again⟩
      · exact exclusive holder held old ⟨user, different, again⟩
    · rw [other first] at member
      by_cases second : user = client
      · subst second
        rw [self] at again
        rcases List.mem_cons.mp again with rfl | old
        · exact free ⟨holder, first, member⟩
        · exact exclusive holder held member ⟨user, different, old⟩
      · rw [other second] at again
        exact exclusive holder held member ⟨user, different, again⟩

/-- Only a response of Redis grants anything. -/
theorem grant_eq_none {logins : Logins} (label : Label)
    (other : ∀ task, logins.server.packetThread ≠ .processResponse task) : logins.grant label = none := by
  simp only [Logins.grant]
  rw [answered_eq_nil other]

theorem grant_processResponse {logins : Logins} (queues : Dispatch.Queues logins.server) {label : Label}
    {behind : Bytes} (moves : label.event = .packetThread behind) {task : RedisTask}
    (thread : logins.server.packetThread = .processResponse task) {client : ℕ} {userId : CppString}
    {rest : List (ℕ × CppString)} (oldest : logins.asked = (client, userId) :: rest) :
    logins.grant label =
      if (uint16At task.pData 0).toUInt16 = ErrorCode.none.code ∧ logins.connected task.userIndex = true then
        some (task.userIndex, userId)
      else none := by
  have kind := queues.packetThread
  rw [thread] at kind
  simp only [Logins.grant]
  rw [moves, answered_processResponse kind thread, oldest]
  rfl

/-- One step keeps the ids apart exactly when it grants no id that another client holds. -/
theorem exclusive_step_iff {logins : Logins} (queues : Dispatch.Queues logins.server)
    (exclusive : Exclusive logins) (label : Label) :
    Exclusive (logins.step label) ↔ AnswersUnheld logins label := by
  have quiet (same : (logins.step label).holds = logins.holds) : Exclusive (logins.step label) := by
    simp only [Exclusive, Logins.HeldByOther]
    rw [same]
    exact exclusive
  have unmoved (other : ∀ behind, label.event ≠ .packetThread behind) : AnswersUnheld logins label :=
    fun behind _ _ _ _ moves => absurd moves (other behind)
  rcases label with ⟨⟨redis, event⟩, answers⟩
  cases event with
  | receive client chunk => exact iff_of_true (quiet rfl) (unmoved nofun)
  | redisThread behind => exact iff_of_true (quiet rfl) (unmoved nofun)
  | onConnect client => exact iff_of_true (exclusive.cleared client rfl) (unmoved nofun)
  | onClose client => exact iff_of_true (exclusive.cleared client rfl) (unmoved nofun)
  | packetThread behind =>
    have holds : (logins.step ⟨⟨redis, .packetThread behind⟩, answers⟩).holds =
        match logins.grant ⟨⟨redis, .packetThread behind⟩, answers⟩ with
        | some (client, userId) => Function.update logins.holds client (userId :: logins.holds client)
        | none => logins.holds := rfl
    by_cases responding : ∃ task, logins.server.packetThread = .processResponse task
    swap
    · have other (task : RedisTask) : logins.server.packetThread ≠ .processResponse task :=
        fun thread => responding ⟨task, thread⟩
      rw [grant_eq_none _ other] at holds
      exact iff_of_true (quiet holds) fun _ task _ _ _ _ thread => absurd thread (other task)
    obtain ⟨task, thread⟩ := responding
    have held {hand : RedisTask} (also : logins.server.packetThread = .processResponse hand) :
        hand = task := PacketThread.processResponse.inj (also.symm.trans thread)
    cases oldest : logins.asked with
    | nil =>
      have silent : logins.grant ⟨⟨redis, .packetThread behind⟩, answers⟩ = none := by
        simp only [Logins.grant]
        rw [oldest]
        split
        · next cons => cases cons
        · rfl
      rw [silent] at holds
      refine iff_of_true (quiet holds) fun _ _ _ _ _ _ _ _ _ nonempty => ?_
      rw [oldest] at nonempty
      cases nonempty
    | cons request rest =>
      obtain ⟨client, userId⟩ := request
      rw [grant_processResponse queues rfl thread oldest] at holds
      split_ifs at holds with granted
      · refine (exclusive_grant_iff exclusive holds).trans ⟨fun free => ?_, fun unheld => ?_⟩
        · intro _ hand _ id _ _ also _ _ first
          obtain ⟨same, -⟩ := List.cons.inj (first.symm.trans oldest)
          obtain ⟨-, rfl⟩ := Prod.mk.inj same
          rw [held also]
          exact free
        · exact unheld behind task client userId rest rfl thread granted.1 granted.2 oldest
      · refine iff_of_true (quiet holds) fun _ hand _ _ _ _ also none connected _ => ?_
        rw [held also] at none connected
        exact absurd ⟨none, connected⟩ granted

/-- The response in the packet thread's hands. -/
def inHand : PacketThread → List RedisTask
  | .processResponse task => [task]
  | _ => []

/-- The requests asked and not answered are those in the packet thread's hands and under way, client by
client. -/
def Matched (logins : Logins) : Prop :=
  logins.asked.map Prod.fst =
    (inHand logins.server.packetThread ++ underWay logins.server).map RedisTask.userIndex

/-- A step that handles no response puts what it takes into the packet thread's hands. -/
theorem inHand_step {server : Server} (queues : Dispatch.Queues server) {label : Label}
    (other : responds server label.event = false) :
    inHand (Tasks.step server label.toLabel).packetThread =
      inHand server.packetThread ++ taken server label.toLabel := by
  rcases label with ⟨⟨redis, event⟩, answers⟩
  cases event with
  | receive client chunk => exact (List.append_nil _).symm
  | onConnect client => exact (List.append_nil _).symm
  | onClose client => exact (List.append_nil _).symm
  | redisThread behind =>
    change inHand (server.taskProcessThread redis behind).packetThread = _ ++ []
    rw [Server.taskProcessThread_packetThread, List.append_nil]
  | packetThread behind =>
    change inHand (server.processPacket behind).packetThread = _
    simp only [responds] at other
    simp only [Server.processPacket, taken]
    cases thread : server.packetThread with
    | processResponse task =>
      rw [thread] at other
      cases other
    | takeResponseTask =>
      dsimp only
      cases queued : server.packetManager.mRedisMgr.mResponseTask with
      | nil =>
        rw [RedisManager.takeResponseTask_nil _ queued]
        rfl
      | cons task rest =>
        have kind := queues.response task (queued ▸ List.mem_cons_self)
        rw [RedisManager.takeResponseTask_cons _ queued, if_pos (by rw [kind]; decide)]
        rfl
    | dequePacketData =>
      dsimp only
      split_ifs <;> rfl
    | dequeSystemPacketData =>
      dsimp only
      split_ifs <;> rfl
    | processClient packetData => rfl
    | processSystem packetData => rfl

/-- A step that handles a response. -/
theorem responds_eq_true {server : Server} {label : Label} (responding : responds server label.event = true) :
    (∃ task, inHand server.packetThread = [task]) ∧ inHand (Tasks.step server label.toLabel).packetThread = [] ∧
      taken server label.toLabel = [] := by
  rcases label with ⟨⟨redis, event⟩, answers⟩
  unfold responds at responding
  split at responding
  · next behind task moves thread =>
    obtain rfl : event = .packetThread behind := moves
    refine ⟨⟨task, by rw [thread]; rfl⟩, ?_, ?_⟩
    · change inHand (server.processPacket behind).packetThread = []
      simp only [Server.processPacket]
      rw [thread]
      rfl
    · simp only [taken]
      rw [thread]
  · cases responding

theorem Matched.step {logins : Logins} (live : Live logins.server) (matched : Matched logins) (label : Label) :
    Matched (logins.step label) := by
  have conserved := step_conserves live (label.answered logins.server)
  have clients : ((requested logins.server label.event).map asking).map Prod.fst =
      (pushed logins.server label.toLabel).map RedisTask.userIndex := by
    rw [pushed, List.map_map, List.map_map]
    rfl
  simp only [Matched] at matched ⊢
  simp only [Logins.step, List.map_append, clients] at matched ⊢
  cases responding : responds logins.server label.event with
  | false =>
    rw [inHand_step live.toQueues responding, if_neg (by decide), matched, List.map_append, List.append_assoc,
      List.append_assoc, conserved]
  | true =>
    obtain ⟨⟨task, hand⟩, empty, none⟩ := responds_eq_true responding
    rw [none, List.map_nil, List.nil_append] at conserved
    rw [empty, if_pos rfl, List.map_tail, matched, hand, conserved]
    rfl

/-- What holds in every state of every run. -/
structure Inv (logins : Logins) : Prop where
  live : Live logins.server
  unregistered : Unregistered logins.server.packetManager
  matched : Matched logins

theorem inv_init (maxClient : ℕ) (allocated : ℕ → Bytes) : Inv (Logins.init maxClient allocated) :=
  ⟨live_init maxClient allocated, fun _ => rfl, rfl⟩

theorem Inv.step {logins : Logins} (inv : Inv logins) (label : Label) : Inv (logins.step label) :=
  ⟨live_step inv.live (label.answered _), inv.unregistered.step label, inv.matched.step inv.live label⟩

/-- For every interleaving of login requests, replies of Redis, connects and closes: the requests asked
and not answered are, client by client, those on their way through Redis; and every request for an id that
another connected client was granted is refused with `LOGIN_USER_ALREADY` and no two connected clients
are ever granted one id, if and only if no request is handled for an id that another connected client
was granted, and no response without an error is handled while another connected client was granted the id
it is for. -/
theorem run_exclusive_iff_unheld (maxClient : ℕ) (allocated : ℕ → Bytes) (labels : List Label) :
    Always Logins.step Matched (Logins.init maxClient allocated) labels ∧
      (Along Logins.step RefusesHeld (Logins.init maxClient allocated) labels ∧
          Always Logins.step Exclusive (Logins.init maxClient allocated) labels ↔
        Along Logins.step (fun logins label => AsksUnheld logins label ∧ AnswersUnheld logins label)
          (Logins.init maxClient allocated) labels) := by
  have initial := inv_init maxClient allocated
  constructor
  · apply (always_iff_initial ..).mpr
    intro first _
    exact (run_invariant Inv (fun _ label inv => inv.step label) initial first).matched
  · rw [along_and]
    refine and_congr ?_ ?_
    · exact along_congr Inv (fun _ label inv => inv.step label)
        (fun _ label inv => refusesHeld_iff inv.unregistered label) initial labels
    · exact always_iff_along Inv (fun _ label inv => inv.step label)
        (fun _ label inv exclusive => exclusive_step_iff inv.live.toQueues exclusive label) initial
        (fun _ _ member => absurd member List.not_mem_nil) labels

/-- A database keeps to what Redis documents. -/
theorem answersGet_store (store : Model.RedisCpp.Store) : AnswersGet store.server := by
  intro key
  refine ⟨store.get key, store.server_get key, ?_⟩
  simp only [Model.RedisCpp.Store.get]
  split
  · exact Or.inl rfl
  · exact Or.inr rfl
  · exact Or.inr rfl

/-- A client sends a login for user `a`, and the packet thread, the Redis thread and the packet thread
go round until it is answered. -/
def loginRound (client : ℕ) : List Event :=
  [.receive client loginChunk] ++ List.replicate 4 (.packetThread fun _ => 0) ++
    List.replicate 3 (.redisThread fun _ => 0) ++ List.replicate 4 (.packetThread fun _ => 0)

/-- Two clients connect and log in one after the other. -/
def secondLogin : List Event :=
  [.onConnect 0, .onConnect 1] ++ List.replicate 8 (.packetThread fun _ => 0) ++ loginRound 0 ++ loginRound 1

/-- Both clients are connected and both have been granted user `a`. -/
theorem run_grants_twice :
    let labels : List Label := secondLogin.map fun event =>
      ⟨⟨loginStore.server, event⟩, answersGet_store loginStore⟩
    ¬ (Along Logins.step RefusesHeld (Logins.init 3 fun _ _ => 0) labels ∧
      Always Logins.step Exclusive (Logins.init 3 fun _ _ => 0) labels) := by
  rintro labels ⟨-, always⟩
  have first : [97] ∈ (run Logins.step (Logins.init 3 fun _ _ => 0) labels).holds 0 := by
    decide +kernel
  have second : [97] ∈ (run Logins.step (Logins.init 3 fun _ _ => 0) labels).holds 1 := by
    decide +kernel
  exact always.last 0 [97] first ⟨1, by decide, second⟩

end CppRedis.Soundness.Exclusion
