import CppRedis.Model.GameServer.RedisManager
import CppRedis.Model.GameServer.Room

/-! # The packet manager and its handlers

`PacketManager.cpp`. Handlers are called with a client index, a size and a `char*`. They read the
packet through the pointer, change users, rooms and the Redis queues in place, and send packets
through `SendPacketFunc`, whose calls are kept in order in `sent`. Where the code reads or copies
behind the end of an object, `behind` is what it finds there.
-/

namespace CppRedis.Model.GameServer

open Machine RedisCpp

/-- One call of `SendPacketFunc`. -/
structure Sent where
  clientIndex : ℕ
  dataSize : ℕ
  packet : ServerPacket
deriving DecidableEq, Repr

/-- `PacketManager`. -/
structure PacketManager where
  mUserManager : UserManager
  mRoomManager : RoomManager
  mRedisMgr : RedisManager
  mInComingPacketUserIndex : List ℕ := []
  mSystemPacketQueue : List PacketInfo := []
  sent : List Sent := []

namespace PacketManager

/-- `PacketManager::Init` and `CreateCompent`, after `Run` has connected to Redis. -/
def init (maxClient : ℕ) (allocated : ℕ → Bytes) : PacketManager where
  mUserManager := UserManager.init maxClient allocated
  mRoomManager := RoomManager.init 0 10 4
  mRedisMgr := { mConn := { redCtx := true, connected := true } }

variable (manager : PacketManager)

/-- `GetUserByConnIdx`, dereferenced. -/
def user (clientIndex : ℕ) : User := manager.mUserManager.mUserObjPool clientIndex

/-- The room at a place of `mRoomList`. -/
def room (index : ℕ) : Room := manager.mRoomManager.mRoomList index

/-- The room a user's `GetCurrentRoom` names, if there is one. -/
def currentRoom (clientIndex : ℕ) : Option ℕ :=
  manager.mRoomManager.getRoomByNumber (manager.user clientIndex).mRoomIndex

/-- `SendPacketFunc`. -/
def sendPacketFunc (clientIndex : ℕ) (packet : ServerPacket) : PacketManager :=
  { manager with sent := manager.sent ++ [⟨clientIndex, packet.length, packet⟩] }

/-- What has been sent since an earlier state. -/
def newlySent (after : PacketManager) : List Sent := after.sent.drop manager.sent.length

/-- The calls of `RoomManager::LeaveUser` made by the handlers, on the user's current room. -/
def leaveUser (clientIndex : ℕ) : ErrorCode × PacketManager :=
  let (result, rooms, users) := manager.mRoomManager.leaveUser manager.mUserManager
    (manager.user clientIndex).mRoomIndex clientIndex
  (result, { manager with mRoomManager := rooms, mUserManager := users })

/-- `PacketManager::ClearConnectionInfo`. -/
def clearConnectionInfo (clientIndex : ℕ) : PacketManager :=
  let manager :=
    if (manager.user clientIndex).mCurDomainState = .room then (manager.leaveUser clientIndex).2
    else manager
  if (manager.user clientIndex).mCurDomainState ≠ .none then
    { manager with mUserManager := manager.mUserManager.deleteUserInfo clientIndex }
  else manager

/-- `PacketManager::ReceivePacketData` with `EnqueuePacketData`. -/
def receivePacketData (clientIndex : ℕ) (data : List UInt8) : PacketManager :=
  { manager with
    mUserManager := manager.mUserManager.modify clientIndex (·.setPacketData data)
    mInComingPacketUserIndex := manager.mInComingPacketUserIndex ++ [clientIndex] }

/-- `PacketManager::DequePacketData`. -/
def dequePacketData : PacketInfo × PacketManager :=
  match manager.mInComingPacketUserIndex with
  | [] => ({}, manager)
  | userIndex :: rest =>
      let packetData := (manager.user userIndex).getPacket.1
      ({ packetData with clientIndex := userIndex },
        { manager with
          mInComingPacketUserIndex := rest
          mUserManager := manager.mUserManager.modify userIndex (·.getPacket.2) })

/-- `PacketManager::PushSystemPacket`. -/
def pushSystemPacket (packet : PacketInfo) : PacketManager :=
  { manager with mSystemPacketQueue := manager.mSystemPacketQueue ++ [packet] }

/-- `PacketManager::DequeSystemPacketData`. -/
def dequeSystemPacketData : PacketInfo × PacketManager :=
  match manager.mSystemPacketQueue with
  | [] => ({}, manager)
  | packetData :: rest => (packetData, { manager with mSystemPacketQueue := rest })

/-- `PacketManager::ProcessUserConnect`. -/
def processUserConnect (clientIndex : ℕ) : PacketManager :=
  { manager with mUserManager := manager.mUserManager.modify clientIndex User.clear }

/-- `PacketManager::ProcessUserDisConnect`. -/
def processUserDisConnect (clientIndex : ℕ) : PacketManager := manager.clearConnectionInfo clientIndex

/-- The `REQUEST_LOGIN` task of `ProcessLogin`: the two fields of the packet, copied to a new block. -/
def loginTask (clientIndex : ℕ) (pPacket behind : Bytes) : RedisTask where
  userIndex := clientIndex
  taskId := .requestLogin
  dataSize := redisLoginReqSize
  pData := behind.write 0
    (pPacket.read packetHeaderLength (maxUserIdLen + 1) ++
      pPacket.read (packetHeaderLength + (maxUserIdLen + 1)) (maxUserPwLen + 1))

/-- `PacketManager::ProcessLogin`. -/
def processLogin (clientIndex packetSize : ℕ) (pPacket behind : Bytes) : PacketManager :=
  if loginRequestPacketSize ≠ packetSize then manager
  else if manager.mUserManager.mCurrentUserCnt ≥ manager.mUserManager.mMaxUserCnt then
    manager.sendPacketFunc clientIndex (.loginResponse ErrorCode.loginUserUsedAllObj.code)
  else if manager.mUserManager.findUserIndexByID (cString (pPacket.offset packetHeaderLength)) = -1 then
    { manager with mRedisMgr := manager.mRedisMgr.pushTask (loginTask clientIndex pPacket behind) }
  else manager.sendPacketFunc clientIndex (.loginResponse ErrorCode.loginUserAlready.code)

/-- `PacketManager::ProcessLoginDBResult`. The branch for a granted login is empty. -/
def processLoginDBResult (clientIndex : ℕ) (pPacket : Bytes) : PacketManager :=
  manager.sendPacketFunc clientIndex (.loginResponse (uint16At pPacket 0).toUInt16)

/-- `PacketManager::ProcessEnterRoom`. -/
def processEnterRoom (clientIndex : ℕ) (pPacket : Bytes) : PacketManager :=
  let (result, rooms, users) := manager.mRoomManager.enterUser manager.mUserManager
    (int32At pPacket packetHeaderLength) clientIndex
  sendPacketFunc { manager with mRoomManager := rooms, mUserManager := users } clientIndex
    (.roomEnterResponse result.code)

/-- `PacketManager::ProcessLeaveRoom`. -/
def processLeaveRoom (clientIndex : ℕ) : PacketManager :=
  let (result, manager) := manager.leaveUser clientIndex
  manager.sendPacketFunc clientIndex (.roomLeaveResponse result.code)

/-- The packet of `Room::NotifyChat`. Both arrays are filled whole: the copy of the user id runs on
behind the terminating zero of a short id. -/
def chatNotifyPacket (userId : CppString) (msg behind : Bytes) : ServerPacket :=
  .roomChatNotify ((behind.write 0 (userId ++ [0])).read 0 (maxUserIdLen + 1))
    (msg.read 0 (maxChatMsgSize + 1))

/-- `Room::NotifyChat` on a room of the manager. -/
def notifyChat (index clientIndex : ℕ) (userId : CppString) (msg behind : Bytes) : PacketManager :=
  ((manager.room index).sendToAllUser manager.mUserManager clientIndex false).foldl
    (fun manager recipient => manager.sendPacketFunc recipient (chatNotifyPacket userId msg behind)) manager

/-- `PacketManager::ProcessRoomChatMessage`. -/
def processRoomChatMessage (clientIndex : ℕ) (pPacket behind : Bytes) : PacketManager :=
  match manager.currentRoom clientIndex with
  | none =>
      manager.sendPacketFunc clientIndex (.roomChatResponse ErrorCode.chatRoomInvalidRoomNumber.code)
  | some index =>
      (manager.sendPacketFunc clientIndex (.roomChatResponse ErrorCode.none.code)).notifyChat index
        clientIndex (manager.user clientIndex).mUserID (pPacket.offset packetHeaderLength) behind

theorem clearConnectionInfo_none {clientIndex : ℕ}
    (state : (manager.user clientIndex).mCurDomainState = .none) :
    manager.clearConnectionInfo clientIndex = manager := by
  simp only [clearConnectionInfo, state, reduceCtorEq, ↓reduceIte, ne_eq, not_true_eq_false]

theorem clearConnectionInfo_login {clientIndex : ℕ}
    (state : (manager.user clientIndex).mCurDomainState = .login) :
    manager.clearConnectionInfo clientIndex =
      { manager with mUserManager := manager.mUserManager.deleteUserInfo clientIndex } := by
  simp only [clearConnectionInfo, state, reduceCtorEq, ↓reduceIte, ne_eq, not_false_eq_true]

theorem clearConnectionInfo_room {clientIndex : ℕ}
    (state : (manager.user clientIndex).mCurDomainState = .room)
    (away : ((manager.leaveUser clientIndex).2.user clientIndex).mCurDomainState = .login) :
    manager.clearConnectionInfo clientIndex =
      { (manager.leaveUser clientIndex).2 with
        mUserManager := (manager.leaveUser clientIndex).2.mUserManager.deleteUserInfo clientIndex } := by
  simp only [clearConnectionInfo, state, away, reduceCtorEq, ↓reduceIte, ne_eq, not_false_eq_true]

/-- Sending one packet to several recipients only extends the log. -/
theorem foldl_sendPacketFunc (recipients : List ℕ) (packet : ServerPacket) :
    recipients.foldl (fun manager recipient => manager.sendPacketFunc recipient packet) manager =
      { manager with
        sent := manager.sent ++ recipients.map fun recipient => ⟨recipient, packet.length, packet⟩ } := by
  induction recipients generalizing manager with
  | nil => rw [List.map_nil, List.append_nil]; rfl
  | cons recipient rest ih =>
    rw [List.foldl_cons, ih, List.map_cons]
    simp only [sendPacketFunc, List.append_assoc, List.singleton_append]

variable {manager} in
/-- What a chat request in a room sends. -/
theorem processRoomChatMessage_room {clientIndex index : ℕ} (current : manager.currentRoom clientIndex = some index)
    (pPacket behind : Bytes) :
    let notice := chatNotifyPacket (manager.user clientIndex).mUserID (pPacket.offset packetHeaderLength) behind
    manager.processRoomChatMessage clientIndex pPacket behind =
      { manager with
        sent := (manager.sendPacketFunc clientIndex (.roomChatResponse ErrorCode.none.code)).sent ++
          ((manager.room index).sendToAllUser manager.mUserManager clientIndex false).map
            fun recipient => ⟨recipient, notice.length, notice⟩ } := by
  intro notice
  simp only [processRoomChatMessage]
  rw [current]
  dsimp only
  rw [notifyChat, foldl_sendPacketFunc]
  rfl

/-- A chat request only sends. -/
theorem processRoomChatMessage_eq (clientIndex : ℕ) (pPacket behind : Bytes) :
    ∃ sent, manager.processRoomChatMessage clientIndex pPacket behind = { manager with sent := sent } := by
  cases current : manager.currentRoom clientIndex with
  | none =>
    simp only [processRoomChatMessage]
    rw [current]
    exact ⟨_, rfl⟩
  | some index => exact ⟨_, processRoomChatMessage_room current pPacket behind⟩

@[simp] theorem user_init (maxClient : ℕ) (allocated : ℕ → Bytes) (clientIndex : ℕ) :
    (init maxClient allocated).user clientIndex = User.init clientIndex (allocated clientIndex) := rfl

@[simp] theorem user_receivePacketData_self (clientIndex : ℕ) (data : List UInt8) :
    (manager.receivePacketData clientIndex data).user clientIndex =
      (manager.user clientIndex).setPacketData data := by
  simp only [user, receivePacketData, UserManager.modify_self]

theorem user_receivePacketData_other {clientIndex other : ℕ} (data : List UInt8)
    (different : other ≠ clientIndex) :
    (manager.receivePacketData clientIndex data).user other = manager.user other := by
  simp only [user, receivePacketData, UserManager.modify_other _ _ _ different]

theorem dequePacketData_nil (empty : manager.mInComingPacketUserIndex = []) :
    manager.dequePacketData = ({}, manager) := by
  simp only [dequePacketData, empty]

theorem dequePacketData_cons {userIndex : ℕ} {rest : List ℕ}
    (queued : manager.mInComingPacketUserIndex = userIndex :: rest) :
    manager.dequePacketData =
      ({ (manager.user userIndex).getPacket.1 with clientIndex := userIndex },
        { manager with
          mInComingPacketUserIndex := rest
          mUserManager := manager.mUserManager.modify userIndex (·.getPacket.2) }) := by
  simp only [dequePacketData, queued]

theorem dequeSystemPacketData_nil (empty : manager.mSystemPacketQueue = []) :
    manager.dequeSystemPacketData = ({}, manager) := by
  simp only [dequeSystemPacketData, empty]

theorem dequeSystemPacketData_cons {packetData : PacketInfo} {rest : List PacketInfo}
    (queued : manager.mSystemPacketQueue = packetData :: rest) :
    manager.dequeSystemPacketData = (packetData, { manager with mSystemPacketQueue := rest }) := by
  simp only [dequeSystemPacketData, queued]

/-- A dequeue takes an entry off its own queue and leaves the rest of the manager to the user. -/
theorem dequePacketData_eq :
    ∃ users rest, manager.dequePacketData.2 =
      { manager with mUserManager := users, mInComingPacketUserIndex := rest } := by
  cases queued : manager.mInComingPacketUserIndex with
  | nil => exact ⟨manager.mUserManager, [], by rw [dequePacketData_nil manager queued, ← queued]⟩
  | cons userIndex rest => exact ⟨_, rest, by rw [dequePacketData_cons manager queued]⟩

/-- A dequeue only touches the user whose entry it takes, and that one by `getPacket`. -/
theorem user_dequePacketData (clientIndex : ℕ) :
    manager.dequePacketData.2.user clientIndex =
      if manager.mInComingPacketUserIndex.head? = some clientIndex then
        (manager.user clientIndex).getPacket.2
      else manager.user clientIndex := by
  cases queued : manager.mInComingPacketUserIndex with
  | nil => rw [dequePacketData_nil manager queued]; rfl
  | cons userIndex rest =>
    rw [dequePacketData_cons manager queued]
    simp only [List.head?_cons, Option.some.injEq, user]
    split_ifs with same
    · rw [same, UserManager.modify_self]
    · rw [UserManager.modify_other _ _ _ (Ne.symm same)]

end PacketManager

/-- The member functions that `mRecvFuntionDictionary` points to. -/
inductive Handler where
  | processUserConnect
  | processUserDisConnect
  | processLogin
  | processLoginDBResult
  | processEnterRoom
  | processLeaveRoom
  | processRoomChatMessage
deriving DecidableEq, Repr

/-- `mRecvFuntionDictionary` as `PacketManager::Init` fills it. -/
def recvFuntionDictionary : List (ℕ × Handler) :=
  [(PacketId.sysUserConnect.value, .processUserConnect),
    (PacketId.sysUserDisconnect.value, .processUserDisConnect),
    (PacketId.loginRequest.value, .processLogin),
    (RedisTaskId.responseLogin.value, .processLoginDBResult),
    (PacketId.roomEnterRequest.value, .processEnterRoom),
    (PacketId.roomLeaveRequest.value, .processLeaveRoom),
    (PacketId.roomChatRequest.value, .processRoomChatMessage)]

/-- A call of a handler with all that it reads. -/
structure Call where
  handler : Handler
  clientIndex : ℕ
  packetSize : ℕ
  pPacket : Bytes
  behind : Bytes

/-- The effect of a handler call. -/
def PacketManager.call (manager : PacketManager) (call : Call) : PacketManager :=
  match call.handler with
  | .processUserConnect => manager.processUserConnect call.clientIndex
  | .processUserDisConnect => manager.processUserDisConnect call.clientIndex
  | .processLogin => manager.processLogin call.clientIndex call.packetSize call.pPacket call.behind
  | .processLoginDBResult => manager.processLoginDBResult call.clientIndex call.pPacket
  | .processEnterRoom => manager.processEnterRoom call.clientIndex call.pPacket
  | .processLeaveRoom => manager.processLeaveRoom call.clientIndex
  | .processRoomChatMessage =>
      manager.processRoomChatMessage call.clientIndex call.pPacket call.behind

namespace PacketManager

variable (manager : PacketManager)

theorem leaveUser_user_other {clientIndex other : ℕ} (different : other ≠ clientIndex) :
    (manager.leaveUser clientIndex).2.user other = manager.user other :=
  RoomManager.leaveUser_other _ _ _ different

theorem clearConnectionInfo_user_other {clientIndex other : ℕ} (different : other ≠ clientIndex) :
    (manager.clearConnectionInfo clientIndex).user other = manager.user other := by
  have away := manager.leaveUser_user_other different
  simp only [clearConnectionInfo]
  split_ifs
  · exact (UserManager.deleteUserInfo_other _ _ different).trans away
  · exact away
  · exact UserManager.deleteUserInfo_other _ _ different
  · rfl

/-- A handler writes no user but the one it is called for. -/
theorem call_user_other (call : Call) {other : ℕ} (different : other ≠ call.clientIndex) :
    (manager.call call).user other = manager.user other := by
  rcases call with ⟨handler, client, size, pPacket, behind⟩
  cases handler with
  | processUserConnect => exact UserManager.modify_other _ _ _ different
  | processUserDisConnect => exact manager.clearConnectionInfo_user_other different
  | processLogin =>
    simp only [PacketManager.call, processLogin]
    split_ifs <;> rfl
  | processLoginDBResult => rfl
  | processEnterRoom => exact RoomManager.enterUser_other _ _ _ different
  | processLeaveRoom => exact manager.leaveUser_user_other different
  | processRoomChatMessage =>
    obtain ⟨sent, same⟩ := manager.processRoomChatMessage_eq client pPacket behind
    simp only [PacketManager.call, same]
    rfl

/-- Only the two handlers for notices touch a packet buffer. -/
theorem call_sameBuffer (call : Call) (connect : call.handler ≠ .processUserConnect)
    (disconnect : call.handler ≠ .processUserDisConnect) (client : ℕ) :
    ((manager.call call).user client).SameBuffer (manager.user client) := by
  rcases call with ⟨handler, clientIndex, size, pPacket, behind⟩
  cases handler with
  | processUserConnect => exact absurd rfl connect
  | processUserDisConnect => exact absurd rfl disconnect
  | processLogin =>
    simp only [PacketManager.call, processLogin]
    split_ifs <;> exact .refl _
  | processLoginDBResult => exact .refl _
  | processEnterRoom => exact RoomManager.enterUser_sameBuffer ..
  | processLeaveRoom => exact RoomManager.leaveUser_sameBuffer ..
  | processRoomChatMessage =>
    obtain ⟨sent, same⟩ := manager.processRoomChatMessage_eq clientIndex pPacket behind
    simp only [PacketManager.call, same]
    exact .refl _

/-- A disconnect clears the slot unless its state is `NONE` already. -/
theorem clearConnectionInfo_user_self {clientIndex : ℕ}
    (state : (manager.user clientIndex).mCurDomainState ≠ .none) :
    ∃ user : User, (manager.clearConnectionInfo clientIndex).user clientIndex = user.clear := by
  have remains : ((manager.leaveUser clientIndex).2.user clientIndex).mCurDomainState ≠ .none := by
    rcases RoomManager.leaveUser_state manager.mRoomManager manager.mUserManager
      (manager.user clientIndex).mRoomIndex clientIndex with login | same
    · exact fun none => nomatch login.symm.trans none
    · exact fun none => state ((congrArg _ same).symm.trans none)
  simp only [clearConnectionInfo]
  split_ifs with inRoom
  · exact ⟨_, UserManager.deleteUserInfo_self ..⟩
  · exact ⟨_, UserManager.deleteUserInfo_self ..⟩

/-- What a handler call leaves alone: both queues of the packet thread. -/
theorem call_queues (call : Call) :
    (manager.call call).mSystemPacketQueue = manager.mSystemPacketQueue ∧
      (manager.call call).mInComingPacketUserIndex = manager.mInComingPacketUserIndex := by
  rcases call with ⟨handler, client, size, pPacket, behind⟩
  cases handler with
  | processUserConnect => exact ⟨rfl, rfl⟩
  | processUserDisConnect =>
    simp only [PacketManager.call, processUserDisConnect, clearConnectionInfo]
    split_ifs <;> exact ⟨rfl, rfl⟩
  | processLogin =>
    simp only [PacketManager.call, processLogin]
    split_ifs <;> exact ⟨rfl, rfl⟩
  | processLoginDBResult => exact ⟨rfl, rfl⟩
  | processEnterRoom => exact ⟨rfl, rfl⟩
  | processLeaveRoom => exact ⟨rfl, rfl⟩
  | processRoomChatMessage =>
    obtain ⟨sent, same⟩ := manager.processRoomChatMessage_eq client pPacket behind
    simp only [PacketManager.call, same, and_self]

/-- A login request that goes to Redis. -/
def AsksRedis (call : Call) : Prop :=
  call.handler = .processLogin ∧ loginRequestPacketSize = call.packetSize ∧
    manager.mUserManager.mCurrentUserCnt < manager.mUserManager.mMaxUserCnt ∧
    manager.mUserManager.findUserIndexByID (cString (call.pPacket.offset packetHeaderLength)) = -1

instance (call : Call) : Decidable (manager.AsksRedis call) := inferInstanceAs (Decidable (_ ∧ _ ∧ _ ∧ _))

/-- The only handler that touches the Redis manager is a login that goes to Redis. -/
theorem call_mRedisMgr (call : Call) :
    (manager.call call).mRedisMgr =
      if manager.AsksRedis call then
        manager.mRedisMgr.pushTask (loginTask call.clientIndex call.pPacket call.behind)
      else manager.mRedisMgr := by
  rcases call with ⟨handler, client, size, pPacket, behind⟩
  by_cases login : handler = .processLogin
  · subst login
    simp only [PacketManager.call, processLogin, AsksRedis, true_and]
    split_ifs with wrong full fresh asks asks asks asks
    all_goals first | rfl | omega
  · rw [if_neg fun asks => login asks.1]
    cases handler with
    | processLogin => exact absurd rfl login
    | processUserConnect => rfl
    | processUserDisConnect =>
      simp only [PacketManager.call, processUserDisConnect, clearConnectionInfo]
      split_ifs <;> rfl
    | processLoginDBResult => rfl
    | processEnterRoom => rfl
    | processLeaveRoom => rfl
    | processRoomChatMessage =>
      obtain ⟨sent, same⟩ := manager.processRoomChatMessage_eq client pPacket behind
      simp only [PacketManager.call, same]

end PacketManager

/-- `PacketManager::ProcessRecvPacket`: an id outside the dictionary is ignored. -/
def PacketManager.processRecvPacket (manager : PacketManager) (clientIndex packetId packetSize : ℕ)
    (pPacket behind : Bytes) : PacketManager :=
  match recvFuntionDictionary.lookup packetId with
  | none => manager
  | some handler => manager.call ⟨handler, clientIndex, packetSize, pPacket, behind⟩

/-- The entries of the dictionary, one for each handler. -/
theorem lookup_eq_some_iff (packetId : ℕ) (handler : Handler) :
    recvFuntionDictionary.lookup packetId = some handler ↔ (packetId, handler) ∈ recvFuntionDictionary := by
  constructor
  · intro found
    obtain ⟨before, after, split, -⟩ := List.lookup_eq_some_iff.mp found
    rw [split]
    exact List.mem_append_right _ (List.mem_cons_self ..)
  · intro member
    simp only [recvFuntionDictionary, List.mem_cons, Prod.mk.injEq, List.not_mem_nil, or_false] at member
    rcases member with ⟨rfl, rfl⟩ | ⟨rfl, rfl⟩ | ⟨rfl, rfl⟩ | ⟨rfl, rfl⟩ | ⟨rfl, rfl⟩ | ⟨rfl, rfl⟩ | ⟨rfl, rfl⟩
    all_goals rfl

namespace PacketManager

variable (manager : PacketManager) (clientIndex packetId packetSize : ℕ) (pPacket behind : Bytes)

theorem processRecvPacket_queues :
    (manager.processRecvPacket clientIndex packetId packetSize pPacket behind).mSystemPacketQueue =
        manager.mSystemPacketQueue ∧
      (manager.processRecvPacket clientIndex packetId packetSize pPacket behind).mInComingPacketUserIndex =
        manager.mInComingPacketUserIndex := by
  simp only [processRecvPacket]
  split
  · exact ⟨rfl, rfl⟩
  · exact manager.call_queues _

/-- A packet above `SYS_END` touches no packet buffer. -/
theorem processRecvPacket_sameBuffer (above : packetId > PacketId.sysEnd.value) (client : ℕ) :
    ((manager.processRecvPacket clientIndex packetId packetSize pPacket behind).user client).SameBuffer
      (manager.user client) := by
  simp only [processRecvPacket]
  split
  · exact .refl _
  · next handler found =>
    have entry := (lookup_eq_some_iff _ _).mp found
    apply call_sameBuffer
    all_goals
      rintro rfl
      simp only [recvFuntionDictionary, List.mem_cons, Prod.mk.injEq, reduceCtorEq, and_false, and_true,
        List.not_mem_nil, or_false, false_or] at entry
      rw [entry] at above
      exact absurd above (by decide)

/-- Handling a packet of one client leaves the users of all others as they are. -/
theorem processRecvPacket_user_other {other : ℕ} (different : other ≠ clientIndex) :
    (manager.processRecvPacket clientIndex packetId packetSize pPacket behind).user other =
      manager.user other := by
  simp only [processRecvPacket]
  split
  · rfl
  · exact manager.call_user_other _ different

/-- A packet reaches Redis through the login handler only. -/
theorem processRecvPacket_mRedisMgr :
    (manager.processRecvPacket clientIndex packetId packetSize pPacket behind).mRedisMgr =
      if packetId = PacketId.loginRequest.value ∧
          manager.AsksRedis ⟨.processLogin, clientIndex, packetSize, pPacket, behind⟩ then
        manager.mRedisMgr.pushTask (loginTask clientIndex pPacket behind)
      else manager.mRedisMgr := by
  simp only [processRecvPacket]
  split
  · next missing =>
    rw [if_neg]
    rintro ⟨rfl, -⟩
    cases missing
  · next handler found =>
    rw [call_mRedisMgr]
    by_cases login : handler = .processLogin
    · subst login
      have entry := (lookup_eq_some_iff _ _).mp found
      simp only [recvFuntionDictionary, List.mem_cons, Prod.mk.injEq, reduceCtorEq, and_false, and_true,
        List.not_mem_nil, or_false, false_or] at entry
      simp only [entry, true_and]
    · rw [if_neg fun asks => login asks.1, if_neg]
      rintro ⟨rfl, -⟩
      exact login (Option.some.inj found).symm

end PacketManager

end CppRedis.Model.GameServer
