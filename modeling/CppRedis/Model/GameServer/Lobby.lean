import CppRedis.Model.GameServer.Server

/-! # The lobby: who is where

The users and rooms of a reachable server, without buffers, ids and messages. No handler ever gives a
user an id, so a leaver's id equals everybody's and `Room::LeaveUser` empties the room it is called
on. A user that has left remembers the room until its slot is cleared, and the number of places taken
in a room only grows. `Represents` relates a packet manager to its lobby, and every handler call, and
so every step of the server, is matched by a step of the lobby.
-/

namespace CppRedis.Model.GameServer

open Machine

/-- The three combinations of `mCurDomainState` and `mRoomIndex` that occur. -/
inductive Place where
  | outside
  | inside (room : ℕ)
  | left (room : ℕ)
deriving DecidableEq, Repr

namespace Place

def state : Place → DomainState
  | .outside => .none
  | .inside _ => .room
  | .left _ => .login

/-- The room that is remembered. -/
def current : Place → Option ℕ
  | .outside => none
  | .inside room => some room
  | .left room => some room

/-- The room whose list should hold the user. -/
def inside? : Place → Option ℕ
  | .inside room => some room
  | _ => none

theorem inside?_eq_some_iff {place : Place} {room : ℕ} : place.inside? = some room ↔ place = .inside room := by
  cases place <;> simp only [inside?, Option.some.injEq, inside.injEq, reduceCtorEq]

theorem inside?_iff_state {place : Place} {room : ℕ} :
    place.inside? = some room ↔ place.state = .room ∧ place.current = some room := by
  cases place <;> simp only [inside?, state, current, reduceCtorEq, false_and, true_and]

def roomIndex (place : Place) : ℤ := place.current.elim (-1) fun room => room

end Place

/-- Rooms are numbered from zero, and there are ten of them. -/
def roomCount : ℕ := 10

/-- The places in a room. -/
def roomCapacity : ℕ := 4

/-- Users by their place, rooms by their members and by the number of enters so far. -/
structure Lobby where
  place : ℕ → Place := fun _ => .outside
  members : ℕ → List ℕ := fun _ => []
  entered : ℕ → ℕ := fun _ => 0

namespace Lobby

variable (lobby : Lobby)

def moveTo (client : ℕ) (place : Place) : Lobby :=
  { lobby with place := Function.update lobby.place client place }

def setMembers (room : ℕ) (members : List ℕ) : Lobby :=
  { lobby with members := Function.update lobby.members room members }

/-- An enter is let in if the room exists and has not been entered as often as it has places. -/
def Admits (number : ℤ) : Prop :=
  0 ≤ number ∧ number < roomCount ∧ lobby.entered number.toNat < roomCapacity

instance (number : ℤ) : Decidable (lobby.Admits number) := inferInstanceAs (Decidable (_ ∧ _ ∧ _))

def connect (client : ℕ) : Lobby := lobby.moveTo client .outside

def enter (client : ℕ) (number : ℤ) : Lobby :=
  if lobby.Admits number then
    { place := Function.update lobby.place client (.inside number.toNat)
      members := Function.update lobby.members number.toNat (lobby.members number.toNat ++ [client])
      entered := Function.update lobby.entered number.toNat (lobby.entered number.toNat + 1) }
  else lobby

/-- Leaving empties the remembered room. -/
def leave (client : ℕ) : Lobby :=
  match (lobby.place client).current with
  | none => lobby
  | some room => (lobby.setMembers room []).moveTo client (.left room)

def disconnect (client : ℕ) : Lobby :=
  match lobby.place client with
  | .inside room => (lobby.setMembers room []).moveTo client .outside
  | _ => lobby.moveTo client .outside

/-- The lobby's side of a handler call. -/
def call (call : Call) : Lobby :=
  match call.handler with
  | .processUserConnect => lobby.connect call.clientIndex
  | .processUserDisConnect => lobby.disconnect call.clientIndex
  | .processEnterRoom => lobby.enter call.clientIndex (int32At call.pPacket packetHeaderLength)
  | .processLeaveRoom => lobby.leave call.clientIndex
  | .processLogin | .processLoginDBResult | .processRoomChatMessage => lobby

theorem connect_place (client user : ℕ) :
    (lobby.connect client).place user = if user = client then .outside else lobby.place user :=
  Function.update_apply ..

@[simp] theorem connect_members (client : ℕ) : (lobby.connect client).members = lobby.members := rfl

@[simp] theorem connect_entered (client : ℕ) : (lobby.connect client).entered = lobby.entered := rfl

theorem enter_of_refused {client : ℕ} {number : ℤ} (refused : ¬ lobby.Admits number) :
    lobby.enter client number = lobby := if_neg refused

variable {lobby} in
theorem Admits.enter_place {number : ℤ} (admitted : lobby.Admits number) (client user : ℕ) :
    (lobby.enter client number).place user =
      if user = client then .inside number.toNat else lobby.place user := by
  rw [enter, if_pos admitted]
  exact Function.update_apply ..

variable {lobby} in
theorem Admits.enter_members {number : ℤ} (admitted : lobby.Admits number) (client room : ℕ) :
    (lobby.enter client number).members room =
      if room = number.toNat then lobby.members room ++ [client] else lobby.members room := by
  rw [enter, if_pos admitted]
  dsimp only
  rw [Function.update_apply]
  split_ifs with same
  · rw [same]
  · rfl

variable {lobby} in
theorem Admits.enter_entered {number : ℤ} (admitted : lobby.Admits number) (client room : ℕ) :
    (lobby.enter client number).entered room =
      if room = number.toNat then lobby.entered room + 1 else lobby.entered room := by
  rw [enter, if_pos admitted]
  dsimp only
  rw [Function.update_apply]
  split_ifs with same
  · rw [same]
  · rfl

theorem leave_place (client user : ℕ) :
    (lobby.leave client).place user =
      if user = client then (lobby.place client).current.elim .outside .left else lobby.place user := by
  simp only [leave]
  cases place : lobby.place client with
  | outside =>
    dsimp only [Place.current, Option.elim_none]
    split_ifs with same
    · rw [same, place]
    · rfl
  | inside room => exact Function.update_apply ..
  | left room => exact Function.update_apply ..

theorem leave_members (client room : ℕ) :
    (lobby.leave client).members room =
      if (lobby.place client).current = some room then [] else lobby.members room := by
  simp only [leave]
  cases (lobby.place client).current with
  | none => rfl
  | some current =>
    dsimp only [moveTo, setMembers]
    simp only [Function.update_apply, Option.some.injEq, eq_comm]

theorem mem_of_mem_leave {client room user : ℕ} (member : user ∈ (lobby.leave client).members room) :
    user ∈ lobby.members room := by
  rw [leave_members] at member
  split_ifs at member
  · cases member
  · exact member

@[simp] theorem leave_entered (client : ℕ) : (lobby.leave client).entered = lobby.entered := by
  simp only [leave]
  split <;> rfl

theorem disconnect_place (client user : ℕ) :
    (lobby.disconnect client).place user = if user = client then .outside else lobby.place user := by
  simp only [disconnect]
  split <;> exact Function.update_apply ..

theorem disconnect_members (client room : ℕ) :
    (lobby.disconnect client).members room =
      if (lobby.place client).inside? = some room then [] else lobby.members room := by
  simp only [disconnect]
  cases lobby.place client with
  | inside current =>
    dsimp only [moveTo, setMembers, Place.inside?]
    simp only [Function.update_apply, Option.some.injEq, eq_comm]
  | outside => rfl
  | left current => rfl

theorem mem_of_mem_disconnect {client room user : ℕ}
    (member : user ∈ (lobby.disconnect client).members room) : user ∈ lobby.members room := by
  rw [disconnect_members] at member
  split_ifs at member
  · cases member
  · exact member

@[simp] theorem disconnect_entered (client : ℕ) :
    (lobby.disconnect client).entered = lobby.entered := by
  simp only [disconnect]
  split <;> rfl

/-- The room manager of a lobby. -/
def roomManager : RoomManager where
  mRoomList room :=
    { mRoomNum := room
      mUserList := lobby.members room
      mMaxUserCount := roomCapacity
      mCurrentUserCount := lobby.entered room }
  mBeginRoomNumber := 0
  mEndRoomNumber := roomCount
  mMaxRoomCount := roomCount

theorem getRoomByNumber_eq (number : ℤ) :
    lobby.roomManager.getRoomByNumber number =
      if 0 ≤ number ∧ number < roomCount then some number.toNat else none := by
  simp only [RoomManager.getRoomByNumber, roomManager, Int.sub_zero]
  split_ifs <;> first | rfl | omega

theorem setRoom_roomManager (room : ℕ) (members : List ℕ) (entered : ℕ) :
    lobby.roomManager.setRoom room
        { mRoomNum := room
          mUserList := members
          mMaxUserCount := roomCapacity
          mCurrentUserCount := entered } =
      Lobby.roomManager
        { lobby with
          members := Function.update lobby.members room members
          entered := Function.update lobby.entered room entered } := by
  simp only [RoomManager.setRoom, roomManager, RoomManager.mk.injEq, and_self, and_true]
  funext index
  by_cases same : index = room
  · subst same
    simp only [Function.update_self]
  · simp only [Function.update_of_ne same]

/-- `RoomManager::EnterUser` on a lobby, with every answer it can give. -/
theorem enterUser_roomManager (users : UserManager) (number : ℤ) (client : ℕ) :
    lobby.roomManager.enterUser users number client =
      if lobby.Admits number then
        (.none, (lobby.enter client number).roomManager, users.modify client (·.enterRoom number.toNat))
      else
        (if 0 ≤ number ∧ number < roomCount then .enterRoomFullUser else .roomInvalidIndex,
          lobby.roomManager, users) := by
  rw [RoomManager.enterUser, getRoomByNumber_eq]
  by_cases exist : 0 ≤ number ∧ number < roomCount
  · rw [if_pos exist]
    dsimp only
    by_cases room : lobby.entered number.toNat < roomCapacity
    · have admitted : lobby.Admits number := ⟨exist.1, exist.2, room⟩
      have small : (lobby.entered number.toNat + 1) % 2 ^ 16 = lobby.entered number.toNat + 1 := by
        simp only [roomCapacity] at room
        omega
      rw [if_pos admitted, Room.enterUser, if_neg (by simp only [roomManager]; omega)]
      simp only [enter, if_pos admitted, roomManager]
      rw [small, ← roomManager, setRoom_roomManager]
      rfl
    · have refused : ¬ lobby.Admits number := fun admitted => room admitted.2.2
      rw [if_neg refused, Room.enterUser, if_pos (by simp only [roomManager]; omega), if_pos exist]
      simp only [RoomManager.setRoom, Function.update_eq_self]
  · have refused : ¬ lobby.Admits number := fun admitted => exist ⟨admitted.1, admitted.2.1⟩
    rw [if_neg exist, if_neg refused, if_neg exist]

end Lobby

/-- A user that stands where the lobby says. -/
structure User.At (user : User) (index : ℕ) (place : Place) : Prop where
  id : user.mUserID = []
  index : user.mIndex = index
  state : user.mCurDomainState = place.state
  roomIndex : user.mRoomIndex = place.roomIndex
  existing : ∀ room, place.current = some room → room < roomCount

namespace User.At

variable {user : User} {index : ℕ} {place : Place}

theorem init (index : ℕ) (allocated : Bytes) : (User.init index allocated).At index .outside :=
  ⟨rfl, rfl, rfl, rfl, nofun⟩

theorem clear (stands : user.At index place) : user.clear.At index .outside :=
  ⟨rfl, stands.index, rfl, rfl, nofun⟩

theorem enterRoom (stands : user.At index place) {room : ℕ} (existing : room < roomCount) :
    (user.enterRoom room).At index (.inside room) := by
  refine ⟨stands.id, stands.index, rfl, rfl, ?_⟩
  rintro _ ⟨⟩
  exact existing

theorem leave (stands : user.At index place) {room : ℕ} (current : place.current = some room) :
    (user.setDomainState .login).At index (.left room) := by
  refine ⟨stands.id, stands.index, rfl, ?_, ?_⟩
  · rw [show (user.setDomainState .login).mRoomIndex = user.mRoomIndex from rfl, stands.roomIndex,
      Place.roomIndex, current]
    rfl
  · rintro _ ⟨⟩
    exact stands.existing room current

theorem append (stands : user.At index place) (data : List UInt8) : (user.append data).At index place :=
  ⟨stands.id, stands.index, stands.state, stands.roomIndex, stands.existing⟩

theorem compact (stands : user.At index place) : user.compact.At index place := by
  simp only [User.compact]
  split_ifs <;> exact ⟨stands.id, stands.index, stands.state, stands.roomIndex, stands.existing⟩

theorem setPacketData (stands : user.At index place) (data : List UInt8) :
    (user.setPacketData data).At index place := by
  simp only [User.setPacketData]
  split_ifs
  · exact stands.compact.append data
  · exact stands.append data

theorem getPacket (stands : user.At index place) : user.getPacket.2.At index place := by
  simp only [User.getPacket]
  split_ifs <;> exact ⟨stands.id, stands.index, stands.state, stands.roomIndex, stands.existing⟩

end User.At

/-- The lobby of a packet manager. -/
structure Represents (manager : PacketManager) (lobby : Lobby) : Prop where
  rooms : manager.mRoomManager = lobby.roomManager
  users : ∀ index, (manager.user index).At index (lobby.place index)
  capacity : ∀ room, lobby.entered room ≤ roomCapacity

namespace Represents

variable {manager : PacketManager} {lobby : Lobby}

theorem init (maxClient : ℕ) (allocated : ℕ → Bytes) :
    Represents (PacketManager.init maxClient allocated) {} where
  rooms := by
    simp only [PacketManager.init, RoomManager.init, Room.init, Lobby.roomManager, Int.add_zero,
      Int.zero_add]
    rfl
  users index := User.At.init index (allocated index)
  capacity _ := Nat.zero_le _

theorem room (represents : Represents manager lobby) (index : ℕ) :
    manager.room index =
      { mRoomNum := index
        mUserList := lobby.members index
        mMaxUserCount := roomCapacity
        mCurrentUserCount := lobby.entered index } := by
  rw [PacketManager.room, represents.rooms]
  rfl

theorem members (represents : Represents manager lobby) (index : ℕ) :
    (manager.room index).mUserList = lobby.members index := by
  rw [represents.room]

theorem state (represents : Represents manager lobby) (client : ℕ) :
    (manager.user client).mCurDomainState = (lobby.place client).state :=
  (represents.users client).state

theorem currentRoom (represents : Represents manager lobby) (client : ℕ) :
    manager.currentRoom client = (lobby.place client).current := by
  have existing := (represents.users client).existing
  rw [PacketManager.currentRoom, represents.rooms, Lobby.getRoomByNumber_eq,
    (represents.users client).roomIndex, Place.roomIndex]
  cases current : (lobby.place client).current with
  | none => rfl
  | some room =>
    have bound := existing room current
    exact if_pos ⟨Int.natCast_nonneg room, Int.ofNat_lt.mpr bound⟩

/-- The rooms that can be looked up. -/
theorem getRoomByNumber_eq_some_iff (represents : Represents manager lobby) (number : ℤ) (index : ℕ) :
    manager.mRoomManager.getRoomByNumber number = some index ↔ number = index ∧ index < roomCount := by
  rw [represents.rooms, Lobby.getRoomByNumber_eq, Option.ite_none_right_eq_some]
  constructor
  · rintro ⟨⟨positive, bound⟩, same⟩
    obtain rfl := Option.some.inj same
    omega
  · rintro ⟨rfl, bound⟩
    exact ⟨⟨Int.natCast_nonneg _, Int.ofNat_lt.mpr bound⟩, rfl⟩

/-- Users and rooms are all that the lobby depends on. -/
theorem of_eq (represents : Represents manager lobby) {other : PacketManager}
    (rooms : other.mRoomManager = manager.mRoomManager) (users : ∀ index, other.user index = manager.user index) :
    Represents other lobby :=
  ⟨rooms.trans represents.rooms, fun index => users index ▸ represents.users index, represents.capacity⟩

/-- One user moves and the rooms follow. -/
theorem modify (represents : Represents manager lobby) {client : ℕ} (change : User → User) {place : Place}
    (moved : (change (manager.user client)).At client place) {next : Lobby}
    (placed : next.place = Function.update lobby.place client place)
    (capacity : ∀ room, next.entered room ≤ roomCapacity) {other : PacketManager}
    (rooms : other.mRoomManager = next.roomManager)
    (users : other.mUserManager.mUserObjPool = (manager.mUserManager.modify client change).mUserObjPool) :
    Represents other next := by
  refine ⟨rooms, fun index => ?_, capacity⟩
  rw [placed, PacketManager.user, users]
  by_cases same : index = client
  · subst same
    rw [UserManager.modify_self, Function.update_self]
    exact moved
  · rw [UserManager.modify_other _ _ _ same, Function.update_of_ne same]
    exact represents.users index

theorem connect (represents : Represents manager lobby) (client : ℕ) :
    Represents (manager.processUserConnect client) (lobby.connect client) := by
  apply represents.modify User.clear (represents.users client).clear
  · rfl
  · exact represents.capacity
  · exact represents.rooms
  · rfl

theorem enterAdmitted (represents : Represents manager lobby) {number : ℤ} (admitted : lobby.Admits number)
    (client : ℕ) {other : PacketManager}
    (rooms : other.mRoomManager = (lobby.enter client number).roomManager)
    (users : other.mUserManager = manager.mUserManager.modify client (·.enterRoom number.toNat)) :
    Represents other (lobby.enter client number) := by
  obtain ⟨positive, bound, free⟩ := admitted
  have existing : number.toNat < roomCount := by omega
  apply represents.modify (·.enterRoom number.toNat) ((represents.users client).enterRoom existing)
  · rw [Lobby.enter, if_pos ⟨positive, bound, free⟩]
  · intro room
    rw [Lobby.Admits.enter_entered ⟨positive, bound, free⟩]
    split_ifs with same
    · rw [same]
      exact free
    · exact represents.capacity room
  · exact rooms
  · rw [users]

theorem enter (represents : Represents manager lobby) (client : ℕ) (pPacket : Bytes) :
    Represents (manager.processEnterRoom client pPacket)
      (lobby.enter client (int32At pPacket packetHeaderLength)) := by
  simp only [PacketManager.processEnterRoom]
  generalize int32At pPacket packetHeaderLength = number
  rw [represents.rooms, Lobby.enterUser_roomManager]
  by_cases admitted : lobby.Admits number
  · rw [if_pos admitted]
    exact represents.enterAdmitted admitted client rfl rfl
  · rw [if_neg admitted, lobby.enter_of_refused admitted]
    exact represents.of_eq represents.rooms.symm fun _ => rfl

/-- All ids are equal, so leaving a room empties it. -/
theorem leaveUser_room (represents : Represents manager lobby) (index client : ℕ) (change : User → User)
    (same : (change (manager.user client)).mUserID = []) :
    (manager.room index).leaveUser (manager.mUserManager.modify client change) client =
      { mRoomNum := index
        mUserList := []
        mMaxUserCount := roomCapacity
        mCurrentUserCount := lobby.entered index } := by
  have ids (user : ℕ) : ((manager.mUserManager.modify client change).mUserObjPool user).mUserID = [] := by
    by_cases self : user = client
    · rw [self, UserManager.modify_self]
      exact same
    · rw [UserManager.modify_other _ _ _ self]
      exact (represents.users user).id
  rw [represents.room, Room.leaveUser]
  simp only [ids, ne_eq, not_true_eq_false, decide_false, List.filter_false]

/-- `RoomManager::LeaveUser` on the remembered room. -/
theorem leaveUser (represents : Represents manager lobby) (client : ℕ) :
    Represents (manager.leaveUser client).2 (lobby.leave client) ∧
      (manager.leaveUser client).1 =
        if (lobby.place client).current.isSome then .none else .roomInvalidIndex := by
  have current := represents.currentRoom client
  rw [PacketManager.currentRoom] at current
  simp only [PacketManager.leaveUser, RoomManager.leaveUser, Lobby.leave]
  rw [current]
  cases place : (lobby.place client).current with
  | none => exact ⟨represents, rfl⟩
  | some room =>
    refine ⟨?_, rfl⟩
    have moved := (represents.users client).leave place
    apply represents.modify (·.setDomainState .login) moved
    · rfl
    · exact represents.capacity
    · dsimp only
      rw [← PacketManager.room, represents.leaveUser_room room client _ moved.id, represents.rooms,
        Lobby.setRoom_roomManager, Function.update_eq_self]
      rfl
    · rfl

theorem deleteUserInfo (represents : Represents manager lobby) (client : ℕ) :
    Represents { manager with mUserManager := manager.mUserManager.deleteUserInfo client }
      (lobby.moveTo client .outside) := by
  apply represents.modify User.clear (represents.users client).clear
  · rfl
  · exact represents.capacity
  · exact represents.rooms
  · rfl

theorem disconnect (represents : Represents manager lobby) (client : ℕ) :
    Represents (manager.processUserDisConnect client) (lobby.disconnect client) := by
  have state := represents.state client
  simp only [PacketManager.processUserDisConnect, Lobby.disconnect]
  cases place : lobby.place client with
  | outside =>
    rw [place] at state
    rw [PacketManager.clearConnectionInfo_none manager state]
    simp only [Lobby.moveTo, ← place, Function.update_eq_self]
    exact represents
  | left room =>
    rw [place] at state
    rw [PacketManager.clearConnectionInfo_login manager state]
    exact represents.deleteUserInfo client
  | inside room =>
    rw [place] at state
    have away := (represents.leaveUser client).1
    have moved := away.deleteUserInfo client
    have login := away.state client
    simp only [Lobby.leave, place, Place.current, Lobby.moveTo, Function.update_self] at login
    simp only [Lobby.leave, place, Place.current, Lobby.moveTo, Function.update_idem] at moved
    rw [PacketManager.clearConnectionInfo_room manager state login]
    exact moved

/-- Every handler call is matched by the lobby. -/
theorem call (represents : Represents manager lobby) (call : Call) :
    Represents (manager.call call) (lobby.call call) := by
  rcases call with ⟨handler, client, size, pPacket, behind⟩
  cases handler with
  | processUserConnect => exact represents.connect client
  | processUserDisConnect => exact represents.disconnect client
  | processLogin =>
    simp only [PacketManager.call, Lobby.call, PacketManager.processLogin]
    split_ifs
    all_goals exact represents.of_eq rfl fun _ => rfl
  | processLoginDBResult => exact represents.of_eq rfl fun _ => rfl
  | processEnterRoom => exact represents.enter client pPacket
  | processLeaveRoom => exact (represents.leaveUser client).1.of_eq rfl fun _ => rfl
  | processRoomChatMessage =>
    obtain ⟨sent, same⟩ := manager.processRoomChatMessage_eq client pPacket behind
    simp only [PacketManager.call, Lobby.call, same]
    exact represents.of_eq rfl fun _ => rfl

theorem receivePacketData (represents : Represents manager lobby) (client : ℕ) (data : List UInt8) :
    Represents (manager.receivePacketData client data) lobby := by
  apply represents.modify (·.setPacketData data) ((represents.users client).setPacketData data)
  · exact (Function.update_eq_self ..).symm
  · exact represents.capacity
  · exact represents.rooms
  · rfl

theorem dequePacketData (represents : Represents manager lobby) :
    Represents manager.dequePacketData.2 lobby := by
  cases queued : manager.mInComingPacketUserIndex with
  | nil => rwa [PacketManager.dequePacketData_nil manager queued]
  | cons client rest =>
    rw [PacketManager.dequePacketData_cons manager queued]
    apply represents.modify (·.getPacket.2) (represents.users client).getPacket
    · exact (Function.update_eq_self ..).symm
    · exact represents.capacity
    · exact represents.rooms
    · rfl

theorem processRecvPacket (represents : Represents manager lobby) (client id size : ℕ)
    (pPacket behind : Bytes) :
    ∃ next, Represents (manager.processRecvPacket client id size pPacket behind) next := by
  simp only [PacketManager.processRecvPacket]
  split
  · exact ⟨lobby, represents⟩
  · exact ⟨_, represents.call _⟩

/-- Every handler run has its lobby. -/
theorem run_call (maxClient : ℕ) (allocated : ℕ → Bytes) (calls : List Call) :
    ∃ lobby, Represents (run PacketManager.call (PacketManager.init maxClient allocated) calls) lobby := by
  apply run_invariant fun manager => ∃ lobby, Represents manager lobby
  · rintro manager call ⟨lobby, represents⟩
    exact ⟨_, represents.call call⟩
  · exact ⟨_, init maxClient allocated⟩

/-- A step of any thread keeps the server represented. -/
theorem step {redis : RedisCpp.Server} {server : Server} {lobby : Lobby}
    (represents : Represents server.packetManager lobby) (event : Event) :
    ∃ next, Represents (server.step redis event).packetManager next := by
  cases event with
  | receive client chunk => exact ⟨lobby, represents.receivePacketData client chunk.bytes⟩
  | onConnect client => exact ⟨lobby, represents.of_eq rfl fun _ => rfl⟩
  | onClose client => exact ⟨lobby, represents.of_eq rfl fun _ => rfl⟩
  | packetThread behind =>
    simp only [Server.step, Server.processPacket]
    cases server.packetThread with
    | dequePacketData => exact ⟨lobby, represents.dequePacketData⟩
    | processClient packetData => exact represents.processRecvPacket ..
    | dequeSystemPacketData =>
      refine ⟨lobby, represents.of_eq ?_ fun _ => ?_⟩
      all_goals unfold PacketManager.dequeSystemPacketData
      all_goals cases server.packetManager.mSystemPacketQueue <;> rfl
    | processSystem packetData => exact represents.processRecvPacket ..
    | takeResponseTask => exact ⟨lobby, represents.of_eq rfl fun _ => rfl⟩
    | processResponse task => exact represents.processRecvPacket ..
  | redisThread behind =>
    obtain ⟨redisMgr, same⟩ := Server.taskProcessThread_packetManager redis server behind
    refine ⟨lobby, ?_⟩
    change Represents (server.taskProcessThread redis behind).packetManager lobby
    rw [same]
    exact represents.of_eq rfl fun _ => rfl

/-- Every reachable server has its lobby. -/
theorem run_server (redis : RedisCpp.Server) (maxClient : ℕ) (allocated : ℕ → Bytes)
    (events : List Event) :
    ∃ lobby, Represents (Server.managerAfter redis maxClient allocated events) lobby := by
  apply run_invariant fun server : Server => ∃ lobby, Represents server.packetManager lobby
  · rintro server event ⟨lobby, represents⟩
    exact represents.step event
  · exact ⟨_, init maxClient allocated⟩

end Represents

end CppRedis.Model.GameServer
