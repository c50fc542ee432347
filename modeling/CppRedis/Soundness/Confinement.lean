import CppRedis.Model.GameServer.Server

/-! # What a handler reads of a packet buffer

A handler is given a pointer into the client's packet buffer and casts it to the struct of its packet.
Only `ProcessLogin` compares the size of the frame with the size of the struct. The other handlers read
the struct's fields wherever the frame ends, and what lies behind a short frame in the buffer is stale.
Two states that differ in the bytes of the buffer outside the frame tell whether a handler reads them:
it must send the same packets and change the state in the same way.
-/

namespace CppRedis.Soundness.Confinement

open Machine Model.GameServer

/-- The packets by which a client asks for something. -/
inductive RequestKind where
  | login
  | roomEnter
  | roomLeave
  | roomChat
deriving DecidableEq, Repr

def RequestKind.packetId : RequestKind → PacketId
  | .login => .loginRequest
  | .roomEnter => .roomEnterRequest
  | .roomLeave => .roomLeaveRequest
  | .roomChat => .roomChatRequest

def RequestKind.handler : RequestKind → Handler
  | .login => .processLogin
  | .roomEnter => .processEnterRoom
  | .roomLeave => .processLeaveRoom
  | .roomChat => .processRoomChatMessage

/-- A frame of a client's packet buffer, as `GetPacket` hands it out. -/
structure RequestFrame where
  kind : RequestKind
  clientIndex : ℕ
  start : ℕ
  size : ℕ
  whole : packetHeaderLength ≤ size

def RequestFrame.packetData (frame : RequestFrame) : PacketInfo where
  clientIndex := frame.clientIndex
  packetId := frame.kind.packetId.value
  dataSize := frame.size
  pDataPtr := some frame.start

/-- What the packet thread does with a dequeued frame. -/
def handle (manager : PacketManager) (frame : RequestFrame) (behind : Bytes) : PacketManager :=
  manager.processRecvPacket frame.packetData.clientIndex frame.packetData.packetId
    frame.packetData.dataSize (manager.pointer frame.packetData) behind

/-- A user with other bytes in the packet buffer. -/
def refill (buffer : Bytes) (user : User) : User := { user with mPakcetDataBuffer := buffer }

/-- The state with other bytes in a client's packet buffer. -/
def withBuffer (manager : PacketManager) (client : ℕ) (buffer : Bytes) : PacketManager :=
  { manager with mUserManager := manager.mUserManager.modify client (refill buffer) }

/-- Contents that differ from a client's buffer only in bytes of the buffer outside the frame. -/
def SameFrame (manager : PacketManager) (frame : RequestFrame) (buffer : Bytes) : Prop :=
  ∀ position, frame.start ≤ position ∧ position < frame.start + frame.size ∨
      packetDataBufferSize ≤ position →
    buffer position = (manager.user frame.clientIndex).mPakcetDataBuffer position

/-- The handler sends the same and changes the same, whatever the buffer holds outside the frame. -/
def Insensitive (manager : PacketManager) (frame : RequestFrame) (behind : Bytes) : Prop :=
  ∀ buffer, SameFrame manager frame buffer →
    handle (withBuffer manager frame.clientIndex buffer) frame behind =
      withBuffer (handle manager frame behind) frame.clientIndex buffer

/-- How `RoomManager::EnterUser` decides. -/
inductive Entry where
  | invalid
  | full
  | enters (index : ℕ)

def entry (rooms : RoomManager) (number : ℤ) : Entry :=
  match rooms.getRoomByNumber number with
  | none => .invalid
  | some index =>
      if ((rooms.mRoomList index).mCurrentUserCount : ℤ) ≥ (rooms.mRoomList index).mMaxUserCount then .full
      else .enters index

/-- The error code for each decision. -/
def Entry.result : Entry → ErrorCode
  | .invalid => .roomInvalidIndex
  | .full => .enterRoomFullUser
  | .enters _ => .none

/-- The room number that the enter handler finds in a buffer. -/
def roomNumber (frame : RequestFrame) (buffer : Bytes) : ℤ :=
  int32At (buffer.offset frame.start) packetHeaderLength

/-- The user id that the login handler finds in a buffer. -/
def userId (frame : RequestFrame) (buffer : Bytes) : CppString :=
  cString ((buffer.offset frame.start).offset packetHeaderLength)

/-- The frame ends with the buffer, or the handler does not look behind its end: a login that is dropped or
refused unread, whose fields hold a zero, or whose id is registered, or is not, however it goes on behind
the frame; an enter that has a whole room number, or whose room does not exist, or is full, however the
number goes on; every leave; and a chat with a whole message, or without a room or anybody in it. -/
def Confined (manager : PacketManager) (frame : RequestFrame) : Prop :=
  packetDataBufferSize ≤ frame.start + frame.size ∨
    match frame.kind with
    | .login =>
        loginRequestPacketSize ≠ frame.size ∨
        manager.mUserManager.mCurrentUserCnt ≥ manager.mUserManager.mMaxUserCnt ∨
        0 ∈ (manager.user frame.clientIndex).mPakcetDataBuffer.read (frame.start + packetHeaderLength)
          (loginRequestPacketSize - packetHeaderLength) ∨
        (∀ buffer, SameFrame manager frame buffer →
          manager.mUserManager.findUserIndexByID (userId frame buffer) = -1) ∨
        ∀ buffer, SameFrame manager frame buffer →
          manager.mUserManager.findUserIndexByID (userId frame buffer) ≠ -1
    | .roomEnter =>
        packetHeaderLength + 4 ≤ frame.size ∨
        (∀ buffer, SameFrame manager frame buffer →
          entry manager.mRoomManager (roomNumber frame buffer) = .invalid) ∨
        ∀ buffer, SameFrame manager frame buffer →
          entry manager.mRoomManager (roomNumber frame buffer) = .full
    | .roomLeave => True
    | .roomChat =>
        packetHeaderLength + (maxChatMsgSize + 1) ≤ frame.size ∨
        ∀ index, manager.currentRoom frame.clientIndex = some index →
          (manager.room index).mUserList = []

/-- The handler call for a frame, with the buffer it points into. -/
def RequestFrame.call (frame : RequestFrame) (buffer behind : Bytes) : Call :=
  ⟨frame.kind.handler, frame.clientIndex, frame.size, buffer.offset frame.start, behind⟩

theorem handle_eq (manager : PacketManager) (frame : RequestFrame) (behind : Bytes) :
    handle manager frame behind =
      manager.call (frame.call (manager.user frame.clientIndex).mPakcetDataBuffer behind) := by
  rcases frame with ⟨kind, client, start, size, whole⟩
  cases kind <;> rfl

variable (manager : PacketManager) (client : ℕ) (buffer : Bytes)

/-- Other bytes in a buffer change nothing else about a user. -/
theorem view_withBuffer {β : Type*} (view : User → β) (keeps : ∀ user, view (refill buffer user) = view user)
    (user : ℕ) : view ((withBuffer manager client buffer).user user) = view (manager.user user) :=
  manager.mUserManager.modify_view client view (refill buffer) keeps user

theorem currentRoom_withBuffer (user : ℕ) :
    (withBuffer manager client buffer).currentRoom user = manager.currentRoom user :=
  congrArg manager.mRoomManager.getRoomByNumber
    (view_withBuffer manager client buffer User.mRoomIndex (fun _ => rfl) user)

/-- `RoomManager::EnterUser` by its decision. -/
theorem enterUser_eq (rooms : RoomManager) (users : UserManager) (number : ℤ) :
    rooms.enterUser users number client =
      ((entry rooms number).result,
        match entry rooms number with
        | .invalid | .full => (rooms, users)
        | .enters index =>
            (rooms.setRoom index
              { rooms.mRoomList index with
                mUserList := (rooms.mRoomList index).mUserList ++ [client]
                mCurrentUserCount := ((rooms.mRoomList index).mCurrentUserCount + 1) % 2 ^ 16 },
              users.modify client (·.enterRoom (rooms.mRoomList index).mRoomNum))) := by
  simp only [RoomManager.enterUser, Room.enterUser, entry]
  cases rooms.getRoomByNumber number with
  | none => rfl
  | some index =>
    dsimp only
    split_ifs
    · rw [RoomManager.setRoom, Function.update_eq_self]
      rfl
    · rfl

/-- A login works the same with other bytes in the buffer. -/
theorem login_withBuffer (size : ℕ) (pPacket behind : Bytes) :
    (withBuffer manager client buffer).processLogin client size pPacket behind =
      withBuffer (manager.processLogin client size pPacket behind) client buffer := by
  have dictionary (userId : CppString) : (withBuffer manager client buffer).mUserManager.findUserIndexByID userId =
      manager.mUserManager.findUserIndexByID userId := rfl
  have count : (withBuffer manager client buffer).mUserManager.mCurrentUserCnt =
      manager.mUserManager.mCurrentUserCnt := rfl
  have most : (withBuffer manager client buffer).mUserManager.mMaxUserCnt =
      manager.mUserManager.mMaxUserCnt := rfl
  simp only [PacketManager.processLogin]
  rw [dictionary, count, most]
  split_ifs <;> rfl

/-- So does entering a room. -/
theorem enter_withBuffer (pPacket : Bytes) :
    (withBuffer manager client buffer).processEnterRoom client pPacket =
      withBuffer (manager.processEnterRoom client pPacket) client buffer := by
  simp only [PacketManager.processEnterRoom]
  rw [enterUser_eq, enterUser_eq]
  simp only [withBuffer]
  cases entry manager.mRoomManager (int32At pPacket packetHeaderLength) with
  | invalid => rfl
  | full => rfl
  | enters index =>
    dsimp only
    rw [manager.mUserManager.modify_comm client (refill buffer)
      (·.enterRoom (manager.mRoomManager.mRoomList index).mRoomNum) fun _ => rfl]
    rfl

/-- And leaving it. -/
theorem leave_withBuffer :
    (withBuffer manager client buffer).processLeaveRoom client =
      withBuffer (manager.processLeaveRoom client) client buffer := by
  have number := view_withBuffer manager client buffer User.mRoomIndex (fun _ => rfl) client
  simp only [PacketManager.processLeaveRoom, PacketManager.leaveUser, RoomManager.leaveUser]
  rw [number]
  simp only [withBuffer]
  cases manager.mRoomManager.getRoomByNumber (manager.user client).mRoomIndex with
  | none => rfl
  | some index =>
    have ids (users : UserManager) (user : ℕ) :
        ((users.modify client (refill buffer)).mUserObjPool user).mUserID = (users.mUserObjPool user).mUserID :=
      users.modify_view client User.mUserID (refill buffer) (fun _ => rfl) user
    dsimp only
    rw [manager.mUserManager.modify_comm client (refill buffer) (·.setDomainState .login) fun _ => rfl]
    simp only [Room.leaveUser, ids]
    rfl

/-- And chatting in it. -/
theorem chat_withBuffer (pPacket behind : Bytes) :
    (withBuffer manager client buffer).processRoomChatMessage client pPacket behind =
      withBuffer (manager.processRoomChatMessage client pPacket behind) client buffer := by
  have id := view_withBuffer manager client buffer User.mUserID (fun _ => rfl) client
  have index (users : UserManager) (user : ℕ) :
      ((users.modify client (refill buffer)).mUserObjPool user).mIndex = (users.mUserObjPool user).mIndex :=
    users.modify_view client User.mIndex (refill buffer) (fun _ => rfl) user
  simp only [PacketManager.processRoomChatMessage]
  rw [currentRoom_withBuffer, id]
  cases manager.currentRoom client with
  | none => rfl
  | some room =>
    simp only [PacketManager.notifyChat, PacketManager.foldl_sendPacketFunc, Room.sendToAllUser]
    simp only [PacketManager.sendPacketFunc, withBuffer, index]
    rfl

/-- A request handler knows the packet buffer only through the pointer it is given. -/
theorem call_withBuffer (frame : RequestFrame) (pointed behind : Bytes) :
    (withBuffer manager frame.clientIndex buffer).call (frame.call pointed behind) =
      withBuffer (manager.call (frame.call pointed behind)) frame.clientIndex buffer := by
  rcases frame with ⟨kind, client, start, size, whole⟩
  cases kind with
  | login => exact login_withBuffer ..
  | roomEnter => exact enter_withBuffer ..
  | roomLeave => exact leave_withBuffer ..
  | roomChat => exact chat_withBuffer ..

variable {manager} {frame : RequestFrame} {behind : Bytes}

theorem insensitive_iff :
    Insensitive manager frame behind ↔ ∀ buffer, SameFrame manager frame buffer →
      withBuffer (manager.call (frame.call buffer behind)) frame.clientIndex buffer =
        withBuffer (manager.call (frame.call (manager.user frame.clientIndex).mPakcetDataBuffer behind))
          frame.clientIndex buffer := by
  refine forall_congr' fun buffer => forall_congr' fun _ => ?_
  have refilled : ((withBuffer manager frame.clientIndex buffer).user frame.clientIndex).mPakcetDataBuffer =
      buffer := congrArg User.mPakcetDataBuffer (UserManager.modify_self ..)
  rw [handle_eq, handle_eq, refilled, call_withBuffer]

/-- What is sent and what becomes of the rooms shows whether a handler is insensitive. -/
theorem Insensitive.observed (insensitive : Insensitive manager frame behind) {buffer : Bytes}
    (same : SameFrame manager frame buffer) :
    let original := (manager.user frame.clientIndex).mPakcetDataBuffer
    (manager.call (frame.call buffer behind)).sent = (manager.call (frame.call original behind)).sent ∧
      (manager.call (frame.call buffer behind)).mRoomManager =
        (manager.call (frame.call original behind)).mRoomManager := by
  have equal := insensitive_iff.mp insensitive buffer same
  have sent := congrArg PacketManager.sent equal
  have rooms := congrArg PacketManager.mRoomManager equal
  exact ⟨sent, rooms⟩

/-- A handler that does the same for every contents outside the frame. -/
theorem insensitive_of_call
    (same : ∀ buffer, SameFrame manager frame buffer → manager.call (frame.call buffer behind) =
      manager.call (frame.call (manager.user frame.clientIndex).mPakcetDataBuffer behind)) :
    Insensitive manager frame behind :=
  insensitive_iff.mpr fun buffer frames => congrArg (withBuffer · _ buffer) (same buffer frames)

theorem sameFrame_self : SameFrame manager frame (manager.user frame.clientIndex).mPakcetDataBuffer :=
  fun _ _ => rfl

/-- Both contents have the fields that end within the frame. -/
theorem SameFrame.read {buffer : Bytes} (same : SameFrame manager frame buffer) {position count : ℕ}
    (within : position + count ≤ frame.size) :
    (buffer.offset frame.start).read position count =
      ((manager.user frame.clientIndex).mPakcetDataBuffer.offset frame.start).read position count := by
  apply (Memory.read_eq_read_iff ..).mpr
  intro index _ upper
  exact same (frame.start + index) (Or.inl ⟨by omega, by omega⟩)

/-- A frame that ends with the buffer leaves nothing open behind it. -/
theorem SameFrame.offset {buffer : Bytes} (same : SameFrame manager frame buffer)
    (last : packetDataBufferSize ≤ frame.start + frame.size) :
    buffer.offset frame.start = (manager.user frame.clientIndex).mPakcetDataBuffer.offset frame.start := by
  funext index
  apply same (frame.start + index)
  by_cases inside : index < frame.size
  · exact Or.inl ⟨by omega, by omega⟩
  · exact Or.inr (by omega)

/-- Any other frame leaves the next byte open. -/
theorem sameFrame_update (more : frame.start + frame.size < packetDataBufferSize) (value : UInt8) :
    SameFrame manager frame (Function.update (manager.user frame.clientIndex).mPakcetDataBuffer
      (frame.start + frame.size) value) := by
  intro position inside
  exact Function.update_of_ne (by omega) ..

/-- A field that goes on behind the frame can be changed. -/
theorem exists_sameFrame (more : frame.start + frame.size < packetDataBufferSize) {position count : ℕ}
    (before : position ≤ frame.size) (across : frame.size < position + count) :
    ∃ buffer, SameFrame manager frame buffer ∧
      (buffer.offset frame.start).read position count ≠
        ((manager.user frame.clientIndex).mPakcetDataBuffer.offset frame.start).read position count := by
  set original := (manager.user frame.clientIndex).mPakcetDataBuffer
  refine ⟨_, sameFrame_update more (original (frame.start + frame.size) + 1), fun same => ?_⟩
  have cell := (Memory.read_eq_read_iff ..).mp same frame.size before across
  rw [Memory.offset, Memory.offset, Function.update_self] at cell
  exact absurd cell (by simp)

theorem sendToAllUser_eq_nil_iff (room : Room) (users : UserManager) (passUserIndex : ℤ) :
    room.sendToAllUser users passUserIndex false = [] ↔ room.mUserList = [] := by
  simp only [Room.sendToAllUser, List.map_eq_nil_iff, List.filter_eq_nil_iff, Bool.false_eq_true, false_and,
    not_false_eq_true, decide_true, not_true_eq_false, imp_false]
  exact List.eq_nil_iff_forall_not_mem.symm

/-- A chat reads the whole message, for the members of the room. -/
theorem chat_insensitive_iff (kind : frame.kind = .roomChat)
    (more : frame.start + frame.size < packetDataBufferSize) :
    Insensitive manager frame behind ↔
      packetHeaderLength + (maxChatMsgSize + 1) ≤ frame.size ∨
        ∀ index, manager.currentRoom frame.clientIndex = some index →
          (manager.room index).mUserList = [] := by
  have call (buffer : Bytes) : manager.call (frame.call buffer behind) =
      manager.processRoomChatMessage frame.clientIndex (buffer.offset frame.start) behind := by
    simp only [RequestFrame.call]
    rw [kind]
    rfl
  have message (buffer : Bytes) : ((buffer.offset frame.start).offset packetHeaderLength).read 0 (maxChatMsgSize + 1) =
      (buffer.offset frame.start).read packetHeaderLength (maxChatMsgSize + 1) := Memory.read_offset ..
  constructor
  · intro insensitive
    by_contra! short
    obtain ⟨short, index, current, members⟩ := short
    obtain ⟨buffer, same, different⟩ := exists_sameFrame more frame.whole short
    have sends := (insensitive.observed same).1
    rw [call, call, PacketManager.processRoomChatMessage_room current,
      PacketManager.processRoomChatMessage_room current] at sends
    have notices := List.append_cancel_left sends
    obtain ⟨recipient, listed⟩ := List.exists_mem_of_ne_nil _
      (mt (sendToAllUser_eq_nil_iff _ manager.mUserManager frame.clientIndex).mp members)
    have packet := congrArg Sent.packet (List.map_inj_left.mp notices recipient listed)
    obtain ⟨-, text⟩ := ServerPacket.roomChatNotify.inj packet
    rw [message, message] at text
    exact different text
  · intro confined
    refine insensitive_of_call fun buffer same => ?_
    rw [call, call]
    cases current : manager.currentRoom frame.clientIndex with
    | none =>
      simp only [PacketManager.processRoomChatMessage]
      rw [current]
    | some index =>
      rw [PacketManager.processRoomChatMessage_room current,
      PacketManager.processRoomChatMessage_room current]
      rcases confined with long | nobody
      · have notice : PacketManager.chatNotifyPacket (manager.user frame.clientIndex).mUserID
            ((buffer.offset frame.start).offset packetHeaderLength) behind = _ :=
          congrArg (ServerPacket.roomChatNotify _) ((message buffer).trans (same.read long))
        rw [notice, ← message]
        rfl
      · rw [(sendToAllUser_eq_nil_iff ..).mpr (nobody index current)]
        rfl

/-- Two room numbers with one decision are the same room to the enter handler. -/
theorem enter_congr {pPacket other : Bytes}
    (same : entry manager.mRoomManager (int32At pPacket packetHeaderLength) =
      entry manager.mRoomManager (int32At other packetHeaderLength)) :
    manager.processEnterRoom client pPacket = manager.processEnterRoom client other := by
  simp only [PacketManager.processEnterRoom]
  rw [enterUser_eq, enterUser_eq, same]

/-- The answer to an enter request, and the rooms after it, show the decision. -/
theorem entry_of_enter {pPacket other : Bytes}
    (sent : (manager.processEnterRoom client pPacket).sent = (manager.processEnterRoom client other).sent)
    (rooms : (manager.processEnterRoom client pPacket).mRoomManager =
      (manager.processEnterRoom client other).mRoomManager) :
    entry manager.mRoomManager (int32At pPacket packetHeaderLength) =
      entry manager.mRoomManager (int32At other packetHeaderLength) := by
  unfold PacketManager.processEnterRoom PacketManager.sendPacketFunc at sent rooms
  rw [enterUser_eq, enterUser_eq] at sent rooms
  have packet := congrArg Sent.packet (List.singleton_inj.mp (List.append_cancel_left sent))
  have code := ServerPacket.roomEnterResponse.inj packet
  generalize entry manager.mRoomManager (int32At pPacket packetHeaderLength) = first at code rooms ⊢
  generalize entry manager.mRoomManager (int32At other packetHeaderLength) = second at code rooms ⊢
  cases first with
  | invalid =>
    cases second with
    | invalid => rfl
    | full => exact absurd code (by decide)
    | enters room => exact absurd code (by change ErrorCode.code .roomInvalidIndex ≠ ErrorCode.code .none; decide)
  | full =>
    cases second with
    | invalid => exact absurd code (by decide)
    | full => rfl
    | enters room => exact absurd code (by change ErrorCode.code .enterRoomFullUser ≠ ErrorCode.code .none; decide)
  | enters index =>
    cases second with
    | invalid => exact absurd code (by change ErrorCode.code .none ≠ ErrorCode.code .roomInvalidIndex; decide)
    | full => exact absurd code (by change ErrorCode.code .none ≠ ErrorCode.code .enterRoomFullUser; decide)
    | enters room =>
      by_contra different
      have apart : index ≠ room := fun same => different (congrArg Entry.enters same)
      have members := congrArg (fun manager => (manager.mRoomList index).mUserList.length) rooms
      simp only [RoomManager.setRoom, Function.update_self, Function.update_of_ne apart,
        List.length_append] at members
      exact absurd members (by simp)

/-- A room that can be entered has one number. -/
theorem entry_enters_inj {rooms : RoomManager} {first second : ℤ} {index : ℕ}
    (enters : entry rooms first = .enters index) (also : entry rooms second = .enters index) :
    first = second := by
  have found {number : ℤ} (enters : entry rooms number = .enters index) :
      rooms.getRoomByNumber number = some index := by
    simp only [entry] at enters
    cases room : rooms.getRoomByNumber number with
    | none =>
      rw [room] at enters
      cases enters
    | some place =>
      rw [room] at enters
      dsimp only at enters
      split_ifs at enters
      rw [Entry.enters.inj enters]
  have one := found enters
  have two := found also
  simp only [RoomManager.getRoomByNumber] at one two
  split_ifs at one two
  have places := (Option.some.inj one).trans (Option.some.inj two).symm
  omega

/-- An enter reads the whole room number, as far as it matters. -/
theorem enter_insensitive_iff (kind : frame.kind = .roomEnter)
    (more : frame.start + frame.size < packetDataBufferSize) :
    Insensitive manager frame behind ↔
      packetHeaderLength + 4 ≤ frame.size ∨
        (∀ buffer, SameFrame manager frame buffer →
          entry manager.mRoomManager (roomNumber frame buffer) = .invalid) ∨
        ∀ buffer, SameFrame manager frame buffer →
          entry manager.mRoomManager (roomNumber frame buffer) = .full := by
  have call (buffer : Bytes) : manager.call (frame.call buffer behind) =
      manager.processEnterRoom frame.clientIndex (buffer.offset frame.start) := by
    simp only [RequestFrame.call]
    rw [kind]
    rfl
  set original := (manager.user frame.clientIndex).mPakcetDataBuffer with held
  constructor
  · intro insensitive
    have decided (buffer : Bytes) (same : SameFrame manager frame buffer) :
        entry manager.mRoomManager (roomNumber frame buffer) =
          entry manager.mRoomManager (roomNumber frame original) := by
      obtain ⟨sent, rooms⟩ := insensitive.observed same
      rw [call, call] at sent rooms
      exact entry_of_enter frame.clientIndex sent rooms
    by_contra! short
    obtain ⟨short, valid, free⟩ := short
    cases decision : entry manager.mRoomManager (roomNumber frame original) with
    | invalid =>
      obtain ⟨buffer, same, other⟩ := valid
      exact other ((decided buffer same).trans decision)
    | full =>
      obtain ⟨buffer, same, other⟩ := free
      exact other ((decided buffer same).trans decision)
    | enters index =>
      -- Another last byte makes another number, which would have to name the same room.
      obtain ⟨buffer, same, different⟩ := exists_sameFrame more frame.whole short
      have number := entry_enters_inj ((decided buffer same).trans decision) decision
      exact different (int32At_eq_iff.mp number)
  · intro confined
    refine insensitive_of_call fun buffer same => ?_
    rw [call, call]
    apply enter_congr
    rcases confined with long | invalid | full
    · rw [int32At_eq_iff.mpr (same.read long)]
    · exact (invalid buffer same).trans (invalid original sameFrame_self).symm
    · exact (full buffer same).trans (full original sameFrame_self).symm

/-- An id that ends within the fields of the packet is in the frame. -/
theorem userId_of_terminated {buffer : Bytes} (same : SameFrame manager frame buffer)
    (whole : loginRequestPacketSize = frame.size)
    (zero : 0 ∈ (manager.user frame.clientIndex).mPakcetDataBuffer.read (frame.start + packetHeaderLength)
      (loginRequestPacketSize - packetHeaderLength)) :
    userId frame buffer = userId frame (manager.user frame.clientIndex).mPakcetDataBuffer := by
  have bound : loginRequestPacketSize - packetHeaderLength ≤ addressSpace := by decide
  have fields := same.read (show packetHeaderLength + (loginRequestPacketSize - packetHeaderLength) ≤ frame.size by
    rw [← whole]
    decide)
  rw [← Nat.add_zero packetHeaderLength, ← Memory.read_offset, ← Memory.read_offset] at fields
  have terminated := zero
  rw [← Memory.read_offset, ← Nat.add_zero packetHeaderLength, ← Memory.read_offset] at terminated
  simp only [userId]
  rw [cString_of_mem bound terminated, cString_of_mem bound (fields ▸ terminated)]
  exact congrArg cStr fields

/-- A login reads its two fields, and whatever the id runs on into to look it up. -/
theorem login_insensitive_iff (kind : frame.kind = .login) :
    Insensitive manager frame behind ↔
      loginRequestPacketSize ≠ frame.size ∨
        manager.mUserManager.mCurrentUserCnt ≥ manager.mUserManager.mMaxUserCnt ∨
        0 ∈ (manager.user frame.clientIndex).mPakcetDataBuffer.read (frame.start + packetHeaderLength)
          (loginRequestPacketSize - packetHeaderLength) ∨
        (∀ buffer, SameFrame manager frame buffer →
          manager.mUserManager.findUserIndexByID (userId frame buffer) = -1) ∨
        ∀ buffer, SameFrame manager frame buffer →
          manager.mUserManager.findUserIndexByID (userId frame buffer) ≠ -1 := by
  have call (buffer : Bytes) : manager.call (frame.call buffer behind) =
      manager.processLogin frame.clientIndex frame.size (buffer.offset frame.start) behind := by
    simp only [RequestFrame.call]
    rw [kind]
    rfl
  set original := (manager.user frame.clientIndex).mPakcetDataBuffer with held
  constructor
  · intro insensitive
    by_contra! read
    obtain ⟨whole, room, -, ⟨buffer, same, registered⟩, other, otherSame, fresh⟩ := read
    have sent := (insensitive.observed same).1.trans (insensitive.observed otherSame).1.symm
    rw [call, call] at sent
    simp only [PacketManager.processLogin] at sent
    have full : ¬ manager.mUserManager.mCurrentUserCnt ≥ manager.mUserManager.mMaxUserCnt := by omega
    have missing : ¬ manager.mUserManager.findUserIndexByID
        (cString ((buffer.offset frame.start).offset packetHeaderLength)) = -1 := registered
    have found : manager.mUserManager.findUserIndexByID
        (cString ((other.offset frame.start).offset packetHeaderLength)) = -1 := fresh
    rw [if_neg (not_not_intro whole), if_neg full, if_neg missing, if_neg (not_not_intro whole), if_neg full,
      if_pos found] at sent
    exact absurd (congrArg List.length sent) (by simp [PacketManager.sendPacketFunc])
  · intro confined
    refine insensitive_of_call fun buffer same => ?_
    rw [call, call]
    simp only [PacketManager.processLogin]
    by_cases whole : loginRequestPacketSize = frame.size
    swap
    · rw [if_pos whole, if_pos whole]
    by_cases full : manager.mUserManager.mCurrentUserCnt ≥ manager.mUserManager.mMaxUserCnt
    · rw [if_neg (not_not_intro whole), if_pos full, if_neg (not_not_intro whole), if_pos full]
    have task : PacketManager.loginTask frame.clientIndex (buffer.offset frame.start) behind =
        PacketManager.loginTask frame.clientIndex (original.offset frame.start) behind := by
      simp only [PacketManager.loginTask]
      rw [same.read (by rw [← whole]; decide), same.read (by rw [← whole]; decide)]
    have lookup : manager.mUserManager.findUserIndexByID (userId frame buffer) = -1 ↔
        manager.mUserManager.findUserIndexByID (userId frame original) = -1 := by
      rcases confined with size | count | zero | fresh | registered
      · exact absurd whole size
      · exact absurd count full
      · rw [userId_of_terminated same whole zero]
      · exact iff_of_true (fresh buffer same) (fresh original sameFrame_self)
      · exact iff_of_false (registered buffer same) (registered original sameFrame_self)
    simp only [userId] at lookup
    rw [task, held]
    simp only [lookup]
    rfl

/-- For every state, every frame of at least a header and each of the four requests: the handler sends the
same packets and makes the same changes whatever the sender's packet buffer holds outside the frame, if
and only if the frame is confined. -/
theorem handle_insensitive_iff_confined (manager : PacketManager) (frame : RequestFrame) (behind : Bytes) :
    Insensitive manager frame behind ↔ Confined manager frame := by
  simp only [Confined]
  by_cases last : packetDataBufferSize ≤ frame.start + frame.size
  · refine iff_of_true (insensitive_of_call fun buffer same => ?_) (Or.inl last)
    simp only [RequestFrame.call]
    rw [same.offset last]
  rw [or_iff_right last]
  have more : frame.start + frame.size < packetDataBufferSize := by omega
  cases kind : frame.kind with
  | login => exact login_insensitive_iff kind
  | roomEnter => exact enter_insensitive_iff kind more
  | roomLeave =>
    refine iff_of_true (insensitive_of_call fun buffer _ => ?_) trivial
    simp only [RequestFrame.call]
    rw [kind]
    rfl
  | roomChat => exact chat_insensitive_iff kind more

/-- Client 0 has entered room 0. -/
def chatRoom : PacketManager := (PacketManager.init 3 fun _ _ => 0).processEnterRoom 0 fun _ => 0

/-- A chat request of client 0 that ends with its header, at the front of the buffer. -/
def chatFrame : RequestFrame := ⟨.roomChat, 0, 0, 5, by decide⟩

/-- The byte behind the frame reaches the members of the room. -/
theorem handle_leaks_stale_byte : ¬ Insensitive chatRoom chatFrame fun _ => 0 := by
  intro insensitive
  have sent := (insensitive.observed (sameFrame_update (by decide) 115)).1
  revert sent
  decide +kernel

end CppRedis.Soundness.Confinement
