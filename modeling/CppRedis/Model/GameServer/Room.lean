import CppRedis.Model.GameServer.UserManager

/-! # Rooms

`Room.h` and `RoomManager.h`. A room's `mUserList` holds `User*`, that is, pool indices; entering
and leaving also write the user they are given, so both take the user pool along. `leaveUser` drops
every member whose id compares equal to the leaver's, and does not touch `mCurrentUserCount`.
-/

namespace CppRedis.Model.GameServer

/-- `Room`. -/
structure Room where
  mRoomNum : ℤ := -1
  mUserList : List ℕ := []
  mMaxUserCount : ℤ := 0
  mCurrentUserCount : ℕ := 0
deriving DecidableEq, Repr, Inhabited

namespace Room

/-- `Room::Init`. -/
def init (roomNum maxUserCount : ℤ) : Room :=
  { mRoomNum := roomNum, mMaxUserCount := maxUserCount }

/-- `Room::EnterUser`. The counter is a `UINT16`. -/
def enterUser (room : Room) (users : UserManager) (user : ℕ) : ErrorCode × Room × UserManager :=
  if (room.mCurrentUserCount : ℤ) ≥ room.mMaxUserCount then (.enterRoomFullUser, room, users)
  else
    (.none,
      { room with
        mUserList := room.mUserList ++ [user]
        mCurrentUserCount := (room.mCurrentUserCount + 1) % 2 ^ 16 },
      users.modify user (·.enterRoom room.mRoomNum))

/-- `Room::LeaveUser`: `std::list::remove_if` on equal user ids. -/
def leaveUser (room : Room) (users : UserManager) (leaveUser : ℕ) : Room :=
  { room with
    mUserList := room.mUserList.filter fun user =>
      (users.mUserObjPool leaveUser).mUserID ≠ (users.mUserObjPool user).mUserID }

/-- `Room::SendToAllUser`: the indices sent to, in list order. -/
def sendToAllUser (room : Room) (users : UserManager) (passUserIndex : ℤ) (exceptMe : Bool) : List ℕ :=
  (room.mUserList.filter fun user =>
    ¬(exceptMe = true ∧ (users.mUserObjPool user).mIndex = passUserIndex)).map
      fun user => (users.mUserObjPool user).mIndex.toNat

end Room

/-- `RoomManager`. Rooms are allocated one by one and named by their place in `mRoomList`. -/
structure RoomManager where
  mRoomList : ℕ → Room
  mBeginRoomNumber : ℤ := 0
  mEndRoomNumber : ℤ := 0
  mMaxRoomCount : ℤ := 0

namespace RoomManager

/-- `RoomManager::Init`. -/
def init (beginRoomNumber maxRoomCount maxRoomUserCount : ℤ) : RoomManager where
  mRoomList index := Room.init (index + beginRoomNumber) maxRoomUserCount
  mBeginRoomNumber := beginRoomNumber
  mEndRoomNumber := beginRoomNumber + maxRoomCount
  mMaxRoomCount := maxRoomCount

/-- `RoomManager::GetRoomByNumber`: the place of the room, or null. -/
def getRoomByNumber (manager : RoomManager) (number : ℤ) : Option ℕ :=
  if number < manager.mBeginRoomNumber ∨ number ≥ manager.mEndRoomNumber then none
  else some (number - manager.mBeginRoomNumber).toNat

/-- An assignment through the pointer to a room. -/
def setRoom (manager : RoomManager) (index : ℕ) (room : Room) : RoomManager :=
  { manager with mRoomList := Function.update manager.mRoomList index room }

/-- `RoomManager::EnterUser`. -/
def enterUser (manager : RoomManager) (users : UserManager) (roomNumber : ℤ) (user : ℕ) :
    ErrorCode × RoomManager × UserManager :=
  match manager.getRoomByNumber roomNumber with
  | none => (.roomInvalidIndex, manager, users)
  | some index =>
      let (result, room, users) := (manager.mRoomList index).enterUser users user
      (result, manager.setRoom index room, users)

/-- `RoomManager::LeaveUser`. -/
def leaveUser (manager : RoomManager) (users : UserManager) (roomNumber : ℤ) (user : ℕ) :
    ErrorCode × RoomManager × UserManager :=
  match manager.getRoomByNumber roomNumber with
  | none => (.roomInvalidIndex, manager, users)
  | some index =>
      let users := users.modify user (·.setDomainState .login)
      (.none, manager.setRoom index ((manager.mRoomList index).leaveUser users user), users)

variable (manager : RoomManager) (users : UserManager) (roomNumber : ℤ) {user other : ℕ}

theorem enterUser_other (different : other ≠ user) :
    (manager.enterUser users roomNumber user).2.2.mUserObjPool other = users.mUserObjPool other := by
  unfold enterUser Room.enterUser
  split
  · rfl
  · dsimp only
    split_ifs
    · rfl
    · rw [UserManager.modify_other _ _ _ different]

theorem leaveUser_other (different : other ≠ user) :
    (manager.leaveUser users roomNumber user).2.2.mUserObjPool other = users.mUserObjPool other := by
  simp only [leaveUser]
  split
  · rfl
  · dsimp only
    rw [UserManager.modify_other _ _ _ different]

theorem leaveUser_state (user : ℕ) :
    ((manager.leaveUser users roomNumber user).2.2.mUserObjPool user).mCurDomainState = .login ∨
      (manager.leaveUser users roomNumber user).2.2.mUserObjPool user = users.mUserObjPool user := by
  simp only [leaveUser]
  split
  · exact Or.inr rfl
  · dsimp only
    rw [UserManager.modify_self]
    exact Or.inl rfl

/-- Neither entering nor leaving touches a packet buffer. -/
theorem enterUser_sameBuffer (user other : ℕ) :
    ((manager.enterUser users roomNumber user).2.2.mUserObjPool other).SameBuffer
      (users.mUserObjPool other) := by
  by_cases same : other = user
  · subst same
    simp only [enterUser, Room.enterUser]
    split
    · exact .refl _
    · dsimp only
      split_ifs
      · exact .refl _
      · rw [UserManager.modify_self]
        exact ⟨rfl, rfl, rfl⟩
  · rw [enterUser_other _ _ _ same]
    exact .refl _

theorem leaveUser_sameBuffer (user other : ℕ) :
    ((manager.leaveUser users roomNumber user).2.2.mUserObjPool other).SameBuffer
      (users.mUserObjPool other) := by
  by_cases same : other = user
  · subst same
    simp only [leaveUser]
    split
    · exact .refl _
    · dsimp only
      rw [UserManager.modify_self]
      exact ⟨rfl, rfl, rfl⟩
  · rw [leaveUser_other _ _ _ same]
    exact .refl _

/-- Neither entering nor leaving touches the dictionary of user ids. -/
theorem enterUser_mUserIDDictionary (user : ℕ) :
    (manager.enterUser users roomNumber user).2.2.mUserIDDictionary = users.mUserIDDictionary := by
  simp only [enterUser, Room.enterUser]
  split
  · rfl
  · dsimp only
    split_ifs <;> rfl

theorem leaveUser_mUserIDDictionary (user : ℕ) :
    (manager.leaveUser users roomNumber user).2.2.mUserIDDictionary = users.mUserIDDictionary := by
  simp only [leaveUser]
  split <;> rfl

end RoomManager

end CppRedis.Model.GameServer
