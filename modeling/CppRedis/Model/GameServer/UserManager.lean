import CppRedis.Model.GameServer.User
import Mathlib.Logic.Function.Basic

/-! # The pool of client slots

`UserManager.h`. The pool is indexed by the connection index; entries are modified in place through
`User*`, so a user is named by its index everywhere. The id dictionary is a hash map, of which only
lookups are observable. `std::unordered_map::insert` keeps an existing entry.
-/

namespace CppRedis.Model.GameServer

open Machine

/-- `UserManager`. -/
structure UserManager where
  mMaxUserCnt : ℕ := 0
  mCurrentUserCnt : ℕ := 0
  mUserObjPool : ℕ → User
  mUserIDDictionary : CppString → Option ℕ := fun _ => none

namespace UserManager

/-- `UserManager::Init`, with what the allocations of the slots' buffers hold. -/
def init (maxUserCount : ℕ) (allocated : ℕ → Bytes) : UserManager where
  mMaxUserCnt := maxUserCount
  mUserObjPool index := User.init index (allocated index)

/-- An assignment through the pointer to a pool entry. -/
def modify (manager : UserManager) (index : ℕ) (change : User → User) : UserManager :=
  { manager with
    mUserObjPool := Function.update manager.mUserObjPool index (change (manager.mUserObjPool index)) }

/-- `UserManager::IncreaseUserCnt`. -/
def increaseUserCnt (manager : UserManager) : UserManager :=
  { manager with mCurrentUserCnt := manager.mCurrentUserCnt + 1 }

/-- `UserManager::DecreaseUserCnt`. -/
def decreaseUserCnt (manager : UserManager) : UserManager :=
  if manager.mCurrentUserCnt > 0 then { manager with mCurrentUserCnt := manager.mCurrentUserCnt - 1 }
  else manager

/-- `UserManager::AddUser`. -/
def addUser (manager : UserManager) (userId : CppString) (clientIndex : ℕ) : UserManager :=
  let manager := manager.modify clientIndex (·.setLogin userId)
  match manager.mUserIDDictionary userId with
  | some _ => manager
  | none =>
      { manager with
        mUserIDDictionary := Function.update manager.mUserIDDictionary userId (some clientIndex) }

/-- `UserManager::FindUserIndexByID`. -/
def findUserIndexByID (manager : UserManager) (userId : CppString) : ℤ :=
  match manager.mUserIDDictionary userId with
  | some index => index
  | none => -1

/-- `UserManager::DeleteUserInfo`. -/
def deleteUserInfo (manager : UserManager) (index : ℕ) : UserManager :=
  UserManager.modify
    { manager with
      mUserIDDictionary :=
        Function.update manager.mUserIDDictionary (manager.mUserObjPool index).mUserID none }
    index User.clear

variable (manager : UserManager) (index : ℕ)

@[simp] theorem modify_self (change : User → User) :
    (manager.modify index change).mUserObjPool index = change (manager.mUserObjPool index) :=
  Function.update_self ..

theorem modify_other (change : User → User) {other : ℕ} (different : other ≠ index) :
    (manager.modify index change).mUserObjPool other = manager.mUserObjPool other :=
  Function.update_of_ne different ..

/-- What a change keeps of the user it is made to, it keeps of all users. -/
theorem modify_view {β : Type*} (view : User → β) (change : User → User)
    (keeps : ∀ user, view (change user) = view user) (other : ℕ) :
    view ((manager.modify index change).mUserObjPool other) = view (manager.mUserObjPool other) := by
  by_cases same : other = index
  · rw [same, modify_self, keeps]
  · rw [modify_other _ _ _ same]

/-- Two changes to one user can be made in either order if the changes themselves can. -/
theorem modify_comm (first second : User → User)
    (commute : ∀ user, first (second user) = second (first user)) :
    (manager.modify index first).modify index second = (manager.modify index second).modify index first := by
  simp only [modify, Function.update_self, Function.update_idem, commute]

theorem findUserIndexByID_eq_iff (userId : CppString) :
    manager.findUserIndexByID userId = index ↔ manager.mUserIDDictionary userId = some index := by
  simp only [findUserIndexByID]
  cases manager.mUserIDDictionary userId with
  | none => exact iff_of_false (by dsimp only; omega) nofun
  | some found => rw [Option.some.injEq, Int.natCast_inj]

theorem findUserIndexByID_eq_neg_iff (userId : CppString) :
    manager.findUserIndexByID userId = -1 ↔ manager.mUserIDDictionary userId = none := by
  simp only [findUserIndexByID]
  cases manager.mUserIDDictionary userId with
  | none => exact iff_of_true rfl rfl
  | some found => exact iff_of_false (by dsimp only; omega) nofun

theorem addUser_mUserObjPool (userId : CppString) :
    (manager.addUser userId index).mUserObjPool = (manager.modify index (·.setLogin userId)).mUserObjPool := by
  simp only [addUser]
  split <;> rfl

/-- An id that is in the dictionary keeps its entry. -/
theorem addUser_mUserIDDictionary (userId : CppString) :
    (manager.addUser userId index).mUserIDDictionary =
      if manager.mUserIDDictionary userId = none then
        Function.update manager.mUserIDDictionary userId (some index)
      else manager.mUserIDDictionary := by
  simp only [addUser, modify]
  cases found : manager.mUserIDDictionary userId with
  | none => rfl
  | some other => rfl

theorem addUser_mCurrentUserCnt (userId : CppString) :
    (manager.addUser userId index).mCurrentUserCnt = manager.mCurrentUserCnt := by
  simp only [addUser]
  split <;> rfl

@[simp] theorem deleteUserInfo_self :
    (manager.deleteUserInfo index).mUserObjPool index = (manager.mUserObjPool index).clear :=
  Function.update_self ..

theorem deleteUserInfo_other {other : ℕ} (different : other ≠ index) :
    (manager.deleteUserInfo index).mUserObjPool other = manager.mUserObjPool other :=
  Function.update_of_ne different ..

end UserManager

end CppRedis.Model.GameServer
