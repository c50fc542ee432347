import CppRedis.Machine.Run
import CppRedis.Model.GameServer.Room

/-! # The limit of a room

`EnterUser` counts up and compares the 16-bit counter with the 32-bit limit; `LeaveUser` takes any number of
members out of the list and never counts down. So the counter is an upper bound of the list's length, and the
comparison stops it before it can wrap.
-/

namespace CppRedis.Soundness.RoomLimit

open Machine Model.GameServer

/-- One call on a room, with the users as they are then. -/
inductive Op where
  | enterUser (users : UserManager) (user : ℕ)
  | leaveUser (users : UserManager) (user : ℕ)

def step (room : Room) : Op → Room
  | .enterUser users user => (room.enterUser users user).2.1
  | .leaveUser users user => room.leaveUser users user

/-- The list is not longer than the counter, and the counter is not beyond the limit. -/
structure Limited (maxUserCount : ℤ) (room : Room) : Prop where
  limit : room.mMaxUserCount = maxUserCount
  list : room.mUserList.length ≤ room.mCurrentUserCount
  count : (room.mCurrentUserCount : ℤ) ≤ maxUserCount

/-- The counter goes up by one with every user who enters, and stays otherwise. -/
def Counts (room : Room) (op : Op) : Prop :=
  (step room op).mCurrentUserCount =
    match op with
    | .enterUser users user =>
        if (room.enterUser users user).1 = .none then room.mCurrentUserCount + 1 else room.mCurrentUserCount
    | .leaveUser _ _ => room.mCurrentUserCount

variable {maxUserCount : ℤ} {room : Room}

theorem enterUser_limited (limited : Limited maxUserCount room) (narrow : maxUserCount ≤ 65535) (users : UserManager)
    (user : ℕ) :
    Limited maxUserCount (room.enterUser users user).2.1 ∧ Counts room (.enterUser users user) := by
  have ⟨limit, list, count⟩ := limited
  simp only [Counts, step, Room.enterUser]
  split_ifs with full unchanged
  · cases unchanged
  · exact ⟨limited, rfl⟩
  · -- Below the limit the counter has room for one more.
    have small : room.mCurrentUserCount + 1 < 2 ^ 16 := by omega
    dsimp only
    rw [Nat.mod_eq_of_lt small]
    refine ⟨⟨limit, ?_, ?_⟩, rfl⟩
    · dsimp only
      rw [List.length_append, List.length_singleton]
      omega
    · dsimp only
      omega
  · next entered => exact absurd rfl entered

theorem leaveUser_limited (limited : Limited maxUserCount room) (users : UserManager) (user : ℕ) :
    Limited maxUserCount (room.leaveUser users user) :=
  ⟨limited.limit, (List.length_filter_le ..).trans limited.list, limited.count⟩

theorem step_limited (limited : Limited maxUserCount room) (narrow : maxUserCount ≤ 65535) (op : Op) :
    Limited maxUserCount (step room op) ∧ Counts room op := by
  cases op with
  | enterUser users user => exact enterUser_limited limited narrow users user
  | leaveUser users user => exact ⟨leaveUser_limited limited users user, rfl⟩

/-- For every limit of 0 to 65535 and every sequence of calls with any users: the list is never longer than the
counter, the counter never exceeds the limit, and it never wraps. -/
theorem room_limited (roomNum : ℤ) {maxUserCount : ℤ} (lower : 0 ≤ maxUserCount) (upper : maxUserCount ≤ 65535)
    (ops : List Op) :
    Always step (Limited maxUserCount) (Room.init roomNum maxUserCount) ops ∧
      Along step Counts (Room.init roomNum maxUserCount) ops := by
  have initial : Limited maxUserCount (Room.init roomNum maxUserCount) := ⟨rfl, Nat.le_refl 0, lower⟩
  exact always_and_along (fun room op (limited : Limited maxUserCount room) => step_limited limited upper op)
    initial ops

/-- Three users without an id want to enter a room for two, and one of them leaves in between. -/
def crowdedOps : List Op :=
  let users := UserManager.init 3 fun _ _ => 0
  [.enterUser users 0, .enterUser users 1, .leaveUser users 0, .enterUser users 2]

theorem room_limited_crowded :
    (0 : ℤ) ≤ 2 ∧ (2 : ℤ) ≤ 65535 ∧ Always step (Limited 2) (Room.init 1 2) crowdedOps ∧
      Along step Counts (Room.init 1 2) crowdedOps :=
  ⟨by decide, by decide, room_limited 1 (by decide) (by decide) crowdedOps⟩

end CppRedis.Soundness.RoomLimit
