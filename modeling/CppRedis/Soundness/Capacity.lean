import CppRedis.Model.GameServer.Lobby

/-! # Places in rooms

`Room::EnterUser` counts up and nothing counts down, so the counter is the number of enters since the
start, not the number of members. The two are equal over a run exactly as long as nobody is ever
removed from a list.
-/

namespace CppRedis.Soundness.Capacity

open Machine Model.GameServer

/-- In every existing room the counter is the number of members, and an enter is turned away as full
exactly when the list holds as many users as the room has places. -/
def CountsMembers (manager : PacketManager) : Prop :=
  ∀ number index, manager.mRoomManager.getRoomByNumber number = some index →
    (manager.room index).mCurrentUserCount = (manager.room index).mUserList.length ∧
      ∀ user, (manager.mRoomManager.enterUser manager.mUserManager number user).1 = .enterRoomFullUser ↔
        ((manager.room index).mUserList.length : ℤ) = (manager.room index).mMaxUserCount

/-- The calls that free no place: the room left is empty already. -/
def FreesNoPlace (manager : PacketManager) (call : Call) : Prop :=
  match call.handler with
  | .processLeaveRoom =>
      ∀ index, manager.currentRoom call.clientIndex = some index → (manager.room index).mUserList = []
  | .processUserDisConnect =>
      (manager.user call.clientIndex).mCurDomainState = .room →
        ∀ index, manager.currentRoom call.clientIndex = some index → (manager.room index).mUserList = []
  | _ => True

/-- The counters of a lobby are the lengths of its lists. -/
def LobbyCounts (lobby : Lobby) : Prop :=
  ∀ room < roomCount, lobby.entered room = (lobby.members room).length

variable {manager : PacketManager} {lobby : Lobby}

/-- What an enter of an existing room answers. -/
theorem enterUser_full_iff (represents : Represents manager lobby) {number : ℤ} {index : ℕ}
    (found : manager.mRoomManager.getRoomByNumber number = some index) (user : ℕ) :
    (manager.mRoomManager.enterUser manager.mUserManager number user).1 = .enterRoomFullUser ↔
      lobby.entered index = roomCapacity := by
  obtain ⟨rfl, bound⟩ := (represents.getRoomByNumber_eq_some_iff ..).mp found
  have exist : 0 ≤ (index : ℤ) ∧ (index : ℤ) < roomCount := ⟨Int.natCast_nonneg _, Int.ofNat_lt.mpr bound⟩
  have capacity := represents.capacity index
  rw [represents.rooms, Lobby.enterUser_roomManager]
  by_cases admitted : lobby.Admits index
  · rw [if_pos admitted]
    have free := admitted.2.2
    rw [Int.toNat_natCast] at free
    exact iff_of_false nofun (Nat.ne_of_lt free)
  · rw [if_neg admitted, if_pos exist]
    refine iff_of_true rfl ?_
    by_contra free
    exact admitted ⟨exist.1, exist.2, by rw [Int.toNat_natCast]; omega⟩

theorem countsMembers_iff (represents : Represents manager lobby) :
    CountsMembers manager ↔ LobbyCounts lobby := by
  constructor
  · intro counts room bound
    have here := (counts room room ((represents.getRoomByNumber_eq_some_iff ..).mpr ⟨rfl, bound⟩)).1
    simpa only [represents.room] using here
  · intro counts number index found
    have answer := enterUser_full_iff represents found
    obtain ⟨rfl, bound⟩ := (represents.getRoomByNumber_eq_some_iff ..).mp found
    have here := counts index bound
    rw [represents.room]
    refine ⟨here, fun user => ?_⟩
    rw [answer user, here]
    exact Int.natCast_inj.symm

/-- Emptying a room keeps the counts right exactly when there was nobody in it. -/
theorem emptied_counts_iff {next : Lobby} {emptied : Option ℕ}
    (counts : LobbyCounts lobby) (entered : next.entered = lobby.entered)
    (members : ∀ room, next.members room = if emptied = some room then [] else lobby.members room)
    (valid : ∀ room, emptied = some room → room < roomCount) :
    LobbyCounts next ↔ ∀ room, emptied = some room → lobby.members room = [] := by
  constructor
  · intro after room empty
    have bound := valid room empty
    have zero := after room bound
    rw [entered, counts room bound, members, if_pos empty] at zero
    exact List.eq_nil_of_length_eq_zero zero
  · intro free room bound
    rw [entered, counts room bound, members]
    split_ifs with empty
    · rw [free room empty]
    · rfl

theorem enter_counts (counts : LobbyCounts lobby) (client : ℕ) (number : ℤ) :
    LobbyCounts (lobby.enter client number) := by
  by_cases admitted : lobby.Admits number
  · intro room bound
    rw [admitted.enter_entered, admitted.enter_members, counts room bound]
    split_ifs
    · rw [List.length_append, List.length_singleton]
    · rfl
  · rwa [lobby.enter_of_refused admitted]

/-- One handler call keeps the counts right exactly when it frees no place. -/
theorem call_countsMembers_iff (represents : Represents manager lobby) (counts : CountsMembers manager)
    (call : Call) : CountsMembers (manager.call call) ↔ FreesNoPlace manager call := by
  rw [countsMembers_iff (represents.call call)]
  have lengths := (countsMembers_iff represents).mp counts
  rcases call with ⟨handler, client, size, pPacket, behind⟩
  have existing := (represents.users client).existing
  cases handler with
  | processUserConnect => exact iff_of_true lengths trivial
  | processUserDisConnect =>
    simp only [FreesNoPlace, represents.state, represents.currentRoom, represents.members]
    have valid (room : ℕ) (inside : (lobby.place client).inside? = some room) : room < roomCount :=
      existing room (by rw [Place.inside?_eq_some_iff.mp inside]; rfl)
    rw [Lobby.call, emptied_counts_iff lengths (lobby.disconnect_entered client)
      (lobby.disconnect_members client) valid]
    cases lobby.place client <;> simp only [Place.inside?, Place.state, Place.current, reduceCtorEq,
      false_implies, implies_true, true_implies]
  | processEnterRoom => exact iff_of_true (enter_counts lengths client _) trivial
  | processLeaveRoom =>
    simp only [FreesNoPlace, represents.currentRoom, represents.members]
    exact emptied_counts_iff lengths (lobby.leave_entered client) (lobby.leave_members client) existing
  | processLogin => exact iff_of_true lengths trivial
  | processLoginDBResult => exact iff_of_true lengths trivial
  | processRoomChatMessage => exact iff_of_true lengths trivial

/-- Over every run of handler calls, counters and answers agree with the lists in every state if and
only if no leave and no disconnect ever frees a place. -/
theorem run_countsMembers_iff_freesNoPlace (maxClient : ℕ) (allocated : ℕ → Bytes) (calls : List Call) :
    Always PacketManager.call CountsMembers (PacketManager.init maxClient allocated) calls ↔
      Along PacketManager.call FreesNoPlace (PacketManager.init maxClient allocated) calls := by
  have initial := Represents.init maxClient allocated
  apply always_iff_along fun manager => ∃ lobby, Represents manager lobby
  · rintro manager call ⟨lobby, represents⟩
    exact ⟨_, represents.call call⟩
  · rintro manager call ⟨lobby, represents⟩ counts
    exact call_countsMembers_iff represents counts call
  · exact ⟨_, initial⟩
  · rw [countsMembers_iff initial]
    exact fun room _ => rfl

/-- A client enters room zero and leaves it. -/
def visit (client : ℕ) : List Call :=
  [⟨.processEnterRoom, client, 9, ofList [9, 0, 206, 0, 0, 0, 0, 0, 0], fun _ => 0⟩,
    ⟨.processLeaveRoom, client, 5, ofList [5, 0, 215, 0, 0], fun _ => 0⟩]

/-- After four visits the empty room turns everybody away as full. -/
theorem run_refuses_empty_room :
    let manager := run PacketManager.call (PacketManager.init 3 fun _ _ => 0)
      (visit 0 ++ visit 0 ++ visit 0 ++ visit 0)
    (manager.room 0).mUserList = [] ∧
      (manager.mRoomManager.enterUser manager.mUserManager 0 1).1 = .enterRoomFullUser ∧
      ¬ CountsMembers manager := by
  refine ⟨by decide +kernel, by decide +kernel, fun counts => ?_⟩
  have count := (counts 0 0 (by decide +kernel)).1
  revert count
  decide +kernel

end CppRedis.Soundness.Capacity
