import CppRedis.Model.GameServer.Lobby

/-! # Membership in rooms

Who is in a room is stored three times: in the room's list, in the user's state and in the user's
room index. Entering does not look at the user's state, clearing a slot does not look at the lists,
and leaving empties the remembered room. The three views agree over a run exactly as long as every
step avoids these cases.
-/

namespace CppRedis.Soundness.Membership

open Machine Model.GameServer

/-- A user is in the list of a room, once, exactly when its own fields name that room. -/
def Consistent (manager : PacketManager) : Prop :=
  ∀ number index, manager.mRoomManager.getRoomByNumber number = some index →
    (manager.room index).mUserList.Nodup ∧
      ∀ user, user ∈ (manager.room index).mUserList ↔
        (manager.user user).mCurDomainState = .room ∧ (manager.user user).mRoomIndex = number

/-- The room a client remembers holds nobody else. -/
def Alone (manager : PacketManager) (client : ℕ) : Prop :=
  ∀ index, manager.currentRoom client = some index →
    ∀ user ∈ (manager.room index).mUserList, user = client

/-- An enter for this room number would be let in. -/
def Admitted (manager : PacketManager) (number : ℤ) : Prop :=
  ∃ index, manager.mRoomManager.getRoomByNumber number = some index ∧
    (manager.room index).mCurrentUserCount < (manager.room index).mMaxUserCount

/-- The calls that keep the three views together. -/
def Orderly (manager : PacketManager) (call : Call) : Prop :=
  match call.handler with
  | .processUserConnect => (manager.user call.clientIndex).mCurDomainState ≠ .room
  | .processUserDisConnect =>
      (manager.user call.clientIndex).mCurDomainState = .room → Alone manager call.clientIndex
  | .processEnterRoom =>
      (manager.user call.clientIndex).mCurDomainState = .room →
        ¬ Admitted manager (int32At call.pPacket packetHeaderLength)
  | .processLeaveRoom => Alone manager call.clientIndex
  | .processLogin | .processLoginDBResult | .processRoomChatMessage => True

/-- `Consistent` for a lobby. -/
def LobbyConsistent (lobby : Lobby) : Prop :=
  ∀ room < roomCount, (lobby.members room).Nodup ∧
    ∀ user, user ∈ lobby.members room ↔ lobby.place user = .inside room

/-- `Alone` for a lobby. -/
def LobbyAlone (lobby : Lobby) (client : ℕ) : Prop :=
  ∀ room, (lobby.place client).current = some room → ∀ user ∈ lobby.members room, user = client

variable {manager : PacketManager} {lobby : Lobby}

theorem inside_iff (represents : Represents manager lobby) (user room : ℕ) :
    lobby.place user = .inside room ↔
      (manager.user user).mCurDomainState = .room ∧ (manager.user user).mRoomIndex = room := by
  rw [represents.state, (represents.users user).roomIndex]
  cases lobby.place user with
  | outside => simp only [Place.state, reduceCtorEq, false_and]
  | inside other => simp only [Place.state, Place.roomIndex, Place.current, Place.inside.injEq,
      Option.elim_some, true_and, Int.natCast_inj]
  | left other => simp only [Place.state, reduceCtorEq, false_and]

theorem consistent_iff (represents : Represents manager lobby) :
    Consistent manager ↔ LobbyConsistent lobby := by
  constructor
  · intro consistent room bound
    have here := consistent room room ((represents.getRoomByNumber_eq_some_iff ..).mpr ⟨rfl, bound⟩)
    rw [represents.members] at here
    simpa only [inside_iff represents] using here
  · intro consistent number index found
    obtain ⟨rfl, bound⟩ := (represents.getRoomByNumber_eq_some_iff ..).mp found
    have here := consistent index bound
    rw [represents.members]
    simpa only [inside_iff represents] using here

theorem alone_iff (represents : Represents manager lobby) (client : ℕ) :
    Alone manager client ↔ LobbyAlone lobby client := by
  simp only [Alone, LobbyAlone, represents.currentRoom, represents.members]

theorem admitted_iff (represents : Represents manager lobby) (number : ℤ) :
    Admitted manager number ↔ lobby.Admits number := by
  simp only [Admitted, represents.room, represents.rooms, Lobby.getRoomByNumber_eq,
    Option.ite_none_right_eq_some, Lobby.Admits]
  constructor
  · rintro ⟨_, ⟨⟨positive, bound⟩, ⟨⟩⟩, free⟩
    exact ⟨positive, bound, by omega⟩
  · rintro ⟨positive, bound, free⟩
    exact ⟨_, ⟨⟨positive, bound⟩, rfl⟩, by omega⟩

/-- A user that is inside a room is where its state says. -/
theorem exists_inside {place : Place} (state : place.state = .room) : ∃ room, place = .inside room := by
  cases place with
  | inside room => exact ⟨room, rfl⟩
  | outside => cases state
  | left room => cases state

section Steps

variable (existing : ∀ user room, (lobby.place user).current = some room → room < roomCount)
  (consistent : LobbyConsistent lobby) (client : ℕ)

include existing consistent

/-- A client that is inside a room is in its list. -/
theorem member_of_inside {room : ℕ} (inside : lobby.place client = .inside room) :
    room < roomCount ∧ client ∈ lobby.members room := by
  have bound := existing client room (by rw [inside]; rfl)
  exact ⟨bound, ((consistent room bound).2 client).mpr inside⟩

/-- The client goes to a place outside all rooms, and at most one room is emptied. -/
theorem emptied_consistent_iff (next : Lobby) (emptied : Option ℕ) {place : Place}
    (members : ∀ room, next.members room = if emptied = some room then [] else lobby.members room)
    (places : ∀ user, next.place user = if user = client then place else lobby.place user)
    (away : place.state ≠ .room) (valid : ∀ room, emptied = some room → room < roomCount) :
    LobbyConsistent next ↔
      (∀ room, lobby.place client = .inside room → emptied = some room) ∧
        ∀ room, emptied = some room → ∀ user ∈ lobby.members room, user = client := by
  have never (room : ℕ) : place ≠ .inside room := fun inside => away (by rw [inside]; rfl)
  constructor
  · intro after
    refine ⟨fun room inside => ?_, fun room empty user member => ?_⟩
    · obtain ⟨bound, member⟩ := member_of_inside existing consistent client inside
      by_contra kept
      have stays := ((after room bound).2 client).mp (by rwa [members, if_neg kept])
      rw [places, if_pos rfl] at stays
      exact never room stays
    · by_contra other
      have bound := valid room empty
      have inside := ((consistent room bound).2 user).mp member
      have gone := ((after room bound).2 user).mpr (by rwa [places, if_neg other])
      rw [members, if_pos empty] at gone
      cases gone
  · rintro ⟨covered, alone⟩ room bound
    obtain ⟨nodup, listed⟩ := consistent room bound
    rw [members]
    simp only [places]
    by_cases empty : emptied = some room
    · rw [if_pos empty]
      refine ⟨List.nodup_nil, fun user => iff_of_false List.not_mem_nil ?_⟩
      split_ifs with same
      · exact never room
      · exact fun inside => same (alone room empty user ((listed user).mpr inside))
    · rw [if_neg empty]
      refine ⟨nodup, fun user => ?_⟩
      rw [listed user]
      split_ifs with same
      · exact iff_of_false (fun inside => empty (covered room (same ▸ inside))) (never room)
      · rfl

/-- Clearing a slot leaves the lists alone, so the client must not be in one. -/
theorem connect_consistent_iff :
    LobbyConsistent (lobby.connect client) ↔ (lobby.place client).state ≠ .room := by
  rw [emptied_consistent_iff existing consistent client (lobby.connect client) none (fun _ => rfl)
    (lobby.connect_place client) nofun nofun]
  constructor
  · rintro ⟨outside, -⟩ inRoom
    obtain ⟨room, inside⟩ := exists_inside inRoom
    cases outside room inside
  · intro elsewhere
    exact ⟨fun room inside => (elsewhere (by rw [inside]; rfl)).elim, nofun⟩

/-- Leaving empties the remembered room, whether or not the client is still inside. -/
theorem leave_consistent_iff : LobbyConsistent (lobby.leave client) ↔ LobbyAlone lobby client := by
  have away : ((lobby.place client).current.elim Place.outside Place.left).state ≠ .room := by
    cases (lobby.place client).current <;> nofun
  rw [emptied_consistent_iff existing consistent client _ _ (lobby.leave_members client)
    (lobby.leave_place client) away (existing client)]
  exact and_iff_right fun room inside => by rw [inside]; rfl

theorem disconnect_consistent_iff :
    LobbyConsistent (lobby.disconnect client) ↔
      ((lobby.place client).state = .room → LobbyAlone lobby client) := by
  have valid (room : ℕ) (inside : (lobby.place client).inside? = some room) : room < roomCount := by
    apply existing client room
    rw [Place.inside?_eq_some_iff.mp inside]
    rfl
  rw [emptied_consistent_iff existing consistent client _ _ (lobby.disconnect_members client)
    (lobby.disconnect_place client) nofun valid, and_iff_right fun room => Place.inside?_eq_some_iff.mpr]
  constructor
  · intro alone inRoom room current
    obtain ⟨other, inside⟩ := exists_inside inRoom
    rw [inside] at current
    obtain rfl := Option.some.inj current
    exact alone other (Place.inside?_eq_some_iff.mpr inside)
  · intro alone room inside
    have place := Place.inside?_eq_some_iff.mp inside
    exact alone (by rw [place]; rfl) room (by rw [place]; rfl)

/-- Entering appends whether or not the client is in a room already. -/
theorem enter_consistent_iff (number : ℤ) :
    LobbyConsistent (lobby.enter client number) ↔
      ((lobby.place client).state = .room → ¬ lobby.Admits number) := by
  by_cases admitted : lobby.Admits number
  swap
  · rw [lobby.enter_of_refused admitted]
    exact iff_of_true consistent fun _ => admitted
  have target : number.toNat < roomCount := by
    have bound := admitted.2.1
    have positive := admitted.1
    omega
  constructor
  · intro after inRoom
    obtain ⟨room, inside⟩ := exists_inside inRoom
    obtain ⟨bound, member⟩ := member_of_inside existing consistent client inside
    obtain ⟨nodup, members⟩ := after room bound
    rw [admitted.enter_members] at nodup
    have here := members client
    rw [admitted.enter_members, admitted.enter_place, if_pos rfl] at here
    by_cases same : room = number.toNat
    · rw [if_pos same] at nodup
      exact ((List.nodup_append.mp nodup).2.2 client member client (List.mem_singleton_self client) rfl).elim
    · rw [if_neg same] at here
      exact absurd (Place.inside.inj (here.mp member)).symm same
  · intro elsewhere room bound
    have outside : ∀ other, lobby.place client ≠ .inside other := fun other inside =>
      elsewhere (by rw [inside]; rfl) admitted
    obtain ⟨nodup, members⟩ := consistent room bound
    have absent : client ∉ lobby.members room := fun member => outside room ((members client).mp member)
    rw [admitted.enter_members]
    simp only [admitted.enter_place]
    by_cases here : room = number.toNat
    · rw [if_pos here]
      refine ⟨List.nodup_append.mpr ⟨nodup, List.pairwise_singleton _ _, ?_⟩, fun user => ?_⟩
      · rintro user member _ singleton rfl
        exact absent (List.mem_singleton.mp singleton ▸ member)
      · rw [List.mem_append, List.mem_singleton, members user]
        split_ifs with same
        · exact iff_of_true (Or.inr same) (by rw [here])
        · exact or_iff_left same
    · rw [if_neg here]
      refine ⟨nodup, fun user => ?_⟩
      split_ifs with same
      · rw [same]
        exact iff_of_false absent fun inside => here (Place.inside.inj inside).symm
      · exact members user

end Steps

/-- One handler call keeps the views together exactly when it is orderly. -/
theorem call_consistent_iff (represents : Represents manager lobby) (consistent : Consistent manager)
    (call : Call) : Consistent (manager.call call) ↔ Orderly manager call := by
  rw [consistent_iff (represents.call call)]
  have views := (consistent_iff represents).mp consistent
  have existing (user room : ℕ) := (represents.users user).existing room
  rcases call with ⟨handler, client, size, pPacket, behind⟩
  cases handler with
  | processUserConnect =>
    rw [Orderly, represents.state]
    exact connect_consistent_iff existing views client
  | processUserDisConnect =>
    rw [Orderly, represents.state, alone_iff represents]
    exact disconnect_consistent_iff existing views client
  | processEnterRoom =>
    rw [Orderly, represents.state, admitted_iff represents]
    exact enter_consistent_iff existing views client _
  | processLeaveRoom =>
    rw [Orderly, alone_iff represents]
    exact leave_consistent_iff existing views client
  | processLogin => exact iff_of_true views trivial
  | processLoginDBResult => exact iff_of_true views trivial
  | processRoomChatMessage => exact iff_of_true views trivial

/-- Over every run of handler calls, for any clients, rooms and packets, the three views agree in
every state if and only if every call is orderly in the state it meets. -/
theorem run_consistent_iff_orderly (maxClient : ℕ) (allocated : ℕ → Bytes) (calls : List Call) :
    Always PacketManager.call Consistent (PacketManager.init maxClient allocated) calls ↔
      Along PacketManager.call Orderly (PacketManager.init maxClient allocated) calls := by
  have initial := Represents.init maxClient allocated
  apply always_iff_along fun manager => ∃ lobby, Represents manager lobby
  · rintro manager call ⟨lobby, represents⟩
    exact ⟨_, represents.call call⟩
  · rintro manager call ⟨lobby, represents⟩ consistent
    exact call_consistent_iff represents consistent call
  · exact ⟨_, initial⟩
  · rw [consistent_iff initial]
    exact fun room _ => ⟨List.nodup_nil, fun user => iff_of_false List.not_mem_nil nofun⟩

/-- A call for a room enter packet of this room number. -/
def enterCall (client : ℕ) (room : UInt8) : Call :=
  ⟨.processEnterRoom, client, 9, ofList [9, 0, 206, 0, 0, room, 0, 0, 0], fun _ => 0⟩

/-- A client that enters a second room without leaving the first is in both. -/
theorem run_inconsistent_two_rooms :
    ¬ Always PacketManager.call Consistent (PacketManager.init 3 fun _ _ => 0)
      [enterCall 0 0, enterCall 0 1] := by
  intro always
  have first := (always.last 0 0 (by decide +kernel)).2 0
  revert first
  decide +kernel

/-- The client is out of every room, and nothing has changed for anybody else: all others are in the
lists they were in, in the same order, and their own fields are as they were. -/
def RemovesOnly (client : ℕ) (before after : PacketManager) : Prop :=
  (∀ index, (after.room index).mUserList = (before.room index).mUserList.filter (· ≠ client)) ∧
    ∀ other, other ≠ client → after.user other = before.user other

/-- Emptying a list is removing one entry only if there is nothing else in it. -/
theorem emptied_eq_filter_iff (members : List ℕ) (client : ℕ) (emptied : Prop) [Decidable emptied] :
    (if emptied then [] else members) = members.filter (· ≠ client) ↔
      ∀ user ∈ members, (user = client ↔ emptied) := by
  split_ifs with empty
  · rw [eq_comm, List.filter_eq_nil_iff]
    simp only [decide_eq_true_eq, ne_eq, not_not, empty, iff_true]
  · rw [eq_comm, List.filter_eq_self]
    simp only [decide_eq_true_eq, ne_eq, empty, iff_false]

theorem leave_removesOnly_iff (represents : Represents manager lobby) (client : ℕ) :
    RemovesOnly client manager (manager.processLeaveRoom client) ↔
      ∀ index, ∀ user ∈ (manager.room index).mUserList,
        (user = client ↔ manager.currentRoom client = some index) := by
  have frame (other : ℕ) (different : other ≠ client) :
      (manager.processLeaveRoom client).user other = manager.user other :=
    manager.leaveUser_user_other different
  have after : Represents (manager.processLeaveRoom client) (lobby.leave client) :=
    (represents.leaveUser client).1.of_eq rfl fun _ => rfl
  rw [RemovesOnly, and_iff_left frame]
  simp only [after.members, represents.members, represents.currentRoom, Lobby.leave_members,
    emptied_eq_filter_iff]

theorem disconnect_removesOnly_iff (represents : Represents manager lobby) (client : ℕ) :
    RemovesOnly client manager (manager.processUserDisConnect client) ↔
      ∀ index, ∀ user ∈ (manager.room index).mUserList,
        (user = client ↔ (manager.user client).mCurDomainState = .room ∧
          manager.currentRoom client = some index) := by
  have frame (other : ℕ) (different : other ≠ client) :
      (manager.processUserDisConnect client).user other = manager.user other :=
    manager.clearConnectionInfo_user_other different
  rw [RemovesOnly, and_iff_left frame]
  simp only [(represents.disconnect client).members, represents.members, represents.currentRoom,
    represents.state, Lobby.disconnect_members, emptied_eq_filter_iff, Place.inside?_iff_state]

/-- In every reachable server, handling a leave request of a client, or its disconnect notice,
removes that client and touches nobody else if and only if the client remembers every room it is in
(for a disconnect: is also still inside) and the remembered room holds nobody else. -/
theorem departure_removesOnly_iff (redis : Model.RedisCpp.Server) (maxClient : ℕ) (allocated : ℕ → Bytes)
    (events : List Event) (client size : ℕ) (pPacket behind : Bytes) :
    let manager := Server.managerAfter redis maxClient allocated events
    (RemovesOnly client manager
        (manager.processRecvPacket client PacketId.roomLeaveRequest.value size pPacket behind) ↔
      ∀ index, ∀ user ∈ (manager.room index).mUserList,
        (user = client ↔ manager.currentRoom client = some index)) ∧
    (RemovesOnly client manager
        (manager.processRecvPacket client PacketId.sysUserDisconnect.value size pPacket behind) ↔
      ∀ index, ∀ user ∈ (manager.room index).mUserList,
        (user = client ↔ (manager.user client).mCurDomainState = .room ∧
          manager.currentRoom client = some index)) := by
  intro manager
  obtain ⟨lobby, represents⟩ := Represents.run_server redis maxClient allocated events
  exact ⟨leave_removesOnly_iff represents client, disconnect_removesOnly_iff represents client⟩

/-- The chunk of an enter packet for room zero. -/
def enterChunk : Chunk where
  bytes := [9, 0, 206, 0, 0, 0, 0, 0, 0]
  nonempty := by decide
  bounded := by decide

/-- The chunk of a leave packet, all of it header. -/
def leaveChunk : Chunk where
  bytes := [5, 0, 215, 0, 0]
  nonempty := by decide
  bounded := by decide

/-- A client sends an enter packet and the packet thread goes round its loop once. -/
def enterEvents (client : ℕ) : List Event :=
  .receive client enterChunk :: List.replicate 4 (.packetThread fun _ => 0)

/-- Two clients enter a room and one leaves: the other is gone from the list too. -/
theorem departure_removes_other :
    let manager := Server.managerAfter (fun _ => none) 3 (fun _ _ => 0) (enterEvents 0 ++ enterEvents 1)
    ¬ RemovesOnly 0 manager
      (manager.processRecvPacket 0 PacketId.roomLeaveRequest.value 5 (ofList [5, 0, 215, 0, 0]) fun _ => 0) := by
  intro manager removed
  have list := removed.1 0
  revert list
  decide +kernel

end CppRedis.Soundness.Membership
