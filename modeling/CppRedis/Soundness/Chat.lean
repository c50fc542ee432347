import CppRedis.Soundness.Membership
import Mathlib.Data.List.Nodup

/-! # Delivery of chat messages

Whether a chat request is answered, and from which room its recipients come, is decided by the room
index the sender remembers; who is a member is decided by the lists. A request is delivered as it
should be exactly when the two agree about the sender.
-/

namespace CppRedis.Soundness.Chat

open Machine Model.GameServer

/-- Whether a packet is a chat notice. -/
def isChatNotify (sent : Sent) : Bool := sent.packet.id = .roomChatNotify

/-- The clients that got a chat notice, once for each notice. -/
def notified (before after : PacketManager) : List ℕ :=
  ((before.newlySent after).filter isChatNotify).map Sent.clientIndex

/-- Everything else that was sent. -/
def answers (before after : PacketManager) : List (ℕ × ServerPacket) :=
  ((before.newlySent after).filter fun sent => !isChatNotify sent).map fun sent =>
    (sent.clientIndex, sent.packet)

/-- A chat request of a member of a room reaches each member of it once and nobody else and is
answered without an error; one of a client in no room reaches nobody and is answered with an error. -/
def Delivers (client : ℕ) (before after : PacketManager) : Prop :=
  (∀ index, client ∈ (before.room index).mUserList →
    (∀ user, (notified before after).count user =
      if user ∈ (before.room index).mUserList then 1 else 0) ∧
    answers before after = [(client, .roomChatResponse ErrorCode.none.code)]) ∧
  ((∀ index, client ∉ (before.room index).mUserList) →
    notified before after = [] ∧
    ∃ error, error ≠ ErrorCode.none.code ∧ answers before after = [(client, .roomChatResponse error)])

/-- The remembered room and the lists agree about the client: it remembers none and is in none, or it
is in the remembered room, that list has no duplicates and any other room it is in has the same
members. -/
def RemembersRoom (manager : PacketManager) (client : ℕ) : Prop :=
  match manager.currentRoom client with
  | none => ∀ index, client ∉ (manager.room index).mUserList
  | some current =>
      client ∈ (manager.room current).mUserList ∧ (manager.room current).mUserList.Nodup ∧
        ∀ index, client ∈ (manager.room index).mUserList →
          ∀ user, user ∈ (manager.room index).mUserList ↔ user ∈ (manager.room current).mUserList

variable {manager : PacketManager} {lobby : Lobby}

/-- The recipients of a notice are the members, by their own index. -/
theorem sendToAllUser_eq (represents : Represents manager lobby) (index : ℕ) (passUserIndex : ℤ) :
    (manager.room index).sendToAllUser manager.mUserManager passUserIndex false =
      (manager.room index).mUserList := by
  simp only [Room.sendToAllUser]
  have all : ∀ user ∈ (manager.room index).mUserList,
      (decide ¬(false = true ∧ (manager.mUserManager.mUserObjPool user).mIndex = passUserIndex)) = true :=
    fun user _ => decide_eq_true fun pass => Bool.false_ne_true pass.1
  rw [List.filter_eq_self.mpr all]
  conv_rhs => rw [← List.map_id (manager.room index).mUserList]
  refine List.map_congr_left fun user _ => ?_
  change (manager.user user).mIndex.toNat = user
  rw [(represents.users user).index, Int.toNat_natCast]

/-- A client that remembers no room gets an error and nobody is notified. -/
theorem chat_of_none (client : ℕ) (pPacket behind : Bytes) (current : manager.currentRoom client = none) :
    notified manager (manager.processRoomChatMessage client pPacket behind) = [] ∧
      answers manager (manager.processRoomChatMessage client pPacket behind) =
        [(client, .roomChatResponse ErrorCode.chatRoomInvalidRoomNumber.code)] := by
  simp only [notified, answers, PacketManager.newlySent, PacketManager.processRoomChatMessage, current,
    PacketManager.sendPacketFunc, List.drop_left]
  exact ⟨rfl, rfl⟩

/-- A client that remembers a room sends an answer and then a notice to each member. -/
theorem newlySent_of_some (represents : Represents manager lobby) (client : ℕ) (pPacket behind : Bytes)
    {index : ℕ} (current : manager.currentRoom client = some index) :
    ∃ packet : ServerPacket, packet.id = .roomChatNotify ∧
      manager.newlySent (manager.processRoomChatMessage client pPacket behind) =
        ⟨client, (ServerPacket.roomChatResponse 0).length, .roomChatResponse ErrorCode.none.code⟩ ::
          (manager.room index).mUserList.map fun user => ⟨user, packet.length, packet⟩ := by
  have recipients := sendToAllUser_eq represents index client
  refine ⟨PacketManager.chatNotifyPacket (manager.user client).mUserID (pPacket.offset packetHeaderLength)
    behind, rfl, ?_⟩
  rw [PacketManager.newlySent, PacketManager.processRoomChatMessage_room current]
  simp only [PacketManager.sendPacketFunc, List.append_assoc, List.drop_left, List.singleton_append, recipients]
  rfl

/-- The notices among an answer and notices to some users. -/
theorem filter_isChatNotify (users : List ℕ) (answer : Sent) (packet : ServerPacket)
    (notice : packet.id = .roomChatNotify) (response : isChatNotify answer = false) :
    (answer :: users.map fun user => ⟨user, packet.length, packet⟩).filter isChatNotify =
        (users.map fun user => ⟨user, packet.length, packet⟩) ∧
      ((answer :: users.map fun user => ⟨user, packet.length, packet⟩).filter fun sent =>
        !isChatNotify sent) = [answer] := by
  have all (user : ℕ) : isChatNotify ⟨user, packet.length, packet⟩ = true := decide_eq_true notice
  constructor
  · rw [List.filter_cons_of_neg (by rw [response]; exact Bool.false_ne_true), List.filter_eq_self]
    intro sent member
    obtain ⟨user, -, rfl⟩ := List.mem_map.mp member
    exact all user
  · rw [List.filter_cons_of_pos (by rw [response]; rfl), List.filter_eq_nil_iff.mpr]
    intro sent member
    obtain ⟨user, -, rfl⟩ := List.mem_map.mp member
    rw [all user]
    exact Bool.false_ne_true

/-- A client that remembers a room notifies all its members. -/
theorem chat_of_some (represents : Represents manager lobby) (client : ℕ) (pPacket behind : Bytes)
    {index : ℕ} (current : manager.currentRoom client = some index) :
    notified manager (manager.processRoomChatMessage client pPacket behind) =
        (manager.room index).mUserList ∧
      answers manager (manager.processRoomChatMessage client pPacket behind) =
        [(client, .roomChatResponse ErrorCode.none.code)] := by
  obtain ⟨packet, notice, sent⟩ := newlySent_of_some represents client pPacket behind current
  obtain ⟨notices, rest⟩ := filter_isChatNotify (manager.room index).mUserList
    ⟨client, _, .roomChatResponse ErrorCode.none.code⟩ packet notice rfl
  rw [notified, answers, sent, notices, rest, List.map_map]
  exact ⟨List.map_id _, rfl⟩

/-- The request is delivered as it should be exactly when the remembered room and the lists agree. -/
theorem chat_delivers_iff (represents : Represents manager lobby) (client : ℕ) (pPacket behind : Bytes) :
    Delivers client manager (manager.processRoomChatMessage client pPacket behind) ↔
      RemembersRoom manager client := by
  simp only [Delivers, RemembersRoom]
  cases current : manager.currentRoom client with
  | none =>
    obtain ⟨quiet, answered⟩ := chat_of_none client pPacket behind current
    rw [quiet, answered]
    constructor
    · rintro ⟨member, -⟩ index listed
      have wrong := (member index listed).2
      revert wrong
      simp only [List.cons.injEq, Prod.mk.injEq, ServerPacket.roomChatResponse.injEq, true_and, and_true,
        ErrorCode.code]
      decide
    · intro nowhere
      exact ⟨fun index listed => absurd listed (nowhere index), fun _ => ⟨rfl, _, by decide, rfl⟩⟩
  | some room =>
    obtain ⟨told, answered⟩ := chat_of_some represents client pPacket behind current
    rw [told, answered]
    dsimp only
    constructor
    · rintro ⟨member, stranger⟩
      have listed : ∃ index, client ∈ (manager.room index).mUserList := by
        by_contra nowhere
        obtain ⟨-, error, failed, same⟩ := stranger (not_exists.mp nowhere)
        cases same
        exact failed rfl
      have once (index : ℕ) (inside : client ∈ (manager.room index).mUserList) (user : ℕ) :
          user ∈ (manager.room index).mUserList ↔ user ∈ (manager.room room).mUserList := by
        have counted := (member index inside).1 user
        have positive : 0 < (manager.room room).mUserList.count user ↔ _ := List.count_pos_iff
        rw [← positive, counted]
        split_ifs with here
        · exact iff_of_true here Nat.one_pos
        · exact iff_of_false here (Nat.lt_irrefl 0)
      obtain ⟨index, inside⟩ := listed
      refine ⟨(once index inside client).mp inside, List.nodup_iff_count_le_one.mpr fun user => ?_, once⟩
      rw [(member index inside).1 user]
      split_ifs <;> omega
    · rintro ⟨inside, nodup, same⟩
      refine ⟨fun index listed => ⟨fun user => ?_, rfl⟩, fun nowhere => absurd inside (nowhere room)⟩
      rw [nodup.count]
      simp only [same index listed user]

/-- In every reachable server, a chat request is delivered to the sender's room, once to each member
and to nobody else, and answered accordingly, if and only if the sender's remembered room agrees with
the lists. -/
theorem chatRequest_delivers_iff (redis : Model.RedisCpp.Server) (maxClient : ℕ) (allocated : ℕ → Bytes)
    (events : List Event) (client size : ℕ) (pPacket behind : Bytes) :
    let manager := Server.managerAfter redis maxClient allocated events
    Delivers client manager
        (manager.processRecvPacket client PacketId.roomChatRequest.value size pPacket behind) ↔
      RemembersRoom manager client := by
  intro manager
  obtain ⟨lobby, represents⟩ := Represents.run_server redis maxClient allocated events
  exact chat_delivers_iff represents client pPacket behind

/-- The chunks of an enter packet for room zero and of a leave packet. -/
def visitChunks : List Chunk := [Membership.enterChunk, Membership.leaveChunk]

/-- A client enters a room and leaves it; the packet thread goes round its loop after each packet. -/
def visitEvents (client : ℕ) : List Event :=
  visitChunks.flatMap fun chunk =>
    .receive client chunk :: List.replicate 4 (.packetThread fun _ => 0)

/-- A client that has left its room and is in none still gets its chat request answered without an
error. -/
theorem chatRequest_accepted_outside :
    let manager := Server.managerAfter (fun _ => none) 3 (fun _ _ => 0) (visitEvents 0)
    ¬ Delivers 0 manager (manager.processRecvPacket 0 PacketId.roomChatRequest.value 262
      (fun _ => 0) fun _ => 0) := by
  intro manager delivers
  obtain ⟨lobby, represents⟩ := Represents.run_server (fun _ => none) 3 (fun _ _ => 0) (visitEvents 0)
  have remembers := (chat_delivers_iff represents 0 (fun _ => 0) fun _ => 0).mp delivers
  have current : manager.currentRoom 0 = some 0 := by decide +kernel
  have empty : (manager.room 0).mUserList = [] := by decide +kernel
  rw [RemembersRoom, current] at remembers
  exact List.not_mem_nil (empty ▸ remembers.1)

end CppRedis.Soundness.Chat
