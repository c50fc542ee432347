import CppRedis.Model.Client.Packet
import CppRedis.Model.GameServer.Server

/-! # Text from the client to the server and back

The client writes text into fixed-width fields that it fills up with zeros, and takes texts as long as the
whole field. The server reads the fields of a login as C strings, which need a zero behind the text: an
id that fills its field runs on into the password, and a password that fills its field runs on behind the
block that holds the copy. A chat message comes back with the zeros of its field, which the client's
`Trim` does not take off.
-/

namespace CppRedis.Soundness.RoundTrip

open Machine Model Model.GameServer

/-- A frame is next in a client's packet buffer, and the client's slot is next in the queue. -/
structure Arrived (manager : PacketManager) (client : ℕ) (frame : List UInt8) : Prop where
  queued : manager.mInComingPacketUserIndex.head? = some client
  bounds : (manager.user client).InBounds
  front : frame <+: (manager.user client).unread

/-- The next packet of a client. -/
def nextPacket (manager : PacketManager) (client : ℕ) : Bytes :=
  (manager.user client).mPakcetDataBuffer.offset (manager.user client).mPakcetDataBufferRPos

/-- The packet thread dequeues the next packet and handles it. -/
def handleNext (manager : PacketManager) (behind : Bytes) : PacketManager :=
  let (packetData, manager) := manager.dequePacketData
  manager.processRecvPacket packetData.clientIndex packetData.packetId packetData.dataSize
    (manager.pointer packetData) behind

/-- The header of a client's packet. -/
theorem packetBytes_frame (id : Client.PacketId) {body : List UInt8} (small : body.length + 5 < 32768) :
    packetFraming.IsFrame (Client.packetBytes id body) ∧
      packetId (ofList (Client.packetBytes id body)) = id.value.toNat ∧
      (Client.packetBytes id body).length = packetHeaderLength + body.length ∧
      (Client.packetBytes id body).drop packetHeaderLength = body := by
  have length : (Client.packetBytes id body).length = packetHeaderLength + body.length := by
    rw [Client.packetBytes_eq id small]
    simp only [uint16Bytes, List.length_append, List.length_cons, List.length_nil, packetHeaderLength]
    omega
  refine ⟨⟨?_, ?_⟩, ?_, length, ?_⟩
  · rw [length]
    exact Nat.le_add_right ..
  · rw [length, Client.packetBytes_eq id small]
    change uint16At (ofList _) 0 = _
    rw [uint16At_ofList, UInt16.toNat_ofNat', Nat.mod_eq_of_lt (by omega)]
    exact Nat.add_comm ..
  · rw [Client.packetBytes_eq id small]
    exact uint16At_ofList id.value (0 :: body)
  · rw [Client.packetBytes_eq id small]
    rfl

/-- Handling a frame that has arrived is a call of its handler with a pointer to it. -/
theorem Arrived.handleNext_eq {manager : PacketManager} {client : ℕ} {frame : List UInt8}
    (arrived : Arrived manager client frame) (framed : packetFraming.IsFrame frame) (behind : Bytes) :
    handleNext manager behind =
      PacketManager.processRecvPacket
        { manager with
          mInComingPacketUserIndex := manager.mInComingPacketUserIndex.tail
          mUserManager := manager.mUserManager.modify client (·.getPacket.2) }
        client (packetId (ofList frame)) frame.length (nextPacket manager client) behind := by
  obtain ⟨more, unread⟩ := arrived.front
  obtain ⟨rest, queued⟩ := List.head?_eq_some_iff.mp arrived.queued
  have found : packetFraming.next? (manager.user client).unread = some frame := unread ▸ framed.next? more
  have packet := User.getPacket_some arrived.bounds found
  have id := User.packetId_of_next? found framed.1
  simp only [handleNext]
  rw [PacketManager.dequePacketData_cons _ queued, queued]
  dsimp only
  have buffer : (manager.user client).getPacket.2.mPakcetDataBuffer = (manager.user client).mPakcetDataBuffer := by
    rw [packet]
  rw [show (manager.user client).getPacket.1 = _ from congrArg Prod.fst packet, id]
  have same : PacketManager.user
      { manager with
        mInComingPacketUserIndex := rest
        mUserManager := manager.mUserManager.modify client (·.getPacket.2) } client =
      (manager.user client).getPacket.2 :=
    UserManager.modify_self manager.mUserManager client (·.getPacket.2)
  simp only [PacketManager.pointer, nextPacket]
  rw [same, buffer, List.tail_cons]

/-- The bytes of a frame that has arrived. -/
theorem Arrived.read {manager : PacketManager} {client : ℕ} {frame : List UInt8}
    (arrived : Arrived manager client frame) {position count : ℕ} (inside : position + count ≤ frame.length) :
    (nextPacket manager client).read position count = (frame.drop position).take count := by
  obtain ⟨more, unread⟩ := arrived.front
  have length := congrArg List.length unread
  rw [User.unread_length, List.length_append] at length
  have whole : (nextPacket manager client).read 0 frame.length = frame := by
    simp only [nextPacket]
    rw [Memory.read_offset, Nat.add_zero, ← Memory.read_take _ _ ((manager.user client).mPakcetDataBufferWPos -
      (manager.user client).mPakcetDataBufferRPos) (by omega)]
    change (manager.user client).unread.take frame.length = frame
    rw [← unread, List.take_left]
  conv_rhs => rw [← whole]
  rw [Memory.read_drop _ _ _ (by omega), Memory.read_take _ _ _ (by omega), Nat.zero_add]

/-- The frame of a login, if `SetValue` takes the texts. -/
def loginFrame (userId userPw : Client.NetString) : Option (List UInt8) :=
  (Client.LoginReqPacket.setValue {} userId userPw).map fun packet =>
    Client.packetBytes .loginReq packet.toBytes

/-- The user id and password that the Redis thread will read from the tasks that a step pushes. -/
def handedToRedis (before after : PacketManager) : List (CppString × CppString) :=
  (after.mRedisMgr.mRequestTask.drop before.mRedisMgr.mRequestTask.length).map fun task =>
    (redisLoginUserId task.pData, redisLoginUserPw task.pData)

/-- The frame of a login holds the two texts in their fields. -/
theorem loginFrame_eq_some {userId userPw : Client.NetString} {frame : List UInt8}
    (made : loginFrame userId userPw = some frame) :
    (Client.getBytes userId).length ≤ maxUserIdLen + 1 ∧ (Client.getBytes userPw).length ≤ maxUserPwLen + 1 ∧
      frame = Client.packetBytes .loginReq (Client.padded (Client.getBytes userId) (maxUserIdLen + 1) ++
        Client.padded (Client.getBytes userPw) (maxUserPwLen + 1)) := by
  obtain ⟨packet, set, rfl⟩ := Option.map_eq_some_iff.mp made
  obtain ⟨idFits, pwFits, bytes⟩ := Client.LoginReqPacket.setValue_eq_some set
  exact ⟨idFits, pwFits, congrArg _ bytes⟩

/-- A text in a field, and the cell behind it. -/
theorem read_padded {memory : Bytes} {text : List UInt8} {width : ℕ} (fits : text.length ≤ width)
    (field : memory.read 0 width = Client.padded text width) :
    memory.read 0 text.length = text ∧ (text.length < width → memory text.length = 0) := by
  constructor
  · rw [← Memory.read_take _ _ _ fits, field, Client.padded, List.take_left]
  · intro room
    have bound : text.length < (memory.read 0 width).length := by rwa [Memory.read_length]
    have cell := memory.getElem_read 0 width text.length bound
    rw [Nat.zero_add] at cell
    rw [← cell]
    simp only [field, Client.padded, List.getElem_append_right (Nat.le_refl _), List.getElem_replicate]

/-- What the Redis thread reads of a task whose two fields hold texts without a zero. -/
theorem redisLogin_eq_iff {memory behind : Bytes} {userId userPw : List UInt8} (idText : 0 ∉ userId)
    (pwText : 0 ∉ userPw) (idFits : userId.length ≤ maxUserIdLen + 1) (pwFits : userPw.length ≤ maxUserPwLen + 1)
    (copied : memory = behind.write 0 (Client.padded userId (maxUserIdLen + 1) ++
      Client.padded userPw (maxUserPwLen + 1))) :
    redisLoginUserId memory = userId ∧ redisLoginUserPw memory = userPw ↔
      (userId.length ≤ maxUserIdLen ∨ userPw = []) ∧
        (userPw.length ≤ maxUserPwLen ∨ behind redisLoginReqSize = 0) := by
  have small : maxUserIdLen + 1 + (maxUserPwLen + 1) < addressSpace := by decide
  have whole := behind.read_write_self 0 (Client.padded userId (maxUserIdLen + 1) ++
    Client.padded userPw (maxUserPwLen + 1))
  rw [← copied, List.length_append, Client.padded_length idFits, Client.padded_length pwFits, Memory.read_add,
    Nat.zero_add] at whole
  have idField : memory.read 0 (maxUserIdLen + 1) = Client.padded userId (maxUserIdLen + 1) :=
    List.append_inj_left whole (by rw [Memory.read_length, Client.padded_length idFits])
  have pwField : (memory.offset (maxUserIdLen + 1)).read 0 (maxUserPwLen + 1) =
      Client.padded userPw (maxUserPwLen + 1) :=
    (Memory.read_offset ..).trans
      (List.append_inj_right whole (by rw [Memory.read_length, Client.padded_length idFits]))
  have last : memory redisLoginReqSize = behind redisLoginReqSize := by
    have beyond := behind.read_write_behind 1 (show 0 + (Client.padded userId (maxUserIdLen + 1) ++
        Client.padded userPw (maxUserPwLen + 1)).length ≤ redisLoginReqSize by
      rw [List.length_append, Client.padded_length idFits, Client.padded_length pwFits, Nat.zero_add]
      exact Nat.le_refl _)
    rw [← copied] at beyond
    exact (List.cons.inj beyond).1
  obtain ⟨idFront, idEnd⟩ := read_padded idFits idField
  obtain ⟨pwFront, pwEnd⟩ := read_padded pwFits pwField
  simp only [redisLoginUserId, redisLoginUserPw]
  rw [cString_eq_iff idText idFront (by omega), cString_eq_iff pwText pwFront (by omega)]
  refine and_congr ?_ ?_
  · by_cases room : userId.length ≤ maxUserIdLen
    · exact iff_of_true (idEnd (by omega)) (Or.inl room)
    · -- The id fills its field, so the first byte of the password follows it.
      have full : userId.length = maxUserIdLen + 1 := by omega
      rw [or_iff_right room, full]
      change (memory.offset (maxUserIdLen + 1)) 0 = 0 ↔ _
      cases userPw with
      | nil => exact iff_of_true (pwEnd (by decide)) rfl
      | cons byte rest =>
        rw [List.length_cons, Nat.add_comm rest.length, Memory.read_add] at pwFront
        have first : memory.offset (maxUserIdLen + 1) 0 = byte := (List.cons.inj pwFront).1
        rw [first]
        exact iff_of_false (fun zero => pwText (zero ▸ List.mem_cons_self)) (List.cons_ne_nil _ _)
  · by_cases room : userPw.length ≤ maxUserPwLen
    · exact iff_of_true (pwEnd (by omega)) (Or.inl room)
    · have full : userPw.length = maxUserPwLen + 1 := by omega
      rw [or_iff_right room, full, ← last]
      exact Iff.rfl

/-- For every user id and password that `SetValue` takes, in UTF-8 without a zero, and every state in which
their login is next and goes to Redis: the Redis thread reads exactly the id and the password if and only
if the id leaves a byte of its field free or the password is empty, and the password leaves a byte of
its field free or the byte behind the request's block happens to be zero. -/
theorem login_handed_iff {userId userPw : Client.NetString} {frame : List UInt8}
    (made : loginFrame userId userPw = some frame) (idText : 0 ∉ Client.getBytes userId)
    (pwText : 0 ∉ Client.getBytes userPw) {manager : PacketManager} {client : ℕ} {behind : Bytes}
    (arrived : Arrived manager client frame)
    (asks : manager.AsksRedis ⟨.processLogin, client, frame.length, nextPacket manager client, behind⟩) :
    handedToRedis manager (handleNext manager behind) = [(Client.getBytes userId, Client.getBytes userPw)] ↔
      ((Client.getBytes userId).length ≤ maxUserIdLen ∨ Client.getBytes userPw = []) ∧
        ((Client.getBytes userPw).length ≤ maxUserPwLen ∨ behind redisLoginReqSize = 0) := by
  obtain ⟨idFits, pwFits, rfl⟩ := loginFrame_eq_some made
  set idField := Client.padded (Client.getBytes userId) (maxUserIdLen + 1)
  set pwField := Client.padded (Client.getBytes userPw) (maxUserPwLen + 1)
  have idLength : idField.length = maxUserIdLen + 1 := Client.padded_length idFits
  have pwLength : pwField.length = maxUserPwLen + 1 := Client.padded_length pwFits
  have bodyLength : (idField ++ pwField).length = maxUserIdLen + 1 + (maxUserPwLen + 1) := by
    rw [List.length_append, idLength, pwLength]
  obtain ⟨framed, id, length, body⟩ := packetBytes_frame .loginReq (show (idField ++ pwField).length + 5 < 32768 by
    rw [bodyLength]
    decide)
  have idRead : (nextPacket manager client).read packetHeaderLength (maxUserIdLen + 1) = idField := by
    rw [arrived.read (by rw [length, bodyLength]; decide), body, List.take_left' idLength]
  have pwRead : (nextPacket manager client).read (packetHeaderLength + (maxUserIdLen + 1)) (maxUserPwLen + 1) =
      pwField := by
    rw [arrived.read (by rw [length, bodyLength]; decide), ← List.drop_drop, body, List.drop_left' idLength,
      List.take_of_length_le (Nat.le_of_eq pwLength)]
  have task : (PacketManager.loginTask client (nextPacket manager client) behind).pData =
      behind.write 0 (idField ++ pwField) := by
    simp only [PacketManager.loginTask]
    rw [idRead, pwRead]
  have pushed : (handleNext manager behind).mRedisMgr.mRequestTask = manager.mRedisMgr.mRequestTask ++
      [PacketManager.loginTask client (nextPacket manager client) behind] := by
    rw [arrived.handleNext_eq framed, PacketManager.processRecvPacket_mRedisMgr, if_pos ⟨id, asks⟩]
    rfl
  simp only [handedToRedis]
  rw [pushed, List.drop_left, List.map_singleton, List.singleton_inj, Prod.mk.injEq]
  exact redisLogin_eq_iff idText pwText idFits pwFits task

-- `SetValue` takes no id of 34 bytes.
example : loginFrame (List.replicate 34 (Char.ofNat 97)) [] = none := by decide +kernel

/-- A server that has just received a frame from client 0. -/
def receiving (frame : List UInt8) : PacketManager :=
  (PacketManager.init 3 fun _ _ => 0).receivePacketData 0 frame

/-- The login of user `a` with password `x`. -/
def shortLogin : List UInt8 :=
  [71, 0, 201, 0, 0] ++ ([97] ++ List.replicate 32 0) ++ ([120] ++ List.replicate 32 0)

/-- A short id and a short password arrive. -/
theorem login_handed_short :
    handedToRedis (receiving shortLogin) (handleNext (receiving shortLogin) fun _ => 255) =
      [(Client.getBytes [Char.ofNat 97], Client.getBytes [Char.ofNat 120])] := by
  have made : loginFrame [Char.ofNat 97] [Char.ofNat 120] = some shortLogin := by decide +kernel
  have arrived : Arrived (receiving shortLogin) 0 shortLogin := by
    refine ⟨rfl, ?_, ?_⟩
    · decide +kernel
    · decide +kernel
  have asks : (receiving shortLogin).AsksRedis ⟨.processLogin, 0, shortLogin.length,
      nextPacket (receiving shortLogin) 0, fun _ => 255⟩ := by decide +kernel
  exact (login_handed_iff made (by decide +kernel) (by decide +kernel) arrived asks).mpr
    ⟨Or.inl (by decide +kernel), Or.inl (by decide +kernel)⟩

/-- The login of an id of 33 letters `a` with password `x`. -/
def longLogin : List UInt8 :=
  [71, 0, 201, 0, 0] ++ List.replicate 33 97 ++ ([120] ++ List.replicate 32 0)

/-- `SetValue` takes an id of 33 bytes, and the Redis thread reads the password as its end. -/
theorem login_runs_into_password :
    loginFrame (List.replicate 33 (Char.ofNat 97)) [Char.ofNat 120] = some longLogin ∧
      Arrived (receiving longLogin) 0 longLogin ∧
      handedToRedis (receiving longLogin) (handleNext (receiving longLogin) fun _ => 0) =
        [(List.replicate 33 97 ++ [120], [120])] ∧
      Client.getBytes (List.replicate 33 (Char.ofNat 97)) ≠ List.replicate 33 97 ++ [120] := by
  refine ⟨by decide +kernel, ⟨rfl, ?_, ?_⟩, ?_, ?_⟩
  · decide +kernel
  · decide +kernel
  · decide +kernel
  · decide +kernel

/-- The frame of a chat message, if `SetValue` takes the text. -/
def chatFrame (message : Client.NetString) : Option (List UInt8) :=
  (Client.RoomChatReqPacket.setValue {} message).map fun packet =>
    Client.packetBytes .roomChatReq packet.toBytes

/-- The bodies of the chat notices that a step sends. -/
def chatNotices (before after : PacketManager) : List (List UInt8) :=
  (before.newlySent after).filterMap fun sent =>
    match sent.packet with
    | .roomChatNotify userId msg => some (userId ++ msg)
    | _ => none

/-- The character that fills up a field. -/
def nul : Char := Char.ofNat 0

/-- A field filled up with zeros holds the text with as many more characters. -/
theorem getBytes_padded (message : Client.NetString) (width : ℕ) :
    Client.padded (Client.getBytes message) width =
      Client.getBytes (message ++ List.replicate (width - (Client.getBytes message).length) nul) := by
  have zeros (count : ℕ) : Client.getBytes (List.replicate count nul) = List.replicate count 0 := by
    induction count with
    | zero => rfl
    | succ count ih => exact congrArg (0 :: ·) ih
  rw [Client.padded, Client.getBytes_append, zeros]

/-- `Trim` keeps what is not white space. -/
theorem mem_trim {text : Client.NetString} {char : Char} (member : char ∈ text)
    (black : Client.isWhiteSpace char = false) : char ∈ Client.trim text := by
  have kept {text : Client.NetString} (member : char ∈ text) : char ∈ text.dropWhile Client.isWhiteSpace := by
    rw [← List.takeWhile_append_dropWhile (p := Client.isWhiteSpace) (l := text)] at member
    refine (List.mem_append.mp member).resolve_left fun white => ?_
    rw [List.mem_takeWhile_imp white] at black
    cases black
  exact List.mem_reverse.mpr (kept (List.mem_reverse.mpr (kept member)))

/-- A body of the two fields of a notice is decoded with the zeros of the message field. -/
theorem nul_mem_message (encoding : Client.Utf8Encoding) {message : Client.NetString}
    (short : (Client.getBytes message).length ≤ maxChatMsgSize) {userId : List UInt8}
    (width : userId.length = maxUserIdLen + 1) :
    nul ∈ (Client.RoomChatNtfPacket.fromBytes encoding
      (userId ++ Client.padded (Client.getBytes message) (maxChatMsgSize + 1))).message := by
  have field : ((userId ++ Client.padded (Client.getBytes message) (maxChatMsgSize + 1)).drop
      Client.maxUserIdByteLength).take Client.maxChatMsgSize =
      Client.getBytes (message ++ List.replicate (maxChatMsgSize + 1 - (Client.getBytes message).length) nul) := by
    rw [show Client.maxUserIdByteLength = userId.length from width.symm, List.drop_left,
      List.take_of_length_le, getBytes_padded]
    rw [Client.padded_length (by omega)]
    exact Nat.le_refl _
  simp only [Client.RoomChatNtfPacket.fromBytes]
  rw [field, encoding.getString_getBytes]
  refine mem_trim (List.mem_append_right _ (List.mem_replicate.mpr ⟨?_, rfl⟩)) (by decide)
  omega

/-- The notices for a chat message that has arrived carry the message field. -/
theorem Arrived.chatNotices {message : Client.NetString} {frame : List UInt8} (made : chatFrame message = some frame)
    {manager : PacketManager} {client : ℕ} (arrived : Arrived manager client frame) (behind : Bytes)
    {body : List UInt8} (sent : body ∈ RoundTrip.chatNotices manager (handleNext manager behind)) :
    ∃ userId : List UInt8, userId.length = maxUserIdLen + 1 ∧
      body = userId ++ Client.padded (Client.getBytes message) (maxChatMsgSize + 1) := by
  obtain ⟨packet, set, rfl⟩ := Option.map_eq_some_iff.mp made
  obtain ⟨fits, bytes⟩ := Client.RoomChatReqPacket.setValue_eq_some set
  have width : packet.toBytes.length = maxChatMsgSize + 1 := by
    rw [bytes]
    exact Client.padded_length fits
  obtain ⟨framed, id, length, content⟩ := packetBytes_frame .roomChatReq (show packet.toBytes.length + 5 < 32768 by
    rw [width]
    decide)
  have text : ((nextPacket manager client).offset packetHeaderLength).read 0 (maxChatMsgSize + 1) =
      Client.padded (Client.getBytes message) (maxChatMsgSize + 1) := by
    rw [Memory.read_offset, Nat.add_zero, arrived.read (by rw [length, width]), content,
      List.take_of_length_le (Nat.le_of_eq width)]
    exact bytes
  rw [arrived.handleNext_eq framed, id] at sent
  set next : PacketManager :=
    { manager with
      mInComingPacketUserIndex := manager.mInComingPacketUserIndex.tail
      mUserManager := manager.mUserManager.modify client (·.getPacket.2) }
  change body ∈ RoundTrip.chatNotices next
    (next.processRoomChatMessage client (nextPacket manager client) behind) at sent
  simp only [RoundTrip.chatNotices, PacketManager.newlySent] at sent
  cases current : next.currentRoom client with
  | none =>
    simp only [PacketManager.processRoomChatMessage] at sent
    rw [current] at sent
    dsimp only [PacketManager.sendPacketFunc] at sent
    rw [List.drop_left] at sent
    cases sent
  | some index =>
    rw [PacketManager.processRoomChatMessage_room current] at sent
    dsimp only [PacketManager.sendPacketFunc] at sent
    rw [List.append_assoc, List.drop_left] at sent
    obtain ⟨packet, listed, notice⟩ := List.mem_filterMap.mp sent
    rcases List.mem_cons.mp listed with rfl | listed
    · cases notice
    · obtain ⟨recipient, -, rfl⟩ := List.mem_map.mp listed
      refine ⟨(behind.write 0 ((next.user client).mUserID ++ [0])).read 0 (maxUserIdLen + 1),
        Memory.read_length .., ?_⟩
      rw [← text]
      exact (Option.some.inj notice).symm

/-- For every chat message of at most 256 bytes of UTF-8 without a zero, and every state in which its
packet is next: every notice that is sent for it is decoded to something else. -/
theorem chat_message_ne (encoding : Client.Utf8Encoding) {message : Client.NetString} {frame : List UInt8}
    (made : chatFrame message = some frame) (short : (Client.getBytes message).length ≤ maxChatMsgSize)
    (text : 0 ∉ Client.getBytes message) {manager : PacketManager} {client : ℕ}
    (arrived : Arrived manager client frame) (behind : Bytes) :
    ∀ body ∈ chatNotices manager (handleNext manager behind),
      (Client.RoomChatNtfPacket.fromBytes encoding body).message ≠ message := by
  intro body sent same
  obtain ⟨userId, width, rfl⟩ := arrived.chatNotices made behind sent
  have extra := nul_mem_message encoding short width
  rw [same] at extra
  exact text (List.mem_flatMap.mpr ⟨nul, extra, by decide⟩)

-- A message of 258 bytes is not taken.
example : chatFrame (List.replicate 258 (Char.ofNat 97)) = none := by decide +kernel

/-- The text `hi`. -/
def hi : Client.NetString := [Char.ofNat 104, Char.ofNat 105]

/-- The chat packet with the text `hi`. -/
def hiFrame : List UInt8 := [6, 1, 221, 0, 0, 104, 105] ++ List.replicate 255 0

/-- A server with client 0 in room 0, which has just received `hi` from it. -/
def chatting : PacketManager :=
  ((PacketManager.init 3 fun _ _ => 0).processEnterRoom 0 fun _ => 0).receivePacketData 0 hiFrame

/-- The body of the notice for `hi`. -/
def hiBody : List UInt8 := List.replicate 33 0 ++ [104, 105] ++ List.replicate 255 0

theorem hi_arrived : Arrived chatting 0 hiFrame := by
  refine ⟨rfl, ?_, ?_⟩
  · decide +kernel
  · decide +kernel

theorem hi_noticed : hiBody ∈ chatNotices chatting (handleNext chatting fun _ => 0) := by decide +kernel

/-- The notice for `hi` is sent and decoded to something else. -/
theorem chat_message_ne_hi :
    hiBody ∈ chatNotices chatting (handleNext chatting fun _ => 0) ∧
      (Client.RoomChatNtfPacket.fromBytes Client.strictUtf8 hiBody).message ≠ hi := by
  have ne := chat_message_ne Client.strictUtf8 (show chatFrame hi = some hiFrame by decide +kernel)
    (by decide +kernel) (by decide +kernel) hi_arrived (fun _ => 0) hiBody hi_noticed
  exact ⟨hi_noticed, ne⟩

/-- The text `hi` comes back with the 255 zeros of its field. -/
theorem chat_message_keeps_zeros :
    chatFrame hi = some hiFrame ∧ Arrived chatting 0 hiFrame ∧
      hiBody ∈ chatNotices chatting (handleNext chatting fun _ => 0) ∧
      (Client.RoomChatNtfPacket.fromBytes Client.strictUtf8 hiBody).message ≠ hi := by
  refine ⟨by decide +kernel, hi_arrived, hi_noticed, fun same => ?_⟩
  have extra := nul_mem_message Client.strictUtf8 (show (Client.getBytes hi).length ≤ maxChatMsgSize by decide +kernel)
    (show (List.replicate 33 (0 : UInt8)).length = maxUserIdLen + 1 by decide)
  change nul ∈ (Client.RoomChatNtfPacket.fromBytes Client.strictUtf8 hiBody).message at extra
  rw [same] at extra
  exact absurd extra (by decide)

end CppRedis.Soundness.RoundTrip
