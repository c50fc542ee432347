import CppRedis.Machine.Bytes
import Mathlib.Data.List.DropRight

/-! # Packets of the test client

The packets of `Packet.cs` that carry text, with `PacketDefine.cs` and `PostSendPacket` of `mainForm.cs`.
Fields have a fixed width and are filled up with zeros. Strings are sequences of Unicode scalar values.
Their encoding is UTF-8; of decoding only what .NET documents for valid bytes is used. `Trim` takes off
what `Char.IsWhiteSpace` holds for.
-/

namespace CppRedis.Model.Client

open Machine

def maxUserIdByteLength : ℕ := 33
def maxUserPwByteLength : ℕ := 33
def maxChatMsgSize : ℕ := 257

/-- `PACKET_ID`, the requests with text. -/
inductive PacketId where
  | loginReq
  | roomChatReq
deriving DecidableEq, Repr

def PacketId.value : PacketId → UInt16
  | .loginReq => 201
  | .roomChatReq => 221

/-- A valid .NET string. -/
abbrev NetString := List Char

/-- `Encoding.UTF8.GetBytes`. -/
def getBytes (text : NetString) : List UInt8 := text.flatMap String.utf8EncodeChar

theorem getBytes_append (first second : NetString) :
    getBytes (first ++ second) = getBytes first ++ getBytes second := List.flatMap_append

/-- `Encoding.UTF8.GetString`, which gives back every valid string. -/
structure Utf8Encoding where
  getString : List UInt8 → NetString
  getString_getBytes (text : NetString) : getString (getBytes text) = text

/-- Decoding that gives nothing for bytes that are no UTF-8. -/
def strictUtf8 : Utf8Encoding where
  getString bytes := (bytes.toByteArray.utf8Decode?.map Array.toList).getD []
  getString_getBytes text := by
    change (text.utf8Encode.utf8Decode?.map Array.toList).getD [] = text
    rw [List.utf8Decode?_utf8Encode]
    rfl

/-- `Char.IsWhiteSpace`. -/
def isWhiteSpace (char : Char) : Bool :=
  let code := char.toNat
  (0x09 ≤ code && code ≤ 0x0d) || code == 0x20 || code == 0x85 || code == 0xa0 || code == 0x1680 ||
    (0x2000 ≤ code && code ≤ 0x200a) || code == 0x2028 || code == 0x2029 || code == 0x202f ||
    code == 0x205f || code == 0x3000

/-- `String.Trim`. -/
def trim (text : NetString) : NetString := (text.dropWhile isWhiteSpace).rdropWhile isWhiteSpace

/-- `Array.CopyTo` at index 0; `none` is the exception for a source that is too long. -/
def copyTo (source array : List UInt8) : Option (List UInt8) :=
  if source.length ≤ array.length then some (source ++ array.drop source.length) else none

/-- `LoginReqPacket`. -/
structure LoginReqPacket where
  userId : List UInt8 := List.replicate maxUserIdByteLength 0
  userPw : List UInt8 := List.replicate maxUserPwByteLength 0

/-- `LoginReqPacket.SetValue`. -/
def LoginReqPacket.setValue (packet : LoginReqPacket) (userId userPw : NetString) : Option LoginReqPacket := do
  let userIdField ← copyTo (getBytes userId) packet.userId
  let userPwField ← copyTo (getBytes userPw) packet.userPw
  pure { packet with userId := userIdField, userPw := userPwField }

/-- `LoginReqPacket.ToBytes`. -/
def LoginReqPacket.toBytes (packet : LoginReqPacket) : List UInt8 := packet.userId ++ packet.userPw

/-- `RoomChatReqPacket`. -/
structure RoomChatReqPacket where
  msg : List UInt8 := List.replicate maxChatMsgSize 0

/-- `RoomChatReqPacket.SetValue`. -/
def RoomChatReqPacket.setValue (packet : RoomChatReqPacket) (message : NetString) : Option RoomChatReqPacket := do
  let msg ← copyTo (getBytes message) packet.msg
  pure { packet with msg := msg }

/-- `RoomChatReqPacket.ToBytes`. -/
def RoomChatReqPacket.toBytes (packet : RoomChatReqPacket) : List UInt8 := packet.msg

/-- `RoomChatNtfPacket`. -/
structure RoomChatNtfPacket where
  userId : NetString
  message : NetString

/-- `RoomChatNtfPacket.FromBytes` on a body that is long enough. -/
def RoomChatNtfPacket.fromBytes (encoding : Utf8Encoding) (bodyData : List UInt8) : RoomChatNtfPacket where
  userId := trim (encoding.getString (bodyData.take maxUserIdByteLength))
  message := trim (encoding.getString ((bodyData.drop maxUserIdByteLength).take maxChatMsgSize))

/-- The bytes that `PostSendPacket` queues. The body's size is cut to 16 bits. -/
def packetBytes (packetId : PacketId) (bodyData : List UInt8) : List UInt8 :=
  let bodyDataSize : ℤ := Int.bmod bodyData.length 65536
  let packetSize : ℤ := bodyDataSize + 5
  uint16Bytes (UInt16.ofNat (packetSize % 65536).toNat) ++ uint16Bytes packetId.value ++ [0] ++ bodyData

/-- `PostSendPacket` with a body: nothing is queued without a connection. -/
def postSendPacket (connected : Bool) (sendPacketQueue : List (List UInt8)) (packetId : PacketId)
    (bodyData : List UInt8) : List (List UInt8) :=
  if connected then sendPacketQueue ++ [packetBytes packetId bodyData] else sendPacketQueue

/-- A text in a field that is filled up with zeros. -/
def padded (text : List UInt8) (width : ℕ) : List UInt8 := text ++ List.replicate (width - text.length) 0

theorem padded_length {text : List UInt8} {width : ℕ} (fits : text.length ≤ width) :
    (padded text width).length = width := by
  rw [padded, List.length_append, List.length_replicate]
  omega

/-- Copying a text into a fresh field. -/
theorem copyTo_replicate (source : List UInt8) (width : ℕ) :
    copyTo source (List.replicate width 0) =
      if source.length ≤ width then some (padded source width) else none := by
  simp only [copyTo, padded]
  rw [List.length_replicate, List.drop_replicate]

/-- A login packet is made of texts that fit into its fields. -/
theorem LoginReqPacket.setValue_eq_some {userId userPw : NetString} {packet : LoginReqPacket}
    (made : LoginReqPacket.setValue {} userId userPw = some packet) :
    (getBytes userId).length ≤ maxUserIdByteLength ∧ (getBytes userPw).length ≤ maxUserPwByteLength ∧
      packet.toBytes = padded (getBytes userId) maxUserIdByteLength ++
        padded (getBytes userPw) maxUserPwByteLength := by
  simp only [LoginReqPacket.setValue] at made
  rw [copyTo_replicate, copyTo_replicate] at made
  split_ifs at made with idFits pwFits
  · obtain rfl := Option.some.inj made
    exact ⟨idFits, pwFits, rfl⟩
  · cases made
  · cases made
  · cases made

/-- A chat packet is made of a text that fits into its field. -/
theorem RoomChatReqPacket.setValue_eq_some {message : NetString} {packet : RoomChatReqPacket}
    (made : RoomChatReqPacket.setValue {} message = some packet) :
    (getBytes message).length ≤ maxChatMsgSize ∧ packet.toBytes = padded (getBytes message) maxChatMsgSize := by
  simp only [RoomChatReqPacket.setValue] at made
  rw [copyTo_replicate] at made
  split_ifs at made with fits
  · obtain rfl := Option.some.inj made
    exact ⟨fits, rfl⟩
  · cases made

/-- The header of a body of ordinary size. -/
theorem packetBytes_eq (packetId : PacketId) {bodyData : List UInt8} (small : bodyData.length + 5 < 32768) :
    packetBytes packetId bodyData =
      uint16Bytes (UInt16.ofNat (bodyData.length + 5)) ++ (uint16Bytes packetId.value ++ (0 :: bodyData)) := by
  have size : ((Int.bmod (bodyData.length : ℤ) 65536 + 5) % 65536).toNat = bodyData.length + 5 := by
    rw [Int.bmod_eq_of_le (by omega) (by omega)]
    omega
  simp only [packetBytes]
  rw [size]
  simp only [List.append_assoc, List.singleton_append]

end CppRedis.Model.Client
