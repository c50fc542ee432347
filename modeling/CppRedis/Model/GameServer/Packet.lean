import CppRedis.Machine.Bytes
import CppRedis.Machine.Framing

/-! # Wire formats, identifiers and error codes of the game server

`Packet.h`, `ErrorCode.h` and `RedisTaskDefine.h`. The structs are packed and the machine is little
endian, so a cast from a `char*` reads fields at fixed offsets behind the pointer, whether or not the
frame is long enough to hold them.
-/

namespace CppRedis.Model.GameServer

open Machine

/-- `ErrorCode.h`. -/
inductive ErrorCode where
  | none
  | userMgrInvalidUserIndex
  | userMgrInvalidUserUniqueId
  | loginUserAlready
  | loginUserUsedAllObj
  | loginUserInvalidPw
  | newRoomUsedAllObj
  | newRoomFailEnter
  | enterRoomNotFindeUser
  | enterRoomInvalidUserStatus
  | enterRoomNotUsedStatus
  | enterRoomFullUser
  | roomInvalidIndex
  | roomNotUsed
  | roomTooManyPacket
  | leaveRoomInvalidRoomIndex
  | chatRoomInvalidRoomNumber
deriving DecidableEq, Repr

/-- The 16-bit value that goes on the wire. -/
def ErrorCode.code : ErrorCode → UInt16
  | .none => 0
  | .userMgrInvalidUserIndex => 11
  | .userMgrInvalidUserUniqueId => 12
  | .loginUserAlready => 31
  | .loginUserUsedAllObj => 32
  | .loginUserInvalidPw => 33
  | .newRoomUsedAllObj => 41
  | .newRoomFailEnter => 42
  | .enterRoomNotFindeUser => 51
  | .enterRoomInvalidUserStatus => 52
  | .enterRoomNotUsedStatus => 53
  | .enterRoomFullUser => 54
  | .roomInvalidIndex => 61
  | .roomNotUsed => 62
  | .roomTooManyPacket => 63
  | .leaveRoomInvalidRoomIndex => 71
  | .chatRoomInvalidRoomNumber => 81

/-- `PACKET_ID`, with the markers that end its ranges. -/
inductive PacketId where
  | sysUserConnect
  | sysUserDisconnect
  | sysEnd
  | dbEnd
  | loginRequest
  | loginResponse
  | roomEnterRequest
  | roomEnterResponse
  | roomLeaveRequest
  | roomLeaveResponse
  | roomChatRequest
  | roomChatResponse
  | roomChatNotify
deriving DecidableEq, Repr

def PacketId.value : PacketId → ℕ
  | .sysUserConnect => 11
  | .sysUserDisconnect => 12
  | .sysEnd => 30
  | .dbEnd => 199
  | .loginRequest => 201
  | .loginResponse => 202
  | .roomEnterRequest => 206
  | .roomEnterResponse => 207
  | .roomLeaveRequest => 215
  | .roomLeaveResponse => 216
  | .roomChatRequest => 221
  | .roomChatResponse => 222
  | .roomChatNotify => 223

/-- `RedisTaskID`. -/
inductive RedisTaskId where
  | invalid
  | requestLogin
  | responseLogin
deriving DecidableEq, Repr

def RedisTaskId.value : RedisTaskId → ℕ
  | .invalid => 0
  | .requestLogin => 1001
  | .responseLogin => 1002

/-- `sizeof(PACKET_HEADER)`: two 16-bit fields and one byte, packed. -/
def packetHeaderLength : ℕ := 5

def maxUserIdLen : ℕ := 32
def maxUserPwLen : ℕ := 32
def maxChatMsgSize : ℕ := 256

/-- `sizeof(LOGIN_REQUEST_PACKET)`. -/
def loginRequestPacketSize : ℕ := packetHeaderLength + (maxUserIdLen + 1) + (maxUserPwLen + 1)

/-- `sizeof(RedisLoginReq)`. -/
def redisLoginReqSize : ℕ := (maxUserIdLen + 1) + (maxUserPwLen + 1)

/-- `sizeof(RedisLoginRes)`. -/
def redisLoginResSize : ℕ := 2

/-- `PACKET_HEADER::PacketLength` of the frame at a pointer. -/
def packetLength (pHeader : Bytes) : ℕ := uint16At pHeader 0

/-- `PACKET_HEADER::PacketId` of the frame at a pointer. -/
def packetId (pHeader : Bytes) : ℕ := uint16At pHeader 2

/-- `PacketInfo`. The data pointer is null or a position in the client's packet buffer. -/
structure PacketInfo where
  clientIndex : ℕ := 0
  packetId : ℕ := 0
  dataSize : ℕ := 0
  pDataPtr : Option ℕ := none
deriving DecidableEq, Repr, Inhabited

/-- The packets the server sends. `Type` of the header is never written by the server. -/
inductive ServerPacket where
  | loginResponse (result : UInt16)
  | roomEnterResponse (result : UInt16)
  | roomLeaveResponse (result : UInt16)
  | roomChatResponse (result : UInt16)
  | roomChatNotify (userId msg : List UInt8)
deriving DecidableEq, Repr

/-- The `PacketId` each handler puts into the header. -/
def ServerPacket.id : ServerPacket → PacketId
  | .loginResponse _ => .loginResponse
  | .roomEnterResponse _ => .roomEnterResponse
  | .roomLeaveResponse _ => .roomLeaveResponse
  | .roomChatResponse _ => .roomChatResponse
  | .roomChatNotify _ _ => .roomChatNotify

/-- The `PacketLength` each handler puts into the header: `sizeof` the packet. -/
def ServerPacket.length : ServerPacket → ℕ
  | .roomChatNotify _ _ => packetHeaderLength + (maxUserIdLen + 1) + (maxChatMsgSize + 1)
  | _ => packetHeaderLength + 2

/-- `RedisTask`. `pData` reaches the whole memory behind the task's own block. -/
structure RedisTask where
  userIndex : ℕ := 0
  taskId : RedisTaskId := .invalid
  dataSize : ℕ := 0
  pData : Bytes := fun _ => 0

/-- The framing the server's header defines on a byte stream. -/
def packetFraming : Framing UInt8 where
  header := packetHeaderLength
  declared bytes := packetLength (ofList bytes)
  declared_take bytes _ := by
    simp only [packetLength, uint16At, ofList, packetHeaderLength,
      List.getElem?_take_of_lt (show 0 < 5 by decide), List.getElem?_take_of_lt (show 0 + 1 < 5 by decide)]

end CppRedis.Model.GameServer
