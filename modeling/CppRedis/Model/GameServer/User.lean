import CppRedis.Model.GameServer.Packet

/-! # One client slot and its packet buffer

`User.h`. Positions and sizes are 32-bit unsigned, so sums and differences are taken modulo `2 ^ 32`.
Chunks from the network are appended at the write position; frames are handed out from the read
position as pointers into the buffer. Nothing in `setPacketData` refuses a chunk: whether its copy
stays inside the allocation is decided by the callers alone.
-/

namespace CppRedis.Model.GameServer

open Machine

/-- `User::PACKET_DATA_BUFFER_SIZE`. -/
def packetDataBufferSize : ℕ := 8096

/-- `User::DOMAIN_STATE`. -/
inductive DomainState where
  | none
  | login
  | room
deriving DecidableEq, Repr

/-- `a + b` on `UINT32`. -/
def addUInt32 (a b : ℕ) : ℕ := (a + b) % 2 ^ 32

/-- `a - b` on `UINT32`: it wraps when the difference is negative. -/
def subUInt32 (a b : ℕ) : ℕ := if b ≤ a then a - b else a + 2 ^ 32 - b

theorem addUInt32_of_lt {a b : ℕ} (small : a + b < 2 ^ 32) : addUInt32 a b = a + b :=
  Nat.mod_eq_of_lt small

theorem subUInt32_of_le {a b : ℕ} (ordered : b ≤ a) : subUInt32 a b = a - b := if_pos ordered

/-- `User`. `mPakcetDataBuffer` reaches all memory from the first byte of the allocation on. -/
structure User where
  mIndex : ℤ := -1
  mRoomIndex : ℤ := -1
  mUserID : CppString := []
  mIsConfirm : Bool := false
  mCurDomainState : DomainState := .none
  mPakcetDataBufferWPos : ℕ := 0
  mPakcetDataBufferRPos : ℕ := 0
  mPakcetDataBuffer : Bytes := fun _ => 0

namespace User

/-- `User::Init`. The new allocation holds whatever was there. -/
def init (index : ℤ) (allocated : Bytes) : User :=
  { mIndex := index, mPakcetDataBuffer := allocated }

/-- `User::Clear`. -/
def clear (user : User) : User :=
  { user with
    mRoomIndex := -1
    mUserID := []
    mIsConfirm := false
    mCurDomainState := .none
    mPakcetDataBufferWPos := 0
    mPakcetDataBufferRPos := 0 }

/-- `User::SetLogin`. -/
def setLogin (user : User) (userId : CppString) : User :=
  { user with mCurDomainState := .login, mUserID := userId }

/-- `User::EnterRoom`. -/
def enterRoom (user : User) (roomIndex : ℤ) : User :=
  { user with mRoomIndex := roomIndex, mCurDomainState := .room }

/-- `User::SetDomainState`. -/
def setDomainState (user : User) (value : DomainState) : User :=
  { user with mCurDomainState := value }

/-- The compaction branch of `User::SetPacketData`. -/
def compact (user : User) : User :=
  let remainDataSize := subUInt32 user.mPakcetDataBufferWPos user.mPakcetDataBufferRPos
  if remainDataSize > 0 then
    { user with
      mPakcetDataBuffer := user.mPakcetDataBuffer.write 0
        (user.mPakcetDataBuffer.read user.mPakcetDataBufferRPos remainDataSize)
      mPakcetDataBufferWPos := remainDataSize
      mPakcetDataBufferRPos := 0 }
  else
    { user with mPakcetDataBufferWPos := 0, mPakcetDataBufferRPos := 0 }

/-- The unconditional copy at the end of `User::SetPacketData`. -/
def append (user : User) (data : List UInt8) : User :=
  { user with
    mPakcetDataBuffer := user.mPakcetDataBuffer.write user.mPakcetDataBufferWPos data
    mPakcetDataBufferWPos := addUInt32 user.mPakcetDataBufferWPos data.length }

/-- `User::SetPacketData`. -/
def setPacketData (user : User) (data : List UInt8) : User :=
  if addUInt32 user.mPakcetDataBufferWPos data.length ≥ packetDataBufferSize then
    user.compact.append data
  else user.append data

/-- What `User::SetPacketData` copies in all, and where to: the unread bytes and the chunk to the front,
or the chunk alone to the write position. -/
def copied (user : User) (data : List UInt8) : ℕ × List UInt8 :=
  if addUInt32 user.mPakcetDataBufferWPos data.length ≥ packetDataBufferSize then
    (0, user.mPakcetDataBuffer.read user.mPakcetDataBufferRPos
      (subUInt32 user.mPakcetDataBufferWPos user.mPakcetDataBufferRPos) ++ data)
  else (user.mPakcetDataBufferWPos, data)

/-- `User::GetPacket`: the packet and the user it leaves behind. -/
def getPacket (user : User) : PacketInfo × User :=
  let remainByte := subUInt32 user.mPakcetDataBufferWPos user.mPakcetDataBufferRPos
  if remainByte < packetHeaderLength then ({}, user)
  else
    let pHeader := user.mPakcetDataBuffer.offset user.mPakcetDataBufferRPos
    if packetLength pHeader > remainByte then ({}, user)
    else
      ({ packetId := packetId pHeader
         dataSize := packetLength pHeader
         pDataPtr := some user.mPakcetDataBufferRPos },
        { user with
          mPakcetDataBufferRPos := addUInt32 user.mPakcetDataBufferRPos (packetLength pHeader) })

/-- The bytes received and not yet handed out. -/
def unread (user : User) : List UInt8 :=
  user.mPakcetDataBuffer.read user.mPakcetDataBufferRPos
    (user.mPakcetDataBufferWPos - user.mPakcetDataBufferRPos)

/-- The positions are in order and inside the allocation. -/
def InBounds (user : User) : Prop :=
  user.mPakcetDataBufferRPos ≤ user.mPakcetDataBufferWPos ∧
    user.mPakcetDataBufferWPos ≤ packetDataBufferSize

instance (user : User) : Decidable user.InBounds := inferInstanceAs (Decidable (_ ∧ _))

theorem unread_length (user : User) :
    user.unread.length = user.mPakcetDataBufferWPos - user.mPakcetDataBufferRPos :=
  Memory.read_length ..

theorem InBounds.small {user : User} (bounds : user.InBounds) {added : ℕ} (chunk : added < 2 ^ 16) :
    user.mPakcetDataBufferWPos + added < 2 ^ 32 := by
  have inside := bounds.2
  simp only [packetDataBufferSize] at inside
  omega

/-- Inside the allocation the 32-bit difference is the number of unread bytes. -/
theorem InBounds.remain {user : User} (bounds : user.InBounds) :
    subUInt32 user.mPakcetDataBufferWPos user.mPakcetDataBufferRPos = user.unread.length := by
  rw [unread_length]
  exact subUInt32_of_le bounds.1

/-- Compaction moves the unread bytes to the front and keeps them. -/
theorem compact_spec {user : User} (bounds : user.InBounds) :
    user.compact.mPakcetDataBufferRPos = 0 ∧
      user.compact.mPakcetDataBufferWPos = user.unread.length ∧ user.compact.unread = user.unread := by
  simp only [compact]
  simp only [bounds.remain]
  split
  · refine ⟨rfl, rfl, ?_⟩
    simp only [unread, Memory.read_length, Nat.sub_zero]
    have copied := Memory.read_write_self user.mPakcetDataBuffer 0 user.unread
    rwa [unread_length] at copied
  · next empty =>
    have none : user.unread.length = 0 := by omega
    exact ⟨rfl, none.symm, (List.eq_nil_of_length_eq_zero none).symm⟩

/-- All copies of `setPacketData` together are one. -/
theorem setPacketData_buffer (user : User) (data : List UInt8) :
    (user.setPacketData data).mPakcetDataBuffer =
      user.mPakcetDataBuffer.write (user.copied data).1 (user.copied data).2 := by
  simp only [setPacketData, copied]
  split_ifs
  · simp only [append, compact]
    split_ifs with moved
    · rw [← Memory.write_append, Memory.read_length, Nat.zero_add]
    · rw [Nat.eq_zero_of_not_pos moved]
      rfl
  · rfl

@[simp] theorem append_rPos (user : User) (data : List UInt8) :
    (user.append data).mPakcetDataBufferRPos = user.mPakcetDataBufferRPos := rfl

/-- Appending extends the unread bytes as long as the write position does not wrap. -/
theorem append_spec (user : User) (data : List UInt8)
    (ordered : user.mPakcetDataBufferRPos ≤ user.mPakcetDataBufferWPos)
    (small : user.mPakcetDataBufferWPos + data.length < 2 ^ 32) :
    (user.append data).mPakcetDataBufferWPos = user.mPakcetDataBufferWPos + data.length ∧
      (user.append data).unread = user.unread ++ data := by
  have advanced : (user.append data).mPakcetDataBufferWPos = user.mPakcetDataBufferWPos + data.length :=
    addUInt32_of_lt small
  have split : user.mPakcetDataBufferWPos + data.length - user.mPakcetDataBufferRPos =
      (user.mPakcetDataBufferWPos - user.mPakcetDataBufferRPos) + data.length := by omega
  have joined : user.mPakcetDataBufferRPos + (user.mPakcetDataBufferWPos - user.mPakcetDataBufferRPos) =
      user.mPakcetDataBufferWPos := by omega
  refine ⟨advanced, ?_⟩
  rw [unread, advanced, append_rPos, split, Memory.read_add, joined]
  simp only [append, Memory.read_write_self, Memory.read_write_before _ _ (Nat.le_of_eq joined), unread]

/-- The write position `setPacketData` leaves behind, in both branches. -/
theorem setPacketData_positions {user : User} {data : List UInt8} (bounds : user.InBounds)
    (chunk : data.length < 2 ^ 16) :
    (user.setPacketData data).mPakcetDataBufferWPos =
        (user.setPacketData data).mPakcetDataBufferRPos + (user.unread.length + data.length) ∧
      (user.setPacketData data).unread = user.unread ++ data ∧
      ((user.setPacketData data).mPakcetDataBufferRPos = 0 ∨
        (user.setPacketData data).mPakcetDataBufferWPos < packetDataBufferSize) := by
  have small := bounds.small chunk
  have length := user.unread_length
  have ordered := bounds.1
  simp only [setPacketData]
  rw [addUInt32_of_lt small]
  split
  · obtain ⟨front, moved, kept⟩ := compact_spec bounds
    obtain ⟨advanced, appended⟩ := append_spec user.compact data (by omega) (by omega)
    rw [append_rPos, advanced, appended, front, moved, kept]
    exact ⟨(Nat.zero_add _).symm, rfl, Or.inl rfl⟩
  · next room =>
    obtain ⟨advanced, appended⟩ := append_spec user data ordered small
    rw [append_rPos, advanced, appended]
    exact ⟨by omega, rfl, Or.inr (by omega)⟩

/-- The copy stays inside the allocation exactly when the backlog and the chunk fit together. -/
theorem setPacketData_inBounds_iff {user : User} {data : List UInt8} (bounds : user.InBounds)
    (chunk : data.length < 2 ^ 16) :
    (user.setPacketData data).InBounds ↔ user.unread.length + data.length ≤ packetDataBufferSize := by
  obtain ⟨advanced, -, front⟩ := setPacketData_positions bounds chunk
  simp only [InBounds]
  omega

theorem setPacketData_unread {user : User} {data : List UInt8} (bounds : user.InBounds)
    (chunk : data.length < 2 ^ 16) : (user.setPacketData data).unread = user.unread ++ data :=
  (setPacketData_positions bounds chunk).2.1

/-- The header the code casts to is the one at the front of the unread bytes. -/
theorem header_unread {user : User} {index : ℕ} (inside : index < user.unread.length) :
    ofList user.unread index = user.mPakcetDataBuffer.offset user.mPakcetDataBufferRPos index :=
  ofList_read _ (by rwa [unread_length] at inside)

theorem declared_unread {user : User} (long : packetHeaderLength ≤ user.unread.length) :
    packetFraming.declared user.unread =
      packetLength (user.mPakcetDataBuffer.offset user.mPakcetDataBufferRPos) := by
  simp only [packetHeaderLength] at long
  change packetLength (ofList user.unread) = _
  simp only [packetLength, uint16At]
  rw [header_unread (by omega), header_unread (by omega)]

/-- Without a complete frame at the front the buffer stays as it is. -/
theorem getPacket_none {user : User} (bounds : user.InBounds)
    (waiting : packetFraming.next? user.unread = none) : user.getPacket = ({}, user) := by
  simp only [getPacket]
  simp only [bounds.remain]
  split
  · rfl
  · next long =>
    rw [if_pos]
    rw [← declared_unread (by omega)]
    by_contra complete
    refine Option.some_ne_none _ (waiting ▸ (Framing.next?_eq_some_iff.mpr ⟨?_, ?_, rfl⟩).symm)
    · exact Nat.le_of_not_lt long
    · omega

/-- A complete frame at the front is handed out as a pointer to it and consumed. -/
theorem getPacket_some {user : User} (bounds : user.InBounds) {frame : List UInt8}
    (found : packetFraming.next? user.unread = some frame) :
    user.getPacket =
      ({ packetId := packetId (user.mPakcetDataBuffer.offset user.mPakcetDataBufferRPos)
         dataSize := frame.length
         pDataPtr := some user.mPakcetDataBufferRPos },
        { user with mPakcetDataBufferRPos := user.mPakcetDataBufferRPos + frame.length }) := by
  obtain ⟨long, complete, -⟩ := Framing.next?_eq_some_iff.mp found
  have header : packetHeaderLength ≤ user.unread.length := long
  have ordered := bounds.1
  have length := user.unread_length
  have small := bounds.small (Nat.two_pow_pos 16)
  rw [declared_unread header] at complete
  simp only [getPacket]
  simp only [bounds.remain]
  rw [if_neg (by omega), if_neg (by omega), (Framing.length_of_next? found).1, declared_unread header,
    addUInt32_of_lt (by omega)]

/-- The frame handed out is where the packet says it is. -/
theorem read_of_next? {user : User} {frame : List UInt8}
    (found : packetFraming.next? user.unread = some frame) :
    user.mPakcetDataBuffer.read user.mPakcetDataBufferRPos frame.length = frame := by
  have bound := (Framing.length_of_next? found).2
  rw [unread_length] at bound
  conv_rhs => rw [← Framing.take_of_next? found]
  exact (Memory.read_take _ _ _ bound).symm

/-- The id handed out with a frame is the one in its header. -/
theorem packetId_of_next? {user : User} {frame : List UInt8}
    (found : packetFraming.next? user.unread = some frame) (long : packetHeaderLength ≤ frame.length) :
    packetId (user.mPakcetDataBuffer.offset user.mPakcetDataBufferRPos) = packetId (ofList frame) := by
  simp only [packetHeaderLength] at long
  conv_rhs => rw [← read_of_next? found]
  simp only [packetId, uint16At]
  rw [ofList_read _ (by omega), ofList_read _ (by omega)]

/-- Consuming a frame leaves the rest of the backlog. -/
theorem consumed_spec {user : User} (bounds : user.InBounds) {count : ℕ}
    (available : count ≤ user.unread.length) :
    User.InBounds { user with mPakcetDataBufferRPos := user.mPakcetDataBufferRPos + count } ∧
      User.unread { user with mPakcetDataBufferRPos := user.mPakcetDataBufferRPos + count } =
        user.unread.drop count := by
  rw [unread_length] at available
  refine ⟨⟨by have := bounds.1; dsimp only; omega, bounds.2⟩, ?_⟩
  simp only [unread, Memory.read_drop _ _ _ available, Nat.sub_sub]

/-- `getPacket` keeps the positions in order whatever the header declares. -/
theorem getPacket_inBounds {user : User} (bounds : user.InBounds) : user.getPacket.2.InBounds := by
  cases found : packetFraming.next? user.unread with
  | none => rwa [getPacket_none bounds found]
  | some frame =>
    rw [getPacket_some bounds found]
    exact (consumed_spec bounds (Framing.length_of_next? found).2).1

@[simp] theorem init_unread (index : ℤ) (allocated : Bytes) : (init index allocated).unread = [] := rfl

theorem init_inBounds (index : ℤ) (allocated : Bytes) : (init index allocated).InBounds :=
  ⟨Nat.le_refl 0, Nat.zero_le _⟩

@[simp] theorem clear_unread (user : User) : user.clear.unread = [] := rfl

theorem clear_inBounds (user : User) : user.clear.InBounds :=
  ⟨Nat.le_refl 0, Nat.zero_le _⟩

/-- Two users that differ in nothing that `SetPacketData` and `GetPacket` look at. -/
structure SameBuffer (user other : User) : Prop where
  wPos : user.mPakcetDataBufferWPos = other.mPakcetDataBufferWPos
  rPos : user.mPakcetDataBufferRPos = other.mPakcetDataBufferRPos
  buffer : user.mPakcetDataBuffer = other.mPakcetDataBuffer

theorem SameBuffer.refl (user : User) : user.SameBuffer user := ⟨rfl, rfl, rfl⟩

theorem SameBuffer.of_eq {user other : User} (same : user = other) : user.SameBuffer other :=
  same ▸ .refl user

theorem SameBuffer.unread {user other : User} (same : user.SameBuffer other) :
    user.unread = other.unread := by
  simp only [User.unread]
  rw [same.wPos, same.rPos, same.buffer]

theorem SameBuffer.inBounds {user other : User} (same : user.SameBuffer other) (bounds : other.InBounds) :
    user.InBounds := by
  simp only [InBounds]
  rwa [same.wPos, same.rPos]

end User

end CppRedis.Model.GameServer
