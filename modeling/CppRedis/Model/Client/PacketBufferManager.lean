import CppRedis.Machine.Bytes

/-! # The test client's receive buffer

`PacketBufferManager.cs`. Received bytes are appended at the write position; a write that brings the write
position close to the end moves the unread bytes to the front afterwards. A write that does not fit is
refused as it is: the buffer is not relocated for it. The positions stay in order and inside the buffer
in every branch, so they are kept so by the type and the differences of the source are differences of
natural numbers.
-/

namespace CppRedis.Model.Client

open Machine

/-- `BitConverter.ToInt16`. -/
@[irreducible] def toInt16 (bytes : Bytes) (position : ℕ) : ℤ := Int.bmod (uint16At bytes position) 65536

theorem toInt16_congr {bytes other : Bytes} {position place : ℕ} (low : bytes position = other place)
    (high : bytes (position + 1) = other (place + 1)) : toInt16 bytes position = toInt16 other place := by
  unfold toInt16 uint16At
  rw [low, high]

/-- `a + b` on `int`. -/
@[irreducible] def addInt32 (a b : ℕ) : ℤ := Int.bmod (a + b) (2 ^ 32)

/-- `ArraySegment<byte>`, of the array it was made from. -/
structure ArraySegment where
  offset : ℕ := 0
  count : ℕ := 0

/-- `PacketBufferManager`. -/
structure PacketBufferManager where
  bufferSize : ℕ := 0
  readPos : ℕ := 0
  writePos : ℕ := 0
  headerSize : ℕ := 0
  maxPacketSize : ℕ := 0
  packetData : Bytes := fun _ => 0
  packetDataTemp : Bytes := fun _ => 0
  ordered : readPos ≤ writePos := by exact Nat.le_refl 0
  inside : writePos ≤ bufferSize := by exact Nat.zero_le _

namespace PacketBufferManager

/-- `PacketBufferManager.Init` on a new object. -/
def init (size headerSize maxPacketSize : ℕ) : Bool × PacketBufferManager :=
  if size < maxPacketSize * 2 ∨ size < 1 ∨ headerSize < 1 ∨ maxPacketSize < 1 then (false, {})
  else (true, { bufferSize := size, headerSize := headerSize, maxPacketSize := maxPacketSize })

/-- `PacketBufferManager.Init` on a new object for all values of its arguments: the doubled packet size may
wrap. -/
def initInt32 (size headerSize maxPacketSize : Int32) : Bool × PacketBufferManager :=
  if size < maxPacketSize * 2 ∨ size < 1 ∨ headerSize < 1 ∨ maxPacketSize < 1 then (false, {})
  else
    (true,
      { bufferSize := size.toInt.toNat
        headerSize := headerSize.toInt.toNat
        maxPacketSize := maxPacketSize.toInt.toNat })

/-- `PacketBufferManager.NextFree`. -/
def nextFree (manager : PacketBufferManager) : Bool :=
  if manager.bufferSize - manager.writePos < manager.maxPacketSize then false else true

/-- `PacketBufferManager.BufferRelocate`. -/
def bufferRelocate (manager : PacketBufferManager) : PacketBufferManager :=
  let enableReadSize := manager.writePos - manager.readPos
  let packetDataTemp :=
    manager.packetDataTemp.write 0 (manager.packetData.read manager.readPos enableReadSize)
  { manager with
    packetDataTemp := packetDataTemp
    packetData := manager.packetData.write 0 (packetDataTemp.read 0 enableReadSize)
    readPos := 0
    writePos := enableReadSize
    ordered := Nat.zero_le _
    inside := (Nat.sub_le ..).trans manager.inside }

/-- The copy of `PacketBufferManager.Write`. -/
def append (manager : PacketBufferManager) (data : List UInt8)
    (fits : data.length ≤ manager.bufferSize - manager.writePos) : PacketBufferManager :=
  { manager with
    packetData := manager.packetData.write manager.writePos data
    writePos := manager.writePos + data.length
    ordered := manager.ordered.trans (Nat.le_add_right ..)
    inside := by have inside := manager.inside; omega }

/-- `PacketBufferManager.Write`. -/
def write (manager : PacketBufferManager) (data : Option (List UInt8)) (pos size : ℕ) :
    Bool × PacketBufferManager :=
  match data with
  | none => (false, manager)
  | some data =>
      if data.length < pos + size then (false, manager)
      else if full : manager.bufferSize - manager.writePos < size then (false, manager)
      else
        let manager := manager.append ((data.drop pos).take size) (by rw [List.length_take]; omega)
        (true, if manager.nextFree = false then manager.bufferRelocate else manager)

/-- `PacketBufferManager.Write` for all arguments that are not negative: the sum of `pos` and `size` may wrap,
and passes the test then. `none` is the exception of `Buffer.BlockCopy` for data that is too short. -/
def writeInt32 (manager : PacketBufferManager) (data : Option (List UInt8)) (pos size : ℕ) :
    Option (Bool × PacketBufferManager) :=
  match data with
  | none => some (false, manager)
  | some bytes =>
      if (bytes.length : ℤ) < addInt32 pos size then some (false, manager)
      else if manager.bufferSize - manager.writePos < size then some (false, manager)
      else if bytes.length < pos + size then none
      else some (manager.write (some bytes) pos size)

/-- The step of `PacketBufferManager.Read` over a packet. -/
def advance (manager : PacketBufferManager) (count : ℕ) (available : count ≤ manager.writePos - manager.readPos) :
    PacketBufferManager :=
  { manager with
    readPos := manager.readPos + count
    ordered := by have ordered := manager.ordered; omega }

/-- `PacketBufferManager.Read`. An `ArraySegment` of negative size is an exception. -/
def read (manager : PacketBufferManager) : Option (ArraySegment × PacketBufferManager) :=
  let enableReadSize := manager.writePos - manager.readPos
  if enableReadSize < manager.headerSize then some ({}, manager)
  else
    let packetDataSize := toInt16 manager.packetData manager.readPos
    if short : (enableReadSize : ℤ) < packetDataSize then some ({}, manager)
    else if packetDataSize < 0 then none
    else
      some ({ offset := manager.readPos, count := packetDataSize.toNat },
        manager.advance packetDataSize.toNat (by dsimp only [enableReadSize] at short; omega))

/-- The bytes received and not yet handed out. -/
def unread (manager : PacketBufferManager) : List UInt8 :=
  manager.packetData.read manager.readPos (manager.writePos - manager.readPos)

variable (manager : PacketBufferManager)

theorem unread_length : manager.unread.length = manager.writePos - manager.readPos := Memory.read_length ..

theorem append_unread (data : List UInt8) (fits : data.length ≤ manager.bufferSize - manager.writePos) :
    (manager.append data fits).unread = manager.unread ++ data := by
  have ordered := manager.ordered
  have split : manager.writePos + data.length - manager.readPos =
      (manager.writePos - manager.readPos) + data.length := by omega
  have joined : manager.readPos + (manager.writePos - manager.readPos) = manager.writePos := by omega
  change (manager.packetData.write manager.writePos data).read manager.readPos
    (manager.writePos + data.length - manager.readPos) = _
  rw [split, Memory.read_add, joined, Memory.read_write_self,
    Memory.read_write_before _ _ (Nat.le_of_eq joined)]
  rfl

/-- Relocation keeps the unread bytes and puts them to the front. -/
theorem bufferRelocate_spec :
    manager.bufferRelocate.unread = manager.unread ∧ manager.bufferRelocate.readPos = 0 ∧
      manager.bufferRelocate.writePos = manager.unread.length := by
  have temp : (manager.packetDataTemp.write 0 manager.unread).read 0 (manager.writePos - manager.readPos) =
      manager.unread := by
    rw [← unread_length, Memory.read_write_self]
  refine ⟨?_, rfl, (unread_length manager).symm⟩
  change (manager.packetData.write 0 ((manager.packetDataTemp.write 0 manager.unread).read 0
    (manager.writePos - manager.readPos))).read 0 (manager.writePos - manager.readPos - 0) = _
  rw [temp, Nat.sub_zero, ← unread_length, Memory.read_write_self]

/-- A write that does not fit changes nothing. -/
theorem write_full {data : List UInt8} {size : ℕ} (full : manager.bufferSize - manager.writePos < size) :
    manager.write (some data) 0 size = (false, manager) := by
  simp only [write]
  split_ifs <;> rfl

/-- What does not change with the positions and the contents. -/
def SameLayout (manager other : PacketBufferManager) : Prop :=
  manager.bufferSize = other.bufferSize ∧ manager.headerSize = other.headerSize ∧
    manager.maxPacketSize = other.maxPacketSize

/-- The end of a write: the buffer is relocated when less than a packet's room is left. -/
theorem relocate_spec :
    let next := if manager.nextFree = false then manager.bufferRelocate else manager
    next.unread = manager.unread ∧ next.SameLayout manager ∧
      next.writePos =
        if manager.bufferSize - manager.writePos < manager.maxPacketSize then manager.unread.length
        else manager.writePos := by
  obtain ⟨kept, -, moved⟩ := manager.bufferRelocate_spec
  by_cases close : manager.bufferSize - manager.writePos < manager.maxPacketSize
  · have last : manager.nextFree = false := if_pos close
    rw [if_pos last, if_pos close]
    exact ⟨kept, ⟨rfl, rfl, rfl⟩, moved⟩
  · have free : ¬ manager.nextFree = false := by
      rw [show manager.nextFree = true from if_neg close]
      decide
    rw [if_neg free, if_neg close]
    exact ⟨rfl, ⟨rfl, rfl, rfl⟩, rfl⟩

/-- A write that fits appends to the unread bytes. When it leaves less than a packet's room behind the
write position, the write position becomes the number of unread bytes. -/
theorem write_at_spec {data : List UInt8} {pos size : ℕ} (long : pos + size ≤ data.length)
    (fits : size ≤ manager.bufferSize - manager.writePos) :
    (manager.write (some data) pos size).1 = true ∧
      (manager.write (some data) pos size).2.unread = manager.unread ++ (data.drop pos).take size ∧
      (manager.write (some data) pos size).2.SameLayout manager ∧
      (manager.write (some data) pos size).2.writePos =
        if manager.bufferSize - (manager.writePos + size) < manager.maxPacketSize then
          manager.unread.length + size
        else manager.writePos + size := by
  set chunk := (data.drop pos).take size with cut
  have taken : chunk.length = size := by
    rw [cut, List.length_take, List.length_drop, Nat.min_eq_left (by omega)]
  have room : chunk.length ≤ manager.bufferSize - manager.writePos := by rwa [taken]
  have written : manager.write (some data) pos size =
      (true, if (manager.append chunk room).nextFree = false then (manager.append chunk room).bufferRelocate
        else manager.append chunk room) := by
    simp only [write]
    rw [if_neg (by omega), dif_neg (by omega)]
  obtain ⟨kept, layout, moved⟩ := (manager.append chunk room).relocate_spec
  rw [manager.append_unread chunk room] at kept moved
  rw [written]
  refine ⟨rfl, kept, layout, moved.trans ?_⟩
  rw [List.length_append, taken]
  simp only [append, taken]

/-- The same from the start of the data. -/
theorem write_spec {data : List UInt8} {size : ℕ} (long : size ≤ data.length)
    (fits : size ≤ manager.bufferSize - manager.writePos) :
    (manager.write (some data) 0 size).1 = true ∧
      (manager.write (some data) 0 size).2.unread = manager.unread ++ data.take size ∧
      (manager.write (some data) 0 size).2.SameLayout manager ∧
      (manager.write (some data) 0 size).2.writePos =
        if manager.bufferSize - (manager.writePos + size) < manager.maxPacketSize then
          manager.unread.length + size
        else manager.writePos + size :=
  manager.write_at_spec (by omega : 0 + size ≤ data.length) fits

theorem advance_spec {count : ℕ} (available : count ≤ manager.writePos - manager.readPos) :
    (manager.advance count available).readPos = manager.readPos + count ∧
      (manager.advance count available).writePos = manager.writePos ∧
      (manager.advance count available).packetData = manager.packetData ∧
      (manager.advance count available).SameLayout manager ∧
      (manager.advance count available).unread = manager.unread.drop count := by
  refine ⟨rfl, rfl, rfl, ⟨rfl, rfl, rfl⟩, ?_⟩
  simp only [unread]
  rw [Memory.read_drop _ _ _ available, Nat.sub_sub]
  rfl

/-- Without a header, or without all of its packet, nothing is read. -/
theorem read_of_short (short : manager.writePos - manager.readPos < manager.headerSize ∨
      ((manager.writePos - manager.readPos : ℕ) : ℤ) < toInt16 manager.packetData manager.readPos) :
    manager.read = some ({}, manager) := by
  simp only [read]
  split_ifs with header size negative
  · rfl
  · rfl
  · exact absurd short (not_or_intro header size)
  · exact absurd short (not_or_intro header size)

/-- A packet that is there is read. -/
theorem read_of_available {count : ℕ} (long : manager.headerSize ≤ manager.writePos - manager.readPos)
    (declared : toInt16 manager.packetData manager.readPos = count)
    (available : count ≤ manager.writePos - manager.readPos) :
    manager.read = some ({ offset := manager.readPos, count := count }, manager.advance count available) := by
  have size : (toInt16 manager.packetData manager.readPos).toNat = count := by
    rw [declared, Int.toNat_natCast]
  simp only [read]
  split_ifs with header short negative
  · omega
  · omega
  · omega
  · simp only [size]

/-- Reading moves the read position over the segment it returns. -/
theorem read_eq_some {data : ArraySegment} {next : PacketBufferManager}
    (returned : manager.read = some (data, next)) :
    ∃ available, next = manager.advance data.count available := by
  have nothing : manager = manager.advance 0 (Nat.zero_le _) := rfl
  simp only [read] at returned
  split_ifs at returned
  · have ⟨segment, after⟩ := Prod.mk.inj (Option.some.inj returned)
    rw [← segment, ← after]
    exact ⟨Nat.zero_le _, nothing⟩
  · have ⟨segment, after⟩ := Prod.mk.inj (Option.some.inj returned)
    rw [← segment, ← after]
    exact ⟨Nat.zero_le _, nothing⟩
  · have ⟨segment, after⟩ := Prod.mk.inj (Option.some.inj returned)
    rw [← segment, ← after]
    exact ⟨_, rfl⟩

/-- A segment that is not empty starts at the read position. -/
theorem offset_of_read {data : ArraySegment} {next : PacketBufferManager}
    (returned : manager.read = some (data, next)) : data.count = 0 ∨ data.offset = manager.readPos := by
  simp only [read] at returned
  split_ifs at returned
  · exact Or.inl (congrArg ArraySegment.count (Prod.mk.inj (Option.some.inj returned)).1).symm
  · exact Or.inl (congrArg ArraySegment.count (Prod.mk.inj (Option.some.inj returned)).1).symm
  · exact Or.inr (congrArg ArraySegment.offset (Prod.mk.inj (Option.some.inj returned)).1).symm

/-- The bytes of the segment are the front of the unread bytes. -/
theorem segment_of_read {data : ArraySegment} {next : PacketBufferManager}
    (returned : manager.read = some (data, next)) :
    next.packetData.read data.offset data.count = manager.unread.take data.count := by
  obtain ⟨available, rfl⟩ := manager.read_eq_some returned
  change manager.packetData.read data.offset data.count = _
  rcases manager.offset_of_read returned with empty | start
  · rw [empty, List.take_zero]
    rfl
  · rw [start, unread, Memory.read_take _ _ _ available]

end PacketBufferManager

end CppRedis.Model.Client
