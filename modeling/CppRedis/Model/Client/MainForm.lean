import CppRedis.Model.Client.PacketBufferManager

/-! # The test client's receive thread

`NetworkReadProcess` of `mainForm.cs` with `ClientSimpleTcp.Receive`. Each receive is written to the packet
buffer once, whatever `Write` returns, and then packets are read until the buffer returns an empty
segment. A segment too short for a header makes the allocation of its body fail, which ends the thread.
-/

namespace CppRedis.Model.Client

open Machine

/-- `PacketDef.PACKET_HEADER_SIZE`. -/
def packetHeaderSize : ℕ := 5

/-- The size of the array that `ClientSimpleTcp.Receive` allocates. -/
def readBufferSize : ℕ := 2048

/-- `PacketData`. -/
structure PacketData where
  dataSize : ℤ
  packetId : ℤ
  type : ℤ
  bodyData : List UInt8
deriving DecidableEq, Repr

/-- A cast to `SByte`. -/
def toSByte (byte : UInt8) : ℤ := Int.bmod byte.toNat 256

/-- The packet that `NetworkReadProcess` makes of a segment. `none` is the exception for a negative array
size. -/
def packetOf (array : Bytes) (data : ArraySegment) : Option PacketData :=
  if data.count < packetHeaderSize then none
  else
    some
      { dataSize := data.count - packetHeaderSize
        packetId := toInt16 array (data.offset + 2)
        type := toSByte (array (data.offset + 4))
        bodyData := array.read (data.offset + packetHeaderSize) (data.count - packetHeaderSize) }

/-- The result of `ClientSimpleTcp.Receive`: the received bytes at the front of a new array. -/
structure Receive where
  bytes : List UInt8
  nonempty : 1 ≤ bytes.length
  bounded : bytes.length ≤ readBufferSize

def Receive.readBuffer (receive : Receive) : List UInt8 :=
  receive.bytes ++ List.replicate (readBufferSize - receive.bytes.length) 0

/-- What the receive thread works on. `recvPacketQueue` keeps all packets in the order in which they were
queued; `stopped` says that an exception has ended the thread. -/
structure MainForm where
  packetBuffer : PacketBufferManager
  recvPacketQueue : List PacketData := []
  stopped : Bool := false

namespace MainForm

/-- `mainForm_Load`. -/
def load : MainForm where
  packetBuffer := (PacketBufferManager.init (8096 * 10) packetHeaderSize 1024).2

/-- The inner loop of `NetworkReadProcess`. -/
def readPackets (form : MainForm) : MainForm :=
  match _found : form.packetBuffer.read with
  | none => { form with stopped := true }
  | some (data, packetBuffer) =>
      if _empty : data.count < 1 then { form with packetBuffer := packetBuffer }
      else
        match packetOf packetBuffer.packetData data with
        | none => { form with packetBuffer := packetBuffer, stopped := true }
        | some packet =>
            readPackets
              { form with
                packetBuffer := packetBuffer
                recvPacketQueue := form.recvPacketQueue ++ [packet] }
termination_by form.packetBuffer.writePos - form.packetBuffer.readPos
decreasing_by
  obtain ⟨available, rfl⟩ := PacketBufferManager.read_eq_some _ _found
  change form.packetBuffer.writePos - (form.packetBuffer.readPos + data.count) < _
  omega

/-- The loop ends with an empty segment. -/
theorem readPackets_of_empty {form : MainForm} {packetBuffer : PacketBufferManager}
    (nothing : form.packetBuffer.read = some ({}, packetBuffer)) :
    form.readPackets = { form with packetBuffer := packetBuffer } := by
  rw [readPackets]
  split
  · next threw =>
    rw [nothing] at threw
    cases threw
  · next data next found =>
    obtain ⟨rfl, rfl⟩ := Prod.mk.inj (Option.some.inj (nothing.symm.trans found))
    rfl

/-- It goes on with a packet. -/
theorem readPackets_of_packet {form : MainForm} {packetBuffer : PacketBufferManager} {data : ArraySegment}
    (found : form.packetBuffer.read = some (data, packetBuffer)) (nonempty : 1 ≤ data.count)
    {packet : PacketData} (made : packetOf packetBuffer.packetData data = some packet) :
    form.readPackets =
      readPackets
        { form with
          packetBuffer := packetBuffer
          recvPacketQueue := form.recvPacketQueue ++ [packet] } := by
  rw [readPackets]
  split
  · next threw =>
    rw [found] at threw
    cases threw
  · next segment next also =>
    obtain ⟨rfl, rfl⟩ := Prod.mk.inj (Option.some.inj (found.symm.trans also))
    rw [dif_neg (by omega), made]

/-- One receive of `NetworkReadProcess`. -/
def networkReadProcess (form : MainForm) (receive : Receive) : MainForm :=
  if form.stopped then form
  else
    readPackets
      { form with
        packetBuffer := (form.packetBuffer.write (some receive.readBuffer) 0 receive.bytes.length).2 }

/-- What `Write` returns for a receive. -/
def writes (form : MainForm) (receive : Receive) : Bool :=
  (form.packetBuffer.write (some receive.readBuffer) 0 receive.bytes.length).1

end MainForm

end CppRedis.Model.Client
