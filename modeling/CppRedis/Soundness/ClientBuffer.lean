import CppRedis.Machine.Run
import CppRedis.Model.Client.MainForm
import CppRedis.Model.GameServer.Packet

/-! # What the test client makes of the server's packets

The write position of the client's buffer moves with every receive, and goes back to the unread bytes only
after a write that leaves less than one packet's room. A receive may be as long as two packets, so one can
come while there is room for one packet and less than two: `Write` refuses it, nobody looks at its
result, and the bytes are lost. A cursor follows the positions of the buffer from the lengths of the
packets and of the receives alone; all packets arrive exactly when every receive fits behind the cursor.
-/

namespace CppRedis.Soundness.ClientBuffer

open Machine Model.GameServer Model.Client

/-- The arguments of `PacketBuffer.Init`. -/
def bufferSize : ℕ := 8096 * 10
def maxPacketSize : ℕ := 1024

/-- A packet that the server sends. -/
structure ServerFrame where
  bytes : List UInt8
  framed : packetFraming.IsFrame bytes
  bounded : bytes.length ≤ maxPacketSize

/-- What should be queued for a packet. -/
def ServerFrame.packet (frame : ServerFrame) : PacketData where
  dataSize := frame.bytes.length - packetHeaderSize
  packetId := toInt16 (ofList frame.bytes) 2
  type := toSByte (ofList frame.bytes 4)
  bodyData := frame.bytes.drop packetHeaderSize

/-- The bytes of some packets in a row. -/
def stream (frames : List ServerFrame) : List UInt8 := (frames.map ServerFrame.bytes).flatten

/-- The lengths of the packets that are left, and the bytes left of the first, when all packets that are
complete have been taken. -/
def consume : List ℕ → ℕ → List ℕ × ℕ
  | [], available => ([], available)
  | length :: rest, available =>
      if length ≤ available then consume rest (available - length) else (length :: rest, available)

/-- The positions of the buffer: where the next receive is written, how many bytes are unread, and the
lengths of the packets that are not yet read. -/
structure Cursor where
  writePos : ℕ
  backlog : ℕ
  pending : List ℕ

namespace Cursor

def start (lengths : List ℕ) : Cursor := ⟨0, 0, lengths⟩

/-- A receive moves the write position behind its bytes, or, when this leaves less than one packet's room,
to the number of unread bytes; and all packets that are complete then are read. -/
def receive (cursor : Cursor) (size : ℕ) : Cursor where
  writePos :=
    if bufferSize - (cursor.writePos + size) < maxPacketSize then cursor.backlog + size
    else cursor.writePos + size
  backlog := (consume cursor.pending (cursor.backlog + size)).2
  pending := (consume cursor.pending (cursor.backlog + size)).1

/-- The receive fits behind the write position. -/
def Fits (cursor : Cursor) (size : ℕ) : Prop := cursor.writePos + size ≤ bufferSize

instance (cursor : Cursor) (size : ℕ) : Decidable (cursor.Fits size) := inferInstanceAs (Decidable (_ ≤ _))

end Cursor

/-- A sequence of packets, and a way to cut their bytes into receives. -/
structure Transmission where
  packets : List ServerFrame
  receives : List Receive
  whole : receives.flatMap Receive.bytes = stream packets

theorem stream_cons (frame : ServerFrame) (frames : List ServerFrame) :
    stream (frame :: frames) = frame.bytes ++ stream frames := rfl

theorem ServerFrame.header_le (frame : ServerFrame) : packetHeaderSize ≤ frame.bytes.length := frame.framed.1

theorem toInt16_of_small {bytes : Bytes} {position : ℕ} (small : uint16At bytes position ≤ maxPacketSize) :
    toInt16 bytes position = uint16At bytes position := by
  simp only [maxPacketSize] at small
  unfold toInt16
  rw [Int.bmod_eq_of_le (by omega) (by omega)]

section Read

variable {manager : PacketBufferManager} {frame : ServerFrame} {frames : List ServerFrame} {rest : List UInt8}

/-- The length that `Read` finds is that of the first packet. -/
theorem toInt16_header (cut : manager.unread ++ rest = stream (frame :: frames))
    (long : packetHeaderSize ≤ manager.writePos - manager.readPos) :
    toInt16 manager.packetData manager.readPos = frame.bytes.length := by
  have unread : packetHeaderSize ≤ manager.unread.length := by rwa [PacketBufferManager.unread_length]
  have declared : packetFraming.declared manager.unread = frame.bytes.length := by
    rw [← Framing.declared_append unread rest, cut, stream_cons,
      Framing.declared_append frame.framed.1 (stream frames), frame.framed.2]
  have header : uint16At manager.packetData manager.readPos = frame.bytes.length := by
    rw [← declared]
    simp only [packetHeaderSize] at long
    change _ = uint16At (ofList (manager.packetData.read manager.readPos _)) 0
    simp only [uint16At]
    rw [ofList_read _ (by omega), ofList_read _ (by omega)]
    rfl
  rw [toInt16_of_small (header ▸ frame.bounded), header]

/-- `Read` waits for the end of the first packet. -/
theorem read_waiting (header : manager.headerSize = packetHeaderSize)
    (cut : manager.unread ++ rest = stream (frame :: frames))
    (waiting : manager.unread.length < frame.bytes.length) : manager.read = some ({}, manager) := by
  rw [PacketBufferManager.unread_length] at waiting
  apply PacketBufferManager.read_of_short
  rw [header]
  by_cases short : manager.writePos - manager.readPos < packetHeaderSize
  · exact Or.inl short
  · rw [toInt16_header cut (by omega)]
    exact Or.inr (by omega)

/-- `Read` returns the first packet once it is complete. -/
theorem read_complete (header : manager.headerSize = packetHeaderSize)
    (cut : manager.unread ++ rest = stream (frame :: frames))
    (complete : frame.bytes.length ≤ manager.unread.length) :
    ∃ available, manager.read =
      some ({ offset := manager.readPos, count := frame.bytes.length },
        manager.advance frame.bytes.length available) := by
  have long := frame.header_le
  rw [PacketBufferManager.unread_length] at complete
  exact ⟨complete, manager.read_of_available (by omega) (toInt16_header cut (by omega)) complete⟩

/-- The first packet is at the front of the unread bytes. -/
theorem read_front (cut : manager.unread ++ rest = stream (frame :: frames))
    (complete : frame.bytes.length ≤ manager.unread.length) :
    manager.packetData.read manager.readPos frame.bytes.length = frame.bytes := by
  have front := congrArg (List.take frame.bytes.length) cut
  rw [stream_cons, List.take_left, List.take_append_of_le_length complete] at front
  rw [PacketBufferManager.unread_length] at complete
  rwa [PacketBufferManager.unread, Memory.read_take _ _ _ complete] at front

end Read

/-- The packet that the receive thread makes of a segment is the one that was sent. -/
theorem packetOf_frame {array : Bytes} {offset : ℕ} {frame : ServerFrame}
    (same : array.read offset frame.bytes.length = frame.bytes) :
    packetOf array { offset := offset, count := frame.bytes.length } = some frame.packet := by
  have long := frame.header_le
  have cell {index : ℕ} (inside : index < frame.bytes.length) : array (offset + index) = ofList frame.bytes index := by
    rw [← same, ofList_read array inside]
    rfl
  simp only [packetHeaderSize] at long
  unfold packetOf ServerFrame.packet
  rw [if_neg (Nat.not_lt.mpr frame.header_le)]
  dsimp only
  have id := toInt16_congr (cell (show 2 < frame.bytes.length by omega)) (cell (show 3 < frame.bytes.length by omega))
  rw [id, cell (show 4 < frame.bytes.length by omega)]
  have body := congrArg (List.drop packetHeaderSize) same
  rw [Memory.read_drop _ _ _ frame.header_le] at body
  rw [body]

/-- The inner loop takes the packets that are complete off the unread bytes and queues them. -/
theorem readPackets_spec (form : MainForm) (header : form.packetBuffer.headerSize = packetHeaderSize)
    {frames : List ServerFrame} {rest : List UInt8} (cut : form.packetBuffer.unread ++ rest = stream frames) :
    ∃ taken left, frames = taken ++ left ∧
      consume (frames.map (·.bytes.length)) form.packetBuffer.unread.length =
        (left.map (·.bytes.length), form.readPackets.packetBuffer.unread.length) ∧
      form.readPackets.recvPacketQueue = form.recvPacketQueue ++ taken.map ServerFrame.packet ∧
      form.readPackets.packetBuffer.unread ++ rest = stream left ∧
      form.readPackets.packetBuffer.writePos = form.packetBuffer.writePos ∧
      form.readPackets.packetBuffer.SameLayout form.packetBuffer ∧
      form.readPackets.stopped = form.stopped := by
  induction frames generalizing form with
  | nil =>
    have empty : form.packetBuffer.unread = [] := (List.append_eq_nil_iff.mp cut).1
    have nothing : form.packetBuffer.read = some ({}, form.packetBuffer) := by
      apply PacketBufferManager.read_of_short
      rw [← PacketBufferManager.unread_length, empty, header]
      exact Or.inl (by decide)
    rw [MainForm.readPackets_of_empty nothing, empty]
    exact ⟨[], [], rfl, rfl, (List.append_nil _).symm, empty ▸ cut, rfl, ⟨rfl, rfl, rfl⟩, rfl⟩
  | cons frame frames ih =>
    by_cases complete : frame.bytes.length ≤ form.packetBuffer.unread.length
    · obtain ⟨available, found⟩ := read_complete header cut complete
      have made := packetOf_frame (read_front cut complete)
      have behind : (form.packetBuffer.unread.drop frame.bytes.length) ++ rest = stream frames := by
        rw [← List.drop_append_of_le_length complete, cut, stream_cons, List.drop_left]
      obtain ⟨moved, written, -, layout, unread⟩ := form.packetBuffer.advance_spec available
      rw [MainForm.readPackets_of_packet found (Nat.le_trans (by decide) frame.header_le) made]
      rw [← unread] at behind
      obtain ⟨taken, left, split, consumed, queued, after, position, kept, running⟩ :=
        ih { form with
            packetBuffer := form.packetBuffer.advance frame.bytes.length available
            recvPacketQueue := form.recvPacketQueue ++ [frame.packet] }
          (layout.2.1.trans header) behind
      refine ⟨frame :: taken, left, by rw [split, List.cons_append], ?_, ?_, after, position.trans written, ?_, running⟩
      · dsimp only at consumed
        rw [unread, List.length_drop] at consumed
        rw [List.map_cons, consume, if_pos complete, consumed]
      · rw [queued, List.map_cons, List.append_assoc, List.singleton_append]
      · exact ⟨kept.1.trans layout.1, kept.2.1.trans layout.2.1, kept.2.2.trans layout.2.2⟩
    · have waiting := read_waiting header cut (Nat.lt_of_not_le complete)
      rw [MainForm.readPackets_of_empty waiting]
      refine ⟨[], frame :: frames, rfl, ?_, (List.append_nil _).symm, cut, rfl, ⟨rfl, rfl, rfl⟩, rfl⟩
      rw [List.map_cons, consume, if_neg complete]

/-- The client stands where the cursor says: the packets left start with the unread bytes, the first of
them is not complete, and the rest of their bytes is still to come. -/
structure Represents (form : MainForm) (cursor : Cursor) (left : List ServerFrame) (rest : List UInt8) : Prop where
  layout : form.packetBuffer.SameLayout MainForm.load.packetBuffer
  running : form.stopped = false
  cut : form.packetBuffer.unread ++ rest = stream left
  waiting : ∀ frame frames, left = frame :: frames → form.packetBuffer.unread.length < frame.bytes.length
  writePos : cursor.writePos = form.packetBuffer.writePos
  backlog : cursor.backlog = form.packetBuffer.unread.length
  pending : cursor.pending = left.map (·.bytes.length)

theorem represents_load (packets : List ServerFrame) :
    Represents MainForm.load (Cursor.start (packets.map (·.bytes.length))) packets (stream packets) :=
  ⟨⟨rfl, rfl, rfl⟩, rfl, rfl, fun frame _ _ => Nat.lt_of_lt_of_le (by decide) frame.header_le, rfl, rfl, rfl⟩

/-- What `consume` leaves is not complete. -/
theorem consume_waiting {lengths : List ℕ} {available length backlog : ℕ} {rest : List ℕ}
    (left : consume lengths available = (length :: rest, backlog)) : backlog < length := by
  induction lengths generalizing available with
  | nil => cases left
  | cons first others ih =>
    simp only [consume] at left
    split_ifs at left with complete
    · exact ih left
    · obtain ⟨lengths, rfl⟩ := Prod.mk.inj left
      obtain ⟨rfl, -⟩ := List.cons.inj lengths
      omega

variable {form : MainForm} {cursor : Cursor} {left : List ServerFrame} {rest : List UInt8}

/-- `Write` takes a receive that fits and refuses any other. -/
theorem Represents.writes_iff (represents : Represents form cursor left rest) (receive : Receive) :
    form.writes receive = true ↔ cursor.Fits receive.bytes.length := by
  have size : form.packetBuffer.bufferSize = bufferSize := represents.layout.1
  have inside := form.packetBuffer.inside
  simp only [Cursor.Fits]
  rw [represents.writePos]
  by_cases fits : receive.bytes.length ≤ form.packetBuffer.bufferSize - form.packetBuffer.writePos
  · have long : receive.bytes.length ≤ receive.readBuffer.length := by
      rw [Receive.readBuffer, List.length_append]
      omega
    exact iff_of_true (form.packetBuffer.write_spec long fits).1 (by omega)
  · refine iff_of_false ?_ (by omega)
    simp only [MainForm.writes]
    rw [form.packetBuffer.write_full (by omega)]
    exact Bool.false_ne_true

/-- A receive that fits moves the client as it moves the cursor, and queues the packets it completes. -/
theorem Represents.receive {receive : Receive}
    (represents : Represents form cursor left (receive.bytes ++ rest))
    (fits : cursor.Fits receive.bytes.length) :
    ∃ taken later, left = taken ++ later ∧
      Represents (form.networkReadProcess receive) (cursor.receive receive.bytes.length) later rest ∧
      (form.networkReadProcess receive).recvPacketQueue =
        form.recvPacketQueue ++ taken.map ServerFrame.packet := by
  have ⟨layout, running, cut, _, writePos, backlog, pending⟩ := represents
  have size : form.packetBuffer.bufferSize = bufferSize := layout.1
  have most : form.packetBuffer.maxPacketSize = maxPacketSize := layout.2.2
  have room : receive.bytes.length ≤ form.packetBuffer.bufferSize - form.packetBuffer.writePos := by
    simp only [Cursor.Fits] at fits
    omega
  have long : receive.bytes.length ≤ receive.readBuffer.length := by
    rw [Receive.readBuffer, List.length_append]
    omega
  obtain ⟨-, unread, kept, moved⟩ := form.packetBuffer.write_spec long room
  rw [Receive.readBuffer, List.take_left] at unread
  set written := (form.packetBuffer.write (some receive.readBuffer) 0 receive.bytes.length).2 with result
  have joined : written.unread ++ rest = stream left := by
    rw [show written.unread = _ from unread, List.append_assoc]
    exact cut
  have process : form.networkReadProcess receive =
      MainForm.readPackets { form with packetBuffer := written } := by
    simp only [MainForm.networkReadProcess]
    rw [running]
    rfl
  obtain ⟨taken, later, split, consumed, queued, after, position, layoutAfter, stopped⟩ :=
    readPackets_spec { form with packetBuffer := written } (kept.2.1.trans layout.2.1) joined
  have count : written.unread.length = cursor.backlog + receive.bytes.length := by
    rw [show written.unread = _ from unread, List.length_append, backlog]
  dsimp only at consumed
  rw [count, ← pending] at consumed
  rw [process]
  refine ⟨taken, later, split, ⟨?_, stopped.trans running, after, ?_, ?_, ?_, ?_⟩, queued⟩
  · exact ⟨layoutAfter.1.trans (kept.1.trans layout.1), layoutAfter.2.1.trans (kept.2.1.trans layout.2.1),
      layoutAfter.2.2.trans (kept.2.2.trans layout.2.2)⟩
  · rintro frame frames rfl
    exact consume_waiting consumed
  · rw [position, Cursor.receive, ← size, ← most, writePos, backlog]
    exact moved.symm
  · exact congrArg Prod.snd consumed
  · exact congrArg Prod.fst consumed

/-- From a state that the cursor represents: all writes succeed exactly when all receives fit, and then
every packet left is queued. -/
theorem Represents.run {receives : List Receive}
    (represents : Represents form cursor left (receives.flatMap Receive.bytes)) :
    (Along MainForm.networkReadProcess (fun form receive => form.writes receive = true) form receives ↔
        Along Cursor.receive Cursor.Fits cursor (receives.map (·.bytes.length))) ∧
      (Along Cursor.receive Cursor.Fits cursor (receives.map (·.bytes.length)) →
        (run MainForm.networkReadProcess form receives).recvPacketQueue =
          form.recvPacketQueue ++ left.map ServerFrame.packet) := by
  induction receives generalizing form cursor left with
  | nil =>
    refine ⟨Iff.rfl, fun _ => ?_⟩
    cases left with
    | nil => exact (List.append_nil _).symm
    | cons frame frames =>
      -- All bytes have come, so the first packet left would be complete.
      have short := represents.waiting frame frames rfl
      have all := congrArg List.length represents.cut
      rw [stream_cons, List.length_append, List.length_append, List.flatMap_nil, List.length_nil] at all
      omega
  | cons receive receives ih =>
    have step := represents.writes_iff receive
    constructor
    · constructor
      · rintro ⟨written, later⟩
        obtain ⟨_, _, _, next, _⟩ := represents.receive (step.mp written)
        exact ⟨step.mp written, (ih next).1.mp later⟩
      · rintro ⟨fits, later⟩
        obtain ⟨_, _, _, next, _⟩ := represents.receive fits
        exact ⟨step.mpr fits, (ih next).1.mpr later⟩
    · rintro ⟨fits, later⟩
      obtain ⟨taken, remaining, split, next, queued⟩ := represents.receive fits
      rw [run_cons, (ih next).2 later, queued, split, List.map_append, List.append_assoc]

/-- For every sequence of server packets of 5 to 1024 bytes and every way to cut their bytes into receives
of 1 to 2048 bytes: no `Write` returns false and the packets queued are exactly the packets sent, in order,
if and only if every receive fits behind the write position that the lengths so far determine. -/
theorem received_iff_fits (transmission : Transmission) :
    (Along MainForm.networkReadProcess (fun form receive => form.writes receive = true) MainForm.load
          transmission.receives ∧
        (run MainForm.networkReadProcess MainForm.load transmission.receives).recvPacketQueue =
          transmission.packets.map ServerFrame.packet) ↔
      Along Cursor.receive Cursor.Fits (Cursor.start (transmission.packets.map (·.bytes.length)))
        (transmission.receives.map (·.bytes.length)) := by
  have initial := represents_load transmission.packets
  rw [← transmission.whole] at initial
  obtain ⟨written, queued⟩ := initial.run
  constructor
  · rintro ⟨accepted, -⟩
    exact written.mp accepted
  · intro fits
    exact ⟨written.mpr fits, queued fits⟩

/-- A packet of 1024 bytes. -/
def longPacket : ServerFrame where
  bytes := [0, 4, 202, 0, 0] ++ List.replicate 1019 0
  framed := by decide +kernel
  bounded := by decide +kernel

/-- A receive of two of them. -/
def longReceive : Receive where
  bytes := longPacket.bytes ++ longPacket.bytes
  nonempty := by decide +kernel
  bounded := by decide +kernel

/-- 80 packets in 40 receives. -/
def crowdedTransmission : Transmission where
  packets := List.replicate 80 longPacket
  receives := List.replicate 40 longReceive
  whole := by
    rw [stream, List.flatMap_def, List.map_replicate, List.map_replicate]
    change (List.replicate 40 (longPacket.bytes ++ longPacket.bytes)).flatten = _
    generalize longPacket.bytes = bytes
    simp only [List.replicate, List.flatten_cons, List.flatten_nil, List.append_assoc, List.append_nil]

/-- The last receive of 2048 bytes comes when 1088 bytes are left, and is refused. -/
theorem received_refuses_last :
    ¬ (Along MainForm.networkReadProcess (fun form receive => form.writes receive = true) MainForm.load
          crowdedTransmission.receives ∧
        (run MainForm.networkReadProcess MainForm.load crowdedTransmission.receives).recvPacketQueue =
          crowdedTransmission.packets.map ServerFrame.packet) := by
  rintro ⟨accepted, -⟩
  have initial := represents_load crowdedTransmission.packets
  rw [← crowdedTransmission.whole] at initial
  have fits := initial.run.1.mp accepted
  revert fits
  decide +kernel

end CppRedis.Soundness.ClientBuffer
