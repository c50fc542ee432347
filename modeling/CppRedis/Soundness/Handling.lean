import CppRedis.Soundness.PacketBuffer

/-! # A packet between its dequeue and its handler

`DequePacketData` hands out a pointer into the live buffer, and the handler reads through it one step
later. In between an IO worker may call `SetPacketData` on the same slot. As long as no such call copies
to a cell of the packet, the handler finds what was dequeued. When the buffer is nearly full, the call
moves the unread bytes to the front, and a packet that lay there is gone.
-/

namespace CppRedis.Soundness.Handling

open Machine Model.GameServer

/-- A server, and the bytes of the frame that the last `DequePacketData` returned. -/
structure Watched where
  server : Server
  returned : List UInt8 := []

/-- The bytes at the pointer of a packet. -/
def bytesOf (manager : PacketManager) (packetData : PacketInfo) : List UInt8 :=
  (manager.pointer packetData).read 0 packetData.dataSize

def step (redis : Model.RedisCpp.Server) (watched : Watched) (event : Event) : Watched where
  server := watched.server.step redis event
  returned :=
    match event, watched.server.packetThread with
    | .packetThread _, .dequePacketData =>
        let (packetData, manager) := watched.server.packetManager.dequePacketData
        bytesOf manager packetData
    | _, _ => watched.returned

/-- The packet that is about to be handled still has the bytes it was dequeued with. -/
def Intact (watched : Watched) : Prop :=
  match watched.server.packetThread with
  | .processClient packetData => bytesOf watched.server.packetManager packetData = watched.returned
  | _ => True

instance : DecidablePred Intact
  | ⟨⟨_, .processClient _, _⟩, _⟩ => inferInstanceAs (Decidable (_ = _))
  | ⟨⟨_, .dequePacketData, _⟩, _⟩ | ⟨⟨_, .dequeSystemPacketData, _⟩, _⟩ | ⟨⟨_, .processSystem _, _⟩, _⟩
  | ⟨⟨_, .takeResponseTask, _⟩, _⟩ | ⟨⟨_, .processResponse _, _⟩, _⟩ => isTrue trivial

/-- The first cell that `SetPacketData` writes for a chunk of so many bytes, and the number of cells: the
chunk goes to the write position, or with the unread bytes before it to the front. -/
def cellsWritten (user : User) (dataSize : ℕ) : ℕ × ℕ :=
  if addUInt32 user.mPakcetDataBufferWPos dataSize ≥ packetDataBufferSize then
    (0, subUInt32 user.mPakcetDataBufferWPos user.mPakcetDataBufferRPos + dataSize)
  else (user.mPakcetDataBufferWPos, dataSize)

/-- No cell that `SetPacketData` writes is one of these. -/
def Misses (user : User) (dataSize position count : ℕ) : Prop :=
  ∀ offset < count, position + offset < (cellsWritten user dataSize).1 ∨
    (cellsWritten user dataSize).1 + (cellsWritten user dataSize).2 ≤ position + offset

instance (user : User) (dataSize position count : ℕ) : Decidable (Misses user dataSize position count) :=
  Nat.decidableBallLT count _

theorem misses_of_disjoint {user : User} {dataSize position count : ℕ}
    (disjoint : position + count ≤ (cellsWritten user dataSize).1 ∨
      (cellsWritten user dataSize).1 + (cellsWritten user dataSize).2 ≤ position) :
    Misses user dataSize position count := by
  intro offset inside
  omega

/-- A receive for the client whose packet is about to be handled writes none of the packet's cells. -/
def SparesPacket (watched : Watched) (event : Event) : Prop :=
  match event, watched.server.packetThread with
  | .receive clientIndex chunk, .processClient packetData =>
      packetData.clientIndex = clientIndex → ∀ position ∈ packetData.pDataPtr,
        Misses (watched.server.packetManager.user clientIndex) chunk.bytes.length position packetData.dataSize
  | _, _ => True

instance : (watched : Watched) → (event : Event) → Decidable (SparesPacket watched event)
  | ⟨⟨_, .processClient _, _⟩, _⟩, .receive _ _ => inferInstanceAs (Decidable (_ → _))
  | ⟨⟨_, .dequePacketData, _⟩, _⟩, .receive _ _ | ⟨⟨_, .dequeSystemPacketData, _⟩, _⟩, .receive _ _
  | ⟨⟨_, .processSystem _, _⟩, _⟩, .receive _ _ | ⟨⟨_, .takeResponseTask, _⟩, _⟩, .receive _ _
  | ⟨⟨_, .processResponse _, _⟩, _⟩, .receive _ _ => isTrue trivial
  | _, .onConnect _ | _, .onClose _ | _, .packetThread _ | _, .redisThread _ => isTrue trivial

theorem cellsWritten_eq (user : User) (data : List UInt8) :
    cellsWritten user data.length = ((user.copied data).1, (user.copied data).2.length) := by
  simp only [User.copied, cellsWritten]
  split_ifs
  · rw [List.length_append, Memory.read_length]
  · rfl

/-- Cells that are not written are kept. -/
theorem read_setPacketData {user : User} {data : List UInt8} {position count : ℕ}
    (misses : Misses user data.length position count) :
    (user.setPacketData data).mPakcetDataBuffer.read position count =
      user.mPakcetDataBuffer.read position count := by
  rw [Misses, cellsWritten_eq] at misses
  rw [User.setPacketData_buffer, Memory.read_eq_read_iff]
  intro index low high
  simp only [Memory.write]
  rcases misses (index - position) (by omega) with before | behind
  · rw [if_neg (by omega)]
  · dsimp only at behind
    rw [if_pos (by omega), List.getElem?_eq_none (by omega), Option.getD_none]

theorem bytesOf_congr {manager other : PacketManager} {packetData : PacketInfo}
    (same : manager.user packetData.clientIndex = other.user packetData.clientIndex) :
    bytesOf manager packetData = bytesOf other packetData := by
  simp only [bytesOf, PacketManager.pointer]
  rw [same]

/-- A receive that does not write a packet's cells keeps its bytes. -/
theorem bytesOf_receive {manager : PacketManager} {packetData : PacketInfo} {clientIndex : ℕ} {data : List UInt8}
    (spared : packetData.clientIndex = clientIndex → ∀ position ∈ packetData.pDataPtr,
      Misses (manager.user clientIndex) data.length position packetData.dataSize) :
    bytesOf (manager.receivePacketData clientIndex data) packetData = bytesOf manager packetData := by
  by_cases same : packetData.clientIndex = clientIndex
  · subst same
    unfold bytesOf PacketManager.pointer
    cases pointer : packetData.pDataPtr with
    | none => rfl
    | some position =>
      dsimp only
      rw [PacketManager.user_receivePacketData_self, Memory.read_offset, Memory.read_offset, Nat.add_zero]
      exact read_setPacketData (spared rfl position pointer)
  · exact bytesOf_congr (manager.user_receivePacketData_other data same)

/-- A step that leaves the packet thread and the users alone. -/
theorem intact_of_same {watched next : Watched} (intact : Intact watched)
    (thread : next.server.packetThread = watched.server.packetThread)
    (users : ∀ client, next.server.packetManager.user client = watched.server.packetManager.user client)
    (returned : next.returned = watched.returned) : Intact next := by
  simp only [Intact] at intact ⊢
  rw [thread, returned]
  split at intact
  · exact (bytesOf_congr (users _)).trans intact
  · trivial

/-- The packet thread itself never changes a packet before it has handled it. -/
theorem intact_processPacket (redis : Model.RedisCpp.Server) (watched : Watched) (behind : Bytes) :
    Intact (step redis watched (.packetThread behind)) := by
  simp only [Intact, step]
  cases thread : watched.server.packetThread with
  | dequePacketData =>
    simp only [Server.step, Server.processPacket, thread]
    split
    · next packetData held =>
      split_ifs at held
      cases held
      rfl
    · trivial
  | processClient packetData => simp only [Server.step, Server.processPacket, thread]
  | processSystem packetData => simp only [Server.step, Server.processPacket, thread]
  | processResponse task => simp only [Server.step, Server.processPacket, thread]
  | dequeSystemPacketData =>
    simp only [Server.step, Server.processPacket, thread]
    split
    · next held => split_ifs at held
    · trivial
  | takeResponseTask =>
    simp only [Server.step, Server.processPacket, thread]
    split
    · next held => split_ifs at held
    · trivial

/-- One step that spares the packet keeps it intact. -/
theorem step_intact (redis : Model.RedisCpp.Server) {watched : Watched} (intact : Intact watched) {event : Event}
    (spared : SparesPacket watched event) : Intact (step redis watched event) := by
  cases event with
  | packetThread behind => exact intact_processPacket redis watched behind
  | onConnect client => exact intact_of_same intact rfl (fun _ => rfl) rfl
  | onClose client => exact intact_of_same intact rfl (fun _ => rfl) rfl
  | redisThread behind =>
    refine intact_of_same intact ?_ (fun client => ?_) rfl
    · exact Server.taskProcessThread_packetThread redis watched.server behind
    · obtain ⟨redisMgr, manager⟩ := Server.taskProcessThread_packetManager redis watched.server behind
      change (watched.server.taskProcessThread redis behind).packetManager.user client = _
      rw [manager]
      rfl
  | receive client chunk =>
    simp only [Intact] at intact
    simp only [SparesPacket] at spared
    simp only [Intact, step, Server.step]
    cases thread : watched.server.packetThread with
    | processClient packetData =>
      rw [thread] at intact spared
      dsimp only at intact spared ⊢
      rw [← intact]
      exact bytesOf_receive spared
    | _ => trivial

/-- In every run of the server, however its threads interleave, in which no receive for the client whose packet
is about to be handled writes a cell of the packet: every packet still has the bytes of the frame that
`DequePacketData` returned until it is handled. -/
theorem spared_run_intact (redis : Model.RedisCpp.Server) (maxClient : ℕ) (allocated : ℕ → Bytes)
    {events : List Event}
    (spared : Along (step redis) SparesPacket { server := Server.init maxClient allocated } events) :
    Always (step redis) Intact { server := Server.init maxClient allocated } events := by
  have preserved (watched : Watched) (event : Event) (intact : Intact watched) (spared : SparesPacket watched event) :=
    step_intact redis intact spared
  exact always_of_along preserved (show Intact { server := Server.init maxClient allocated } from trivial) spared

/-- A leave request, and the start of a frame longer than any buffer. -/
def leaveChunk : Chunk where
  bytes := [5, 0, 215, 0, 0] ++ List.replicate 251 255
  nonempty := by rw [List.length_append, List.length_replicate]; decide
  bounded := by rw [List.length_append, List.length_replicate]; decide

/-- As much of that frame as still fits, once the leave request is gone. -/
def lastChunk : Chunk where
  bytes := List.replicate 160 255
  nonempty := by rw [List.length_replicate]; decide
  bounded := by rw [List.length_replicate]; decide

/-- The leave request is dequeued when the buffer is nearly full, and more bytes arrive. -/
def crowdedRun : List Event :=
  [.receive 0 leaveChunk] ++ List.replicate 30 (.receive 0 PacketBuffer.hugeChunk) ++
    [.packetThread fun _ => 0, .receive 0 lastChunk]

/-- More bytes arrive behind a leave request that is dequeued and not handled yet. -/
def spacedRun : List Event :=
  [.receive 0 leaveChunk, .packetThread fun _ => 0, .receive 0 lastChunk]

theorem spared_run_intact_leave :
    Always (step fun _ => none) Intact { server := Server.init 3 fun _ _ => 0 } spacedRun ∧
      (run (step fun _ => none) { server := Server.init 3 fun _ _ => 0 } spacedRun).returned = [5, 0, 215, 0, 0] := by
  refine ⟨spared_run_intact _ 3 _ ?_, by decide +kernel⟩
  decide +kernel

/-- The last receive moves the bytes behind the leave request over it before it is handled. -/
theorem run_overwrites_packet :
    ¬ Always (step fun _ => none) Intact { server := Server.init 3 fun _ _ => 0 } crowdedRun := by
  refine mt Always.last ?_
  decide +kernel

end CppRedis.Soundness.Handling
