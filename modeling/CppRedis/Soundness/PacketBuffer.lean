import CppRedis.Model.GameServer.Server

/-! # Bounds of the packet buffer over whole runs

The receive path of one slot: IO workers append chunks with `receivePacketData`, the packet thread
takes packets with `dequePacketData`, in any order and for any clients. A chunk is never refused, so
the positions stay inside the allocation exactly as long as every chunk fits behind the unread
backlog that the reader has left.
-/

namespace CppRedis.Soundness.PacketBuffer

open Machine Model.GameServer

/-- One call on the receive path. -/
inductive Op where
  | receive (clientIndex : ℕ) (chunk : Chunk)
  | deque

def step (manager : PacketManager) : Op → PacketManager
  | .receive clientIndex chunk => manager.receivePacketData clientIndex chunk.bytes
  | .deque => manager.dequePacketData.2

/-- The chunk of a receive for this client fits behind its unread bytes. -/
def Fits (client : ℕ) (manager : PacketManager) : Op → Prop
  | .receive clientIndex chunk =>
      clientIndex = client →
        (manager.user client).unread.length + chunk.bytes.length ≤ packetDataBufferSize
  | .deque => True

theorem chunk_small (chunk : Chunk) : chunk.bytes.length < 2 ^ 16 := by
  have bounded := chunk.bounded
  simp only [maxSockRecvbuf] at bounded
  omega

/-- One call keeps the positions inside the allocation exactly when its chunk fits. -/
theorem step_inBounds_iff (client : ℕ) (manager : PacketManager) (op : Op)
    (bounds : (manager.user client).InBounds) :
    ((step manager op).user client).InBounds ↔ Fits client manager op := by
  cases op with
  | receive clientIndex chunk =>
    by_cases same : clientIndex = client
    · subst same
      simp only [step, Fits, PacketManager.user_receivePacketData_self, forall_const]
      exact User.setPacketData_inBounds_iff bounds (chunk_small chunk)
    · simp only [step, Fits, same, PacketManager.user_receivePacketData_other _ _ (Ne.symm same),
        bounds, false_implies]
  | deque =>
    simp only [step, Fits, PacketManager.user_dequePacketData, iff_true]
    split_ifs
    · exact User.getPacket_inBounds bounds
    · exact bounds

/-- Over every run of receives and dequeues, a client's read and write positions stay in order and
inside its packet buffer if and only if every chunk fits behind the backlog it meets. -/
theorem receive_run_inBounds_iff (maxClient : ℕ) (allocated : ℕ → Bytes) (client : ℕ) (ops : List Op) :
    Always step (fun manager => (manager.user client).InBounds)
        (PacketManager.init maxClient allocated) ops ↔
      Along step (Fits client) (PacketManager.init maxClient allocated) ops := by
  have initial : ((PacketManager.init maxClient allocated).user client).InBounds :=
    User.init_inBounds client (allocated client)
  exact always_iff_along (fun _ => True) (fun _ _ _ => trivial)
    (fun manager op _ bounds => step_inBounds_iff client manager op bounds) trivial initial ops

/-- A chunk that declares a frame longer than any buffer. -/
def hugeChunk : Chunk where
  bytes := List.replicate 256 255
  nonempty := by rw [List.length_replicate]; decide
  bounded := by rw [List.length_replicate]; decide

/-- A client that keeps sending such bytes overruns its buffer, even though every receive is
followed by a dequeue. -/
theorem receive_run_overrun :
    ¬ Always step (fun manager => (manager.user 0).InBounds)
      (PacketManager.init 3 fun _ _ => 0)
      (List.replicate 32 [Op.receive 0 hugeChunk, Op.deque]).flatten := by
  intro always
  have last := always.last
  revert last
  decide +kernel

end CppRedis.Soundness.PacketBuffer
