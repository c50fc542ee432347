import CppRedis.Machine.Run
import CppRedis.Model.Client.PacketBufferManager

/-! # The test client's buffer as a stream

`Write` and `Read` in any order, with any chunks, offsets and length fields. A write relocates the unread
bytes after its copy, so positions go back; what it accepted and what `Read` returned stay one stream, and
no refused or failed call touches it.
-/

namespace CppRedis.Soundness.ClientStream

open Machine Model.Client

/-- A manager that `Init` has set up. -/
structure Opened where
  size : Int32
  headerSize : Int32
  maxPacketSize : Int32
  header : 2 ≤ headerSize
  accepted : (PacketBufferManager.initInt32 size headerSize maxPacketSize).1 = true

def Opened.manager (opened : Opened) : PacketBufferManager :=
  (PacketBufferManager.initInt32 opened.size opened.headerSize opened.maxPacketSize).2

/-- One call on the buffer. -/
inductive Op where
  | write (data : Option (List UInt8)) (pos size : ℕ)
  | read

/-- The manager after a call. An exception leaves the object as it was when it was thrown, which is before any
of its fields is set. -/
def step (manager : PacketBufferManager) : Op → PacketBufferManager
  | .write data pos size => ((manager.writeInt32 data pos size).map Prod.snd).getD manager
  | .read => (manager.read.map Prod.snd).getD manager

/-- The chunk that a call accepts. -/
def accepted (manager : PacketBufferManager) : Op → List UInt8
  | .write data pos size =>
      if (manager.writeInt32 data pos size).map Prod.fst = some true then ((data.getD []).drop pos).take size
      else []
  | .read => []

/-- The bytes of the segment that a call returns, when it returns. -/
def returned (manager : PacketBufferManager) : Op → List UInt8
  | .write _ _ _ => []
  | .read =>
      match manager.read with
      | none => []
      | some (data, next) => next.packetData.read data.offset data.count

/-- A write that returns false or throws, or a read that throws or returns an empty segment. -/
def Idle (manager : PacketBufferManager) : Op → Prop
  | .write data pos size => (manager.writeInt32 data pos size).map Prod.fst ≠ some true
  | .read => ∀ data next, manager.read = some (data, next) → data.count = 0

/-- An idle call leaves both positions and the unread bytes as they are. -/
def Untouched (manager : PacketBufferManager) (op : Op) : Prop :=
  Idle manager op →
    (step manager op).readPos = manager.readPos ∧ (step manager op).writePos = manager.writePos ∧
      (step manager op).unread = manager.unread

theorem Opened.bufferSize_eq (opened : Opened) : (opened.manager.bufferSize : ℤ) = opened.size.toInt := by
  have accepted := opened.accepted
  simp only [manager]
  simp only [PacketBufferManager.initInt32] at accepted ⊢
  split_ifs at accepted ⊢ with refused
  have positive : ¬ opened.size < 1 := fun small => refused (Or.inr (Or.inl small))
  rw [Int32.lt_iff_toInt_lt, Int32.toInt_one] at positive
  exact Int.toNat_of_nonneg (by omega)

theorem Opened.manager_unread (opened : Opened) : opened.manager.unread = [] := by
  simp only [manager, PacketBufferManager.initInt32]
  split_ifs <;> rfl

/-- What `writeInt32` does with arguments that are in range, and with all others. -/
theorem writeInt32_cases (manager : PacketBufferManager) (data : Option (List UInt8)) (pos size : ℕ) :
    (manager.writeInt32 data pos size = some (false, manager) ∨ manager.writeInt32 data pos size = none) ∨
      ∃ bytes, data = some bytes ∧ pos + size ≤ bytes.length ∧
        size ≤ manager.bufferSize - manager.writePos ∧
        manager.writeInt32 data pos size = some (manager.write (some bytes) pos size) := by
  cases data with
  | none => exact Or.inl (Or.inl rfl)
  | some bytes =>
    simp only [PacketBufferManager.writeInt32]
    split_ifs with short full cut
    · exact Or.inl (Or.inl rfl)
    · exact Or.inl (Or.inl rfl)
    · exact Or.inl (Or.inr rfl)
    · exact Or.inr ⟨bytes, rfl, Nat.le_of_not_lt cut, Nat.le_of_not_lt full, rfl⟩

/-- What one call does: nothing, take in a chunk at the back or give out a segment from the front. -/
inductive Effect (manager : PacketBufferManager) (op : Op) : Prop where
  | nothing
      (same : step manager op = manager)
      (refused : accepted manager op = [])
      (silent : returned manager op = [])
  | written
      (busy : ¬ Idle manager op)
      (size : (step manager op).bufferSize = manager.bufferSize)
      (appended : (step manager op).unread = manager.unread ++ accepted manager op)
      (silent : returned manager op = [])
  | read (count : ℕ) (available : count ≤ manager.writePos - manager.readPos)
      (busy : Idle manager op → count = 0)
      (consumed : step manager op = manager.advance count available)
      (refused : accepted manager op = [])
      (given : returned manager op = manager.unread.take count)

theorem write_effect (manager : PacketBufferManager) (data : Option (List UInt8)) (pos size : ℕ) :
    Effect manager (.write data pos size) := by
  rcases writeInt32_cases manager data pos size with (refused | threw) | ⟨bytes, rfl, long, fits, written⟩
  · exact .nothing (by rw [step, refused]; rfl) (by rw [accepted, refused]; rfl) rfl
  · exact .nothing (by rw [step, threw]; rfl) (by rw [accepted, threw]; rfl) rfl
  · obtain ⟨success, appended, layout, -⟩ := manager.write_at_spec long fits
    have returns : (manager.writeInt32 (some bytes) pos size).map Prod.fst = some true := by
      rw [written, Option.map_some, success]
    have next : step manager (.write (some bytes) pos size) = (manager.write (some bytes) pos size).2 := by
      rw [step, written]
      rfl
    refine .written (fun idle => idle returns) ?_ ?_ rfl
    · rw [next]
      exact layout.1
    · rw [next, appended, accepted, if_pos returns, Option.getD_some]

theorem read_effect (manager : PacketBufferManager) : Effect manager .read := by
  cases found : manager.read with
  | none => exact .nothing (by rw [step, found]; rfl) rfl (by rw [returned, found])
  | some result =>
    obtain ⟨data, next⟩ := result
    obtain ⟨available, rfl⟩ := manager.read_eq_some found
    refine .read data.count available (fun idle => idle data _ found) (by rw [step, found]; rfl) rfl ?_
    rw [returned, found]
    exact manager.segment_of_read found

theorem call_effect (manager : PacketBufferManager) (op : Op) : Effect manager op := by
  cases op with
  | write data pos size => exact write_effect manager data pos size
  | read => exact read_effect manager

namespace Effect

variable {manager : PacketBufferManager} {op : Op}

theorem bufferSize_eq (effect : Effect manager op) : (step manager op).bufferSize = manager.bufferSize := by
  cases effect with
  | nothing same => rw [same]
  | written _ size => exact size
  | read _ _ _ consumed => rw [consumed]; rfl

theorem untouched (effect : Effect manager op) : Untouched manager op := by
  intro idle
  cases effect with
  | nothing same => rw [same]; exact ⟨rfl, rfl, rfl⟩
  | written busy => exact absurd idle busy
  | read count available busy consumed =>
    obtain rfl := busy idle
    rw [consumed]
    exact ⟨rfl, rfl, rfl⟩

theorem balanced (effect : Effect manager op) :
    returned manager op ++ (step manager op).unread = manager.unread ++ accepted manager op := by
  cases effect with
  | nothing same refused silent => rw [same, refused, silent, List.append_nil, List.nil_append]
  | written _ _ appended silent => rw [appended, silent, List.nil_append]
  | read count available _ consumed refused given =>
    rw [consumed, refused, given, (manager.advance_spec available).2.2.2.2, List.take_append_drop, List.append_nil]

end Effect

/-- The positions are in order and inside the buffer, which keeps the size that was asked for. -/
def InOrder (size : Int32) (manager : PacketBufferManager) : Prop :=
  0 ≤ manager.readPos ∧ manager.readPos ≤ manager.writePos ∧ manager.writePos ≤ manager.bufferSize ∧
    (manager.bufferSize : ℤ) = size.toInt

/-- After every `Init` that succeeds and over every sequence of calls: the positions stay in order and inside
the buffer, calls that return nothing change nothing, and all chunks accepted are the segments returned,
followed by the unread bytes. -/
theorem accepted_eq_returned (opened : Opened) (ops : List Op) :
    Always step (InOrder opened.size) opened.manager ops ∧ Along step Untouched opened.manager ops ∧
      outputs step accepted opened.manager ops =
        outputs step returned opened.manager ops ++ (run step opened.manager ops).unread := by
  have initial : InOrder opened.size opened.manager :=
    ⟨Nat.zero_le _, opened.manager.ordered, opened.manager.inside, opened.bufferSize_eq⟩
  have preserved (manager : PacketBufferManager) (op : Op) (inOrder : InOrder opened.size manager) :
      InOrder opened.size (step manager op) ∧ Untouched manager op := by
    refine ⟨⟨Nat.zero_le _, (step manager op).ordered, (step manager op).inside, ?_⟩,
      (call_effect manager op).untouched⟩
    rw [(call_effect manager op).bufferSize_eq, inOrder.2.2.2]
  have balanced := outputs_append_held (InOrder opened.size) PacketBufferManager.unread
    (fun manager op inOrder => (preserved manager op inOrder).1)
    (fun manager op _ => (call_effect manager op).balanced) initial ops
  rw [opened.manager_unread, List.nil_append] at balanced
  obtain ⟨always, along⟩ := always_and_along preserved initial ops
  exact ⟨always, along, balanced.symm⟩

/-- The client's own buffer. -/
def clientBuffer : Opened where
  size := 80960
  headerSize := 5
  maxPacketSize := 1024
  header := by decide
  accepted := by decide

example : clientBuffer.manager.bufferSize = 80960 := by decide

end CppRedis.Soundness.ClientStream
