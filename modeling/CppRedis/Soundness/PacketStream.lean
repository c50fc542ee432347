import CppRedis.Machine.Run
import CppRedis.Model.GameServer.User

/-! # The packet buffer as a stream

`SetPacketData` and `GetPacket` of one slot in any order. As long as every chunk fits behind the unread
bytes, the buffer loses and repeats nothing, whatever the length fields declare: what is read and what is
unread are together what was written. How far the buffer is read depends on the length fields, of which
only an upper bound is checked: a frame may declare less than its own header, or nothing at all.
-/

namespace CppRedis.Soundness.PacketStream

open Machine Model.GameServer

/-- One call on the packet buffer. -/
inductive Op where
  | setPacketData (data : List UInt8)
  | getPacket

def step (user : User) : Op → User
  | .setPacketData data => user.setPacketData data
  | .getPacket => user.getPacket.2

/-- The unread bytes and the new chunk fit into the buffer together. -/
def Fits (user : User) : Op → Prop
  | .setPacketData data => user.unread.length + data.length ≤ packetDataBufferSize
  | .getPacket => True

instance (user : User) (op : Op) : Decidable (Fits user op) := by
  cases op
  · exact inferInstanceAs (Decidable (_ ≤ _))
  · exact inferInstanceAs (Decidable True)

/-- The bytes that a call writes. -/
def Op.written : Op → List UInt8
  | .setPacketData data => data
  | .getPacket => []

/-- The bytes that a returned packet points to when it is returned. -/
def returned (user : User) : Op → List UInt8
  | .setPacketData _ => []
  | .getPacket =>
      match user.getPacket.1.pDataPtr with
      | none => []
      | some position => user.getPacket.2.mPakcetDataBuffer.read position user.getPacket.1.dataSize

theorem Fits.small {user : User} {data : List UInt8} (fits : Fits user (.setPacketData data)) :
    data.length < 2 ^ 16 := by
  simp only [Fits, packetDataBufferSize] at fits
  omega

theorem step_inBounds {user : User} {op : Op} (bounds : user.InBounds) (fits : Fits user op) :
    (step user op).InBounds := by
  cases op with
  | setPacketData data => exact (User.setPacketData_inBounds_iff bounds fits.small).mpr fits
  | getPacket => exact User.getPacket_inBounds bounds

/-- What a call returns is taken off the front of the unread bytes, and what it writes is put behind them. -/
theorem step_balanced {user : User} {op : Op} (bounds : user.InBounds) (fits : Fits user op) :
    returned user op ++ (step user op).unread = user.unread ++ op.written := by
  cases op with
  | setPacketData data => exact User.setPacketData_unread bounds fits.small
  | getPacket =>
    simp only [returned, step, Op.written]
    rw [List.append_nil]
    cases found : packetFraming.next? user.unread with
    | none => rw [User.getPacket_none bounds found, List.nil_append]
    | some frame =>
      have front : frame ++ user.unread.drop frame.length = user.unread := by
        conv_rhs => rw [← List.take_append_drop frame.length user.unread, Framing.take_of_next? found]
      rw [User.getPacket_some bounds found]
      dsimp only
      rw [User.read_of_next? found, (User.consumed_spec bounds (Framing.length_of_next? found).2).2, front]

/-- Over every sequence of calls in which each chunk fits: all bytes written are the bytes of the packets
returned, followed by the unread bytes, and the positions stay in order and inside the buffer. -/
theorem written_eq_returned (index : ℤ) (allocated : Bytes) (ops : List Op)
    (fits : Along step Fits (User.init index allocated) ops) :
    ops.flatMap Op.written =
        outputs step returned (User.init index allocated) ops ++
          (run step (User.init index allocated) ops).unread ∧
      (run step (User.init index allocated) ops).InBounds := by
  have initial := User.init_inBounds index allocated
  have always := always_of_along (fun _ _ => step_inBounds) initial fits
  have balanced := outputs_append_held_along User.InBounds User.unread (fun _ _ => step_inBounds)
    (fun _ _ => step_balanced) initial fits
  rw [User.init_unread, List.nil_append, outputs_eq_flatMap] at balanced
  exact ⟨balanced.symm, always.last⟩

/-- Two frames in three chunks, the second frame cut, and a frame that declares less than its header. -/
def mixedOps : List Op :=
  [.setPacketData [6, 0, 21, 0, 0, 7, 5, 0], .getPacket, .setPacketData [22, 0, 0, 2, 0, 1], .getPacket,
    .setPacketData [0, 0, 9], .getPacket, .getPacket]

theorem written_eq_returned_mixed :
    Along step Fits (User.init 0 fun _ => 0) mixedOps ∧
      mixedOps.flatMap Op.written =
        outputs step returned (User.init 0 fun _ => 0) mixedOps ++
          (run step (User.init 0 fun _ => 0) mixedOps).unread ∧
      (run step (User.init 0 fun _ => 0) mixedOps).InBounds :=
  have fits : Along step Fits (User.init 0 fun _ => 0) mixedOps := by decide +kernel
  ⟨fits, written_eq_returned 0 (fun _ => 0) mixedOps fits⟩

/-- The user after some calls of `GetPacket`. -/
def after (user : User) (calls : ℕ) : User := (fun user => user.getPacket.2)^[calls] user

/-- A byte of the buffer that the next packet delivers. -/
def Delivers (user : User) (position : ℕ) : Prop :=
  ∃ start, user.getPacket.1.pDataPtr = some start ∧ start ≤ position ∧
    position < start + user.getPacket.1.dataSize

/-- What repeated reads should do: every packet with an id moves the read position over a header at least, no
byte is delivered twice, and in the end less than one complete frame is unread. -/
structure Progresses (user : User) : Prop where
  advances : ∀ calls, (after user calls).getPacket.1.packetId ≠ 0 →
    (after user calls).mPakcetDataBufferRPos + packetHeaderLength ≤
      (after user calls).getPacket.2.mPakcetDataBufferRPos
  once : ∀ first second, first < second → ∀ position,
    ¬ (Delivers (after user first) position ∧ Delivers (after user second) position)
  ends : ∃ calls, packetFraming.next? (after user calls).unread = none

/-- The id in the header at the front of some bytes. -/
def headerId (bytes : List UInt8) : ℕ := packetId (ofList bytes)

/-- Of the complete frames met when the bytes are cut by their length fields, none declares less than a
header, but for frames without an id, which may, if they are not empty. -/
def WellHeaded (bytes : List UInt8) : Prop :=
  ∀ taken frame, packetFraming.next? (packetFraming.rest^[taken] bytes) = some frame →
    packetHeaderLength ≤ frame.length ∨
      headerId (packetFraming.rest^[taken] bytes) = 0 ∧ 0 < frame.length

theorem after_succ (user : User) (calls : ℕ) : after user (calls + 1) = (after user calls).getPacket.2 :=
  Function.iterate_succ_apply' _ _ _

theorem getPacket_unread {user : User} (bounds : user.InBounds) :
    user.getPacket.2.unread = packetFraming.rest user.unread := by
  cases found : packetFraming.next? user.unread with
  | none => rw [User.getPacket_none bounds found, Framing.rest_of_none found]
  | some frame =>
    rw [User.getPacket_some bounds found, Framing.rest_of_some found]
    exact (User.consumed_spec bounds (Framing.length_of_next? found).2).2

/-- The read position moves over the bytes delivered. -/
theorem getPacket_rPos {user : User} (bounds : user.InBounds) :
    user.mPakcetDataBufferRPos ≤ user.getPacket.2.mPakcetDataBufferRPos ∧
      ∀ position, Delivers user position → user.mPakcetDataBufferRPos ≤ position ∧
        position < user.getPacket.2.mPakcetDataBufferRPos := by
  cases found : packetFraming.next? user.unread with
  | none =>
    simp only [Delivers]
    rw [User.getPacket_none bounds found]
    exact ⟨Nat.le_refl _, fun position ⟨_, nothing, _⟩ => nomatch nothing⟩
  | some frame =>
    simp only [Delivers]
    rw [User.getPacket_some bounds found]
    refine ⟨Nat.le_add_right _ _, ?_⟩
    rintro position ⟨start, pointed, behind, before⟩
    obtain rfl := Option.some.inj pointed
    exact ⟨behind, before⟩

/-- The id returned with a frame is the one that stands in the buffer behind its length. -/
theorem getPacket_packetId {user : User} (bounds : user.InBounds) {frame : List UInt8}
    (found : packetFraming.next? user.unread = some frame) :
    user.getPacket.1.packetId = headerId user.unread := by
  have long : packetHeaderLength ≤ user.unread.length := (Framing.next?_eq_some_iff.mp found).1
  simp only [packetHeaderLength] at long
  rw [User.getPacket_some bounds found]
  simp only [headerId, packetId, uint16At]
  rw [User.header_unread (by omega), User.header_unread (by omega)]

section

variable {user : User} (bounds : user.InBounds)
include bounds

theorem after_inBounds (calls : ℕ) : (after user calls).InBounds := by
  induction calls with
  | zero => exact bounds
  | succ calls ih =>
    rw [after_succ]
    exact User.getPacket_inBounds ih

theorem after_unread (calls : ℕ) : (after user calls).unread = packetFraming.rest^[calls] user.unread := by
  induction calls with
  | zero => rfl
  | succ calls ih =>
    rw [after_succ, getPacket_unread (after_inBounds bounds calls), ih, Function.iterate_succ_apply']

/-- A call that finds no complete frame, or an empty one, leaves the buffer as it is, and so do all after it. -/
theorem after_stuck {calls : ℕ} (stuck : packetFraming.rest (after user calls).unread = (after user calls).unread)
    (later : ℕ) : (after user (calls + later)).unread = (after user calls).unread := by
  induction later with
  | zero => rfl
  | succ later ih =>
    rw [← Nat.add_assoc, after_succ, getPacket_unread (after_inBounds bounds _), ih, stuck]

theorem after_rPos_mono {first second : ℕ} (order : first ≤ second) :
    (after user first).mPakcetDataBufferRPos ≤ (after user second).mPakcetDataBufferRPos := by
  induction second, order using Nat.le_induction with
  | base => exact Nat.le_refl _
  | succ second _ ih =>
    rw [after_succ]
    exact ih.trans (getPacket_rPos (after_inBounds bounds second)).1

/-- No byte is delivered twice, whatever the headers declare. -/
theorem delivers_once (first second : ℕ) (order : first < second) (position : ℕ) :
    ¬ (Delivers (after user first) position ∧ Delivers (after user second) position) := by
  rintro ⟨early, late⟩
  have before := ((getPacket_rPos (after_inBounds bounds first)).2 position early).2
  have behind := ((getPacket_rPos (after_inBounds bounds second)).2 position late).1
  rw [← after_succ] at before
  have moved : _ ≤ (after user second).mPakcetDataBufferRPos :=
    after_rPos_mono bounds (show first + 1 ≤ second from order)
  omega

/-- An empty frame is found again by every later call. -/
theorem nonempty_of_ends (ends : ∃ calls, packetFraming.next? (after user calls).unread = none)
    {calls : ℕ} {frame : List UInt8} (found : packetFraming.next? (after user calls).unread = some frame) :
    0 < frame.length := by
  obtain ⟨last, waiting⟩ := ends
  rcases Nat.le_total last calls with early | late
  · -- Where no frame is complete, none is complete later.
    obtain ⟨more, rfl⟩ := Nat.exists_eq_add_of_le early
    rw [after_stuck bounds (Framing.rest_of_none waiting), waiting] at found
    cases found
  · obtain ⟨more, rfl⟩ := Nat.exists_eq_add_of_le late
    by_contra empty
    have same : packetFraming.rest (after user calls).unread = (after user calls).unread := by
      rw [Framing.rest_of_some found, Nat.eq_zero_of_not_pos empty, List.drop_zero]
    rw [after_stuck bounds same, found] at waiting
    cases waiting

end

/-- From any content of the packet buffer, repeated reads advance by a header with every id, deliver no byte
twice and end with less than one complete frame unread if and only if no complete frame that the length fields
cut off declares less than its header, or declares nothing if it has no id. -/
theorem progresses_iff_wellHeaded {user : User} (bounds : user.InBounds) :
    Progresses user ↔ WellHeaded user.unread := by
  constructor
  · rintro ⟨advances, -, ends⟩ calls frame found
    rw [← after_unread bounds] at found ⊢
    have id := getPacket_packetId (after_inBounds bounds calls) found
    by_cases anonymous : headerId (after user calls).unread = 0
    · exact Or.inr ⟨anonymous, nonempty_of_ends bounds ends found⟩
    · have moved := advances calls (id ▸ anonymous)
      rw [User.getPacket_some (after_inBounds bounds calls) found] at moved
      exact Or.inl (Nat.le_of_add_le_add_left moved)
  · intro headed
    refine ⟨fun calls identified => ?_, delivers_once bounds, ?_⟩
    · cases found : packetFraming.next? (after user calls).unread with
      | none =>
        rw [User.getPacket_none (after_inBounds bounds calls) found] at identified
        exact absurd rfl identified
      | some frame =>
        rw [getPacket_packetId (after_inBounds bounds calls) found] at identified
        have header := headed calls frame (after_unread bounds calls ▸ found)
        rw [← after_unread bounds] at header
        have long := header.resolve_right fun short => identified short.1
        rw [User.getPacket_some (after_inBounds bounds calls) found]
        exact Nat.add_le_add_left long _
    · obtain ⟨taken, waiting⟩ := Framing.exists_rest_waiting user.unread fun taken frame found =>
        (headed taken frame found).elim (Nat.lt_of_lt_of_le (by decide)) fun short => short.2
      exact ⟨taken, (after_unread bounds taken).symm ▸ waiting⟩

/-- A buffer that holds one header of a frame of length 0 with id 1. -/
def emptyFrameUser : User := (User.init 0 fun _ => 0).setPacketData [0, 0, 1, 0, 0]

/-- Its packet has an id and does not move the read position. -/
theorem progresses_empty_frame : emptyFrameUser.InBounds ∧ ¬ Progresses emptyFrameUser := by
  refine ⟨by decide +kernel, fun progresses => ?_⟩
  have moved := progresses.advances 0
  revert moved
  decide +kernel

/-- A frame of 6 bytes and the start of another. -/
theorem progresses_iff_wellHeaded_two :
    ((User.init 0 fun _ => 0).setPacketData [6, 0, 21, 0, 0, 7, 5, 0]).InBounds ∧
      (Progresses ((User.init 0 fun _ => 0).setPacketData [6, 0, 21, 0, 0, 7, 5, 0]) ↔
        WellHeaded ((User.init 0 fun _ => 0).setPacketData [6, 0, 21, 0, 0, 7, 5, 0]).unread) :=
  have bounds : ((User.init 0 fun _ => 0).setPacketData [6, 0, 21, 0, 0, 7, 5, 0]).InBounds := by decide +kernel
  ⟨bounds, progresses_iff_wellHeaded bounds⟩

end CppRedis.Soundness.PacketStream
