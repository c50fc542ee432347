import CppRedis.Machine.Framing
import CppRedis.Machine.Run
import CppRedis.Model.Client.MainForm

/-! # The test client's inner receive loop

The loop cuts the unread bytes by a signed 16-bit length without a lower bound. A negative length makes
`Read` throw, a length of 1 to 4 makes the copy of the body throw, and a length of 0 ends the loop in front of
the same header every time. The loop makes progress exactly when every header it comes to declares a header's
length at least.
-/

namespace CppRedis.Soundness.ReceiveLoop

open Machine Model.Client

/-- The frames of the client: a length that is not positive declares nothing. -/
def clientFraming : Framing UInt8 where
  header := packetHeaderSize
  declared bytes := (toInt16 (ofList bytes) 0).toNat
  declared_take bytes long := by
    simp only [packetHeaderSize] at long ⊢
    have front (index : ℕ) (inside : index < 5) : ofList (bytes.take 5) index = ofList bytes index := by
      simp only [ofList, List.getElem?_take_of_lt inside]
    rw [toInt16_congr (front 0 (by omega)) (front 1 (by omega))]

/-- The buffer once a receive has been written, which the inner loop starts from. -/
def written (form : MainForm) (receive : Receive) : PacketBufferManager :=
  (form.packetBuffer.write (some receive.readBuffer) 0 receive.bytes.length).2

/-- The buffers at the start of the iterations of the inner loop. -/
inductive Reached (source : PacketBufferManager) : PacketBufferManager → Prop where
  | start : Reached source source
  | next {manager next : PacketBufferManager} {data : ArraySegment}
      (reached : Reached source manager)
      (found : manager.read = some (data, next))
      (nonempty : 1 ≤ data.count)
      (made : (packetOf next.packetData data).isSome) : Reached source next

/-- What an iteration should do: throw nothing, and consume a header at least or end with less than one
complete frame unread. -/
def Iterates (manager : PacketBufferManager) : Prop :=
  ∃ data next, manager.read = some (data, next) ∧
    if data.count < 1 then clientFraming.next? next.unread = none
    else (packetOf next.packetData data).isSome ∧ manager.readPos + packetHeaderSize ≤ next.readPos

/-- All iterations of one receive do so, and the thread goes on. -/
structure Sound (form : MainForm) (receive : Receive) : Prop where
  iterates : ∀ manager, Reached (written form receive) manager → Iterates manager
  running : (form.networkReadProcess receive).stopped = form.stopped

/-- Every header met when the bytes are cut by their length fields declares a header's length at least. -/
def WellHeaded (bytes : List UInt8) : Prop :=
  ∀ taken, packetHeaderSize ≤ (clientFraming.rest^[taken] bytes).length →
    packetHeaderSize ≤ clientFraming.declared (clientFraming.rest^[taken] bytes)

/-- The bytes the loop has at hand: those unread, and those of the receive if the write takes them. -/
def pending (form : MainForm) (receive : Receive) : List UInt8 :=
  form.packetBuffer.unread ++ if form.writes receive = true then receive.bytes else []

/-- The length that `Read` finds is the one at the front of the unread bytes. -/
theorem declared_unread {manager : PacketBufferManager} (long : packetHeaderSize ≤ manager.unread.length) :
    clientFraming.declared manager.unread = (toInt16 manager.packetData manager.readPos).toNat := by
  rw [PacketBufferManager.unread_length] at long
  simp only [packetHeaderSize] at long
  have same : toInt16 (ofList manager.unread) 0 = toInt16 manager.packetData manager.readPos := by
    apply toInt16_congr
    · exact ofList_read _ (by omega)
    · exact ofList_read _ (by omega)
  exact congrArg Int.toNat same

section Iteration

variable {manager : PacketBufferManager} (header : manager.headerSize = packetHeaderSize)
include header

/-- Without a complete frame nothing is read. -/
theorem read_of_waiting (waiting : clientFraming.next? manager.unread = none) :
    manager.read = some ({}, manager) := by
  apply manager.read_of_short
  rw [header, ← PacketBufferManager.unread_length]
  by_cases long : packetHeaderSize ≤ manager.unread.length
  · have short : ¬ clientFraming.declared manager.unread ≤ manager.unread.length := fun complete =>
      Option.some_ne_none _ ((Framing.next?_eq_some_iff.mpr ⟨long, complete, rfl⟩).symm.trans waiting)
    rw [declared_unread long] at short
    exact Or.inr (by omega)
  · exact Or.inl (Nat.lt_of_not_le long)

/-- A complete frame that is not empty is read. -/
theorem read_of_frame {frame : List UInt8} (found : clientFraming.next? manager.unread = some frame)
    (nonempty : 0 < frame.length) :
    ∃ available, manager.read =
      some ({ offset := manager.readPos, count := frame.length }, manager.advance frame.length available) := by
  have long : packetHeaderSize ≤ manager.unread.length := (Framing.next?_eq_some_iff.mp found).1
  have ⟨declared, bound⟩ := Framing.length_of_next? found
  rw [declared_unread long] at declared
  rw [PacketBufferManager.unread_length] at long bound
  exact ⟨bound, manager.read_of_available (by omega) (by omega) bound⟩

/-- At an empty frame, or at one of negative length, an iteration throws or ends in front of it. -/
theorem not_iterates_of_empty {frame : List UInt8} (found : clientFraming.next? manager.unread = some frame)
    (empty : frame.length = 0) : ¬ Iterates manager := by
  rintro ⟨data, next, returned, outcome⟩
  have long : packetHeaderSize ≤ manager.unread.length := (Framing.next?_eq_some_iff.mp found).1
  have declared := (Framing.length_of_next? found).1
  rw [declared_unread long] at declared
  have length := manager.unread_length
  by_cases negative : toInt16 manager.packetData manager.readPos < 0
  · have threw : manager.read = none := by
      simp only [PacketBufferManager.read]
      rw [if_neg (by omega), dif_neg (by omega), if_pos negative]
    rw [threw] at returned
    cases returned
  · have stays := manager.read_of_available (by omega) (by omega : toInt16 _ _ = (0 : ℕ)) (Nat.zero_le _)
    obtain ⟨rfl, rfl⟩ := Prod.mk.inj (Option.some.inj (stays.symm.trans returned))
    rw [if_pos Nat.one_pos] at outcome
    exact Option.some_ne_none _ (found.symm.trans outcome)

/-- One iteration is as it should be if and only if the header at the front, if it is there, declares a header's
length at least. -/
theorem iterates_iff :
    Iterates manager ↔
      (packetHeaderSize ≤ manager.unread.length → packetHeaderSize ≤ clientFraming.declared manager.unread) := by
  constructor
  · intro iterates long
    by_contra small
    have complete : clientFraming.declared manager.unread ≤ manager.unread.length := by omega
    obtain ⟨frame, found⟩ : ∃ frame, clientFraming.next? manager.unread = some frame :=
      ⟨_, Framing.next?_eq_some_iff.mpr ⟨long, complete, rfl⟩⟩
    have declared := (Framing.length_of_next? found).1
    rcases Nat.eq_zero_or_pos frame.length with empty | nonempty
    · exact not_iterates_of_empty header found empty iterates
    · obtain ⟨available, read⟩ := read_of_frame header found nonempty
      obtain ⟨data, next, returned, outcome⟩ := iterates
      obtain ⟨rfl, rfl⟩ := Prod.mk.inj (Option.some.inj (read.symm.trans returned))
      rw [if_neg (by dsimp only; omega)] at outcome
      have threw : packetOf (manager.advance frame.length available).packetData
          { offset := manager.readPos, count := frame.length } = none := if_pos (by dsimp only; omega)
      rw [threw] at outcome
      exact Bool.false_ne_true outcome.1
  · intro headed
    cases found : clientFraming.next? manager.unread with
    | none =>
      refine ⟨_, _, read_of_waiting header found, ?_⟩
      rw [if_pos Nat.one_pos]
      exact found
    | some frame =>
      have size := headed (Framing.next?_eq_some_iff.mp found).1
      rw [← (Framing.length_of_next? found).1] at size
      obtain ⟨available, read⟩ := read_of_frame header found (Nat.lt_of_lt_of_le (by decide) size)
      refine ⟨_, _, read, ?_⟩
      rw [if_neg (Nat.not_lt.mpr (Nat.le_trans (by decide) size))]
      refine ⟨?_, Nat.add_le_add_left size _⟩
      simp only [packetOf]
      rw [if_neg (Nat.not_lt.mpr size)]
      rfl

end Iteration

theorem WellHeaded.rest {bytes : List UInt8} (headed : WellHeaded bytes) :
    WellHeaded (clientFraming.rest bytes) := fun taken => headed (taken + 1)

section Loop

variable {source : PacketBufferManager} (header : source.headerSize = packetHeaderSize)
include header

/-- As long as the iterations are as they should be, the loop cuts off one frame after the other. -/
theorem reached_of_iterates (iterates : ∀ manager, Reached source manager → Iterates manager) (taken : ℕ) :
    ∃ manager, Reached source manager ∧ manager.headerSize = packetHeaderSize ∧
      manager.unread = clientFraming.rest^[taken] source.unread := by
  induction taken with
  | zero => exact ⟨source, .start, header, rfl⟩
  | succ taken ih =>
    obtain ⟨manager, reached, size, unread⟩ := ih
    rw [Function.iterate_succ_apply', ← unread]
    cases found : clientFraming.next? manager.unread with
    | none => exact ⟨manager, reached, size, (Framing.rest_of_none found).symm⟩
    | some frame =>
      have headed := (iterates_iff size).mp (iterates manager reached) (Framing.next?_eq_some_iff.mp found).1
      rw [← (Framing.length_of_next? found).1] at headed
      have nonempty : 0 < frame.length := Nat.lt_of_lt_of_le (by decide) headed
      obtain ⟨available, read⟩ := read_of_frame size found nonempty
      have made : (packetOf (manager.advance frame.length available).packetData
          { offset := manager.readPos, count := frame.length }).isSome := by
        simp only [packetOf]
        rw [if_neg (Nat.not_lt.mpr headed)]
        rfl
      refine ⟨_, .next reached read nonempty made, size, ?_⟩
      rw [(manager.advance_spec available).2.2.2.2, Framing.rest_of_some found]

/-- From well-headed bytes the loop comes to well-headed bytes only. -/
theorem wellHeaded_reached (headed : WellHeaded source.unread) {manager : PacketBufferManager}
    (reached : Reached source manager) :
    manager.headerSize = packetHeaderSize ∧ WellHeaded manager.unread := by
  induction reached with
  | start => exact ⟨header, headed⟩
  | @next manager next data _ found nonempty _ ih =>
    obtain ⟨size, here⟩ := ih
    cases cut : clientFraming.next? manager.unread with
    | none =>
      obtain ⟨rfl, -⟩ := Prod.mk.inj (Option.some.inj ((read_of_waiting size cut).symm.trans found))
      exact absurd nonempty (Nat.not_succ_le_zero 0)
    | some frame =>
      have long := here 0 (Framing.next?_eq_some_iff.mp cut).1
      rw [Function.iterate_zero_apply, ← (Framing.length_of_next? cut).1] at long
      obtain ⟨available, read⟩ := read_of_frame size cut (Nat.lt_of_lt_of_le (by decide) long)
      obtain ⟨-, rfl⟩ := Prod.mk.inj (Option.some.inj (read.symm.trans found))
      refine ⟨size, ?_⟩
      rw [(manager.advance_spec available).2.2.2.2, ← Framing.rest_of_some cut]
      exact here.rest

theorem iterates_iff_wellHeaded :
    (∀ manager, Reached source manager → Iterates manager) ↔ WellHeaded source.unread := by
  constructor
  · intro iterates taken long
    obtain ⟨manager, reached, size, unread⟩ := reached_of_iterates header iterates taken
    rw [← unread] at long ⊢
    exact (iterates_iff size).mp (iterates manager reached) long
  · intro headed manager reached
    obtain ⟨size, here⟩ := wellHeaded_reached header headed reached
    exact (iterates_iff size).mpr (here 0)

end Loop

/-- A loop whose iterations are as they should be does not end the thread. -/
theorem readPackets_running (form : MainForm)
    (iterates : ∀ manager, Reached form.packetBuffer manager → Iterates manager) :
    form.readPackets.stopped = form.stopped := by
  fun_induction MainForm.readPackets form with
  | case1 form threw =>
    obtain ⟨data, next, found, -⟩ := iterates _ .start
    rw [threw] at found
    cases found
  | case2 form data next found short => rfl
  | case3 form data next found nonempty threw =>
    obtain ⟨also, after, read, outcome⟩ := iterates _ .start
    obtain ⟨rfl, rfl⟩ := Prod.mk.inj (Option.some.inj (found.symm.trans read))
    rw [if_neg nonempty, threw] at outcome
    exact absurd outcome.1 Bool.false_ne_true
  | case4 form data next found nonempty packet made ih =>
    refine (ih ?_).trans rfl
    have first : Reached form.packetBuffer next :=
      .next .start found (Nat.le_of_not_lt nonempty) (made ▸ rfl)
    intro manager reached
    refine iterates manager ?_
    induction reached with
    | start => exact first
    | next _ read nonempty made earlier => exact .next earlier read nonempty made

theorem readBuffer_long (receive : Receive) : receive.bytes.length ≤ receive.readBuffer.length := by
  rw [Receive.readBuffer, List.length_append]
  exact Nat.le_add_right _ _

/-- The bytes the loop starts from are those pending. -/
theorem written_spec (form : MainForm) (receive : Receive) :
    (written form receive).unread = pending form receive ∧
      (written form receive).headerSize = form.packetBuffer.headerSize := by
  simp only [pending, written]
  by_cases fits : receive.bytes.length ≤ form.packetBuffer.bufferSize - form.packetBuffer.writePos
  · obtain ⟨accepted, appended, layout, -⟩ := form.packetBuffer.write_spec (readBuffer_long receive) fits
    have taken : form.writes receive = true := accepted
    rw [if_pos taken, appended, Receive.readBuffer, List.take_left]
    exact ⟨rfl, layout.2.1⟩
  · have full := @PacketBufferManager.write_full form.packetBuffer receive.readBuffer receive.bytes.length (by omega)
    have refused : ¬ form.writes receive = true := by
      simp only [MainForm.writes]
      rw [full]
      exact Bool.false_ne_true
    rw [if_neg refused, full, List.append_nil]
    exact ⟨rfl, rfl⟩

theorem readPackets_headerSize (form : MainForm) :
    form.readPackets.packetBuffer.headerSize = form.packetBuffer.headerSize := by
  fun_induction MainForm.readPackets form with
  | case1 form threw => rfl
  | case2 form data next found short =>
    obtain ⟨available, rfl⟩ := form.packetBuffer.read_eq_some found
    rfl
  | case3 form data next found nonempty threw =>
    obtain ⟨available, rfl⟩ := form.packetBuffer.read_eq_some found
    rfl
  | case4 form data next found nonempty packet made ih =>
    obtain ⟨available, rfl⟩ := form.packetBuffer.read_eq_some found
    exact ih

theorem networkReadProcess_headerSize (form : MainForm) (receive : Receive) :
    (form.networkReadProcess receive).packetBuffer.headerSize = form.packetBuffer.headerSize := by
  simp only [MainForm.networkReadProcess]
  split_ifs
  · rfl
  · exact (readPackets_headerSize _).trans (written_spec form receive).2

/-- One receive is handled as it should be if and only if the pending bytes are well-headed. -/
theorem sound_iff {form : MainForm} {receive : Receive}
    (header : form.packetBuffer.headerSize = packetHeaderSize) :
    Sound form receive ↔ WellHeaded (pending form receive) := by
  have ⟨unread, size⟩ := written_spec form receive
  rw [← unread, ← iterates_iff_wellHeaded (size.trans header)]
  constructor
  · exact Sound.iterates
  · intro iterates
    refine ⟨iterates, ?_⟩
    simp only [MainForm.networkReadProcess]
    split_ifs
    · rfl
    · exact readPackets_running { form with packetBuffer := written form receive } iterates

/-- For every sequence of receives: all iterations of the inner loop throw nothing, and consume a header at
least or end with less than one complete frame unread, if and only if, at every receive, each header met when
the pending bytes are cut by their length fields declares a header's length at least. -/
theorem receives_sound_iff (receives : List Receive) :
    Along MainForm.networkReadProcess Sound MainForm.load receives ↔
      Along MainForm.networkReadProcess (fun form receive => WellHeaded (pending form receive)) MainForm.load
        receives :=
  along_congr (fun form => form.packetBuffer.headerSize = packetHeaderSize)
    (fun form receive header => (networkReadProcess_headerSize form receive).trans header)
    (fun _ _ header => sound_iff header) rfl receives

/-- A header of negative length. -/
def negativeReceive : Receive where
  bytes := [0, 128, 202, 0, 0]
  nonempty := by decide
  bounded := by decide

/-- `Read` throws at it, and the thread ends. -/
theorem receives_negative :
    ¬ Along MainForm.networkReadProcess Sound MainForm.load [negativeReceive] := by
  intro along
  have headed := (sound_iff rfl).mp along.1 0
  revert headed
  decide +kernel

end CppRedis.Soundness.ReceiveLoop
