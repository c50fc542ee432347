import CppRedis.Soundness.PacketBuffer

/-! # Reassembly of frames from chunks

Every receive queues the slot once and every dequeue takes at most one frame, so the number of frames
that can come out is bounded by the number of chunks, not by the number of frames that went in. The
packets handed out are exactly the frames sent when, at every point of the run, the frames still
incomplete there are at most as many as the dequeues still to come: those of the entries then queued
and those of the chunks still to be received.
-/

namespace CppRedis.Soundness.Reassembly

open Machine Model.GameServer PacketBuffer

/-- A frame a well-behaved client sends. -/
structure ClientFrame where
  bytes : List UInt8
  framed : packetFraming.IsFrame bytes
  bounded : bytes.length ≤ 8095
  client : PacketId.sysEnd.value < packetId (ofList bytes)

/-- What a frame looks like when it is handed out: its id and its bytes. -/
def ClientFrame.packet (frame : ClientFrame) : ℕ × List UInt8 :=
  (packetId (ofList frame.bytes), frame.bytes)

/-- The bytes a call brings in for a client. -/
def arrived (client : ℕ) : Op → List UInt8
  | .receive clientIndex chunk => if clientIndex = client then chunk.bytes else []
  | .deque => []

/-- All bytes received from a client. -/
def received (client : ℕ) (ops : List Op) : List UInt8 := ops.flatMap (arrived client)

/-- Whether a call is a receive for a client. -/
def isReceive (client : ℕ) : Op → Bool
  | .receive clientIndex _ => clientIndex == client
  | .deque => false

/-- The number of chunks received from a client. -/
def receives (client : ℕ) (ops : List Op) : ℕ := ops.countP (isReceive client)

/-- The packet of a client that a call hands out, with the bytes it points to. -/
def returned (client : ℕ) (manager : PacketManager) : Op → List (ℕ × List UInt8)
  | .receive _ _ => []
  | .deque =>
      match manager.dequePacketData.1.pDataPtr with
      | none => []
      | some position =>
          if manager.dequePacketData.1.clientIndex = client then
            [(manager.dequePacketData.1.packetId,
              (manager.user client).mPakcetDataBuffer.read position manager.dequePacketData.1.dataSize)]
          else []

/-- The queue of slots that a call leaves, as a function of the calls alone. -/
def queueStep (queue : List ℕ) : Op → List ℕ
  | .receive clientIndex _ => queue ++ [clientIndex]
  | .deque => queue.tail

/-- The dequeues still to come for a client: one for each of its entries in the queue and one for
each of its chunks to be received. -/
def dequeuesAhead (client : ℕ) (queue : List ℕ) (ops : List Op) : ℕ :=
  queue.count client + receives client ops

/-- At every point of the run, the frames not yet complete there are at most as many as the dequeues
still to come. The first argument is the queue and the second the number of bytes at hand. -/
def KeepsUp (client : ℕ) (queue : List ℕ) (backlog : ℕ) (frames : List (List UInt8)) (ops : List Op) :
    Prop :=
  ∀ first rest, ops = first ++ rest →
    frames.length ≤ Framing.completed frames (backlog + (received client first).length) +
      dequeuesAhead client (run queueStep queue first) rest

/-- What one call means for one client. -/
inductive Effect (client : ℕ) (manager : PacketManager) (op : Op) : Prop where
  /-- A chunk of the client is appended. -/
  | received
      (counted : isReceive client op = true)
      (silent : returned client manager op = [])
      (appended : ((step manager op).user client).unread =
        (manager.user client).unread ++ arrived client op)
      (queued : (queueStep manager.mInComingPacketUserIndex op).count client =
        manager.mInComingPacketUserIndex.count client + 1)
  /-- Another client is served, or nobody. -/
  | other
      (counted : isReceive client op = false)
      (silent : returned client manager op = [])
      (nothing : arrived client op = [])
      (same : (step manager op).user client = manager.user client)
      (queued : (queueStep manager.mInComingPacketUserIndex op).count client =
        manager.mInComingPacketUserIndex.count client)
  /-- An entry of the client is used up while its first frame is not complete. -/
  | waiting
      (counted : isReceive client op = false)
      (silent : returned client manager op = [])
      (nothing : arrived client op = [])
      (incomplete : packetFraming.next? (manager.user client).unread = none)
      (same : (step manager op).user client = manager.user client)
      (queued : manager.mInComingPacketUserIndex.count client =
        (queueStep manager.mInComingPacketUserIndex op).count client + 1)
  /-- The client's first frame is handed out. -/
  | framed (frame : List UInt8)
      (counted : isReceive client op = false)
      (found : packetFraming.next? (manager.user client).unread = some frame)
      (emitted : returned client manager op =
        [(packetId ((manager.user client).mPakcetDataBuffer.offset
          (manager.user client).mPakcetDataBufferRPos), frame)])
      (nothing : arrived client op = [])
      (consumed : ((step manager op).user client).unread = (manager.user client).unread.drop frame.length)
      (queued : manager.mInComingPacketUserIndex.count client =
        (queueStep manager.mInComingPacketUserIndex op).count client + 1)

theorem receive_effect (client : ℕ) (manager : PacketManager) (clientIndex : ℕ) (chunk : Chunk)
    (bounds : (manager.user client).InBounds) : Effect client manager (.receive clientIndex chunk) := by
  by_cases same : clientIndex = client
  · subst same
    refine .received (beq_self_eq_true _) rfl ?_ ?_
    · simp only [step, arrived, if_pos, PacketManager.user_receivePacketData_self]
      exact User.setPacketData_unread bounds (chunk_small chunk)
    · simp only [queueStep, List.count_append, List.count_singleton_self]
  · refine .other (beq_eq_false_iff_ne.mpr same) rfl (if_neg same) ?_ ?_
    · exact PacketManager.user_receivePacketData_other _ _ (Ne.symm same)
    · simp only [queueStep, List.count_append, List.count_singleton, beq_iff_eq, same, ↓reduceIte,
        Nat.add_zero]

/-- A dequeue of an entry of the client itself. -/
theorem deque_effect_self (client : ℕ) (manager : PacketManager) {rest : List ℕ}
    (bounds : (manager.user client).InBounds)
    (queued : manager.mInComingPacketUserIndex = client :: rest) : Effect client manager .deque := by
  have taken := PacketManager.dequePacketData_cons manager queued
  have next := PacketManager.user_dequePacketData manager client
  rw [queued, List.head?_cons, if_pos rfl] at next
  have used : manager.mInComingPacketUserIndex.count client =
      (queueStep manager.mInComingPacketUserIndex .deque).count client + 1 := by
    simp only [queueStep, queued, List.tail_cons, List.count_cons_self]
  cases found : packetFraming.next? (manager.user client).unread with
  | none =>
    rw [User.getPacket_none bounds found] at next taken
    refine .waiting rfl ?_ rfl found next used
    simp only [returned, taken]
  | some frame =>
    refine .framed frame rfl found ?_ rfl ?_ used
    · rw [User.getPacket_some bounds found] at taken
      simp only [returned, taken, if_pos, User.read_of_next? found]
    · change (manager.dequePacketData.2.user client).unread = _
      rw [next, User.getPacket_some bounds found]
      exact (User.consumed_spec bounds (Framing.length_of_next? found).2).2

/-- A dequeue of an entry of somebody else. -/
theorem deque_effect_other (client : ℕ) (manager : PacketManager) {userIndex : ℕ} {rest : List ℕ}
    (queued : manager.mInComingPacketUserIndex = userIndex :: rest) (different : userIndex ≠ client) :
    Effect client manager .deque := by
  have taken := PacketManager.dequePacketData_cons manager queued
  have next := PacketManager.user_dequePacketData manager client
  simp only [queued, List.head?_cons, Option.some.injEq, if_neg different] at next
  refine .other rfl ?_ rfl next ?_
  · simp only [returned, taken, different, ↓reduceIte]
    split <;> rfl
  · simp only [queueStep, queued, List.tail_cons, List.count_cons, beq_iff_eq, different, ↓reduceIte,
      Nat.add_zero]

theorem step_effect (client : ℕ) (manager : PacketManager) (op : Op)
    (bounds : (manager.user client).InBounds) : Effect client manager op := by
  cases op with
  | receive clientIndex chunk => exact receive_effect client manager clientIndex chunk bounds
  | deque =>
    cases queued : manager.mInComingPacketUserIndex with
    | nil =>
      have idle := PacketManager.dequePacketData_nil manager queued
      refine .other rfl ?_ rfl ?_ ?_
      · simp only [returned, idle]
      · simp only [step, idle]
      · simp only [queueStep, queued, List.tail_nil]
    | cons userIndex rest =>
      by_cases same : userIndex = client
      · exact deque_effect_self client manager bounds (same ▸ queued)
      · exact deque_effect_other client manager queued same

/-- The queue of the model is the one computed from the calls. -/
theorem step_queue (manager : PacketManager) (op : Op) :
    (step manager op).mInComingPacketUserIndex = queueStep manager.mInComingPacketUserIndex op := by
  cases op with
  | receive clientIndex chunk => rfl
  | deque =>
    cases queued : manager.mInComingPacketUserIndex with
    | nil => rw [step, PacketManager.dequePacketData_nil manager queued, queued]; rfl
    | cons userIndex rest => rw [step, PacketManager.dequePacketData_cons manager queued]; rfl

theorem run_queue (manager : PacketManager) (ops : List Op) :
    (run step manager ops).mInComingPacketUserIndex =
      run queueStep manager.mInComingPacketUserIndex ops := by
  induction ops generalizing manager with
  | nil => rfl
  | cons op rest ih => rw [run_cons, run_cons, ih, step_queue]

theorem received_cons (client : ℕ) (op : Op) (rest : List Op) :
    received client (op :: rest) = arrived client op ++ received client rest := List.flatMap_cons

/-- The condition on a run is the condition at its start and the condition on what follows. -/
theorem keepsUp_cons (client : ℕ) (queue : List ℕ) (backlog : ℕ) (frames : List (List UInt8)) (op : Op)
    (rest : List Op) :
    KeepsUp client queue backlog frames (op :: rest) ↔
      frames.length ≤ Framing.completed frames backlog + dequeuesAhead client queue (op :: rest) ∧
        KeepsUp client (queueStep queue op) (backlog + (arrived client op).length) frames rest := by
  constructor
  · intro keeps
    refine ⟨keeps [] (op :: rest) rfl, fun first later split => ?_⟩
    have bound := keeps (op :: first) later (congrArg (op :: ·) split)
    rwa [received_cons, List.length_append, ← Nat.add_assoc] at bound
  · rintro ⟨here, keeps⟩ first later split
    cases first with
    | nil => rw [split, List.nil_append] at here; exact here
    | cons head first =>
      obtain ⟨rfl, tails⟩ := List.cons.inj split
      have bound := keeps first later tails
      rwa [received_cons, List.length_append, ← Nat.add_assoc]

/-- The dequeues ahead, before and after one call. -/
theorem dequeuesAhead_step {client : ℕ} {queue : List ℕ} {op : Op} {rest : List Op} (used : ℕ)
    (counted : queue.count client + (if isReceive client op = true then 1 else 0) =
      (queueStep queue op).count client + used) :
    dequeuesAhead client queue (op :: rest) = dequeuesAhead client (queueStep queue op) rest + used := by
  simp only [dequeuesAhead, receives]
  rw [List.countP_cons]
  omega

/-- A frame that is complete at the start can be taken out of the condition. -/
theorem keepsUp_frame {client : ℕ} {queue : List ℕ} {backlog : ℕ} {frame : List UInt8}
    (complete : frame.length ≤ backlog) (frames : List (List UInt8)) (ops : List Op) :
    KeepsUp client queue backlog (frame :: frames) ops ↔
      KeepsUp client queue (backlog - frame.length) frames ops := by
  refine forall₃_congr fun first rest _ => ?_
  rw [Framing.completed_cons_of_le frames (by omega), List.length_cons,
    Nat.sub_add_comm complete]
  omega

/-- With enough dequeues ahead, the condition on a run is the one on what follows its first call. -/
theorem enough_keepsUp_cons (client : ℕ) (queue : List ℕ) (backlog : ℕ) (frames : List (List UInt8))
    (op : Op) (rest : List Op) :
    (frames.length ≤ dequeuesAhead client queue (op :: rest) ∧
        KeepsUp client queue backlog frames (op :: rest)) ↔
      frames.length ≤ dequeuesAhead client queue (op :: rest) ∧
        KeepsUp client (queueStep queue op) (backlog + (arrived client op).length) frames rest := by
  rw [keepsUp_cons]
  refine and_congr_right fun enough => and_iff_right ?_
  omega

/-- Before any call nothing is complete, so the condition on the run covers the number of dequeues. -/
theorem KeepsUp.enough {client : ℕ} {queue : List ℕ} {frames : List ClientFrame} {ops : List Op}
    (keeps : KeepsUp client queue 0 (frames.map ClientFrame.bytes) ops) :
    frames.length ≤ dequeuesAhead client queue ops := by
  have start := keeps [] ops rfl
  cases frames with
  | nil => exact Nat.zero_le _
  | cons frame rest =>
    have header : packetHeaderLength ≤ frame.bytes.length := frame.framed.1
    simp only [packetHeaderLength] at header
    rw [List.map_cons, Framing.completed_cons_of_lt _ (by change 0 + 0 < _; omega), Nat.zero_add] at start
    simpa only [List.length_cons, List.length_map, run_nil] using start

/-- Once the frame at the front is known to be incomplete, none is complete. -/
theorem completed_of_waiting {bytes rest : List UInt8} {frames : List ClientFrame}
    (incomplete : packetFraming.next? bytes = none)
    (sent : bytes ++ rest = (frames.map ClientFrame.bytes).flatten) :
    Framing.completed (frames.map ClientFrame.bytes) bytes.length = 0 := by
  cases frames with
  | nil => rfl
  | cons frame later =>
    apply Framing.completed_cons_of_lt
    rw [frame.framed.next?_of_prefix sent] at incomplete
    exact Nat.lt_of_not_le fun complete => by rw [if_pos complete] at incomplete; cases incomplete

/-- A complete frame at the front is the first of those not handed out yet. -/
theorem exists_cons_of_found {bytes rest frame : List UInt8} {frames : List ClientFrame}
    (found : packetFraming.next? bytes = some frame)
    (sent : bytes ++ rest = (frames.map ClientFrame.bytes).flatten) :
    ∃ first later, frames = first :: later ∧ first.bytes = frame ∧
      bytes.drop frame.length ++ rest = (later.map ClientFrame.bytes).flatten := by
  cases frames with
  | nil =>
    obtain ⟨long, -⟩ := Framing.next?_eq_some_iff.mp found
    obtain ⟨rfl, -⟩ := List.append_eq_nil_iff.mp sent
    exact absurd long (by decide)
  | cons first later =>
    rw [first.framed.next?_of_prefix sent, Option.ite_none_right_eq_some] at found
    obtain ⟨complete, same⟩ := found
    obtain rfl := Option.some.inj same
    refine ⟨first, later, rfl, rfl, ?_⟩
    rw [← List.drop_append_of_le_length complete, sent, List.map_cons, List.flatten_cons, List.drop_left]

/-- The remaining frames come out exactly when there are enough dequeues for them and each comes
late enough. The induction is on the calls; `frames` are those not handed out yet. -/
theorem outputs_eq_iff (client : ℕ) (manager : PacketManager) (frames : List ClientFrame) (ops : List Op)
    (bounds : Always step (fun manager => (manager.user client).InBounds) manager ops)
    (sent : (manager.user client).unread ++ received client ops =
      (frames.map ClientFrame.bytes).flatten)
    (drained : run queueStep manager.mInComingPacketUserIndex ops = []) :
    outputs step (returned client) manager ops = frames.map ClientFrame.packet ↔
      (frames.map ClientFrame.bytes).length ≤
          dequeuesAhead client manager.mInComingPacketUserIndex ops ∧
        KeepsUp client manager.mInComingPacketUserIndex (manager.user client).unread.length
          (frames.map ClientFrame.bytes) ops := by
  induction ops generalizing manager frames with
  | nil =>
    rw [run_nil] at drained
    rw [drained]
    constructor
    · intro none
      obtain rfl := List.map_eq_nil_iff.mp none.symm
      exact ⟨Nat.le_refl 0, fun _ _ _ => Nat.zero_le _⟩
    · rintro ⟨enough, -⟩
      obtain rfl := List.map_eq_nil_iff.mp (List.eq_nil_of_length_eq_zero (Nat.le_zero.mp enough))
      rfl
  | cons op rest ih =>
    rw [received_cons] at sent
    rw [run_cons, ← step_queue] at drained
    rw [enough_keepsUp_cons]
    cases step_effect client manager op bounds.head with
    | received counted silent appended queued =>
      have next := ih (step manager op) frames bounds.2 (by rwa [appended, List.append_assoc]) drained
      rw [outputs, silent, List.nil_append, next, appended, List.length_append, step_queue,
        dequeuesAhead_step 0 (by rw [counted, queued]; rfl), Nat.add_zero]
    | other counted silent nothing same queued =>
      rw [nothing, List.nil_append] at sent
      have next := ih (step manager op) frames bounds.2 (by rwa [same]) drained
      rw [outputs, silent, List.nil_append, next, nothing, same, step_queue,
        dequeuesAhead_step 0 (by rw [counted, queued]; rfl)]
      rfl
    | waiting counted silent nothing incomplete same queued =>
      rw [nothing, List.nil_append] at sent
      have next := ih (step manager op) frames bounds.2 (by rwa [same]) drained
      rw [outputs, silent, List.nil_append, next, nothing, same, step_queue,
        dequeuesAhead_step 1 (by rw [counted, queued]; rfl)]
      refine and_congr_left fun keeps => ?_
      -- The entry is gone and the frame it was for is still incomplete.
      have here := keeps [] rest rfl
      have zero := completed_of_waiting incomplete sent
      change _ ≤ Framing.completed _ (manager.user client).unread.length + _ at here
      rw [zero, Nat.zero_add] at here
      exact iff_of_true here (Nat.le_succ_of_le here)
    | framed frame counted found emitted nothing consumed queued =>
      rw [nothing, List.nil_append] at sent
      obtain ⟨first, later, rfl, rfl, remaining⟩ := exists_cons_of_found found sent
      have next := ih (step manager op) later bounds.2 (by rwa [consumed]) drained
      have complete := (Framing.length_of_next? found).2
      have packet : returned client manager op = [first.packet] := by
        rw [emitted, User.packetId_of_next? found first.framed.1, ClientFrame.packet]
      rw [outputs, packet, List.singleton_append, List.map_cons, List.cons.injEq, and_iff_right rfl, next,
        consumed, List.length_drop, step_queue]
      rw [nothing, List.length_nil, Nat.add_zero (List.length _), List.map_cons, keepsUp_frame complete,
        dequeuesAhead_step 1 (by rw [counted, queued]; rfl), List.length_cons, Nat.add_le_add_iff_right]

/-- A backlog below the size of the buffer keeps the positions inside it. -/
theorem bounds_of_backlog (client : ℕ) (manager : PacketManager) (ops : List Op)
    (bounds : (manager.user client).InBounds)
    (backlog : Always step (fun manager => (manager.user client).unread.length ≤ 8095) manager ops) :
    Always step (fun manager => (manager.user client).InBounds) manager ops := by
  induction ops generalizing manager with
  | nil => exact bounds
  | cons op rest ih =>
    refine ⟨bounds, ih _ ((step_inBounds_iff client manager op bounds).mpr ?_) backlog.2⟩
    have later := backlog.2.head
    cases op with
    | deque => trivial
    | receive clientIndex chunk =>
      rintro rfl
      simp only [step, PacketManager.user_receivePacketData_self,
        User.setPacketData_unread bounds (chunk_small chunk), List.length_append] at later
      simp only [packetDataBufferSize]
      omega

/-- Every byte received is handed out in a frame or still unread. -/
theorem unread_run (client : ℕ) (manager : PacketManager) (ops : List Op)
    (bounds : Always step (fun manager => (manager.user client).InBounds) manager ops) :
    (manager.user client).unread ++ received client ops =
      ((outputs step (returned client) manager ops).map Prod.snd).flatten ++
        ((run step manager ops).user client).unread := by
  induction ops generalizing manager with
  | nil => exact List.append_nil _
  | cons op rest ih =>
    have later := ih (step manager op) bounds.2
    rw [received_cons, outputs, List.map_append, List.flatten_append, List.append_assoc, run_cons, ← later]
    cases step_effect client manager op bounds.head with
    | received counted silent appended queued => rw [silent, appended, List.append_assoc]; rfl
    | other counted silent nothing same queued => rw [silent, nothing, same]; rfl
    | waiting counted silent nothing incomplete same queued => rw [silent, nothing, same]; rfl
    | framed frame counted found emitted nothing consumed queued =>
      have whole : frame ++ (manager.user client).unread.drop frame.length = (manager.user client).unread := by
        conv_rhs => rw [← List.take_append_drop frame.length (manager.user client).unread,
          Framing.take_of_next? found]
      rw [emitted, nothing, consumed, List.map_singleton, List.flatten_singleton, List.nil_append,
        ← List.append_assoc, whole]

/-- For every sequence of client frames, however it is cut into chunks and interleaved with the
dequeues, as long as the backlog stays below the buffer size and the queue ends up empty: the
packets handed out are the frames sent, and none is left, if and only if the dequeues keep up. -/
theorem reassembly_iff_keepsUp (maxClient : ℕ) (allocated : ℕ → Bytes) (client : ℕ)
    (frames : List ClientFrame) (ops : List Op)
    (sent : received client ops = (frames.map ClientFrame.bytes).flatten)
    (backlog : Always step (fun manager => (manager.user client).unread.length ≤ 8095)
      (PacketManager.init maxClient allocated) ops)
    (drained : (run step (PacketManager.init maxClient allocated) ops).mInComingPacketUserIndex = []) :
    (outputs step (returned client) (PacketManager.init maxClient allocated) ops =
          frames.map ClientFrame.packet ∧
        packetFraming.next?
          ((run step (PacketManager.init maxClient allocated) ops).user client).unread = none) ↔
      KeepsUp client [] 0 (frames.map ClientFrame.bytes) ops := by
  set source := PacketManager.init maxClient allocated with start
  have bounds := bounds_of_backlog client source ops (User.init_inBounds _ _) backlog
  have emitted := outputs_eq_iff client source frames ops bounds sent (by rwa [← run_queue])
  constructor
  · rintro ⟨all, -⟩
    exact (emitted.mp all).2
  · intro keeps
    have all := emitted.mpr ⟨by rw [List.length_map]; exact keeps.enough, keeps⟩
    have split := unread_run client source ops bounds
    refine ⟨all, ?_⟩
    rw [all, List.map_map, show Prod.snd ∘ ClientFrame.packet = ClientFrame.bytes from rfl, ← sent] at split
    have empty : ((run step source ops).user client).unread = [] := List.self_eq_append_right.mp split
    rw [empty]
    rfl

/-- A leave request: five bytes, all of them header. -/
def leaveFrame : ClientFrame where
  bytes := [5, 0, 215, 0, 0]
  framed := by decide
  bounded := by decide
  client := by decide

/-- Two frames that arrive together. -/
def twoFrameChunk : Chunk where
  bytes := leaveFrame.bytes ++ leaveFrame.bytes
  nonempty := by decide
  bounded := by decide

/-- A piece of what a client sends. -/
def piece (bytes : List UInt8) (fits : 1 ≤ bytes.length ∧ bytes.length ≤ maxSockRecvbuf) : Chunk :=
    ⟨bytes, fits.1, fits.2⟩

/-- Three leave requests, cut in the middle of the first and of the second one, and one of another client. -/
def piecewise : List Op :=
  [.receive 0 (piece [5, 0, 215] (by decide)), .deque, .receive 0 (piece [0, 0, 5] (by decide)),
    .receive 1 (piece leaveFrame.bytes (by decide)), .deque, .receive 0 (piece [0, 215, 0, 0] (by decide)), .deque,
    .deque, .receive 0 (piece leaveFrame.bytes (by decide)), .deque]

/-- Every piece is dequeued in turn: the three packets come out. -/
theorem reassembly_piecewise :
    outputs step (returned 0) (PacketManager.init 3 fun _ _ => 0) piecewise =
        [leaveFrame.packet, leaveFrame.packet, leaveFrame.packet] ∧
      KeepsUp 0 [] 0 [leaveFrame.bytes, leaveFrame.bytes, leaveFrame.bytes] piecewise := by
  have packets : outputs step (returned 0) (PacketManager.init 3 fun _ _ => 0) piecewise =
      [leaveFrame.packet, leaveFrame.packet, leaveFrame.packet] := by decide +kernel
  refine ⟨packets, ?_⟩
  apply (reassembly_iff_keepsUp 3 (fun _ _ => 0) 0 [leaveFrame, leaveFrame, leaveFrame] _ _ _ _).mp
  · exact ⟨packets, by decide +kernel⟩
  · rfl
  · decide +kernel
  · decide +kernel

/-- Two frames in one chunk, and as many dequeues as there are entries in the queue: only one frame
is handed out, and the other stays in the buffer. -/
theorem reassembly_stuck :
    received 0 [.receive 0 twoFrameChunk, .deque] =
        ([leaveFrame, leaveFrame].map ClientFrame.bytes).flatten ∧
      Always step (fun manager => (manager.user 0).unread.length ≤ 8095)
        (PacketManager.init 3 fun _ _ => 0) [.receive 0 twoFrameChunk, .deque] ∧
      (run step (PacketManager.init 3 fun _ _ => 0)
        [.receive 0 twoFrameChunk, .deque]).mInComingPacketUserIndex = [] ∧
      ¬ (outputs step (returned 0) (PacketManager.init 3 fun _ _ => 0)
            [.receive 0 twoFrameChunk, .deque] = [leaveFrame, leaveFrame].map ClientFrame.packet ∧
          packetFraming.next? ((run step (PacketManager.init 3 fun _ _ => 0)
            [.receive 0 twoFrameChunk, .deque]).user 0).unread = none) := by
  refine ⟨rfl, ?_, ?_, ?_⟩ <;> decide +kernel

end CppRedis.Soundness.Reassembly
