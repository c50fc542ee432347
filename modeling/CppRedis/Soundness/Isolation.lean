import CppRedis.Soundness.Connections
import CppRedis.Soundness.Dispatch
import CppRedis.Soundness.Handling
import CppRedis.Soundness.Membership
import CppRedis.Soundness.PacketBuffer

/-! # Successive connections on one slot

Bytes go straight into the slot's buffer, while the notices that separate one connection from the next
go through the system queue. Bytes that arrive before the connect notice of their connection has been
processed are parsed too early or thrown away by it. If bytes are only appended for a connection in
service, when they fit, and not on top of a packet that is being handled, then every connection is
served from its own bytes, in order, after its own connect notice.
-/

namespace CppRedis.Soundness.Isolation

open Machine Model.GameServer Dispatch Connections

/-- Every packet dispatched is made of bytes of one connection whose connect notice was processed
before; no connect notice throws away bytes of its own connection; and the packets dispatched for a
connection are the frames of the bytes received on it, in order, from the first one on. -/
def Isolated (slot : Slot) : Prop :=
  (∀ dispatch ∈ slot.history.dispatches, WellSourced dispatch) ∧
  (∀ clear ∈ slot.history.clears, clear.1 ∉ clear.2) ∧
  ∀ connection, ∃ packets,
    packetFraming.Parses packetTag packets (slot.history.received connection) ∧
      dispatchedFor slot.history connection <+: packets.filter isDispatched

/-- The copies that `SetPacketData` makes for a chunk do not land on these cells. -/
def Spares (user : User) (chunk : Chunk) (position count : ℕ) : Prop :=
  if user.mPakcetDataBufferWPos + chunk.bytes.length < packetDataBufferSize then
    position + count ≤ user.mPakcetDataBufferWPos ∨
      user.mPakcetDataBufferWPos + chunk.bytes.length ≤ position
  else user.unread.length + chunk.bytes.length ≤ position

/-- Bytes are only received on a connection in service. They fit behind the unread ones, and they are
not copied over a packet of the slot that is being handled. -/
def Settled (client : ℕ) (slot : Slot) : SlotEvent → Prop
  | .receive connection chunk =>
      let user := slot.server.packetManager.user client
      InService slot.history connection ∧
        user.unread.length + chunk.bytes.length ≤ packetDataBufferSize ∧
        ∀ packetData, slot.server.packetThread = .processClient packetData →
          packetData.clientIndex = client →
          ∀ position ∈ packetData.pDataPtr, Spares user chunk position packetData.dataSize
  | _ => True

theorem read_setPacketData {user : User} (bounds : user.InBounds) {chunk : Chunk} {position count : ℕ}
    (spared : Spares user chunk position count) :
    (user.setPacketData chunk.bytes).mPakcetDataBuffer.read position count =
      user.mPakcetDataBuffer.read position count := by
  have small := bounds.small (PacketBuffer.chunk_small chunk)
  refine Handling.read_setPacketData (Handling.misses_of_disjoint ?_)
  simp only [Spares] at spared
  simp only [Handling.cellsWritten]
  rw [addUInt32_of_lt small]
  split_ifs with full
  · rw [if_neg (by omega)] at spared
    refine Or.inr ?_
    rwa [bounds.remain, Nat.zero_add]
  · rwa [if_pos (by omega)] at spared

/-- A system packet in the packet thread's hands. -/
def heldSystem : PacketThread → List PacketInfo
  | .processSystem packetData => [packetData]
  | _ => []

/-- The ids of the slot's system packets that are held or queued. -/
def notices (client : ℕ) (server : Server) : List ℕ :=
  ((heldSystem server.packetThread ++ server.packetManager.mSystemPacketQueue).filter
    fun packetData => packetData.clientIndex = client).map PacketInfo.packetId

theorem notices_congr {client : ℕ} {server other : Server}
    (held : heldSystem server.packetThread = heldSystem other.packetThread)
    (queued : server.packetManager.mSystemPacketQueue = other.packetManager.mSystemPacketQueue) :
    notices client server = notices client other := by
  simp only [notices]
  rw [held, queued]

/-- The slot's packet in the packet thread's hands, with the bytes its pointer leads to now. -/
def hand (client : ℕ) (server : Server) : Option (ℕ × List UInt8) :=
  match server.packetThread with
  | .processClient packetData =>
      if packetData.clientIndex = client then
        some (packetData.packetId, (server.packetManager.pointer packetData).read 0 packetData.dataSize)
      else none
  | _ => none

theorem hand_eq_none {client : ℕ} {server : Server}
    (away : ∀ packetData, server.packetThread = .processClient packetData → packetData.clientIndex ≠ client) :
    hand client server = none := by
  simp only [hand]
  split
  · next packetData thread => exact if_neg (away packetData thread)
  · rfl

theorem hand_congr {client : ℕ} {server other : Server}
    (thread : server.packetThread = other.packetThread)
    (user : server.packetManager.user client = other.packetManager.user client) :
    hand client server = hand client other := by
  simp only [hand]
  rw [thread]
  split
  · next packetData _ =>
    split_ifs with mine
    · simp only [PacketManager.pointer]
      rw [mine, user]
    · rfl
  · rfl

/-- The slot's part of the server and its history agree. -/
structure Inv (client : ℕ) (slot : Slot) : Prop where
  queues : Queues slot.server
  bounds : (slot.server.packetManager.user client).InBounds
  ledger : Ledger slot.history
  stream : Stream slot.history (slot.server.packetManager.user client).unread
  pending : slot.history.pending.map Notice.packetId = notices client slot.server
  handed : Handed slot.history (hand client slot.server)
  clears : ∀ clear ∈ slot.history.clears, clear.1 ∉ clear.2

theorem Inv.isolated {client : ℕ} {slot : Slot} (inv : Inv client slot) : Isolated slot := by
  refine ⟨inv.handed.sound, inv.clears, fun connection => ?_⟩
  exact ⟨slot.history.packets connection, inv.stream.parses connection, _, inv.handed.order connection⟩

theorem inv_init (client maxClient : ℕ) (allocated : ℕ → Bytes) :
    Inv client { server := Server.init maxClient allocated } where
  queues := queues_init maxClient allocated
  bounds := User.init_inBounds _ _
  ledger := Ledger.init
  stream := Stream.init
  pending := rfl
  handed := Handed.init
  clears := nofun

/-- A step that leaves the slot's buffer, its notices and its packet in hand alone. -/
theorem Inv.frame {client : ℕ} {slot : Slot} (inv : Inv client slot) {server : Server}
    (queues : Queues server)
    (same : (server.packetManager.user client).SameBuffer (slot.server.packetManager.user client))
    (sameNotices : notices client server = notices client slot.server)
    (sameHand : hand client server = hand client slot.server) : Inv client { slot with server := server } where
  queues := queues
  bounds := same.inBounds inv.bounds
  ledger := inv.ledger
  stream := same.unread.symm ▸ inv.stream
  pending := inv.pending.trans sameNotices.symm
  handed := sameHand.symm ▸ inv.handed
  clears := inv.clears

section steps

variable {client : ℕ} {slot : Slot}

/-- A worker's step that leaves the server alone and only makes or drops notices not raised yet. -/
theorem Inv.of_notices (inv : Inv client slot) {next : History} (ledger : Ledger next)
    (stream : Stream next (slot.server.packetManager.user client).unread)
    (pending : next.pending = slot.history.pending)
    (handed : Handed next (hand client slot.server)) (clears : next.clears = slot.history.clears) :
    Inv client { slot with history := next } where
  queues := inv.queues
  bounds := inv.bounds
  ledger := ledger
  stream := stream
  pending := pending ▸ inv.pending
  handed := handed
  clears := clears ▸ inv.clears

/-- A notice is queued behind those on their way. -/
theorem notices_push (server : Server) (packetId : ℕ) :
    notices client
        { server with
          packetManager := server.packetManager.pushSystemPacket { clientIndex := client, packetId } } =
      notices client server ++ [packetId] := by
  simp only [notices, PacketManager.pushSystemPacket]
  rw [← List.append_assoc, List.filter_append, List.map_append]
  congr 1
  simp only [List.filter_cons, List.filter_nil, decide_true, ↓reduceIte, List.map_cons, List.map_nil]

/-- `OnConnect` or `OnClose` is raised. -/
theorem Inv.raise (inv : Inv client slot) {server : Server} {notice : Notice}
    (waiting : notice ∈ slot.history.unraised) (queues : Queues server)
    (pushed : server = { slot.server with
      packetManager := slot.server.packetManager.pushSystemPacket
        { clientIndex := client, packetId := notice.packetId } }) :
    Inv client { server, history := slot.history.raise notice } := by
  subst pushed
  refine ⟨queues, inv.bounds, inv.ledger.raise waiting, inv.stream.raise waiting, ?_, ?_, inv.clears⟩
  · refine Eq.trans ?_ (notices_push _ _).symm
    rw [← inv.pending]
    exact List.map_append
  · exact ⟨inv.handed.order, inv.handed.whole, inv.handed.sound⟩

/-- A receive leaves the packet in hand as it was. -/
theorem hand_receive (redis : Model.RedisCpp.Server) {chunk : Chunk}
    (bounds : (slot.server.packetManager.user client).InBounds)
    (spared : ∀ packetData, slot.server.packetThread = .processClient packetData →
      packetData.clientIndex = client → ∀ position ∈ packetData.pDataPtr,
        Spares (slot.server.packetManager.user client) chunk position packetData.dataSize) :
    hand client (slot.server.step redis (.receive client chunk)) = hand client slot.server := by
  simp only [hand]
  change (match slot.server.packetThread with | .processClient packetData => _ | _ => _) = _
  cases thread : slot.server.packetThread with
  | processClient packetData =>
    dsimp only
    split_ifs with mine
    · have same : ((slot.server.packetManager.receivePacketData client chunk.bytes).pointer packetData).read
          0 packetData.dataSize = (slot.server.packetManager.pointer packetData).read 0 packetData.dataSize := by
        simp only [PacketManager.pointer]
        cases pointer : packetData.pDataPtr with
        | none => rfl
        | some position =>
          dsimp only
          rw [mine, PacketManager.user_receivePacketData_self, Memory.read_offset, Memory.read_offset]
          exact read_setPacketData bounds (spared packetData thread mine position pointer)
      exact congrArg (fun bytes => some (packetData.packetId, bytes)) same
    · rfl
  | _ => rfl

theorem Inv.receive (inv : Inv client slot) (redis : Model.RedisCpp.Server) {connection : ℕ} {chunk : Chunk}
    (settled : Settled client slot (.receive connection chunk)) :
    Inv client
      { server := slot.server.step redis (.receive client chunk)
        history := slot.history.receive connection chunk.bytes } := by
  obtain ⟨service, fits, spared⟩ := settled
  have small := PacketBuffer.chunk_small chunk
  have user : ((slot.server.step redis (.receive client chunk)).packetManager.user client) =
      (slot.server.packetManager.user client).setPacketData chunk.bytes :=
    PacketManager.user_receivePacketData_self ..
  refine ⟨inv.queues.step redis (.receive client chunk), ?_, ?_, ?_, inv.pending, ?_, inv.clears⟩
  · rw [user]
    exact (User.setPacketData_inBounds_iff inv.bounds small).mpr fits
  · exact ⟨inv.ledger.once, inv.ledger.bounded⟩
  · rw [user, User.setPacketData_unread inv.bounds small]
    exact inv.stream.receive inv.ledger service chunk.bytes
  · rw [hand_receive redis inv.bounds spared]
    exact ⟨inv.handed.order, inv.handed.whole, inv.handed.sound⟩

/-- The slot after a step of the packet thread. -/
def afterPacketThread (client : ℕ) (slot : Slot) (behind : Bytes) : Slot where
  server := slot.server.processPacket behind
  history := slot.history.packetThread client slot.server

theorem notices_dequePacketData (client : ℕ) {server : Server} (behind : Bytes)
    (thread : server.packetThread = .dequePacketData) :
    notices client (server.processPacket behind) = notices client server := by
  obtain ⟨users, rest, same⟩ := server.packetManager.dequePacketData_eq
  simp only [notices, Server.processPacket]
  rw [thread]
  dsimp only
  rw [same]
  split_ifs <;> rfl

theorem hand_dequePacketData (client : ℕ) {server : Server} (behind : Bytes)
    (thread : server.packetThread = .dequePacketData) :
    hand client (server.processPacket behind) =
      let packetData := server.packetManager.dequePacketData.1
      if packetData.packetId > PacketId.sysEnd.value ∧ packetData.clientIndex = client then
        some (packetData.packetId,
          ((server.processPacket behind).packetManager.pointer packetData).read 0 packetData.dataSize)
      else none := by
  unfold hand Server.processPacket
  rw [thread]
  dsimp only
  by_cases above : server.packetManager.dequePacketData.1.packetId > PacketId.sysEnd.value
  · simp only [above, ↓reduceIte, true_and]
  · simp only [above, ↓reduceIte, false_and]

theorem user_processPacket_dequePacketData {server : Server} (behind : Bytes)
    (thread : server.packetThread = .dequePacketData) :
    (server.processPacket behind).packetManager = server.packetManager.dequePacketData.2 := by
  unfold Server.processPacket
  rw [thread]

/-- The id handed out is read off the front of the unread bytes. -/
theorem packetTag_unread {user : User} {frame : List UInt8}
    (found : packetFraming.next? user.unread = some frame) :
    packetTag user.unread = packetId (user.mPakcetDataBuffer.offset user.mPakcetDataBufferRPos) := by
  have long : packetHeaderLength ≤ user.unread.length := (Framing.next?_eq_some_iff.mp found).1
  unfold packetHeaderLength at long
  simp only [packetTag, packetId, uint16At]
  rw [User.header_unread (by omega), User.header_unread (by omega)]

/-- `DequePacketData` on an entry of the slot takes a packet off its bytes or nothing. -/
theorem Inv.dequePacketData_self (inv : Inv client slot) (behind : Bytes)
    (thread : slot.server.packetThread = .dequePacketData) {rest : List ℕ}
    (queued : slot.server.packetManager.mInComingPacketUserIndex = client :: rest) :
    Inv client (afterPacketThread client slot behind) := by
  have queues := inv.queues.processPacket behind
  have idle : hand client slot.server = none := by
    unfold hand
    rw [thread]
  have sameNotices := notices_dequePacketData client behind thread
  have nowHand := hand_dequePacketData client behind thread
  have user : (slot.server.processPacket behind).packetManager.user client =
      (slot.server.packetManager.user client).getPacket.2 := by
    rw [user_processPacket_dequePacketData behind thread, PacketManager.user_dequePacketData, queued]
    exact if_pos rfl
  unfold afterPacketThread History.packetThread
  rw [thread]
  dsimp only
  rw [PacketManager.dequePacketData_cons _ queued] at nowHand
  dsimp only at nowHand
  rw [queued, if_pos List.head?_cons]
  cases found : packetFraming.next? (slot.server.packetManager.user client).unread with
  | none =>
    rw [User.getPacket_none inv.bounds found] at user nowHand ⊢
    refine inv.frame queues (user ▸ .refl _) sameNotices ?_
    rw [nowHand, idle]
    exact if_neg nofun
  | some frame =>
    have tag := packetTag_unread found
    have bytes := User.read_of_next? found
    have ⟨inside, rest⟩ := User.consumed_spec inv.bounds (Framing.length_of_next? found).2
    have handed := inv.handed
    rw [idle] at handed
    rw [User.getPacket_some inv.bounds found] at user nowHand ⊢
    dsimp only at nowHand ⊢
    rw [bytes, ← tag]
    refine ⟨queues, user ▸ inside, ?_, ?_, inv.pending.trans sameNotices.symm, ?_, inv.clears⟩
    · exact ⟨inv.ledger.once, inv.ledger.bounded⟩
    · rw [user, rest]
      exact inv.stream.take found
    · have shown : ((slot.server.processPacket behind).packetManager.pointer
          { clientIndex := client
            packetId := packetTag (slot.server.packetManager.user client).unread
            dataSize := frame.length
            pDataPtr := some (slot.server.packetManager.user client).mPakcetDataBufferRPos }).read
          0 frame.length = frame := by
        dsimp only [PacketManager.pointer]
        rw [user, Memory.read_offset]
        exact bytes
      rw [← tag, shown] at nowHand
      rw [nowHand]
      simpa only [isDispatched, decide_eq_true_eq, and_true] using handed.take inv.stream found

/-- Any other dequeue leaves the slot alone. -/
theorem Inv.dequePacketData_other (inv : Inv client slot) (behind : Bytes)
    (thread : slot.server.packetThread = .dequePacketData)
    (other : slot.server.packetManager.mInComingPacketUserIndex.head? ≠ some client) :
    Inv client (afterPacketThread client slot behind) := by
  have user : (slot.server.processPacket behind).packetManager.user client =
      slot.server.packetManager.user client := by
    rw [user_processPacket_dequePacketData behind thread, PacketManager.user_dequePacketData, if_neg other]
  unfold afterPacketThread History.packetThread
  rw [thread]
  dsimp only
  rw [if_neg other]
  refine inv.frame (inv.queues.processPacket behind) (user ▸ .refl _)
    (notices_dequePacketData client behind thread) ?_
  have idle : hand client slot.server = none := by
    simp only [hand]
    rw [thread]
  rw [hand_dequePacketData client behind thread, idle]
  apply if_neg
  cases queued : slot.server.packetManager.mInComingPacketUserIndex with
  | nil =>
    rw [PacketManager.dequePacketData_nil _ queued]
    exact nofun
  | cons userIndex rest =>
    rw [PacketManager.dequePacketData_cons _ queued]
    rintro ⟨-, mine⟩
    exact other (queued ▸ congrArg some mine)

/-- A client packet goes to its handler. -/
theorem Inv.processClient (inv : Inv client slot) (behind : Bytes) {packetData : PacketInfo}
    (thread : slot.server.packetThread = .processClient packetData) :
    Inv client (afterPacketThread client slot behind) := by
  have queues := inv.queues.processPacket behind
  have above := inv.queues.packetThread
  rw [thread] at above
  have same := slot.server.packetManager.processRecvPacket_sameBuffer packetData.clientIndex
    packetData.packetId packetData.dataSize (slot.server.packetManager.pointer packetData) behind above client
  have kept := (slot.server.packetManager.processRecvPacket_queues packetData.clientIndex
    packetData.packetId packetData.dataSize (slot.server.packetManager.pointer packetData) behind).1
  simp only [afterPacketThread, History.packetThread]
  simp only [Server.processPacket] at queues ⊢
  rw [thread] at queues ⊢
  dsimp only at queues ⊢
  have held : heldSystem .dequeSystemPacketData = heldSystem slot.server.packetThread := by
    rw [thread]
    rfl
  split_ifs with mine
  · have handed := inv.handed
    simp only [hand] at handed
    rw [thread] at handed
    dsimp only at handed
    rw [if_pos mine] at handed
    refine ⟨queues, same.inBounds inv.bounds, ?_, ?_, ?_, handed.dispatch, inv.clears⟩
    · exact ⟨inv.ledger.once, inv.ledger.bounded⟩
    · rw [same.unread]
      exact ⟨inv.stream.parses, inv.stream.owned, inv.stream.current, inv.stream.waiting, inv.stream.fresh⟩
    · exact inv.pending.trans (notices_congr held kept).symm
  · refine inv.frame queues same (notices_congr held kept) ?_
    simp only [hand]
    rw [thread]
    exact (if_neg mine).symm

theorem Inv.dequeSystemPacketData (inv : Inv client slot) (behind : Bytes)
    (thread : slot.server.packetThread = .dequeSystemPacketData) :
    Inv client (afterPacketThread client slot behind) := by
  have queues := inv.queues.processPacket behind
  have system := inv.queues.system
  simp only [afterPacketThread, History.packetThread]
  simp only [Server.processPacket] at queues ⊢
  rw [thread] at queues ⊢
  dsimp only at queues ⊢
  cases queued : slot.server.packetManager.mSystemPacketQueue with
  | nil =>
    rw [PacketManager.dequeSystemPacketData_nil _ queued] at queues ⊢
    refine inv.frame queues (.refl _) (notices_congr (by rw [thread]; rfl) rfl) ?_
    simp only [hand]
    rw [thread]
    rfl
  | cons packetData rest =>
    rw [queued] at system
    have present : packetData.packetId ≠ 0 := by
      rcases system packetData (List.mem_cons_self ..) with connect | disconnect
      · rw [connect]
        decide
      · rw [disconnect]
        decide
    rw [PacketManager.dequeSystemPacketData_cons _ queued, if_pos present] at queues ⊢
    refine inv.frame queues (.refl _) ?_ ?_
    · simp only [notices]
      rw [thread, queued]
      rfl
    · unfold hand
      rw [thread]

theorem Inv.takeResponseTask (inv : Inv client slot) (behind : Bytes)
    (thread : slot.server.packetThread = .takeResponseTask) :
    Inv client (afterPacketThread client slot behind) := by
  have queues := inv.queues.processPacket behind
  simp only [afterPacketThread, History.packetThread]
  simp only [Server.processPacket] at queues ⊢
  rw [thread] at queues ⊢
  dsimp only at queues ⊢
  refine inv.frame queues (.refl _) (notices_congr ?_ rfl) ?_
  · rw [thread]
    dsimp only
    split_ifs <;> rfl
  · simp only [hand]
    rw [thread]
    dsimp only
    split_ifs <;> rfl

/-- A Redis response has no handler that touches the slot's buffer. -/
theorem Inv.processResponse (inv : Inv client slot) (behind : Bytes) {task : RedisTask}
    (thread : slot.server.packetThread = .processResponse task) :
    Inv client (afterPacketThread client slot behind) := by
  have queues := inv.queues.processPacket behind
  have response := inv.queues.packetThread
  rw [thread] at response
  have above : task.taskId.value > PacketId.sysEnd.value := by
    rw [show task.taskId = .responseLogin from response]
    decide
  have kept := (slot.server.packetManager.processRecvPacket_queues task.userIndex task.taskId.value
    task.dataSize task.pData behind).1
  simp only [afterPacketThread, History.packetThread]
  simp only [Server.processPacket] at queues ⊢
  rw [thread] at queues ⊢
  refine inv.frame queues (PacketManager.processRecvPacket_sameBuffer _ _ _ _ _ _ above client)
    (notices_congr (by rw [thread]; rfl) kept) ?_
  unfold hand
  rw [thread]

/-- The notice that a system packet of the slot in the packet thread's hands stands for. -/
theorem Inv.next (inv : Inv client slot) {packetData : PacketInfo}
    (thread : slot.server.packetThread = .processSystem packetData) (mine : packetData.clientIndex = client) :
    ∃ notice rest, slot.history.pending = notice :: rest ∧ notice.packetId = packetData.packetId ∧
      rest.map Notice.packetId =
        notices client { slot.server with packetThread := .takeResponseTask } := by
  have pending := inv.pending
  simp only [notices] at pending
  rw [thread, show heldSystem (.processSystem packetData) = [packetData] from rfl, List.singleton_append,
    List.filter_cons_of_pos (by rw [mine]; exact decide_eq_true rfl), List.map_cons] at pending
  obtain ⟨notice, rest, split, first, others⟩ := List.map_eq_cons_iff.mp pending
  exact ⟨notice, rest, split, first, others⟩

/-- The slot's user after `ProcessUserDisConnect`. -/
theorem unread_disconnect (manager : PacketManager) (bounds : (manager.user client).InBounds) :
    ((manager.processUserDisConnect client).user client).InBounds ∧
      ((manager.processUserDisConnect client).user client).unread =
        if (decide ((manager.user client).mCurDomainState ≠ .none)) = true then []
        else (manager.user client).unread := by
  simp only [PacketManager.processUserDisConnect]
  by_cases state : (manager.user client).mCurDomainState = .none
  · rw [manager.clearConnectionInfo_none state, if_neg (by rw [decide_eq_true_eq]; exact not_not_intro state)]
    exact ⟨bounds, rfl⟩
  · obtain ⟨user, cleared⟩ := manager.clearConnectionInfo_user_self state
    rw [cleared, if_pos (decide_eq_true state)]
    exact ⟨user.clear_inBounds, user.clear_unread⟩

/-- A system packet of the slot goes to its handler. -/
theorem Inv.processSystem_self (inv : Inv client slot) (behind : Bytes) {packetData : PacketInfo}
    (thread : slot.server.packetThread = .processSystem packetData) (mine : packetData.clientIndex = client) :
    Inv client (afterPacketThread client slot behind) := by
  have queues := inv.queues.processPacket behind
  have system := inv.queues.packetThread
  obtain ⟨notice, rest, next, same, others⟩ := inv.next thread mine
  have kept := (slot.server.packetManager.processRecvPacket_queues packetData.clientIndex
    packetData.packetId packetData.dataSize (slot.server.packetManager.pointer packetData) behind).1
  have handed := inv.handed
  rw [hand_eq_none (by rw [thread]; rintro _ ⟨⟩)] at handed
  rw [thread] at system
  simp only [afterPacketThread, History.packetThread]
  simp only [Server.processPacket] at queues ⊢
  rw [thread] at queues ⊢
  dsimp only at queues ⊢
  rw [if_pos mine]
  rcases system with connect | disconnect
  · cases notice with
    | disconnect closing =>
      exact absurd (same.trans connect)
        (show PacketId.sysUserDisconnect.value ≠ PacketId.sysUserConnect.value by decide)
    | connect raised =>
      have user : (slot.server.packetManager.processRecvPacket packetData.clientIndex packetData.packetId
          packetData.dataSize (slot.server.packetManager.pointer packetData) behind).user client =
            (slot.server.packetManager.user client).clear := by
        rw [mine, connect]
        exact UserManager.modify_self ..
      refine ⟨queues, ?_, inv.ledger.process _, ?_, ?_, handed.process _, ?_⟩
      · rw [user]
        exact User.clear_inBounds _
      · rw [user]
        exact inv.stream.processConnect next _
      · rw [History.process_connect _ next]
        exact others.trans (notices_congr rfl kept.symm)
      · rw [History.process_connect _ next]
        exact forall_mem_snoc inv.clears (inv.stream.not_mem_origins inv.ledger next)
  · cases notice with
    | connect raised =>
      exact absurd (same.trans disconnect)
        (show PacketId.sysUserConnect.value ≠ PacketId.sysUserDisconnect.value by decide)
    | disconnect closing =>
      have handled : slot.server.packetManager.processRecvPacket packetData.clientIndex packetData.packetId
          packetData.dataSize (slot.server.packetManager.pointer packetData) behind =
            slot.server.packetManager.processUserDisConnect client := by
        rw [mine, disconnect]
        rfl
      obtain ⟨inside, unread⟩ := unread_disconnect slot.server.packetManager inv.bounds
      refine ⟨queues, ?_, inv.ledger.process _, ?_, ?_, handed.process _, ?_⟩
      · rw [handled]
        exact inside
      · rw [handled, unread]
        exact inv.stream.processDisconnect next _
      · rw [History.process_disconnect _ next]
        exact others.trans (notices_congr rfl kept.symm)
      · rw [History.process_disconnect _ next]
        exact inv.clears

/-- A system packet goes to its handler. -/
theorem Inv.processSystem (inv : Inv client slot) (behind : Bytes) {packetData : PacketInfo}
    (thread : slot.server.packetThread = .processSystem packetData) :
    Inv client (afterPacketThread client slot behind) := by
  by_cases mine : packetData.clientIndex = client
  · exact inv.processSystem_self behind thread mine
  have queues := inv.queues.processPacket behind
  have kept := (slot.server.packetManager.processRecvPacket_queues packetData.clientIndex
    packetData.packetId packetData.dataSize (slot.server.packetManager.pointer packetData) behind).1
  have user := slot.server.packetManager.processRecvPacket_user_other packetData.clientIndex
    packetData.packetId packetData.dataSize (slot.server.packetManager.pointer packetData) behind (Ne.symm mine)
  unfold afterPacketThread History.packetThread
  simp only [Server.processPacket] at queues ⊢
  rw [thread] at queues ⊢
  dsimp only at queues ⊢
  rw [if_neg mine]
  refine inv.frame queues (user ▸ .refl _) ?_ ?_
  · unfold notices
    rw [thread]
    dsimp only
    rw [kept, show heldSystem (.processSystem packetData) = [packetData] from rfl, List.singleton_append,
      List.filter_cons_of_neg (by rwa [decide_eq_true_eq])]
    rfl
  · simp only [hand]
    rw [thread]

theorem Inv.packetThread (inv : Inv client slot) (behind : Bytes) :
    Inv client (afterPacketThread client slot behind) := by
  cases thread : slot.server.packetThread with
  | dequePacketData =>
    by_cases mine : slot.server.packetManager.mInComingPacketUserIndex.head? = some client
    · obtain ⟨rest, queued⟩ := List.head?_eq_some_iff.mp mine
      exact inv.dequePacketData_self behind thread queued
    · exact inv.dequePacketData_other behind thread mine
  | processClient packetData => exact inv.processClient behind thread
  | dequeSystemPacketData => exact inv.dequeSystemPacketData behind thread
  | processSystem packetData => exact inv.processSystem behind thread
  | takeResponseTask => exact inv.takeResponseTask behind thread
  | processResponse task => exact inv.processResponse behind thread

/-- A notice of another slot is none of this one's. -/
theorem notices_push_other (server : Server) {packet : PacketInfo} (different : packet.clientIndex ≠ client) :
    notices client { server with packetManager := server.packetManager.pushSystemPacket packet } =
      notices client server := by
  simp only [notices, PacketManager.pushSystemPacket]
  rw [← List.append_assoc, List.filter_append, List.filter_cons_of_neg (by rwa [decide_eq_true_eq]),
    List.filter_nil, List.append_nil]

/-- A step of an IO worker on another slot, or of the Redis thread. -/
theorem Inv.other (inv : Inv client slot) (redis : Model.RedisCpp.Server) {event : Event}
    (elsewhere : event.client? ≠ some client) (idle : ∀ behind, event ≠ .packetThread behind) :
    Inv client { slot with server := slot.server.step redis event } := by
  have queues := inv.queues.step redis event
  cases event with
  | packetThread behind => exact absurd rfl (idle behind)
  | receive clientIndex chunk =>
    have different : client ≠ clientIndex := fun same => elsewhere (congrArg some same.symm)
    have user := slot.server.packetManager.user_receivePacketData_other chunk.bytes different
    exact inv.frame queues (.of_eq user) rfl (hand_congr rfl user)
  | onConnect clientIndex =>
    have different : clientIndex ≠ client := fun same => elsewhere (congrArg some same)
    exact inv.frame queues (.refl _) (notices_push_other _ different) (hand_congr rfl rfl)
  | onClose clientIndex =>
    have different : clientIndex ≠ client := fun same => elsewhere (congrArg some same)
    exact inv.frame queues (.refl _) (notices_push_other _ different) (hand_congr rfl rfl)
  | redisThread behind =>
    have thread := Server.taskProcessThread_packetThread redis slot.server behind
    obtain ⟨redisMgr, manager⟩ := Server.taskProcessThread_packetManager redis slot.server behind
    have user : (slot.server.taskProcessThread redis behind).packetManager.user client =
        slot.server.packetManager.user client := by
      rw [manager]
      rfl
    refine inv.frame queues (.of_eq user) (notices_congr (congrArg _ thread) ?_) (hand_congr thread user)
    change (slot.server.taskProcessThread redis behind).packetManager.mSystemPacketQueue = _
    rw [manager]

theorem Inv.step (inv : Inv client slot) (redis : Model.RedisCpp.Server) (event : SlotEvent)
    (settled : Settled client slot event) : Inv client (slot.step redis client event) := by
  have kept := inv.handed
  cases event with
  | accept =>
    simp only [Slot.step]
    split_ifs
    · exact inv
    · exact inv.of_notices inv.ledger.accept inv.stream.accept rfl ⟨kept.order, kept.whole, kept.sound⟩ rfl
  | acceptFailed connection =>
    simp only [Slot.step]
    split_ifs
    · exact inv.of_notices (inv.ledger.acceptFailed connection) (inv.stream.acceptFailed connection) rfl
        ⟨kept.order, kept.whole, kept.sound⟩ rfl
    · exact inv
  | onConnect connection =>
    simp only [Slot.step]
    split_ifs with waiting
    · exact inv.raise waiting (inv.queues.step redis (.onConnect client)) rfl
    · exact inv
  | receive connection chunk =>
    simp only [Slot.step]
    split_ifs
    · exact inv.receive redis settled
    · exact inv
  | checkClose =>
    simp only [Slot.step]
    split_ifs
    · exact inv.of_notices ⟨inv.ledger.once, inv.ledger.bounded⟩
        ⟨inv.stream.parses, inv.stream.owned, inv.stream.current, inv.stream.waiting, inv.stream.fresh⟩ rfl
        ⟨kept.order, kept.whole, kept.sound⟩ rfl
    · exact inv
  | close =>
    simp only [Slot.step]
    split_ifs
    · exact inv.of_notices inv.ledger.close inv.stream.close rfl ⟨kept.order, kept.whole, kept.sound⟩ rfl
    · exact inv
  | onClose connection =>
    simp only [Slot.step]
    split_ifs with waiting
    · exact inv.raise waiting (inv.queues.step redis (.onClose client)) rfl
    · exact inv
  | server event =>
    simp only [Slot.step]
    split_ifs with mine
    · exact inv
    · cases event with
      | packetThread behind => exact inv.packetThread behind
      | receive clientIndex chunk => exact inv.other redis mine nofun
      | onConnect clientIndex => exact inv.other redis mine nofun
      | onClose clientIndex => exact inv.other redis mine nofun
      | redisThread behind => exact inv.other redis mine nofun

end steps

/-- In every run of the IO workers on a slot and all other threads, if bytes are only received on a
connection in service, where they fit, and not over a packet that is being handled, then in every state
the slot's connections are kept apart and each is served from its own bytes. -/
theorem settled_run_isolated (redis : Model.RedisCpp.Server) (maxClient : ℕ) (allocated : ℕ → Bytes)
    (client : ℕ) (events : List SlotEvent)
    (settled : Along (Slot.step redis client) (Settled client)
      { server := Server.init maxClient allocated } events) :
    Always (Slot.step redis client) Isolated { server := Server.init maxClient allocated } events :=
  (always_of_along (fun _ event inv met => inv.step redis event met) (inv_init client maxClient allocated)
    settled).mono fun _ inv => inv.isolated

/-- A step of the packet thread that overreads nothing but zeros. -/
def packetThreadStep : SlotEvent := .server (.packetThread fun _ => 0)

/-- A client whose request arrives after one loop of the packet thread. -/
def settledRun : List SlotEvent :=
  [.accept, .onConnect 1, packetThreadStep, packetThreadStep, packetThreadStep, packetThreadStep,
    .receive 1 Membership.leaveChunk, packetThreadStep, packetThreadStep]

theorem settled_run_isolated_leave :
    Always (Slot.step (fun _ => none) 0) Isolated { server := Server.init 3 fun _ _ => 0 } settledRun ∧
      dispatchedFor (run (Slot.step (fun _ => none) 0) { server := Server.init 3 fun _ _ => 0 }
        settledRun).history 1 = [(215, Membership.leaveChunk.bytes)] := by
  refine ⟨settled_run_isolated _ 3 _ 0 _ ?_, by decide +kernel⟩
  refine ⟨trivial, trivial, trivial, trivial, trivial, trivial, ⟨⟨?_, ?_, ?_⟩, ?_, ?_⟩, trivial, trivial, trivial⟩
  · decide +kernel
  · decide +kernel
  · decide +kernel
  · decide +kernel
  · exact nofun

/-- A client whose request arrives while its connect notice is queued: the packet thread looks at client
packets first and dispatches it for a connection that nobody has announced. -/
theorem run_dispatches_unannounced :
    ¬ Always (Slot.step (fun _ => none) 0) Isolated { server := Server.init 3 fun _ _ => 0 }
      [.accept, .onConnect 1, .receive 1 Membership.leaveChunk, packetThreadStep, packetThreadStep] := by
  intro always
  have sound := always.last.1
  revert sound
  decide +kernel

end CppRedis.Soundness.Isolation
