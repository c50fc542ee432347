import CppRedis.Model.GameServer.Server

/-! # One slot and its successive connections

`IOCPServer::WokerThread` on one slot, over the server. An accept completion opens the slot and posts
the first receive; the worker raises `OnConnect` for it some time later. `CloseSocket` looks whether the
slot is open, closes it, and raises `OnClose` later again. Any number of workers may be between these
steps, and a closed slot is accepted again. Nothing of this is stored in the slot: connections are
numbered here, and the history says which connection every unread byte came from, which connection a
notice is about, what was received on each connection, and what the packet thread made of it.
-/

namespace CppRedis.Model.GameServer

open Machine

/-- `OnConnect` or `OnClose`, and the connection it is about. -/
inductive Notice where
  | connect (connection : ℕ)
  | disconnect (connection : ℕ)
deriving DecidableEq, Repr

def Notice.packetId : Notice → ℕ
  | .connect _ => PacketId.sysUserConnect.value
  | .disconnect _ => PacketId.sysUserDisconnect.value

/-- A packet of the slot that was handed to `ProcessRecvPacket`. -/
structure Dispatch where
  /-- The connection that the first byte of the packet came from. -/
  connection : ℕ
  /-- The connections that the bytes parsed for it, header and body, came from. -/
  parsed : List ℕ
  /-- The id it was dispatched on and the bytes its pointer led to at that moment. -/
  packet : ℕ × List UInt8
  /-- The notices that had been processed by then. -/
  processed : List Notice

/-- The history of a slot. -/
structure History where
  /-- The connections accepted so far; the last one is number `accepted`. -/
  accepted : ℕ := 0
  /-- `mIsConnect`. -/
  connected : Bool := false
  /-- Workers in `CloseSocket` that have found the slot connected and not closed it yet. -/
  closing : ℕ := 0
  /-- What workers are about to raise, after an accept or a close. -/
  unraised : List Notice := []
  /-- The notices that are queued or being processed, in order. -/
  pending : List Notice := []
  processed : List Notice := []
  /-- The bytes received on each connection. -/
  received : ℕ → List UInt8 := fun _ => []
  /-- The connection of each unread byte. -/
  origins : List ℕ := []
  /-- The packets taken off each connection's bytes, dispatched or not. -/
  packets : ℕ → List (ℕ × List UInt8) := fun _ => []
  /-- The origins of the packet in the packet thread's hands. -/
  inHand : List ℕ := []
  dispatches : List Dispatch := []
  /-- For each connect notice processed, its connection and the origins of the bytes it threw away. -/
  clears : List (ℕ × List ℕ) := []

namespace History

variable (history : History)

/-- `AcceptCompletion`: the slot is open and its first receive is posted. -/
def accept : History :=
  { history with
    accepted := history.accepted + 1
    connected := true
    unraised := history.unraised ++ [.connect (history.accepted + 1)] }

/-- `AcceptCompletion` has failed after it opened the slot: no `OnConnect` will be raised. -/
def acceptFailed (connection : ℕ) : History :=
  { history with unraised := history.unraised.erase (.connect connection) }

/-- The test at the start of `CloseSocket`. -/
def checkClose : History := { history with closing := history.closing + 1 }

/-- `stClientInfo::Close`. -/
def close : History :=
  { history with
    connected := false
    closing := history.closing - 1
    unraised := history.unraised ++ [.disconnect history.accepted] }

/-- `OnConnect` or `OnClose` is raised. -/
def raise (notice : Notice) : History :=
  { history with
    unraised := history.unraised.erase notice
    pending := history.pending ++ [notice] }

/-- Bytes of a connection are appended. -/
def receive (connection : ℕ) (bytes : List UInt8) : History :=
  { history with
    received := Function.update history.received connection (history.received connection ++ bytes)
    origins := history.origins ++ List.replicate bytes.length connection }

/-- `GetPacket` has returned a packet. -/
def take (packet : ℕ × List UInt8) : History :=
  let connection := history.origins.headD 0
  { history with
    origins := history.origins.drop packet.2.length
    packets := Function.update history.packets connection (history.packets connection ++ [packet])
    inHand := history.origins.take (max packetHeaderLength packet.2.length) }

/-- A packet goes to its handler. -/
def dispatch (packet : ℕ × List UInt8) : History :=
  { history with
    dispatches := history.dispatches ++
      [⟨history.inHand.headD 0, history.inHand, packet, history.processed⟩] }

/-- A notice has been processed; `cleared` says whether a disconnect cleared the slot. -/
def process (cleared : Bool) : History :=
  match history.pending with
  | [] => history
  | .connect connection :: rest =>
      { history with
        pending := rest
        processed := history.processed ++ [.connect connection]
        origins := []
        clears := history.clears ++ [(connection, history.origins)] }
  | .disconnect connection :: rest =>
      { history with
        pending := rest
        processed := history.processed ++ [.disconnect connection]
        origins := if cleared then [] else history.origins }

theorem process_connect {connection : ℕ} {rest : List Notice}
    (next : history.pending = .connect connection :: rest) (cleared : Bool) :
    history.process cleared =
      { history with
        pending := rest
        processed := history.processed ++ [.connect connection]
        origins := []
        clears := history.clears ++ [(connection, history.origins)] } := by
  simp only [process, next]

theorem process_disconnect {connection : ℕ} {rest : List Notice}
    (next : history.pending = .disconnect connection :: rest) (cleared : Bool) :
    history.process cleared =
      { history with
        pending := rest
        processed := history.processed ++ [.disconnect connection]
        origins := if cleared then [] else history.origins } := by
  simp only [process, next]

@[simp] theorem receive_received_self (connection : ℕ) (bytes : List UInt8) :
    (history.receive connection bytes).received connection = history.received connection ++ bytes :=
  Function.update_self ..

theorem receive_received_other {connection other : ℕ} (bytes : List UInt8) (different : other ≠ connection) :
    (history.receive connection bytes).received other = history.received other :=
  Function.update_of_ne different ..

theorem take_packets_self {connection : ℕ} (packet : ℕ × List UInt8)
    (first : history.origins.headD 0 = connection) :
    (history.take packet).packets connection = history.packets connection ++ [packet] := by
  rw [← first]
  exact Function.update_self ..

theorem take_packets_other {connection : ℕ} (packet : ℕ × List UInt8)
    (different : connection ≠ history.origins.headD 0) :
    (history.take packet).packets connection = history.packets connection :=
  Function.update_of_ne different ..

/-- What a step of the packet thread means for the slot of a client. -/
def packetThread (client : ℕ) (server : Server) : History :=
  let user := server.packetManager.user client
  match server.packetThread with
  | .dequePacketData =>
      if server.packetManager.mInComingPacketUserIndex.head? = some client then
        match user.getPacket.1.pDataPtr with
        | none => history
        | some position =>
            history.take (user.getPacket.1.packetId,
              user.mPakcetDataBuffer.read position user.getPacket.1.dataSize)
      else history
  | .processClient packetData =>
      if packetData.clientIndex = client then
        history.dispatch (packetData.packetId,
          (server.packetManager.pointer packetData).read 0 packetData.dataSize)
      else history
  | .processSystem packetData =>
      if packetData.clientIndex = client then history.process (user.mCurDomainState ≠ .none) else history
  | _ => history

end History

/-- A server and the history of one of its slots. -/
structure Slot where
  server : Server
  history : History := {}

/-- A step of an IO worker on the slot, or any other step of the server. -/
inductive SlotEvent where
  | accept
  | acceptFailed (connection : ℕ)
  | onConnect (connection : ℕ)
  | receive (connection : ℕ) (chunk : Chunk)
  | checkClose
  | close
  | onClose (connection : ℕ)
  | server (event : Event)

/-- The slot an IO worker's step is about. -/
def Event.client? : Event → Option ℕ
  | .receive clientIndex _ | .onConnect clientIndex | .onClose clientIndex => some clientIndex
  | .packetThread _ | .redisThread _ => none

/-- One step. Only a slot that is not connected is accepted. `OnConnect` is raised at most once for each
accept and `OnClose` once for each close. Bytes may arrive on any accepted connection, also after it was
closed. Steps of IO workers on this slot come as its own events. -/
def Slot.step (redis : RedisCpp.Server) (client : ℕ) (slot : Slot) : SlotEvent → Slot
  | .accept =>
      if slot.history.connected then slot else { slot with history := slot.history.accept }
  | .acceptFailed connection =>
      if .connect connection ∈ slot.history.unraised then
        { slot with history := slot.history.acceptFailed connection }
      else slot
  | .onConnect connection =>
      if .connect connection ∈ slot.history.unraised then
        { server := slot.server.step redis (.onConnect client)
          history := slot.history.raise (.connect connection) }
      else slot
  | .receive connection chunk =>
      if 1 ≤ connection ∧ connection ≤ slot.history.accepted then
        { server := slot.server.step redis (.receive client chunk)
          history := slot.history.receive connection chunk.bytes }
      else slot
  | .checkClose =>
      if slot.history.connected then { slot with history := slot.history.checkClose } else slot
  | .close =>
      if 0 < slot.history.closing then { slot with history := slot.history.close } else slot
  | .onClose connection =>
      if .disconnect connection ∈ slot.history.unraised then
        { server := slot.server.step redis (.onClose client)
          history := slot.history.raise (.disconnect connection) }
      else slot
  | .server event =>
      if event.client? = some client then slot
      else
        { server := slot.server.step redis event
          history :=
            match event with
            | .packetThread _ => slot.history.packetThread client slot.server
            | _ => slot.history }

end CppRedis.Model.GameServer
