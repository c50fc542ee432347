import CppRedis.Model.GameServer.ClientInfo

/-! # `IOCPServer`

The threads of the network layer, from `ServerNetwork/IOCPServer.h`, over all slots. A worker takes a
completion and handles it; it may lose the processor before each change of the shared state and before
each notification, and any number of workers may be at work. An accept is handled up to the end of
`AcceptCompletion` in one step. The accepter goes through the slots with the time at which it started the
pass, and the clock stays below `UINT32_MAX` seconds. `SendMsg` is called by the packet thread.
-/

namespace CppRedis.Model.GameServer

/-- An overlapped operation that Winsock has taken. -/
inductive Operation where
  | accept (clientIndex : ℕ)
  | recv (clientIndex : ℕ)
  | send (clientIndex : ℕ) (overlapped : OverlappedEx)
deriving DecidableEq, Repr

/-- The virtual functions that `IOCPServer` calls. -/
inductive Notification where
  | onConnect
  | onReceive
  | onClose
deriving DecidableEq, Repr

/-- What a thread in `WokerThread` is about to do. -/
inductive Worker where
  | getQueuedCompletionStatus
  /-- `++mClientCnt`. -/
  | countClient (clientIndex : ℕ)
  | onConnect (clientIndex : ℕ)
  /-- The test at the start of `CloseSocket`. -/
  | closeSocket (clientIndex : ℕ)
  | close (clientIndex : ℕ)
  | onClose (clientIndex : ℕ)
  | onReceive (clientIndex : ℕ)
  | bindRecv (clientIndex : ℕ)
  | sendCompleted (clientIndex : ℕ)
deriving DecidableEq, Repr

/-- Where `AccepterThread` stands. -/
inductive Accepter where
  | sleep
  | visit (curTimeSec clientIndex : ℕ)
deriving DecidableEq, Repr

/-- What Winsock answers in a step. -/
structure Winsock where
  hIOCP : Handle := .port
  wsaRecv : Bool := true
  wsaSend : Bool := true
  wsaSocket : Option ℕ := some 0
  acceptEx : Bool := true

/-- `IOCPServer`, its threads, and what Winsock has still to complete. -/
structure IOCPServer where
  mClientInfos : List ClientInfo
  mClientCnt : ℕ := 0
  mIOWorkerThreads : List Worker
  accepter : Accepter := .sleep
  clock : ℕ := 0
  posted : List Operation := []
  /-- The number of `stOverlappedEx` allocated so far. -/
  allocated : ℕ := 0
  /-- The notifications raised so far, and their slots. -/
  notifications : List (ℕ × Notification) := []
  /-- A null pointer was used. -/
  crashed : Bool := false

/-- A step of one thread, or of the clock. -/
inductive NetworkEvent where
  | dequeue (thread : ℕ) (operation : Operation) (bSuccess : Bool) (dwIoSize : ℕ) (winsock : Winsock)
  | work (thread : ℕ) (winsock : Winsock)
  | sendMsg (clientIndex : ℕ) (bytes : List UInt8) (winsock : Winsock)
  | accept (winsock : Winsock)
  | tick

/-- The tests of `AccepterThread` before it posts an accept. -/
def ClientInfo.reusable (client : ClientInfo) (curTimeSec : ℕ) : Bool :=
  if client.isConnectd then false
  else if curTimeSec < client.mLatestClosedTimeSec then false
  else if curTimeSec - client.mLatestClosedTimeSec ≤ reUseSessionWaitTimeSec then false
  else true

namespace IOCPServer

/-- The server after `StartServer`, with as many workers as `CreateWokerThread` starts. -/
def init (maxClientCount maxIOWorkerThreadCount : ℕ) : IOCPServer where
  mClientInfos := List.replicate maxClientCount {}
  mIOWorkerThreads := List.replicate (maxIOWorkerThreadCount * 2 + 1) .getQueuedCompletionStatus

variable (server : IOCPServer)

/-- `IOCPServer::GetClientInfo`. -/
def client (clientIndex : ℕ) : ClientInfo := server.mClientInfos.getD clientIndex {}

def setClient (clientIndex : ℕ) (client : ClientInfo) : IOCPServer :=
  { server with mClientInfos := server.mClientInfos.set clientIndex client }

def setWorker (thread : ℕ) (worker : Worker) : IOCPServer :=
  { server with mIOWorkerThreads := server.mIOWorkerThreads.set thread worker }

def post (taken : Bool) (operation : Operation) : IOCPServer :=
  { server with posted := server.posted ++ if taken then [operation] else [] }

def notify (clientIndex : ℕ) (notification : Notification) : IOCPServer :=
  { server with notifications := server.notifications ++ [(clientIndex, notification)] }

/-- What a call of `SendIO` leaves with Winsock. -/
def postSend (clientIndex : ℕ) (handed : Option (OverlappedEx × Bool)) : IOCPServer :=
  { server with
    posted := server.posted ++
      match handed with
      | some (overlapped, true) => [.send clientIndex overlapped]
      | _ => [] }

/-- A worker has taken a completion off the port. The completion key of an accept is the null that the
listen socket was bound with. -/
def dequeued (thread : ℕ) (operation : Operation) (bSuccess : Bool) (dwIoSize : ℕ) (winsock : Winsock) :
    IOCPServer :=
  match operation with
  | .accept clientIndex =>
      if bSuccess = false then { server with crashed := true }
      else
        let (result, client) := (server.client clientIndex).acceptCompletion winsock.hIOCP winsock.wsaRecv
        ((server.setClient clientIndex client).post result (.recv clientIndex)).setWorker thread
          (if result then .countClient clientIndex else .closeSocket clientIndex)
  | .recv clientIndex =>
      server.setWorker thread
        (if bSuccess = false ∨ dwIoSize = 0 then .closeSocket clientIndex else .onReceive clientIndex)
  | .send clientIndex _ =>
      server.setWorker thread
        (if bSuccess = false ∨ dwIoSize = 0 then .closeSocket clientIndex else .sendCompleted clientIndex)

/-- The next thing that a worker does. -/
def work (thread : ℕ) (winsock : Winsock) : Worker → IOCPServer
  | .getQueuedCompletionStatus => server
  | .countClient clientIndex =>
      { server with mClientCnt := server.mClientCnt + 1 }.setWorker thread (.onConnect clientIndex)
  | .onConnect clientIndex =>
      (server.notify clientIndex .onConnect).setWorker thread .getQueuedCompletionStatus
  | .closeSocket clientIndex =>
      server.setWorker thread
        (if (server.client clientIndex).isConnectd = false then .getQueuedCompletionStatus
        else .close clientIndex)
  | .close clientIndex =>
      (server.setClient clientIndex ((server.client clientIndex).close server.clock)).setWorker thread
        (.onClose clientIndex)
  | .onClose clientIndex =>
      (server.notify clientIndex .onClose).setWorker thread .getQueuedCompletionStatus
  | .onReceive clientIndex =>
      (server.notify clientIndex .onReceive).setWorker thread (.bindRecv clientIndex)
  | .bindRecv clientIndex =>
      (server.post ((server.client clientIndex).bindRecv winsock.wsaRecv) (.recv clientIndex)).setWorker thread
        .getQueuedCompletionStatus
  | .sendCompleted clientIndex =>
      let (client, handed) := (server.client clientIndex).sendCompleted winsock.wsaSend
      ((server.setClient clientIndex client).postSend clientIndex handed).setWorker thread
        .getQueuedCompletionStatus

/-- `IOCPServer::SendMsg`. -/
def sendMsg (clientIndex : ℕ) (bytes : List UInt8) (winsock : Winsock) : IOCPServer :=
  let (client, handed) := (server.client clientIndex).sendMsg ⟨server.allocated, bytes⟩ winsock.wsaSend
  postSend { server.setClient clientIndex client with allocated := server.allocated + 1 } clientIndex handed

/-- The next thing that `AccepterThread` does: it starts a pass, or goes on to the next slot. -/
def accept (winsock : Winsock) : IOCPServer :=
  match server.accepter with
  | .sleep => { server with accepter := .visit server.clock 0 }
  | .visit curTimeSec clientIndex =>
      if clientIndex < server.mClientInfos.length then
        let next := { server with accepter := .visit curTimeSec (clientIndex + 1) }
        if (server.client clientIndex).reusable curTimeSec then
          let (result, client) := (server.client clientIndex).postAccept winsock.wsaSocket winsock.acceptEx
          (next.setClient clientIndex client).post result (.accept clientIndex)
        else next
      else { server with accepter := .sleep }

/-- One step. A worker that waits takes the completion of an operation that was posted. -/
def step (event : NetworkEvent) : IOCPServer :=
  if server.crashed then server
  else
    match event with
    | .dequeue thread operation bSuccess dwIoSize winsock =>
        if server.mIOWorkerThreads[thread]? = some .getQueuedCompletionStatus ∧ operation ∈ server.posted then
          dequeued { server with posted := server.posted.erase operation } thread operation bSuccess dwIoSize
            winsock
        else server
    | .work thread winsock =>
        match server.mIOWorkerThreads[thread]? with
        | none => server
        | some worker => server.work thread winsock worker
    | .sendMsg clientIndex bytes winsock =>
        if clientIndex < server.mClientInfos.length then server.sendMsg clientIndex bytes winsock else server
    | .accept winsock => server.accept winsock
    | .tick => if server.clock + 1 < uint32Max then { server with clock := server.clock + 1 } else server

/-- All that a step can do: nothing, or one thing by one thread. -/
theorem step_cases {holds : IOCPServer → Prop} {event : NetworkEvent} (nothing : holds server)
    (dequeue : ∀ thread operation bSuccess dwIoSize winsock,
      event = .dequeue thread operation bSuccess dwIoSize winsock →
        server.mIOWorkerThreads[thread]? = some .getQueuedCompletionStatus → operation ∈ server.posted →
          holds (dequeued { server with posted := server.posted.erase operation } thread operation bSuccess
            dwIoSize winsock))
    (works : ∀ thread winsock worker, event = .work thread winsock →
      server.mIOWorkerThreads[thread]? = some worker → holds (server.work thread winsock worker))
    (sends : ∀ clientIndex bytes winsock, event = .sendMsg clientIndex bytes winsock →
      clientIndex < server.mClientInfos.length → holds (server.sendMsg clientIndex bytes winsock))
    (accepts : ∀ winsock, event = .accept winsock → holds (server.accept winsock))
    (ticks : event = .tick → server.clock + 1 < uint32Max → holds { server with clock := server.clock + 1 }) :
    holds (server.step event) := by
  simp only [step]
  by_cases crashed : server.crashed = true
  · rw [if_pos crashed]
    exact nothing
  rw [if_neg crashed]
  cases event with
  | dequeue thread operation bSuccess dwIoSize winsock =>
    dsimp only
    split_ifs with taken
    · exact dequeue _ _ _ _ _ rfl taken.1 taken.2
    · exact nothing
  | work thread winsock =>
    dsimp only
    cases here : server.mIOWorkerThreads[thread]? with
    | none => exact nothing
    | some worker => exact works _ _ _ rfl here
  | sendMsg clientIndex bytes winsock =>
    dsimp only
    split_ifs with inside
    · exact sends _ _ _ rfl inside
    · exact nothing
  | accept winsock => exact accepts _ rfl
  | tick =>
    dsimp only
    split_ifs with more
    · exact ticks rfl more
    · exact nothing

theorem client_setClient_self {clientIndex : ℕ} (inside : clientIndex < server.mClientInfos.length)
    (client : ClientInfo) : (server.setClient clientIndex client).client clientIndex = client := by
  simp only [IOCPServer.client, setClient]
  rw [List.getD_eq_getElem?_getD, List.getElem?_set_self inside, Option.getD_some]

theorem client_setClient_other {clientIndex other : ℕ} (different : other ≠ clientIndex) (client : ClientInfo) :
    (server.setClient clientIndex client).client other = server.client other := by
  simp only [IOCPServer.client, setClient]
  rw [List.getD_eq_getElem?_getD, List.getElem?_set_ne (Ne.symm different), ← List.getD_eq_getElem?_getD]

/-- There is no slot to change. -/
theorem setClient_of_outside {clientIndex : ℕ} (outside : ¬ clientIndex < server.mClientInfos.length)
    (client : ClientInfo) : server.setClient clientIndex client = server := by
  rw [setClient, List.set_eq_of_length_le (Nat.le_of_not_lt outside)]

/-- What a change of a slot keeps, it keeps of all slots. -/
theorem setClient_view {β : Type*} (view : ClientInfo → β) {clientIndex : ℕ} {client : ClientInfo}
    (same : view client = view (server.client clientIndex)) (other : ℕ) :
    view ((server.setClient clientIndex client).client other) = view (server.client other) := by
  by_cases mine : other = clientIndex
  · by_cases inside : clientIndex < server.mClientInfos.length
    · rw [mine, server.client_setClient_self inside, same]
    · rw [server.setClient_of_outside inside]
  · rw [server.client_setClient_other mine]

@[simp] theorem length_setClient (clientIndex : ℕ) (client : ClientInfo) :
    (server.setClient clientIndex client).mClientInfos.length = server.mClientInfos.length :=
  List.length_set

/-- A slot that is connected exists. -/
theorem lt_length_of_isConnectd {clientIndex : ℕ} (connected : (server.client clientIndex).isConnectd = true) :
    clientIndex < server.mClientInfos.length := by
  by_contra outside
  simp only [IOCPServer.client] at connected
  rw [List.getD_eq_getElem?_getD, List.getElem?_eq_none (Nat.le_of_not_lt outside)] at connected
  cases connected

end IOCPServer

end CppRedis.Model.GameServer
