import CppRedis.Machine.Pool
import CppRedis.Machine.Sessions
import CppRedis.Soundness.Accepting

/-! # The notifications of the network layer

`OnConnect`, `OnReceive` and `OnClose` are raised some time after the change they tell of, by whichever
worker made it. The first receive of a connection is posted before its `OnConnect`, `CloseSocket` tests
and closes in two steps, and an accept whose binds fail is closed without an `OnConnect`: each of these
can tell a slot's users a story that is none. `mClientCnt` counts connections up and never down.
-/

namespace CppRedis.Soundness.Notifications

open Machine Model.GameServer Accepting

/-- The notifications of a slot so far. -/
def raised (server : IOCPServer) (clientIndex : ℕ) : List Notification :=
  (server.notifications.filter (·.1 = clientIndex)).map Prod.snd

/-- The number of slots whose `mIsConnect` is 1. -/
def connectedCount (server : IOCPServer) : ℕ := server.mClientInfos.countP ClientInfo.isConnectd

/-- No worker is in the middle of a completion. -/
def Idle (server : IOCPServer) : Prop :=
  ∀ worker ∈ server.mIOWorkerThreads, worker = .getQueuedCompletionStatus

/-- The notifications of every slot are on the way to a word of `(OnConnect OnReceive* OnClose)*`, and
`mClientCnt` is the number of connected slots whenever no worker is at work. -/
structure Notified (server : IOCPServer) : Prop where
  word (clientIndex : ℕ) : ∃ more, raised server clientIndex ++ more ∈ sessions .onConnect .onReceive .onClose
  count : Idle server → server.mClientCnt = connectedCount server

/-- A worker has accepted a connection of the slot and not raised its `OnConnect` yet. -/
def announces (clientIndex : ℕ) : Worker → Bool
  | .countClient other => other = clientIndex
  | .onConnect other => other = clientIndex
  | _ => false

/-- A worker has closed the slot and not raised its `OnClose` yet. -/
def takesLeave (clientIndex : ℕ) : Worker → Bool
  | .onClose other => other = clientIndex
  | _ => false

/-- A worker closes a slot while it is connected and its `OnConnect` has been raised. It raises `OnReceive`
after `OnConnect`, and before the slot is closed or at least before `OnClose`. -/
def OrderlyWork (server : IOCPServer) : Worker → Prop
  | .close clientIndex =>
      (server.client clientIndex).isConnectd = true ∧
        server.mIOWorkerThreads.countP (announces clientIndex) = 0
  | .onReceive clientIndex =>
      server.mIOWorkerThreads.countP (announces clientIndex) = 0 ∧
        ((server.client clientIndex).isConnectd = true ∨
          0 < server.mIOWorkerThreads.countP (takesLeave clientIndex))
  | _ => True

/-- The binds of an accept succeed and no `OnClose` of its slot is still to be raised, and the workers'
work is orderly. -/
def Orderly (server : IOCPServer) : NetworkEvent → Prop
  | .dequeue _ (.accept clientIndex) bSuccess _ winsock =>
      bSuccess = true → winsock.hIOCP ≠ .invalidHandleValue ∧ winsock.wsaRecv = true ∧
        server.mIOWorkerThreads.countP (takesLeave clientIndex) = 0
  | .work thread _ => ∀ worker ∈ server.mIOWorkerThreads[thread]?, OrderlyWork server worker
  | _ => True

/-- No connection is closed. -/
def Keeps (server : IOCPServer) (event : NetworkEvent) : Prop := closing? server event = none

/-- What was told of a slot, whether it is connected, and how many workers have still to raise its
`OnConnect` and its `OnClose`. -/
structure Told (word : List Notification) (connected : Bool) (announcing leaving : ℕ) : Prop where
  story : ∃ opened, SessionWord .onConnect .onReceive .onClose opened word ∧
    opened.toNat + announcing = connected.toNat + leaving
  early : announcing ≤ connected.toNat
  late : connected.toNat + leaving ≤ 1

section told

variable {word : List Notification} {connected : Bool} {announcing leaving : ℕ}

theorem told_nil : Told [] false 0 0 :=
  ⟨⟨false, sessionWord_nil, rfl⟩, Nat.le_refl _, Nat.zero_le _⟩

theorem Told.accept (told : Told word false announcing 0) : Told word true (announcing + 1) 0 := by
  obtain ⟨⟨opened, story, balance⟩, early, -⟩ := told
  rw [Bool.toNat_false] at balance early
  refine ⟨⟨opened, story, ?_⟩, ?_, Nat.le_refl _⟩
  · rw [Bool.toNat_true]
    omega
  · rw [Bool.toNat_true]
    omega

theorem Told.onConnect (told : Told word connected (announcing + 1) leaving) :
    Told (word ++ [.onConnect]) connected announcing leaving := by
  obtain ⟨⟨opened, story, balance⟩, early, late⟩ := told
  cases opened with
  | true =>
    rw [Bool.toNat_true] at balance
    omega
  | false =>
    rw [Bool.toNat_false] at balance
    refine ⟨⟨true, story.snoc_start, ?_⟩, Nat.le_of_succ_le early, late⟩
    rw [Bool.toNat_true]
    omega

theorem Told.onReceive (told : Told word connected 0 leaving) (serving : connected = true ∨ 0 < leaving) :
    Told (word ++ [.onReceive]) connected 0 leaving := by
  obtain ⟨⟨opened, story, balance⟩, early, late⟩ := told
  cases opened with
  | true => exact ⟨⟨true, story.snoc_item, balance⟩, early, late⟩
  | false =>
    rw [Bool.toNat_false] at balance
    rcases serving with rfl | serving
    · rw [Bool.toNat_true] at balance
      omega
    · omega

theorem Told.close (told : Told word true 0 leaving) : Told word false 0 (leaving + 1) := by
  obtain ⟨⟨opened, story, balance⟩, -, late⟩ := told
  rw [Bool.toNat_true] at balance late
  refine ⟨⟨opened, story, ?_⟩, Nat.zero_le _, ?_⟩
  · rw [Bool.toNat_false]
    omega
  · rw [Bool.toNat_false]
    omega

theorem Told.onClose (told : Told word connected announcing (leaving + 1)) :
    Told (word ++ [.onClose]) connected announcing leaving := by
  obtain ⟨⟨opened, story, balance⟩, early, late⟩ := told
  cases opened with
  | false =>
    rw [Bool.toNat_false] at balance
    omega
  | true =>
    rw [Bool.toNat_true] at balance
    refine ⟨⟨false, story.snoc_stop, ?_⟩, early, Nat.le_of_succ_le late⟩
    rw [Bool.toNat_false]
    omega

end told

/-- A worker is about to count a connection. -/
def counts : Worker → Bool
  | .countClient _ => true
  | _ => false

/-- A worker is about to raise an `OnClose`. -/
def leaves : Worker → Bool
  | .onClose _ => true
  | _ => false

/-- The number of `OnClose` raised so far. -/
def closeCount (server : IOCPServer) : ℕ := server.notifications.countP (·.2 = .onClose)

/-- Every connection that was counted is connected, or its `OnClose` was or will be raised. -/
def Balanced (server : IOCPServer) : Prop :=
  connectedCount server + closeCount server + server.mIOWorkerThreads.countP leaves =
    server.mClientCnt + server.mIOWorkerThreads.countP counts

/-- What was told of a slot of the server. -/
def ToldOf (server : IOCPServer) (clientIndex : ℕ) : Prop :=
  Told (raised server clientIndex) (server.client clientIndex).isConnectd
    (server.mIOWorkerThreads.countP (announces clientIndex))
    (server.mIOWorkerThreads.countP (takesLeave clientIndex))

/-- What was told of all slots, and the count. -/
structure Tells (server : IOCPServer) : Prop where
  told (clientIndex : ℕ) : ToldOf server clientIndex
  balanced : Balanced server

/-- What holds while the steps are orderly. -/
structure Inv (server : IOCPServer) : Prop extends Tells server where
  guarded : Guarded server

/-- A worker that has nothing to tell. -/
def silent (worker : Worker) : Prop :=
  counts worker = false ∧ leaves worker = false ∧
    ∀ clientIndex, announces clientIndex worker = false ∧ takesLeave clientIndex worker = false

/-- A step that tells nothing, and after which the same is to be told. -/
structure SameStory (before after : IOCPServer) : Prop where
  notifications : after.notifications = before.notifications
  mClientCnt : after.mClientCnt = before.mClientCnt
  clients (clientIndex : ℕ) : (after.client clientIndex).isConnectd = (before.client clientIndex).isConnectd
  connected : connectedCount after = connectedCount before
  workers : after.mIOWorkerThreads = before.mIOWorkerThreads ∨
    ∃ thread old new, before.mIOWorkerThreads[thread]? = some old ∧
      after.mIOWorkerThreads = before.mIOWorkerThreads.set thread new ∧ silent old ∧ silent new

section same

variable {before after : IOCPServer}

theorem SameStory.countP (same : SameStory before after) {wanted : Worker → Bool}
    (quiet : ∀ worker, silent worker → wanted worker = false) :
    after.mIOWorkerThreads.countP wanted = before.mIOWorkerThreads.countP wanted := by
  rcases same.workers with kept | ⟨thread, old, new, here, moved, oldSilent, newSilent⟩
  · rw [kept]
  · rw [moved]
    exact countP_set_of_eq here new wanted ((quiet new newSilent).trans (quiet old oldSilent).symm)

theorem SameStory.told (same : SameStory before after) {clientIndex : ℕ} (told : ToldOf before clientIndex) :
    ToldOf after clientIndex := by
  unfold ToldOf raised at told ⊢
  rw [same.notifications, same.clients, same.countP fun _ quiet => (quiet.2.2 clientIndex).1,
    same.countP fun _ quiet => (quiet.2.2 clientIndex).2]
  exact told

theorem SameStory.balanced (same : SameStory before after) (balanced : Balanced before) : Balanced after := by
  simp only [Balanced, closeCount] at balanced ⊢
  rw [same.notifications, same.connected, same.mClientCnt, same.countP fun _ quiet => quiet.1,
    same.countP fun _ quiet => quiet.2.1]
  exact balanced

theorem SameStory.tells (same : SameStory before after) (tells : Tells before) : Tells after :=
  ⟨fun clientIndex => same.told (tells.told clientIndex), same.balanced tells.balanced⟩

/-- The connected slots after one slot has changed. -/
theorem connectedCount_setClient (server : IOCPServer) {clientIndex : ℕ}
    (inside : clientIndex < server.mClientInfos.length) (client : ClientInfo) :
    connectedCount (server.setClient clientIndex client) + (server.client clientIndex).isConnectd.toNat =
      connectedCount server + client.isConnectd.toNat := by
  refine countP_set_add ?_ client ClientInfo.isConnectd
  simp only [IOCPServer.client]
  rw [List.getD_eq_getElem?_getD, List.getElem?_eq_getElem inside, Option.getD_some]

theorem connectedCount_setClient_of_eq (server : IOCPServer) {clientIndex : ℕ} {client : ClientInfo}
    (same : client.isConnectd = (server.client clientIndex).isConnectd) :
    connectedCount (server.setClient clientIndex client) = connectedCount server := by
  by_cases inside : clientIndex < server.mClientInfos.length
  · have moved := connectedCount_setClient server inside client
    rw [same] at moved
    exact Nat.add_right_cancel moved
  · rw [server.setClient_of_outside inside]

end same

theorem silent_idle : silent .getQueuedCompletionStatus := ⟨rfl, rfl, fun _ => ⟨rfl, rfl⟩⟩

section steps

variable {server : IOCPServer}

/-- A worker goes from one thing that tells nothing to another. -/
theorem sameStory_setWorker (server : IOCPServer) {thread : ℕ} {old new : Worker}
    (here : server.mIOWorkerThreads[thread]? = some old) (oldSilent : silent old) (newSilent : silent new) :
    SameStory server (server.setWorker thread new) :=
  ⟨rfl, rfl, fun _ => rfl, rfl, Or.inr ⟨thread, old, new, here, rfl, oldSilent, newSilent⟩⟩

theorem sameStory_sendMsg (server : IOCPServer) (clientIndex : ℕ) (bytes : List UInt8) (winsock : Winsock) :
    SameStory server (server.sendMsg clientIndex bytes winsock) :=
  ⟨rfl, rfl, server.setClient_view ClientInfo.isConnectd rfl, connectedCount_setClient_of_eq server rfl, Or.inl rfl⟩

theorem sameStory_accept (server : IOCPServer) (winsock : Winsock) : SameStory server (server.accept winsock) := by
  simp only [IOCPServer.accept]
  cases server.accepter with
  | sleep => exact ⟨rfl, rfl, fun _ => rfl, rfl, Or.inl rfl⟩
  | visit curTimeSec clientIndex =>
    dsimp only
    split_ifs
    · exact ⟨rfl, rfl, server.setClient_view ClientInfo.isConnectd rfl, connectedCount_setClient_of_eq server rfl,
        Or.inl rfl⟩
    · exact ⟨rfl, rfl, fun _ => rfl, rfl, Or.inl rfl⟩
    · exact ⟨rfl, rfl, fun _ => rfl, rfl, Or.inl rfl⟩

/-- A worker that is about to tell something, or to close a slot. -/
def speaks : Worker → Bool
  | .countClient _ | .onConnect _ | .close _ | .onClose _ | .onReceive _ => true
  | _ => false

/-- The work that tells nothing and changes no connection. -/
theorem sameStory_work (server : IOCPServer) {thread : ℕ} {worker : Worker}
    (here : server.mIOWorkerThreads[thread]? = some worker) (winsock : Winsock) (quiet : speaks worker = false) :
    SameStory server (server.work thread winsock worker) := by
  cases worker with
  | getQueuedCompletionStatus => exact ⟨rfl, rfl, fun _ => rfl, rfl, Or.inl rfl⟩
  | closeSocket clientIndex =>
    refine sameStory_setWorker server here ⟨rfl, rfl, fun _ => ⟨rfl, rfl⟩⟩ ?_
    split_ifs
    · exact silent_idle
    · exact ⟨rfl, rfl, fun _ => ⟨rfl, rfl⟩⟩
  | bindRecv clientIndex =>
    exact ⟨rfl, rfl, fun _ => rfl, rfl,
      Or.inr ⟨thread, _, _, here, rfl, ⟨rfl, rfl, fun _ => ⟨rfl, rfl⟩⟩, silent_idle⟩⟩
  | sendCompleted clientIndex =>
    exact ⟨rfl, rfl, server.setClient_view ClientInfo.isConnectd rfl, connectedCount_setClient_of_eq server rfl,
      Or.inr ⟨thread, _, _, here, rfl, ⟨rfl, rfl, fun _ => ⟨rfl, rfl⟩⟩, silent_idle⟩⟩
  | countClient | onConnect | close | onClose | onReceive => cases quiet

theorem raised_notify_self (server : IOCPServer) (clientIndex : ℕ) (notification : Notification) :
    raised (server.notify clientIndex notification) clientIndex = raised server clientIndex ++ [notification] := by
  simp only [raised, IOCPServer.notify]
  rw [List.filter_append, List.map_append, List.filter_singleton, decide_eq_true rfl]
  rfl

theorem raised_notify_other (server : IOCPServer) {clientIndex other : ℕ} (different : clientIndex ≠ other)
    (notification : Notification) :
    raised (server.notify clientIndex notification) other = raised server other := by
  simp only [raised, IOCPServer.notify]
  rw [List.filter_append, List.map_append, List.filter_cons_of_neg (by rwa [decide_eq_true_eq])]
  exact List.append_nil _

theorem closeCount_notify (server : IOCPServer) (clientIndex : ℕ) (notification : Notification) :
    closeCount (server.notify clientIndex notification) =
      closeCount server + if notification = .onClose then 1 else 0 := by
  simp only [closeCount, IOCPServer.notify]
  rw [List.countP_append, List.countP_singleton]
  simp only [decide_eq_true_eq]

/-- A worker moves on, seen from a slot for which this changes nothing. -/
theorem ToldOf.move {after : IOCPServer} {other thread : ℕ} {old new : Worker} (told : ToldOf server other)
    (here : server.mIOWorkerThreads[thread]? = some old)
    (workers : after.mIOWorkerThreads = server.mIOWorkerThreads.set thread new)
    (story : raised after other = raised server other)
    (client : (after.client other).isConnectd = (server.client other).isConnectd)
    (announcing : announces other new = announces other old)
    (leaving : takesLeave other new = takesLeave other old) : ToldOf after other := by
  simp only [ToldOf] at told ⊢
  rw [story, client, workers, countP_set_of_eq here new _ announcing, countP_set_of_eq here new _ leaving]
  exact told

/-- A worker raises a notification and goes on, seen from the slot that it is about. -/
theorem toldOf_notify_self (server : IOCPServer) (thread clientIndex : ℕ) (notification : Notification)
    (new : Worker) :
    ToldOf ((server.notify clientIndex notification).setWorker thread new) clientIndex ↔
      Told (raised server clientIndex ++ [notification]) (server.client clientIndex).isConnectd
        ((server.mIOWorkerThreads.set thread new).countP (announces clientIndex))
        ((server.mIOWorkerThreads.set thread new).countP (takesLeave clientIndex)) := by
  rw [← raised_notify_self]
  exact Iff.rfl

/-- An `OnClose` that is raised was still to be raised. -/
theorem Balanced.notify (balanced : Balanced server) {thread : ℕ} {old new : Worker}
    (here : server.mIOWorkerThreads[thread]? = some old) (clientIndex : ℕ) {notification : Notification}
    (counted : counts new = counts old) (stays : leaves new = false)
    (left : (leaves old).toNat = if notification = .onClose then 1 else 0) :
    Balanced ((server.notify clientIndex notification).setWorker thread new) := by
  have counting := countP_set_of_eq here new counts counted
  have leaving := countP_set_add here new leaves
  have closed := closeCount_notify server clientIndex notification
  rw [stays, Bool.toNat_false, left] at leaving
  simp only [Balanced] at balanced ⊢
  change connectedCount server + closeCount (server.notify clientIndex notification) +
      (server.mIOWorkerThreads.set thread new).countP leaves =
    server.mClientCnt + (server.mIOWorkerThreads.set thread new).countP counts
  omega

/-- `++mClientCnt`. -/
theorem Inv.countClient (inv : Inv server) {thread clientIndex : ℕ}
    (here : server.mIOWorkerThreads[thread]? = some (.countClient clientIndex)) (winsock : Winsock) :
    Tells (server.work thread winsock (.countClient clientIndex)) := by
  refine ⟨fun other => (inv.told other).move here rfl rfl rfl rfl rfl, ?_⟩
  have balanced := inv.balanced
  have counted := countP_set_leave here (.onConnect clientIndex) counts rfl rfl
  have leaving := countP_set_of_eq here (.onConnect clientIndex) leaves rfl
  simp only [Balanced] at balanced ⊢
  change connectedCount server + closeCount server +
      (server.mIOWorkerThreads.set thread (.onConnect clientIndex)).countP leaves =
    server.mClientCnt + 1 + (server.mIOWorkerThreads.set thread (.onConnect clientIndex)).countP counts
  omega

/-- `OnConnect`. -/
theorem Inv.onConnect (inv : Inv server) {thread clientIndex : ℕ}
    (here : server.mIOWorkerThreads[thread]? = some (.onConnect clientIndex)) (winsock : Winsock) :
    Tells (server.work thread winsock (.onConnect clientIndex)) := by
  refine ⟨fun other => ?_, inv.balanced.notify here clientIndex rfl rfl rfl⟩
  by_cases mine : clientIndex = other
  · subst mine
    have told : Told _ _ _ _ := inv.told clientIndex
    have announced := countP_set_leave here .getQueuedCompletionStatus (announces clientIndex)
      (decide_eq_true rfl) rfl
    have leaving := countP_set_of_eq here .getQueuedCompletionStatus (takesLeave clientIndex) rfl
    rw [← announced] at told
    refine (toldOf_notify_self server thread clientIndex .onConnect .getQueuedCompletionStatus).mpr ?_
    rw [leaving]
    exact told.onConnect
  · exact (inv.told other).move here rfl (raised_notify_other server mine _) rfl (decide_eq_false mine).symm rfl

/-- `OnReceive`. -/
theorem Inv.onReceive (inv : Inv server) {thread clientIndex : ℕ}
    (here : server.mIOWorkerThreads[thread]? = some (.onReceive clientIndex)) (winsock : Winsock)
    (announced : server.mIOWorkerThreads.countP (announces clientIndex) = 0)
    (serving : (server.client clientIndex).isConnectd = true ∨
      0 < server.mIOWorkerThreads.countP (takesLeave clientIndex)) :
    Tells (server.work thread winsock (.onReceive clientIndex)) := by
  refine ⟨fun other => ?_, inv.balanced.notify here clientIndex rfl rfl rfl⟩
  by_cases mine : clientIndex = other
  · subst mine
    have told : Told _ _ _ _ := inv.told clientIndex
    have announcing := countP_set_of_eq here (.bindRecv clientIndex) (announces clientIndex) rfl
    have leaving := countP_set_of_eq here (.bindRecv clientIndex) (takesLeave clientIndex) rfl
    rw [announced] at told
    refine (toldOf_notify_self server thread clientIndex .onReceive (.bindRecv clientIndex)).mpr ?_
    rw [announcing, announced, leaving]
    exact told.onReceive serving
  · exact (inv.told other).move here rfl (raised_notify_other server mine _) rfl rfl rfl

/-- `OnClose`. -/
theorem Inv.onClose (inv : Inv server) {thread clientIndex : ℕ}
    (here : server.mIOWorkerThreads[thread]? = some (.onClose clientIndex)) (winsock : Winsock) :
    Tells (server.work thread winsock (.onClose clientIndex)) := by
  refine ⟨fun other => ?_, inv.balanced.notify here clientIndex rfl rfl rfl⟩
  by_cases mine : clientIndex = other
  · subst mine
    have told : Told _ _ _ _ := inv.told clientIndex
    have announcing := countP_set_of_eq here .getQueuedCompletionStatus (announces clientIndex) rfl
    have left := countP_set_leave here .getQueuedCompletionStatus (takesLeave clientIndex)
      (decide_eq_true rfl) rfl
    rw [← left] at told
    refine (toldOf_notify_self server thread clientIndex .onClose .getQueuedCompletionStatus).mpr ?_
    rw [announcing]
    exact told.onClose
  · exact (inv.told other).move here rfl (raised_notify_other server mine _) rfl rfl (decide_eq_false mine).symm

/-- `Close`. -/
theorem Inv.close (inv : Inv server) {thread clientIndex : ℕ}
    (here : server.mIOWorkerThreads[thread]? = some (.close clientIndex)) (winsock : Winsock)
    (connected : (server.client clientIndex).isConnectd = true)
    (announced : server.mIOWorkerThreads.countP (announces clientIndex) = 0) :
    Tells (server.work thread winsock (.close clientIndex)) := by
  have inside := server.lt_length_of_isConnectd connected
  have closedClient := server.client_setClient_self inside ((server.client clientIndex).close server.clock)
  constructor
  · intro other
    by_cases mine : clientIndex = other
    · subst mine
      have told := inv.told clientIndex
      have announcing := countP_set_of_eq here (.onClose clientIndex) (announces clientIndex) rfl
      have leaving := countP_set_enter here (.onClose clientIndex) (takesLeave clientIndex) rfl
        (decide_eq_true rfl)
      simp only [ToldOf] at told ⊢
      rw [connected, announced] at told
      change Told (raised server clientIndex)
        ((server.setClient clientIndex ((server.client clientIndex).close server.clock)).client clientIndex).isConnectd
        ((server.mIOWorkerThreads.set thread (.onClose clientIndex)).countP (announces clientIndex))
        ((server.mIOWorkerThreads.set thread (.onClose clientIndex)).countP (takesLeave clientIndex))
      rw [closedClient, announcing, announced, leaving]
      exact told.close
    · exact (inv.told other).move here rfl rfl
        (congrArg ClientInfo.isConnectd (server.client_setClient_other (Ne.symm mine) _)) rfl (decide_eq_false mine)
  · have balanced := inv.balanced
    have counted := countP_set_of_eq here (.onClose clientIndex) counts rfl
    have leaving := countP_set_enter here (.onClose clientIndex) leaves rfl rfl
    have closed := connectedCount_setClient server inside ((server.client clientIndex).close server.clock)
    rw [connected, Bool.toNat_true, show ((server.client clientIndex).close server.clock).isConnectd = false from rfl,
      Bool.toNat_false] at closed
    simp only [Balanced] at balanced ⊢
    change connectedCount (server.setClient clientIndex ((server.client clientIndex).close server.clock)) +
        closeCount server + (server.mIOWorkerThreads.set thread (.onClose clientIndex)).countP leaves =
      server.mClientCnt + (server.mIOWorkerThreads.set thread (.onClose clientIndex)).countP counts
    omega

/-- An accept that succeeds. -/
theorem Inv.accepted (inv : Inv server) {thread clientIndex : ℕ}
    (here : server.mIOWorkerThreads[thread]? = some .getQueuedCompletionStatus)
    (posted : .accept clientIndex ∈ server.posted) (dwIoSize : ℕ) {winsock : Winsock}
    (port : winsock.hIOCP ≠ .invalidHandleValue) (recv : winsock.wsaRecv = true)
    (left : server.mIOWorkerThreads.countP (takesLeave clientIndex) = 0) {after : IOCPServer}
    (step : after = IOCPServer.dequeued { server with posted := server.posted.erase (.accept clientIndex) } thread
      (.accept clientIndex) true dwIoSize winsock) :
    Tells after := by
  have inside := inv.guarded.inside clientIndex posted
  obtain ⟨off, -, socket⟩ := (inv.guarded.marked clientIndex).waits (List.count_pos_iff.mpr posted)
  have result := ((server.client clientIndex).acceptCompletion_eq_true_iff ..).mpr ⟨port, socket, recv⟩
  set next := ((server.client clientIndex).acceptCompletion winsock.hIOCP winsock.wsaRecv).2 with client
  have on : next.isConnectd = true := by
    rw [client, ClientInfo.acceptCompletion_client]
    rfl
  have workers : after.mIOWorkerThreads = server.mIOWorkerThreads.set thread (.countClient clientIndex) := by
    rw [step]
    change server.mIOWorkerThreads.set thread (if ((server.client clientIndex).acceptCompletion winsock.hIOCP
      winsock.wsaRecv).1 then _ else _) = _
    rw [if_pos result]
  have view : after.client = (server.setClient clientIndex next).client := by
    rw [step]
    rfl
  have story (other : ℕ) : raised after other = raised server other := by
    rw [step]
    rfl
  constructor
  · intro other
    by_cases mine : clientIndex = other
    · subst mine
      have told := inv.told clientIndex
      have announcing := countP_set_enter here (.countClient clientIndex) (announces clientIndex) rfl
        (decide_eq_true rfl)
      have leaving := countP_set_of_eq here (.countClient clientIndex) (takesLeave clientIndex) rfl
      simp only [ToldOf] at told ⊢
      rw [off, left] at told
      rw [story, view, server.client_setClient_self inside, on, workers, announcing, leaving, left]
      exact told.accept
    · exact (inv.told other).move here workers (story other)
        (by rw [view, server.client_setClient_other (Ne.symm mine)]) (decide_eq_false mine) rfl
  · have balanced := inv.balanced
    have counted := countP_set_enter here (.countClient clientIndex) counts rfl rfl
    have leaving := countP_set_of_eq here (.countClient clientIndex) leaves rfl
    have opened := connectedCount_setClient server inside next
    rw [off, on, Bool.toNat_false, Bool.toNat_true] at opened
    have total : connectedCount after = connectedCount (server.setClient clientIndex next) := by
      rw [step]
      rfl
    have closes : closeCount after = closeCount server := by
      rw [step]
      rfl
    have count : after.mClientCnt = server.mClientCnt := by
      rw [step]
      rfl
    unfold Balanced at balanced ⊢
    rw [workers, total, closes, count]
    omega

/-- A worker that is about to close a connected slot does not take an accept away. -/
theorem Inv.closesFree (inv : Inv server) {event : NetworkEvent} (orderly : Orderly server event) :
    ClosesFree server event := by
  intro clientIndex closes posted
  cases event with
  | work thread winsock =>
    dsimp only [closing?] at closes
    split at closes
    · rename_i other here
      obtain rfl := Option.some.inj closes
      obtain ⟨on, -⟩ : OrderlyWork server (.close other) := orderly _ here
      obtain ⟨off, -⟩ := (inv.guarded.marked other).waits (List.count_pos_iff.mpr posted)
      exact Bool.false_ne_true (off.symm.trans on)
    · cases closes
  | dequeue thread operation bSuccess dwIoSize winsock => cases closes
  | sendMsg other bytes winsock => cases closes
  | accept winsock => cases closes
  | tick => cases closes

theorem Inv.work (inv : Inv server) {thread : ℕ} {winsock : Winsock} {worker : Worker}
    (orderly : Orderly server (.work thread winsock)) (here : server.mIOWorkerThreads[thread]? = some worker) :
    Tells (server.work thread winsock worker) := by
  have met := orderly worker here
  cases worker with
  | countClient clientIndex => exact inv.countClient here winsock
  | onConnect clientIndex => exact inv.onConnect here winsock
  | close clientIndex => exact inv.close here winsock met.1 met.2
  | onClose clientIndex => exact inv.onClose here winsock
  | onReceive clientIndex => exact inv.onReceive here winsock met.1 met.2
  | getQueuedCompletionStatus | closeSocket | bindRecv | sendCompleted =>
    exact (sameStory_work server here winsock rfl).tells inv.toTells

/-- A worker takes a completion. -/
theorem Inv.dequeued (inv : Inv server) {thread : ℕ} {operation : Operation} {bSuccess : Bool} {dwIoSize : ℕ}
    {winsock : Winsock} (orderly : Orderly server (.dequeue thread operation bSuccess dwIoSize winsock))
    (here : server.mIOWorkerThreads[thread]? = some .getQueuedCompletionStatus)
    (posted : operation ∈ server.posted) {after : IOCPServer}
    (step : after = IOCPServer.dequeued { server with posted := server.posted.erase operation } thread operation
      bSuccess dwIoSize winsock) :
    Tells after := by
  have quietly (same : SameStory server after) : Tells after := same.tells inv.toTells
  have speechless (clientIndex : ℕ) (failed : Prop) [Decidable failed] {good : Worker} (quiet : silent good) :
      silent (if failed then .closeSocket clientIndex else good) := by
    split_ifs
    · exact ⟨rfl, rfl, fun _ => ⟨rfl, rfl⟩⟩
    · exact quiet
  cases operation with
  | accept clientIndex =>
    cases bSuccess with
    | false => exact quietly (step ▸ ⟨rfl, rfl, fun _ => rfl, rfl, Or.inl rfl⟩)
    | true =>
      obtain ⟨port, recv, left⟩ := orderly rfl
      exact inv.accepted here posted dwIoSize port recv left step
  | recv clientIndex =>
    refine quietly (step ▸ ⟨rfl, rfl, fun _ => rfl, rfl, Or.inr ⟨thread, _, _, here, rfl, silent_idle, ?_⟩⟩)
    exact speechless clientIndex _ ⟨rfl, rfl, fun _ => ⟨rfl, rfl⟩⟩
  | send clientIndex overlapped =>
    refine quietly (step ▸ ⟨rfl, rfl, fun _ => rfl, rfl, Or.inr ⟨thread, _, _, here, rfl, silent_idle, ?_⟩⟩)
    exact speechless clientIndex _ ⟨rfl, rfl, fun _ => ⟨rfl, rfl⟩⟩

theorem Inv.step (inv : Inv server) (event : NetworkEvent) (orderly : Orderly server event) :
    Inv (server.step event) := by
  have tells : Tells (server.step event) := by
    refine server.step_cases inv.toTells ?_ ?_ ?_ ?_ ?_
    · rintro thread operation bSuccess dwIoSize winsock rfl here posted
      exact inv.dequeued orderly here posted rfl
    · rintro thread winsock worker rfl here
      exact inv.work orderly here
    · intro clientIndex bytes winsock _ _
      exact (sameStory_sendMsg server clientIndex bytes winsock).tells inv.toTells
    · intro winsock _
      exact (sameStory_accept server winsock).tells inv.toTells
    · intro _ _
      have same : SameStory server { server with clock := server.clock + 1 } :=
        ⟨rfl, rfl, fun _ => rfl, rfl, Or.inl rfl⟩
      exact same.tells inv.toTells
  exact ⟨tells, inv.guarded.step event (inv.closesFree orderly)⟩

/-- No connection has been closed. -/
def AllKept (server : IOCPServer) : Prop :=
  closeCount server = 0 ∧ server.mIOWorkerThreads.countP leaves = 0

theorem SameStory.allKept {after : IOCPServer} (same : SameStory server after) (kept : AllKept server) :
    AllKept after := by
  simp only [AllKept, closeCount] at kept ⊢
  rw [same.notifications, same.countP fun _ quiet => quiet.2.1]
  exact kept

theorem AllKept.work (kept : AllKept server) {thread : ℕ} {worker : Worker}
    (here : server.mIOWorkerThreads[thread]? = some worker) (winsock : Winsock)
    (keeps : ∀ clientIndex, worker ≠ .close clientIndex) : AllKept (server.work thread winsock worker) := by
  obtain ⟨none, staying⟩ := kept
  have stays (new : Worker) (quiet : leaves new = false) (same : leaves worker = false) :
      (server.mIOWorkerThreads.set thread new).countP leaves = 0 :=
    (countP_set_of_eq here new leaves (quiet.trans same.symm)).trans staying
  cases worker with
  | countClient clientIndex => exact ⟨none, stays _ rfl rfl⟩
  | onConnect clientIndex => exact ⟨(closeCount_notify server clientIndex .onConnect).trans none, stays _ rfl rfl⟩
  | close clientIndex => exact absurd rfl (keeps clientIndex)
  | onClose clientIndex =>
    rw [List.countP_eq_zero] at staying
    exact absurd rfl (staying _ (List.mem_of_getElem? here))
  | onReceive clientIndex => exact ⟨(closeCount_notify server clientIndex .onReceive).trans none, stays _ rfl rfl⟩
  | getQueuedCompletionStatus | closeSocket | bindRecv | sendCompleted =>
    exact (sameStory_work server here winsock rfl).allKept ⟨none, staying⟩

theorem AllKept.step (kept : AllKept server) (event : NetworkEvent) (keeps : Keeps server event) :
    AllKept (server.step event) := by
  refine server.step_cases kept ?_ ?_ ?_ ?_ ?_
  · intro thread operation bSuccess dwIoSize winsock _ here _
    have stays (new : Worker) (quiet : leaves new = false) :
        (server.mIOWorkerThreads.set thread new).countP leaves = 0 :=
      (countP_set_of_eq here new leaves quiet).trans kept.2
    cases operation with
    | accept clientIndex =>
      simp only [IOCPServer.dequeued]
      by_cases failed : bSuccess = false
      · rw [if_pos failed]
        exact kept
      · rw [if_neg failed]
        refine ⟨kept.1, stays _ ?_⟩
        split_ifs <;> rfl
    | recv clientIndex =>
      refine ⟨kept.1, stays _ ?_⟩
      split_ifs <;> rfl
    | send clientIndex overlapped =>
      refine ⟨kept.1, stays _ ?_⟩
      split_ifs <;> rfl
  · rintro thread winsock worker rfl here
    refine kept.work here winsock fun clientIndex same => ?_
    rw [same] at here
    have closes := closing?_eq_some here winsock
    rw [show closing? server _ = none from keeps] at closes
    cases closes
  · intro clientIndex bytes winsock _ _
    exact (sameStory_sendMsg server clientIndex bytes winsock).allKept kept
  · intro winsock _
    exact (sameStory_accept server winsock).allKept kept
  · intro _ _
    exact kept

/-- Between completions, `mClientCnt` is the number of connections, those that were closed included. -/
theorem Inv.mClientCnt_eq (inv : Inv server) (idle : Idle server) :
    server.mClientCnt = connectedCount server + closeCount server := by
  have balanced := inv.balanced
  have none (wanted : Worker → Bool) (quiet : wanted .getQueuedCompletionStatus = false) :
      server.mIOWorkerThreads.countP wanted = 0 := by
    rw [List.countP_eq_zero]
    intro worker member speaks
    rw [idle worker member, quiet] at speaks
    cases speaks
  unfold Balanced at balanced
  rw [none leaves rfl, none counts rfl] at balanced
  exact balanced.symm

theorem Inv.word (inv : Inv server) (clientIndex : ℕ) :
    ∃ more, raised server clientIndex ++ more ∈ sessions .onConnect .onReceive .onClose := by
  obtain ⟨opened, story, -⟩ := (inv.told clientIndex).story
  exact story.exists_append_mem

theorem inv_init (maxClientCount maxIOWorkerThreadCount : ℕ) :
    Inv (IOCPServer.init maxClientCount maxIOWorkerThreadCount) := by
  have nobody (wanted : Worker → Bool) (quiet : wanted .getQueuedCompletionStatus = false) :
      (IOCPServer.init maxClientCount maxIOWorkerThreadCount).mIOWorkerThreads.countP wanted = 0 := by
    rw [List.countP_eq_zero]
    intro worker member speaks
    rw [List.eq_of_mem_replicate member, quiet] at speaks
    cases speaks
  have off : connectedCount (IOCPServer.init maxClientCount maxIOWorkerThreadCount) = 0 := by
    unfold connectedCount
    rw [List.countP_eq_zero]
    intro client member connected
    rw [List.eq_of_mem_replicate member] at connected
    cases connected
  refine ⟨⟨fun clientIndex => ?_, ?_⟩, guarded_init maxClientCount maxIOWorkerThreadCount⟩
  · simp only [ToldOf]
    rw [client_init, nobody _ rfl, nobody _ rfl]
    exact told_nil
  · unfold Balanced
    rw [off, nobody _ rfl, nobody _ rfl]
    rfl

end steps

/-- In every run of the workers and the accepter over all slots whose steps are orderly, the notifications
of every slot are on the way to a word of `(OnConnect OnReceive* OnClose)*` in every state, and between
completions `mClientCnt` is too large by the number of `OnClose` raised. If moreover no connection is ever
closed, it is the number of connected slots. -/
theorem orderly_run_notified (maxClientCount maxIOWorkerThreadCount : ℕ) (events : List NetworkEvent)
    (orderly : Along IOCPServer.step Orderly (IOCPServer.init maxClientCount maxIOWorkerThreadCount) events) :
    Always IOCPServer.step
        (fun server =>
          (∀ clientIndex, ∃ more,
            raised server clientIndex ++ more ∈ sessions .onConnect .onReceive .onClose) ∧
          (Idle server → server.mClientCnt = connectedCount server + closeCount server))
        (IOCPServer.init maxClientCount maxIOWorkerThreadCount) events ∧
      (Along IOCPServer.step Keeps (IOCPServer.init maxClientCount maxIOWorkerThreadCount) events →
        Always IOCPServer.step Notified (IOCPServer.init maxClientCount maxIOWorkerThreadCount) events) := by
  have initial := inv_init maxClientCount maxIOWorkerThreadCount
  constructor
  · have always : Always IOCPServer.step Inv _ events :=
      always_of_along (fun _ event inv met => inv.step event met) initial orderly
    exact always.mono fun _ inv => ⟨inv.word, inv.mClientCnt_eq⟩
  · intro keeps
    have kept : AllKept (IOCPServer.init maxClientCount maxIOWorkerThreadCount) := by
      refine ⟨rfl, List.countP_eq_zero.mpr fun worker member speaks => ?_⟩
      rw [List.eq_of_mem_replicate member] at speaks
      cases speaks
    have always : Always IOCPServer.step (fun server => Inv server ∧ AllKept server) _ events :=
      always_of_along (fun _ event inv met => ⟨inv.1.step event met.1, inv.2.step event met.2⟩) ⟨initial, kept⟩
        ((along_and _ _ _ _ _).mpr ⟨orderly, keeps⟩)
    refine always.mono fun server inv => ⟨inv.1.word, fun idle => ?_⟩
    rw [inv.1.mClientCnt_eq idle, inv.2.1, Nat.add_zero]

instance (server : IOCPServer) (worker : Worker) : Decidable (OrderlyWork server worker) :=
  match worker with
  | .close _ => inferInstanceAs (Decidable (_ ∧ _))
  | .onReceive _ => inferInstanceAs (Decidable (_ ∧ _))
  | .getQueuedCompletionStatus | .countClient _ | .onConnect _ | .closeSocket _ | .onClose _ | .bindRecv _
  | .sendCompleted _ => inferInstanceAs (Decidable True)

instance (server : IOCPServer) (event : NetworkEvent) : Decidable (Orderly server event) :=
  match event with
  | .dequeue _ (.accept _) _ _ _ => inferInstanceAs (Decidable (_ → _))
  | .work thread _ =>
      inferInstanceAs (Decidable (∀ worker ∈ server.mIOWorkerThreads[thread]?, OrderlyWork server worker))
  | .dequeue _ (.recv _) _ _ _ | .dequeue _ (.send _ _) _ _ _ | .sendMsg _ _ _ | .accept _ | .tick =>
      inferInstanceAs (Decidable True)

instance (server : IOCPServer) (event : NetworkEvent) : Decidable (Keeps server event) :=
  inferInstanceAs (Decidable (closing? server event = none))

/-- A client is accepted and sends something. -/
def greetingRun : List NetworkEvent :=
  firstPass ++ [.accept {}, .dequeue 0 (.accept 0) true 0 {}, .work 0 {}, .work 0 {},
    .dequeue 1 (.recv 0) true 5 {}, .work 1 {}, .work 1 {}]

theorem orderly_run_notified_greeting :
    Always IOCPServer.step Notified (IOCPServer.init 1 1) greetingRun ∧
      raised (run IOCPServer.step (IOCPServer.init 1 1) greetingRun) 0 = [.onConnect, .onReceive] :=
  ⟨(orderly_run_notified 1 1 greetingRun (by decide)).2 (by decide), by decide⟩

/-- A receive is handled before the worker that accepted the client has raised `OnConnect`; and a client
that came and went is still counted. -/
theorem run_not_notified :
    ¬ Always IOCPServer.step Notified (IOCPServer.init 1 1)
        (firstPass ++ [.accept {}, .dequeue 0 (.accept 0) true 0 {}, .dequeue 1 (.recv 0) true 5 {}, .work 1 {}]) ∧
      ¬ Always IOCPServer.step Notified (IOCPServer.init 1 1)
        (firstPass ++ [.accept {}, .dequeue 0 (.accept 0) true 0 {}, .work 0 {}, .work 0 {},
          .dequeue 1 (.recv 0) true 0 {}, .work 1 {}, .work 1 {}, .work 1 {}]) := by
  constructor
  · intro always
    obtain ⟨more, whole⟩ := always.last.word 0
    have first := head_of_mem_sessions (show Notification.onReceive :: more ∈ _ from whole)
    cases first
  · intro always
    have count := always.last.count (by unfold Idle; decide)
    revert count
    decide

end CppRedis.Soundness.Notifications
