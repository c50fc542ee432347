import CppRedis.Soundness.Sending

/-! # Sends of one connection

A connection that is accepted on an empty queue, whose sends Winsock takes and completes. Sending is started
by `SendMsg` for the first buffer and by `SendCompleted` for every other one; between them each buffer is
sent once and in order. What was on the slot before does not matter: only sends of queued buffers are
outstanding, so an empty queue has none.
-/

namespace CppRedis.Soundness.SendOrder

open Machine Model.GameServer Sending

/-- A call of the packet thread or of a worker; every `WSASend` it makes is taken. -/
inductive SendEvent where
  | sendMsg (bytes : List UInt8)
  | sendCompleted (overlapped : OverlappedEx)

def step (traffic : Traffic) : SendEvent → Traffic
  | .sendMsg bytes => traffic.step (.sendMsg bytes true)
  | .sendCompleted overlapped => traffic.step (.sendCompleted overlapped true)

/-- The message that a call passes to `SendMsg`. -/
def SendEvent.message : SendEvent → List (List UInt8)
  | .sendMsg bytes => [bytes]
  | .sendCompleted _ => []

/-- A connection that has just been accepted, after anything that happened on the slot, and that finds an
empty queue. -/
structure Connection where
  history : List TrafficEvent
  hIOCP : Handle
  wsaRecv : Bool
  now : ℕ
  free : (run Traffic.step {} history).client.isConnectd = false
  accepted : ((run Traffic.step {} history).acceptCompletion hIOCP wsaRecv now).client.isConnectd = true
  empty : ((run Traffic.step {} history).acceptCompletion hIOCP wsaRecv now).client.mSendDataqueue = []

def Connection.opened (connection : Connection) : Traffic :=
  (run Traffic.step {} connection.history).step
    (.acceptCompletion connection.hIOCP connection.wsaRecv connection.now)

/-- A connection in progress: all its messages that have not been handed over wait behind the front. -/
structure InOrder (traffic : Traffic) : Prop where
  connected : traffic.client.isConnectd = true
  socket : traffic.client.mSocket.isSome = true
  outstanding : traffic.outstanding = traffic.client.mSendDataqueue.head?.toList
  passed : traffic.passedNow = traffic.handedNow ++ traffic.client.mSendDataqueue.tail

namespace InOrder

variable {traffic : Traffic}

/-- A message is handed over at once or waits behind the others. -/
theorem sendMsg (inOrder : InOrder traffic) (bytes : List UInt8) :
    InOrder (traffic.sendMsg bytes true) ∧
      (traffic.sendMsg bytes true).passedNow = traffic.passedNow ++ [newBuffer traffic bytes] := by
  obtain ⟨connected, socket, outstanding, passed⟩ := inOrder
  by_cases empty : traffic.client.mSendDataqueue = []
  · rw [empty] at outstanding passed
    rw [sendMsg_nil empty, socket, connected, outstanding]
    refine ⟨⟨connected, socket, rfl, ?_⟩, Function.update_self ..⟩
    rw [List.tail_nil, List.append_nil] at passed
    dsimp only [Traffic.passedNow, Traffic.handedNow] at passed ⊢
    rw [if_pos rfl, Function.update_self, Function.update_self, passed, List.tail_cons, List.append_nil]
  · rw [sendMsg_waiting empty]
    refine ⟨⟨connected, socket, ?_, ?_⟩, Function.update_self ..⟩
    · dsimp only
      rw [List.head?_append_of_ne_nil _ empty, outstanding]
    · dsimp only [Traffic.passedNow, Traffic.handedNow] at passed ⊢
      rw [Function.update_self, passed, List.tail_append_of_ne_nil empty, List.append_assoc]

/-- The completion of the front hands over the next message. -/
theorem sendCompleted (inOrder : InOrder traffic) {overlapped : OverlappedEx}
    (sent : overlapped ∈ traffic.outstanding) :
    InOrder (traffic.sendCompleted overlapped true) ∧
      (traffic.sendCompleted overlapped true).passedNow = traffic.passedNow := by
  obtain ⟨connected, socket, outstanding, passed⟩ := inOrder
  cases queue : traffic.client.mSendDataqueue with
  | nil =>
    rw [outstanding, queue] at sent
    cases sent
  | cons front rest =>
    rw [queue] at outstanding passed
    rw [outstanding] at sent
    obtain rfl := List.mem_singleton.mp sent
    cases rest with
    | nil =>
      rw [sendCompleted_last queue outstanding]
      exact ⟨⟨connected, socket, rfl, passed⟩, rfl⟩
    | cons next rest =>
      rw [sendCompleted_next queue outstanding, socket, connected]
      refine ⟨⟨connected, socket, rfl, ?_⟩, rfl⟩
      dsimp only [Traffic.passedNow, Traffic.handedNow] at passed ⊢
      rw [if_pos rfl, Function.update_self, passed, List.tail_cons, List.tail_cons, List.append_cons]

/-- The messages passed are those of the calls. -/
theorem step (inOrder : InOrder traffic) (event : SendEvent) :
    InOrder (step traffic event) ∧
      (SendOrder.step traffic event).passedNow.map OverlappedEx.wsaBuf =
        traffic.passedNow.map OverlappedEx.wsaBuf ++ event.message := by
  cases event with
  | sendMsg bytes =>
    obtain ⟨next, passed⟩ := inOrder.sendMsg bytes
    refine ⟨next, ?_⟩
    change (traffic.sendMsg bytes true).passedNow.map OverlappedEx.wsaBuf = _
    rw [passed, List.map_append]
    rfl
  | sendCompleted overlapped =>
    rw [SendEvent.message, List.append_nil]
    simp only [SendOrder.step, Traffic.step]
    split_ifs with sent
    · obtain ⟨next, passed⟩ := inOrder.sendCompleted sent
      exact ⟨next, congrArg _ passed⟩
    · exact ⟨inOrder, rfl⟩

theorem run (inOrder : InOrder traffic) (events : List SendEvent) :
    InOrder (run SendOrder.step traffic events) ∧
      (Machine.run SendOrder.step traffic events).passedNow.map OverlappedEx.wsaBuf =
        traffic.passedNow.map OverlappedEx.wsaBuf ++ events.flatMap SendEvent.message := by
  induction events generalizing traffic with
  | nil => exact ⟨inOrder, (List.append_nil _).symm⟩
  | cons event rest ih =>
    obtain ⟨next, passed⟩ := inOrder.step event
    obtain ⟨last, all⟩ := ih next
    refine ⟨last, ?_⟩
    rw [run_cons, all, passed, List.flatMap_cons, List.append_assoc]

end InOrder

/-- A connection starts in order, with nothing passed yet. -/
theorem Connection.inOrder (connection : Connection) :
    InOrder connection.opened ∧ connection.opened.passedNow = [] := by
  have basic : Basic (run Traffic.step {} connection.history) :=
    run_invariant Basic (fun _ event basic => basic.step event) ⟨Or.inl rfl, fun _ _ => ⟨rfl, rfl⟩⟩ _
  have accepted := connection.accepted
  have empty := connection.empty
  have opened : connection.opened = (run Traffic.step {} connection.history).acceptCompletion
      connection.hIOCP connection.wsaRecv connection.now :=
    if_neg (by rw [connection.free]; exact Bool.false_ne_true)
  rw [opened]
  cases result : ((run Traffic.step {} connection.history).client.acceptCompletion connection.hIOCP
      connection.wsaRecv).1 with
  | false =>
    obtain ⟨client, next, off, -⟩ := acceptCompletion_false result connection.now
    rw [next] at accepted
    exact absurd (off.symm.trans accepted) Bool.false_ne_true
  | true =>
    obtain ⟨next, socket⟩ := acceptCompletion_true result connection.now
    rw [next] at empty ⊢
    obtain ⟨passed, handed⟩ := basic.fresh _ (Nat.lt_succ_self _)
    have queue : (run Traffic.step {} connection.history).client.mSendDataqueue = [] := empty
    refine ⟨⟨rfl, socket, ?_, ?_⟩, passed⟩
    · dsimp only
      rw [basic.single.outstanding_nil queue, queue]
      rfl
    · dsimp only [Traffic.passedNow, Traffic.handedNow]
      rw [passed, handed, queue]
      rfl

/-- On every connection that is accepted on an empty queue, over every sequence of calls whose sends Winsock
takes and completes: the outstanding sends are the queue's front, or none for an empty queue, and what was handed
to `WSASend`, followed by the queue behind its front, is what was passed to `SendMsg`, in order. -/
theorem sends_in_order (connection : Connection) (events : List SendEvent) :
    (run step connection.opened events).outstanding =
        (run step connection.opened events).client.mSendDataqueue.head?.toList ∧
      ((run step connection.opened events).handedNow ++
          (run step connection.opened events).client.mSendDataqueue.tail).map OverlappedEx.wsaBuf =
        events.flatMap SendEvent.message := by
  obtain ⟨initial, nothing⟩ := connection.inOrder
  obtain ⟨last, passed⟩ := initial.run events
  refine ⟨last.outstanding, ?_⟩
  rw [← last.passed, passed, nothing]
  rfl

/-- The first connection of a slot. -/
def firstConnection : Connection where
  history := [.postAccept (some 7) true]
  hIOCP := .port
  wsaRecv := true
  now := 10
  free := by decide
  accepted := by decide
  empty := by decide

example : (run step firstConnection.opened [.sendMsg [1], .sendMsg [2], .sendCompleted ⟨0, [1]⟩]).outstanding =
    [⟨1, [2]⟩] := by decide

end CppRedis.Soundness.SendOrder
