import CppRedis.Machine.Run
import CppRedis.Model.GameServer.IOCPServer

/-! # Accepts that are posted for the slots

The only trace of a posted accept is `UINT32_MAX` in `mLatestClosedTimeSec`, which keeps the accepter
away from the slot until `Close` writes a time over it. `PostAccept` leaves this mark also when it fails,
and a failed accept completion never gets to its slot: nobody writes a time then, and the slot is lost.
A worker that closes the slot long after it has tested it would write the time too early.
-/

namespace CppRedis.Soundness.Accepting

open Machine Model.GameServer

/-- Every slot has at most one accept outstanding. One that is neither connected nor waiting has no mark,
and a pass more than three seconds after its last close posts an accept for it. -/
def NoneLost (server : IOCPServer) : Prop :=
  ∀ clientIndex < server.mClientInfos.length,
    server.posted.count (.accept clientIndex) ≤ 1 ∧
      ((server.client clientIndex).isConnectd = false → .accept clientIndex ∉ server.posted →
        (server.client clientIndex).mLatestClosedTimeSec ≠ uint32Max ∧
          ∀ curTimeSec,
            (server.client clientIndex).mLatestClosedTimeSec + reUseSessionWaitTimeSec < curTimeSec →
              (server.client clientIndex).reusable curTimeSec = true)

/-- The slot that a worker closes in a step. -/
def closing? (server : IOCPServer) : NetworkEvent → Option ℕ
  | .work thread _ =>
      match server.mIOWorkerThreads[thread]? with
      | some (.close clientIndex) => some clientIndex
      | _ => none
  | _ => none

/-- A worker closes a slot only while no accept is outstanding for it. -/
def ClosesFree (server : IOCPServer) (event : NetworkEvent) : Prop :=
  ∀ clientIndex ∈ closing? server event, .accept clientIndex ∉ server.posted

instance (server : IOCPServer) (event : NetworkEvent) : Decidable (ClosesFree server event) :=
  inferInstanceAs (Decidable (∀ clientIndex ∈ closing? server event, _))

/-- `PostAccept` succeeds, and no accept completes with a failure. -/
def Accepts (server : IOCPServer) : NetworkEvent → Prop
  | .accept winsock => ∀ curTimeSec clientIndex, server.accepter = .visit curTimeSec clientIndex →
      clientIndex < server.mClientInfos.length → (server.client clientIndex).reusable curTimeSec = true →
        winsock.wsaSocket.isSome = true ∧ winsock.acceptEx = true
  | .dequeue thread (.accept clientIndex) bSuccess _ _ =>
      server.mIOWorkerThreads[thread]? = some .getQueuedCompletionStatus →
        .accept clientIndex ∈ server.posted → bSuccess = true
  | _ => True

/-- A slot for which an accept is outstanding carries the mark. -/
structure Marked (client : ClientInfo) (accepts : ℕ) : Prop where
  one : accepts ≤ 1
  waits : 0 < accepts → client.isConnectd = false ∧ client.mLatestClosedTimeSec = uint32Max ∧
    client.mSocket.isSome = true

/-- The mark keeps the accepter away from slots that wait. -/
structure Guarded (server : IOCPServer) : Prop where
  time : server.clock < uint32Max
  pass : ∀ curTimeSec clientIndex, server.accepter = .visit curTimeSec clientIndex → curTimeSec ≤ server.clock
  inside : ∀ clientIndex, .accept clientIndex ∈ server.posted → clientIndex < server.mClientInfos.length
  marked (clientIndex : ℕ) : Marked (server.client clientIndex) (server.posted.count (.accept clientIndex))

/-- A slot without connection and accept has the time of its last close. -/
def Free (server : IOCPServer) : Prop :=
  ∀ clientIndex, .accept clientIndex ∉ server.posted → (server.client clientIndex).isConnectd = false →
    (server.client clientIndex).mLatestClosedTimeSec ≤ server.clock

/-- No null pointer has been used. -/
def Running (server : IOCPServer) : Prop := server.crashed = false

/-- What holds while no accept fails. -/
structure Inv (server : IOCPServer) : Prop where
  guarded : Guarded server
  free : Free server
  running : Running server

/-- What the accepter and the accepts depend on. -/
def acceptView (client : ClientInfo) : Bool × ℕ × Option ℕ :=
  (client.isConnectd, client.mLatestClosedTimeSec, client.mSocket)

/-- A step that has nothing to do with accepts. -/
structure SameAccepts (before after : IOCPServer) : Prop where
  clock : after.clock = before.clock
  accepter : after.accepter = before.accepter
  length : after.mClientInfos.length = before.mClientInfos.length
  clients (clientIndex : ℕ) : acceptView (after.client clientIndex) = acceptView (before.client clientIndex)
  accepts (clientIndex : ℕ) :
    after.posted.count (.accept clientIndex) = before.posted.count (.accept clientIndex)

section same

variable {before after : IOCPServer}

theorem SameAccepts.refl (server : IOCPServer) : SameAccepts server server :=
  ⟨rfl, rfl, rfl, fun _ => rfl, fun _ => rfl⟩

theorem SameAccepts.mem_iff (same : SameAccepts before after) (clientIndex : ℕ) :
    .accept clientIndex ∈ after.posted ↔ .accept clientIndex ∈ before.posted := by
  rw [← List.count_pos_iff, ← List.count_pos_iff, same.accepts]

theorem SameAccepts.guarded (same : SameAccepts before after) (guarded : Guarded before) : Guarded after := by
  refine ⟨?_, ?_, ?_, ?_⟩
  · rw [same.clock]
    exact guarded.time
  · rw [same.clock, same.accepter]
    exact guarded.pass
  · intro clientIndex member
    rw [same.length]
    exact guarded.inside clientIndex ((same.mem_iff clientIndex).mp member)
  · intro clientIndex
    have view := same.clients clientIndex
    simp only [acceptView, Prod.mk.injEq] at view
    obtain ⟨one, waits⟩ := guarded.marked clientIndex
    rw [same.accepts]
    refine ⟨one, fun waiting => ?_⟩
    rw [view.1, view.2.1, view.2.2]
    exact waits waiting

theorem SameAccepts.free (same : SameAccepts before after) (free : Free before) : Free after := by
  intro clientIndex none off
  have view := same.clients clientIndex
  simp only [acceptView, Prod.mk.injEq] at view
  rw [view.1] at off
  rw [view.2.1, same.clock]
  exact free clientIndex (fun member => none ((same.mem_iff clientIndex).mpr member)) off

/-- Receives and sends are posted beside the accepts. -/
theorem count_accept_append (posted : List Operation) {more : List Operation} {clientIndex : ℕ}
    (none : .accept clientIndex ∉ more) :
    (posted ++ more).count (.accept clientIndex) = posted.count (.accept clientIndex) := by
  rw [List.count_append, List.count_eq_zero.mpr none, Nat.add_zero]

theorem accept_notMem_recv (clientIndex other : ℕ) (taken : Bool) :
    Operation.accept clientIndex ∉ (if taken then [Operation.recv other] else []) := by
  cases taken <;> simp

theorem accept_notMem_send (clientIndex other : ℕ) (handed : Option (OverlappedEx × Bool)) :
    Operation.accept clientIndex ∉
      (match handed with
      | some (overlapped, true) => [Operation.send other overlapped]
      | _ => []) := by
  split <;> simp

/-- The slots' send queues are none of the accepter's business. -/
theorem sameAccepts_sendMsg (server : IOCPServer) (clientIndex : ℕ) (bytes : List UInt8) (winsock : Winsock) :
    SameAccepts server (server.sendMsg clientIndex bytes winsock) := by
  simp only [IOCPServer.sendMsg]
  exact ⟨rfl, rfl, server.length_setClient .., server.setClient_view acceptView rfl,
    fun _ => count_accept_append _ (accept_notMem_send _ _ _)⟩

/-- What a worker does, other than closing a slot, is none of it either. -/
theorem sameAccepts_work (server : IOCPServer) (thread : ℕ) (winsock : Winsock) {worker : Worker}
    (other : ∀ clientIndex, worker ≠ .close clientIndex) :
    SameAccepts server (server.work thread winsock worker) := by
  cases worker with
  | getQueuedCompletionStatus => exact .refl server
  | countClient clientIndex => exact ⟨rfl, rfl, rfl, fun _ => rfl, fun _ => rfl⟩
  | onConnect clientIndex => exact ⟨rfl, rfl, rfl, fun _ => rfl, fun _ => rfl⟩
  | closeSocket clientIndex => exact ⟨rfl, rfl, rfl, fun _ => rfl, fun _ => rfl⟩
  | close clientIndex => exact absurd rfl (other clientIndex)
  | onClose clientIndex => exact ⟨rfl, rfl, rfl, fun _ => rfl, fun _ => rfl⟩
  | onReceive clientIndex => exact ⟨rfl, rfl, rfl, fun _ => rfl, fun _ => rfl⟩
  | bindRecv clientIndex =>
    exact ⟨rfl, rfl, rfl, fun _ => rfl, fun _ => count_accept_append _ (accept_notMem_recv _ _ _)⟩
  | sendCompleted clientIndex =>
    exact ⟨rfl, rfl, server.length_setClient .., server.setClient_view acceptView rfl,
      fun _ => count_accept_append _ (accept_notMem_send _ _ _)⟩

/-- Nor are the completions of receives and sends. -/
theorem sameAccepts_dequeued (server : IOCPServer) (thread : ℕ) (operation : Operation) (bSuccess : Bool)
    (dwIoSize : ℕ) (winsock : Winsock) (other : ∀ clientIndex, operation ≠ .accept clientIndex) :
    SameAccepts server (IOCPServer.dequeued { server with posted := server.posted.erase operation } thread
      operation bSuccess dwIoSize winsock) := by
  have kept (clientIndex : ℕ) : (server.posted.erase operation).count (.accept clientIndex) =
      server.posted.count (.accept clientIndex) := List.count_erase_of_ne (other clientIndex).symm
  cases operation with
  | accept clientIndex => exact absurd rfl (other clientIndex)
  | recv clientIndex => exact ⟨rfl, rfl, rfl, fun _ => rfl, kept⟩
  | send clientIndex overlapped => exact ⟨rfl, rfl, rfl, fun _ => rfl, kept⟩

end same

section steps

variable {server : IOCPServer}

theorem closing?_eq_some {thread clientIndex : ℕ}
    (here : server.mIOWorkerThreads[thread]? = some (.close clientIndex)) (winsock : Winsock) :
    closing? server (.work thread winsock) = some clientIndex := by
  simp only [closing?, here]

/-- A slot that the accepter takes has neither a connection nor the mark. -/
theorem reusable_iff (client : ClientInfo) (curTimeSec : ℕ) :
    client.reusable curTimeSec = true ↔
      client.isConnectd = false ∧ client.mLatestClosedTimeSec + reUseSessionWaitTimeSec < curTimeSec := by
  simp only [ClientInfo.reusable]
  split_ifs with connected early recent
  · exact iff_of_false nofun fun taken => absurd (taken.1.symm.trans connected) Bool.false_ne_true
  · exact iff_of_false nofun fun taken => by omega
  · exact iff_of_false nofun fun taken => by omega
  · exact iff_of_true rfl ⟨eq_false_of_ne_true connected, by omega⟩

theorem Guarded.notMem_of_reusable (guarded : Guarded server) {curTimeSec clientIndex : ℕ}
    (pass : curTimeSec ≤ server.clock) (taken : (server.client clientIndex).reusable curTimeSec = true) :
    .accept clientIndex ∉ server.posted := by
  intro member
  obtain ⟨-, late⟩ := (reusable_iff ..).mp taken
  obtain ⟨-, mark, -⟩ := (guarded.marked clientIndex).waits (List.count_pos_iff.mpr member)
  have := guarded.time
  omega

/-- Nothing waits on a slot whose one accept is taken off the port. -/
theorem Guarded.notMem_erase (guarded : Guarded server) (clientIndex : ℕ) :
    .accept clientIndex ∉ server.posted.erase (.accept clientIndex) := by
  rw [← List.count_eq_zero, List.count_erase_self]
  have := (guarded.marked clientIndex).one
  omega

theorem marked_of_notMem {posted : List Operation} {clientIndex : ℕ} (client : ClientInfo)
    (none : .accept clientIndex ∉ posted) : Marked client (posted.count (.accept clientIndex)) := by
  rw [List.count_eq_zero.mpr none]
  exact ⟨Nat.zero_le _, fun positive => absurd positive (Nat.lt_irrefl _)⟩

/-- One slot and its accepts change. -/
theorem Guarded.update (guarded : Guarded server) {after : IOCPServer} {clientIndex : ℕ} {client : ClientInfo}
    (clock : after.clock = server.clock)
    (pass : ∀ curTimeSec other, after.accepter = .visit curTimeSec other → curTimeSec ≤ server.clock)
    (clients : after.mClientInfos = server.mClientInfos.set clientIndex client)
    (others : ∀ other, other ≠ clientIndex →
      after.posted.count (.accept other) = server.posted.count (.accept other))
    (inside : clientIndex < server.mClientInfos.length)
    (marked : Marked client (after.posted.count (.accept clientIndex))) : Guarded after := by
  have view : after.client = (server.setClient clientIndex client).client := by
    funext other
    simp only [IOCPServer.client, IOCPServer.setClient]
    rw [clients]
  refine ⟨clock ▸ guarded.time, clock ▸ pass, fun other member => ?_, fun other => ?_⟩
  · rw [clients, List.length_set]
    by_cases mine : other = clientIndex
    · rw [mine]
      exact inside
    · rw [← List.count_pos_iff, others other mine, List.count_pos_iff] at member
      exact guarded.inside other member
  · rw [view]
    by_cases mine : other = clientIndex
    · rw [mine, server.client_setClient_self inside]
      exact marked
    · rw [server.client_setClient_other mine, others other mine]
      exact guarded.marked other

theorem Guarded.acceptCompletion (guarded : Guarded server) {clientIndex : ℕ}
    (posted : .accept clientIndex ∈ server.posted) (thread : ℕ) (bSuccess : Bool) (dwIoSize : ℕ)
    (winsock : Winsock) :
    Guarded (IOCPServer.dequeued { server with posted := server.posted.erase (.accept clientIndex) } thread
      (.accept clientIndex) bSuccess dwIoSize winsock) := by
  have others (other : ℕ) (different : other ≠ clientIndex) :
      (server.posted.erase (.accept clientIndex)).count (.accept other) = server.posted.count (.accept other) :=
    List.count_erase_of_ne fun same => different (Operation.accept.inj same)
  have none := guarded.notMem_erase clientIndex
  simp only [IOCPServer.dequeued]
  by_cases failed : bSuccess = false
  · rw [if_pos failed]
    refine ⟨guarded.time, guarded.pass, fun other member => guarded.inside other (List.mem_of_mem_erase member), ?_⟩
    intro other
    by_cases mine : other = clientIndex
    · rw [mine]
      exact marked_of_notMem _ none
    · dsimp only
      rw [others other mine]
      exact guarded.marked other
  · rw [if_neg failed]
    refine guarded.update rfl guarded.pass rfl (fun other different => ?_)
      (guarded.inside clientIndex posted) ?_
    · exact (count_accept_append _ (accept_notMem_recv _ _ _)).trans (others other different)
    · refine marked_of_notMem _ fun member => ?_
      rcases List.mem_append.mp member with old | new
      · exact none old
      · exact accept_notMem_recv _ _ _ new

theorem Guarded.close (guarded : Guarded server) {clientIndex : ℕ} (none : .accept clientIndex ∉ server.posted)
    (thread : ℕ) (winsock : Winsock) : Guarded (server.work thread winsock (.close clientIndex)) := by
  by_cases inside : clientIndex < server.mClientInfos.length
  · exact guarded.update rfl guarded.pass rfl (fun _ _ => rfl) inside (marked_of_notMem _ none)
  · have kept := server.setClient_of_outside inside ((server.client clientIndex).close server.clock)
    have same : SameAccepts server (server.work thread winsock (.close clientIndex)) := by
      rw [IOCPServer.work, kept]
      exact ⟨rfl, rfl, rfl, fun _ => rfl, fun _ => rfl⟩
    exact same.guarded guarded

/-- A step of the accepter that posts no accept. -/
theorem Guarded.go (guarded : Guarded server) {accepter : Accepter}
    (pass : ∀ curTimeSec other, accepter = .visit curTimeSec other → curTimeSec ≤ server.clock) :
    Guarded { server with accepter := accepter } :=
  ⟨guarded.time, pass, guarded.inside, guarded.marked⟩

theorem Guarded.postAccept (guarded : Guarded server) {curTimeSec clientIndex : ℕ}
    (visit : server.accepter = .visit curTimeSec clientIndex) (inside : clientIndex < server.mClientInfos.length)
    (taken : (server.client clientIndex).reusable curTimeSec = true) (winsock : Winsock) :
    Guarded (server.accept winsock) := by
  have pass := guarded.pass _ _ visit
  have none := guarded.notMem_of_reusable pass taken
  obtain ⟨off, -⟩ := (reusable_iff ..).mp taken
  simp only [IOCPServer.accept]
  rw [visit]
  dsimp only
  rw [if_pos inside, if_pos taken]
  refine guarded.update rfl ?_ rfl (fun other different => ?_) inside ?_
  · intro cur other same
    obtain ⟨rfl, -⟩ := Accepter.visit.inj same
    exact pass
  · refine count_accept_append _ ?_
    split_ifs
    · exact fun member => different (Operation.accept.inj (List.mem_singleton.mp member))
    · exact List.not_mem_nil
  · cases result : ((server.client clientIndex).postAccept winsock.wsaSocket winsock.acceptEx).1 with
    | false =>
      refine marked_of_notMem _ ?_
      dsimp only [IOCPServer.post]
      rw [if_neg Bool.false_ne_true, List.append_nil]
      exact none
    | true =>
      refine ⟨Nat.le_of_eq ?_, fun _ => ⟨off, rfl, (Bool.and_eq_true_iff.mp result).1⟩⟩
      dsimp only [IOCPServer.post, IOCPServer.setClient]
      rw [if_pos rfl, List.count_append, List.count_eq_zero.mpr none, List.count_singleton_self]

theorem Guarded.accept (guarded : Guarded server) (winsock : Winsock) : Guarded (server.accept winsock) := by
  cases visit : server.accepter with
  | sleep =>
    simp only [IOCPServer.accept]
    rw [visit]
    refine guarded.go fun cur other same => ?_
    obtain ⟨rfl, -⟩ := Accepter.visit.inj same
    exact Nat.le_refl _
  | visit curTimeSec clientIndex =>
    by_cases taken : clientIndex < server.mClientInfos.length ∧
        (server.client clientIndex).reusable curTimeSec = true
    · exact guarded.postAccept visit taken.1 taken.2 winsock
    · have pass := guarded.pass _ _ visit
      simp only [IOCPServer.accept]
      rw [visit]
      dsimp only
      split_ifs with inside reused
      · exact absurd ⟨inside, reused⟩ taken
      · refine guarded.go fun cur other same => ?_
        obtain ⟨rfl, -⟩ := Accepter.visit.inj same
        exact pass
      · exact guarded.go nofun

/-- The mark keeps the accepter away as long as no worker closes a slot that waits. -/
theorem Guarded.step (guarded : Guarded server) (event : NetworkEvent) (free : ClosesFree server event) :
    Guarded (server.step event) := by
  refine server.step_cases guarded ?_ ?_ ?_ ?_ ?_
  · intro thread operation bSuccess dwIoSize winsock _ _ posted
    cases operation with
    | accept clientIndex => exact guarded.acceptCompletion posted thread bSuccess dwIoSize winsock
    | recv clientIndex =>
      exact (sameAccepts_dequeued server thread (.recv clientIndex) bSuccess dwIoSize winsock nofun).guarded guarded
    | send clientIndex overlapped =>
      exact (sameAccepts_dequeued server thread (.send clientIndex overlapped) bSuccess dwIoSize winsock
        nofun).guarded guarded
  · rintro thread winsock worker rfl here
    by_cases closes : ∃ clientIndex, worker = .close clientIndex
    · obtain ⟨clientIndex, rfl⟩ := closes
      exact guarded.close (free clientIndex (closing?_eq_some here winsock)) thread winsock
    · exact (sameAccepts_work server thread winsock fun clientIndex same => closes ⟨_, same⟩).guarded guarded
  · intro clientIndex bytes winsock _ _
    exact (sameAccepts_sendMsg server clientIndex bytes winsock).guarded guarded
  · intro winsock _
    exact guarded.accept winsock
  · intro _ more
    exact ⟨more, fun cur other visit => Nat.le_succ_of_le (guarded.pass cur other visit), guarded.inside,
      guarded.marked⟩

theorem Free.acceptCompletion (free : Free server) (guarded : Guarded server) {clientIndex : ℕ}
    (posted : .accept clientIndex ∈ server.posted) (thread dwIoSize : ℕ) (winsock : Winsock) :
    Free (IOCPServer.dequeued { server with posted := server.posted.erase (.accept clientIndex) } thread
      (.accept clientIndex) true dwIoSize winsock) := by
  set next := ((server.client clientIndex).acceptCompletion winsock.hIOCP winsock.wsaRecv).2
  intro other none off
  change ((server.setClient clientIndex next).client other).isConnectd = false at off
  change ((server.setClient clientIndex next).client other).mLatestClosedTimeSec ≤ server.clock
  by_cases mine : other = clientIndex
  · rw [mine, server.client_setClient_self (guarded.inside clientIndex posted),
      show next = _ from ClientInfo.acceptCompletion_client ..] at off
    cases off
  · rw [server.client_setClient_other mine] at off ⊢
    refine free other (fun member => none (List.mem_append_left _ ?_)) off
    exact (List.mem_erase_of_ne fun same => mine (Operation.accept.inj same)).mpr member

theorem Free.close (free : Free server) (clientIndex thread : ℕ) (winsock : Winsock) :
    Free (server.work thread winsock (.close clientIndex)) := by
  set closed := (server.client clientIndex).close server.clock
  intro other none off
  change ((server.setClient clientIndex closed).client other).isConnectd = false at off
  change ((server.setClient clientIndex closed).client other).mLatestClosedTimeSec ≤ server.clock
  by_cases mine : other = clientIndex
  · by_cases inside : clientIndex < server.mClientInfos.length
    · rw [mine, server.client_setClient_self inside]
      exact Nat.le_refl _
    · rw [server.setClient_of_outside inside] at off ⊢
      exact free other none off
  · rw [server.client_setClient_other mine] at off ⊢
    exact free other none off

theorem Free.accept (free : Free server) {winsock : Winsock} (accepts : Accepts server (.accept winsock)) :
    Free (server.accept winsock) := by
  simp only [IOCPServer.accept]
  cases visit : server.accepter with
  | sleep => exact free
  | visit curTimeSec clientIndex =>
    dsimp only
    split_ifs with inside taken
    · obtain ⟨socket, posted⟩ := accepts curTimeSec clientIndex visit inside taken
      have result : ((server.client clientIndex).postAccept winsock.wsaSocket winsock.acceptEx).1 = true :=
        Bool.and_eq_true_iff.mpr ⟨socket, posted⟩
      intro other none off
      dsimp only [IOCPServer.post, IOCPServer.setClient] at none
      rw [if_pos result] at none
      have different : other ≠ clientIndex := fun same =>
        none (List.mem_append_right _ (List.mem_singleton.mpr (congrArg _ same)))
      have kept := server.client_setClient_other different
        ((server.client clientIndex).postAccept winsock.wsaSocket winsock.acceptEx).2
      change ((server.setClient clientIndex _).client other).isConnectd = false at off
      change ((server.setClient clientIndex _).client other).mLatestClosedTimeSec ≤ server.clock
      rw [kept] at off ⊢
      exact free other (fun member => none (List.mem_append_left _ member)) off
    · exact free
    · exact free

/-- No slot is lost while accepts do not fail. -/
theorem Free.step (free : Free server) (guarded : Guarded server) (event : NetworkEvent)
    (accepts : Accepts server event) : Free (server.step event) := by
  refine server.step_cases free ?_ ?_ ?_ ?_ ?_
  · rintro thread operation bSuccess dwIoSize winsock rfl here posted
    cases operation with
    | accept clientIndex =>
      obtain rfl : bSuccess = true := accepts here posted
      exact free.acceptCompletion guarded posted thread dwIoSize winsock
    | recv clientIndex =>
      exact (sameAccepts_dequeued server thread (.recv clientIndex) bSuccess dwIoSize winsock nofun).free free
    | send clientIndex overlapped =>
      exact (sameAccepts_dequeued server thread (.send clientIndex overlapped) bSuccess dwIoSize winsock
        nofun).free free
  · rintro thread winsock worker rfl here
    by_cases closes : ∃ clientIndex, worker = .close clientIndex
    · obtain ⟨clientIndex, rfl⟩ := closes
      exact free.close clientIndex thread winsock
    · exact (sameAccepts_work server thread winsock fun clientIndex same => closes ⟨_, same⟩).free free
  · intro clientIndex bytes winsock _ _
    exact (sameAccepts_sendMsg server clientIndex bytes winsock).free free
  · rintro winsock rfl
    exact free.accept accepts
  · intro _ _ clientIndex none off
    exact Nat.le_succ_of_le (free clientIndex none off)

/-- Only a failed accept uses a null pointer. -/
theorem Running.step (running : Running server) (event : NetworkEvent) (accepts : Accepts server event) :
    Running (server.step event) := by
  refine server.step_cases running ?_ ?_ ?_ ?_ ?_
  · rintro thread operation bSuccess dwIoSize winsock rfl here posted
    cases operation with
    | accept clientIndex =>
      obtain rfl : bSuccess = true := accepts here posted
      exact running
    | recv clientIndex => exact running
    | send clientIndex overlapped => exact running
  · intro thread winsock worker _ _
    cases worker <;> exact running
  · intro clientIndex bytes winsock _ _
    exact running
  · intro winsock _
    simp only [IOCPServer.accept]
    split
    · exact running
    · split_ifs <;> exact running
  · intro _ _
    exact running

theorem Inv.step (inv : Inv server) (event : NetworkEvent) (free : ClosesFree server event)
    (accepts : Accepts server event) : Inv (server.step event) :=
  ⟨inv.guarded.step event free, inv.free.step inv.guarded event accepts, inv.running.step event accepts⟩

theorem Inv.noneLost (inv : Inv server) : NoneLost server := by
  intro clientIndex _
  refine ⟨(inv.guarded.marked clientIndex).one, fun off none => ⟨?_, fun curTimeSec late => ?_⟩⟩
  · exact Nat.ne_of_lt (Nat.lt_of_le_of_lt (inv.free clientIndex none off) inv.guarded.time)
  · exact (reusable_iff ..).mpr ⟨off, late⟩

/-- `PostAccept` that fails loses the slot. -/
theorem Inv.accepts_of_accept (inv : Inv server) {winsock : Winsock} (after : NoneLost (server.accept winsock)) :
    Accepts server (.accept winsock) := by
  intro curTimeSec clientIndex visit inside taken
  rw [← Bool.and_eq_true]
  by_contra failed
  have result : ((server.client clientIndex).postAccept winsock.wsaSocket winsock.acceptEx).1 = false :=
    eq_false_of_ne_true failed
  have none := inv.guarded.notMem_of_reusable (inv.guarded.pass _ _ visit) taken
  obtain ⟨off, -⟩ := (reusable_iff ..).mp taken
  simp only [IOCPServer.accept, visit, if_pos inside, if_pos taken] at after
  obtain ⟨-, free⟩ := after clientIndex (by
    change clientIndex < (server.mClientInfos.set clientIndex _).length
    rwa [List.length_set])
  have client := server.client_setClient_self inside
    ((server.client clientIndex).postAccept winsock.wsaSocket winsock.acceptEx).2
  have marked := (free ((congrArg ClientInfo.isConnectd client).trans off) (by
    dsimp only [IOCPServer.post]
    rw [result, if_neg Bool.false_ne_true, List.append_nil]
    exact none)).1
  exact marked (congrArg ClientInfo.mLatestClosedTimeSec client)

/-- An accept that completes with a failure loses the slot. -/
theorem Inv.accepts_of_dequeue (inv : Inv server) {thread clientIndex dwIoSize : ℕ} {bSuccess : Bool}
    {winsock : Winsock} (posted : .accept clientIndex ∈ server.posted)
    (after : NoneLost (IOCPServer.dequeued { server with posted := server.posted.erase (.accept clientIndex) }
      thread (.accept clientIndex) bSuccess dwIoSize winsock)) : bSuccess = true := by
  by_contra failed
  obtain rfl := eq_false_of_ne_true failed
  obtain ⟨off, mark, -⟩ := (inv.guarded.marked clientIndex).waits (List.count_pos_iff.mpr posted)
  obtain ⟨-, free⟩ := after clientIndex (inv.guarded.inside clientIndex posted)
  exact (free off (inv.guarded.notMem_erase clientIndex)).1 mark

theorem noneLost_step_iff (inv : Inv server) (event : NetworkEvent) (free : ClosesFree server event) :
    NoneLost (server.step event) ↔ Accepts server event := by
  refine ⟨fun after => ?_, fun accepts => (inv.step event free accepts).noneLost⟩
  have running : ¬ server.crashed = true := fun crashed =>
    Bool.false_ne_true (inv.running.symm.trans crashed)
  simp only [IOCPServer.step, if_neg running] at after
  cases event with
  | accept winsock => exact inv.accepts_of_accept after
  | dequeue thread operation bSuccess dwIoSize winsock =>
    cases operation with
    | accept clientIndex =>
      intro here posted
      dsimp only at after
      rw [if_pos ⟨here, posted⟩] at after
      exact inv.accepts_of_dequeue posted after
    | recv clientIndex => trivial
    | send clientIndex overlapped => trivial
  | work thread winsock => trivial
  | sendMsg clientIndex bytes winsock => trivial
  | tick => trivial

end steps

theorem client_init (maxClientCount maxIOWorkerThreadCount clientIndex : ℕ) :
    (IOCPServer.init maxClientCount maxIOWorkerThreadCount).client clientIndex = {} := by
  simp only [IOCPServer.client, IOCPServer.init]
  rw [List.getD_eq_getElem?_getD, List.getElem?_replicate]
  split_ifs <;> rfl

theorem guarded_init (maxClientCount maxIOWorkerThreadCount : ℕ) :
    Guarded (IOCPServer.init maxClientCount maxIOWorkerThreadCount) :=
  ⟨show 0 < uint32Max by decide, nofun, nofun, fun _ => marked_of_notMem _ List.not_mem_nil⟩

theorem inv_init (maxClientCount maxIOWorkerThreadCount : ℕ) :
    Inv (IOCPServer.init maxClientCount maxIOWorkerThreadCount) := by
  refine ⟨guarded_init maxClientCount maxIOWorkerThreadCount, fun clientIndex _ _ => ?_, rfl⟩
  rw [client_init]
  exact Nat.zero_le _

/-- In every run of the workers and the accepter over all slots in which no worker closes a slot that waits
for an accept: no slot is lost in any state if and only if no accept fails, when it is posted or later. -/
theorem run_none_lost_iff_accepts (maxClientCount maxIOWorkerThreadCount : ℕ) (events : List NetworkEvent)
    (free : Along IOCPServer.step ClosesFree (IOCPServer.init maxClientCount maxIOWorkerThreadCount) events) :
    Always IOCPServer.step NoneLost (IOCPServer.init maxClientCount maxIOWorkerThreadCount) events ↔
      Along IOCPServer.step Accepts (IOCPServer.init maxClientCount maxIOWorkerThreadCount) events := by
  have initial := inv_init maxClientCount maxIOWorkerThreadCount
  exact always_iff_along_given Inv (fun _ event inv free accepts => inv.step event free accepts)
    (fun _ event inv _ free => noneLost_step_iff inv event free) initial initial.noneLost free

/-- Four seconds pass and the accepter starts a pass. -/
def firstPass : List NetworkEvent := [.tick, .tick, .tick, .tick, .accept {}]

/-- A client is accepted and leaves, and its slot is posted again. -/
def reuseRun : List NetworkEvent :=
  firstPass ++ [.accept {}, .accept {}, .dequeue 0 (.accept 0) true 0 {}, .work 0 {}, .work 0 {},
    .dequeue 0 (.recv 0) true 0 {}, .work 0 {}, .work 0 {}, .work 0 {}] ++ firstPass ++ [.accept {}]

theorem run_none_lost_iff_accepts_reuse :
    Always IOCPServer.step NoneLost (IOCPServer.init 1 1) reuseRun ∧
      (run IOCPServer.step (IOCPServer.init 1 1) reuseRun).posted = [.accept 0] := by
  have posts (server : IOCPServer) : Accepts server (.accept {}) := fun _ _ _ _ _ => ⟨rfl, rfl⟩
  refine ⟨(run_none_lost_iff_accepts 1 1 reuseRun (by decide)).mpr ?_, by decide⟩
  exact ⟨trivial, trivial, trivial, trivial, posts _, posts _, posts _, fun _ _ => rfl, trivial, trivial, trivial,
    trivial, trivial, trivial, trivial, trivial, trivial, trivial, posts _, posts _, trivial⟩

/-- `WSASocket` fails once: the slot carries the mark and nobody will take it off. -/
theorem run_loses_slot :
    ¬ Always IOCPServer.step NoneLost (IOCPServer.init 1 1)
      (firstPass ++ [.accept { wsaSocket := none }]) := by
  intro always
  have ⟨_, free⟩ := always.last 0 (by decide)
  have ⟨unmarked, _⟩ := free rfl (by decide)
  exact unmarked rfl

end CppRedis.Soundness.Accepting
