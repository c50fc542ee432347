import CppRedis.Machine.Run
import CppRedis.Model.GameServer.ClientInfo

/-! # The send queue of a slot

`SendMsg` starts a send only for a queue that was empty, and every other send is started by the
completion of the one before. At most one send is outstanding, and it is the front's. But the queue
outlives a connection: `Clear` does nothing, a failed send closes the slot and leaves its buffer in the
queue, and nobody looks at the result of `SendIO`. The next connection then waits behind a buffer whose
completion will not come, or sends what was meant for the one before.
-/

namespace CppRedis.Soundness.Sending

open Machine Model.GameServer

/-- What was handed to `WSASend` on each connection was passed to `SendMsg` on that connection, in that
order, and while a connection is served and the queue is not empty, the send of its front is outstanding. -/
structure Served (traffic : Traffic) : Prop where
  own (connection : ℕ) : (traffic.handed connection).Sublist (traffic.passed connection)
  moving : traffic.client.isConnectd = true →
    ∀ front, traffic.client.mSendDataqueue.head? = some front → front ∈ traffic.outstanding

/-- On a connection that is served, Winsock takes the send that `SendMsg` starts for an empty queue, and
when a send completes the next buffer was passed on this connection and Winsock takes it. A slot is
accepted with an empty queue or with the send of its front outstanding. -/
def Orderly (traffic : Traffic) : TrafficEvent → Prop
  | .sendMsg _ wsaSend =>
      traffic.client.isConnectd = true → traffic.client.mSendDataqueue = [] → wsaSend = true
  | .sendCompleted overlapped wsaSend =>
      traffic.client.isConnectd = true → overlapped ∈ traffic.outstanding →
        ∀ next, traffic.client.mSendDataqueue.tail.head? = some next →
          next ∈ traffic.passedNow ∧ wsaSend = true
  | .acceptCompletion hIOCP wsaRecv _ =>
      traffic.client.isConnectd = false → (traffic.client.acceptCompletion hIOCP wsaRecv).1 = true →
        ∀ front, traffic.client.mSendDataqueue.head? = some front → front ∈ traffic.outstanding
  | _ => True

/-- A queue whose first part is out of the connection's hands and whose second part waits to be handed
over. Of the first part, what follows the front was not passed on the connection. -/
def Aligned {α : Type*} (queue passed handed : List α) : Prop :=
  ∃ old waiting, queue = old ++ waiting ∧ passed = handed ++ waiting ∧ (queue ≠ [] → old ≠ []) ∧
    ∀ buffer ∈ old.tail, buffer ∉ passed

section aligned

variable {α : Type*} {queue passed handed : List α}

theorem aligned_start (queue : List α) : Aligned queue [] [] :=
  ⟨queue, [], (List.append_nil _).symm, rfl, id, fun _ _ => List.not_mem_nil⟩

theorem Aligned.push (aligned : Aligned queue passed handed) (waiting : queue ≠ []) {buffer : α}
    (new : buffer ∉ queue) : Aligned (queue ++ [buffer]) (passed ++ [buffer]) handed := by
  obtain ⟨old, rest, rfl, rfl, started, others⟩ := aligned
  refine ⟨old, rest ++ [buffer], List.append_assoc .., List.append_assoc .., fun _ => started waiting, ?_⟩
  intro other member mine
  rcases List.mem_append.mp mine with mine | same
  · exact others other member mine
  · obtain rfl := List.mem_singleton.mp same
    exact new (List.mem_append_left _ (List.mem_of_mem_tail member))

/-- Nothing waits: everything that was passed has been handed over. -/
theorem Aligned.eq_of_nil (aligned : Aligned [] passed handed) : passed = handed := by
  obtain ⟨old, rest, split, rfl, -, -⟩ := aligned
  rw [(List.append_eq_nil_iff.mp split.symm).2, List.append_nil]

theorem Aligned.first (aligned : Aligned [] passed handed) (buffer : α) :
    Aligned [buffer] (passed ++ [buffer]) (handed ++ [buffer]) := by
  rw [aligned.eq_of_nil]
  exact ⟨[buffer], [], rfl, (List.append_nil _).symm, fun _ => List.cons_ne_nil _ _, nofun⟩

theorem Aligned.drain {front : α} (aligned : Aligned [front] passed handed) : Aligned [] passed handed := by
  obtain ⟨old, rest, split, rfl, started, others⟩ := aligned
  cases old with
  | nil => exact absurd rfl (started (List.cons_ne_nil _ _))
  | cons first more =>
    have empty := (List.append_eq_nil_iff.mp (List.cons.inj split).2.symm).2
    exact ⟨[], rest, empty.symm, rfl, absurd rfl, nofun⟩

theorem Aligned.next {front next : α} {rest : List α} (aligned : Aligned (front :: next :: rest) passed handed)
    (own : next ∈ passed) : Aligned (next :: rest) passed (handed ++ [next]) := by
  obtain ⟨old, waiting, split, rfl, started, others⟩ := aligned
  cases old with
  | nil => exact absurd rfl (started (List.cons_ne_nil _ _))
  | cons first more =>
    have tail := (List.cons.inj split).2
    cases more with
    | cons second more =>
      obtain ⟨rfl, -⟩ := List.cons.inj tail
      exact absurd own (others next List.mem_cons_self)
    | nil =>
      obtain rfl : next :: rest = waiting := tail
      exact ⟨[next], rest, rfl, (List.append_cons ..), fun _ => List.cons_ne_nil _ _, nofun⟩

theorem Aligned.sublist (aligned : Aligned queue passed handed) : handed.Sublist passed := by
  obtain ⟨old, rest, -, rfl, -, -⟩ := aligned
  exact List.sublist_append_left ..

end aligned

/-- At most the front's send is outstanding. -/
def Single (traffic : Traffic) : Prop :=
  traffic.outstanding = [] ∨
    ∃ front, traffic.client.mSendDataqueue.head? = some front ∧ traffic.outstanding = [front]

/-- What holds of a slot whatever happens on it: the connections to come have no history. -/
structure Basic (traffic : Traffic) : Prop where
  single : Single traffic
  fresh : ∀ connection, traffic.accepted < connection →
    traffic.passed connection = [] ∧ traffic.handed connection = []

/-- What holds of a slot while its steps are orderly. -/
structure Inv (traffic : Traffic) : Prop where
  /-- At most the front's send is outstanding. -/
  single : traffic.outstanding = [] ∨
    ∃ front, traffic.client.mSendDataqueue.head? = some front ∧ traffic.outstanding = [front]
  allocated : ∀ buffer ∈ traffic.client.mSendDataqueue, buffer.address < traffic.allocated
  fresh : ∀ connection, traffic.accepted < connection →
    traffic.passed connection = [] ∧ traffic.handed connection = []
  socket : traffic.client.isConnectd = true → traffic.client.mSocket.isSome = true
  aligned : traffic.client.isConnectd = true →
    Aligned traffic.client.mSendDataqueue traffic.passedNow traffic.handedNow

section steps

variable {traffic : Traffic}

/-- An outstanding send is the front's, and the only one. -/
theorem Single.front (single : Single traffic) {overlapped : OverlappedEx}
    (sent : overlapped ∈ traffic.outstanding) :
    traffic.outstanding = [overlapped] ∧
      ∃ rest, traffic.client.mSendDataqueue = overlapped :: rest := by
  rcases single with none | ⟨front, first, one⟩
  · rw [none] at sent
    cases sent
  · rw [one] at sent ⊢
    obtain rfl := List.mem_singleton.mp sent
    exact ⟨rfl, List.head?_eq_some_iff.mp first⟩

theorem Single.outstanding_nil (single : Single traffic) (empty : traffic.client.mSendDataqueue = []) :
    traffic.outstanding = [] := by
  rcases single with none | ⟨front, first, -⟩
  · exact none
  · rw [empty] at first
    cases first

theorem Inv.front (inv : Inv traffic) {overlapped : OverlappedEx} (sent : overlapped ∈ traffic.outstanding) :
    traffic.outstanding = [overlapped] ∧
      ∃ rest, traffic.client.mSendDataqueue = overlapped :: rest :=
  Single.front inv.single sent

theorem Inv.outstanding_nil (inv : Inv traffic) (empty : traffic.client.mSendDataqueue = []) :
    traffic.outstanding = [] :=
  Single.outstanding_nil inv.single empty

/-- The buffer that a `SendMsg` allocates. -/
def newBuffer (traffic : Traffic) (bytes : List UInt8) : OverlappedEx := ⟨traffic.allocated, bytes⟩

/-- `SendMsg` on a queue that is not empty only appends. -/
theorem sendMsg_waiting (waiting : traffic.client.mSendDataqueue ≠ []) (bytes : List UInt8) (wsaSend : Bool) :
    traffic.sendMsg bytes wsaSend =
      { traffic with
        client := { traffic.client with
          mSendDataqueue := traffic.client.mSendDataqueue ++ [newBuffer traffic bytes] }
        allocated := traffic.allocated + 1
        passed := Function.update traffic.passed traffic.accepted
          (traffic.passedNow ++ [newBuffer traffic bytes]) } := by
  have long : (traffic.client.mSendDataqueue ++ [newBuffer traffic bytes]).length ≠ 1 := by
    have := List.length_pos_of_ne_nil waiting
    rw [List.length_append, List.length_singleton]
    omega
  simp only [Traffic.sendMsg, ClientInfo.sendMsg]
  change Traffic.wsaSend _ (if (traffic.client.mSendDataqueue ++ [newBuffer traffic bytes]).length = 1
    then _ else none) = _
  rw [if_neg long]
  rfl

/-- `SendMsg` on an empty queue hands its buffer over at once. -/
theorem sendMsg_nil (empty : traffic.client.mSendDataqueue = []) (bytes : List UInt8) (wsaSend : Bool) :
    traffic.sendMsg bytes wsaSend =
      { traffic with
        client := { traffic.client with mSendDataqueue := [newBuffer traffic bytes] }
        outstanding :=
          if traffic.client.mSocket.isSome && wsaSend then traffic.outstanding ++ [newBuffer traffic bytes]
          else traffic.outstanding
        allocated := traffic.allocated + 1
        passed := Function.update traffic.passed traffic.accepted
          (traffic.passedNow ++ [newBuffer traffic bytes])
        handed :=
          if traffic.client.isConnectd then
            Function.update traffic.handed traffic.accepted (traffic.handedNow ++ [newBuffer traffic bytes])
          else traffic.handed } := by
  unfold Traffic.sendMsg ClientInfo.sendMsg
  rw [empty]
  rfl

/-- `SendCompleted` hands over the next buffer. -/
theorem sendCompleted_cons {front : OverlappedEx} {rest : List OverlappedEx}
    (queue : traffic.client.mSendDataqueue = front :: rest) (one : traffic.outstanding = [front])
    (wsaSend : Bool) :
    traffic.sendCompleted front wsaSend =
      Traffic.wsaSend { traffic with client := { traffic.client with mSendDataqueue := rest }, outstanding := [] }
        (rest.head?.map fun next => (next, traffic.client.mSocket.isSome && wsaSend)) := by
  simp only [Traffic.sendCompleted, ClientInfo.sendCompleted]
  rw [queue, one, List.erase_cons_head]
  cases rest with
  | nil => rfl
  | cons next rest => rfl

theorem update_later {α : Type*} {now connection : ℕ} (after : now < connection) (value : α) (old : ℕ → α) :
    Function.update old now value connection = old connection :=
  Function.update_of_ne (Nat.ne_of_gt after) ..

theorem Basic.sendMsg (basic : Basic traffic) (bytes : List UInt8) (wsaSend : Bool) :
    Basic (traffic.sendMsg bytes wsaSend) := by
  by_cases empty : traffic.client.mSendDataqueue = []
  · rw [sendMsg_nil empty, basic.single.outstanding_nil empty]
    refine ⟨?_, fun connection after => ?_⟩
    · dsimp only [Single]
      split_ifs
      · exact Or.inr ⟨_, rfl, rfl⟩
      · exact Or.inl rfl
    · obtain ⟨passed, handed⟩ := basic.fresh connection after
      refine ⟨(update_later after _ _).trans passed, ?_⟩
      dsimp only
      split_ifs
      · exact (update_later after _ _).trans handed
      · exact handed
  · rw [sendMsg_waiting empty]
    refine ⟨?_, fun connection after => ?_⟩
    · rcases basic.single with none | ⟨front, first, one⟩
      · exact Or.inl none
      · exact Or.inr ⟨front, List.head?_append_of_ne_nil _ empty ▸ first, one⟩
    · obtain ⟨passed, handed⟩ := basic.fresh connection after
      exact ⟨(update_later after _ _).trans passed, handed⟩

theorem Inv.basic (inv : Inv traffic) : Basic traffic := ⟨inv.single, inv.fresh⟩

theorem Inv.new (inv : Inv traffic) (bytes : List UInt8) :
    newBuffer traffic bytes ∉ traffic.client.mSendDataqueue := fun member =>
  absurd (inv.allocated _ member) (Nat.lt_irrefl traffic.allocated)

theorem Inv.sendMsg (inv : Inv traffic) (bytes : List UInt8) (wsaSend : Bool) :
    Inv (traffic.sendMsg bytes wsaSend) := by
  have ⟨single, fresh⟩ := inv.basic.sendMsg bytes wsaSend
  by_cases empty : traffic.client.mSendDataqueue = []
  · rw [sendMsg_nil empty] at single fresh ⊢
    refine ⟨single, ?_, fresh, inv.socket, fun connected => ?_⟩
    · intro buffer member
      obtain rfl := List.mem_singleton.mp member
      exact Nat.lt_succ_self _
    · have aligned := inv.aligned connected
      rw [empty] at aligned
      change traffic.client.isConnectd = true at connected
      dsimp only [Traffic.passedNow, Traffic.handedNow]
      rw [if_pos connected, Function.update_self, Function.update_self]
      exact aligned.first _
  · rw [sendMsg_waiting empty] at single fresh ⊢
    refine ⟨single, ?_, fresh, inv.socket, fun connected => ?_⟩
    · intro buffer member
      rcases List.mem_append.mp member with old | same
      · exact Nat.lt_succ_of_lt (inv.allocated buffer old)
      · obtain rfl := List.mem_singleton.mp same
        exact Nat.lt_succ_self _
    · have aligned := (inv.aligned connected).push empty (inv.new bytes)
      dsimp only [Traffic.passedNow, Traffic.handedNow] at aligned ⊢
      rwa [Function.update_self]

/-- A buffer passed on the current connection, and handed over if it is handed over at all. -/
theorem Served.own_passed (served : Served traffic) (buffer : OverlappedEx) (connection : ℕ) :
    (traffic.handed connection).Sublist
      (Function.update traffic.passed traffic.accepted (traffic.passedNow ++ [buffer]) connection) := by
  by_cases now : connection = traffic.accepted
  · rw [now, Function.update_self]
    exact (served.own _).trans (List.sublist_append_left ..)
  · rw [Function.update_of_ne now]
    exact served.own connection

theorem served_sendMsg_iff (inv : Inv traffic) (served : Served traffic) (bytes : List UInt8) (wsaSend : Bool) :
    Served (traffic.sendMsg bytes wsaSend) ↔ Orderly traffic (.sendMsg bytes wsaSend) := by
  by_cases empty : traffic.client.mSendDataqueue = []
  · by_cases connected : traffic.client.isConnectd = true
    · rw [sendMsg_nil empty]
      dsimp only [Orderly]
      rw [inv.socket connected, Bool.true_and, inv.outstanding_nil empty]
      constructor
      · intro after _ _
        have taken := after.moving connected _ rfl
        dsimp only at taken
        split_ifs at taken with sent
        · exact sent
        · cases taken
      · intro orderly
        have sent := orderly connected empty
        refine ⟨fun connection => ?_, fun _ front first => ?_⟩
        · dsimp only
          rw [if_pos connected]
          by_cases now : connection = traffic.accepted
          · rw [now, Function.update_self, Function.update_self]
            exact (served.own _).append (List.Sublist.refl _)
          · rw [Function.update_of_ne now, Function.update_of_ne now]
            exact served.own connection
        · obtain rfl := Option.some.inj first
          dsimp only
          rw [if_pos sent]
          exact List.mem_singleton_self _
    · refine iff_of_true ?_ fun served => absurd served connected
      rw [sendMsg_nil empty]
      refine ⟨fun connection => ?_, fun live => absurd live connected⟩
      dsimp only
      rw [if_neg connected]
      exact served.own_passed _ connection
  · refine iff_of_true ?_ fun _ none => absurd none empty
    rw [sendMsg_waiting empty]
    refine ⟨served.own_passed _, fun connected front first => ?_⟩
    exact served.moving connected front (List.head?_append_of_ne_nil _ empty ▸ first)

/-- The end of the last send of a queue. -/
theorem sendCompleted_last {front : OverlappedEx} (queue : traffic.client.mSendDataqueue = [front])
    (one : traffic.outstanding = [front]) (wsaSend : Bool) :
    traffic.sendCompleted front wsaSend =
      { traffic with client := { traffic.client with mSendDataqueue := [] }, outstanding := [] } :=
  sendCompleted_cons queue one wsaSend

theorem sendCompleted_next {front next : OverlappedEx} {rest : List OverlappedEx}
    (queue : traffic.client.mSendDataqueue = front :: next :: rest) (one : traffic.outstanding = [front])
    (wsaSend : Bool) :
    traffic.sendCompleted front wsaSend =
      { traffic with
        client := { traffic.client with mSendDataqueue := next :: rest }
        outstanding := if traffic.client.mSocket.isSome && wsaSend then [next] else []
        handed :=
          if traffic.client.isConnectd then
            Function.update traffic.handed traffic.accepted (traffic.handedNow ++ [next])
          else traffic.handed } :=
  sendCompleted_cons queue one wsaSend

theorem Basic.sendCompleted (basic : Basic traffic) {overlapped : OverlappedEx} (wsaSend : Bool)
    (sent : overlapped ∈ traffic.outstanding) : Basic (traffic.sendCompleted overlapped wsaSend) := by
  obtain ⟨one, rest, queue⟩ := basic.single.front sent
  cases rest with
  | nil =>
    rw [sendCompleted_last queue one]
    exact ⟨Or.inl rfl, basic.fresh⟩
  | cons next rest =>
    rw [sendCompleted_next queue one]
    refine ⟨?_, fun connection after => ?_⟩
    · dsimp only [Single]
      split_ifs
      · exact Or.inr ⟨next, rfl, rfl⟩
      · exact Or.inl rfl
    · obtain ⟨passed, handed⟩ := basic.fresh connection after
      refine ⟨passed, ?_⟩
      dsimp only
      split_ifs
      · exact (update_later after _ _).trans handed
      · exact handed

theorem Inv.sendCompleted (inv : Inv traffic) {overlapped : OverlappedEx} {wsaSend : Bool}
    (sent : overlapped ∈ traffic.outstanding) (orderly : Orderly traffic (.sendCompleted overlapped wsaSend)) :
    Inv (traffic.sendCompleted overlapped wsaSend) := by
  have ⟨single, fresh⟩ := inv.basic.sendCompleted wsaSend sent
  obtain ⟨one, rest, queue⟩ := inv.front sent
  have allocated := inv.allocated
  rw [queue] at allocated
  cases rest with
  | nil =>
    rw [sendCompleted_last queue one] at single fresh ⊢
    refine ⟨single, nofun, fresh, inv.socket, fun connected => ?_⟩
    have aligned := inv.aligned connected
    rw [queue] at aligned
    exact aligned.drain
  | cons next rest =>
    rw [sendCompleted_next queue one] at single fresh ⊢
    refine ⟨single, fun buffer member => allocated buffer (List.mem_cons_of_mem _ member), fresh, inv.socket,
      fun connected => ?_⟩
    have aligned := inv.aligned connected
    rw [queue] at aligned
    obtain ⟨own, -⟩ := orderly connected sent next (by rw [queue]; rfl)
    change traffic.client.isConnectd = true at connected
    dsimp only [Traffic.handedNow]
    rw [if_pos connected, Function.update_self]
    exact aligned.next own

theorem served_sendCompleted_iff (inv : Inv traffic) (served : Served traffic) {overlapped : OverlappedEx}
    (sent : overlapped ∈ traffic.outstanding) (wsaSend : Bool) :
    Served (traffic.sendCompleted overlapped wsaSend) ↔
      Orderly traffic (.sendCompleted overlapped wsaSend) := by
  obtain ⟨one, rest, queue⟩ := inv.front sent
  dsimp only [Orderly]
  cases rest with
  | nil =>
    rw [sendCompleted_last queue one, queue]
    exact iff_of_true ⟨served.own, fun _ => nofun⟩ fun _ _ => nofun
  | cons next rest =>
    rw [sendCompleted_next queue one, queue]
    by_cases connected : traffic.client.isConnectd = true
    · rw [inv.socket connected, Bool.true_and]
      constructor
      · rintro ⟨own, moving⟩ _ _ other first
        obtain rfl := Option.some.inj first
        have mine := own traffic.accepted
        have taken := moving connected next rfl
        dsimp only at mine taken
        rw [if_pos connected, Function.update_self] at mine
        split_ifs at taken with started
        · exact ⟨mine.subset (List.mem_append_right _ (List.mem_singleton_self _)), started⟩
        · cases taken
      · intro orderly
        obtain ⟨mine, started⟩ := orderly connected sent next rfl
        refine ⟨fun connection => ?_, fun _ front first => ?_⟩
        · dsimp only
          rw [if_pos connected]
          by_cases now : connection = traffic.accepted
          · have aligned := inv.aligned connected
            rw [queue] at aligned
            rw [now, Function.update_self]
            exact (aligned.next mine).sublist
          · rw [Function.update_of_ne now]
            exact served.own connection
        · obtain rfl := Option.some.inj first
          dsimp only
          rw [if_pos started]
          exact List.mem_singleton_self _
    · refine iff_of_true ⟨?_, fun live => absurd live connected⟩ fun live => absurd live connected
      dsimp only
      rw [if_neg connected]
      exact served.own

/-- A step that leaves the queue and the histories. -/
theorem Basic.other (basic : Basic traffic) {client : ClientInfo} {outstanding : List OverlappedEx} {accepted : ℕ}
    (queue : client.mSendDataqueue = traffic.client.mSendDataqueue)
    (sent : outstanding = [] ∨ outstanding = traffic.outstanding) (count : traffic.accepted ≤ accepted) :
    Basic { traffic with client := client, outstanding := outstanding, accepted := accepted } := by
  refine ⟨?_, fun connection after => basic.fresh connection (Nat.lt_of_le_of_lt count after)⟩
  rcases sent with none | same
  · exact Or.inl none
  · rw [Single, same, queue]
    exact basic.single

/-- A slot that is not connected, with the same queue and histories. -/
theorem Inv.idle (inv : Inv traffic) {client : ClientInfo} {outstanding : List OverlappedEx} {accepted : ℕ}
    (off : client.isConnectd = false) (queue : client.mSendDataqueue = traffic.client.mSendDataqueue)
    (sent : outstanding = [] ∨ outstanding = traffic.outstanding) (count : traffic.accepted ≤ accepted) :
    Inv { traffic with client := client, outstanding := outstanding, accepted := accepted } := by
  have never (live : client.isConnectd = true) : False := Bool.false_ne_true (off.symm.trans live)
  have ⟨single, fresh⟩ := inv.basic.other queue sent count
  exact ⟨single, queue ▸ inv.allocated, fresh, fun live => (never live).elim, fun live => (never live).elim⟩

theorem Served.idle (served : Served traffic) {client : ClientInfo} (outstanding : List OverlappedEx)
    (accepted : ℕ) (off : client.isConnectd = false) :
    Served { traffic with client := client, outstanding := outstanding, accepted := accepted } :=
  ⟨served.own, fun live => absurd (off.symm.trans live) Bool.false_ne_true⟩

/-- After `CloseSocket` the slot is not connected, and its queue is what it was. -/
theorem closeSocket_eq (traffic : Traffic) (now : ℕ) :
    ∃ client : ClientInfo, traffic.closeSocket now = { traffic with client := client } ∧
      client.isConnectd = false ∧ client.mSendDataqueue = traffic.client.mSendDataqueue := by
  simp only [Traffic.closeSocket]
  split_ifs with off
  · exact ⟨traffic.client, rfl, off, rfl⟩
  · exact ⟨traffic.client.close now, rfl, rfl, rfl⟩

/-- An accept that succeeds leaves the slot connected with a socket. -/
theorem acceptCompletion_true {hIOCP : Handle} {wsaRecv : Bool}
    (success : (traffic.client.acceptCompletion hIOCP wsaRecv).1 = true) (now : ℕ) :
    traffic.acceptCompletion hIOCP wsaRecv now =
        { traffic with
          client := { traffic.client with mIsConnect := true }
          accepted := traffic.accepted + 1 } ∧
      traffic.client.mSocket.isSome = true := by
  refine ⟨?_, ((traffic.client.acceptCompletion_eq_true_iff ..).mp success).2.1⟩
  simp only [Traffic.acceptCompletion]
  rw [if_pos success, ClientInfo.acceptCompletion_client]

/-- An accept that fails leaves the slot not connected. -/
theorem acceptCompletion_false {hIOCP : Handle} {wsaRecv : Bool}
    (failure : (traffic.client.acceptCompletion hIOCP wsaRecv).1 = false) (now : ℕ) :
    ∃ client : ClientInfo,
      traffic.acceptCompletion hIOCP wsaRecv now =
          { traffic with client := client, accepted := traffic.accepted + 1 } ∧
        client.isConnectd = false ∧ client.mSendDataqueue = traffic.client.mSendDataqueue := by
  simp only [Traffic.acceptCompletion]
  rw [if_neg (by rw [failure]; exact Bool.false_ne_true), ClientInfo.acceptCompletion_client]
  exact closeSocket_eq _ now

theorem Inv.accepted (inv : Inv traffic) (socket : traffic.client.mSocket.isSome = true) :
    Inv { traffic with
      client := { traffic.client with mIsConnect := true }
      accepted := traffic.accepted + 1 } := by
  refine ⟨inv.single, inv.allocated, fun connection after => inv.fresh connection (Nat.lt_of_succ_lt after),
    fun _ => socket, ?_⟩
  intro _
  obtain ⟨passed, handed⟩ := inv.fresh (traffic.accepted + 1) (Nat.lt_succ_self _)
  dsimp only [Traffic.passedNow, Traffic.handedNow]
  rw [passed, handed]
  exact aligned_start _

theorem Basic.step (basic : Basic traffic) (event : TrafficEvent) : Basic (traffic.step event) := by
  cases event with
  | sendMsg bytes wsaSend => exact basic.sendMsg bytes wsaSend
  | sendCompleted overlapped wsaSend =>
    dsimp only [Traffic.step]
    split_ifs with sent
    · exact basic.sendCompleted wsaSend sent
    · exact basic
  | sendFailed overlapped now =>
    dsimp only [Traffic.step]
    split_ifs with sent
    · obtain ⟨one, -⟩ := basic.single.front sent
      obtain ⟨client, closed, -, queue⟩ := closeSocket_eq
        { traffic with outstanding := traffic.outstanding.erase overlapped } now
      rw [closed, one, List.erase_cons_head]
      exact basic.other queue (Or.inl rfl) (Nat.le_refl _)
    · exact basic
  | closeSocket now =>
    obtain ⟨client, closed, -, queue⟩ := closeSocket_eq traffic now
    dsimp only [Traffic.step]
    rw [closed]
    exact basic.other queue (Or.inr rfl) (Nat.le_refl _)
  | postAccept wsaSocket acceptEx =>
    dsimp only [Traffic.step]
    split_ifs
    · exact basic
    · exact basic.other rfl (Or.inr rfl) (Nat.le_refl _)
  | acceptCompletion hIOCP wsaRecv now =>
    dsimp only [Traffic.step]
    split_ifs
    · exact basic
    · cases result : (traffic.client.acceptCompletion hIOCP wsaRecv).1 with
      | true =>
        rw [(acceptCompletion_true result now).1]
        exact basic.other rfl (Or.inr rfl) (Nat.le_succ _)
      | false =>
        obtain ⟨client, next, -, queue⟩ := acceptCompletion_false result now
        rw [next]
        exact basic.other queue (Or.inr rfl) (Nat.le_succ _)

theorem Inv.step (inv : Inv traffic) (event : TrafficEvent) (orderly : Orderly traffic event) :
    Inv (traffic.step event) := by
  cases event with
  | sendMsg bytes wsaSend => exact inv.sendMsg bytes wsaSend
  | sendCompleted overlapped wsaSend =>
    dsimp only [Traffic.step]
    split_ifs with sent
    · exact inv.sendCompleted sent orderly
    · exact inv
  | sendFailed overlapped now =>
    dsimp only [Traffic.step]
    split_ifs with sent
    · obtain ⟨one, -⟩ := inv.front sent
      obtain ⟨client, closed, off, queue⟩ := closeSocket_eq
        { traffic with outstanding := traffic.outstanding.erase overlapped } now
      rw [closed, one, List.erase_cons_head]
      exact inv.idle off queue (Or.inl rfl) (Nat.le_refl _)
    · exact inv
  | closeSocket now =>
    obtain ⟨client, closed, off, queue⟩ := closeSocket_eq traffic now
    dsimp only [Traffic.step]
    rw [closed]
    exact inv.idle off queue (Or.inr rfl) (Nat.le_refl _)
  | postAccept wsaSocket acceptEx =>
    dsimp only [Traffic.step]
    split_ifs with connected
    · exact inv
    · exact inv.idle (eq_false_of_ne_true connected) rfl (Or.inr rfl) (Nat.le_refl _)
  | acceptCompletion hIOCP wsaRecv now =>
    dsimp only [Traffic.step]
    split_ifs with connected
    · exact inv
    · cases result : (traffic.client.acceptCompletion hIOCP wsaRecv).1 with
      | true =>
        obtain ⟨next, socket⟩ := acceptCompletion_true result now
        rw [next]
        exact inv.accepted socket
      | false =>
        obtain ⟨client, next, off, queue⟩ := acceptCompletion_false result now
        rw [next]
        exact inv.idle off queue (Or.inr rfl) (Nat.le_succ _)

/-- The condition is exact for every step. -/
theorem served_step_iff (inv : Inv traffic) (served : Served traffic) (event : TrafficEvent) :
    Served (traffic.step event) ↔ Orderly traffic event := by
  cases event with
  | sendMsg bytes wsaSend => exact served_sendMsg_iff inv served bytes wsaSend
  | sendCompleted overlapped wsaSend =>
    dsimp only [Traffic.step]
    split_ifs with sent
    · exact served_sendCompleted_iff inv served sent wsaSend
    · exact iff_of_true served fun _ member => absurd member sent
  | sendFailed overlapped now =>
    refine iff_of_true ?_ trivial
    dsimp only [Traffic.step]
    split_ifs
    · obtain ⟨client, closed, off, -⟩ := closeSocket_eq
        { traffic with outstanding := traffic.outstanding.erase overlapped } now
      rw [closed]
      exact served.idle _ _ off
    · exact served
  | closeSocket now =>
    refine iff_of_true ?_ trivial
    obtain ⟨client, closed, off, -⟩ := closeSocket_eq traffic now
    dsimp only [Traffic.step]
    rw [closed]
    exact served.idle _ _ off
  | postAccept wsaSocket acceptEx =>
    refine iff_of_true ?_ trivial
    dsimp only [Traffic.step]
    split_ifs with connected
    · exact served
    · exact served.idle _ _ (eq_false_of_ne_true connected)
  | acceptCompletion hIOCP wsaRecv now =>
    dsimp only [Traffic.step, Orderly]
    split_ifs with connected
    · exact iff_of_true served fun off => absurd (off.symm.trans connected) Bool.false_ne_true
    · cases result : (traffic.client.acceptCompletion hIOCP wsaRecv).1 with
      | true =>
        rw [(acceptCompletion_true result now).1]
        constructor
        · exact fun after _ _ => after.moving rfl
        · exact fun orderly => ⟨served.own, fun _ => orderly (eq_false_of_ne_true connected) rfl⟩
      | false =>
        obtain ⟨client, next, off, -⟩ := acceptCompletion_false result now
        rw [next]
        exact iff_of_true (served.idle _ _ off) fun _ => nofun

end steps

theorem inv_init : Inv {} :=
  ⟨Or.inl rfl, nofun, fun _ _ => ⟨rfl, rfl⟩, nofun, nofun⟩

/-- In every run on one slot, every connection is served from its own messages, in order, and no
message is stranded, if and only if every step is orderly. -/
theorem run_served_iff_orderly (events : List TrafficEvent) :
    Always Traffic.step Served {} events ↔ Along Traffic.step Orderly {} events :=
  always_iff_along_while Inv (fun _ event inv orderly => inv.step event orderly)
    (fun _ event inv served => served_step_iff inv served event) inv_init
    ⟨fun _ => List.Sublist.refl _, nofun⟩ events

/-- A client whose send fails as it goes, and the next client of the slot: its messages wait behind a
buffer that nobody will send. -/
theorem run_strands_message :
    ¬ Always Traffic.step Served {}
      [.postAccept (some 7) true, .acceptCompletion .port true 10, .sendMsg [1] true, .sendFailed ⟨0, [1]⟩ 20,
        .postAccept (some 8) true, .acceptCompletion .port true 30, .sendMsg [2] true] := by
  intro always
  have taken := always.last.moving rfl ⟨0, [1]⟩ rfl
  revert taken
  decide

end CppRedis.Soundness.Sending
