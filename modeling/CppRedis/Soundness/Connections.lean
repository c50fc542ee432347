import Mathlib.Data.List.Perm.Subperm
import CppRedis.Model.GameServer.Slot

/-! # The books of a slot

What the history of a slot keeps to, whatever the server does with it. Some notices are due before the
first byte of a connection: its own connect notice and all notices of earlier connections. A connection is
in service while exactly these have been processed. If bytes are only received on a connection in service,
the unread bytes are always the rest of one connection's bytes.
-/

namespace CppRedis.Soundness.Connections

open Machine Model.GameServer

/-- The notices that have not been processed yet. -/
def outstanding (history : History) : List Notice := history.unraised ++ history.pending

/-- A notice that is due before the first byte of a connection. -/
def Due (connection : ℕ) : Notice → Prop
  | .connect other => other ≤ connection
  | .disconnect other => other < connection

instance (connection : ℕ) : DecidablePred (Due connection)
  | .connect _ => inferInstanceAs (Decidable (_ ≤ _))
  | .disconnect _ => inferInstanceAs (Decidable (_ < _))

/-- The notices due before a connection have been processed, and no others. -/
def InService (history : History) (connection : ℕ) : Prop :=
  .connect connection ∈ history.processed ∧ (∀ notice ∈ history.processed, Due connection notice) ∧
    ∀ notice ∈ outstanding history, ¬ Due connection notice

/-- The books on notices: there is at most one connect notice for each connection accepted. -/
structure Ledger (history : History) : Prop where
  once : ∀ connection, (outstanding history ++ history.processed).count (.connect connection) ≤ 1
  bounded : ∀ connection, .connect connection ∈ outstanding history ++ history.processed →
    connection ≤ history.accepted

namespace Ledger

variable {history : History}

theorem init : Ledger {} := ⟨fun _ => Nat.zero_le 1, nofun⟩

/-- Notices that only move from one stage to the next, or disappear. -/
theorem of_subperm (ledger : Ledger history) {next : History} (accepted : next.accepted = history.accepted)
    (moved : (outstanding next ++ next.processed).Subperm (outstanding history ++ history.processed)) :
    Ledger next where
  once connection := (moved.count_le _).trans (ledger.once connection)
  bounded connection member := accepted ▸ ledger.bounded connection (moved.subset member)

theorem accept (ledger : Ledger history) : Ledger history.accept := by
  have perm : (outstanding history.accept ++ history.accept.processed).Perm
      (.connect (history.accepted + 1) :: (outstanding history ++ history.processed)) := by
    simp only [outstanding, History.accept, List.append_assoc, List.singleton_append]
    exact List.perm_middle
  refine ⟨fun connection => ?_, fun connection member => ?_⟩
  · rw [perm.count_eq, List.count_cons]
    split_ifs with new
    · obtain rfl := Notice.connect.inj (beq_iff_eq.mp new)
      have fresh := mt (ledger.bounded (history.accepted + 1)) (Nat.not_succ_le_self _)
      rw [List.count_eq_zero_of_not_mem fresh]
    · exact ledger.once connection
  · rcases List.mem_cons.mp (perm.mem_iff.mp member) with new | old
    · exact Nat.le_of_eq (Notice.connect.inj new)
    · exact Nat.le_succ_of_le (ledger.bounded connection old)

theorem acceptFailed (ledger : Ledger history) (connection : ℕ) : Ledger (history.acceptFailed connection) := by
  refine ledger.of_subperm rfl (List.Sublist.subperm ?_)
  exact ((List.erase_sublist ..).append_right _).append_right _

theorem close (ledger : Ledger history) : Ledger history.close := by
  have perm : (outstanding history.close ++ history.close.processed).Perm
      (.disconnect history.accepted :: (outstanding history ++ history.processed)) := by
    simp only [outstanding, History.close, List.append_assoc, List.singleton_append]
    exact List.perm_middle
  refine ⟨fun connection => ?_, fun connection member => ?_⟩
  · rw [perm.count_eq, List.count_cons_of_ne (by nofun)]
    exact ledger.once connection
  · rcases List.mem_cons.mp (perm.mem_iff.mp member) with new | old
    · cases new
    · exact ledger.bounded connection old

theorem outstanding_raise {notice : Notice} (waiting : notice ∈ history.unraised) :
    (outstanding (history.raise notice)).Perm (outstanding history) := by
  refine List.Perm.trans ?_ ((List.perm_cons_erase waiting).symm.append_right _)
  simp only [outstanding, History.raise]
  rw [← List.append_assoc]
  exact List.perm_append_singleton ..

theorem raise (ledger : Ledger history) {notice : Notice} (waiting : notice ∈ history.unraised) :
    Ledger (history.raise notice) :=
  ledger.of_subperm rfl ((outstanding_raise waiting).append_right _).subperm

/-- Processing a notice moves it to the processed ones. -/
theorem process (ledger : Ledger history) (cleared : Bool) : Ledger (history.process cleared) := by
  have moved {notice : Notice} {rest : List Notice} (next : history.pending = notice :: rest) :
      (history.unraised ++ rest ++ (history.processed ++ [notice])).Perm
        (outstanding history ++ history.processed) := by
    simp only [outstanding]
    rw [next, List.append_assoc, List.append_assoc, ← List.append_assoc rest]
    exact (List.perm_append_singleton ..).append_left _
  cases next : history.pending with
  | nil =>
    simp only [History.process]
    rw [next]
    exact ledger
  | cons notice rest =>
    cases notice with
    | connect connection =>
      rw [History.process_connect _ next]
      exact ledger.of_subperm rfl (moved next).subperm
    | disconnect connection =>
      rw [History.process_disconnect _ next]
      exact ledger.of_subperm rfl (moved next).subperm

/-- A connect notice on its way has not been processed. -/
theorem not_mem_processed (ledger : Ledger history) {connection : ℕ}
    (waiting : .connect connection ∈ outstanding history) : .connect connection ∉ history.processed := by
  intro processed
  have once := ledger.once connection
  rw [List.count_append] at once
  have first := List.count_pos_iff.mpr waiting
  have second := List.count_pos_iff.mpr processed
  omega

end Ledger

/-- The id a packet is dispatched on. -/
def packetTag (bytes : List UInt8) : ℕ := packetId (ofList bytes)

/-- An id lies inside the header. -/
theorem packetTag_append (bytes more : List UInt8) (long : packetHeaderLength ≤ bytes.length) :
    packetTag (bytes ++ more) = packetTag bytes := by
  simp only [packetHeaderLength] at long
  simp only [packetTag, packetId, uint16At, ofList]
  rw [List.getElem?_append_left (by omega), List.getElem?_append_left (by omega)]

/-- The packets taken off a connection's bytes, one behind the other. -/
def frames (history : History) (connection : ℕ) : List UInt8 :=
  ((history.packets connection).map Prod.snd).flatten

/-- The unread bytes are the rest of this connection's. -/
def Serves (history : History) (unread : List UInt8) (connection : ℕ) : Prop :=
  history.origins = List.replicate unread.length connection ∧
    history.received connection = frames history connection ++ unread

/-- The latest connection announced. -/
def Latest (history : History) (connection : ℕ) : Prop :=
  .connect connection ∈ history.processed ∧
    ∀ other, .connect other ∈ history.processed → other ≤ connection

/-- The unread bytes, if there are any, belong to the latest connection announced. -/
def Owned (history : History) (unread : List UInt8) : Prop :=
  (unread = [] ∧ history.origins = []) ∨ ∃ owner, Latest history owner ∧ Serves history unread owner

theorem InService.latest {history : History} {connection : ℕ} (service : InService history connection) :
    Latest history connection :=
  ⟨service.1, fun other processed => service.2.1 (.connect other) processed⟩

theorem Latest.unique {history : History} {first second : ℕ} (one : Latest history first)
    (other : Latest history second) : first = second :=
  Nat.le_antisymm (other.2 first one.1) (one.2 second other.1)

/-- The books on bytes. Nothing is received on a connection that a notice is still due for. -/
structure Stream (history : History) (unread : List UInt8) : Prop where
  parses : ∀ connection,
    packetFraming.Parses packetTag (history.packets connection) (history.received connection)
  owned : Owned history unread
  current : ∀ connection, InService history connection → Serves history unread connection
  waiting : ∀ connection, (∃ notice ∈ outstanding history, Due connection notice) →
    history.received connection = []
  fresh : ∀ connection, history.accepted < connection → history.received connection = []

namespace Stream

variable {history : History} {unread : List UInt8}

theorem init : Stream {} [] where
  parses _ := trivial
  owned := Or.inl ⟨rfl, rfl⟩
  current _ service := absurd service.1 List.not_mem_nil
  waiting _ _ := rfl
  fresh _ _ := rfl

/-- Nothing is taken off an empty stream. -/
theorem frames_eq_nil {connection : ℕ}
    (parses : packetFraming.Parses packetTag (history.packets connection) (history.received connection))
    (empty : history.received connection = []) : frames history connection = [] := by
  rw [empty] at parses
  simp only [frames]
  cases packets : history.packets connection with
  | nil => rfl
  | cons packet rest =>
    rw [packets] at parses
    exact absurd (Framing.next?_eq_some_iff.mp parses.2.1).1 (Nat.not_succ_le_zero _)

/-- The latest connection announced is served as long as nothing has been received on it. -/
theorem serves_of_empty {connection : ℕ}
    (parses : packetFraming.Parses packetTag (history.packets connection) (history.received connection))
    (owned : Owned history unread) (latest : Latest history connection)
    (empty : history.received connection = []) : Serves history unread connection := by
  rcases owned with ⟨rfl, none⟩ | ⟨owner, ownerLatest, serves⟩
  · exact ⟨none, by rw [empty, frames_eq_nil parses empty, List.append_nil]⟩
  · rw [latest.unique ownerLatest]
    exact serves

/-- A step that only raises notices or makes new ones. Connections that come into service by it were
waiting before, so nothing has been received on them. -/
theorem of_notices (stream : Stream history unread) {next : History}
    (received : next.received = history.received) (origins : next.origins = history.origins)
    (packets : next.packets = history.packets) (processed : next.processed = history.processed)
    (accepted : history.accepted ≤ next.accepted)
    (known : ∀ notice ∈ outstanding next, notice ∈ outstanding history ∨
      ∀ connection, Due connection notice → history.accepted < connection) : Stream next unread := by
  have serves {connection : ℕ} : Serves history unread connection → Serves next unread connection := by
    simp only [Serves, frames]
    rw [received, origins, packets]
    exact id
  have latest {connection : ℕ} : Latest next connection ↔ Latest history connection := by
    simp only [Latest]
    rw [processed]
  refine ⟨?_, ?_, fun connection service => ?_, fun connection due => ?_, fun connection later => ?_⟩
  · rw [received, packets]
    exact stream.parses
  · simp only [Owned]
    rw [origins]
    refine stream.owned.imp_right ?_
    rintro ⟨owner, ownerLatest, owns⟩
    exact ⟨owner, latest.mpr ownerLatest, serves owns⟩
  · apply serves
    by_cases waits : ∃ notice ∈ outstanding history, Due connection notice
    · exact serves_of_empty (stream.parses connection) stream.owned (latest.mp service.latest)
        (stream.waiting connection waits)
    · refine stream.current connection ⟨processed ▸ service.1, processed ▸ service.2.1, ?_⟩
      exact fun notice member due => waits ⟨notice, member, due⟩
  · rw [received]
    obtain ⟨notice, member, isDue⟩ := due
    rcases known notice member with old | new
    · exact stream.waiting connection ⟨notice, old, isDue⟩
    · exact stream.fresh connection (new connection isDue)
  · rw [received]
    exact stream.fresh connection (Nat.lt_of_le_of_lt accepted later)

theorem accept (stream : Stream history unread) : Stream history.accept unread := by
  refine stream.of_notices rfl rfl rfl rfl (Nat.le_succ _) fun notice member => ?_
  rcases List.mem_append.mp member with unraised | pending
  · rcases List.mem_append.mp unraised with old | new
    · exact Or.inl (List.mem_append_left _ old)
    · rw [List.mem_singleton.mp new]
      exact Or.inr fun _ due => due
  · exact Or.inl (List.mem_append_right _ pending)

theorem acceptFailed (stream : Stream history unread) (connection : ℕ) :
    Stream (history.acceptFailed connection) unread := by
  refine stream.of_notices rfl rfl rfl rfl (Nat.le_refl _) fun notice member => Or.inl ?_
  rcases List.mem_append.mp member with unraised | pending
  · exact List.mem_append_left _ (List.mem_of_mem_erase unraised)
  · exact List.mem_append_right _ pending

theorem close (stream : Stream history unread) : Stream history.close unread := by
  refine stream.of_notices rfl rfl rfl rfl (Nat.le_refl _) fun notice member => ?_
  rcases List.mem_append.mp member with unraised | pending
  · rcases List.mem_append.mp unraised with old | new
    · exact Or.inl (List.mem_append_left _ old)
    · rw [List.mem_singleton.mp new]
      exact Or.inr fun _ due => due
  · exact Or.inl (List.mem_append_right _ pending)

theorem raise (stream : Stream history unread) {notice : Notice} (waiting : notice ∈ history.unraised) :
    Stream (history.raise notice) unread :=
  stream.of_notices rfl rfl rfl rfl (Nat.le_refl _) fun _ member =>
    Or.inl ((Ledger.outstanding_raise waiting).mem_iff.mp member)

theorem receive (stream : Stream history unread) (ledger : Ledger history) {connection : ℕ}
    (service : InService history connection) (bytes : List UInt8) :
    Stream (history.receive connection bytes) (unread ++ bytes) := by
  have serves : Serves (history.receive connection bytes) (unread ++ bytes) connection := by
    obtain ⟨origins, received⟩ := stream.current connection service
    refine ⟨?_, ?_⟩
    · change history.origins ++ _ = _
      rw [origins, List.length_append, List.replicate_add]
    · rw [History.receive_received_self, received, List.append_assoc]
      rfl
  have other {connection' : ℕ} (different : connection' ≠ connection)
      (empty : history.received connection' = []) :
      (history.receive connection bytes).received connection' = [] := by
    rw [History.receive_received_other _ _ different, empty]
  refine ⟨fun other => ?_, Or.inr ⟨connection, service.latest, serves⟩, fun other inService => ?_,
    fun connection' due => ?_, fun connection' later => ?_⟩
  · by_cases same : other = connection
    · rw [same, History.receive_received_self]
      exact (stream.parses connection).append packetTag_append bytes
    · rw [History.receive_received_other _ _ same]
      exact stream.parses other
  · rw [inService.latest.unique service.latest]
    exact serves
  · refine other ?_ (stream.waiting connection' due)
    rintro rfl
    obtain ⟨notice, member, isDue⟩ := due
    exact service.2.2 notice member isDue
  · refine other ?_ (stream.fresh connection' later)
    rintro rfl
    have known := ledger.bounded connection' (List.mem_append_right _ service.1)
    exact absurd later (Nat.not_lt.mpr known)

/-- The connection of the unread bytes, once a frame is complete at their front. -/
theorem head_origins {connection : ℕ} {frame : List UInt8} (serves : Serves history unread connection)
    (found : packetFraming.next? unread = some frame) : history.origins.headD 0 = connection := by
  have long : packetHeaderLength ≤ unread.length := (Framing.next?_eq_some_iff.mp found).1
  obtain ⟨more, length⟩ := Nat.exists_eq_add_of_le' (Nat.le_trans (by decide : 1 ≤ packetHeaderLength) long)
  rw [serves.1, length]
  rfl

/-- Taking a packet moves it from the unread bytes to the frames of its connection. -/
theorem take (stream : Stream history unread) {frame : List UInt8}
    (found : packetFraming.next? unread = some frame) :
    Stream (history.take (packetTag unread, frame)) (unread.drop frame.length) := by
  have moved {connection : ℕ} (serves : Serves history unread connection) :
      Serves (history.take (packetTag unread, frame)) (unread.drop frame.length) connection := by
    have first := head_origins serves found
    refine ⟨?_, ?_⟩
    · change history.origins.drop frame.length = _
      rw [serves.1, List.drop_replicate, List.length_drop]
    · change history.received connection = _
      simp only [frames]
      rw [History.take_packets_self _ _ first, List.map_append, List.flatten_append, List.append_assoc,
        serves.2]
      congr 1
      rw [List.map_singleton, List.flatten_singleton]
      conv_lhs => rw [← List.take_append_drop frame.length unread, Framing.take_of_next? found]
  refine ⟨fun connection => ?_, ?_, fun connection service => ?_, stream.waiting, stream.fresh⟩
  · change packetFraming.Parses packetTag _ (history.received connection)
    rcases stream.owned with ⟨rfl, -⟩ | ⟨owner, latest, serves⟩
    · exact absurd (Framing.next?_eq_some_iff.mp found).1 (Nat.not_succ_le_zero _)
    have first := head_origins serves found
    by_cases same : connection = owner
    · rw [same, History.take_packets_self _ _ first]
      exact (stream.parses owner).snoc serves.2 found
    · rw [History.take_packets_other _ _ (by rwa [first])]
      exact stream.parses connection
  · rcases stream.owned with ⟨rfl, none⟩ | ⟨owner, latest, serves⟩
    · exact absurd (Framing.next?_eq_some_iff.mp found).1 (Nat.not_succ_le_zero _)
    · exact Or.inr ⟨owner, latest, moved serves⟩
  · exact moved (stream.current connection service)

/-- A step that processes a notice. Whoever is in service afterwards was waiting for it. -/
theorem of_processed (stream : Stream history unread) {next : History} {notice : Notice} {rest : List Notice}
    (first : history.pending = notice :: rest) (received : next.received = history.received)
    (packets : next.packets = history.packets) (processed : next.processed = history.processed ++ [notice])
    (accepted : next.accepted = history.accepted) (outstandingNext : outstanding next = history.unraised ++ rest)
    {left : List UInt8} (owned : Owned next left) : Stream next left := by
  have was : notice ∈ outstanding history :=
    List.mem_append_right _ (first ▸ List.mem_cons_self ..)
  have parses : ∀ connection,
      packetFraming.Parses packetTag (next.packets connection) (next.received connection) := by
    rw [received, packets]
    exact stream.parses
  refine ⟨parses, owned, fun connection service => ?_, fun connection due => ?_, fun connection later => ?_⟩
  · refine serves_of_empty (parses connection) owned service.latest ?_
    rw [received]
    refine stream.waiting connection ⟨notice, was, service.2.1 notice ?_⟩
    rw [processed]
    exact List.mem_append_right _ (List.mem_singleton_self _)
  · rw [received]
    obtain ⟨other, member, isDue⟩ := due
    refine stream.waiting connection ⟨other, ?_, isDue⟩
    rw [outstandingNext] at member
    simp only [outstanding]
    rw [first]
    exact ((List.sublist_cons_self _ _).append_left _).subset member
  · rw [received]
    exact stream.fresh connection (accepted ▸ later)

/-- A connect notice empties the buffer. -/
theorem processConnect (stream : Stream history unread) {raised : ℕ} {rest : List Notice}
    (next : history.pending = .connect raised :: rest) (cleared : Bool) :
    Stream (history.process cleared) [] := by
  rw [History.process_connect _ next]
  exact stream.of_processed next (by rfl) (by rfl) (by rfl) (by rfl) (by rfl) (Or.inl ⟨rfl, rfl⟩)

/-- A disconnect notice empties it or leaves it alone. -/
theorem processDisconnect (stream : Stream history unread) {closed : ℕ} {rest : List Notice}
    (next : history.pending = .disconnect closed :: rest) (cleared : Bool) :
    Stream (history.process cleared) (if cleared then [] else unread) := by
  rw [History.process_disconnect _ next]
  refine stream.of_processed next (by rfl) (by rfl) (by rfl) (by rfl) (by rfl) ?_
  cases cleared with
  | true => exact Or.inl ⟨rfl, rfl⟩
  | false =>
    refine stream.owned.imp_right ?_
    rintro ⟨owner, latest, serves⟩
    refine ⟨owner, ⟨List.mem_append_left _ latest.1, fun other member => ?_⟩, serves⟩
    rcases List.mem_append.mp member with old | new
    · exact latest.2 other old
    · cases List.mem_singleton.mp new

/-- The bytes that a connect notice throws away belong to a connection announced before. -/
theorem not_mem_origins (stream : Stream history unread) (ledger : Ledger history) {raised : ℕ}
    {rest : List Notice} (next : history.pending = .connect raised :: rest) : raised ∉ history.origins := by
  intro member
  rcases stream.owned with ⟨-, none⟩ | ⟨owner, latest, serves⟩
  · rw [none] at member
    exact absurd member List.not_mem_nil
  · rw [serves.1] at member
    obtain rfl := List.eq_of_mem_replicate member
    refine ledger.not_mem_processed (List.mem_append_right _ ?_) latest.1
    rw [next]
    exact List.mem_cons_self ..

end Stream

/-- Whether `ProcessPacket` dispatches a packet of a client at all. -/
def isDispatched (packet : ℕ × List UInt8) : Bool := PacketId.sysEnd.value < packet.1

/-- The packets dispatched for a connection. -/
def dispatchedFor (history : History) (connection : ℕ) : List (ℕ × List UInt8) :=
  (history.dispatches.filter fun dispatch => dispatch.connection = connection).map Dispatch.packet

/-- A packet made of bytes of one connection, after its connect notice. -/
def WellSourced (dispatch : Dispatch) : Prop :=
  (∀ origin ∈ dispatch.parsed, origin = dispatch.connection) ∧
    .connect dispatch.connection ∈ dispatch.processed

instance (dispatch : Dispatch) : Decidable (WellSourced dispatch) := inferInstanceAs (Decidable (_ ∧ _))

/-- The books on packets: what has been dispatched, and the packet in the packet thread's hands, are
the packets taken so far, less those that are not dispatched. -/
structure Handed (history : History) (hand : Option (ℕ × List UInt8)) : Prop where
  order : ∀ connection,
    dispatchedFor history connection ++
        (if history.inHand.headD 0 = connection then hand.toList else []) =
      (history.packets connection).filter isDispatched
  whole : ∀ packet ∈ hand,
    (∀ origin ∈ history.inHand, origin = history.inHand.headD 0) ∧
      .connect (history.inHand.headD 0) ∈ history.processed
  sound : ∀ dispatch ∈ history.dispatches, WellSourced dispatch

namespace Handed

variable {history : History}

theorem init : Handed {} none := ⟨fun _ => by rw [Option.toList_none, ite_self]; rfl, nofun, nofun⟩

theorem process {hand : Option (ℕ × List UInt8)} (handed : Handed history hand) (cleared : Bool) :
    Handed (history.process cleared) hand := by
  cases next : history.pending with
  | nil =>
    simp only [History.process]
    rw [next]
    exact handed
  | cons notice rest =>
    cases notice with
    | connect connection =>
      rw [History.process_connect _ next]
      refine ⟨handed.order, fun packet held => ?_, handed.sound⟩
      exact (handed.whole packet held).imp_right (List.mem_append_left _)
    | disconnect connection =>
      rw [History.process_disconnect _ next]
      refine ⟨handed.order, fun packet held => ?_, handed.sound⟩
      exact (handed.whole packet held).imp_right (List.mem_append_left _)

/-- A packet that was taken is in the packet thread's hands if it is one to dispatch. -/
theorem take {unread frame : List UInt8} (handed : Handed history none) (stream : Stream history unread)
    (found : packetFraming.next? unread = some frame) :
    Handed (history.take (packetTag unread, frame))
      (if isDispatched (packetTag unread, frame) then some (packetTag unread, frame) else none) := by
  rcases stream.owned with ⟨rfl, -⟩ | ⟨owner, latest, serves⟩
  · exact absurd (Framing.next?_eq_some_iff.mp found).1 (Nat.not_succ_le_zero _)
  have first := Stream.head_origins serves found
  have all : ∀ origin ∈ (history.take (packetTag unread, frame)).inHand, origin = owner := by
    intro origin member
    have old : origin ∈ history.origins := List.mem_of_mem_take member
    rw [serves.1] at old
    exact List.eq_of_mem_replicate old
  have same : (history.take (packetTag unread, frame)).inHand.headD 0 = owner := by
    have long : packetHeaderLength ≤ unread.length := (Framing.next?_eq_some_iff.mp found).1
    simp only [packetHeaderLength] at long
    change (history.origins.take (max packetHeaderLength frame.length)).headD 0 = owner
    rw [serves.1, List.take_replicate]
    obtain ⟨more, length⟩ : ∃ more, min (max packetHeaderLength frame.length) unread.length = more + 1 :=
      Nat.exists_eq_add_of_le' (by unfold packetHeaderLength; omega)
    rw [length]
    rfl
  refine ⟨fun connection => ?_, fun packet _ => ?_, handed.sound⟩
  · have before := handed.order connection
    rw [Option.toList_none, ite_self, List.append_nil] at before
    change dispatchedFor history connection ++ _ = _
    rw [before, same]
    by_cases mine : owner = connection
    · rw [if_pos mine, History.take_packets_self _ _ (first.trans mine), List.filter_append]
      congr 1
      split_ifs with yes
      · rw [List.filter_cons_of_pos yes]
        rfl
      · rw [List.filter_cons_of_neg yes]
        rfl
    · rw [if_neg mine, List.append_nil, History.take_packets_other _ _ (by rw [first]; exact Ne.symm mine)]
  · rw [same]
    exact ⟨all, latest.1⟩

theorem dispatch {packet : ℕ × List UInt8} (handed : Handed history (some packet)) :
    Handed (history.dispatch packet) none := by
  refine ⟨fun connection => ?_, nofun, fun dispatch member => ?_⟩
  · have before := handed.order connection
    rw [Option.toList_none, ite_self, List.append_nil]
    change _ = (history.packets connection).filter isDispatched
    rw [← before]
    simp only [dispatchedFor, History.dispatch]
    rw [List.filter_append, List.map_append]
    congr 1
    split_ifs with mine
    · simp only [List.filter_cons, List.filter_nil, mine, decide_true, ↓reduceIte, List.map_cons,
        List.map_nil, Option.toList_some]
    · simp only [List.filter_cons, List.filter_nil, mine, decide_false, Bool.false_eq_true, ↓reduceIte,
        List.map_nil]
  · rcases List.mem_append.mp member with old | new
    · exact handed.sound dispatch old
    · rw [List.mem_singleton.mp new]
      exact handed.whole packet rfl

end Handed

end CppRedis.Soundness.Connections
