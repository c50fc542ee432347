import CppRedis.Machine.Serving
import CppRedis.Model.Hiredis.Context
import CppRedis.Soundness.Formatting

/-! # Replies answer commands in order

A context and a server over two streams of bytes, cut by the sockets as they like. The server finds the commands in
what it was sent by the grammar of the protocol and answers each of them with a value. The program appends commands,
flushes, reads and takes replies in any order, past any failure of the sockets. The replies that it takes are the
answers to its commands, in the order of the commands, each as soon as its last byte was read.
-/

namespace CppRedis.Soundness.Pipelining

open Machine Model.Hiredis ReplyStream ReplyRoundTrip Formatting
open Model.RedisCpp (text)

variable {δ : Type}

/-- An append adds the bytes of the command. -/
theorem redisAppendCommandArgv_spec (c : RedisContext δ) {argv : List CppString}
    (small : (command argv).length < 2147483647) :
    c.redisAppendCommandArgv argv = some (.ok, { c with obuf := c.obuf ++ command argv }) := by
  have count : argv.length < 2147483648 := (count_lt_command argv).trans (by omega)
  have each : ∀ arg ∈ argv, arg.length < 4294967296 := fun arg member => (argument_lt_command member).trans (by omega)
  have cast : toInt (command argv).length = (command argv).length := toInt_of_lt (by omega) (by omega)
  have length : (((command argv).length : ℤ) % 2 ^ 64).toNat = (command argv).length := by omega
  rw [RedisContext.redisAppendCommandArgv, redisFormatSdsCommandArgv_eq count each, cast, Option.bind_some]
  dsimp only
  rw [if_neg (by omega), length, if_pos (le_refl _), List.take_length]
  rfl

/-- The bytes that a write gives away. -/
def sentBytes (c : RedisContext δ) (result : SendResult) : CppString :=
  match c.err, result with
  | none, .sent count => c.obuf.take count
  | _, _ => []

/-- A socket takes no more than there is. -/
def Sendable (c : RedisContext δ) : SendResult → Prop
  | .sent count => count ≤ c.obuf.length
  | .failed _ => True

instance (c : RedisContext δ) (result : SendResult) : Decidable (Sendable c result) := by
  cases result <;> unfold Sendable <;> infer_instance

/-- A write gives away the front of the buffer and keeps the rest. -/
theorem redisBufferWrite_spec (strerror : Errno → CppString) (c : RedisContext δ) {result : SendResult}
    (small : c.obuf.length < 2147483648) (sendable : Sendable c result) :
    ∃ err, (c.redisBufferWrite strerror result).2.2 =
      { c with err := err, obuf := c.obuf.drop (sentBytes c result).length } ∧
      sentBytes c result <+: c.obuf := by
  rw [RedisContext.redisBufferWrite]
  cases broken : c.err with
  | some error =>
    have none : sentBytes c result = [] := by simp only [sentBytes, broken]
    exact ⟨c.err, by rw [none]; rfl, by rw [none]; exact List.nil_prefix⟩
  | none =>
    rw [if_neg (by simp)]
    by_cases empty : c.obuf = []
    · have none : sentBytes c result = [] := by
        cases result <;> simp [sentBytes, broken, empty]
      rw [if_pos empty, none]
      exact ⟨c.err, rfl, List.nil_prefix⟩
    · rw [if_neg empty]
      cases result with
      | failed errno =>
        have none : sentBytes c (.failed errno) = [] := by simp only [sentBytes, broken]
        rw [none, RedisContext.redisNetWrite]
        split_ifs
        · exact ⟨c.err, rfl, List.nil_prefix⟩
        · exact ⟨_, rfl, List.nil_prefix⟩
      | sent count =>
        have some : sentBytes c (.sent count) = c.obuf.take count := by simp only [sentBytes, broken]
        have bound : count ≤ c.obuf.length := sendable
        have size : toInt c.obuf.length = c.obuf.length := toInt_of_lt (by omega) (by omega)
        rw [some, RedisContext.redisNetWrite, List.length_take, Nat.min_eq_left bound]
        refine ⟨c.err, ?_, List.take_prefix count c.obuf⟩
        dsimp only
        by_cases nothing : count = 0
        · subst nothing
          rfl
        · rw [if_neg (by omega), if_neg (by omega), size]
          by_cases all : count = c.obuf.length
          · rw [if_pos (by rw [all]), all, List.drop_length]
          · rw [if_neg (by omega), sdsrange_rest bound small]

/-- The bytes that a read brings. -/
def receivedBytes (c : RedisContext δ) (result : RecvResult) : CppString :=
  match c.err, result with
  | none, .bytes buf => buf
  | _, _ => []

/-- A socket gives bytes or none, but no empty text. -/
def Receivable : RecvResult → Prop
  | .bytes buf => buf ≠ []
  | _ => True

instance (result : RecvResult) : Decidable (Receivable result) := by
  cases result <;> unfold Receivable <;> infer_instance

/-- A read feeds what it brings to the reader. -/
theorem redisBufferRead_spec (strerror : Errno → CppString) {c : RedisContext δ} {result : RecvResult}
    (fine : c.reader.err = none) (receivable : Receivable result) :
    ∃ err, (c.redisBufferRead strerror result).2 =
      { c with err := err, reader := { c.reader with buf := c.reader.buf ++ receivedBytes c result } } := by
  have same : { c.reader with buf := c.reader.buf ++ [] } = c.reader := by rw [List.append_nil]
  rw [RedisContext.redisBufferRead]
  cases broken : c.err with
  | some error =>
    have none : receivedBytes c result = [] := by simp only [receivedBytes, broken]
    exact ⟨c.err, by rw [none, same]; rfl⟩
  | none =>
    rw [if_neg (by simp)]
    cases result with
    | bytes buf =>
      have some : receivedBytes c (.bytes buf) = buf := by simp only [receivedBytes, broken]
      have positive : (0 : ℤ) < buf.length := Int.natCast_pos.mpr (List.length_pos_iff.mpr receivable)
      rw [some, RedisContext.redisNetRead]
      dsimp only
      rw [if_pos positive, redisReaderFeed, if_neg (by rw [fine]; simp)]
      exact ⟨c.err, rfl⟩
    | closed =>
      have none : receivedBytes c .closed = [] := by simp only [receivedBytes, broken]
      rw [none, same]
      exact ⟨_, rfl⟩
    | failed errno =>
      have none : receivedBytes c (.failed errno) = [] := by simp only [receivedBytes, broken]
      rw [none, same, RedisContext.redisNetRead]
      split_ifs
      · exact ⟨c.err, rfl⟩
      · exact ⟨_, rfl⟩
      · exact ⟨_, rfl⟩

/-- What a program and its sockets do. -/
inductive Action where
  | append (argv : List CppString)
  | write (result : SendResult)
  | read (result : RecvResult)
  | getReply

/-- A context with the commands that it was given, the bytes that passed its sockets and the replies that it gave. -/
structure Link (δ : Type) where
  context : RedisContext δ
  asked : List (List CppString) := []
  sent : CppString := []
  received : CppString := []
  returned : List (RedisReply δ) := []

namespace Link

variable (strerror : Errno → CppString) (doubles : Doubles δ) (calloc : ℕ → Bool) (link : Link δ)

/-- An action; `none` where the program ends in an assertion or goes astray. -/
def act : Action → Option (Link δ)
  | .append argv =>
      (link.context.redisAppendCommandArgv argv).map fun (status, c) =>
        { link with context := c, asked := if status = .ok then link.asked ++ [argv] else link.asked }
  | .write result =>
      some { link with
        context := (link.context.redisBufferWrite strerror result).2.2
        sent := link.sent ++ sentBytes link.context result }
  | .read result =>
      some { link with
        context := (link.context.redisBufferRead strerror result).2
        received := link.received ++ receivedBytes link.context result }
  | .getReply =>
      (link.context.redisGetReplyFromReader doubles calloc).map fun (_, reply, c) =>
        { link with context := c, returned := link.returned ++ reply.toList }

/-- The reader with the bytes that it got and the replies that it gave. -/
def session : Session δ := ⟨link.context.reader, link.received, link.returned⟩

end Link

/-- The requests that a server finds in what it got, by the grammar. -/
def requests (doubles : Doubles δ) (sent : CppString) : List (RedisReply δ) := (replies doubles (fun _ => true) sent).1

variable (strerror : Errno → CppString) (doubles : Doubles δ) (calloc : ℕ → Bool)
  (server : List (RedisReply δ) → RedisReply δ → Value)

/-- The values that the server has for the requests that reached it. -/
def served (link : Link δ) : List Value := answers server (requests doubles link.sent)

/-- What the sockets do, and sizes that an `int` holds: `send` takes of what there is, and what `recv` brings goes on
with the server's answers. -/
def Meets (link : Option (Link δ)) (action : Action) : Prop :=
  ∀ here, link = some here →
    match action with
    | .append argv => here.context.obuf.length + (command argv).length < 2147483647
    | .write result => Sendable here.context result
    | .read result =>
        Receivable result ∧ here.context.reader.buf.length + (receivedBytes here.context result).length < 2147483648 ∧
          here.received ++ receivedBytes here.context result <+: Value.encodeAll (served doubles server here)
    | .getReply => True

instance (link : Option (Link δ)) (action : Action) : Decidable (Meets doubles server link action) :=
  match link with
  | none => isTrue (by rintro here ⟨⟩)
  | some here =>
      let now : Decidable (match action with
        | .append argv => here.context.obuf.length + (command argv).length < 2147483647
        | .write result => Sendable here.context result
        | .read result =>
            Receivable result ∧ here.context.reader.buf.length +
              (receivedBytes here.context result).length < 2147483648 ∧
              here.received ++ receivedBytes here.context result <+: Value.encodeAll (served doubles server here)
        | .getReply => True) := by
        cases action <;> dsimp only <;> infer_instance
      decidable_of_iff _ ⟨fun meets _ same => Option.some.inj same ▸ meets, fun meets => meets here rfl⟩

def step (link : Option (Link δ)) (action : Action) : Option (Link δ) :=
  link.bind fun link => link.act strerror doubles calloc action

/-- The bytes that passed the sockets, with what is on both sides of them. -/
structure Joined (link : Link δ) : Prop where
  fits : link.context.reader.buf.length < 2147483648
  sent : link.sent ++ link.context.obuf = (link.asked.map command).flatten
  asked : ∀ argv ∈ link.asked, (command argv).length < 2147483647
  tracks : Tracks doubles calloc link.session
  received : link.received <+: Value.encodeAll (served doubles server link)

/-- What every action keeps. -/
structure Paired (link : Link δ) : Prop extends Joined doubles calloc server link where
  small : link.context.obuf.length < 2147483648

/-- Replies answer the commands in order, and the next one is there when its bytes were read. -/
structure InOrder (link : Link δ) : Prop where
  heard : requests doubles link.sent <+: link.asked.map (commandReply doubles)
  returned : link.returned <+: (answers server (link.asked.map (commandReply doubles))).map (Value.object doubles)
  next : ∃ c, c.err = link.context.err ∧
    link.context.redisGetReplyFromReader doubles calloc =
      some (.ok, ((arrived (served doubles server link) link.received.length).map
        (Value.object doubles))[link.returned.length]?, c)

section

variable {strerror doubles calloc server} {link : Link δ}

theorem encodeAll_commands (asked : List (List CppString)) :
    Value.encodeAll (asked.map Value.command) = (asked.map command).flatten := by
  rw [encodeAll_eq, List.map_map]
  rfl

/-- The server finds the commands whose bytes it has. -/
theorem requests_eq {asked : List (List CppString)} (small : ∀ argv ∈ asked, (command argv).length < 2147483647)
    {sent : CppString} (front : sent <+: (asked.map command).flatten) :
    requests doubles sent = (arrived (asked.map Value.command) sent.length).map (Value.object doubles) := by
  have writable : ∀ v ∈ asked.map Value.command, v.Writable doubles (fun _ => true) 8 := by
    intro v member
    obtain ⟨argv, asked, rfl⟩ := List.mem_map.mp member
    exact command_writable 7 ((small argv asked).trans (by omega)) fun _ => rfl
  rw [← encodeAll_commands] at front
  rw [requests, replies, repliesUpTo_front writable front (Nat.lt_succ_self _)]

namespace Joined

variable (joined : Joined doubles calloc server link)

include joined

theorem front : link.sent <+: (link.asked.map command).flatten := ⟨_, joined.sent⟩

theorem heard : requests doubles link.sent <+: link.asked.map (commandReply doubles) := by
  have all : link.asked.map (commandReply doubles) = (link.asked.map Value.command).map (Value.object doubles) := by
    rw [List.map_map]
    rfl
  rw [requests_eq joined.asked joined.front, all]
  exact (arrived_front _ _).map _

/-- One more command. -/
theorem append {argv : List CppString} (bound : (command argv).length < 2147483647) :
    Joined doubles calloc server { link with
      context := { link.context with obuf := link.context.obuf ++ command argv }
      asked := link.asked ++ [argv] } := by
  refine ⟨joined.fits, ?_, ?_, joined.tracks, joined.received⟩
  · dsimp only
    rw [← List.append_assoc, joined.sent, List.map_append, List.flatten_append, List.map_singleton,
      List.flatten_singleton]
  · intro other member
    rcases List.mem_append.mp member with before | last
    · exact joined.asked other before
    · rwa [List.mem_singleton.mp last]

/-- A write, whatever it comes to. -/
theorem write (small : link.context.obuf.length < 2147483648) {result : SendResult}
    (sendable : Sendable link.context result) :
    Joined doubles calloc server { link with
        context := (link.context.redisBufferWrite strerror result).2.2
        sent := link.sent ++ sentBytes link.context result } ∧
      (link.context.redisBufferWrite strerror result).2.2.obuf.length ≤ link.context.obuf.length := by
  obtain ⟨err, written, rest, split⟩ := redisBufferWrite_spec strerror link.context small sendable
  have behind : link.context.obuf.drop (sentBytes link.context result).length = rest := by
    rw [← split, List.drop_left]
  have all : link.sent ++ sentBytes link.context result ++ rest = (link.asked.map command).flatten := by
    rw [List.append_assoc, split, joined.sent]
  have more : requests doubles link.sent <+: requests doubles (link.sent ++ sentBytes link.context result) := by
    rw [requests_eq joined.asked joined.front, requests_eq joined.asked ⟨rest, all⟩]
    exact (arrived_mono _ (by rw [List.length_append]; omega)).map _
  rw [written, behind]
  refine ⟨⟨joined.fits, all, joined.asked, joined.tracks, ?_⟩, ?_⟩
  · exact joined.received.trans (encodeAll_mono (answers_mono server more))
  · have shorter := congrArg List.length split
    rw [List.length_append] at shorter
    dsimp only
    omega

variable (each : ∀ history request, (server history request).Writable doubles calloc 8)

include each

theorem sound : replies doubles calloc link.received =
    ((arrived (served doubles server link) link.received.length).map (Value.object doubles), none) :=
  repliesUpTo_front (forall_answers each _) joined.received (Nat.lt_succ_self _)

/-- The replies that were taken are answers to the commands. -/
theorem returned_front :
    link.returned <+: (answers server (link.asked.map (commandReply doubles))).map (Value.object doubles) := by
  have within := joined.tracks.within
  have all : replies doubles calloc link.session.fed = _ := joined.sound each
  rw [all] at within
  exact within.trans (((arrived_front _ _).trans (answers_mono server joined.heard)).map _)

theorem fine : link.context.reader.err = none :=
  joined.tracks.fine (congrArg Prod.snd (joined.sound each))

/-- A read, whatever it comes to. -/
theorem read {result : RecvResult} (receivable : Receivable result)
    (room : link.context.reader.buf.length + (receivedBytes link.context result).length < 2147483648)
    (onward : link.received ++ receivedBytes link.context result <+: Value.encodeAll (served doubles server link)) :
    Joined doubles calloc server { link with
      context := (link.context.redisBufferRead strerror result).2
      received := link.received ++ receivedBytes link.context result } := by
  have fine := joined.fine each
  obtain ⟨err, read⟩ := redisBufferRead_spec strerror fine receivable
  have tracks := feed_tracks joined.tracks (receivedBytes link.context result)
  dsimp only [Link.session] at tracks
  rw [redisReaderFeed_fine fine] at tracks
  rw [read]
  refine ⟨?_, joined.sent, joined.asked, tracks, onward⟩
  dsimp only
  rw [List.length_append]
  exact room

/-- A call for a reply, on a connection where everything is in order. -/
theorem getReply (modest : Modest calloc) :
    ∃ reader, link.context.redisGetReplyFromReader doubles calloc =
        some (.ok, ((arrived (served doubles server link) link.received.length).map
          (Value.object doubles))[link.returned.length]?,
          { link.context with reader := reader }) ∧
      reader.buf.length ≤ link.context.reader.buf.length ∧
      Joined doubles calloc server { link with
        context := { link.context with reader := reader }
        returned := link.returned ++
          (((arrived (served doubles server link) link.received.length).map
            (Value.object doubles))[link.returned.length]?).toList } := by
  obtain ⟨reader, answered, shorter, tracks⟩ :=
    getReply_values modest joined.fits joined.tracks (forall_answers each _) joined.received
  refine ⟨reader, ?_, shorter, shorter.trans_lt joined.fits, joined.sent, joined.asked, tracks, joined.received⟩
  have same : redisReaderGetReply doubles calloc link.context.reader = _ := answered
  rw [RedisContext.redisGetReplyFromReader, same]
  rfl

end Joined

namespace Paired

variable (paired : Paired doubles calloc server link)
    (each : ∀ history request, (server history request).Writable doubles calloc 8)

include paired each

theorem inOrder (modest : Modest calloc) : InOrder doubles calloc server link := by
  obtain ⟨reader, answered, -, -⟩ := paired.getReply each modest
  exact ⟨paired.heard, paired.returned_front each, { link.context with reader := reader }, rfl, answered⟩

/-- Every action keeps everything in order. -/
theorem step (modest : Modest calloc) {action : Action} (meets : Meets doubles server (some link) action) :
    ∃ next, Pipelining.step strerror doubles calloc (some link) action = some next ∧
      Paired doubles calloc server next ∧ next.context.block = link.context.block := by
  have here := meets link rfl
  cases action with
  | append argv =>
    have bound : link.context.obuf.length + (command argv).length < 2147483647 := here
    refine ⟨_, ?_, ⟨paired.append (by omega : (command argv).length < 2147483647), ?_⟩, rfl⟩
    · rw [Pipelining.step, Option.bind_some, Link.act, redisAppendCommandArgv_spec link.context (by omega)]
      rfl
    · dsimp only
      rw [List.length_append]
      omega
  | write result =>
    obtain ⟨joined, shorter⟩ := @Joined.write _ strerror _ _ _ _ paired.toJoined paired.small result here
    obtain ⟨err, written, -⟩ := redisBufferWrite_spec strerror link.context paired.small here
    refine ⟨_, rfl, ⟨joined, shorter.trans_lt paired.small⟩, ?_⟩
    dsimp only
    rw [written]
  | read result =>
    obtain ⟨receivable, room, onward⟩ := here
    have joined := @Joined.read _ strerror _ _ _ _ paired.toJoined each result receivable room onward
    obtain ⟨err, read⟩ := redisBufferRead_spec strerror (paired.fine each) receivable
    refine ⟨_, rfl, ⟨joined, ?_⟩, ?_⟩
    · dsimp only
      rw [read]
      exact paired.small
    · dsimp only
      rw [read]
  | getReply =>
    obtain ⟨reader, answered, -, joined⟩ := paired.getReply each modest
    refine ⟨_, ?_, ⟨joined, paired.small⟩, rfl⟩
    rw [Pipelining.step, Option.bind_some, Link.act, answered]
    rfl

end Paired

theorem paired_start (block : Bool) : Paired doubles calloc server { context := { block := block } } := by
  refine ⟨⟨Nat.succ_pos _, rfl, by simp, ?_, List.nil_prefix⟩, Nat.succ_pos _⟩
  exact .idle (le_refl _) rfl rfl rfl (.refl _)

/-- The invariant holds in every state of a connection. -/
theorem always_paired (modest : Modest calloc)
    (each : ∀ history request, (server history request).Writable doubles calloc 8) (block : Bool)
    {actions : List Action}
    (meets : Along (step strerror doubles calloc) (Meets doubles server)
      (some { context := { block := block } }) actions) :
    Always (step strerror doubles calloc)
      (fun link => ∃ here, link = some here ∧ Paired doubles calloc server here ∧ here.context.block = block)
      (some { context := { block := block } }) actions := by
  refine always_of_along ?_ ⟨_, rfl, paired_start block, rfl⟩ meets
  rintro _ action ⟨here, rfl, paired, same⟩ meets
  obtain ⟨next, stepped, paired', kept⟩ := @Paired.step _ strerror _ _ _ _ paired each modest _ meets
  exact ⟨next, stepped, paired', kept.trans same⟩

variable (strerror) in
/-- Everything is in order in every state of a connection. -/
theorem pipelines_in_order (modest : Modest calloc)
    (each : ∀ history request, (server history request).Writable doubles calloc 8) (block : Bool)
    {actions : List Action}
    (meets : Along (step strerror doubles calloc) (Meets doubles server)
      (some { context := { block := block } }) actions) :
    Always (step strerror doubles calloc) (fun link => ∃ here, link = some here ∧ InOrder doubles calloc server here)
      (some { context := { block := block } }) actions := by
  refine (always_paired modest each block meets).mono ?_
  rintro _ ⟨here, rfl, paired, -⟩
  exact ⟨here, rfl, paired.inOrder each modest⟩

/-- Writes to a socket, one after the other. -/
def writes (sends : List SendResult) : List Action := sends.map .write

/-- Reads from a socket, each with a try for a reply. -/
def reads (recvs : List RecvResult) : List Action := recvs.flatMap fun result => [.read result, .getReply]

theorem along_append {σ ε : Type} {step : σ → ε → σ} {meets : σ → ε → Prop} {source : σ} {first second : List ε} :
    Along step meets source (first ++ second) ↔
      Along step meets source first ∧ Along step meets (run step source first) second := by
  induction first generalizing source with
  | nil => exact ⟨fun later => ⟨trivial, later⟩, fun both => both.2⟩
  | cons event first ih => exact (and_congr_right' ih).trans and_assoc.symm

/-- Where there is nothing to write, writes do nothing. -/
theorem writes_idle (fine : link.context.err = none) (empty : link.context.obuf = []) (sends : List SendResult) :
    run (step strerror doubles calloc) (some link) (writes sends) = some link := by
  induction sends with
  | nil => rfl
  | cons result sends ih =>
    have idle : link.context.redisBufferWrite strerror result = (.ok, true, link.context) := by
      rw [RedisContext.redisBufferWrite, if_neg (by rw [fine]; simp), if_pos empty]
    have nothing : sentBytes link.context result = [] := by
      cases result <;> simp [sentBytes, fine, empty]
    have same : step strerror doubles calloc (some link) (.write result) = some link := by
      rw [step, Option.bind_some, Link.act, idle, nothing, List.append_nil]
    rw [writes, List.map_cons, run_cons, same]
    exact ih

/-- A write that was sent is fine, and done when nothing is left. -/
theorem redisBufferWrite_sent (strerror : Errno → CppString) {c : RedisContext δ} (fine : c.err = none)
    (filled : c.obuf ≠ []) (count : ℕ) :
    ∃ rest, c.redisBufferWrite strerror (.sent count) = (.ok, rest.isEmpty, { c with obuf := rest }) := by
  rw [RedisContext.redisBufferWrite, if_neg (by rw [fine]; simp), if_neg filled, RedisContext.redisNetWrite]
  dsimp only
  rw [if_neg (by omega)]
  by_cases nothing : (count : ℤ) = 0
  · rw [if_pos nothing]
    exact ⟨c.obuf, rfl⟩
  · rw [if_neg nothing]
    exact ⟨_, rfl⟩

/-- A write that failed has an error, unless it was interrupted. -/
theorem redisBufferWrite_failed (strerror : Errno → CppString) {c : RedisContext δ} (blocking : c.block = true)
    (fine : c.err = none) (filled : c.obuf ≠ []) (errno : Errno) :
    ∃ next, c.redisBufferWrite strerror (.failed errno) = (.err, false, next) ∧
      (next.err.isSome = true ∨ errno = .interrupted) := by
  rw [RedisContext.redisBufferWrite, if_neg (by rw [fine]; simp), if_neg filled, RedisContext.redisNetWrite, blocking]
  by_cases again : errno = .interrupted
  · subst again
    exact ⟨c, rfl, .inr rfl⟩
  · rw [if_neg (by simp [again])]
    exact ⟨_, rfl, .inl rfl⟩

/-- A read fails with an error. -/
theorem redisBufferRead_status (strerror : Errno → CppString) {c : RedisContext δ} (fine : c.reader.err = none)
    (result : RecvResult) :
    (c.redisBufferRead strerror result).1 = .err → (c.redisBufferRead strerror result).2.err.isSome = true := by
  rw [RedisContext.redisBufferRead]
  cases broken : c.err with
  | some error => exact fun _ => by rw [if_pos Option.isSome_some, broken]; exact Option.isSome_some
  | none =>
    rw [if_neg (by simp)]
    cases result with
    | bytes buf =>
      rw [RedisContext.redisNetRead]
      dsimp only
      split_ifs
      · rw [redisReaderFeed, if_neg (by rw [fine]; simp)]
        rintro ⟨⟩
      · omega
      · rintro ⟨⟩
    | closed => exact fun _ => rfl
    | failed errno =>
      rw [RedisContext.redisNetRead]
      split_ifs
      · rintro ⟨⟩
      · exact fun _ => rfl
      · exact fun _ => rfl

/-- What a call that waits comes to, with the answer to the next command. -/
def Outcome (answer : Option (RedisReply δ)) (interrupted : Prop)
    (result : Status × Option (RedisReply δ) × RedisContext δ) : Prop :=
  (result.1 = .ok ∧ result.2.1 = answer ∧ answer.isSome = true) ∨
    (result.1 = .err ∧ result.2.1 = none ∧ (result.2.2.err.isSome = true ∨ interrupted))

variable (doubles server link) in
/-- The reply that answers the next command. -/
def nextAnswer : Option (RedisReply δ) :=
  ((answers server (link.asked.map (commandReply doubles))).map (Value.object doubles))[link.returned.length]?

theorem nextAnswer_of_arrived (paired : Paired doubles calloc server link) {obj : RedisReply δ}
    (found : ((arrived (served doubles server link) link.received.length).map
      (Value.object doubles))[link.returned.length]? =
      some obj) : nextAnswer doubles server link = some obj := by
  obtain ⟨later, split⟩ := ((arrived_front (served doubles server link) link.received.length).trans
    (answers_mono server paired.heard)).map (Value.object doubles)
  obtain ⟨bound, -⟩ := List.getElem?_eq_some_iff.mp found
  rw [nextAnswer, ← split, List.getElem?_append_left bound, found]

section

variable (modest : Modest calloc) (each : ∀ history request, (server history request).Writable doubles calloc 8)

include modest each

/-- A try for a reply gives the next answer or nothing. -/
theorem getReply_nextAnswer (paired : Paired doubles calloc server link) :
    ∃ reply reader, link.context.redisGetReplyFromReader doubles calloc =
        some (.ok, reply, { link.context with reader := reader }) ∧
      ∀ obj, reply = some obj → nextAnswer doubles server link = some obj := by
  obtain ⟨reader, answered, -, -⟩ := paired.getReply each modest
  exact ⟨_, reader, answered, fun obj found => nextAnswer_of_arrived paired found⟩

/-- The loop that writes ends with everything sent, or with an error, or interrupted. -/
theorem writeUntilDone_outcome (paired : Paired doubles calloc server link) (blocking : link.context.block = true)
    {sends : List SendResult} (meets : Along (step strerror doubles calloc) (Meets doubles server)
      (some link) (writes sends))
    {status : Status} {c : RedisContext δ} (got : link.context.writeUntilDone strerror sends = some (status, c)) :
    (status = .err ∧ (c.err.isSome = true ∨ .failed .interrupted ∈ sends)) ∨
      (status = .ok ∧ ∃ sent, run (step strerror doubles calloc) (some link) (writes sends) =
          some { link with context := c, sent := sent } ∧
        Paired doubles calloc server { link with context := c, sent := sent } ∧ c.block = true) := by
  induction sends generalizing link with
  | nil =>
    rw [RedisContext.writeUntilDone] at got
    by_cases broken : link.context.err.isSome = true
    · rw [if_pos broken] at got
      cases got
      exact .inl ⟨rfl, .inl broken⟩
    · rw [if_neg broken] at got
      by_cases empty : link.context.obuf = []
      · rw [if_pos empty] at got
        cases got
        exact .inr ⟨rfl, link.sent, rfl, paired, blocking⟩
      · rw [if_neg empty] at got
        cases got
  | cons result sends ih =>
    rw [RedisContext.writeUntilDone] at got
    by_cases broken : link.context.err.isSome = true
    · rw [if_pos broken] at got
      cases got
      exact .inl ⟨rfl, .inl broken⟩
    rw [if_neg broken] at got
    have fine : link.context.err = none := Option.not_isSome_iff_eq_none.mp broken
    by_cases empty : link.context.obuf = []
    · rw [if_pos empty] at got
      cases got
      exact .inr ⟨rfl, link.sent, writes_idle fine empty _, paired, blocking⟩
    rw [if_neg empty] at got
    cases result with
    | failed errno =>
      obtain ⟨next, failed, why⟩ := redisBufferWrite_failed strerror blocking fine empty errno
      rw [failed] at got
      cases got
      refine .inl ⟨rfl, why.imp_right ?_⟩
      rintro rfl
      exact List.mem_cons_self
    | sent count =>
      obtain ⟨rest, written⟩ := redisBufferWrite_sent strerror fine empty count
      obtain ⟨after, stepped, paired', -⟩ := @Paired.step _ strerror _ _ _ _ paired each modest _ meets.1
      have same : after = { link with
          context := { link.context with obuf := rest }
          sent := link.sent ++ sentBytes link.context (.sent count) } := by
        rw [step, Option.bind_some, Link.act, written] at stepped
        exact (Option.some.inj stepped).symm
      have later := meets.2
      rw [stepped, same] at later
      rw [same] at stepped paired'
      have ran : run (step strerror doubles calloc) (some link) (writes (.sent count :: sends)) =
          run (step strerror doubles calloc) (some { link with
            context := { link.context with obuf := rest }
            sent := link.sent ++ sentBytes link.context (.sent count) }) (writes sends) := by
        rw [writes, List.map_cons, run_cons, stepped]
        rfl
      rw [written] at got
      rw [ran]
      cases rest with
      | nil =>
        cases got
        refine .inr ⟨rfl, _, ?_, paired', blocking⟩
        apply writes_idle
        · exact fine
        · rfl
      | cons byte rest =>
        rcases ih paired' blocking later got with ⟨failed, why⟩ | ⟨done, sent, all, onward, still⟩
        · exact .inl ⟨failed, why.imp_right (List.mem_cons_of_mem _)⟩
        · exact .inr ⟨done, sent, all, onward, still⟩

/-- The loop that reads ends with the next answer or with an error. -/
theorem readUntilReply_outcome (paired : Paired doubles calloc server link) 
    {recvs : List RecvResult} (meets : Along (step strerror doubles calloc) (Meets doubles server)
      (some link) (reads recvs))
    {result : Status × Option (RedisReply δ) × RedisContext δ}
    (got : link.context.readUntilReply strerror doubles calloc recvs = some result) :
    Outcome (nextAnswer doubles server link) False result := by
  induction recvs generalizing link with
  | nil =>
    rw [RedisContext.readUntilReply] at got
    by_cases broken : link.context.err.isSome = true
    · rw [if_pos broken] at got
      cases got
      exact .inr ⟨rfl, rfl, .inl broken⟩
    · rw [if_neg broken] at got
      cases got
  | cons recv recvs ih =>
    rw [RedisContext.readUntilReply] at got
    by_cases broken : link.context.err.isSome = true
    · rw [if_pos broken] at got
      cases got
      exact .inr ⟨rfl, rfl, .inl broken⟩
    rw [if_neg broken] at got
    dsimp only at got
    have fails := redisBufferRead_status strerror (paired.fine each) recv
    obtain ⟨after, stepped, paired', -⟩ := @Paired.step _ strerror _ _ _ _ paired each modest _ meets.1
    have later := meets.2
    rw [stepped] at later
    rw [step, Option.bind_some, Link.act] at stepped
    rcases read : link.context.redisBufferRead strerror recv with ⟨_ | _, c⟩
    · rw [read] at got stepped
      obtain rfl := Option.some.inj stepped
      obtain ⟨reply, reader, answered, next⟩ := getReply_nextAnswer modest each paired'
      obtain ⟨last, taken, paired'', -⟩ := @Paired.step _ strerror _ _ _ _ paired' each modest _ later.1
      have rest := later.2
      rw [taken] at rest
      rw [step, Option.bind_some, Link.act, answered] at taken
      dsimp only at answered got
      rw [answered, Option.bind_some] at got
      cases reply with
      | none =>
        obtain rfl := Option.some.inj taken
        have outcome := ih paired'' rest got
        rw [nextAnswer] at outcome ⊢
        dsimp only at outcome
        rwa [Option.toList_none, List.append_nil] at outcome
      | some obj =>
        cases got
        have same := next obj rfl
        rw [nextAnswer] at same ⊢
        exact .inl ⟨rfl, same.symm, by rw [same]; rfl⟩
    · rw [read] at got fails
      cases got
      exact .inr ⟨rfl, rfl, .inl (fails rfl)⟩

/-- A blocking call for a reply returns the next answer, or fails. -/
theorem redisGetReply_outcome (paired : Paired doubles calloc server link) (blocking : link.context.block = true)
    {sends : List SendResult} {recvs : List RecvResult}
    (meets : Along (step strerror doubles calloc) (Meets doubles server) (some link)
      (.getReply :: writes sends ++ reads recvs))
    {result : Status × Option (RedisReply δ) × RedisContext δ}
    (got : link.context.redisGetReply strerror doubles calloc sends recvs = some result) :
    Outcome (nextAnswer doubles server link) (.failed .interrupted ∈ sends) result := by
  obtain ⟨reply, reader, answered, next⟩ := getReply_nextAnswer modest each paired
  obtain ⟨after, taken, paired', -⟩ := @Paired.step _ strerror _ _ _ _ paired each modest _ meets.1
  have later := meets.2
  rw [taken] at later
  rw [step, Option.bind_some, Link.act, answered] at taken
  rw [RedisContext.redisGetReply, answered, Option.bind_some] at got
  dsimp only at got
  rw [if_neg (by rintro ⟨⟩)] at got
  cases reply with
  | some obj =>
    have same := next obj rfl
    rw [if_neg (by simp)] at got
    cases got
    exact .inl ⟨rfl, same.symm, by rw [same]; rfl⟩
  | none =>
    rw [if_pos ⟨rfl, blocking⟩] at got
    have still : after = { link with context := { link.context with reader := reader } } := by
      have same := (Option.some.inj taken).symm
      dsimp only at same
      rwa [Option.toList_none, List.append_nil] at same
    subst still
    obtain ⟨toWrite, toRead⟩ := along_append.mp later
    obtain ⟨⟨status, c⟩, wrote, got⟩ := Option.bind_eq_some_iff.mp got
    rcases writeUntilDone_outcome modest each paired' blocking toWrite wrote with
      ⟨rfl, why⟩ | ⟨rfl, sent, all, onward, -⟩
    · cases got
      exact .inr ⟨rfl, rfl, why⟩
    · rw [all] at toRead
      rcases readUntilReply_outcome modest each onward toRead got with done | ⟨failed, none, why⟩
      · exact .inl done
      · exact .inr ⟨failed, none, why.imp_right False.elim⟩

/-- A blocking command returns its own answer, or no reply. No reply comes with an error in the context, except where
a send was interrupted. -/
theorem redisCommandArgv_outcome (paired : Paired doubles calloc server link) (blocking : link.context.block = true)
    (idle : link.returned.length = link.asked.length) {argv : List CppString} {sends : List SendResult}
    {recvs : List RecvResult}
    (meets : Along (step strerror doubles calloc) (Meets doubles server) (some link)
      (.append argv :: .getReply :: writes sends ++ reads recvs))
    {reply : Option (RedisReply δ)} {c : RedisContext δ}
    (got : link.context.redisCommandArgv strerror doubles calloc argv sends recvs = some (reply, c)) :
    reply = some ((server (link.asked.map (commandReply doubles)) (commandReply doubles argv)).object doubles) ∨
      reply = none ∧ (c.err.isSome = true ∨ .failed .interrupted ∈ sends) := by
  have bound : link.context.obuf.length + (command argv).length < 2147483647 := meets.1 link rfl
  have appended := redisAppendCommandArgv_spec link.context (by omega : (command argv).length < 2147483647)
  obtain ⟨after, taken, paired', -⟩ := @Paired.step _ strerror _ _ _ _ paired each modest _ meets.1
  have later := meets.2
  rw [taken] at later
  rw [step, Option.bind_some, Link.act, appended] at taken
  obtain rfl : { link with
      context := { link.context with obuf := link.context.obuf ++ command argv }
      asked := link.asked ++ [argv] } = after := Option.some.inj taken
  have own : nextAnswer doubles server { link with
      context := { link.context with obuf := link.context.obuf ++ command argv }
      asked := link.asked ++ [argv] } =
      some ((server (link.asked.map (commandReply doubles)) (commandReply doubles argv)).object doubles) := by
    rw [nextAnswer]
    dsimp only
    rw [List.map_append, List.map_singleton, answers_concat, List.map_append,
      List.getElem?_append_right (by simp [idle])]
    simp [idle]
  rw [RedisContext.redisCommandArgv, appended, Option.bind_some] at got
  dsimp only at got
  rw [if_neg (by simp), if_pos blocking] at got
  obtain ⟨⟨status, aux, c'⟩, replied, same⟩ := Option.map_eq_some_iff.mp got
  obtain ⟨rfl, rfl⟩ := Prod.mk.inj same
  rcases redisGetReply_outcome modest each paired' blocking later replied with ⟨done, answer, -⟩ | ⟨failed, -, why⟩
  · dsimp only at done answer
    exact .inl (by rw [if_neg (by rw [done]; simp), answer, own])
  · dsimp only at failed
    exact .inr ⟨by rw [if_pos (by rw [failed]; simp)], why⟩

end

variable (strerror) in
/-- In every connection, a blocking command behind answered ones returns its own answer, or no reply. -/
theorem commands_answered (modest : Modest calloc)
    (each : ∀ history request, (server history request).Writable doubles calloc 8) {actions : List Action}
    {argv : List CppString} {sends : List SendResult} {recvs : List RecvResult}
    (meets : Along (step strerror doubles calloc) (Meets doubles server) (some { context := { block := true } })
      (actions ++ (.append argv :: .getReply :: writes sends ++ reads recvs)))
    {link : Link δ} (reached : run (step strerror doubles calloc)
      (some { context := { block := true } }) actions = some link)
    (idle : link.returned.length = link.asked.length) {reply : Option (RedisReply δ)} {c : RedisContext δ}
    (got : link.context.redisCommandArgv strerror doubles calloc argv sends recvs = some (reply, c)) :
    reply = some ((server (link.asked.map (commandReply doubles)) (commandReply doubles argv)).object doubles) ∨
      reply = none ∧ (c.err.isSome = true ∨ .failed .interrupted ∈ sends) := by
  obtain ⟨before, behind⟩ := along_append.mp meets
  obtain ⟨here, same, paired, blocking⟩ := (always_paired modest each true before).last
  rw [reached] at same behind
  obtain rfl := Option.some.inj same
  exact redisCommandArgv_outcome modest each paired blocking idle behind got

end

/-- A server that answers with the parity of the number of requests before. -/
def counting (history : List (RedisReply CppString)) (_ : RedisReply CppString) : Value := .integer (history.length % 2)

theorem counting_writable (history : List (RedisReply CppString)) (request : RedisReply CppString) :
    (counting history request).Writable textual (· < 1000) 8 := by
  rw [counting, Value.Writable]
  omega

theorem modest_thousand : Modest (· < 1000) := by
  intro size granted
  have small := of_decide_eq_true granted
  omega

/-- Two commands, the second appended while the first is on its way, and the answers in two pieces. -/
def twoCommands : List Action :=
  [.append [text "PING"], .write (.sent 9), .append [[]], .write (.failed .interrupted), .getReply,
    .write (.sent 15), .read (.bytes (text ":0\r\n:1")), .getReply, .getReply, .read (.failed .interrupted),
    .read (.bytes (text "\r\n")), .getReply]

theorem pipelines_in_order_two :
    Always (step (fun _ => []) textual (· < 1000))
      (fun link => ∃ here, link = some here ∧ InOrder textual (· < 1000) counting here)
      (some { context := { block := true } }) twoCommands :=
  pipelines_in_order (fun _ => []) modest_thousand counting_writable true (by decide +kernel)

/-- The connection behind the two commands. -/
def behindTwo : Link CppString :=
  (run (step (fun _ => []) textual (· < 1000)) (some { context := { block := true } }) twoCommands).get
    (by decide +kernel)

theorem run_twoCommands :
    run (step (fun _ => []) textual (· < 1000)) (some { context := { block := true } }) twoCommands = some behindTwo :=
  (Option.some_get _).symm

/-- What a third command comes to, whose answer comes in two pieces. -/
def third : Option (RedisReply CppString) × RedisContext CppString :=
  (behindTwo.context.redisCommandArgv (fun _ => []) textual (· < 1000) [text "GET", []] [.sent 1, .sent 18]
    [.bytes (text ":"), .bytes (text "0\r\n")]).get (by decide +kernel)

theorem commands_answered_third :
    third.1 = some ((counting (behindTwo.asked.map (commandReply textual))
      (commandReply textual [text "GET", []])).object textual) ∨
      third.1 = none ∧ (third.2.err.isSome = true ∨ .failed .interrupted ∈ [SendResult.sent 1, .sent 18]) :=
  commands_answered (fun _ => []) modest_thousand counting_writable (by decide +kernel) run_twoCommands
    (by decide +kernel)
    (Option.some_get _).symm

end CppRedis.Soundness.Pipelining
