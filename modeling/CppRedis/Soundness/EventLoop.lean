import CppRedis.Soundness.Callbacks

/-! # Every callback is called once, in order

An asynchronous connection and a server over two streams of bytes, cut by the sockets as they like. The program gives
commands, also from its callbacks, disconnects and frees, and its event library calls the handlers, in any order. The
callbacks are called in the order of the commands, each once: the first ones with the server's answers to their
commands, the others without a reply, and all of them when the connection is freed. Nothing in it crashes, but a write
that would block does.
-/

namespace CppRedis.Soundness.EventLoop

open Machine Model.Hiredis ReplyStream ReplyRoundTrip Formatting Pipelining AsyncCommands Handlers Callbacks
open Model.RedisCpp (text)

variable {δ Fn Priv υ : Type}

variable {server : List (RedisReply δ) → RedisReply δ → Value} {doubles : Doubles δ} {calloc : ℕ → Bool}
  {ac last : RedisAsyncContext δ Fn Priv υ} {returned : List (RedisReply δ)} {cancelled : ℕ}

/-- A socket that takes nothing now. -/
def Again : SendResult → Prop
  | .failed errno => errno = .wouldBlock ∨ errno = .interrupted
  | .sent _ => False

instance (result : SendResult) : Decidable (Again result) :=
  match result with
  | .failed errno => inferInstanceAs (Decidable (errno = .wouldBlock ∨ errno = .interrupted))
  | .sent _ => .isFalse id

/-- A write fails with an error, where the socket takes something. -/
theorem redisBufferWrite_status (strerror : Errno → CppString) {c : RedisContext δ} {result : SendResult}
    (takes : c.err = none → c.obuf ≠ [] → ¬Again result) (fails : (c.redisBufferWrite strerror result).1 = .err) :
    (c.redisBufferWrite strerror result).2.2.err.isSome = true := by
  cases broken : c.err with
  | some error => exact redisBufferWrite_err (by rw [broken]; rfl)
  | none =>
    rw [RedisContext.redisBufferWrite, if_neg (by simp [broken])] at fails ⊢
    split_ifs at fails ⊢ with empty
    have takes := takes broken empty
    cases result with
    | sent count =>
      rw [RedisContext.redisNetWrite] at fails
      dsimp only at fails
      split_ifs at fails with negative
      omega
    | failed errno =>
      have other : ¬((errno = .wouldBlock ∧ (!c.block) = true) ∨ errno = .interrupted) :=
        fun again => takes (again.imp_left And.left)
      rw [RedisContext.redisNetWrite, if_neg other]
      rfl

section

variable {env : Surroundings δ Fn Priv υ} (calm : ∀ fn reply privdata user, Calm (env.call fn reply privdata user))
  (modest : Modest env.calloc)
  (each : ∀ history request, (server history request).Writable env.doubles env.calloc 8)

include calm modest each

/-- What was read reaches the callbacks. -/
theorem redisAsyncRead_leads {result : RecvResult} (ordered : KeepsOrder env server ac) (alive : ac.freed = false)
    (receivable : Receivable result)
    (room : ac.c.reader.buf.length + (receivedBytes ac.c result).length < 2147483648)
    (onward : ac.history.received ++ receivedBytes ac.c result <+:
      Value.encodeAll (answers server (requests env.doubles ac.history.sent))) :
    Program.Leads (Async.redisAsyncRead env result) ac (fun _ last => KeepsOrder env server last) (fun _ => False) := by
  obtain ⟨returned, cancelled, steady⟩ := ordered
  have fine : ac.c.reader.err = none := steady.joined.fine each
  obtain ⟨err, spec⟩ := redisBufferRead_spec env.strerror fine receivable
  have progress : Progress env.doubles env.calloc server
      (gained ac (ac.c.redisBufferRead env.strerror result).2 (receivedBytes ac.c result)) returned cancelled :=
    { steady.toProgress with
      joined := @Joined.read _ env.strerror _ _ _ _ steady.joined each result receivable room onward
      block := (congrArg RedisContext.block spec).trans steady.block }
  refine (handlerInvariant_steady calm).redisAsyncRead fine (fun broken => ⟨⟨returned, cancelled, ?_⟩, alive⟩)
    fun working before => ?_
  · exact { progress with
      whole := fun _ => .inl broken
      ended := steady.ended
      prompt := fun none => absurd none (Option.isSome_iff_ne_none.mp broken)
      channels := steady.channels
      patterns := steady.patterns }
  · obtain rfl := steady.whole_of_fine alive before
    generalize (ac.c.redisBufferRead env.strerror result).2 = c at progress working ⊢
    have delivering : Delivering env.doubles env.calloc server
        { gained ac c (receivedBytes ac.c result) with reading := true } returned :=
      { progress with
        fine := working
        alive := alive
        channels := steady.channels alive
        patterns := steady.patterns alive }
    rw [Async.redisProcessCallbacks, Program.leads_get_bind]
    refine processReplies_leads calm modest each delivering (Nat.lt_succ_of_le ?_)
    rw [RedisReader.unread, List.length_drop]
    exact Nat.sub_le _ _

omit calm modest each in
/-- A command that is taken waits behind the others. -/
theorem redisAsyncCommandArgv_leads {argv : List CppString} (plain : Plain argv) (fn : Option Fn) (privdata : Priv)
    (ordered : KeepsOrder env server ac) (alive : ac.freed = false) :
    Program.Leads (Async.redisAsyncCommandArgv fn privdata argv) ac (fun _ last => KeepsOrder env server last)
      (fun _ => False) := by
  obtain ⟨returned, cancelled, steady⟩ := ordered
  rw [Program.Leads, redisAsyncCommandArgv_plain steady.regular plain]
  split_ifs with refused
  · exact ⟨returned, cancelled, steady⟩
  · have opened : ¬Closing ac := fun closing => refused (or_assoc.mp (.inl closing))
    exact ⟨returned, cancelled,
      { steady.toProgress.extends (Extends.one opened plain.1 fn privdata) with
        whole := steady.whole
        ended := fun freed => absurd (alive.symm.trans freed) Bool.false_ne_true
        prompt := steady.prompt
        channels := steady.channels
        patterns := steady.patterns }⟩

end

/-- What the program does with a connection outside of its callbacks, and what its event library does. -/
inductive Event (Fn Priv : Type) where
  | command (fn : Option Fn) (privdata : Priv) (argv : List CppString)
  | disconnect
  | free
  | read (connect : ConnectResult) (result : RecvResult)
  | write (connect : ConnectResult) (result : SendResult)
  | timeout

variable (env : Surroundings δ Fn Priv υ) (server : List (RedisReply δ) → RedisReply δ → Value)

def handle : Event Fn Priv → Async δ Fn Priv υ Unit
  | .command fn privdata argv => do
      let _ ← Async.redisAsyncCommandArgv fn privdata argv
      pure ()
  | .disconnect => Async.redisAsyncDisconnect env
  | .free => Async.redisAsyncFree env
  | .read connect result => Async.redisAsyncHandleRead env connect result
  | .write connect result => Async.redisAsyncHandleWrite env connect result
  | .timeout => Async.redisAsyncHandleTimeout env

/-- A connection that was just opened. -/
def fresh (user : υ) (onConnect onDisconnect noAutoFree : Bool) : RedisAsyncContext δ Fn Priv υ :=
  { onConnect := onConnect, onDisconnect := onDisconnect, noAutoFree := noAutoFree, user := user }

def step (state : Except Fault (RedisAsyncContext δ Fn Priv υ)) (event : Event Fn Priv) :
    Except Fault (RedisAsyncContext δ Fn Priv υ) :=
  match state with
  | .error fault => .error fault
  | .ok ac =>
      match handle env event ac with
      | .error fault => .error fault
      | .ok (_, last) => .ok last

/-- What the sockets do, and sizes that an `int` holds. A connection that was freed is not touched again, commands
neither subscribe nor monitor, what `recv` brings goes on with the server's answers, and `send` is called when it takes
something. -/
def Allows (ac : RedisAsyncContext δ Fn Priv υ) : Event Fn Priv → Prop
  | .command _ _ argv => Plain argv
  | .read _ result =>
      Receivable result ∧ ac.c.reader.buf.length + (receivedBytes ac.c result).length < 2147483648 ∧
        ac.history.received ++ receivedBytes ac.c result <+:
          Value.encodeAll (answers server (requests env.doubles ac.history.sent))
  | .write _ result =>
      ac.c.obuf.length < 2147483648 ∧ Sendable ac.c result ∧ (ac.c.err = none → ac.c.obuf ≠ [] → ¬Again result)
  | .disconnect | .free | .timeout => True

def Meets (state : Except Fault (RedisAsyncContext δ Fn Priv υ)) (event : Event Fn Priv) : Prop :=
  ∀ ac, state = .ok ac → ac.freed = false ∧ Allows env server ac event

instance (ac : RedisAsyncContext δ Fn Priv υ) (event : Event Fn Priv) : Decidable (Allows env server ac event) := by
  cases event <;> unfold Allows <;> infer_instance

instance (state : Except Fault (RedisAsyncContext δ Fn Priv υ)) (event : Event Fn Priv) :
    Decidable (Meets env server state event) :=
  match state with
  | .error _ => isTrue (by rintro ac ⟨⟩)
  | .ok ac => decidable_of_iff (ac.freed = false ∧ Allows env server ac event)
      ⟨fun meets _ same => Except.ok.inj same ▸ meets, fun meets => meets ac rfl⟩

/-- The callbacks of the first commands were called with the server's answers, as soon as these were read, the next ones
without a reply because the connection failed or ended, and the others wait. -/
structure Answered (ac : RedisAsyncContext δ Fn Priv υ) (answered cancelled : ℕ) : Prop where
  count : answered + cancelled ≤ ac.history.accepted.length
  calls : replyCalls ac = callsOf ac.history.accepted (outcomesOf
    (((answers server (ac.history.accepted.map fun given => commandReply env.doubles given.2.2)).map
      (Value.object env.doubles)).take answered) cancelled)
  waiting : ac.replies = (ac.history.accepted.drop (answered + cancelled)).map callbackOf
  heard : requests env.doubles ac.history.sent <+: ac.history.accepted.map fun given =>
    commandReply env.doubles given.2.2
  prompt : ac.c.err = none → ac.freed = false → complete env.doubles env.calloc ac = answered
  whole : 0 < cancelled → ac.c.err.isSome = true ∨ ac.freed = true
  ended : ac.freed = true → answered + cancelled = ac.history.accepted.length

section

variable {env server} (calm : ∀ fn reply privdata user, Calm (env.call fn reply privdata user))
    (modest : Modest env.calloc)
  (each : ∀ history request, (server history request).Writable env.doubles env.calloc 8)

theorem steady_fresh (user : υ) (onConnect onDisconnect noAutoFree : Bool) :
    Steady env.doubles env.calloc server
      (fresh user onConnect onDisconnect noAutoFree : RedisAsyncContext δ Fn Priv υ) [] 0 := by
  have joined : Joined env.doubles env.calloc server
      (link (fresh user onConnect onDisconnect noAutoFree : RedisAsyncContext δ Fn Priv υ) []) :=
    (paired_start false).toJoined
  exact ⟨⟨joined, le_refl _, rfl, rfl, rfl, rfl, rfl, rfl, rfl⟩, fun some => absurd some (lt_irrefl 0), nofun,
    fun _ _ => rfl, fun _ => rfl, fun _ => rfl⟩

include each in
theorem answered_of_steady (steady : Steady env.doubles env.calloc server ac returned cancelled) :
    Answered env server ac returned.length cancelled := by
  have front : returned <+: (answers server ((ac.history.accepted.map fun given => given.2.2).map
      (commandReply env.doubles))).map (Value.object env.doubles) := steady.joined.returned_front each
  have heard : requests env.doubles ac.history.sent <+:
      (ac.history.accepted.map fun given => given.2.2).map (commandReply env.doubles) := steady.joined.heard
  rw [List.map_map] at front heard
  refine ⟨steady.count, ?_, steady.replies, heard, steady.prompt, steady.whole, fun freed => ?_⟩
  · have taken := List.prefix_iff_eq_take.mp front
    rw [steady.calls]
    exact congrArg (fun outcomes => callsOf ac.history.accepted (outcomesOf outcomes cancelled)) taken
  · have none := congrArg List.length steady.replies
    have count := steady.count
    rw [steady.ended freed, List.length_map, List.length_drop, List.length_nil] at none
    omega

include calm modest each

/-- An event that returns keeps the invariant. -/
theorem step_keepsOrder {event : Event Fn Priv} (ordered : KeepsOrder env server ac)
    (meets : Meets env server (.ok ac) event) :
    (∃ last, step env (.ok ac) event = .ok last ∧ KeepsOrder env server last) ∨
      step env (.ok ac) event = .error .running ∧ event = .timeout := by
  obtain ⟨alive, allows⟩ := meets ac rfl
  have inv : HandlerInvariant env _ (KeepsOrder env server) _ := handlerInvariant_steady calm
  have leads : Program.Leads (handle env event) ac (fun _ last => KeepsOrder env server last)
      (fun fault => fault = .running ∧ event = .timeout) := by
    cases event with
    | command fn privdata argv =>
      refine Program.Leads.bind (fun _ last => KeepsOrder env server last) ?_ fun _ _ => id
      exact (redisAsyncCommandArgv_leads allows fn privdata ordered alive).mono (fun _ _ => id) fun _ => False.elim
    | disconnect => exact (inv.redisAsyncDisconnect ⟨ordered, alive⟩).mono (fun _ _ => id) fun _ => False.elim
    | free => exact (inv.redisAsyncFree ⟨ordered, alive⟩).mono (fun _ _ => id) fun _ => False.elim
    | read connect result =>
      obtain ⟨receivable, room, onward⟩ := allows
      refine (inv.handles connect ⟨ordered, alive⟩ ?_).mono (fun _ _ => id) fun _ => False.elim
      rintro middle ⟨ordered', alive'⟩ same sent received
      exact redisAsyncRead_leads calm modest each ordered' alive' receivable (by rwa [same])
        (by rwa [same, sent, received])
    | write connect result =>
      obtain ⟨small, sendable, takes⟩ := allows
      refine (inv.handles connect ⟨ordered, alive⟩ ?_).mono (fun _ _ => id) fun _ => False.elim
      rintro middle here same - -
      exact inv.redisAsyncWrite here (by rwa [same]) (by rwa [same])
        (redisBufferWrite_status env.strerror (by rwa [same]))
    | timeout =>
      exact (inv.redisAsyncHandleTimeout ⟨ordered, alive⟩).mono (fun _ _ => id) fun _ running => ⟨running, rfl⟩
  rw [Program.Leads] at leads
  rw [step]
  generalize handle env event ac = outcome at leads
  rcases outcome with fault | ⟨_, last⟩
  · obtain ⟨rfl, last⟩ := leads
    exact .inr ⟨rfl, last⟩
  · exact .inl ⟨last, rfl, leads⟩

/-- The invariant holds in every state of a connection. -/
theorem always_keepsOrder (user : υ) (onConnect onDisconnect noAutoFree : Bool) {events : List (Event Fn Priv)}
    (meets : Along (step env) (Meets env server) (.ok (fresh user onConnect onDisconnect noAutoFree)) events) :
    Always (step env)
      (fun state => (∃ ac, state = .ok ac ∧ KeepsOrder env server ac) ∨ state = .error .running ∧ .timeout ∈ events)
      (.ok (fresh user onConnect onDisconnect noAutoFree)) events := by
  have along := (along_and (step env) (Meets env server) (fun _ event => event ∈ events) _ events).mpr
    ⟨meets, (along_iff_forall_mem (step env) (· ∈ events) _ events).mpr fun _ => id⟩
  refine always_of_along ?_ (.inl ⟨_, rfl, [], 0, steady_fresh user onConnect onDisconnect noAutoFree⟩) along
  rintro state event (⟨ac, rfl, ordered⟩ | ⟨rfl, member⟩) ⟨meets, inside⟩
  · rcases step_keepsOrder calm modest each ordered meets with ⟨last, stepped, ordered⟩ | ⟨stepped, rfl⟩
    · exact .inl ⟨last, stepped, ordered⟩
    · exact .inr ⟨stepped, inside⟩
  · exact .inr ⟨rfl, member⟩

/-- In every order of events the callbacks are called in the order of the commands, each once, and nothing crashes. Only
callbacks that give commands without end keep a timeout from its end. -/
theorem callbacks_in_order (user : υ) (onConnect onDisconnect noAutoFree : Bool) {events : List (Event Fn Priv)}
    (meets : Along (step env) (Meets env server) (.ok (fresh user onConnect onDisconnect noAutoFree)) events) :
    Always (step env)
      (fun state => (∃ ac answered cancelled, state = .ok ac ∧ Answered env server ac answered cancelled) ∨
        state = .error .running ∧ .timeout ∈ events)
      (.ok (fresh user onConnect onDisconnect noAutoFree)) events := by
  refine (always_keepsOrder calm modest each user onConnect onDisconnect noAutoFree meets).mono ?_
  rintro state (⟨ac, rfl, returned, cancelled, steady⟩ | running)
  · exact .inl ⟨ac, returned.length, cancelled, rfl, answered_of_steady each steady⟩
  · exact .inr running

end

/-- A program with two functions, which give another command and disconnect. -/
def chained : Surroundings CppString Bool ℕ ℕ where
  strerror _ := []
  doubles := textual
  calloc := (· < 1000)
  null := 0
  patience := 0
  call fn _ privdata user :=
    if fn then .command (some false) privdata [text "PING"] fun _ => .done (user + 1)
    else .disconnect (.done (user + 1))
  connectCallback _ user := user
  disconnectCallback _ user := user

theorem chained_calm (fn : Bool) (reply : Option (RedisReply CppString)) (privdata user : ℕ) :
    Calm (chained.call fn reply privdata user) := by
  cases fn with
  | true => exact ⟨by decide +kernel, fun _ => trivial⟩
  | false => trivial

/-- A command whose callback gives another one, one more behind it, and a server that closes before the last answer. -/
def chain : List (Event Bool ℕ) :=
  [.command (some true) 5 [text "PING"], .write .inProgress (.sent 0), .write .done (.sent 14),
    .read .done (.bytes (text ":0\r")), .read .done (.bytes (text "\n")), .command (some false) 7 [text "GET", []],
    .write .done (.sent 20), .read .done (.bytes (text ":1\r\n")), .read .done .closed]

theorem callbacks_in_order_chain :
    Always (step chained)
      (fun state => (∃ ac answered cancelled, state = .ok ac ∧ Answered chained counting ac answered cancelled) ∨
        state = .error .running ∧ .timeout ∈ chain)
      (.ok (fresh 0 true true false)) chain :=
  callbacks_in_order chained_calm modest_thousand counting_writable 0 true true false (by decide +kernel)

section

variable {env server}

/-- A connection with unsent bytes waits for a reply. -/
theorem unsent_waits (steady : Steady env.doubles env.calloc server ac returned 0)
    (each : ∀ history request, (server history request).Writable env.doubles env.calloc 8) (unsent : ac.c.obuf ≠ []) :
    ac.replies ≠ [] := by
  intro empty
  have waiting := congrArg List.length steady.replies
  have within : returned.length ≤ (replies env.doubles env.calloc ac.history.received).1.length :=
    steady.joined.tracks.within.length_le
  have all : replies env.doubles env.calloc ac.history.received = _ := steady.joined.sound each
  have served : (arrived (served env.doubles server (link ac returned)) (link ac returned).received.length).length ≤
      (requests env.doubles (link ac returned).sent).length :=
        (arrived_front _ _).length_le.trans_eq (length_answers server _)
  have heard : requests env.doubles (link ac returned).sent = _ := requests_eq steady.joined.asked steady.joined.front
  have sent : ac.history.sent ++ ac.c.obuf = ((link ac returned).asked.map command).flatten := steady.joined.sent
  rw [empty, List.length_map, List.length_drop, List.length_nil] at waiting
  rw [all, List.length_map] at within
  rw [heard, List.length_map] at served
  have whole := @arrived_whole ((link ac returned).asked.map Value.command) (link ac returned).sent.length (by
    rw [List.length_map, link, List.length_map]
    dsimp only [link] at served within ⊢
    omega)
  have length := congrArg List.length sent
  rw [encodeAll_commands] at whole
  rw [List.length_append] at length
  exact unsent (List.eq_nil_of_length_eq_zero (by dsimp only [link] at whole length; omega))

/-- A socket that takes nothing fails the write without an error. -/
theorem redisBufferWrite_again (strerror : Errno → CppString) {c : RedisContext δ} (block : c.block = false)
    (fine : c.err = none) (unsent : c.obuf ≠ []) {result : SendResult} (again : Again result) :
    c.redisBufferWrite strerror result = (.err, false, c) := by
  cases result with
  | sent count => exact again.elim
  | failed errno =>
    have later : (errno = .wouldBlock ∧ (!c.block) = true) ∨ errno = .interrupted :=
      again.imp_left fun blocks => ⟨blocks, by rw [block]; rfl⟩
    rw [RedisContext.redisBufferWrite, if_neg (by rw [fine]; exact Bool.false_ne_true), if_neg unsent,
      RedisContext.redisNetWrite,
      if_pos later]
    rfl

/-- Ending a connection without an error makes an assertion fail where a reply is awaited. -/
theorem redisAsyncDropConnection_crashes (fine : ac.c.err = none) (waits : ac.replies ≠ []) :
    Async.redisAsyncDropConnection env ac = .error .crash := by
  have copied : ac.copyError.err.isNone = true := Option.isNone_iff_eq_none.mpr fine
  have shifted : ac.copyError.shiftReply.isSome = true := by
    obtain ⟨cb, rest, next⟩ := List.exists_cons_of_ne_nil waits
    rw [RedisAsyncContext.shiftReply, RedisAsyncContext.copyError, next]
    rfl
  rw [Async.redisAsyncDropConnection, Program.bind_apply, Program.modify_apply]
  dsimp only
  rw [Program.bind_apply, Program.get_apply]
  dsimp only
  rw [if_pos copied, if_pos shifted]
  rfl

theorem redisAsyncWrite_again (ordered : KeepsOrder env server ac) (alive : ac.freed = false)
    (each : ∀ history request, (server history request).Writable env.doubles env.calloc 8) (fine : ac.c.err = none)
    (unsent : ac.c.obuf ≠ []) {result : SendResult} (again : Again result) :
    Async.redisAsyncWrite env result ac = .error .crash := by
  obtain ⟨returned, cancelled, steady⟩ := ordered
  obtain rfl := steady.whole_of_fine alive fine
  have waits := unsent_waits steady each unsent
  have wrote := redisBufferWrite_again env.strerror steady.block fine unsent again
  rw [Async.redisAsyncWrite, Program.bind_apply, Program.get_apply]
  dsimp only
  rw [wrote]
  dsimp only
  rw [Program.bind_apply, Program.set_apply]
  dsimp only
  rw [if_pos rfl]
  exact redisAsyncDropConnection_crashes fine waits

/-- A write for which the socket has no room makes an assertion fail. -/
theorem writes_crash (calm : ∀ fn reply privdata user, Calm (env.call fn reply privdata user))
    (modest : Modest env.calloc)
    (each : ∀ history request, (server history request).Writable env.doubles env.calloc 8)
    (user : υ) (onConnect onDisconnect noAutoFree : Bool) {events : List (Event Fn Priv)}
    (meets : Along (step env) (Meets env server) (.ok (fresh user onConnect onDisconnect noAutoFree)) events)
    (reached : run (step env) (.ok (fresh user onConnect onDisconnect noAutoFree)) events = .ok ac)
    (alive : ac.freed = false)
    (fine : ac.c.err = none) (unsent : ac.c.obuf ≠ []) {connect : ConnectResult}
    (connected : ac.connected = true ∨ connect = .done) {result : SendResult} (again : Again result) :
    step env (.ok ac) (.write connect result) = .error .crash := by
  have last := (always_keepsOrder calm modest each user onConnect onDisconnect noAutoFree meets).last
  rw [reached] at last
  have ordered : KeepsOrder env server ac := by
    rcases last with ⟨_, same, ordered⟩ | ⟨impossible, -⟩
    · cases same
      exact ordered
    · cases impossible
  have crash : Async.redisAsyncHandleWrite env connect result ac = .error .crash := by
    by_cases before : ac.connected = true
    · have goes : Async.whenConnected env connect ac = .ok (true, ac) := by
        rw [Async.whenConnected, Program.bind_apply, Program.get_apply]
        dsimp only
        rw [if_pos before]
        rfl
      rw [Async.redisAsyncHandleWrite, Program.bind_of_ok goes, if_pos rfl]
      exact redisAsyncWrite_again ordered alive each fine unsent again
    · obtain rfl := connected.resolve_left before
      have inv : HandlerInvariant env _ (KeepsOrder env server) _ := handlerInvariant_steady calm
      obtain ⟨middle, ran, here, same, -, -⟩ := inv.runConnectCallback ⟨ordered, alive⟩ .ok
      have goes : Async.whenConnected env .done ac = .ok (true, { middle with connected := true }) := by
        rw [Async.whenConnected, Program.bind_apply, Program.get_apply]
        dsimp only
        rw [if_neg before, Async.redisAsyncHandleConnect, Program.bind_apply, Program.bind_of_ok ran]
        rfl
      have connected' : KeepsOrder env server { middle with connected := true } ∧
        middle.freed = false := inv.keep here rfl
      rw [Async.redisAsyncHandleWrite, Program.bind_of_ok goes, if_pos rfl]
      exact redisAsyncWrite_again connected'.1 here.2 each (by dsimp only; rw [same]; exact fine)
        (by dsimp only; rw [same]; exact unsent) again
  rw [step, handle, crash]

end

/-- A connection with a command before its first write. -/
def unsentOne : RedisAsyncContext CppString Bool ℕ ℕ :=
  accept (put ((fresh 0 true true false).pushReply ⟨some true, 1, 5⟩) [text "PING"]) (some true) 5 [text "PING"]

theorem run_one : run (step chained) (.ok (fresh 0 true true false)) [.command (some true) 5 [text "PING"]] =
    .ok unsentOne := by
  have taken : Async.redisAsyncCommandArgv (some true) 5 [text "PING"] (fresh 0 true true false) =
      .ok (Status.ok, unsentOne) :=
    redisAsyncCommandArgv_plain rfl (by decide +kernel) (some true) 5
  rw [run_cons, run_nil, step, handle, Program.bind_of_ok taken]
  rfl

theorem writes_crash_one : step chained (.ok unsentOne) (.write .done (.failed .wouldBlock)) = .error .crash :=
  writes_crash chained_calm modest_thousand counting_writable 0 true true false (by decide +kernel) run_one rfl rfl
    (by decide +kernel) (.inr rfl) (.inl rfl)

end CppRedis.Soundness.EventLoop
