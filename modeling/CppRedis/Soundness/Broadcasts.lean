import CppRedis.Soundness.EventLoop
import CppRedis.Soundness.Farewells

/-! # Messages reach the callbacks of their topics

A connection that only subscribes and ends subscriptions, also from its callbacks, and a server that confirms these
commands in their order and sends messages in between, over a stream that is cut as the sockets like. Every reply is
handed to the callback that the last command for its topic had given when the reply was handed over, each once and in
their order, and at the end every callback that is left is called once without a reply. Nothing crashes, as long as the
server confirms the end of a subscription only where there is one.
-/

namespace CppRedis.Soundness.Broadcasts

open Machine Model.Hiredis ReplyStream ReplyRoundTrip Pipelining Dictionaries AsyncCommands Handlers Callbacks EventLoop
  Subscriptions Attendance Farewells
open Model.RedisCpp (text)

variable {δ Fn Priv υ : Type} {doubles : Doubles δ} {calloc : ℕ → Bool} {ac last : RedisAsyncContext δ Fn Priv υ}
  {names : Finset CppString} {emitted : List (Push Fn Priv)} {taken : ℕ}

/-- The invariant between the handlers: before an error no reply waits for its callback. -/
def Prompt (doubles : Doubles δ) (calloc : ℕ → Bool) (names : Finset CppString) (emitted : List (Push Fn Priv))
    (ac : RedisAsyncContext δ Fn Priv υ) : Prop :=
  ∃ taken, Live doubles calloc names ac emitted taken ∧ (ac.c.err = none → complete doubles calloc ac = taken)

/-- What an event leaves: a connection that goes on, or one that said farewell. -/
def PromptOrParted (doubles : Doubles δ) (calloc : ℕ → Bool) (names : Finset CppString) (emitted : List (Push Fn Priv))
    (ac : RedisAsyncContext δ Fn Priv υ) : Prop :=
  Prompt doubles calloc names emitted ac ∨
    ∃ taken, Heard doubles calloc ac emitted taken ∧ ac.freed = true ∧
      Parted ac (confirmed ((emitted.take taken).map Push.notice))

section

variable {env : Surroundings δ Fn Priv υ}
    (attentive : ∀ fn reply privdata user, Attentive names (env.call fn reply privdata user))

theorem leaves_of_essence (same : essence last = essence ac) : Leaves ac last where
  reader := congrArg (fun ac => ac.c.reader) same
  err := congrArg (fun ac => ac.c.err) same
  block := congrArg (fun ac => ac.c.block) same
  replies := congrArg (fun ac => ac.replies) same
  invalid := congrArg (fun ac => ac.invalid) same
  monitoring := congrArg (fun ac => ac.monitoring) same
  freed := congrArg (fun ac => ac.freed) same
  received := congrArg (fun ac => ac.history.received) same
  invoked := congrArg (fun ac => ac.history.invoked) same
  moments := congrArg (fun ac => ac.history.moments) same
  accepted := by
    have accepted : last.history.accepted = ac.history.accepted := congrArg (fun ac => ac.history.accepted) same
    rw [accepted]

include attentive

/-- A connection that is freed while commands are refused parts with its topics. -/
theorem redisAsyncFreeContext_promptOrParted (live : Live doubles calloc names ac emitted taken)
    (closing : Closing ac) :
    Program.Leads (Async.redisAsyncFreeContext env) ac (fun _ last => PromptOrParted doubles calloc names emitted last)
      (fun _ => False) := by
  obtain ⟨last, ran, ended⟩ := redisAsyncFreeContext_parts attentive live closing
  rw [Program.Leads, ran]
  exact .inr ⟨taken, ended⟩

/-- The handlers keep the invariant, and no loop over callbacks goes on without end. -/
theorem handlerInvariant_prompt :
    HandlerInvariant env (Prompt env.doubles env.calloc names emitted)
      (PromptOrParted env.doubles env.calloc names emitted) (fun _ => False) where
  stays := .inl
  keep := by
    rintro ac last ⟨taken, live, prompt⟩ same
    have leaves := leaves_of_essence same
    have asked : requestsOn last = requestsOn ac :=
      congrArg (fun ac : RedisAsyncContext δ Fn Priv Unit => ac.history.accepted.flatMap requestsOf) same
    refine ⟨taken, live.leaves leaves ?_, fun fine => ?_⟩
    · rw [asked]
      exact live.rostered.keep (congrArg (fun ac => ac.channels) same) (congrArg (fun ac => ac.patterns) same)
        (congrArg (fun ac => ac.subscribed) same).trans
    · rw [complete, leaves.received]
      exact prompt (leaves.err.symm.trans fine)
  connect := by
    rintro ac ⟨taken, live, prompt⟩ status user
    have here : Heard env.doubles env.calloc { ac with user := user } emitted taken := { live.toHeard with }
    have told : Heard env.doubles env.calloc ({ ac with user := user }.invoke (.connect status)) emitted taken :=
      here.invoke rfl
    exact ⟨taken, { told with
      rostered := live.rostered.keep rfl rfl id
      silent := (farewells_invoke _).trans ((List.append_nil _).trans live.silent)
      alive := live.alive }, prompt⟩
  fail := by
    rintro ac ⟨taken, live, -⟩ type str
    refine ⟨taken, { live with rostered := live.rostered.keep rfl rfl id }, ?_⟩
    rintro ⟨⟩
  spend := by
    rintro ac ⟨taken, live, prompt⟩ result small sendable
    obtain ⟨err, spec, -⟩ := redisBufferWrite_spec env.strerror ac.c small sendable
    have kept := @redisBufferWrite_err _ env.strerror ac.c result
    have reader := congrArg RedisContext.reader spec
    have block := (congrArg RedisContext.block spec).trans live.block
    generalize (ac.c.redisBufferWrite env.strerror result).2.2 = c at kept reader block
    have hearing : Hearing env.doubles env.calloc c.reader ac.history.received emitted taken := by
      rw [reader]
      exact live.hearing
    exact ⟨taken, { live with
      hearing := hearing
      block := block
      rostered := live.rostered.keep rfl rfl id },
      fun fine => prompt
        (Option.not_isSome_iff_eq_none.mp fun broken => Option.isSome_iff_ne_none.mp (kept broken) fine)⟩
  free := by
    rintro ac ⟨taken, live, -⟩ closing
    exact redisAsyncFreeContext_promptOrParted attentive live closing
  drain := by
    rintro ac ⟨taken, live, prompt⟩ broken
    rw [Program.Leads, drainReplies_empty live.replies]
    exact ⟨⟨taken, live, prompt⟩, broken⟩

variable (few : names.card < 1073741824) (modest : Modest env.calloc)

omit attentive in
/-- A call for a reply gives what the server sent next, or nothing where all that is whole was taken. -/
theorem getReply_hearing (modest : Modest env.calloc) (live : Live env.doubles env.calloc names ac emitted taken) :
    (∃ reader, Async.getReply env ac = .ok ((.ok, none), turned ac reader) ∧
      Hearing env.doubles env.calloc reader ac.history.received emitted taken ∧
        complete env.doubles env.calloc ac = taken) ∨
    ∃ reader push, Async.getReply env ac = .ok ((.ok, some (push.value.object env.doubles)), turned ac reader) ∧
      Hearing env.doubles env.calloc reader ac.history.received emitted (taken + 1) ∧ emitted[taken]? = some push ∧
      reader.unread.length < ac.c.reader.unread.length := by
  have taking : ∀ {reply : Option (RedisReply δ)} {reader : RedisReader δ},
      redisReaderGetReply env.doubles env.calloc ac.c.reader = some (.ok, reply, reader) →
      Async.getReply env ac = .ok ((.ok, reply), turned ac reader) := by
    intro reply reader answered
    have read : ac.c.redisGetReplyFromReader env.doubles env.calloc =
        some (.ok, reply, { ac.c with reader := reader }) := by
      rw [RedisContext.redisGetReplyFromReader, answered]
      rfl
    rw [Async.getReply, Program.bind_apply, Program.get_apply]
    dsimp only
    rw [redisGetReply_unblocked live.block read]
    rfl
  rcases live.hearing.getReply modest with ⟨reader, answered, rest⟩ | ⟨reader, push, answered, rest⟩
  · exact .inl ⟨reader, taking answered, rest⟩
  · exact .inr ⟨reader, push, taking answered, rest⟩

omit attentive in
/-- A turn of the loop for a reply without a callback that waits. -/
theorem processReplies_push {turns : ℕ} {before : RedisCallback Fn Priv} {middle : RedisAsyncContext δ Fn Priv υ}
    {push : Push Fn Priv} (ran : Async.getReply env ac = .ok ((.ok, some (push.value.object env.doubles)), middle))
    (idle : middle.replies = []) (listens : middle.subscribed = true) :
    Async.processReplies env (turns + 1) before ac = (do
      let cb ← Async.redisGetSubscribeCallback (push.value.object env.doubles) before
      Async.handOver env (push.value.object env.doubles) (Async.processReplies env turns) cb) middle := by
  obtain ⟨integer, dval, str, element, shape⟩ :
      ∃ integer dval str element, push.value.object env.doubles = .mk .array integer dval str element := by
    cases push with
    | confirm request count => cases request <;> exact ⟨_, _, _, _, rfl⟩
    | message topic rest => exact ⟨_, _, _, _, rfl⟩
  have none : middle.shiftReply = none := by rw [RedisAsyncContext.shiftReply, idle]
  rw [shape] at ran ⊢
  rw [Async.processReplies, Program.bind_of_ok ran]
  dsimp only
  rw [Program.bind_apply, Program.get_apply]
  dsimp only
  rw [none]
  dsimp only
  rw [if_pos listens]

omit attentive in
/-- The next reply was handed over, and its callback left the connection as its commands do. -/
theorem deliver (live : Live doubles calloc names ac emitted taken) {push : Push Fn Priv}
    (here : emitted[taken]? = some push)
    {reader : RedisReader δ} (hearing : Hearing doubles calloc reader ac.history.received emitted (taken + 1))
    {cb : RedisCallback Fn Priv} (known : subscriber (requestsOn ac) push.topic = some (cb.fn, cb.privdata))
    (leaves : Leaves (called (turned ac reader) cb (some (push.value.object doubles))) last)
    (rostered : Rostered names last (requestsOn last)
      (confirmed ((emitted.take taken).map Push.notice) ++ confirmed [push.notice])) :
    Live doubles calloc names last emitted (taken + 1) := by
  have more := take_next here
  have done : confirmed ((emitted.take (taken + 1)).map Push.notice) =
      confirmed ((emitted.take taken).map Push.notice) ++ confirmed [push.notice] := by
    rw [more, List.map_append, confirmed_append]
    rfl
  have announced : Announced (requestsOn ac) (confirmed ((emitted.take (taken + 1)).map Push.notice))
      ((emitted.drop (taken + 1)).map Push.notice) := by
    rw [done]
    exact (live.next here).2
  have asked : requestsOn ac = (ac.history.accepted.take ac.history.accepted.length).flatMap requestsOf := by
    rw [List.take_length]
    rfl
  rw [asked] at known
  have heard : Heard doubles calloc (called (turned ac reader) cb (some (push.value.object doubles)))
    emitted (taken + 1) ∧
      farewells (called (turned ac reader) cb (some (push.value.object doubles))) = [] := by
    rw [called]
    cases found : cb.fn with
    | none =>
      rw [found] at known
      refine ⟨{ live.toHeard with hearing := hearing, delivered := ?_, announced := announced }, live.silent⟩
      rw [more]
      exact .ignored push live.delivered (le_refl _) known
    | some fn =>
      rw [found] at known
      refine ⟨{ live.toHeard with hearing := hearing, timed := ?_, delivered := ?_, announced := announced }, ?_⟩
      · dsimp only [RedisAsyncContext.invoke, turned]
        rw [List.length_append, List.length_append, live.timed]
        rfl
      · have calls :
            deliveries ((turned ac reader).invoke (.reply fn (some (push.value.object doubles)) cb.privdata)) = _ :=
          deliveries_invoke live.timed _
        rw [more, calls]
        exact .called push live.delivered (le_refl _) known
      · exact (farewells_invoke _).trans ((List.append_nil _).trans live.silent)
  refine ⟨heard.1.leaves leaves, ?_, ?_, ?_⟩
  · rw [done]
    exact rostered
  · rw [farewells, leaves.invoked]
    exact heard.2
  · rw [leaves.freed, called_same]
    exact live.alive

include few modest

/-- Every complete reply goes to the callback of its topic, unless one of them ends the connection. -/
theorem processReplies_promptOrParted {turns : ℕ} {cb : RedisCallback Fn Priv}
    (live : Live env.doubles env.calloc names ac emitted taken)
    (fine : ac.c.err = none) (enough : ac.c.reader.unread.length < turns) :
    Program.Leads (Async.processReplies env turns cb) ac
      (fun _ last => PromptOrParted env.doubles env.calloc names emitted last)
      (fun _ => False) := by
  induction turns generalizing ac taken cb with
  | zero => omega
  | succ turns ih =>
    rcases getReply_hearing modest live with
      ⟨reader, ran, hearing, prompt⟩ | ⟨reader, push, ran, hearing, here, shorter⟩
    · have rested : Live env.doubles env.calloc names (turned ac reader) emitted taken :=
        { live with hearing := hearing, rostered := live.rostered.keep rfl rfl id }
      rw [Async.processReplies, Program.leads_bind_of_ok ran, Program.leads_get_bind]
      dsimp only
      split_ifs with ends monitors
      · exact (handlerInvariant_prompt attentive).drop ⟨taken, rested, fun _ => prompt⟩ fun _ =>
          ⟨rested.replies, .inl ends.1⟩
      · exact absurd (rested.quiet.symm.trans monitors) Bool.false_ne_true
      · exact .inl ⟨taken, rested, fun _ => prompt⟩
    have follows := (live.next here).1
    have rostered : Rostered names (turned ac reader) (requestsOn ac)
        (confirmed ((emitted.take taken).map Push.notice)) :=
      live.rostered.keep rfl rfl id
    obtain ⟨cb, middle, got, known, same, rostered'⟩ := redisGetSubscribeCallback_push rostered follows cb env.doubles
    have left : Leaves (turned ac reader) middle := by
      rw [same]
      exact ⟨rfl, rfl, rfl, rfl, rfl, rfl, rfl, rfl, rfl, rfl, List.prefix_rfl⟩
    have accepted : middle.history.accepted = (turned ac reader).history.accepted := by rw [same]
    have called' := leaves_called left accepted cb (some (push.value.object env.doubles))
    have asked : requestsOn middle = requestsOn ac := congrArg (List.flatMap requestsOf) accepted
    rw [← asked] at rostered'
    rw [Program.Leads, processReplies_push ran live.replies (live.rostered.listens follows), Program.bind_of_ok got,
      ← Program.Leads, Async.handOver]
    split_ifs with has
    · obtain ⟨last, ran', after, rostered''⟩ :=
        redisRunCallback_afterCommands few attentive rostered' cb (some (push.value.object env.doubles))
      have leaves := called'.trans after.toLeaves
      have live' := deliver live here hearing known leaves rostered''
      rw [Program.leads_bind_of_ok ran', Program.leads_get_bind]
      split_ifs with frees
      · exact redisAsyncFreeContext_promptOrParted attentive live' (.inr frees)
      · refine ih live' ?_ ?_
        · rw [leaves.err, called_same]
          exact fine
        · rw [leaves.reader, called_same]
          exact shorter.trans_le (Nat.le_of_lt_succ enough)
    · have ignored : called middle cb (some (push.value.object env.doubles)) = middle := by
        rw [called, Option.not_isSome_iff_eq_none.mp has]
      rw [ignored] at called'
      refine ih (deliver live here hearing known called' rostered') ?_ ?_
      · rw [called'.err, called_same]
        exact fine
      · rw [called'.reader, called_same]
        exact shorter.trans_le (Nat.le_of_lt_succ enough)

/-- What was read reaches the callbacks. -/
theorem redisAsyncRead_promptOrParted {result : RecvResult} (prompt : Prompt env.doubles env.calloc names emitted ac)
    (receivable : Receivable result) (room : ac.c.reader.buf.length + (receivedBytes ac.c result).length < 2147483648)
    (onward : ac.history.received ++ receivedBytes ac.c result <+: Value.encodeAll (emitted.map Push.value)) :
    Program.Leads (Async.redisAsyncRead env result) ac
      (fun _ last => PromptOrParted env.doubles env.calloc names emitted last)
      (fun _ => False) := by
  obtain ⟨taken, live, -⟩ := prompt
  obtain ⟨err, spec⟩ := redisBufferRead_spec env.strerror live.hearing.fine receivable
  have fed := live.hearing.feed room onward
  have reader := congrArg RedisContext.reader spec
  have block := (congrArg RedisContext.block spec).trans live.block
  refine (handlerInvariant_prompt attentive).redisAsyncRead live.hearing.fine ?_ ?_ <;>
    generalize (ac.c.redisBufferRead env.strerror result).2 = c at reader block ⊢ <;>
    dsimp only at reader <;>
    rw [← reader] at fed
  · exact fun broken => ⟨taken, { live with
      hearing := fed
      block := block
      rostered := live.rostered.keep rfl rfl id }, fun none => absurd none (Option.isSome_iff_ne_none.mp broken)⟩
  · intro working _
    have gained' : Live env.doubles env.calloc names
        { gained ac c (receivedBytes ac.c result) with reading := true } emitted taken :=
      { live with
        hearing := fed
        block := block
        rostered := live.rostered.keep rfl rfl id }
    rw [Async.redisProcessCallbacks, Program.leads_get_bind]
    refine processReplies_promptOrParted attentive few modest gained' working (Nat.lt_succ_of_le ?_)
    rw [RedisReader.unread, List.length_drop]
    exact Nat.sub_le _ _

end

/-- What the server sends, and what the program and its event library do. -/
inductive Occurrence (Fn Priv : Type) where
  | push (push : Push Fn Priv)
  | event (event : Event Fn Priv)

/-- A connection with all that the server sent, or a fault. -/
abbrev Broadcasting (δ Fn Priv υ : Type) := Except Fault (RedisAsyncContext δ Fn Priv υ × List (Push Fn Priv))

def step (env : Surroundings δ Fn Priv υ) (state : Broadcasting δ Fn Priv υ) (occurrence : Occurrence Fn Priv) :
    Broadcasting δ Fn Priv υ :=
  match state with
  | .error fault => .error fault
  | .ok (ac, emitted) =>
      match occurrence with
      | .push push => .ok (ac, emitted ++ [push])
      | .event event =>
          match handle env event ac with
          | .error fault => .error fault
          | .ok (_, last) => .ok (last, emitted)

/-- What the server and the sockets do, and sizes that an `int` holds. The server confirms commands in their order, the
end of a subscription only where there is one, and sends messages for topics that are subscribed to. A connection that
was freed is not touched again, commands are about subscriptions, what `recv` brings goes on with what the server sent,
and `send` is called when it takes something. -/
def Allows (names : Finset CppString) (ac : RedisAsyncContext δ Fn Priv υ) (emitted : List (Push Fn Priv)) :
    Occurrence Fn Priv → Prop
  | .push push => Follows (requestsOn ac) (confirmed (emitted.map Push.notice)) push.notice
  | .event (.command _ _ argv) => ac.freed = false ∧ Subscribes names argv
  | .event (.read _ result) =>
      ac.freed = false ∧ Receivable result ∧ ac.c.reader.buf.length + (receivedBytes ac.c result).length < 2147483648 ∧
        ac.history.received ++ receivedBytes ac.c result <+: Value.encodeAll (emitted.map Push.value)
  | .event (.write _ result) =>
      ac.freed = false ∧ ac.c.obuf.length < 2147483648 ∧ Sendable ac.c result ∧
        (ac.c.err = none → ac.c.obuf ≠ [] → ¬Again result)
  | .event .disconnect | .event .free | .event .timeout => ac.freed = false

def Meets (names : Finset CppString) (state : Broadcasting δ Fn Priv υ) (occurrence : Occurrence Fn Priv) : Prop :=
  ∀ ac emitted, state = .ok (ac, emitted) → Allows names ac emitted occurrence

section

variable [DecidableEq Fn] [DecidableEq Priv]

instance decidableAllows (names : Finset CppString) (ac : RedisAsyncContext δ Fn Priv υ) (emitted : List (Push Fn Priv))
    (occurrence : Occurrence Fn Priv) : Decidable (Allows names ac emitted occurrence) :=
  match occurrence with
  | .push push =>
      inferInstanceAs (Decidable (Follows (requestsOn ac) (confirmed (emitted.map Push.notice)) push.notice))
  | .event (.command _ _ argv) => inferInstanceAs (Decidable (ac.freed = false ∧ Subscribes names argv))
  | .event (.read _ result) =>
      inferInstanceAs (Decidable (ac.freed = false ∧ Receivable result ∧
        ac.c.reader.buf.length + (receivedBytes ac.c result).length < 2147483648 ∧
        ac.history.received ++ receivedBytes ac.c result <+: Value.encodeAll (emitted.map Push.value)))
  | .event (.write _ result) =>
      inferInstanceAs (Decidable (ac.freed = false ∧ ac.c.obuf.length < 2147483648 ∧ Sendable ac.c result ∧
        (ac.c.err = none → ac.c.obuf ≠ [] → ¬Again result)))
  | .event .disconnect | .event .free | .event .timeout => inferInstanceAs (Decidable (ac.freed = false))

instance decidableMeets (names : Finset CppString) (state : Broadcasting δ Fn Priv υ)
    (occurrence : Occurrence Fn Priv) :
    Decidable (Meets names state occurrence) :=
  match state with
  | .error _ => isTrue (by rintro ac emitted ⟨⟩)
  | .ok (ac, emitted) => decidable_of_iff (Allows names ac emitted occurrence)
      ⟨fun allows _ _ same => by cases same; exact allows, fun meets => meets ac emitted rfl⟩

end

/-- The replies that were taken went to the callbacks of their topics, as soon as they were whole. No callback is called
without a reply before the end, and at the end all that are left. -/
structure Broadcast (env : Surroundings δ Fn Priv υ) (ac : RedisAsyncContext δ Fn Priv υ)
    (emitted : List (Push Fn Priv))
    (taken : ℕ) : Prop where
  front : taken ≤ emitted.length
  delivered : Delivered env.doubles ac.history.accepted (emitted.take taken) (deliveries ac)
  prompt : ac.c.err = none → ac.freed = false → complete env.doubles env.calloc ac = taken
  silent : ac.freed = false → farewells ac = []
  parted : ac.freed = true → Parted ac (confirmed ((emitted.take taken).map Push.notice))

section

variable {env : Surroundings δ Fn Priv υ}

theorem live_fresh (user : υ) (onConnect onDisconnect noAutoFree : Bool) :
    Live doubles calloc names (fresh user onConnect onDisconnect noAutoFree : RedisAsyncContext δ Fn Priv υ) [] 0 := by
  have nothing : roster (fresh user onConnect onDisconnect noAutoFree : RedisAsyncContext δ Fn Priv υ) =
      fun _ => none := by
    funext ⟨pvariant, name⟩
    cases pvariant <;> rfl
  refine ⟨⟨⟨Nat.succ_pos _, .idle (le_refl _) rfl rfl rfl (.refl _), List.nil_prefix, by simp, le_refl _⟩, rfl,
    rfl, rfl, rfl, rfl,
    .start, List.nil_prefix⟩, ⟨fun pvariant => ⟨{}, ?_, proper_empty _ _⟩, ⟨List.nil_prefix, ?_, ?_⟩, ?_⟩, rfl, rfl⟩
  · cases pvariant <;> rfl
  · intro topic who count there
    rw [nothing] at there
    cases there
  · rintro topic (entered | fewer)
    · cases entered
    · exact absurd fewer (lt_irrefl 0)
  · intro topic there
    rw [nothing] at there
    cases there

theorem PromptOrParted.push {push : Push Fn Priv} (either : PromptOrParted doubles calloc names emitted ac)
    (follows : Follows (requestsOn ac) (confirmed (emitted.map Push.notice)) push.notice)
    (writable : push.value.Writable doubles calloc 8) : PromptOrParted doubles calloc names (emitted ++ [push]) ac := by
  rcases either with ⟨taken, live, prompt⟩ | ⟨taken, heard, freed, parted⟩
  · exact .inl ⟨taken, live.push follows writable, prompt⟩
  · refine .inr ⟨taken, heard.push follows writable, freed, ?_⟩
    rwa [List.take_append_of_le_length heard.hearing.front]

theorem PromptOrParted.prompt (either : PromptOrParted doubles calloc names emitted ac) (alive : ac.freed = false) :
    Prompt doubles calloc names emitted ac :=
  either.resolve_right fun ⟨_, _, freed, _⟩ => Bool.false_ne_true (alive.symm.trans freed)

theorem PromptOrParted.broadcast (either : PromptOrParted env.doubles env.calloc names emitted ac) : ∃ taken,
    Broadcast env ac emitted taken := by
  rcases either with ⟨taken, live, prompt⟩ | ⟨taken, heard, freed, parted⟩
  · exact ⟨taken, live.hearing.front, live.delivered, fun fine _ => prompt fine, fun _ => live.silent,
      fun freed => absurd (live.alive.symm.trans freed) Bool.false_ne_true⟩
  · exact ⟨taken, heard.hearing.front, heard.delivered,
      fun _ alive => absurd (alive.symm.trans freed) Bool.false_ne_true,
      fun alive => absurd (alive.symm.trans freed) Bool.false_ne_true, fun _ => parted⟩

variable (few : names.card < 1073741824)
    (attentive : ∀ fn reply privdata user, Attentive names (env.call fn reply privdata user))
  (modest : Modest env.calloc)

include few attentive modest

/-- Every event returns and keeps the invariant. -/
theorem handle_promptOrParted {event : Event Fn Priv} (either : PromptOrParted env.doubles env.calloc names emitted ac)
    (allows : Allows names ac emitted (.event event)) :
    Program.Leads (handle env event) ac (fun _ last => PromptOrParted env.doubles env.calloc names emitted last)
      (fun _ => False) := by
  have inv : HandlerInvariant env (Prompt env.doubles env.calloc names emitted)
      (PromptOrParted env.doubles env.calloc names emitted) _ :=
    handlerInvariant_prompt attentive
  cases event with
  | command fn privdata argv =>
    obtain ⟨alive, subscribes⟩ := allows
    obtain ⟨taken, live, prompt⟩ := either.prompt alive
    obtain ⟨status, last, ran, after, rostered⟩ :=
      redisAsyncCommandArgv_afterCommands few live.rostered subscribes fn privdata
    rw [handle, Program.leads_bind_of_ok ran]
    refine .inl ⟨taken, live.leaves after.toLeaves rostered, fun fine => ?_⟩
    rw [complete, after.received]
    exact prompt (after.err.symm.trans fine)
  | disconnect => exact inv.redisAsyncDisconnect (either.prompt allows)
  | free => exact inv.redisAsyncFree (either.prompt allows)
  | read connect result =>
    obtain ⟨alive, receivable, room, onward⟩ := allows
    refine inv.handles connect (either.prompt alive) ?_
    rintro middle prompt same - received
    exact redisAsyncRead_promptOrParted attentive few modest prompt receivable (by rwa [same]) (by rwa [same, received])
  | write connect result =>
    obtain ⟨alive, small, sendable, takes⟩ := allows
    refine inv.handles connect (either.prompt alive) ?_
    rintro middle prompt same - -
    exact inv.redisAsyncWrite prompt (by rwa [same]) (by rwa [same])
      (redisBufferWrite_status env.strerror (by rwa [same]))
  | timeout => exact inv.redisAsyncHandleTimeout (either.prompt allows)

/-- In every order of events each reply goes to the callback of the last command for its topic, each once and in order,
the callbacks that are left are called at the end, and nothing crashes. -/
theorem messages_reach_topics (user : υ) (onConnect onDisconnect noAutoFree : Bool)
    {occurrences : List (Occurrence Fn Priv)}
    (writable : ∀ push, .push push ∈ occurrences → push.value.Writable env.doubles env.calloc 8)
    (meets : Along (step env) (Meets names) (.ok (fresh user onConnect onDisconnect noAutoFree, [])) occurrences) :
    Always (step env) (fun state => ∃ ac emitted taken, state = .ok (ac, emitted) ∧ Broadcast env ac emitted taken)
      (.ok (fresh user onConnect onDisconnect noAutoFree, [])) occurrences := by
  have along := (along_and (step env) (Meets names) (fun _ occurrence => occurrence ∈ occurrences) _ occurrences).mpr
    ⟨meets, (along_iff_forall_mem (step env) (· ∈ occurrences) _ occurrences).mpr fun _ => id⟩
  have rest : Always (step env)
      (fun state => ∃ ac emitted, state = .ok (ac, emitted) ∧ PromptOrParted env.doubles env.calloc names emitted ac)
      (.ok (fresh user onConnect onDisconnect noAutoFree, [])) occurrences := by
    refine always_of_along ?_
      ⟨_, [], rfl, .inl ⟨0, live_fresh user onConnect onDisconnect noAutoFree, fun _ => rfl⟩⟩ along
    rintro state occurrence ⟨ac, emitted, rfl, either⟩ ⟨meets, inside⟩
    have allows := meets ac emitted rfl
    cases occurrence with
    | push push => exact ⟨ac, emitted ++ [push], rfl, either.push allows (writable push inside)⟩
    | event event =>
      have leads := handle_promptOrParted few attentive modest either allows
      rw [Program.Leads] at leads
      rw [step]
      generalize handle env event ac = outcome at leads
      rcases outcome with fault | ⟨_, last⟩
      · exact leads.elim
      · exact ⟨last, emitted, rfl, leads⟩
  refine rest.mono ?_
  rintro state ⟨ac, emitted, rfl, either⟩
  obtain ⟨taken, broadcast⟩ := either.broadcast
  exact ⟨ac, emitted, taken, rfl, broadcast⟩

end

/-- A program whose first callback ends the subscription of a channel. -/
def leaving : Surroundings CppString Bool ℕ ℕ where
  strerror _ := []
  doubles := textual
  calloc := (· < 1000)
  null := 0
  patience := 0
  call _ _ _ user :=
    if user = 0 then .command none 0 [text "UNSUBSCRIBE", text "a"] fun _ => .done 1 else .done (user + 1)
  connectCallback _ user := user
  disconnectCallback _ user := user

theorem leaving_attentive (fn : Bool) (reply : Option (RedisReply CppString)) (privdata user : ℕ) :
    Attentive {text "a", text "b"} (leaving.call fn reply privdata user) := by
  rw [leaving]
  dsimp only
  split_ifs
  · exact ⟨by decide +kernel, fun _ => trivial⟩
  · trivial

/-- Two channels, a message between the end of the subscription and its confirmation, and a server that closes. -/
def twoChannels : List (Occurrence Bool ℕ) :=
  [.event (.command (some true) 5 [text "SUBSCRIBE", text "a", text "b"]), .event (.write .done (.sent 33)),
    .push (.confirm (.enter (false, text "a") (some true, 5)) 1),
    .push (.confirm (.enter (false, text "b") (some true, 5)) 2),
    .push (.message (false, text "a") [.string (text "x")]),
    .event (.read .done (.bytes
      (text "*3\r\n$9\r\nsubscribe\r\n$1\r\na\r\n:1\r\n*3\r\n$9\r\nsubscribe\r\n$1\r\nb\r\n:2\r\n*3\r\n$7"))),
    .event (.read .done (.bytes (text "\r\nmessage\r\n$1\r\na\r\n$1\r\nx\r\n"))),
    .push (.confirm (.leave (false, text "a")) 1),
    .event (.read .done (.bytes (text "*3\r\n$11\r\nunsubscribe\r\n$1\r\na\r\n:1\r\n"))), .event (.read .done .closed)]

theorem twoChannels_writable (push : Push Bool ℕ) (member : .push push ∈ twoChannels) :
    push.value.Writable textual (· < 1000) 8 := by
  simp only [twoChannels, List.mem_cons, List.not_mem_nil, or_false, Occurrence.push.injEq, reduceCtorEq,
    false_or] at member
  rcases member with rfl | rfl | rfl | rfl <;>
    simp only [Push.value, Value.Writable, Value.AllWritable] <;> decide +kernel

theorem messages_reach_topics_two :
    Always (step leaving) (fun state => ∃ ac emitted taken, state = .ok (ac, emitted) ∧
      Broadcast leaving ac emitted taken)
      (.ok (fresh 0 true true false, [])) twoChannels :=
  messages_reach_topics (by decide +kernel) leaving_attentive modest_thousand 0 true true false twoChannels_writable
    (by decide +kernel)

end CppRedis.Soundness.Broadcasts
