import CppRedis.Soundness.Handlers

/-! # What callbacks leave of a connection

While a callback runs, its connection takes more commands or learns that it shall end, and nothing else. So whatever
ends a connection or hands a reply over calls the callbacks in the order of the commands: the first ones with the
replies that the reader gave, the next ones without.
-/

namespace CppRedis.Soundness.Callbacks

open Machine Model.Hiredis ReplyStream ReplyRoundTrip Formatting Pipelining AsyncCommands Handlers

variable {δ Fn Priv υ : Type}

/-- A command with its callback. -/
abbrev Given (Fn Priv : Type) := Option Fn × Priv × List CppString

/-- The callback of a command. -/
def callbackOf (given : Given Fn Priv) : RedisCallback Fn Priv := ⟨given.1, 1, given.2.1⟩

/-- The bytes of commands. -/
def bytesOf (given : List (Given Fn Priv)) : CppString := (given.map fun one => command one.2.2).flatten

/-- A connection that took more commands. -/
def grow (ac : RedisAsyncContext δ Fn Priv υ) (more : List (Given Fn Priv)) : RedisAsyncContext δ Fn Priv υ :=
  { ac with
    c := { ac.c with obuf := ac.c.obuf ++ bytesOf more }
    replies := ac.replies ++ more.map callbackOf
    history := { ac.history with accepted := ac.history.accepted ++ more } }

/-- What a callback can do to its connection: more commands, where they are not refused, and flags for its end. -/
inductive Extends (ac : RedisAsyncContext δ Fn Priv υ) : RedisAsyncContext δ Fn Priv υ → Prop
  | intro (more : List (Given Fn Priv)) (user : υ) (disconnecting freeing noAutoFree writing : Bool)
      (plain : ∀ given ∈ more, (command given.2.2).length < 2147483647) (refused : Closing ac → more = [])
      (disconnects : ac.disconnecting = true → disconnecting = true) (frees : ac.freeing = true → freeing = true) :
      Extends ac { grow ac more with
        user := user
        disconnecting := disconnecting
        freeing := freeing
        noAutoFree := noAutoFree
        writing := writing }

theorem bytesOf_append (given more : List (Given Fn Priv)) :
    bytesOf (given ++ more) = bytesOf given ++ bytesOf more := by
  rw [bytesOf, List.map_append, List.flatten_append]
  rfl

theorem grow_nil (ac : RedisAsyncContext δ Fn Priv υ) : grow ac [] = ac := by
  rw [grow, bytesOf]
  simp

/-- No commands. -/
theorem Extends.flags (ac : RedisAsyncContext δ Fn Priv υ) (user : υ) {disconnecting freeing : Bool} (noAutoFree : Bool)
    (disconnects : ac.disconnecting = true → disconnecting = true) (frees : ac.freeing = true → freeing = true) :
    Extends ac
      { ac with user := user, disconnecting := disconnecting, freeing := freeing, noAutoFree := noAutoFree } := by
  have same : Extends ac _ := .intro [] user disconnecting freeing noAutoFree ac.writing (by simp) (fun _ => rfl)
    disconnects frees
  rwa [grow_nil] at same

theorem Extends.refl (ac : RedisAsyncContext δ Fn Priv υ) : Extends ac ac := .flags ac ac.user ac.noAutoFree id id

/-- One command. -/
theorem Extends.one {ac : RedisAsyncContext δ Fn Priv υ} (opened : ¬Closing ac) {argv : List CppString}
    (small : (command argv).length < 2147483647) (fn : Option Fn) (privdata : Priv) :
    Extends ac (accept (put (ac.pushReply ⟨fn, 1, privdata⟩) argv) fn privdata argv) := by
  have grown : Extends ac _ := .intro [(fn, privdata, argv)] ac.user ac.disconnecting ac.freeing ac.noAutoFree true
    (by simpa using small) (fun closing => absurd closing opened) id id
  have bytes : bytesOf [(fn, privdata, argv)] = command argv := by
    rw [bytesOf]
    simp
  rw [grow, bytes] at grown
  exact grown

theorem Extends.trans {ac middle last : RedisAsyncContext δ Fn Priv υ} (first : Extends ac middle)
    (second : Extends middle last) : Extends ac last := by
  obtain ⟨more, user, disconnecting, freeing, noAutoFree, writing, plain, refused, disconnects, frees⟩ := first
  obtain ⟨others, user', disconnecting', freeing', noAutoFree', writing', plain', refused', disconnects', frees'⟩ :=
    second
  have all : Extends ac _ := .intro (more ++ others) user' disconnecting' freeing' noAutoFree' writing' ?_ ?_
    (fun closing => disconnects' (disconnects closing)) (fun closing => frees' (frees closing))
  · convert all using 2
    rw [grow, grow, grow, bytesOf_append]
    simp
  · intro given member
    rcases List.mem_append.mp member with before | later
    · exact plain given before
    · exact plain' given later
  · intro closing
    rw [refused closing, refused' (closing.imp disconnects frees)]
    rfl

/-- Scripts whose commands are plain. -/
def Calm : Script Fn Priv υ → Prop
  | .done _ => True
  | .command _ _ argv next => Plain argv ∧ ∀ status, Calm (next status)
  | .disconnect next | .free next => Calm next

/-- A callback returns, and only extends its connection. -/
theorem runScript_extends {script : Script Fn Priv υ} (calm : Calm script) {ac : RedisAsyncContext δ Fn Priv υ}
    (regular : ac.subscribed = false) : ∃ last, Async.runScript script ac = .ok ((), last) ∧ Extends ac last := by
  induction script generalizing ac with
  | done user => exact ⟨{ ac with user := user }, rfl, .flags ac user ac.noAutoFree id id⟩
  | command fn privdata argv next ih =>
    obtain ⟨plain, later⟩ := calm
    rw [Async.runScript, Program.bind_apply, redisAsyncCommandArgv_plain regular plain]
    split_ifs with refused
    · exact ih .err (later .err) regular
    · have opened : ¬Closing ac := fun closing => refused (or_assoc.mp (.inl closing))
      have taken : (accept (put (ac.pushReply ⟨fn, 1, privdata⟩) argv) fn privdata argv).subscribed = false := regular
      obtain ⟨last, ran, extends'⟩ := ih .ok (later .ok) taken
      exact ⟨last, ran, (Extends.one opened plain.1 fn privdata).trans extends'⟩
  | disconnect next ih =>
    have flagged : { ac with disconnecting := true, noAutoFree := false }.subscribed = false := regular
    obtain ⟨last, ran, extends'⟩ := ih calm flagged
    exact ⟨last, ran, (Extends.flags ac ac.user false (fun _ => rfl) id).trans extends'⟩
  | free next ih =>
    have flagged : { ac with freeing := true }.subscribed = false := regular
    obtain ⟨last, ran, extends'⟩ := ih calm flagged
    exact ⟨last, ran, (Extends.flags ac ac.user ac.noAutoFree id (fun _ => rfl)).trans extends'⟩

/-- The call of a callback, where there is a function. -/
def called (ac : RedisAsyncContext δ Fn Priv υ) (cb : RedisCallback Fn Priv) (reply : Option (RedisReply δ)) :
    RedisAsyncContext δ Fn Priv υ :=
  match cb.fn with
  | none => ac
  | some fn => ac.invoke (.reply fn reply cb.privdata)

variable {env : Surroundings δ Fn Priv υ}

/-- A callback was called once it returns, and extended its connection. -/
theorem redisRunCallback_extends (calm : ∀ fn reply privdata user, Calm (env.call fn reply privdata user))
    {ac : RedisAsyncContext δ Fn Priv υ} (regular : ac.subscribed = false) (idle : ac.inCallback = false)
    (cb : RedisCallback Fn Priv) (reply : Option (RedisReply δ)) :
    ∃ last, Async.redisRunCallback env cb reply ac = .ok ((), last) ∧ Extends (called ac cb reply) last := by
  rw [Async.redisRunCallback, called]
  cases cb.fn with
  | none => exact ⟨ac, rfl, .refl ac⟩
  | some fn =>
    have entered : ({ ac with inCallback := true }.invoke (.reply fn reply cb.privdata)).subscribed = false := regular
    obtain ⟨last, ran, extends'⟩ := runScript_extends (calm fn reply cb.privdata ac.user) entered
    refine ⟨{ last with inCallback := false }, ?_, ?_⟩
    · exact @Program.bind_of_ok _ _ _ _ _ (fun _ => modify fun ac => { ac with inCallback := false }) _ _ _ ran
    · obtain ⟨more, user, disconnecting, freeing, noAutoFree, writing, plain, refused, disconnects, frees⟩ := extends'
      have all : Extends (ac.invoke (.reply fn reply cb.privdata)) _ :=
        .intro more user disconnecting freeing noAutoFree
        writing plain refused disconnects frees
      have same : (grow (ac.invoke (.reply fn reply cb.privdata)) more).inCallback = false := idle
      convert all using 1
      rw [← same]
      rfl

/-- The calls for commands with these outcomes. A command without a function is answered to nobody. -/
def callsOf (accepted : List (Given Fn Priv)) (outcomes : List (Option (RedisReply δ))) : List (Invocation δ Fn Priv) :=
  (accepted.zip outcomes).filterMap fun one => one.1.1.map fun fn => .reply fn one.2 one.1.2.1

/-- The calls of callbacks of commands. -/
def replyCalls (ac : RedisAsyncContext δ Fn Priv υ) : List (Invocation δ Fn Priv) :=
  ac.history.invoked.filter fun
    | .reply _ _ _ => true
    | _ => false

/-- The replies that came, and behind them the commands that nobody answers any more. -/
def outcomesOf (returned : List (RedisReply δ)) (cancelled : ℕ) : List (Option (RedisReply δ)) :=
  returned.map some ++ List.replicate cancelled none

@[simp]
theorem length_outcomesOf (returned : List (RedisReply δ)) (cancelled : ℕ) :
    (outcomesOf returned cancelled).length = returned.length + cancelled := by
  rw [outcomesOf, List.length_append, List.length_map, List.length_replicate]

theorem callsOf_append (accepted more : List (Given Fn Priv)) {outcomes : List (Option (RedisReply δ))}
    (bound : outcomes.length ≤ accepted.length) : callsOf (accepted ++ more) outcomes = callsOf accepted outcomes := by
  have same : (accepted ++ more).zip outcomes = accepted.zip outcomes := by
    induction accepted generalizing outcomes with
    | nil => rw [List.eq_nil_of_length_eq_zero (Nat.le_zero.mp bound), List.zip_nil_right, List.zip_nil_right]
    | cons given accepted ih =>
      cases outcomes with
      | nil => rfl
      | cons outcome outcomes =>
        rw [List.cons_append, List.zip_cons_cons, List.zip_cons_cons, ih (by simpa using bound)]
  rw [callsOf, callsOf, same]

/-- The next call. -/
theorem callsOf_next {accepted rest : List (Given Fn Priv)} {outcomes : List (Option (RedisReply δ))}
    {given : Given Fn Priv}
    (here : accepted.drop outcomes.length = given :: rest) (outcome : Option (RedisReply δ)) :
    callsOf accepted (outcomes ++ [outcome]) =
      callsOf accepted outcomes ++ (given.1.map fun fn => .reply fn outcome given.2.1).toList := by
  have bound : outcomes.length ≤ accepted.length := by
    by_contra short
    rw [List.drop_eq_nil_of_le (by omega)] at here
    cases here
  obtain ⟨front, length, rfl⟩ : ∃ front, front.length = outcomes.length ∧ accepted = front ++ given :: rest :=
    ⟨accepted.take outcomes.length, by rw [List.length_take]; omega, by rw [← here, List.take_append_drop]⟩
  rw [callsOf_append front (given :: rest) length.ge, callsOf, callsOf, List.zip_append length, List.filterMap_append,
    List.zip_cons_cons, List.zip_nil_right]
  obtain ⟨fn, privdata, argv⟩ := given
  cases fn <;> simp

/-- A connection as the program and the sockets see it. -/
def link (ac : RedisAsyncContext δ Fn Priv υ) (returned : List (RedisReply δ)) : Link δ :=
  { context := ac.c
    asked := ac.history.accepted.map fun given => given.2.2
    sent := ac.history.sent
    received := ac.history.received
    returned := returned }

variable (doubles : Doubles δ) (calloc : ℕ → Bool) (server : List (RedisReply δ) → RedisReply δ → Value)

/-- A connection whose first callbacks were called with these replies, and the next ones without. -/
structure Progress (ac : RedisAsyncContext δ Fn Priv υ) (returned : List (RedisReply δ)) (cancelled : ℕ) : Prop where
  joined : Joined doubles calloc server (link ac returned)
  count : returned.length + cancelled ≤ ac.history.accepted.length
  replies : ac.replies = (ac.history.accepted.drop (returned.length + cancelled)).map callbackOf
  calls : replyCalls ac = callsOf ac.history.accepted (outcomesOf returned cancelled)
  regular : ac.subscribed = false
  quiet : ac.monitoring = false
  idle : ac.inCallback = false
  invalid : ac.invalid = []
  block : ac.c.block = false

variable {doubles calloc server} {ac last : RedisAsyncContext δ Fn Priv υ}
    {returned : List (RedisReply δ)} {cancelled : ℕ}

/-- More commands join the others. -/
theorem joined_grow (joined : Joined doubles calloc server (link ac returned)) {more : List (Given Fn Priv)}
    (plain : ∀ given ∈ more, (command given.2.2).length < 2147483647) :
    Joined doubles calloc server (link (grow ac more) returned) := by
  have sent : ac.history.sent ++ ac.c.obuf = ((ac.history.accepted.map fun given => given.2.2).map command).flatten :=
    joined.sent
  refine ⟨joined.fits, ?_, ?_, joined.tracks, joined.received⟩
  · dsimp only [link, grow]
    rw [← List.append_assoc, sent, bytesOf, List.map_append, List.map_append, List.flatten_append,
      List.map_map, List.map_map]
    rfl
  · intro argv member
    dsimp only [link, grow] at member
    rw [List.map_append] at member
    rcases List.mem_append.mp member with before | later
    · exact joined.asked argv before
    · obtain ⟨given, inside, rfl⟩ := List.mem_map.mp later
      exact plain given inside

/-- A callback leaves the order as it is. -/
theorem Progress.extends (progress : Progress doubles calloc server ac returned cancelled)
    (extends' : Extends ac last) :
    Progress doubles calloc server last returned cancelled := by
  obtain ⟨more, user, disconnecting, freeing, noAutoFree, writing, plain, refused, disconnects, frees⟩ := extends'
  have count := progress.count
  refine { progress with joined := joined_grow progress.joined plain, count := ?_, replies := ?_, calls := ?_ }
  · dsimp only [grow]
    rw [List.length_append]
    omega
  · dsimp only [grow]
    rw [progress.replies, List.drop_append_of_le_length count, List.map_append]
  · dsimp only [grow]
    rw [callsOf_append _ _ (by rw [length_outcomesOf]; exact count)]
    exact progress.calls

/-- The next callback is called. -/
theorem replyCalls_called (cb : RedisCallback Fn Priv) (reply : Option (RedisReply δ)) :
    replyCalls (called ac cb reply) = replyCalls ac ++ (cb.fn.map fun fn => .reply fn reply cb.privdata).toList := by
  rw [called]
  cases cb.fn with
  | none => simp
  | some fn => simp [replyCalls, RedisAsyncContext.invoke]

/-- A callback is taken off the list and called. -/
theorem Progress.call (progress : Progress doubles calloc server ac returned cancelled) {cb : RedisCallback Fn Priv}
    {rest : List (RedisCallback Fn Priv)} (next : ac.replies = cb :: rest) (outcome : Option (RedisReply δ)) :
    returned.length + cancelled + 1 ≤ ac.history.accepted.length ∧
      rest = (ac.history.accepted.drop (returned.length + cancelled + 1)).map callbackOf ∧
      replyCalls (called { ac with replies := rest } cb outcome) =
        callsOf ac.history.accepted (outcomesOf returned cancelled ++ [outcome]) := by
  have waiting := progress.replies
  rw [next] at waiting
  cases here : ac.history.accepted.drop (returned.length + cancelled) with
  | nil =>
    rw [here] at waiting
    cases waiting
  | cons given behind =>
    rw [here, List.map_cons] at waiting
    obtain ⟨rfl, rfl⟩ := List.cons.inj waiting
    have bound : returned.length + cancelled < ac.history.accepted.length := by
      by_contra short
      rw [List.drop_eq_nil_of_le (by omega)] at here
      cases here
    have later : ac.history.accepted.drop (returned.length + cancelled + 1) = behind := by
      rw [← List.tail_drop, here, List.tail_cons]
    refine ⟨bound, by rw [later], ?_⟩
    have before : replyCalls { ac with replies := behind.map callbackOf } = replyCalls ac := rfl
    rw [replyCalls_called, before, progress.calls, callsOf_next (by rw [length_outcomesOf]; exact here)]
    rfl

/-- What a call leaves alone. -/
theorem called_same (ac : RedisAsyncContext δ Fn Priv υ) (cb : RedisCallback Fn Priv)
    (outcome : Option (RedisReply δ)) :
    called ac cb outcome = { ac with
      history := { ac.history with
        invoked := (called ac cb outcome).history.invoked
        moments := (called ac cb outcome).history.moments } } := by
  rw [called]
  cases cb.fn <;> rfl

/-- A connection whose reader went on. -/
def turned (ac : RedisAsyncContext δ Fn Priv υ) (reader : RedisReader δ) : RedisAsyncContext δ Fn Priv υ :=
  { ac with c := { ac.c with reader := reader } }

/-- A call with a reply, which is the next answer and was taken from the reader. -/
theorem Progress.answer (progress : Progress doubles calloc server ac returned 0) {reply : RedisReply δ}
    {reader : RedisReader δ}
    (joined : Joined doubles calloc server (link (turned ac reader) (returned ++ [reply])))
    {cb : RedisCallback Fn Priv} {rest : List (RedisCallback Fn Priv)} (next : ac.replies = cb :: rest) :
    Progress doubles calloc server (called { turned ac reader with replies := rest } cb (some reply))
      (returned ++ [reply]) 0 := by
  obtain ⟨count, behind, calls⟩ := progress.call next (some reply)
  have outcomes : outcomesOf (returned ++ [reply]) 0 = outcomesOf returned 0 ++ [some reply] := by simp [outcomesOf]
  have same : replyCalls (called { turned ac reader with replies := rest } cb (some reply)) =
      replyCalls (called { ac with replies := rest } cb (some reply)) := by
    rw [called, called]
    cases cb.fn <;> rfl
  rw [← outcomes, ← same] at calls
  rw [called_same] at calls ⊢
  refine { progress with joined := joined, count := ?_, replies := ?_, calls := calls }
  · rw [List.length_append]
    exact count
  · rw [List.length_append]
    exact behind

/-- A call without a reply. -/
theorem Progress.cancel (progress : Progress doubles calloc server ac returned cancelled) {cb : RedisCallback Fn Priv}
    {rest : List (RedisCallback Fn Priv)} (next : ac.replies = cb :: rest) :
    Progress doubles calloc server (called { ac with replies := rest } cb none) returned (cancelled + 1) := by
  obtain ⟨count, behind, calls⟩ := progress.call next none
  have outcomes : outcomesOf returned (cancelled + 1) = outcomesOf returned cancelled ++ [none] := by
    rw [outcomesOf, outcomesOf, List.replicate_succ', List.append_assoc]
  rw [← outcomes] at calls
  rw [called_same] at calls ⊢
  exact { progress with count := count, replies := behind, calls := calls }

/-- What the callbacks that end a connection leave alone. -/
structure Same (ac last : RedisAsyncContext δ Fn Priv υ) : Prop where
  reader : last.c.reader = ac.c.reader
  err : last.c.err = ac.c.err
  channels : last.channels = ac.channels
  patterns : last.patterns = ac.patterns
  freed : last.freed = ac.freed
  closing : Closing ac → Closing last

theorem Extends.same (extends' : Extends ac last) : Same ac last := by
  obtain ⟨more, user, disconnecting, freeing, noAutoFree, writing, plain, refused, disconnects, frees⟩ := extends'
  exact ⟨rfl, rfl, rfl, rfl, rfl, fun closing => closing.imp disconnects frees⟩

theorem called_sameAs (cb : RedisCallback Fn Priv) (outcome : Option (RedisReply δ)) :
    Same ac (called ac cb outcome) := by
  rw [called_same]
  exact ⟨rfl, rfl, rfl, rfl, rfl, id⟩

theorem Same.trans {middle : RedisAsyncContext δ Fn Priv υ} (first : Same ac middle) (second : Same middle last) :
    Same ac last :=
  ⟨second.reader.trans first.reader, second.err.trans first.err, second.channels.trans first.channels,
    second.patterns.trans first.patterns, second.freed.trans first.freed,
    fun closing => second.closing (first.closing closing)⟩

/-- While commands are refused, a callback adds none. -/
theorem Extends.replies (extends' : Extends ac last) (closing : Closing ac) : last.replies = ac.replies := by
  obtain ⟨more, user, disconnecting, freeing, noAutoFree, writing, plain, refused, disconnects, frees⟩ := extends'
  rw [refused closing]
  exact List.append_nil _

section

variable (calm : ∀ fn reply privdata user, Calm (env.call fn reply privdata user))

include calm

/-- The callbacks that are left are called without a reply. The loop is watched to its end where
commands are refused. -/
theorem drain_leads {turns : ℕ} (progress : Progress doubles calloc server ac returned cancelled) :
    Program.Leads (Async.drain env RedisAsyncContext.shiftReply turns) ac
      (fun _ last => (∃ cancelled, Progress doubles calloc server last returned cancelled) ∧
        last.replies = [] ∧ Same ac last)
      (fun fault => fault = .running ∧ (Closing ac → turns ≤ ac.replies.length)) := by
  induction turns generalizing ac cancelled with
  | zero => exact ⟨rfl, fun _ => Nat.zero_le _⟩
  | succ turns ih =>
    rw [Async.drain, Program.leads_get_bind]
    cases next : ac.replies with
    | nil =>
      have none : ac.shiftReply = none := by rw [RedisAsyncContext.shiftReply, next]
      rw [none]
      exact ⟨⟨cancelled, progress⟩, next, rfl, rfl, rfl, rfl, rfl, id⟩
    | cons cb rest =>
      have some : ac.shiftReply = some (cb, { ac with replies := rest }) := by rw [RedisAsyncContext.shiftReply, next]
      rw [some]
      have progress' := progress.cancel next
      have regular : { ac with replies := rest }.subscribed = false := progress.regular
      obtain ⟨last, ran, extends'⟩ := redisRunCallback_extends calm regular progress.idle cb none
      have shifted : Same ac { ac with replies := rest } := ⟨rfl, rfl, rfl, rfl, rfl, id⟩
      have made := shifted.trans (called_sameAs cb none)
      have same := made.trans extends'.same
      refine Program.leads_set_bind.mpr (Program.Leads.bind (fun _ state => state = last) ?_ ?_)
      · rw [Program.Leads, ran]
      · rintro _ _ rfl
        refine (ih (progress'.extends extends')).mono ?_ ?_
        · rintro _ final ⟨progressed, empty, same'⟩
          exact ⟨progressed, empty, same.trans same'⟩
        · rintro fault ⟨running, short⟩
          refine ⟨running, fun closing => ?_⟩
          have less := short (same.closing closing)
          rw [extends'.replies (made.closing closing), called_same] at less
          exact Nat.succ_le_succ less

/-- How many replies are complete in what was received. -/
def complete (doubles : Doubles δ) (calloc : ℕ → Bool) (ac : RedisAsyncContext δ Fn Priv υ) : ℕ :=
  (replies doubles calloc ac.history.received).1.length

/-- The invariant between the handlers: callbacks are called without a reply only behind an error or at the end, and no
reply waits for its callback before. -/
structure Steady (doubles : Doubles δ) (calloc : ℕ → Bool) (server : List (RedisReply δ) → RedisReply δ → Value)
    (ac : RedisAsyncContext δ Fn Priv υ) (returned : List (RedisReply δ)) (cancelled : ℕ) : Prop extends
    Progress doubles calloc server ac returned cancelled where
  whole : 0 < cancelled → ac.c.err.isSome = true ∨ ac.freed = true
  ended : ac.freed = true → ac.replies = []
  prompt : ac.c.err = none → ac.freed = false → complete doubles calloc ac = returned.length
  channels : ac.freed = false → ac.channels = some {}
  patterns : ac.freed = false → ac.patterns = some {}

omit calm in
/-- A loop over no callbacks. -/
theorem drainSubs_empty {pvariant : Bool} (empty : ac.subs pvariant = some {}) (turns : ℕ) :
    Async.drainSubs env pvariant (turns + 1) {} ac = .ok ((), ac) := by
  have nothing : (({} : Dict CppString (RedisCallback Fn Priv)).dictNext callbackDict {}) =
      some (none, { index := 0 }) := by
    simp [Dict.dictNext, Dict.dictNextWithin, Dict.size, toInt]
  rw [Async.drainSubs, Program.bind_apply, Program.get_apply]
  dsimp only
  rw [empty, Option.bind_some, nothing]
  rfl

omit calm in
theorem releaseSubs_empty {pvariant : Bool} (empty : ac.subs pvariant = some {}) :
    Async.releaseSubs env pvariant ac = .ok ((), ac.setSubs pvariant none) := by
  rw [Async.releaseSubs, Program.bind_apply, Program.get_apply]
  dsimp only
  rw [Program.bind_of_ok (drainSubs_empty empty _)]
  rfl

omit calm in
theorem drainReplies_empty (empty : ac.replies = []) : Async.drainReplies env ac = .ok ((), ac) := by
  have none : ac.shiftReply = none := by rw [RedisAsyncContext.shiftReply, empty]
  rw [Async.drainReplies, Program.bind_apply, Program.get_apply]
  dsimp only
  rw [Async.drain, Program.bind_apply, Program.get_apply]
  dsimp only
  rw [none]
  rfl

omit calm in
theorem drainInvalid_empty (empty : ac.invalid = []) : Async.drainInvalid env ac = .ok ((), ac) := by
  have none : ac.shiftInvalid = none := by rw [RedisAsyncContext.shiftInvalid, empty]
  rw [Async.drainInvalid, Program.bind_apply, Program.get_apply]
  dsimp only
  rw [Async.drain, Program.bind_apply, Program.get_apply]
  dsimp only
  rw [none]
  rfl

omit calm in
theorem replyCalls_disconnect (status : Status) : replyCalls (ac.invoke (.disconnect status)) = replyCalls ac := by
  simp [replyCalls, RedisAsyncContext.invoke]

omit calm in
/-- The end, when no callbacks are left. -/
theorem Progress.finish (progress : Progress doubles calloc server ac returned cancelled) (empty : ac.replies = []) :
    Steady doubles calloc server (Async.finish env ac) returned cancelled := by
  rw [Async.finish]
  dsimp only
  generalize (if ac.cleanup.freeing = true then Status.ok else if ac.cleanup.err.isNone = true then .ok
    else .err) = status
  by_cases tells : ac.cleanup.onDisconnect = true ∧ ac.cleanup.connected = true
  · rw [if_pos tells]
    exact { progress with
      calls := (replyCalls_disconnect _).trans progress.calls
      whole := fun _ => .inr rfl
      ended := fun _ => empty
      prompt := fun _ => nofun
      channels := nofun
      patterns := nofun }
  · rw [if_neg tells]
    exact { progress with
      whole := fun _ => .inr rfl
      ended := fun _ => empty
      prompt := fun _ => nofun
      channels := nofun
      patterns := nofun }

/-- A connection that is freed while commands are refused has called all its callbacks. -/
theorem redisAsyncFreeContext_leads (progress : Progress doubles calloc server ac returned cancelled)
    (channels : ac.channels = some {}) (patterns : ac.patterns = some {}) (closing : Closing ac) :
    Program.Leads (Async.redisAsyncFreeContext env) ac
      (fun _ last => ∃ cancelled, Steady doubles calloc server last returned cancelled) (fun _ => False) := by
  rw [Async.redisAsyncFreeContext]
  refine Program.Leads.bind _ ((drain_leads calm progress).mono (fun _ _ => id) ?_) ?_
  · rintro fault ⟨-, short⟩
    have less := short closing
    omega
  rintro - last ⟨⟨cancelled, progress⟩, empty, same⟩
  have channels' : last.subs false = some {} := same.channels.trans channels
  have patterns' : (last.setSubs false none).subs true = some {} := same.patterns.trans patterns
  rw [Program.Leads, Program.bind_of_ok (drainInvalid_empty progress.invalid),
    Program.bind_of_ok (releaseSubs_empty channels'),
    Program.bind_of_ok (releaseSubs_empty patterns')]
  have released : Progress doubles calloc server ((last.setSubs false none).setSubs true none) returned cancelled :=
    { progress with }
  exact ⟨cancelled, released.finish empty⟩

omit calm in
/-- A connection without an error called no callback without a reply. -/
theorem Steady.whole_of_fine (steady : Steady doubles calloc server ac returned cancelled) (alive : ac.freed = false)
    (fine : ac.c.err = none) : cancelled = 0 := by
  by_contra some
  rcases steady.whole (Nat.pos_of_ne_zero some) with broken | freed
  · rw [fine] at broken
    exact Bool.false_ne_true broken
  · exact Bool.false_ne_true (alive.symm.trans freed)

omit calm in
/-- The invariant is about no flags but those for the states of a subscription. -/
theorem Steady.keep (steady : Steady doubles calloc server ac returned cancelled) (same : essence last = essence ac) :
    Steady doubles calloc server last returned cancelled := by
  have kept : Steady doubles calloc server (essence ac) returned cancelled := { steady with }
  rw [← same] at kept
  exact { kept with }

omit calm in
/-- The connect callback gives no reply. -/
theorem Steady.connect (steady : Steady doubles calloc server ac returned cancelled) (status : Status) (user : υ) :
    Steady doubles calloc server ({ ac with user := user }.invoke (.connect status)) returned cancelled := by
  have calls : replyCalls ({ ac with user := user }.invoke (.connect status)) = replyCalls ac := by
    simp [replyCalls, RedisAsyncContext.invoke]
  exact { steady with calls := calls.trans steady.calls }

omit calm in
/-- An error alone calls nothing. -/
theorem Steady.fail (steady : Steady doubles calloc server ac returned cancelled) (type : ErrorType) (str : CppString) :
    Steady doubles calloc server { ac with c := ac.c.redisSetError type str } returned cancelled :=
  { steady with
    joined := { steady.joined with }
    whole := fun _ => .inl rfl
    prompt := nofun }

omit calm in
/-- A write touches no reply. -/
theorem Steady.spend (steady : Steady env.doubles env.calloc server ac returned cancelled) {result : SendResult}
    (small : ac.c.obuf.length < 2147483648) (sendable : Sendable ac.c result) :
    Steady env.doubles env.calloc server (spent ac (ac.c.redisBufferWrite env.strerror result).2.2
      (sentBytes ac.c result))
      returned cancelled := by
  obtain ⟨err, spec, -⟩ := redisBufferWrite_spec env.strerror ac.c small sendable
  obtain ⟨joined, -⟩ := @Joined.write _ env.strerror _ _ _ _ steady.joined small result sendable
  have kept := @redisBufferWrite_err _ env.strerror ac.c result
  exact { steady with
    joined := joined
    block := (congrArg RedisContext.block spec).trans steady.block
    whole := fun some => (steady.whole some).imp_left kept
    prompt := fun fine => steady.prompt (Option.not_isSome_iff_eq_none.mp fun broken =>
      Option.isSome_iff_ne_none.mp (kept broken) fine) }

variable (env server) in
/-- The invariant, for some of the replies. -/
def KeepsOrder (ac : RedisAsyncContext δ Fn Priv υ) : Prop :=
  ∃ returned cancelled, Steady env.doubles env.calloc server ac returned cancelled

/-- The handlers keep the order. Only callbacks that give commands without end keep the loop over them from its end. -/
theorem handlerInvariant_steady :
    HandlerInvariant env (fun ac => KeepsOrder env server ac ∧ ac.freed = false) (KeepsOrder env server)
      (· = .running) where
  stays := fun ⟨ordered, _⟩ => ordered
  keep := fun ⟨⟨returned, cancelled, steady⟩, alive⟩ same =>
    ⟨⟨returned, cancelled, steady.keep same⟩, (congrArg RedisAsyncContext.freed same).trans alive⟩
  connect := fun ⟨⟨returned, cancelled, steady⟩, alive⟩ status user =>
    ⟨⟨returned, cancelled, steady.connect status user⟩, alive⟩
  fail := fun ⟨⟨returned, cancelled, steady⟩, alive⟩ type str => ⟨⟨returned, cancelled, steady.fail type str⟩, alive⟩
  spend := fun ⟨⟨returned, cancelled, steady⟩, alive⟩ _ small sendable =>
    ⟨⟨returned, cancelled, steady.spend small sendable⟩, alive⟩
  free := fun ⟨⟨returned, cancelled, steady⟩, alive⟩ closing =>
    (redisAsyncFreeContext_leads calm steady.toProgress (steady.channels alive) (steady.patterns alive) closing).mono
      (fun _ _ ended => ⟨returned, ended⟩) fun _ => id
  drain := by
    rintro ac ⟨⟨returned, cancelled, steady⟩, alive⟩ broken
    rw [Async.drainReplies, Program.leads_get_bind]
    refine (drain_leads calm steady.toProgress).mono ?_ fun _ blamed => blamed.1
    rintro _ last ⟨⟨cancelled, progress⟩, -, same⟩
    have broken' : last.c.err.isSome = true := by rwa [same.err]
    have alive' := same.freed.trans alive
    refine ⟨⟨⟨returned, cancelled, { progress with
      whole := fun _ => .inl broken'
      ended := fun freed => absurd (alive'.symm.trans freed) Bool.false_ne_true
      prompt := fun fine => absurd fine (Option.isSome_iff_ne_none.mp broken')
      channels := fun _ => same.channels.trans (steady.channels alive)
      patterns := fun _ => same.patterns.trans (steady.patterns alive) }⟩, alive'⟩, broken'⟩

end

section

variable {env : Surroundings δ Fn Priv υ} (calm : ∀ fn reply privdata user, Calm (env.call fn reply privdata user))
  (modest : Modest env.calloc)
  (each : ∀ history request, (server history request).Writable env.doubles env.calloc 8)

theorem returned_le_asked {link : Link δ} (joined : Joined env.doubles env.calloc server link)
    (each : ∀ history request, (server history request).Writable env.doubles env.calloc 8) :
    link.returned.length ≤ link.asked.length := by
  have front := (joined.returned_front each).length_le
  rwa [List.length_map, length_answers, List.length_map] at front

/-- A connection whose replies go to its callbacks. -/
structure Delivering (doubles : Doubles δ) (calloc : ℕ → Bool) (server : List (RedisReply δ) → RedisReply δ → Value)
    (ac : RedisAsyncContext δ Fn Priv υ) (returned : List (RedisReply δ)) : Prop extends
    Progress doubles calloc server ac returned 0 where
  fine : ac.c.err = none
  alive : ac.freed = false
  channels : ac.channels = some {}
  patterns : ac.patterns = some {}

theorem Delivering.steady {doubles : Doubles δ} {calloc : ℕ → Bool}
    (delivering : Delivering doubles calloc server ac returned)
    (prompt : complete doubles calloc ac = returned.length) : Steady doubles calloc server ac returned 0 where
  toProgress := delivering.toProgress
  whole := fun none => absurd none (lt_irrefl 0)
  ended := fun freed => absurd (delivering.alive.symm.trans freed) Bool.false_ne_true
  prompt := fun _ _ => prompt
  channels := fun _ => delivering.channels
  patterns := fun _ => delivering.patterns

/-- A connection that does not block takes its replies from the reader alone. -/
theorem redisGetReply_unblocked {c : RedisContext δ} (block : c.block = false) {reply : Option (RedisReply δ)}
    {reader : RedisReader δ}
    (read : c.redisGetReplyFromReader env.doubles env.calloc = some (.ok, reply, { c with reader := reader })) :
    c.redisGetReply env.strerror env.doubles env.calloc [] [] = some (.ok, reply, { c with reader := reader }) := by
  rw [RedisContext.redisGetReply, read, Option.bind_some]
  dsimp only
  rw [if_neg (by decide), if_neg (by rw [block]; exact fun both => Bool.false_ne_true both.2)]

include modest each

/-- A call for a reply gives the next one, or nothing where all of them were given. -/
theorem getReply_spec (progress : Progress env.doubles env.calloc server ac returned cancelled) :
    ∃ reader reply, Async.getReply env ac = .ok ((.ok, reply), turned ac reader) ∧
      Joined env.doubles env.calloc server (link (turned ac reader) (returned ++ reply.toList)) ∧
      (reply = none → complete env.doubles env.calloc ac = returned.length) := by
  obtain ⟨reader, answered, -, joined⟩ := progress.joined.getReply each modest
  have taken := redisGetReply_unblocked progress.block answered
  refine ⟨reader, _, ?_, joined, fun none => ?_⟩
  · rw [Async.getReply, Program.bind_apply, Program.get_apply]
    dsimp only
    dsimp only [link] at taken
    rw [taken]
    rfl
  · have all : replies env.doubles env.calloc ac.history.received = _ := progress.joined.sound each
    have within : returned.length ≤ complete env.doubles env.calloc ac := progress.joined.tracks.within.length_le
    refine le_antisymm ?_ within
    rw [complete, all]
    exact List.getElem?_eq_none_iff.mp none

omit modest each in
/-- A turn of the loop for a reply whose callback waits. -/
theorem processReplies_reply {turns : ℕ} {before cb : RedisCallback Fn Priv}
    {middle shifted : RedisAsyncContext δ Fn Priv υ}
    {reply : RedisReply δ} (ran : Async.getReply env ac = .ok ((.ok, some reply), middle))
    (waits : middle.shiftReply = some (cb, shifted)) :
    Async.processReplies env (turns + 1) before ac =
      Async.handOver env reply (Async.processReplies env turns) cb shifted := by
  rw [Async.processReplies, Program.bind_of_ok ran]
  dsimp only
  rw [Program.bind_apply, Program.get_apply]
  dsimp only
  rw [waits]
  rfl

include calm

/-- Every complete reply goes to the next callback, unless one of them ends the connection. -/
theorem processReplies_leads {turns : ℕ} {cb : RedisCallback Fn Priv}
    (delivering : Delivering env.doubles env.calloc server ac returned) (enough : ac.c.reader.unread.length < turns) :
    Program.Leads (Async.processReplies env turns cb) ac (fun _ last => KeepsOrder env server last)
      (fun _ => False) := by
  induction turns generalizing ac returned cb with
  | zero => omega
  | succ turns ih =>
    obtain ⟨reader, reply, ran, joined, prompt⟩ := getReply_spec modest each delivering.toProgress
    cases reply with
    | none =>
      rw [Option.toList_none, List.append_nil] at joined
      have rested : Delivering env.doubles env.calloc server (turned ac reader) returned :=
        { delivering with joined := joined }
      have steady := rested.steady (prompt rfl)
      rw [Async.processReplies, Program.leads_bind_of_ok ran, Program.leads_get_bind]
      dsimp only
      split_ifs with ends monitors
      · have empty : (turned ac reader).replies = [] := List.isEmpty_iff.mp ends.2.2
        exact (handlerInvariant_steady calm).drop ⟨⟨returned, 0, steady⟩, rested.alive⟩ fun _ => ⟨empty, .inl ends.1⟩
      · exact absurd (rested.quiet.symm.trans monitors) Bool.false_ne_true
      · exact ⟨returned, 0, steady⟩
    | some reply =>
      have asked := returned_le_asked joined each
      have waiting := delivering.replies
      have shorter : reader.unread.length < ac.c.reader.unread.length :=
        delivering.joined.tracks.shrinks (delivering.joined.fine each) joined.tracks
      cases next : ac.replies with
      | nil =>
        have none := congrArg List.length waiting
        have one : (returned ++ [reply]).length ≤ (ac.history.accepted.map fun given => given.2.2).length := asked
        rw [next, List.length_map, List.length_drop, List.length_nil] at none
        rw [List.length_append, List.length_map, List.length_singleton] at one
        omega
      | cons cb' rest =>
        have answer := delivering.toProgress.answer joined next
        generalize shifted : ({ turned ac reader with replies := rest } : RedisAsyncContext δ Fn Priv υ) =
          middle at answer
        have waits : (turned ac reader).shiftReply = some (cb', middle) := by
          rw [← shifted, RedisAsyncContext.shiftReply, turned, next]
        have same : Same middle (called middle cb' (some reply)) := called_sameAs cb' (some reply)
        have delivered : ∀ {last}, Progress env.doubles env.calloc server last (returned ++ [reply]) 0 →
          Same middle last →
            Delivering env.doubles env.calloc server last (returned ++ [reply]) ∧
              last.c.reader.unread.length < turns := by
          intro last progress same
          subst middle
          refine ⟨{ progress with
            fine := same.err.trans delivering.fine
            alive := same.freed.trans delivering.alive
            channels := same.channels.trans delivering.channels
            patterns := same.patterns.trans delivering.patterns }, ?_⟩
          rw [same.reader]
          exact shorter.trans_le (Nat.le_of_lt_succ enough)
        rw [Program.Leads, processReplies_reply ran waits, ← Program.Leads, Async.handOver]
        split_ifs with known
        · have regular : middle.subscribed = false := by
            rw [← shifted]
            exact delivering.regular
          have idle : middle.inCallback = false := by
            rw [← shifted]
            exact delivering.idle
          obtain ⟨last, called, extends'⟩ := redisRunCallback_extends calm regular idle cb' (some reply)
          obtain ⟨delivering', less⟩ := delivered (answer.extends extends') (same.trans extends'.same)
          rw [Program.leads_bind_of_ok called, Program.leads_get_bind]
          split_ifs with frees
          · exact (redisAsyncFreeContext_leads calm delivering'.toProgress delivering'.channels delivering'.patterns
              (.inr frees)).mono (fun _ _ ended => ⟨_, ended⟩) fun _ => id
          · exact ih delivering' less
        · have ignored : called middle cb' (some reply) = middle := by
            rw [called, Option.not_isSome_iff_eq_none.mp known]
          rw [ignored] at answer same
          obtain ⟨delivering', less⟩ := delivered answer same
          exact ih delivering' less

end

end CppRedis.Soundness.Callbacks
