import CppRedis.Machine.Subscribing
import CppRedis.Soundness.Callbacks
import CppRedis.Soundness.Dictionaries

/-! # Subscriptions of an asynchronous connection

The dictionaries of channels and of patterns are one roster of topics: every command that subscribes puts its callback
there with one more confirmation to wait for, and the replies of the server take confirmations and topics off it. So the
roster keeps what its library says, whatever the callbacks do, and a callback is found for every reply.
-/

namespace CppRedis.Soundness.Subscriptions

open Machine Model.Hiredis ReplyStream ReplyRoundTrip Formatting Dictionaries AsyncCommands Handlers
  Callbacks Attendance
open Model.RedisCpp (text)

variable {δ Fn Priv υ : Type}

/-- A channel, or with `true` a pattern. -/
abbrev Topic := Bool × CppString

/-- A function and its data. -/
abbrev Listener (Fn Priv : Type) := Option Fn × Priv

/-- Whether a command is about patterns. -/
def ofPatterns (name : CppString) : Bool := toLower (name.headD 0) = 112

/-- What a command asks for. -/
def requestsOf (given : Given Fn Priv) : List (Attendance Topic (Listener Fn Priv)) :=
  match given.2.2 with
  | [] => []
  | name :: words =>
      match kindOf (name :: words) with
      | some .subscribe => words.map fun word => .enter (ofPatterns name, word) (given.1, given.2.1)
      | some .unsubscribe => words.map fun word => .leave (ofPatterns name, word)
      | _ => []

/-- What the commands of a connection asked for. -/
def requestsOn (ac : RedisAsyncContext δ Fn Priv υ) : List (Attendance Topic (Listener Fn Priv)) :=
  ac.history.accepted.flatMap requestsOf

/-- The topics with their callbacks, and how many confirmations each waits for. -/
def roster (ac : RedisAsyncContext δ Fn Priv υ) : Keyspace Topic (Listener Fn Priv × ℤ) := fun topic =>
  ((ac.subs topic.1).bind fun dict => contents callbackDict dict topic.2).map fun cb =>
    ((cb.fn, cb.privdata), cb.pendingSubs)

theorem callbackDict_compares : Compares callbackDict := fun _ _ => beq_iff_eq

variable {ac last : RedisAsyncContext δ Fn Priv υ}
    {dict next : Dict CppString (RedisCallback Fn Priv)} {pvariant : Bool}
  {name : CppString}

@[simp]
theorem subs_setSubs (dict : Option (Dict CppString (RedisCallback Fn Priv))) (other : Bool) :
    (ac.setSubs pvariant dict).subs other = if other = pvariant then dict else ac.subs other := by
  cases pvariant <;> cases other <;> rfl

theorem setSubs_same (dict : Option (Dict CppString (RedisCallback Fn Priv))) :
    ac.setSubs pvariant dict =
      { ac with channels := (ac.setSubs pvariant dict).channels, patterns := (ac.setSubs pvariant dict).patterns } := by
  cases pvariant <;> rfl

theorem roster_eq (here : ac.subs pvariant = some dict) (name : CppString) :
    roster ac (pvariant, name) = (contents callbackDict dict name).map fun cb =>
      ((cb.fn, cb.privdata), cb.pendingSubs) := by
  rw [roster, here]
  rfl

/-- A store into one dictionary. -/
theorem roster_update (here : ac.subs pvariant = some dict) {entry : Option (RedisCallback Fn Priv)}
    (changed : contents callbackDict next = Function.update (contents callbackDict dict) name entry) :
    roster (ac.setSubs pvariant (some next)) =
      Function.update (roster ac) (pvariant, name) (entry.map fun cb => ((cb.fn, cb.privdata), cb.pendingSubs)) := by
  funext ⟨variant, topic⟩
  rw [roster, subs_setSubs]
  by_cases same : variant = pvariant
  · subst same
    rw [if_pos rfl, Option.bind_some, changed]
    by_cases equal : topic = name
    · subst equal
      rw [Function.update_self, Function.update_self]
    · rw [Function.update_of_ne equal, Function.update_of_ne (fun pair => equal (Prod.mk.inj pair).2), roster_eq here]
  · rw [if_neg same, Function.update_of_ne (fun pair => same (Prod.mk.inj pair).1)]
    rfl

/-- What is kept between requests and confirmations. -/
structure Rostered (names : Finset CppString) (ac : RedisAsyncContext δ Fn Priv υ)
    (requests done : List (Attendance Topic (Listener Fn Priv))) : Prop where
  dicts : ∀ pvariant, ∃ dict, ac.subs pvariant = some dict ∧ Proper callbackDict names dict
  kept : Kept requests done (roster ac)
  flagged : ∀ topic, (roster ac topic).isSome → ac.subscribed = true

variable {names : Finset CppString} {requests done : List (Attendance Topic (Listener Fn Priv))}

/-- The dictionaries after a store into one of them. -/
theorem dicts_setSubs (dicts : ∀ pvariant, ∃ dict, ac.subs pvariant = some dict ∧ Proper callbackDict names dict)
    (proper : Proper callbackDict names next) (other : Bool) :
    ∃ dict, (ac.setSubs pvariant (some next)).subs other = some dict ∧ Proper callbackDict names dict := by
  rw [subs_setSubs]
  split_ifs
  · exact ⟨next, rfl, proper⟩
  · exact dicts other

/-- The loop over the topics of a command. -/
theorem subscribeFrom_spec (few : names.card < 1073741824) {words : List CppString} {turns : ℕ}
    (enough : (bulks words).length < turns) (small : ∀ word ∈ words, word.length < 2147483648)
    (inside : ∀ word ∈ words, word ∈ names) {cb : RedisCallback Fn Priv} (positive : 1 ≤ cb.pendingSubs)
    (dicts : ∀ pvariant, ∃ dict, ac.subs pvariant = some dict ∧ Proper callbackDict names dict)
    (kept : Kept requests done (roster ac)) :
    ∃ last, Async.subscribeFrom pvariant turns cb (bulks words) ac = .ok ((), last) ∧
      last = { ac with channels := last.channels, patterns := last.patterns } ∧
      (∀ pvariant, ∃ dict, last.subs pvariant = some dict ∧ Proper callbackDict names dict) ∧
      Kept (requests ++ words.map fun word => .enter (pvariant, word) (cb.fn, cb.privdata)) done (roster last) := by
  induction words generalizing ac cb turns requests with
  | nil =>
    obtain ⟨turns, rfl⟩ : ∃ count, turns = count + 1 := ⟨turns - 1, by omega⟩
    refine ⟨ac, ?_, rfl, dicts, by rwa [List.map_nil, List.append_nil]⟩
    rw [Async.subscribeFrom]
    rfl
  | cons word words ih =>
    obtain ⟨turns, rfl⟩ : ∃ count, turns = count + 1 := ⟨turns - 1, by omega⟩
    obtain ⟨dict, here, proper⟩ := dicts pvariant
    rw [bulks_cons, List.length_append] at enough
    have bytes : 0 < (Value.string word).encode.length := by
      rw [length_string, bulklen]
      omega
    obtain ⟨next, proper', changed, replaced⟩ := dictReplace_spec callbackDict_compares few proper
      (inside word List.mem_cons_self) (cb.renewed (dict.dictFind callbackDict word))
    have ran : Async.subscribeFrom pvariant (turns + 1) cb (bulks (word :: words)) ac =
        Async.subscribeFrom pvariant turns (cb.renewed (dict.dictFind callbackDict word)) (bulks words)
          (ac.setSubs pvariant (some next)) := by
      rw [Async.subscribeFrom, bulks_cons, nextArgument_string (small word List.mem_cons_self)]
      dsimp only
      rw [Program.bind_apply, Program.get_apply]
      dsimp only
      rw [here]
      dsimp only
      rw [List.take_left, replaced]
      rfl
    rw [dictFind_eq callbackDict_compares] at changed ran
    obtain ⟨new, renewed, listener, waits, above⟩ :
      ∃ new, cb.renewed ((contents callbackDict dict word).map (word, ·)) = new ∧
        (new.fn, new.privdata) = (cb.fn, cb.privdata) ∧ 1 ≤ new.pendingSubs ∧
        ∀ old before, roster ac (pvariant, word) = some (old, before) → before + 1 ≤ new.pendingSubs := by
      rw [roster_eq here]
      cases existing : contents callbackDict dict word with
      | none =>
        refine ⟨cb, rfl, rfl, positive, ?_⟩
        rintro old before ⟨⟩
      | some existcb =>
        have topic : roster ac (pvariant, word) = some ((existcb.fn, existcb.privdata), existcb.pendingSubs) := by
          rw [roster_eq here, existing]
          rfl
        have nonneg := kept.nonneg topic
        refine ⟨{ cb with pendingSubs := existcb.pendingSubs + 1 }, rfl, rfl, by dsimp only; omega, ?_⟩
        rintro old before ⟨⟩
        exact le_refl _
    rw [renewed] at changed ran
    have kept' := kept.enter (new.fn, new.privdata) waits above
    have stored : roster (ac.setSubs pvariant (some next)) =
        (roster ac).put (pvariant, word) ((new.fn, new.privdata), new.pendingSubs) := roster_update here changed
    rw [← stored] at kept'
    have later : (bulks words).length < turns := by omega
    obtain ⟨last, done', same, dicts', kept''⟩ :=
      ih later (fun word member => small word (List.mem_cons_of_mem _ member))
      (fun word member => inside word (List.mem_cons_of_mem _ member)) waits (dicts_setSubs dicts proper') kept'
    refine ⟨last, ran.trans done', ?_, dicts', ?_⟩
    · rw [same, setSubs_same]
    · rw [listener, List.append_assoc] at kept''
      exact kept''

/-- Commands that subscribe to known topics, and commands that end the subscription of some topics. -/
def Subscribes (names : Finset CppString) (argv : List CppString) : Prop :=
  (command argv).length < 2147483647 ∧
    (kindOf argv = some .subscribe ∧ (∀ word ∈ argv.tail, word ∈ names) ∨
      kindOf argv = some .unsubscribe ∧ argv.tail ≠ [])

instance (names : Finset CppString) (argv : List CppString) : Decidable (Subscribes names argv) := by
  unfold Subscribes
  infer_instance

/-- What commands, callbacks and the end of the dictionaries leave of a connection. -/
structure Leaves (ac last : RedisAsyncContext δ Fn Priv υ) : Prop where
  reader : last.c.reader = ac.c.reader
  err : last.c.err = ac.c.err
  block : last.c.block = ac.c.block
  replies : last.replies = ac.replies
  invalid : last.invalid = ac.invalid
  monitoring : last.monitoring = ac.monitoring
  freed : last.freed = ac.freed
  received : last.history.received = ac.history.received
  invoked : last.history.invoked = ac.history.invoked
  moments : last.history.moments = ac.history.moments
  accepted : ac.history.accepted <+: last.history.accepted

/-- What commands and callbacks leave of a connection. -/
structure AfterCommands (ac last : RedisAsyncContext δ Fn Priv υ) : Prop extends Leaves ac last where
  closing : Closing ac → Closing last ∧ last.channels = ac.channels ∧ last.patterns = ac.patterns ∧
    last.history.accepted = ac.history.accepted

theorem AfterCommands.flags (ac : RedisAsyncContext δ Fn Priv υ) (user : υ) {disconnecting freeing : Bool}
    (noAutoFree : Bool)
    (disconnects : ac.disconnecting = true → disconnecting = true) (frees : ac.freeing = true → freeing = true) :
    AfterCommands ac
      { ac with user := user, disconnecting := disconnecting, freeing := freeing, noAutoFree := noAutoFree } :=
  ⟨⟨rfl, rfl, rfl, rfl, rfl, rfl, rfl, rfl, rfl, rfl, List.prefix_rfl⟩,
    fun closing => ⟨closing.imp disconnects frees, rfl, rfl, rfl⟩⟩

theorem Leaves.trans {middle : RedisAsyncContext δ Fn Priv υ} (first : Leaves ac middle) (second : Leaves middle last) :
    Leaves ac last where
  reader := second.reader.trans first.reader
  err := second.err.trans first.err
  block := second.block.trans first.block
  replies := second.replies.trans first.replies
  invalid := second.invalid.trans first.invalid
  monitoring := second.monitoring.trans first.monitoring
  freed := second.freed.trans first.freed
  received := second.received.trans first.received
  invoked := second.invoked.trans first.invoked
  moments := second.moments.trans first.moments
  accepted := first.accepted.trans second.accepted

theorem AfterCommands.refl (ac : RedisAsyncContext δ Fn Priv υ) : AfterCommands ac ac :=
    .flags ac ac.user ac.noAutoFree id id

theorem AfterCommands.trans {middle : RedisAsyncContext δ Fn Priv υ} (first : AfterCommands ac middle)
    (second : AfterCommands middle last) :
    AfterCommands ac last where
  toLeaves := first.toLeaves.trans second.toLeaves
  closing closing := by
    obtain ⟨closing', channels, patterns, accepted⟩ := first.closing closing
    obtain ⟨closing'', channels', patterns', accepted'⟩ := second.closing closing'
    exact ⟨closing'', channels'.trans channels, patterns'.trans patterns, accepted'.trans accepted⟩

/-- A roster over another state with the same dictionaries. -/
theorem Rostered.keep (rostered : Rostered names ac requests done) (channels : last.channels = ac.channels)
    (patterns : last.patterns = ac.patterns) (subscribed : ac.subscribed = true → last.subscribed = true) :
    Rostered names last requests done := by
  have subs : last.subs = ac.subs := by
    funext pvariant
    rw [RedisAsyncContext.subs, RedisAsyncContext.subs, channels, patterns]
  have same : roster last = roster ac := by
    funext topic
    rw [roster, roster, subs]
  refine ⟨fun pvariant => ?_, ?_, fun topic there => ?_⟩
  · rw [subs]
    exact rostered.dicts pvariant
  · rw [same]
    exact rostered.kept
  · rw [same] at there
    exact subscribed (rostered.flagged topic there)

/-- A command is refused before the end. -/
theorem redisAsyncCommandArgv_closed (closing : Closing ac) {argv : List CppString} (subscribes : Subscribes names argv)
    (fn : Option Fn) (privdata : Priv) : Async.redisAsyncCommandArgv fn privdata argv ac = .ok (.err, ac) := by
  obtain ⟨small, kinds⟩ := subscribes
  have ends : ac.disconnecting ∨ ac.freeing := closing
  cases argv with
  | nil => simp [kindOf] at kinds
  | cons name words =>
    obtain ⟨kind, known⟩ : ∃ kind, kindOf (name :: words) = some kind :=
      kinds.elim (fun kind => ⟨_, kind.1⟩) fun kind => ⟨_, kind.1⟩
    rw [redisAsyncCommandArgv_eq small known, Program.bind_apply, request, Program.bind_apply, Program.get_apply]
    dsimp only
    rw [if_pos ends]
    rfl

/-- A command that subscribes or ends subscriptions. -/
theorem redisAsyncCommandArgv_afterCommands (few : names.card < 1073741824)
    (rostered : Rostered names ac (requestsOn ac) done)
    {argv : List CppString} (subscribes : Subscribes names argv) (fn : Option Fn) (privdata : Priv) :
    ∃ status last, Async.redisAsyncCommandArgv fn privdata argv ac = .ok (status, last) ∧ AfterCommands ac last ∧
      Rostered names last (requestsOn last) done := by
  by_cases opened : Closing ac
  · exact ⟨.err, ac, redisAsyncCommandArgv_closed opened subscribes fn privdata, .refl ac, rostered⟩
  have closing : ¬(ac.disconnecting ∨ ac.freeing) := opened
  obtain ⟨small, kinds⟩ := subscribes
  cases argv with
  | nil => simp [kindOf] at kinds
  | cons name words =>
    have requests : ∀ ac : RedisAsyncContext δ Fn Priv υ,
      requestsOn (accept (put ac (name :: words)) fn privdata (name :: words)) =
        requestsOn ac ++ requestsOf (fn, privdata, name :: words) := by
      intro ac
      rw [requestsOn, accept]
      dsimp only
      rw [List.flatMap_append, List.flatMap_singleton]
      rfl
    rcases kinds with ⟨known, inside⟩ | ⟨known, -⟩
    · have asked : requestsOf (fn, privdata, name :: words) = words.map fun word =>
          .enter (ofPatterns name, word) (fn, privdata) := by
        rw [requestsOf]
        dsimp only
        rw [known]
      have dicts : ∀ pvariant, ∃ dict, { ac with subscribed := true }.subs pvariant = some dict ∧
          Proper callbackDict names dict := rostered.dicts
      obtain ⟨middle, ran, same, dicts', kept⟩ := @subscribeFrom_spec _ _ _ _ _ (ofPatterns name) _ _ _ few words _
        (Nat.lt_succ_self (bulks words).length)
        (fun word member => (argument_lt_command (List.mem_cons_of_mem name member)).trans (by omega)) inside
        ⟨fn, 1, privdata⟩ (le_refl _) dicts rostered.kept
      have issued : request .subscribe fn privdata name words ac = .ok (.ok, put middle (name :: words)) := by
        rw [request, Program.bind_apply, Program.get_apply]
        dsimp only
        rw [if_neg closing, issue, Program.bind_apply, Program.get_apply]
        dsimp only
        rw [Program.bind_apply, Program.modify_apply]
        dsimp only
        rw [← ofPatterns, Program.bind_of_ok ran]
        rfl
      refine ⟨.ok, accept (put middle (name :: words)) fn privdata (name :: words), ?_, ?_, ?_⟩
      · rw [redisAsyncCommandArgv_eq small known, Program.bind_of_ok issued]
        rfl
      · rw [same]
        exact ⟨⟨rfl, rfl, rfl, rfl, rfl, rfl, rfl, rfl, rfl, rfl, List.prefix_append _ _⟩,
          fun refused => absurd refused opened⟩
      · rw [requests, asked]
        have before : requestsOn middle = requestsOn ac := by
          rw [same]
          rfl
        have flag : middle.subscribed = true := by rw [same]
        rw [before]
        exact ⟨dicts', kept, fun _ _ => flag⟩
    · have asked : requestsOf (fn, privdata, name :: words) =
          (words.map fun word => (ofPatterns name, word)).map .leave := by
        rw [requestsOf]
        dsimp only
        rw [known, List.map_map]
        rfl
      by_cases flag : ac.subscribed = true
      · have issued : request .unsubscribe fn privdata name words ac = .ok (.ok, put ac (name :: words)) := by
          rw [request, Program.bind_apply, Program.get_apply]
          dsimp only
          rw [if_neg closing, issue, Program.bind_apply, Program.get_apply]
          dsimp only
          rw [if_pos flag]
          rfl
        refine ⟨.ok, accept (put ac (name :: words)) fn privdata (name :: words), ?_, ?_, ?_⟩
        · rw [redisAsyncCommandArgv_eq small known, Program.bind_of_ok issued]
          rfl
        · exact ⟨⟨rfl, rfl, rfl, rfl, rfl, rfl, rfl, rfl, rfl, rfl, List.prefix_append _ _⟩,
            fun refused => absurd refused opened⟩
        · rw [requests, asked]
          exact ⟨rostered.dicts, rostered.kept.leaveAll _, rostered.flagged⟩
      · have issued : request .unsubscribe fn privdata name words ac = .ok (.err, ac) := by
          rw [request, Program.bind_apply, Program.get_apply]
          dsimp only
          rw [if_neg closing, issue, Program.bind_apply, Program.get_apply]
          dsimp only
          rw [if_neg flag]
          rfl
        refine ⟨.err, ac, ?_, .refl ac, rostered⟩
        rw [redisAsyncCommandArgv_eq small known, Program.bind_of_ok issued]
        rfl

/-- Scripts whose commands subscribe or end subscriptions. -/
def Attentive (names : Finset CppString) : Script Fn Priv υ → Prop
  | .done _ => True
  | .command _ _ argv next => Subscribes names argv ∧ ∀ status, Attentive names (next status)
  | .disconnect next | .free next => Attentive names next

theorem runScript_afterCommands (few : names.card < 1073741824) {script : Script Fn Priv υ}
    (attentive : Attentive names script)
    (rostered : Rostered names ac (requestsOn ac) done) :
    ∃ last, Async.runScript script ac = .ok ((), last) ∧ AfterCommands ac last ∧
      Rostered names last (requestsOn last) done := by
  induction script generalizing ac with
  | done user => exact ⟨{ ac with user := user }, rfl, .flags ac user ac.noAutoFree id id, rostered.keep rfl rfl id⟩
  | command fn privdata argv next ih =>
    obtain ⟨status, middle, ran, after, rostered'⟩ :=
      redisAsyncCommandArgv_afterCommands few rostered attentive.1 fn privdata
    obtain ⟨last, ran', after', rostered''⟩ := ih status (attentive.2 status) rostered'
    refine ⟨last, ?_, after.trans after', rostered''⟩
    rw [Async.runScript, Program.bind_of_ok ran]
    exact ran'
  | disconnect next ih =>
    have flagged : Rostered names { ac with disconnecting := true, noAutoFree := false } (requestsOn ac) done :=
      rostered.keep rfl rfl id
    obtain ⟨last, ran, after, rostered'⟩ := ih attentive flagged
    exact ⟨last, ran, (AfterCommands.flags ac ac.user false (fun _ => rfl) id).trans after, rostered'⟩
  | free next ih =>
    have flagged : Rostered names { ac with freeing := true } (requestsOn ac) done := rostered.keep rfl rfl id
    obtain ⟨last, ran, after, rostered'⟩ := ih attentive flagged
    exact ⟨last, ran, (AfterCommands.flags ac ac.user ac.noAutoFree id fun _ => rfl).trans after, rostered'⟩

/-- Before the end a callback only leaves flags. -/
theorem runScript_closed {script : Script Fn Priv υ} (attentive : Attentive names script) (closing : Closing ac) :
    ∃ last, Async.runScript script ac = .ok ((), last) ∧ AfterCommands ac last := by
  induction script generalizing ac with
  | done user => exact ⟨{ ac with user := user }, rfl, .flags ac user ac.noAutoFree id id⟩
  | command fn privdata argv next ih =>
    obtain ⟨last, ran, after⟩ := ih .err (attentive.2 .err) closing
    refine ⟨last, ?_, after⟩
    rw [Async.runScript, Program.bind_of_ok (redisAsyncCommandArgv_closed closing attentive.1 fn privdata)]
    exact ran
  | disconnect next ih =>
    have flagged : Closing { ac with disconnecting := true, noAutoFree := false } := .inl rfl
    obtain ⟨last, ran, after⟩ := ih attentive flagged
    exact ⟨last, ran, (AfterCommands.flags ac ac.user false (fun _ => rfl) id).trans after⟩
  | free next ih =>
    have flagged : Closing { ac with freeing := true } := .inr rfl
    obtain ⟨last, ran, after⟩ := ih attentive flagged
    exact ⟨last, ran, (AfterCommands.flags ac ac.user ac.noAutoFree id fun _ => rfl).trans after⟩

variable {env : Surroundings δ Fn Priv υ}

/-- A callback was called once it returns, and left the connection to its commands. -/
theorem redisRunCallback_afterCommands (few : names.card < 1073741824)
    (attentive : ∀ fn reply privdata user, Attentive names (env.call fn reply privdata user))
    (rostered : Rostered names ac (requestsOn ac) done) (cb : RedisCallback Fn Priv) (reply : Option (RedisReply δ)) :
    ∃ last, Async.redisRunCallback env cb reply ac = .ok ((), last) ∧ AfterCommands (called ac cb reply) last ∧
      Rostered names last (requestsOn last) done := by
  rw [Async.redisRunCallback, called]
  cases cb.fn with
  | none => exact ⟨ac, rfl, .refl ac, rostered⟩
  | some fn =>
    have entered : Rostered names ({ ac with inCallback := true }.invoke (.reply fn reply cb.privdata))
        (requestsOn ac) done :=
      rostered.keep rfl rfl id
    obtain ⟨last, ran, after, rostered'⟩ := runScript_afterCommands few (attentive fn reply cb.privdata ac.user) entered
    refine ⟨{ last with inCallback := false }, ?_, { after with }, rostered'.keep rfl rfl id⟩
    exact @Program.bind_of_ok _ _ _ _ _ (fun _ => modify fun ac => { ac with inCallback := false }) _ _ _ ran

theorem redisRunCallback_closed
    (attentive : ∀ fn reply privdata user, Attentive names (env.call fn reply privdata user))
    (closing : Closing ac) (cb : RedisCallback Fn Priv) (reply : Option (RedisReply δ)) :
    ∃ last, Async.redisRunCallback env cb reply ac = .ok ((), last) ∧ AfterCommands (called ac cb reply) last := by
  rw [Async.redisRunCallback, called]
  cases cb.fn with
  | none => exact ⟨ac, rfl, .refl ac⟩
  | some fn =>
    have entered : Closing ({ ac with inCallback := true }.invoke (.reply fn reply cb.privdata)) := closing
    obtain ⟨last, ran, after⟩ := runScript_closed (attentive fn reply cb.privdata ac.user) entered
    refine ⟨{ last with inCallback := false }, ?_, { after with }⟩
    exact @Program.bind_of_ok _ _ _ _ _ (fun _ => modify fun ac => { ac with inCallback := false }) _ _ _ ran

/-- What a server sends to a connection with subscriptions. -/
inductive Push (Fn Priv : Type) where
  | confirm (request : Attendance Topic (Listener Fn Priv)) (count : ℤ)
  | message (topic : Topic) (rest : List Value)

/-- The first word of a reply. -/
def kindText (pvariant : Bool) (word : CppString) : CppString := if pvariant then 112 :: word else word

namespace Push

def topic : Push Fn Priv → Topic
  | .confirm request _ => request.topic
  | .message topic _ => topic

def notice : Push Fn Priv → Notice Topic (Listener Fn Priv)
  | .confirm request _ => .confirm request
  | .message topic _ => .message topic

def value : Push Fn Priv → Value
  | .confirm (.enter topic _) count =>
      .aggregate .array [.string (kindText topic.1 (text "subscribe")), .string topic.2, .integer count]
  | .confirm (.leave topic) count =>
      .aggregate .array [.string (kindText topic.1 (text "unsubscribe")), .string topic.2, .integer count]
  | .message topic rest => .aggregate .array (.string (kindText topic.1 (text "message")) :: .string topic.2 :: rest)

end Push

/-- What the code finds in the first word. -/
theorem kindText_spec {word : CppString} (known : word ∈ [text "subscribe", text "unsubscribe", text "message"])
    (pvariant : Bool) :
    decide (toLower ((kindText pvariant word).headD 0) = 112) = pvariant ∧
      (cStr (if toLower ((kindText pvariant word).headD 0) = 112 then (kindText pvariant word).tail
        else kindText pvariant word)).map toLower = word := by
  simp only [List.mem_cons, List.not_mem_nil, or_false] at known
  rcases known with rfl | rfl | rfl <;> cases pvariant <;> decide +kernel

/-- What the code does where it finds the callback for a topic. -/
def foundCallback (pvariant : Bool) (word name : CppString) (dict : Dict CppString (RedisCallback Fn Priv))
    (cb : RedisCallback Fn Priv) (rest : List (Option (RedisReply δ))) (ac : RedisAsyncContext δ Fn Priv υ) :
    Async δ Fn Priv υ (RedisCallback Fn Priv) :=
  if word = text "subscribe" then do
    set (ac.setSubs pvariant (some (dict.setEntry callbackDict name { cb with pendingSubs := cb.pendingSubs - 1 })))
    return { cb with pendingSubs := cb.pendingSubs - 1 }
  else if word = text "unsubscribe" then do
    if cb.pendingSubs = 0 then set (ac.setSubs pvariant (some (dict.dictDelete callbackDict name).2))
    match rest with
    | some (.mk .integer count _ _ _) :: _ =>
        modify fun ac =>
          if count = 0 ∧ ac.channels.all (·.used = 0) ∧ ac.patterns.all (·.used = 0) then
            { ac with subscribed := false }
          else ac
        return cb
    | _ => throw .crash
  else return cb

theorem redisGetSubscribeCallback_found {word : CppString}
    (known : word ∈ [text "subscribe", text "unsubscribe", text "message"]) (here : ac.subs pvariant = some dict)
    {cb : RedisCallback Fn Priv} (found : contents callbackDict dict name = some cb) (before : RedisCallback Fn Priv)
    (rest : List (Option (RedisReply δ))) :
    Async.redisGetSubscribeCallback
        (.mk .array 0 none none (some (.createString .string (kindText pvariant word)) :: some
          (.createString .string name) :: rest))
        before ac = foundCallback pvariant word name dict cb rest ac ac := by
  obtain ⟨variant, action⟩ := kindText_spec known pvariant
  rw [Async.redisGetSubscribeCallback, Program.bind_apply, Program.get_apply]
  dsimp only [RedisReply.createString]
  simp only [variant, action]
  rw [here]
  dsimp only
  rw [dictFind_eq callbackDict_compares, found]
  rfl

/-- A dictionary with an entry. -/
theorem contents_some (proper : Proper callbackDict names dict) {cb : RedisCallback Fn Priv}
    (found : contents callbackDict dict name = some cb) : 0 < dict.size ∧ name ∈ names ∧ 0 < dict.used := by
  have member := (held_eq_some_iff proper.settled).mp found
  have inside := proper.within name (List.mem_map.mpr ⟨(name, cb), member, rfl⟩)
  have used : 0 < dict.used := by
    rw [proper.used]
    exact List.length_pos_of_mem member
  exact ⟨used.trans_le proper.room, inside, used⟩

/-- The topic of a reply has a callback, in one of the dictionaries. -/
theorem Rostered.found (rostered : Rostered names ac requests done) {topic : Topic} (there : (roster ac topic).isSome) :
    ∃ dict cb, ac.subs topic.1 = some dict ∧ Proper callbackDict names dict ∧
      contents callbackDict dict topic.2 = some cb ∧
      roster ac topic = some ((cb.fn, cb.privdata), cb.pendingSubs) ∧
        subscriber requests topic = some (cb.fn, cb.privdata) ∧
      ac.subscribed = true := by
  obtain ⟨dict, here, proper⟩ := rostered.dicts topic.1
  have entry : roster ac topic = _ := roster_eq here topic.2
  rw [entry] at there
  obtain ⟨cb, found⟩ := Option.isSome_iff_exists.mp (Option.isSome_map.symm.trans there)
  rw [found, Option.map_some] at entry
  exact ⟨dict, cb, here, proper, found, entry, (rostered.kept.known topic _ _ entry).1,
    rostered.flagged topic (by rw [entry]; rfl)⟩

/-- A state with another entry in a dictionary. -/
theorem stored_same (dict : Dict CppString (RedisCallback Fn Priv)) :
    ac.setSubs pvariant (some dict) =
      { ac with
        channels := (ac.setSubs pvariant (some dict)).channels
        patterns := (ac.setSubs pvariant (some dict)).patterns
        subscribed := (ac.setSubs pvariant (some dict)).subscribed } := by
  cases pvariant <;> rfl

/-- A reply that says that a topic was entered. -/
theorem redisGetSubscribeCallback_enter (rostered : Rostered names ac requests done) {topic : Topic}
    {who : Listener Fn Priv}
    (front : done ++ [.enter topic who] <+: requests) (before : RedisCallback Fn Priv)
    (doubles : Doubles δ) (count : ℤ) :
    ∃ cb last, Async.redisGetSubscribeCallback
      ((Push.confirm (.enter topic who) count).value.object doubles) before ac =
        .ok (cb, last) ∧ subscriber requests topic = some (cb.fn, cb.privdata) ∧
      last = { ac with channels := last.channels, patterns := last.patterns, subscribed := last.subscribed } ∧
      Rostered names last requests (done ++ [.enter topic who]) := by
  obtain ⟨dict, cb, here, proper, found, entry, known, flag⟩ := rostered.found (rostered.kept.there_enter front)
  obtain ⟨size, inside, -⟩ := contents_some proper found
  obtain ⟨proper', changed⟩ := setEntry_spec callbackDict_compares proper size (by rw [found]; rfl) inside
    { cb with pendingSubs := cb.pendingSubs - 1 }
  have stored := roster_update here changed
  have kept := rostered.kept.confirm_enter front entry
  have word : text "subscribe" ∈ [text "subscribe", text "unsubscribe", text "message"] := by simp
  refine ⟨{ cb with pendingSubs := cb.pendingSubs - 1 },
    ac.setSubs topic.1 (some (dict.setEntry callbackDict topic.2 { cb with pendingSubs := cb.pendingSubs - 1 })), ?_,
    known,
    stored_same _, dicts_setSubs rostered.dicts proper', ?_, fun _ _ => ?_⟩
  · have ran := redisGetSubscribeCallback_found word here found before [some (.createInteger count : RedisReply δ)]
    unfold foundCallback at ran
    rw [if_pos rfl] at ran
    exact ran
  · rw [stored]
    exact kept
  · rw [stored_same]
    cases topic.1 <;> exact flag

/-- The end of the subscriptions, where none is left. -/
def unflagged (count : ℤ) (ac : RedisAsyncContext δ Fn Priv υ) : RedisAsyncContext δ Fn Priv υ :=
  if count = 0 ∧ ac.channels.all (·.used = 0) ∧ ac.patterns.all (·.used = 0) then { ac with subscribed := false }
  else ac

theorem unflagged_same (count : ℤ) :
    unflagged count ac = { ac with subscribed := (unflagged count ac).subscribed } := by
  rw [unflagged]
  split_ifs <;> rfl

theorem Rostered.unflagged (rostered : Rostered names ac requests done) (count : ℤ) :
    Rostered names (unflagged count ac) requests done := by
  rw [Subscriptions.unflagged]
  split_ifs with none
  · refine ⟨rostered.dicts, rostered.kept, fun topic there => ?_⟩
    have there : (roster ac topic).isSome := there
    obtain ⟨dict, cb, here, proper, found, -⟩ := rostered.found there
    obtain ⟨-, -, used⟩ := contents_some proper found
    have empty : dict.used = 0 := by
      obtain ⟨variant, name⟩ := topic
      cases variant
      · have all := none.2.1
        have here : ac.channels = some dict := here
        rw [here] at all
        exact of_decide_eq_true all
      · have all := none.2.2
        have here : ac.patterns = some dict := here
        rw [here] at all
        exact of_decide_eq_true all
    omega
  · exact rostered

/-- A reply that says that a topic was left. -/
theorem redisGetSubscribeCallback_leave (rostered : Rostered names ac requests done) {topic : Topic}
    (front : done ++ [.leave topic] <+: requests) (entered : Entered done topic = true) (before : RedisCallback Fn Priv)
    (doubles : Doubles δ) (count : ℤ) :
    ∃ cb last, Async.redisGetSubscribeCallback ((Push.confirm (.leave topic) count : Push Fn Priv).value.object doubles)
        before ac =
        .ok (cb, last) ∧ subscriber requests topic = some (cb.fn, cb.privdata) ∧
      last = { ac with channels := last.channels, patterns := last.patterns, subscribed := last.subscribed } ∧
      Rostered names last requests (done ++ [.leave topic]) := by
  obtain ⟨dict, cb, here, proper, found, entry, known, flag⟩ :=
    rostered.found (rostered.kept.there topic (.inl entered))
  have word : text "unsubscribe" ∈ [text "subscribe", text "unsubscribe", text "message"] := by simp
  have ran := redisGetSubscribeCallback_found word here found before [some (.createInteger count : RedisReply δ)]
  unfold foundCallback at ran
  rw [if_neg (by decide +kernel), if_pos rfl] at ran
  obtain ⟨middle, same, rostered'⟩ : ∃ middle,
      middle = (if cb.pendingSubs = 0 then ac.setSubs topic.1 (some (dict.dictDelete callbackDict topic.2).2) else ac) ∧
      Rostered names middle requests (done ++ [.leave topic]) := by
    refine ⟨_, rfl, ?_⟩
    split_ifs with last
    · rw [last] at entry
      obtain ⟨proper', changed, -⟩ := dictDelete_spec callbackDict_compares proper topic.2
      have stored := roster_update here changed
      refine ⟨dicts_setSubs rostered.dicts proper', ?_, fun _ _ => ?_⟩
      · rw [stored]
        exact rostered.kept.confirm_last front entry
      · rw [stored_same]
        cases topic.1 <;> exact flag
    · exact ⟨rostered.dicts, rostered.kept.confirm_leave front, rostered.flagged⟩
  refine ⟨cb, unflagged count middle, ?_, known, ?_, rostered'.unflagged count⟩
  · rw [same]
    by_cases last : cb.pendingSubs = 0
    · rw [if_pos last] at ran ⊢
      exact ran
    · rw [if_neg last] at ran ⊢
      exact ran
  · rw [unflagged_same, same]
    split_ifs
    · rw [stored_same]
    · rfl

/-- A message. -/
theorem redisGetSubscribeCallback_message (rostered : Rostered names ac requests done) {topic : Topic}
    (entered : Entered done topic = true) (before : RedisCallback Fn Priv) (doubles : Doubles δ) (rest : List Value) :
    ∃ cb, Async.redisGetSubscribeCallback ((Push.message topic rest : Push Fn Priv).value.object doubles) before ac =
        .ok (cb, ac) ∧ subscriber requests topic = some (cb.fn, cb.privdata) := by
  obtain ⟨dict, cb, here, proper, found, entry, known, flag⟩ :=
    rostered.found (rostered.kept.there topic (.inl entered))
  have word : text "message" ∈ [text "subscribe", text "unsubscribe", text "message"] := by simp
  refine ⟨cb, ?_, known⟩
  have ran := redisGetSubscribeCallback_found word here found before ((Value.objects doubles rest).map some)
  unfold foundCallback at ran
  rw [if_neg (by decide +kernel), if_neg (by decide +kernel)] at ran
  exact ran

/-- What comes next finds the callback of its topic, where the connection listens. -/
theorem redisGetSubscribeCallback_push (rostered : Rostered names ac requests done) {push : Push Fn Priv}
    (follows : Follows requests done push.notice) (before : RedisCallback Fn Priv) (doubles : Doubles δ) :
    ∃ cb last, Async.redisGetSubscribeCallback (push.value.object doubles) before ac = .ok (cb, last) ∧
      subscriber requests push.topic = some (cb.fn, cb.privdata) ∧
      last = { ac with channels := last.channels, patterns := last.patterns, subscribed := last.subscribed } ∧
      Rostered names last requests (done ++ confirmed [push.notice]) := by
  cases push with
  | confirm request count =>
    cases request with
    | enter topic who => exact redisGetSubscribeCallback_enter rostered follows before doubles count
    | leave topic => exact redisGetSubscribeCallback_leave rostered follows.1 follows.2 before doubles count
  | message topic rest =>
    obtain ⟨cb, ran, known⟩ := redisGetSubscribeCallback_message rostered follows before doubles rest
    refine ⟨cb, ac, ran, known, rfl, ?_⟩
    have none : done ++ confirmed [(Push.message topic rest : Push Fn Priv).notice] = done := List.append_nil done
    rwa [none]

/-- A connection listens as long as something comes. -/
theorem Rostered.listens (rostered : Rostered names ac requests done) {push : Push Fn Priv}
    (follows : Follows requests done push.notice) : ac.subscribed = true := by
  cases push with
  | confirm request count =>
    cases request with
    | enter topic who => exact rostered.flagged topic (rostered.kept.there_enter follows)
    | leave topic => exact rostered.flagged topic (rostered.kept.there topic (.inl follows.2))
  | message topic rest => exact rostered.flagged topic (rostered.kept.there topic (.inl follows))

end CppRedis.Soundness.Subscriptions
