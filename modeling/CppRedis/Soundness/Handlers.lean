import CppRedis.Soundness.AsyncCommands

/-! # Handlers of an asynchronous connection

What an event library calls, over any invariant of a connection that flags, the connect callback, errors and a write
leave as it is, and that lets a connection come to its end where commands are refused. The handlers and the calls for
the end keep it, or bring the connection to its end.
-/

namespace CppRedis.Soundness.Handlers

open Machine Model.Hiredis Pipelining

variable {δ Fn Priv υ : Type}

/-- Whether commands are refused. -/
def Closing (ac : RedisAsyncContext δ Fn Priv υ) : Prop := ac.disconnecting = true ∨ ac.freeing = true

/-- A connection without what only the program and the event library see. -/
def essence (ac : RedisAsyncContext δ Fn Priv υ) : RedisAsyncContext δ Fn Priv Unit :=
  { ac with
    connected := false
    disconnecting := false
    freeing := false
    noAutoFree := false
    err := none
    onConnect := false
    onDisconnect := false
    reading := false
    writing := false
    user := () }

/-- A connection that bytes came to. -/
def gained (ac : RedisAsyncContext δ Fn Priv υ) (c : RedisContext δ) (buf : CppString) :
    RedisAsyncContext δ Fn Priv υ :=
  { ac with c := c, history := { ac.history with received := ac.history.received ++ buf } }

/-- A connection that bytes left. -/
def spent (ac : RedisAsyncContext δ Fn Priv υ) (c : RedisContext δ) (buf : CppString) : RedisAsyncContext δ Fn Priv υ :=
  { ac with c := c, history := { ac.history with sent := ac.history.sent ++ buf } }

/-- A write heals no error. -/
theorem redisBufferWrite_err {strerror : Errno → CppString} {c : RedisContext δ} {result : SendResult}
    (broken : c.err.isSome = true) : (c.redisBufferWrite strerror result).2.2.err.isSome = true := by
  rw [RedisContext.redisBufferWrite, if_pos broken]
  exact broken

/-- A read fails with an error. -/
theorem redisBufferRead_status (strerror : Errno → CppString) {c : RedisContext δ} (fine : c.reader.err = none)
    (result : RecvResult) :
    (c.redisBufferRead strerror result).1 = .err ∧ (c.redisBufferRead strerror result).2.err.isSome = true ∨
      (c.redisBufferRead strerror result).1 = .ok ∧ (c.redisBufferRead strerror result).2.err = none ∧
        c.err = none := by
  rw [RedisContext.redisBufferRead]
  cases broken : c.err with
  | some error =>
    rw [if_pos Option.isSome_some]
    exact .inl ⟨rfl, by rw [broken]; rfl⟩
  | none =>
    rw [if_neg (by simp)]
    cases result with
    | bytes buf =>
      rw [RedisContext.redisNetRead]
      dsimp only
      split_ifs with positive
      · rw [redisReaderFeed, if_neg (by rw [fine]; simp)]
        exact .inr ⟨rfl, broken, rfl⟩
      · omega
      · exact .inr ⟨rfl, broken, rfl⟩
    | closed => exact .inl ⟨rfl, rfl⟩
    | failed errno =>
      rw [RedisContext.redisNetRead]
      split_ifs
      · exact .inr ⟨rfl, broken, rfl⟩
      · exact .inl ⟨rfl, rfl⟩
      · exact .inl ⟨rfl, rfl⟩

/-- What the handlers ask of an invariant, and of what is left at the end. -/
structure HandlerInvariant (env : Surroundings δ Fn Priv υ) (live settled : RedisAsyncContext δ Fn Priv υ → Prop)
    (blame : Fault → Prop) :
    Prop where
  stays {ac : RedisAsyncContext δ Fn Priv υ} (here : live ac) : settled ac
  keep {ac last : RedisAsyncContext δ Fn Priv υ} (here : live ac) (same : essence last = essence ac) : live last
  connect {ac : RedisAsyncContext δ Fn Priv υ} (here : live ac) (status : Status) (user : υ) :
    live ({ ac with user := user }.invoke (.connect status))
  fail {ac : RedisAsyncContext δ Fn Priv υ} (here : live ac) (type : ErrorType) (str : CppString) :
    live { ac with c := ac.c.redisSetError type str }
  spend {ac : RedisAsyncContext δ Fn Priv υ} (here : live ac) {result : SendResult}
    (small : ac.c.obuf.length < 2147483648)
    (sendable : Sendable ac.c result) :
    live (spent ac (ac.c.redisBufferWrite env.strerror result).2.2 (sentBytes ac.c result))
  free {ac : RedisAsyncContext δ Fn Priv υ} (here : live ac) (closing : Closing ac) :
    Program.Leads (Async.redisAsyncFreeContext env) ac (fun _ last => settled last) (fun _ => False)
  drain {ac : RedisAsyncContext δ Fn Priv υ} (here : live ac) (broken : ac.c.err.isSome = true) :
    Program.Leads (Async.drainReplies env) ac (fun _ last => live last ∧ last.c.err.isSome = true) blame

namespace HandlerInvariant

variable {env : Surroundings δ Fn Priv υ} {live settled : RedisAsyncContext δ Fn Priv υ → Prop} {blame : Fault → Prop}
  (inv : HandlerInvariant env live settled blame) {ac : RedisAsyncContext δ Fn Priv υ}

include inv

/-- The end of a connection behind an error, and without one where it has nothing left to do. -/
theorem drop (here : live ac) (closing : ac.c.err = none → ac.replies = [] ∧ Closing ac) :
    Program.Leads (Async.redisAsyncDropConnection env) ac (fun _ last => settled last) (fun _ => False) := by
  have ends : ∀ last : RedisAsyncContext δ Fn Priv υ, essence last = essence ac → Closing last →
      Program.Leads (do
        modify fun ac => ac.cleanup
        let ac ← get
        if !ac.noAutoFree then Async.redisAsyncFreeContext env) last (fun _ last => settled last) (fun _ => False) := by
    intro last same refused
    have cleaned : live last.cleanup := inv.keep here same
    rw [Program.leads_modify_bind, Program.leads_get_bind]
    split_ifs
    · exact inv.free cleaned refused
    · exact inv.stays cleaned
  rw [Async.redisAsyncDropConnection, Program.leads_modify_bind, Program.leads_get_bind]
  by_cases fine : ac.copyError.err.isNone = true
  · obtain ⟨empty, refused⟩ := closing (Option.isNone_iff_eq_none.mp fine)
    have nothing : ac.copyError.shiftReply = none := by
      rw [RedisAsyncContext.shiftReply, RedisAsyncContext.copyError, empty]
    rw [if_pos fine, nothing]
    exact ends ac.copyError rfl refused
  · rw [if_neg fine, Program.leads_modify_bind]
    exact ends { ac.copyError with disconnecting := true } rfl (.inl rfl)

theorem drop_broken (here : live ac) (broken : ac.c.err.isSome = true) :
    Program.Leads (Async.redisAsyncDropConnection env) ac (fun _ last => settled last) (fun _ => False) :=
  inv.drop here fun none => absurd none (Option.isSome_iff_ne_none.mp broken)

theorem redisAsyncDisconnect (here : live ac) :
    Program.Leads (Async.redisAsyncDisconnect env) ac (fun _ last => settled last) (fun _ => False) := by
  have flagged : live { ac with disconnecting := true, noAutoFree := false } := inv.keep here rfl
  rw [Async.redisAsyncDisconnect, Program.leads_modify_bind, Program.leads_get_bind]
  split_ifs with now
  · exact inv.drop flagged fun _ => ⟨List.isEmpty_iff.mp now.2, .inl rfl⟩
  · exact inv.stays flagged

theorem redisAsyncFree (here : live ac) :
    Program.Leads (Async.redisAsyncFree env) ac (fun _ last => settled last) (fun _ => False) := by
  have flagged : live { ac with freeing := true } := inv.keep here rfl
  rw [Async.redisAsyncFree, Program.leads_modify_bind, Program.leads_get_bind]
  split_ifs
  · exact inv.free flagged (.inr rfl)
  · exact inv.stays flagged

/-- What a first event does before it is handled. -/
theorem runConnectCallback (here : live ac) (status : Status) :
    ∃ last, Async.runConnectCallback env status ac = .ok ((), last) ∧ live last ∧ last.c = ac.c ∧
      last.history.sent = ac.history.sent ∧ last.history.received = ac.history.received := by
  rw [Async.runConnectCallback, Program.modify_apply]
  split_ifs
  · exact ⟨_, rfl, inv.connect here status _, rfl, rfl, rfl⟩
  · exact ⟨_, rfl, here, rfl, rfl, rfl⟩

/-- A handler goes on with the same connection. -/
theorem whenConnected (connect : ConnectResult) (here : live ac) :
    Program.Leads (Async.whenConnected env connect) ac
      (fun goes last => settled last ∧
        (goes = true → live last ∧ last.c = ac.c ∧ last.history.sent = ac.history.sent ∧
          last.history.received = ac.history.received))
      (fun _ => False) := by
  rw [Async.whenConnected, Program.leads_get_bind]
  split_ifs with connected
  · exact ⟨inv.stays here, fun _ => ⟨here, rfl, rfl, rfl⟩⟩
  cases connect with
  | failed errno =>
    have failed := inv.fail here .io (env.strerror errno)
    obtain ⟨middle, ran, here', same, -, -⟩ := inv.runConnectCallback failed .err
    have broken : middle.c.err.isSome = true := by
      rw [same]
      rfl
    refine Program.Leads.bind (fun status last => status = .err ∧ settled last) ?_ ?_
    · rw [Async.redisAsyncHandleConnect, Program.leads_modify_bind, Program.leads_bind_of_ok ran]
      exact Program.Leads.bind _ (inv.drop_broken here' broken) fun _ _ ended => ⟨rfl, ended⟩
    · rintro _ last ⟨rfl, ended⟩
      exact ⟨ended, fun goes => absurd (of_decide_eq_true goes).1 (by decide)⟩
  | done =>
    obtain ⟨middle, ran, here', same, sent, received⟩ := inv.runConnectCallback here .ok
    have connected' : live { middle with connected := true } := inv.keep here' rfl
    refine Program.Leads.bind (fun _ last => last = { middle with connected := true }) ?_ ?_
    · rw [Async.redisAsyncHandleConnect, Program.leads_bind_of_ok ran]
      rfl
    · rintro status _ rfl
      exact ⟨inv.stays connected', fun _ => ⟨connected', same, sent, received⟩⟩
  | inProgress => exact ⟨inv.stays here, fun _ => ⟨here, rfl, rfl, rfl⟩⟩

/-- A write, where it does not fail without an error. -/
theorem redisAsyncWrite {result : SendResult} (here : live ac) (small : ac.c.obuf.length < 2147483648)
    (sendable : Sendable ac.c result)
    (status : (ac.c.redisBufferWrite env.strerror result).1 = .err →
      (ac.c.redisBufferWrite env.strerror result).2.2.err.isSome = true) :
    Program.Leads (Async.redisAsyncWrite env result) ac (fun _ last => settled last) (fun _ => False) := by
  have gone := inv.spend here small sendable
  rw [Async.redisAsyncWrite, Program.leads_get_bind]
  generalize ac.c.redisBufferWrite env.strerror result = outcome at gone status ⊢
  obtain ⟨state, finished, c⟩ := outcome
  dsimp only at gone status
  rw [Program.leads_set_bind]
  split_ifs with fails
  · exact inv.drop_broken gone (status fails)
  · rw [Program.leads_modify]
    exact inv.stays (inv.keep gone rfl)

/-- A read, which hands over what came where it did not fail. -/
theorem redisAsyncRead {result : RecvResult} (fine : ac.c.reader.err = none)
    (fails : (ac.c.redisBufferRead env.strerror result).2.err.isSome = true →
      live (gained ac (ac.c.redisBufferRead env.strerror result).2 (receivedBytes ac.c result)))
    (works : (ac.c.redisBufferRead env.strerror result).2.err = none → ac.c.err = none →
      Program.Leads (Async.redisProcessCallbacks env)
        { gained ac (ac.c.redisBufferRead env.strerror result).2 (receivedBytes ac.c result) with reading := true }
        (fun _ last => settled last) (fun _ => False)) :
    Program.Leads (Async.redisAsyncRead env result) ac (fun _ last => settled last) (fun _ => False) := by
  have status := redisBufferRead_status env.strerror fine result
  rw [Async.redisAsyncRead, Program.leads_get_bind]
  generalize ac.c.redisBufferRead env.strerror result = outcome at fails works status ⊢
  obtain ⟨state, c⟩ := outcome
  dsimp only at fails works status
  rw [Program.leads_set_bind]
  rcases status with ⟨rfl, broken⟩ | ⟨rfl, working, before⟩
  · rw [if_pos rfl]
    exact inv.drop_broken (fails broken) broken
  · rw [if_neg (by decide), Program.leads_modify_bind]
    exact works working before

/-- A handler for a connection that is there. -/
theorem handles (connect : ConnectResult) {action : Async δ Fn Priv υ Unit} (here : live ac)
    (acts : ∀ middle, live middle → middle.c = ac.c → middle.history.sent = ac.history.sent →
      middle.history.received = ac.history.received →
        Program.Leads action middle (fun _ last => settled last) (fun _ => False)) :
    Program.Leads (do if ← Async.whenConnected env connect then action) ac (fun _ last => settled last)
      (fun _ => False) := by
  refine Program.Leads.bind _ (inv.whenConnected connect here) ?_
  rintro goes middle ⟨ended, goesOn⟩
  split_ifs with goes
  · obtain ⟨here', same, sent, received⟩ := goesOn goes
    exact acts middle here' same sent received
  · exact ended

/-- The callbacks that wait when the connection hangs are called without a reply, and it ends. -/
theorem redisAsyncHandleTimeout (here : live ac) :
    Program.Leads (Async.redisAsyncHandleTimeout env) ac (fun _ last => settled last) blame := by
  have drains : ∀ middle, live middle → middle.c.err.isSome = true →
      Program.Leads (do
        Async.drainReplies env
        Async.redisAsyncDropConnection env) middle (fun _ last => settled last) blame := by
    intro middle here broken
    refine Program.Leads.bind _ (inv.drain here broken) ?_
    rintro _ last ⟨here', broken'⟩
    exact (inv.drop_broken here' broken').mono (fun _ _ => id) fun _ => False.elim
  have connects : ∀ middle, live middle → middle.c.err.isSome = true →
      Program.Leads (do
        Async.runConnectCallback env .err
        Async.drainReplies env
        Async.redisAsyncDropConnection env) middle (fun _ last => settled last) blame := by
    intro middle here broken
    obtain ⟨last, ran, here', same, -, -⟩ := inv.runConnectCallback here .err
    rw [Program.leads_bind_of_ok ran]
    exact drains last here' (by rwa [same])
  rw [Async.redisAsyncHandleTimeout, Program.leads_get_bind]
  by_cases idle : ac.connected = true ∧ ac.replies.isEmpty = true
  · rw [if_pos idle]
    exact inv.stays here
  rw [if_neg idle]
  by_cases fine : ac.c.err.isNone = true
  · have failed := inv.fail here .timeout (Model.RedisCpp.text "Timeout")
    rw [if_pos fine, Program.leads_modify_bind]
    split_ifs
    · exact connects _ failed rfl
    · exact drains _ failed rfl
  · have broken : ac.c.err.isSome = true := Option.isSome_iff_ne_none.mpr fun none =>
      fine (Option.isNone_iff_eq_none.mpr none)
    rw [if_neg fine]
    split_ifs
    · exact connects ac here broken
    · exact drains ac here broken

end HandlerInvariant

end CppRedis.Soundness.Handlers
