import CppRedis.Soundness.Requests

/-! # Transmissions

Requests always return, and send no commands but their own. So for every function of `CRedisConnection`
and `CRedisServer`, and for the refresh thread as far as it returns.
-/

namespace CppRedis.Soundness.Transmissions

open Machine Machine.Program Model.RedisClient Model.RedisCpp Requests

/-- The event is that the command was sent. -/
def isSend (command : ℕ) : Event → Bool
  | .append other taken => taken && other == command
  | _ => false

/-- How often a command was sent. -/
def sends (command : ℕ) (log : List Event) : ℕ := log.countP (isSend command)

/-- Commands outside the set, if they existed before, were not sent. -/
structure Sends {σ : Type} (C : Set ℕ) (source target : World σ) : Prop where
  commands : source.commands ≤ target.commands
  sends : ∀ c < source.commands, c ∉ C → sends c target.log = sends c source.log

section

variable {σ : Type} {C : Set ℕ} {source middle target : World σ}

theorem Sends.rfl' (world : World σ) : Sends C world world := ⟨le_refl _, fun _ _ _ => rfl⟩

theorem Sends.trans (first : Sends C source middle) (second : Sends C middle target) : Sends C source target :=
  ⟨first.commands.trans second.commands, fun c bound outside =>
    (second.sends c (lt_of_lt_of_le bound first.commands) outside).trans (first.sends c bound outside)⟩

theorem Sends.of_same (commands : target.commands = source.commands) (log : target.log = source.log) :
    Sends C source target := ⟨commands.ge, fun _ _ _ => by rw [log]⟩

theorem Sends.mono {more : Set ℕ} (kept : Sends C source target) (subset : ∀ c < source.commands, c ∈ C → c ∈ more) :
    Sends more source target :=
  ⟨kept.commands, fun c bound outside => kept.sends c bound fun inside => outside (subset c bound inside)⟩

instance : Std.Refl (Sends (σ := σ) C) := ⟨Sends.rfl'⟩
instance : IsTrans (World σ) (Sends C) := ⟨fun _ _ _ => Sends.trans⟩

theorem sends_append (command : ℕ) (log events : List Event) :
    sends command (log ++ events) = sends command log + sends command events := List.countP_append

/-- An event that sends nothing. -/
theorem sends_note (event : Event) (silent : ∀ c, c ∉ C → isSend c event = false) (world : World σ) :
    Sends C world (world.note event) := by
  refine ⟨le_refl _, fun c _ outside => ?_⟩
  rw [World.note, sends_append, sends, sends, List.countP_singleton, silent c outside]
  rfl

theorem sends_setReply (command : ℕ) (reply : Option RedisReply) (world : World σ) :
    Sends C world (world.setReply command reply) := .of_same rfl rfl

end

section

variable {ρ : Type} (net : Network ρ) {C : Set ℕ}

theorem redisAppendCommandArgv_sends (context : RedisContext) {command : ℕ} (own : command ∈ C) :
    Obeys (Sends C) (redisAppendCommandArgv net context command) := by
  have others : ∀ taken, ∀ c, c ∉ C → isSend c (.append command taken) = false := by
    intro taken c outside
    simp only [isSend, Bool.and_eq_false_iff, beq_eq_false_iff_ne]
    exact .inr fun same => outside (same ▸ own)
  intro source
  rcases redisAppendCommandArgv_cases net context command source with ⟨_, does⟩ | ⟨_, does⟩ | ⟨_, does⟩
  · exact ⟨_, _, does, Sends.rfl' _⟩
  · exact ⟨_, _, does, sends_note _ (others true) source⟩
  · exact ⟨_, _, does, sends_note _ (others false) source⟩

theorem redisGetReply_sends (context : RedisContext) : Obeys (Sends C) (redisGetReply net context) := by
  intro source
  rcases redisGetReply_cases net context source with ⟨_, does⟩ | ⟨_, _, _, _, _, _, does⟩ | ⟨_, _, _, does⟩
  · exact ⟨_, _, does, Sends.rfl' _⟩
  · exact ⟨_, _, does, (sends_note _ (fun _ _ => rfl) source).trans (.of_same rfl rfl)⟩
  · exact ⟨_, _, does, (sends_note _ (fun _ _ => rfl) source).trans (.of_same rfl rfl)⟩

theorem redisCommandArgv_sends (context : RedisContext) {command : ℕ} (own : command ∈ C) :
    Obeys (Sends C) (redisCommandArgv net context command) :=
  .bind (redisAppendCommandArgv_sends net context own) fun _ => .ite (redisGetReply_sends net _) (.pure _)

theorem cmdRequest_sends {command : ℕ} (own : command ∈ C) (pContext : Option RedisContext) :
    Obeys (Sends C) (CRedisCommand.cmdRequest net command pContext) := by
  refine .bind .get fun _ => .ite (.pure _) ?_
  cases pContext with
  | none => exact .pure _
  | some context =>
    exact .bind (.update (sends_setReply _ _)) fun _ => .bind (redisCommandArgv_sends net context own) fun _ =>
      .bind (.update (sends_setReply _ _)) fun _ => .pure _

theorem cmdAppend_sends {command : ℕ} (own : command ∈ C) (pContext : Option RedisContext) :
    Obeys (Sends C) (CRedisCommand.cmdAppend net command pContext) := by
  refine .bind .get fun _ => .ite (.pure _) ?_
  cases pContext with
  | none => exact .pure _
  | some context => exact .bind (redisAppendCommandArgv_sends net context own) fun _ => .pure _

theorem cmdReply_sends (command : ℕ) (context : RedisContext) :
    Obeys (Sends C) (CRedisCommand.cmdReply net command context) :=
  .bind (.update (sends_setReply _ _)) fun _ => .bind (redisGetReply_sends net context) fun _ =>
    .bind (.update (sends_setReply _ _)) fun _ => .pure _

theorem time_sends : Obeys (Sends C) (time net) :=
  .bind .get fun _ => .bind (.update (sends_note _ fun _ _ => rfl)) fun _ => .pure _

theorem connectToRedis_sends (strHost : CppString) (nPort : ℤ) (conn : CRedisConnection) :
    Obeys (Sends C) (CRedisConnection.connectToRedis net strHost nPort conn) := by
  refine .bind (.bind .get fun _ => .bind (.update (sends_note _ fun _ _ => rfl)) fun _ => .pure _) fun connected => ?_
  cases connected with
  | none => exact .pure _
  | some context => exact .bind (time_sends net) fun _ => .pure _

theorem modifyServer_sends (serv : ℕ) (change : CRedisServer → CRedisServer) :
    Obeys (Sends (σ := Pool ρ) C) (modifyServer serv change) := .update fun _ => .of_same rfl rfl

theorem connectToAny_sends (serv : ℕ) (vecHosts : List (CppString × ℤ)) (conn : CRedisConnection) :
    Obeys (Sends C) (CRedisConnection.connectToAny net serv conn vecHosts) := by
  induction vecHosts generalizing conn with
  | nil => exact .bind (modifyServer_sends serv _) fun _ => .pure _
  | cons hostPair vecHosts ih =>
    exact .bind (connectToRedis_sends net _ _ _) fun _ =>
      .ite (.bind (modifyServer_sends serv _) fun _ => .pure _) (ih _)

theorem reconnect_sends (serv : ℕ) (conn : CRedisConnection) :
    Obeys (Sends C) (CRedisConnection.reconnect net serv conn) :=
  .bind .get fun _ => .ite (connectToAny_sends net serv _ conn) (.bind (connectToRedis_sends net _ _ _) fun _ =>
    .ite (.pure _) (connectToAny_sends net serv _ _))

theorem refreshIdle_sends (serv : ℕ) (tmNow : ℤ) (conn : CRedisConnection) :
    Obeys (Sends C) (CRedisConnection.refreshIdle net serv tmNow conn) :=
  .bind .get fun _ => .ite (reconnect_sends net serv conn) (.pure _)

theorem connRequest_sends (serv : ℕ) {command : ℕ} (own : command ∈ C) (conn : CRedisConnection) :
    Obeys (Sends C) (CRedisConnection.connRequest net serv command conn) := by
  refine .bind (time_sends net) fun tmNow => .bind (refreshIdle_sends net serv tmNow conn) fun ready => ?_
  refine .ite (.pure _) (.bind (cmdRequest_sends net own _) fun first => .ite ?_ (.pure _))
  refine .bind .get fun _ => .ite (.pure _) (.bind (reconnect_sends net serv _) fun again => ?_)
  exact .ite (.pure _) (.bind (cmdRequest_sends net own _) fun _ => .pure _)

theorem appendAll_sends {vecRedisCmd : List ℕ} (own : ∀ command ∈ vecRedisCmd, command ∈ C)
    (pContext : Option RedisContext) : Obeys (Sends C) (CRedisConnection.appendAll net pContext vecRedisCmd) := by
  induction vecRedisCmd generalizing pContext with
  | nil => exact .pure _
  | cons command vecRedisCmd ih =>
    exact .bind (cmdAppend_sends net (own _ List.mem_cons_self) pContext) fun _ =>
      .ite (ih (fun other member => own other (List.mem_cons_of_mem _ member)) _) (.pure _)

theorem replyAll_sends (vecRedisCmd : List ℕ) (context : RedisContext) :
    Obeys (Sends C) (CRedisConnection.replyAll net context vecRedisCmd) := by
  induction vecRedisCmd generalizing context with
  | nil => exact .pure _
  | cons command vecRedisCmd ih => exact .bind (cmdReply_sends net command context) fun _ => .ite (ih _) (.pure _)

theorem connRequests_sends (serv : ℕ) {vecRedisCmd : List ℕ} (own : ∀ command ∈ vecRedisCmd, command ∈ C)
    (conn : CRedisConnection) : Obeys (Sends C) (CRedisConnection.connRequests net serv vecRedisCmd conn) := by
  refine .bind (time_sends net) fun tmNow => .bind (refreshIdle_sends net serv tmNow conn) fun ready => ?_
  refine .ite (.pure _) (.bind (appendAll_sends net own _) fun appended => ?_)
  dsimp only
  split
  · exact .bind (replyAll_sends net vecRedisCmd _) fun _ => .pure _
  · exact .pure _

theorem fetchConnection_sends (serv : ℕ) : Obeys (Sends (σ := Pool ρ) C) (CRedisServer.fetchConnection serv) := by
  refine .bind .get fun world => ?_
  split
  · exact .pure _
  · exact .bind (modifyServer_sends serv _) fun _ => .pure _

theorem awaitConnection_sends (serv nTry : ℕ) :
    Obeys (Sends (σ := Pool ρ) C) (CRedisServer.awaitConnection serv nTry) := by
  induction nTry with
  | zero => exact .pure _
  | succ nTry ih =>
    refine .bind (fetchConnection_sends serv) fun fetched => ?_
    cases fetched with
    | none => exact ih
    | some conn => exact .pure _

theorem servRequestWith_sends (serv : ℕ) {request : CRedisConnection → Action (Pool ρ) (ReturnCode × CRedisConnection)}
    (requests : ∀ conn, Obeys (Sends C) (request conn)) :
    Obeys (Sends C) (CRedisServer.servRequestWith serv request) := by
  refine .bind (awaitConnection_sends serv _) fun fetched => ?_
  cases fetched with
  | none => exact .pure _
  | some conn => exact .bind (requests conn) fun result => .bind (modifyServer_sends serv _) fun _ => .pure _

theorem servRequest_sends (serv : ℕ) {command : ℕ} (own : command ∈ C) :
    Obeys (Sends C) (CRedisServer.servRequest net serv command) :=
  servRequestWith_sends serv fun conn => connRequest_sends net serv own conn

theorem servRequests_sends (serv : ℕ) {vecRedisCmd : List ℕ} (own : ∀ command ∈ vecRedisCmd, command ∈ C) :
    Obeys (Sends C) (CRedisServer.servRequests net serv vecRedisCmd) :=
  servRequestWith_sends serv fun conn => connRequests_sends net serv own conn

theorem openConnections_sends (serv count : ℕ) : Obeys (Sends C) (CRedisServer.openConnections net serv count) := by
  induction count with
  | zero => exact .pure _
  | succ count ih =>
    exact .bind (reconnect_sends net serv {}) fun opened => .ite (.bind (modifyServer_sends serv _) fun _ => ih) ih

/-- To send a new command is to send none of the world. -/
theorem newCommand_bind_sends {σ α : Type} (redisCmd : CRedisCommand) {next : ℕ → Action σ α}
    (after : ∀ command, Obeys (Sends {command}) (next command)) : Obeys (Sends C) (newCommand redisCmd >>= next) := by
  intro source
  have new : Sends {source.commands} source { source with
      command := Function.update source.command source.commands redisCmd, commands := source.commands + 1 } :=
    ⟨Nat.le_succ _, fun _ _ _ => rfl⟩
  obtain ⟨value, target, does, later⟩ := after source.commands _
  refine ⟨value, target, does, (new.trans later).mono fun c bound same => ?_⟩
  rw [Set.mem_singleton_iff.mp same] at bound
  exact absurd bound (lt_irrefl _)

theorem askTimeout_sends (serv : ℕ) : Obeys (Sends C) (CRedisServer.askTimeout net serv) := by
  refine newCommand_bind_sends _ fun command =>
    .bind (servRequest_sends net serv (Set.mem_singleton command)) fun nRet => .bind .get fun world => ?_
  split
  · exact modifyServer_sends serv _
  · exact .pure _

theorem initializeServer_sends (serv : ℕ) : Obeys (Sends C) (CRedisServer.initializeServer net serv) :=
  .bind (modifyServer_sends serv _) fun _ => .bind .get fun _ => .bind (openConnections_sends net serv _) fun _ =>
    .bind .get fun _ => .ite (.bind (askTimeout_sends net serv) fun _ => .bind .get fun _ => .pure _)
      (.bind .get fun _ => .pure _)

theorem new_sends (strHost : CppString) (nPort nTimeout nConnNum : ℤ) :
    Obeys (Sends C) (CRedisServer.new net strHost nPort nTimeout nConnNum) :=
  .bind .get fun _ => .bind (.update fun _ => .of_same rfl rfl) fun _ => .bind (modifyServer_sends _ _) fun _ =>
    .bind (initializeServer_sends net _) fun _ => .pure _

theorem deleteServers_sends (vecRedisServ : List ℕ) : Obeys (Sends (σ := Pool ρ) C) (deleteServers vecRedisServ) := by
  induction vecRedisServ with
  | nil => exact .pure _
  | cons serv vecRedisServ ih => exact .bind (modifyServer_sends serv _) fun _ => ih

theorem assignServers_sends (nTimeout nConnNum : ℤ) (vecSlot : List SlotRegion) (vecRedisServ : List ℕ) :
    Obeys (Sends C) (assignServers net nTimeout nConnNum vecRedisServ vecSlot) := by
  induction vecSlot generalizing vecRedisServ with
  | nil => exact .pure _
  | cons slotReg vecSlot ih =>
    refine .bind .get fun world => ?_
    split
    · exact .bind (ih _) fun _ => .pure _
    · refine .bind (new_sends net _ _ _ _) fun serv => .bind .get fun _ => .ite ?_ (.bind (ih _) fun _ => .pure _)
      exact .bind (deleteServers_sends _) fun _ => .pure _

theorem loadSlotsFrom_sends {command : ℕ} (own : command ∈ C) (vecRedisServ : List ℕ) :
    Follows (Sends C) (loadSlotsFrom net command vecRedisServ) := by
  induction vecRedisServ with
  | nil => exact .pure _
  | cons serv vecRedisServ ih =>
    refine .bind .get fun _ => .ite (.pure _) (.bind (servRequest_sends net serv own).follows fun nRet => .ite ?_ ih)
    refine .bind .get fun world => ?_
    split
    · exact .throw
    · split
      · exact .throw
      · exact ih
      · refine .bind .get fun _ => .bind (assignServers_sends net _ _ _ _).follows fun assigned => ?_
        cases assigned with
        | none => exact .pure _
        | some tables =>
          exact .bind (deleteServers_sends _).follows fun _ =>
            .bind (.update fun _ => .of_same rfl rfl) fun _ => .pure _

theorem refreshRound_sends : Follows (Sends C) (refreshRound net) := by
  refine .bind (.update (sends_note _ fun _ _ => rfl)) fun _ => .bind .get fun world => ?_
  have setValid : ∀ bValid : Bool, Follows (Sends C) (modify fun world : World (Pool ρ) =>
      { world with client := { world.client with bValid := bValid } } : Action (Pool ρ) Unit) :=
    fun _ => .update fun _ => .of_same rfl rfl
  refine .ite (.bind ?_ setValid) ?_
  · intro source value target ran
    obtain ⟨command, issued, ranNew, ran⟩ := bind_eq_ok_iff.mp ran
    have new : Sends {source.commands} source issued := by
      cases ranNew
      exact ⟨Nat.le_succ _, fun _ _ _ => rfl⟩
    cases ranNew
    rw [bind_of_ok (get_apply _)] at ran
    refine (new.trans (loadSlotsFrom_sends net (Set.mem_singleton _) _ _ _ _ ran)).mono fun c bound same => ?_
    rw [Set.mem_singleton_iff.mp same] at bound
    exact absurd bound (lt_irrefl _)
  · split
    · exact .bind .throw setValid
    · exact .bind (initializeServer_sends net _).follows setValid

theorem refreshThread_sends : Follows (Sends C) (refreshThread net) := by
  refine .get_bind fun source value target ran => ?_
  have rounds : ∀ count, Follows (Sends C) (refreshRounds net count) := by
    intro count
    induction count with
    | zero => exact .pure _
    | succ count ih => exact .bind (refreshRound_sends net) fun _ => ih
  exact rounds _ _ _ _ ran

variable (address : ℕ → ℕ)

theorem waitForRefresh_sends : Follows (Sends C) (waitForRefresh (net.servers address)) := by
  have await : ∀ nRetry, Follows (Sends C) (awaitValid (net.servers address) nRetry) := by
    intro nRetry
    induction nRetry with
    | zero => exact .pure _
    | succ nRetry ih => exact .bind .get fun _ => .ite (.pure _) (.bind (refreshThread_sends net) fun _ => ih)
  exact .bind (.update (sends_note _ fun _ _ => rfl)) fun _ => .bind (refreshThread_sends net) fun _ =>
    .bind (await _) fun _ => .bind (refreshThread_sends net) fun _ => .bind .get fun _ => .pure _

/-- A command of the world was sent at most this often. -/
def AtMost (command count : ℕ) {σ : Type} (source target : World σ) : Prop :=
  command < source.commands → command < target.commands ∧ sends command target.log ≤ sends command source.log + count

theorem AtMost.mono {σ : Type} {command few many : ℕ} (le : few ≤ many) {source target : World σ}
    (sent : AtMost command few source target) : AtMost command many source target :=
  fun bound => ⟨(sent bound).1, (sent bound).2.trans (Nat.add_le_add_left le _)⟩

theorem atMost_bind {σ α β : Type} {command first second : ℕ} {program : Action σ α} {next : α → Action σ β}
    (before : Follows (AtMost command first) program) (after : ∀ value, Follows (AtMost command second) (next value)) :
    Follows (AtMost command (first + second)) (program >>= next) := by
  intro source result target ran bound
  obtain ⟨value, middle, ranFirst, ranNext⟩ := bind_eq_ok_iff.mp ran
  obtain ⟨stays, few⟩ := before _ _ _ ranFirst bound
  obtain ⟨still, more⟩ := after _ _ _ _ ranNext stays
  exact ⟨still, by omega⟩

theorem atMost_pure {σ α : Type} (command count : ℕ) (value : α) :
    Follows (AtMost command count) (pure value : Action σ α) := by
  intro source result target ran bound
  cases ran
  exact ⟨bound, Nat.le_add_right _ _⟩

theorem Sends.atMost {σ : Type} {source target : World σ} (sent : Sends C source target) {command : ℕ}
    (outside : command ∉ C) : AtMost command 0 source target :=
  fun bound => ⟨lt_of_lt_of_le bound sent.commands, (sent.sends command bound outside).le⟩

/-- What sends nothing. -/
theorem atMost_zero {σ α : Type} (command : ℕ) {program : Action σ α} (obeys : Obeys (Sends ∅) program) :
    Follows (AtMost command 0) program :=
  obeys.follows.mono fun _ _ sent => sent.atMost (Set.notMem_empty command)

theorem redisAppendCommandArgv_once (context : RedisContext) (command : ℕ) :
    Follows (AtMost command 1) (redisAppendCommandArgv net context command) := by
  intro source value target ran bound
  have append : ∀ taken, sends command (source.log ++ [.append command taken]) ≤ sends command source.log + 1 := by
    intro taken
    rw [sends_append]
    exact Nat.add_le_add_left (List.countP_le_length (l := [Event.append command taken])) _
  rcases redisAppendCommandArgv_cases net context command source with ⟨_, does⟩ | ⟨_, does⟩ | ⟨_, does⟩
  · cases does.symm.trans ran
    exact ⟨bound, Nat.le_succ _⟩
  · cases does.symm.trans ran
    exact ⟨bound, append true⟩
  · cases does.symm.trans ran
    exact ⟨bound, append false⟩

theorem cmdAppend_count (command other : ℕ) (pContext : Option RedisContext) :
    Follows (AtMost command ([other].count command)) (CRedisCommand.cmdAppend net other pContext) := by
  by_cases own : command = other
  · subst other
    rw [List.count_singleton_self]
    refine .get_bind fun source value target ran => ?_
    split_ifs at ran with empty
    · exact atMost_pure _ _ _ _ _ _ ran
    · cases pContext with
      | none => exact atMost_pure _ _ _ _ _ _ ran
      | some context =>
        exact atMost_bind (redisAppendCommandArgv_once net context command) (fun _ => atMost_pure command 0 _) _ _ _ ran
  · exact (cmdAppend_sends (C := {other}) net (Set.mem_singleton other) pContext).follows.mono
      fun _ _ sent => (sent.atMost own).mono (Nat.zero_le _)

theorem appendAll_count (command : ℕ) (vecRedisCmd : List ℕ) (pContext : Option RedisContext) :
    Follows (AtMost command (vecRedisCmd.count command)) (CRedisConnection.appendAll net pContext vecRedisCmd) := by
  induction vecRedisCmd generalizing pContext with
  | nil => exact atMost_pure _ _ _
  | cons other vecRedisCmd ih =>
    rw [← List.singleton_append, List.count_append]
    exact atMost_bind (cmdAppend_count net command other pContext) fun _ => .ite (ih _) (atMost_pure _ _ _)

theorem connRequests_count (command serv : ℕ) (vecRedisCmd : List ℕ) (conn : CRedisConnection) :
    Follows (AtMost command (vecRedisCmd.count command)) (CRedisConnection.connRequests net serv vecRedisCmd conn) := by
  have split : vecRedisCmd.count command = 0 + (0 + (vecRedisCmd.count command + 0)) := by omega
  rw [split]
  refine atMost_bind (atMost_zero command (time_sends net)) fun tmNow =>
    atMost_bind (atMost_zero command (refreshIdle_sends net serv tmNow conn)) fun ready => ?_
  refine .ite (atMost_pure _ _ _) (atMost_bind (appendAll_count net command vecRedisCmd _) fun appended => ?_)
  dsimp only
  split
  · exact atMost_zero command (.bind (replyAll_sends net vecRedisCmd _) fun _ => .pure _)
  · exact atMost_pure _ _ _

theorem servRequests_count (command serv : ℕ) (vecRedisCmd : List ℕ) :
    Follows (AtMost command (vecRedisCmd.count command)) (CRedisServer.servRequests net serv vecRedisCmd) := by
  have split : vecRedisCmd.count command = 0 + (vecRedisCmd.count command + 0) := by omega
  rw [split]
  refine atMost_bind (atMost_zero command (awaitConnection_sends serv _)) fun fetched => ?_
  cases fetched with
  | none => exact atMost_pure _ _ _
  | some conn =>
    exact atMost_bind (connRequests_count net command serv vecRedisCmd conn) fun result =>
      atMost_zero command (.bind (modifyServer_sends serv _) fun _ => .pure _)

theorem requestAll_count (command : ℕ) (mapCmd : List (Option ℕ × List ℕ)) :
    Follows (AtMost command ((mapCmd.flatMap Prod.snd).count command)) (requestAll (net.servers address) mapCmd) := by
  induction mapCmd with
  | nil => exact atMost_pure _ _ _
  | cons entry mapCmd ih =>
    obtain ⟨_ | serv, vecCmd⟩ := entry
    · exact .throw
    · rw [List.flatMap_cons, List.count_append]
      exact atMost_bind (servRequests_count net command serv vecCmd) fun nRet => .ite ih (atMost_pure _ _ _)

end

end CppRedis.Soundness.Transmissions
