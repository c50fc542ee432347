import CppRedis.Soundness.FaultFree
import CppRedis.Soundness.Requests

/-! # When connections are made anew

Where all calls succeed, a request makes its connection anew just when the time stamp of the connection is as old as the
timeout of the server. Requests with a pipeline leave the time stamp as it is.
-/

namespace CppRedis.Soundness.Renewals

open Machine Machine.Program Model.RedisClient Model.RedisCpp FaultFree

variable {ρ : Type} {serv : ℕ}

def connects : Event → Bool
  | .connect _ _ _ => true
  | _ => false

/-- Something was connected on the way from one world to the other. -/
def Renewed (source target : World (Pool ρ)) : Prop :=
  ∃ events, target.log = source.log ++ events ∧ ∃ event ∈ events, connects event = true

/-- Nothing is connected, and the servers and the words of commands stay as they are. -/
structure Quiet (source target : World (Pool ρ)) : Prop where
  log : ∃ events, target.log = source.log ++ events ∧ ∀ event ∈ events, connects event = false
  server : target.servers.server = source.servers.server
  words : ∀ command, (target.command command).args = (source.command command).args

instance : Std.Refl (Quiet (ρ := ρ)) :=
  ⟨fun _ => ⟨⟨[], (List.append_nil _).symm, nofun⟩, rfl, fun _ => rfl⟩⟩

instance : IsTrans (World (Pool ρ)) Quiet := ⟨by
  rintro source middle target ⟨⟨first, log, quiet⟩, server, words⟩ ⟨⟨second, log', quiet'⟩, server', words'⟩
  refine ⟨⟨first ++ second, by rw [log', log, List.append_assoc], fun event member => ?_⟩, server'.trans server,
    fun command => (words' command).trans (words command)⟩
  exact (List.mem_append.mp member).elim (quiet event) (quiet' event)⟩

theorem Quiet.extends {source target : World (Pool ρ)} (quiet : Quiet source target) : source.log <+: target.log := by
  obtain ⟨events, log, -⟩ := quiet.log
  exact ⟨events, log.symm⟩

theorem quiet_note {event : Event} (other : connects event = false) (source : World (Pool ρ)) :
    Quiet source (source.note event) :=
  ⟨⟨[event], rfl, fun _ member => by rwa [List.mem_singleton.mp member]⟩, rfl, fun _ => rfl⟩

theorem quiet_setReply (command : ℕ) (reply : Option RedisReply) (source : World (Pool ρ)) :
    Quiet source (source.setReply command reply) := by
  refine ⟨⟨[], (List.append_nil _).symm, nofun⟩, rfl, fun other => ?_⟩
  by_cases same : other = command
  · subst same
    simp only [World.setReply, Function.update_self]
  · simp only [World.setReply, Function.update_of_ne same]

/-- Quiet steps before and after do not count. -/
theorem renewed_frame {source before after target : World (Pool ρ)} (first : Quiet source before)
    (middle : before.log <+: after.log) (last : Quiet after target) : Renewed source target ↔ Renewed before after := by
  obtain ⟨early, log, quiet⟩ := first.log
  obtain ⟨events, within⟩ := middle
  obtain ⟨late, log', quiet'⟩ := last.log
  have whole : target.log = source.log ++ (early ++ events ++ late) := by
    rw [log', ← within, log]
    simp only [List.append_assoc]
  constructor
  · rintro ⟨all, same, event, member, connecting⟩
    cases List.append_cancel_left (whole.symm.trans same)
    refine ⟨events, within.symm, event, ?_, connecting⟩
    rcases List.mem_append.mp member with member | member
    · exact (List.mem_append.mp member).resolve_left fun inside =>
        Bool.false_ne_true ((quiet event inside).symm.trans connecting)
    · exact absurd ((quiet' event member).symm.trans connecting) Bool.false_ne_true
  · rintro ⟨all, same, event, member, connecting⟩
    cases List.append_cancel_left (within.trans same)
    exact ⟨_, whole, event, List.mem_append_left _ (List.mem_append_right _ member), connecting⟩

variable (net : Network ρ)

theorem time_quiet : Follows Quiet (time net) :=
  .bind .get fun _ => .bind (.update (quiet_note rfl)) fun _ => .pure _

theorem redisAppendCommandArgv_quiet (context : RedisContext) (command : ℕ) :
    Follows Quiet (redisAppendCommandArgv net context command) := by
  intro source value target ran
  rcases Requests.redisAppendCommandArgv_cases net context command source with ⟨_, does⟩ | ⟨_, does⟩ | ⟨_, does⟩
  · cases does.symm.trans ran
    exact refl source
  · cases does.symm.trans ran
    exact quiet_note rfl source
  · cases does.symm.trans ran
    exact quiet_note rfl source

theorem redisGetReply_quiet (context : RedisContext) : Follows Quiet (redisGetReply net context) := by
  intro source value target ran
  rcases Requests.redisGetReply_cases net context source with ⟨_, does⟩ | ⟨_, _, _, _, _, _, does⟩ | ⟨_, _, _, does⟩
  · cases does.symm.trans ran
    exact refl source
  · cases does.symm.trans ran
    exact { (quiet_note rfl source : Quiet source (source.note (.reply _ _))) with }
  · cases does.symm.trans ran
    exact { (quiet_note rfl source : Quiet source (source.note (.lost _))) with }

theorem cmdRequest_quiet (command : ℕ) (pContext : Option RedisContext) :
    Follows Quiet (CRedisCommand.cmdRequest net command pContext) := by
  refine .bind .get fun _ => .ite (.pure _) ?_
  cases pContext with
  | none => exact .pure _
  | some context =>
    refine .bind (.update (quiet_setReply command _)) fun _ => .bind ?_ fun _ =>
      .bind (.update (quiet_setReply command _)) fun _ => .pure _
    exact .bind (redisAppendCommandArgv_quiet net context command) fun _ =>
      .ite (redisGetReply_quiet net _) (.pure _)

theorem appendAll_quiet (vecRedisCmd : List ℕ) (pContext : Option RedisContext) :
    Follows Quiet (CRedisConnection.appendAll net pContext vecRedisCmd) := by
  induction vecRedisCmd generalizing pContext with
  | nil => exact .pure _
  | cons command vecRedisCmd ih =>
    refine .bind (.bind .get fun _ => .ite (.pure _) ?_) fun _ => .ite (ih _) (.pure _)
    cases pContext with
    | none => exact .pure _
    | some context => exact .bind (redisAppendCommandArgv_quiet net context command) fun _ => .pure _

theorem replyAll_quiet (vecRedisCmd : List ℕ) (context : RedisContext) :
    Follows Quiet (CRedisConnection.replyAll net context vecRedisCmd) := by
  induction vecRedisCmd generalizing context with
  | nil => exact .pure _
  | cons command vecRedisCmd ih =>
    refine .bind ?_ fun _ => .ite (ih _) (.pure _)
    exact .bind (.update (quiet_setReply command _)) fun _ => .bind (redisGetReply_quiet net context) fun _ =>
      .bind (.update (quiet_setReply command _)) fun _ => .pure _

/-- The server has an address to connect to. -/
def Named (server : CRedisServer) : Prop := server.strHost ≠ [] ∨ server.vecHosts ≠ []

/-- The link of a connection is there and waits for nothing. -/
def Up (conn : CRedisConnection) : Prop := ∃ address, conn.pContext = some (waiting address [])

/-- The log goes on, the server keeps its timeout and an address, and commands keep their words. -/
structure Steady (serv : ℕ) (source target : World (Pool ρ)) : Prop where
  log : source.log <+: target.log
  timeout : (target.servers.server serv).nSerTimeout = (source.servers.server serv).nSerTimeout
  named : Named (source.servers.server serv) → Named (target.servers.server serv)
  words : ∀ command, (target.command command).args = (source.command command).args

theorem Steady.trans {source middle target : World (Pool ρ)} (first : Steady serv source middle)
    (second : Steady serv middle target) : Steady serv source target where
  log := first.log.trans second.log
  timeout := second.timeout.trans first.timeout
  named here := second.named (first.named here)
  words command := (second.words command).trans (first.words command)

theorem Quiet.steady {source target : World (Pool ρ)} (quiet : Quiet source target) : Steady serv source target :=
  ⟨quiet.extends, by rw [quiet.server], by rw [quiet.server]; exact id, quiet.words⟩

/-- The time stamp is what the clock showed somewhere on the way. -/
def Stamped (source target : World (Pool ρ)) (conn : CRedisConnection) : Prop :=
  ∃ log, source.log <+: log ∧ log <+: target.log ∧ conn.nUseTime = net.clock log

theorem renewed_connect (host : CppString) (port now : ℤ) (source : World (Pool ρ)) :
    Renewed source ((source.note (.connect host port true)).note (.time now)) :=
  ⟨[.connect host port true, .time now], by simp only [World.note, List.append_assoc, List.singleton_append], _,
    List.mem_cons_self, rfl⟩

theorem steady_note (event : Event) (source : World (Pool ρ)) : Steady serv source (source.note event) :=
  ⟨List.prefix_append _ _, rfl, id, fun _ => rfl⟩

section

variable {net} (faultless : Faultless net) {source : World (Pool ρ)} {conn : CRedisConnection}
include faultless

theorem connectToRedis_ok (host : CppString) (port : ℤ) (conn : CRedisConnection) (source : World (Pool ρ)) :
    CRedisConnection.connectToRedis net host port conn source =
      let connected := source.note (.connect host port true)
      .ok ((true, ⟨some (waiting (host, port) []), net.clock connected.log⟩),
        connected.note (.time (net.clock connected.log))) :=
  (bind_of_ok (redisConnect_ok faultless host port source)).trans rfl

theorem reconnect_ok (named : Named (source.servers.server serv)) (conn : CRedisConnection) :
    ∃ renewed target, CRedisConnection.reconnect net serv conn source = .ok ((true, renewed), target) ∧ Up renewed ∧
      Stamped net source target renewed ∧ Renewed source target ∧ Steady serv source target := by
  rw [CRedisConnection.reconnect, bind_of_ok (get_apply source)]
  dsimp only
  by_cases nameless : (source.servers.server serv).strHost = []
  · obtain ⟨hostPair, vecHosts, hosts⟩ := List.exists_cons_of_ne_nil (named.resolve_left (not_not.mpr nameless))
    rw [if_pos nameless, hosts, CRedisConnection.connectToAny,
      bind_of_ok (connectToRedis_ok faultless hostPair.1 hostPair.2 conn source)]
    refine ⟨_, _, rfl, ⟨hostPair, rfl⟩, ⟨_, List.prefix_append _ _, List.prefix_append _ _, rfl⟩,
      renewed_connect _ _ _ source, ?_⟩
    refine ((steady_note _ source).trans (steady_note _ _)).trans ⟨List.prefix_rfl, ?_, fun _ => .inr ?_, fun _ => rfl⟩
    · simp only [World.note, Function.update_self]
    · simp only [World.note, Function.update_self, hosts]
      exact List.cons_ne_nil _ _
  · rw [if_neg nameless, bind_of_ok (connectToRedis_ok faultless _ _ conn source)]
    refine ⟨_, _, rfl, ⟨(_, _), rfl⟩, ⟨_, List.prefix_append _ _, List.prefix_append _ _, rfl⟩,
      renewed_connect _ _ _ source, (steady_note _ source).trans (steady_note _ _)⟩

theorem refreshIdle_spec (named : Named (source.servers.server serv)) (up : Up conn) (tmNow : ℤ) :
    ∃ ready target, CRedisConnection.refreshIdle net serv tmNow conn source = .ok ((true, ready), target) ∧ Up ready ∧
      (ready.nUseTime = conn.nUseTime ∨ Stamped net source target ready) ∧ Steady serv source target ∧
      (Renewed source target ↔ (source.servers.server serv).nSerTimeout ≤ tmNow - conn.nUseTime) := by
  obtain ⟨address, linked⟩ := up
  rw [CRedisConnection.refreshIdle, bind_of_ok (get_apply source), linked]
  by_cases old : (source.servers.server serv).nSerTimeout ≤ tmNow - conn.nUseTime
  · obtain ⟨renewed, target, ran, up, stamped, connected, steady⟩ := reconnect_ok faultless named conn
    exact ⟨renewed, target, by rw [if_pos (.inr old), ran], up, .inr stamped, steady, iff_of_true connected old⟩
  · have kept : ¬ ((some (waiting address [])).isNone = true ∨
        tmNow - conn.nUseTime ≥ (source.servers.server serv).nSerTimeout) :=
      not_or.mpr ⟨Bool.false_ne_true, old⟩
    refine ⟨conn, source, by rw [if_neg kept]; rfl, ⟨address, linked⟩, .inl rfl, Quiet.steady (refl source), ?_⟩
    refine iff_of_false ?_ old
    rintro ⟨events, same, event, member, -⟩
    rw [List.self_eq_append_right.mp same] at member
    cases member

theorem connRequest_spec {command : ℕ} (named : Named (source.servers.server serv)) (up : Up conn)
    (words : (source.command command).args ≠ []) :
    ∃ used target, CRedisConnection.connRequest net serv command conn source = .ok ((.success, used), target) ∧
      Up used ∧ used.nUseTime = net.clock source.log ∧ Steady serv source target ∧
      (Renewed source target ↔
        (source.servers.server serv).nSerTimeout ≤ net.clock source.log - conn.nUseTime) := by
  have timed : time net source = .ok (net.clock source.log, source.note (.time (net.clock source.log))) := rfl
  have quiet := time_quiet net _ _ _ timed
  obtain ⟨ready, fresh, ranIdle, ⟨address, linked⟩, -, steady, renewed⟩ :=
    @refreshIdle_spec _ _ _ faultless (source.note (.time (net.clock source.log))) conn named up (net.clock source.log)
  have wordsNow : (fresh.command command).args ≠ [] := by
    rw [steady.words]
    exact words
  obtain ⟨target, ran, -⟩ := cmdRequest_ok faultless address wordsNow
  have last := cmdRequest_quiet net command _ _ _ _ ran
  refine ⟨⟨some (waiting address []), net.clock source.log⟩, target, ?_, ⟨address, rfl⟩, rfl,
    (quiet.steady.trans steady).trans last.steady, (renewed_frame quiet steady.log last).trans renewed⟩
  rw [CRedisConnection.connRequest, bind_of_ok timed, bind_of_ok ranIdle]
  dsimp only
  rw [Bool.not_true, if_neg Bool.false_ne_true, linked]
  exact (bind_of_ok ran).trans rfl

theorem connRequests_spec {vecRedisCmd : List ℕ} (named : Named (source.servers.server serv)) (up : Up conn)
    (words : ∀ command ∈ vecRedisCmd, (source.command command).args ≠ []) :
    ∃ used target, CRedisConnection.connRequests net serv vecRedisCmd conn source = .ok ((.success, used), target) ∧
      Up used ∧ (used.nUseTime = conn.nUseTime ∨ Stamped net source target used) ∧ Steady serv source target ∧
      (Renewed source target ↔
        (source.servers.server serv).nSerTimeout ≤ net.clock source.log - conn.nUseTime) := by
  have timed : time net source = .ok (net.clock source.log, source.note (.time (net.clock source.log))) := rfl
  have quiet := time_quiet net _ _ _ timed
  obtain ⟨ready, fresh, ranIdle, ⟨address, linked⟩, stamp, steady, renewed⟩ :=
    @refreshIdle_spec _ _ _ faultless (source.note (.time (net.clock source.log))) conn named up (net.clock source.log)
  have wordsNow : ∀ command ∈ vecRedisCmd, (fresh.command command).args ≠ [] := fun command member => by
    rw [steady.words]
    exact words command member
  obtain ⟨middle, ranAppend, -⟩ := appendAll_ok faultless address wordsNow []
  have appended := appendAll_quiet net vecRedisCmd _ _ _ _ ranAppend
  have same : withWords fresh vecRedisCmd = withWords middle vecRedisCmd :=
    List.map_congr_left fun command _ => congrArg (Prod.mk command) (appended.words command).symm
  rw [List.nil_append, same] at ranAppend
  obtain ⟨target, ran, -⟩ := @replyAll_ok _ net faultless address (fun _ => address) vecRedisCmd (fun _ _ => rfl) middle
  have last := IsTrans.trans _ _ _ appended (replyAll_quiet net vecRedisCmd _ _ _ _ ran)
  refine ⟨{ ready with pContext := some (waiting address []) }, target, ?_, ⟨address, rfl⟩, ?_,
    (quiet.steady.trans steady).trans last.steady, (renewed_frame quiet steady.log last).trans renewed⟩
  · rw [CRedisConnection.connRequests, bind_of_ok timed, bind_of_ok ranIdle]
    dsimp only
    rw [Bool.not_true, if_neg Bool.false_ne_true, linked]
    exact (bind_of_ok ranAppend).trans ((bind_of_ok ran).trans rfl)
  · refine stamp.imp id ?_
    rintro ⟨log, early, late, shown⟩
    exact ⟨log, quiet.extends.trans early, late.trans last.extends, shown⟩

end

inductive Call where
  | single (command : ℕ)
  | pipelined (vecRedisCmd : List ℕ)

def Call.commands : Call → List ℕ
  | single command => [command]
  | pipelined vecRedisCmd => vecRedisCmd

def Call.program (serv : ℕ) : Call → CRedisConnection → Action (Pool ρ) (ReturnCode × CRedisConnection)
  | single command => CRedisConnection.connRequest net serv command
  | pipelined vecRedisCmd => CRedisConnection.connRequests net serv vecRedisCmd

/-- The pooled connections of a server, and when each was last used for a request. -/
structure Usage (ρ ι : Type) where
  world : World (Pool ρ)
  conn : ι → CRedisConnection
  lastUse : ι → ℤ

/-- A request that a connection has served. -/
structure Served (ρ ι : Type) where
  before : Usage ρ ι
  i : ι
  call : Call
  world : World (Pool ρ)

variable {ι : Type} [DecidableEq ι]

/-- A run of requests on any of the connections, with other steps of the program in between. -/
inductive Run (serv : ℕ) : Usage ρ ι → List (Served ρ ι) → Prop
  | done (usage : Usage ρ ι) : Run serv usage []
  | other {usage : Usage ρ ι} {world : World (Pool ρ)} {served : List (Served ρ ι)}
      (log : usage.world.log <+: world.log)
      (server : world.servers.server serv = usage.world.servers.server serv)
      (rest : Run serv { usage with world := world } served) : Run serv usage served
  | request {usage : Usage ρ ι} {i : ι} {call : Call} {nRet : ReturnCode} {used : CRedisConnection}
      {world : World (Pool ρ)} {served : List (Served ρ ι)}
      (words : ∀ command ∈ call.commands, (usage.world.command command).args ≠ [])
      (ran : call.program net serv (usage.conn i) usage.world = .ok ((nRet, used), world))
      (rest : Run serv ⟨world, Function.update usage.conn i used,
        Function.update usage.lastUse i (net.clock usage.world.log)⟩ served) :
      Run serv usage (⟨usage, i, call, world⟩ :: served)

/-- The connections are up, and no time stamp is ahead of the clock. -/
structure Ready (serv : ℕ) (timeout : ℤ) (usage : Usage ρ ι) : Prop where
  named : Named (usage.world.servers.server serv)
  timeout : (usage.world.servers.server serv).nSerTimeout = timeout
  up : ∀ i, Up (usage.conn i)
  past : ∀ i, (usage.conn i).nUseTime ≤ net.clock usage.world.log

/-- How long the connection has not been used for a request. -/
def Served.unused (served : Served ρ ι) : ℤ := net.clock served.before.world.log - served.before.lastUse served.i

/-- How old the time stamp of the connection is. -/
def Served.age (served : Served ρ ι) : ℤ :=
  net.clock served.before.world.log - (served.before.conn served.i).nUseTime

/-- The connection was made anew only after it was not used for the timeout of the server. -/
def Proper (timeout : ℤ) (served : Served ρ ι) : Prop :=
  Renewed served.before.world served.world → 0 < timeout ∧ timeout ≤ served.unused net

/-- There is a timeout; and the time stamp is younger, or the connection was not used for that long. -/
def Timely (timeout : ℤ) (served : Served ρ ι) : Prop :=
  0 < timeout ∧ (served.age net < timeout ∨ timeout ≤ served.unused net)

section

variable {net} (faultless : Faultless net) (forward : ∀ log more, log <+: more → net.clock log ≤ net.clock more)
  {timeout : ℤ}
include faultless forward

omit [DecidableEq ι] in
theorem call_spec {usage : Usage ρ ι} (ready : Ready net serv timeout usage) {i : ι} {call : Call}
    (words : ∀ command ∈ call.commands, (usage.world.command command).args ≠ []) {nRet : ReturnCode}
    {used : CRedisConnection} {world : World (Pool ρ)}
    (ran : call.program net serv (usage.conn i) usage.world = .ok ((nRet, used), world)) :
    Up used ∧ used.nUseTime ≤ net.clock world.log ∧ Steady serv usage.world world ∧
      (Renewed usage.world world ↔ timeout ≤ net.clock usage.world.log - (usage.conn i).nUseTime) := by
  cases call with
  | single command =>
    obtain ⟨_, _, does, up, stamp, steady, renewed⟩ :=
      connRequest_spec faultless ready.named (ready.up i) (words command (List.mem_singleton_self command))
    cases does.symm.trans ran
    rw [ready.timeout] at renewed
    exact ⟨up, stamp.trans_le (forward _ _ steady.log), steady, renewed⟩
  | pipelined vecRedisCmd =>
    obtain ⟨_, _, does, up, stamp, steady, renewed⟩ := connRequests_spec faultless ready.named (ready.up i) words
    cases does.symm.trans ran
    rw [ready.timeout] at renewed
    refine ⟨up, ?_, steady, renewed⟩
    rcases stamp with kept | ⟨log, -, late, shown⟩
    · rw [kept]
      exact (ready.past i).trans (forward _ _ steady.log)
    · rw [shown]
      exact forward _ _ late

theorem ready_call {usage : Usage ρ ι} (ready : Ready net serv timeout usage) {i : ι} {call : Call}
    (words : ∀ command ∈ call.commands, (usage.world.command command).args ≠ []) {nRet : ReturnCode}
    {used : CRedisConnection} {world : World (Pool ρ)} {lastUse : ι → ℤ}
    (ran : call.program net serv (usage.conn i) usage.world = .ok ((nRet, used), world)) :
    Ready net serv timeout ⟨world, Function.update usage.conn i used, lastUse⟩ := by
  obtain ⟨up, past, steady, -⟩ := call_spec faultless forward ready words ran
  refine ⟨steady.named ready.named, steady.timeout.trans ready.timeout, fun j => ?_, fun j => ?_⟩
  · dsimp only
    by_cases same : j = i
    · subst same
      rwa [Function.update_self]
    · rw [Function.update_of_ne same]
      exact ready.up j
  · dsimp only
    by_cases same : j = i
    · subst same
      rwa [Function.update_self]
    · rw [Function.update_of_ne same]
      exact (ready.past j).trans (forward _ _ steady.log)

omit [DecidableEq ι] in
theorem proper_iff {usage : Usage ρ ι} (ready : Ready net serv timeout usage) (natural : 0 ≤ timeout) {i : ι}
    {call : Call} (words : ∀ command ∈ call.commands, (usage.world.command command).args ≠ []) {nRet : ReturnCode}
    {used : CRedisConnection} {world : World (Pool ρ)}
    (ran : call.program net serv (usage.conn i) usage.world = .ok ((nRet, used), world)) :
    Proper net timeout ⟨usage, i, call, world⟩ ↔ Timely net timeout ⟨usage, i, call, world⟩ := by
  have renewed := (call_spec faultless forward ready words ran).2.2.2
  have past := ready.past i
  simp only [Proper, Timely, Served.age, Served.unused, renewed]
  constructor
  · intro proper
    by_cases old : timeout ≤ net.clock usage.world.log - (usage.conn i).nUseTime
    · exact ⟨(proper old).1, .inr (proper old).2⟩
    · exact ⟨by omega, .inl (not_le.mp old)⟩
  · rintro ⟨positive, young | unused⟩ old
    · exact absurd old (not_le.mpr young)
    · exact ⟨positive, unused⟩

/-- In every run, the connections are made anew properly just when all requests are timely. -/
theorem renewals_proper_iff {usage : Usage ρ ι} {served : List (Served ρ ι)} (natural : 0 ≤ timeout)
    (ready : Ready net serv timeout usage) (run : Run net serv usage served) :
    (∀ request ∈ served, Proper net timeout request) ↔ ∀ request ∈ served, Timely net timeout request := by
  induction run with
  | done usage =>
    have none {motive : Served ρ ι → Prop} : ∀ request ∈ ([] : List (Served ρ ι)), motive request :=
      fun _ member => absurd member List.not_mem_nil
    exact iff_of_true none none
  | other log server rest ih =>
    refine ih ⟨?_, ?_, ready.up, fun i => (ready.past i).trans (forward _ _ log)⟩
    · rw [server]
      exact ready.named
    · rw [server]
      exact ready.timeout
  | request words ran rest ih =>
    have here := proper_iff faultless forward ready natural words ran
    have later := ih (ready_call faultless forward ready words ran)
    rw [List.forall_mem_cons, List.forall_mem_cons, here, later]

/-- Where there is a timeout, requests without a pipeline are timely. -/
theorem singles_timely {usage : Usage ρ ι} {served : List (Served ρ ι)} (positive : 0 < timeout)
    (ready : Ready net serv timeout usage) (stamped : ∀ i, usage.lastUse i ≤ (usage.conn i).nUseTime)
    (run : Run net serv usage served) (singles : ∀ request ∈ served, ∃ command, request.call = .single command) :
    ∀ request ∈ served, Timely net timeout request := by
  induction run with
  | done usage => exact fun _ member => absurd member List.not_mem_nil
  | other log server rest ih =>
    refine ih ⟨?_, ?_, ready.up, fun i => (ready.past i).trans (forward _ _ log)⟩ stamped singles
    · rw [server]
      exact ready.named
    · rw [server]
      exact ready.timeout
  | @request usage i call _ used world served words ran rest ih =>
    obtain ⟨command, rfl⟩ := singles _ List.mem_cons_self
    refine List.forall_mem_cons.mpr ⟨⟨positive, ?_⟩,
      ih (ready_call faultless forward ready words ran) (fun j => ?_) fun request member =>
        singles request (List.mem_cons_of_mem _ member)⟩
    · have recent := stamped i
      simp only [Served.age, Served.unused]
      omega
    · obtain ⟨_, _, does, -, stamp, -⟩ :=
        connRequest_spec faultless ready.named (ready.up i) (words command (List.mem_singleton_self command))
      cases does.symm.trans ran
      dsimp only
      by_cases same : j = i
      · subst same
        rw [Function.update_self, Function.update_self, stamp]
      · rw [Function.update_of_ne same, Function.update_of_ne same]
        exact stamped j

end

/-- Surroundings where everything succeeds, and the clock stands still. -/
def still : Network Unit where
  clock _ := 0
  connect _ _ := true
  append _ := true
  receive _ := none
  rounds _ := 0
  serve redis _ _ := (.status (text "OK"), redis)

theorem still_faultless : Faultless still := ⟨fun _ _ => rfl, fun _ => rfl, fun _ => rfl, fun _ => rfl⟩

/-- One connection, used just now, and a command. -/
def fresh (timeout : ℤ) : Usage Unit Unit where
  world :=
    { client := {}, command := fun _ => { args := [text "ping"] }
      servers := { server := fun _ => { strHost := text "a", nPort := 1, nSerTimeout := timeout }, redis := () } }
  conn _ := { pContext := some (waiting (text "a", 1) []) }
  lastUse _ := 0

theorem fresh_ready {net : Network Unit} (starts : net.clock [] = 0) (timeout : ℤ) :
    Ready net 0 timeout (fresh timeout) :=
  ⟨.inl (by decide : text "a" ≠ []), rfl, fun _ => ⟨_, rfl⟩, fun _ => starts.ge⟩

def isWait : Event → Bool
  | .waitForRefresh => true
  | _ => false

/-- A clock that goes on by 20 when a caller waits. -/
def aging : Network Unit := { still with clock := fun log => if log.any isWait then 20 else 0 }

theorem aging_faultless : Faultless aging := ⟨fun _ _ => rfl, fun _ => rfl, fun _ => rfl, fun _ => rfl⟩

theorem aging_forward (log more : List Event) (later : log <+: more) : aging.clock log ≤ aging.clock more := by
  obtain ⟨events, rfl⟩ := later
  simp only [aging, List.any_append]
  cases log.any isWait <;> cases events.any isWait <;> decide

/-- The same, after a caller has waited. -/
def waited : Usage Unit Unit :=
  { fresh 10 with world := { (fresh 10).world with log := [.waitForRefresh] } }

/-- A connection that was not used for twice its timeout is made anew for a request, and the pipeline after it finds it
fresh. -/
theorem renewals_proper_iff_twice :
    ∃ used world target, Run aging 0 (fresh 10)
        [⟨waited, (), .single 0, world⟩, ⟨⟨world, fun _ => used, fun _ => 20⟩, (), .pipelined [0, 0], target⟩] ∧
      (Renewed waited.world world ∧ ¬ Renewed world target) ∧
      ∀ served ∈ ([⟨waited, (), .single 0, world⟩,
        ⟨⟨world, fun _ => used, fun _ => 20⟩, (), .pipelined [0, 0], target⟩] : List (Served Unit Unit)),
        Proper aging 10 served := by
  have ready : Ready aging 0 10 waited := ⟨.inl (by decide : text "a" ≠ []), rfl, fun _ => ⟨_, rfl⟩, fun _ =>
    (by decide : (0 : ℤ) ≤ 20)⟩
  have words : ∀ command ∈ (Call.single 0).commands, (waited.world.command command).args ≠ [] := by decide
  obtain ⟨used, world, ran, up, stamp, steady, renewed⟩ := connRequest_spec aging_faultless ready.named (ready.up ())
    (words 0 (List.mem_singleton_self 0))
  obtain ⟨events, log⟩ := steady.log
  have late : aging.clock world.log = 20 := by
    rw [← log]
    rfl
  have others : ∀ command ∈ (Call.pipelined [0, 0]).commands, (world.command command).args ≠ [] := by
    intro command _
    rw [steady.words]
    exact List.cons_ne_nil _ _
  obtain ⟨_, target, ranAll, -, -, -, renewedAll⟩ :=
    connRequests_spec aging_faultless (steady.named ready.named) up others
  rw [steady.timeout, late, stamp] at renewedAll
  have run : Run aging 0 (fresh 10) [⟨waited, (), .single 0, world⟩,
      ⟨⟨world, fun _ => used, fun _ => 20⟩, (), .pipelined [0, 0], target⟩] := by
    have one {α : Type} (before : Unit → α) (after : α) : Function.update before () after = fun _ => after :=
      funext fun _ => Function.update_self ..
    refine .other (show (fresh 10).world.log <+: waited.world.log from ⟨_, rfl⟩) rfl (.request words ran ?_)
    rw [one, one]
    exact .request others ranAll (.done _)
  refine ⟨used, world, target, run, ⟨renewed.mpr (by decide), fun again => ?_⟩, ?_⟩
  · exact absurd (renewedAll.mp again) (by decide)
  · apply (renewals_proper_iff aging_faultless aging_forward (by decide) (fresh_ready rfl 10) run).mpr
    refine List.forall_mem_cons.mpr ⟨⟨by decide, .inr (by decide : (10 : ℤ) ≤ 20 - 0)⟩,
      List.forall_mem_singleton.mpr ⟨by decide, .inl ?_⟩⟩
    simp only [Served.age, late, stamp]
    decide

/-- Without a timeout, a connection that was just used is made anew. -/
theorem renewed_without_timeout :
    ∃ world, Run still 0 (fresh 0) [⟨fresh 0, (), .single 0, world⟩] ∧
      ¬ Proper still 0 (⟨fresh 0, (), .single 0, world⟩ : Served Unit Unit) := by
  have words : ∀ command ∈ (Call.single 0).commands, ((fresh 0).world.command command).args ≠ [] := by decide
  obtain ⟨used, world, ran, -, -, -, renewed⟩ := connRequest_spec still_faultless (@fresh_ready still rfl 0).named
    ((@fresh_ready still rfl 0).up ()) (words 0 (List.mem_singleton_self 0))
  refine ⟨world, .request words ran (.done _), fun proper => ?_⟩
  exact absurd (proper (renewed.mpr (by decide))).1 (by decide)

end CppRedis.Soundness.Renewals
