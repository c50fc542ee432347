import CppRedis.Soundness.Grouping
import CppRedis.Soundness.Slots
import CppRedis.Model.RedisClient.Refresh

/-! # Runs without faults

Where every call on a connection succeeds, a request carries out its commands once, at the node that its
server stands for, and stores their replies. A method then does what its command does at that node, and
the client and its connections are as ready for the next call as before.
-/

namespace CppRedis.Soundness.FaultFree

open Machine Machine.Program Model.RedisClient Model.RedisCpp Grouping

/-- Every call succeeds. Nothing asks for a refresh then, so the refresh thread waits. -/
structure Faultless {ρ : Type} (net : Network ρ) : Prop where
  connect : ∀ log address, net.connect log address = true
  append : ∀ log, net.append log = true
  receive : ∀ log, net.receive log = none
  rounds : ∀ log, net.rounds log = 0

/-- A context that waits for these commands. -/
def waiting (address : CppString × ℤ) (pending : List (ℕ × List CppString)) : RedisContext :=
  { host := address.1, port := address.2, pending := pending }

/-- A server that stands for the node at an address. -/
structure At (address : CppString × ℤ) (server : CRedisServer) : Prop where
  host : server.strHost = address.1
  port : server.nPort = address.2
  named : address.1 ≠ []

theorem At.unique {address other : CppString × ℤ} {server : CRedisServer} (here : At address server)
    (there : At other server) : address = other :=
  Prod.ext (here.host.symm.trans there.host) (here.port.symm.trans there.port)

/-- A connection that is down, or waits for nothing. -/
def Clean (address : CppString × ℤ) (conn : CRedisConnection) : Prop :=
  conn.pContext = none ∨ conn.pContext = some (waiting address [])

/-- A server with idle connections. -/
structure Linked (address : CppString × ℤ) (server : CRedisServer) : Prop extends At address server where
  idle : server.queIdleConn ≠ []
  clean : ∀ conn ∈ server.queIdleConn, Clean address conn

variable {ρ : Type} (net : Network ρ)

/-- A command is carried out at an address, and its reply is stored. -/
def answer (address : CppString × ℤ) (command : ℕ) (source : World (Pool ρ)) : World (Pool ρ) :=
  let reply := net.serve source.servers.redis address (source.command command).args
  { source with
    command := Function.update source.command command { source.command command with pReply := some reply.1 }
    servers := { source.servers with redis := reply.2 } }

/-- Commands are carried out one after the other. -/
def answerAll (place : ℕ → CppString × ℤ) (vecCmd : List ℕ) (source : World (Pool ρ)) : World (Pool ρ) :=
  vecCmd.foldl (fun world command => answer net (place command) command world) source

/-- Another log and other connections. -/
def repool (server : ℕ → CRedisServer) (log : List Event) (source : World (Pool ρ)) : World (Pool ρ) :=
  { source with servers := { source.servers with server := server }, log := log }

/-- The worlds differ at most in their logs. -/
def UpToLog (source target : World (Pool ρ)) : Prop := ∃ log, target = repool source.servers.server log source

/-- The worlds differ at most in their logs and connections, and servers are as ready as before. -/
def UpToPool (source target : World (Pool ρ)) : Prop :=
  ∃ server log, target = repool server log source ∧
    ∀ serv address, Linked address (source.servers.server serv) → Linked address (server serv)

theorem UpToLog.rfl' (source : World (Pool ρ)) : UpToLog source source := ⟨source.log, rfl⟩

theorem UpToLog.trans {source middle target : World (Pool ρ)} (first : UpToLog source middle)
    (second : UpToLog middle target) : UpToLog source target := by
  obtain ⟨_, rfl⟩ := first
  obtain ⟨log, rfl⟩ := second
  exact ⟨log, rfl⟩

theorem UpToLog.upToPool {source target : World (Pool ρ)} (same : UpToLog source target) : UpToPool source target := by
  obtain ⟨log, rfl⟩ := same
  exact ⟨_, log, rfl, fun _ _ linked => linked⟩

theorem UpToPool.trans {source middle target : World (Pool ρ)} (first : UpToPool source middle)
    (second : UpToPool middle target) : UpToPool source target := by
  obtain ⟨_, _, rfl, kept⟩ := first
  obtain ⟨server, log, rfl, kept'⟩ := second
  exact ⟨server, log, rfl, fun serv address linked => kept' serv address (kept serv address linked)⟩

theorem answerAll_repool (place : ℕ → CppString × ℤ) (vecCmd : List ℕ) (server : ℕ → CRedisServer) (log : List Event)
    (source : World (Pool ρ)) :
    answerAll net place vecCmd (repool server log source) = repool server log (answerAll net place vecCmd source) := by
  induction vecCmd generalizing source with
  | nil => rfl
  | cons command vecCmd ih => exact ih (answer net (place command) command source)

/-- Commands change no connections. -/
theorem answerAll_server (place : ℕ → CppString × ℤ) (vecCmd : List ℕ) (source : World (Pool ρ)) :
    (answerAll net place vecCmd source).servers.server = source.servers.server := by
  induction vecCmd generalizing source with
  | nil => rfl
  | cons command vecCmd ih => exact ih (answer net (place command) command source)

theorem answerAll_args (place : ℕ → CppString × ℤ) (vecCmd : List ℕ) (source : World (Pool ρ)) (command : ℕ) :
    ((answerAll net place vecCmd source).command command).args = (source.command command).args := by
  induction vecCmd generalizing source with
  | nil => rfl
  | cons first vecCmd ih =>
    refine (ih (answer net (place first) first source)).trans ?_
    by_cases same : command = first
    · subst first
      simp only [answer, Function.update_self]
    · simp only [answer, Function.update_of_ne same]

/-- A command that is carried out has a reply. -/
theorem answerAll_stored (place : ℕ → CppString × ℤ) {vecCmd : List ℕ} {source : World (Pool ρ)} {command : ℕ}
    (here : command ∈ vecCmd ∨ (source.command command).pReply ≠ none) :
    ((answerAll net place vecCmd source).command command).pReply ≠ none := by
  induction vecCmd generalizing source with
  | nil => exact here.resolve_left List.not_mem_nil
  | cons first vecCmd ih =>
    apply @ih (answer net (place first) first source)
    by_cases same : command = first
    · subst first
      right
      simp only [answer, Function.update_self]
      exact Option.some_ne_none _
    · refine here.imp (fun member => (List.mem_cons.mp member).resolve_left same) fun stored => ?_
      simpa only [answer, Function.update_of_ne same] using stored

theorem UpToLog.answerAll {source target : World (Pool ρ)} (same : UpToLog source target)
    (place : ℕ → CppString × ℤ) (vecCmd : List ℕ) :
    UpToLog (answerAll net place vecCmd source) (answerAll net place vecCmd target) := by
  obtain ⟨log, rfl⟩ := same
  refine ⟨log, ?_⟩
  rw [answerAll_repool, answerAll_server]

theorem UpToPool.answerAll {source target : World (Pool ρ)} (same : UpToPool source target)
    (place : ℕ → CppString × ℤ) (vecCmd : List ℕ) :
    UpToPool (answerAll net place vecCmd source) (answerAll net place vecCmd target) := by
  obtain ⟨server, log, rfl, kept⟩ := same
  refine ⟨server, log, answerAll_repool net place vecCmd server log source, ?_⟩
  rwa [answerAll_server]

theorem time_ok (source : World (Pool ρ)) : ∃ now target, time net source = .ok (now, target) ∧ UpToLog source target :=
  ⟨_, _, rfl, _, rfl⟩

section

variable {net} (faultless : Faultless net)
include faultless

theorem redisConnect_ok (strHost : CppString) (nPort : ℤ) (source : World (Pool ρ)) :
    redisConnect net strHost nPort source =
      .ok (some (waiting (strHost, nPort) []), source.note (.connect strHost nPort true)) := by
  rw [redisConnect, bind_of_ok (get_apply source), faultless.connect]
  rfl

variable (address : CppString × ℤ)

theorem append_ok (pending : List (ℕ × List CppString)) (command : ℕ) (source : World (Pool ρ)) :
    redisAppendCommandArgv net (waiting address pending) command source =
      .ok ((true, waiting address (pending ++ [(command, (source.command command).args)])),
        source.note (.append command true)) := by
  rw [redisAppendCommandArgv, bind_of_ok (get_apply source), waiting, if_neg Bool.false_ne_true, faultless.append]
  rfl

theorem getReply_ok (command : ℕ) (args : List CppString) (rest : List (ℕ × List CppString)) (source : World (Pool ρ)) :
    redisGetReply net (waiting address ((command, args) :: rest)) source =
      .ok ((some (net.serve source.servers.redis address args).1, waiting address rest),
        { source.note (.reply command (net.serve source.servers.redis address args).1) with
          servers := { source.servers with redis := (net.serve source.servers.redis address args).2 } }) := by
  rw [redisGetReply, bind_of_ok (get_apply source), waiting, if_neg Bool.false_ne_true, faultless.receive]
  rfl

theorem redisCommandArgv_ok (command : ℕ) (source : World (Pool ρ)) :
    redisCommandArgv net (waiting address []) command source =
      let reply := net.serve source.servers.redis address (source.command command).args
      .ok ((some reply.1, waiting address []), { (source.note (.append command true)).note (.reply command reply.1) with
        servers := { source.servers with redis := reply.2 } }) := by
  rw [redisCommandArgv, bind_of_ok (append_ok faultless address [] command source)]
  exact getReply_ok faultless address command _ [] _

/-- The next reply is stored with its command. -/
theorem cmdReply_ok {command : ℕ} {source : World (Pool ρ)} {args : List CppString}
    (same : (source.command command).args = args) (rest : List (ℕ × List CppString)) :
    ∃ target, CRedisCommand.cmdReply net command (waiting address ((command, args) :: rest)) source =
        .ok ((.success, waiting address rest), target) ∧ UpToLog (answer net address command source) target := by
  subst same
  refine ⟨(answer net address command source).note
    (.reply command (net.serve source.servers.redis address (source.command command).args).1), ?_, _, rfl⟩
  rw [CRedisCommand.cmdReply, bind_of_ok (modify_apply _ source),
    bind_of_ok (getReply_ok faultless address command _ rest (source.setReply command none))]
  simp only [World.setReply, World.note, answer, bind_apply, modify_apply, pure_apply, Option.isSome_some, ↓reduceIte,
    Function.update_self, Function.update_idem]

theorem cmdRequest_ok {command : ℕ} {source : World (Pool ρ)} (words : (source.command command).args ≠ []) :
    ∃ target, CRedisCommand.cmdRequest net command (some (waiting address [])) source =
        .ok ((.success, some (waiting address [])), target) ∧ UpToLog (answer net address command source) target := by
  have nonempty : ¬ (source.command command).args.length ≤ 0 := fun empty =>
    words (List.eq_nil_of_length_eq_zero (Nat.le_zero.mp empty))
  refine ⟨((answer net address command source).note (.append command true)).note
    (.reply command (net.serve source.servers.redis address (source.command command).args).1), ?_, _, rfl⟩
  rw [CRedisCommand.cmdRequest, bind_of_ok (get_apply source), if_neg nonempty]
  dsimp only
  rw [bind_of_ok (modify_apply _ source),
    bind_of_ok (redisCommandArgv_ok faultless address command (source.setReply command none))]
  simp only [World.setReply, World.note, answer, bind_apply, modify_apply, pure_apply, Option.isSome_some, ↓reduceIte,
    Function.update_self, Function.update_idem]

/-- A server renews a connection that is down or old. -/
theorem refreshIdle_ok {serv : ℕ} {source : World (Pool ρ)} (here : At address (source.servers.server serv)) (tmNow : ℤ)
    {conn : CRedisConnection} (clean : Clean address conn) :
    ∃ renewed target, CRedisConnection.refreshIdle net serv tmNow conn source = .ok ((true, renewed), target) ∧
      renewed.pContext = some (waiting address []) ∧ UpToLog source target := by
  rw [CRedisConnection.refreshIdle, bind_of_ok (get_apply source)]
  split_ifs with old
  · have named : (source.servers.server serv).strHost ≠ [] := by
      rw [here.host]
      exact here.named
    rw [CRedisConnection.reconnect, bind_of_ok (get_apply source)]
    dsimp only
    rw [if_neg named, here.host, here.port]
    obtain ⟨now, target, ran, same⟩ := time_ok net (source.note (.connect address.1 address.2 true))
    refine ⟨{ pContext := some (waiting address []), nUseTime := now }, target, ?_, rfl,
      UpToLog.trans ⟨_, rfl⟩ same⟩
    have connected : CRedisConnection.connectToRedis net address.1 address.2 conn source =
        .ok ((true, { pContext := some (waiting address []), nUseTime := now }), target) :=
      (bind_of_ok (redisConnect_ok faultless address.1 address.2 source)).trans ((bind_of_ok ran).trans rfl)
    exact (bind_of_ok connected).trans rfl
  · refine ⟨conn, source, rfl, clean.resolve_left fun down => old (.inl ?_), UpToLog.rfl' source⟩
    rw [down, Option.isNone_none]

theorem connRequest_ok {serv command : ℕ} {source : World (Pool ρ)} (here : At address (source.servers.server serv))
    (words : (source.command command).args ≠ []) {conn : CRedisConnection} (clean : Clean address conn) :
    ∃ used target, CRedisConnection.connRequest net serv command conn source = .ok ((.success, used), target) ∧
      Clean address used ∧ UpToLog (answer net address command source) target := by
  obtain ⟨tmNow, timed, ranTime, log, rfl⟩ := time_ok net source
  obtain ⟨renewed, ready, ranIdle, up, log', rfl⟩ :=
    @refreshIdle_ok _ net faultless address serv (repool source.servers.server log source) here tmNow conn clean
  obtain ⟨target, ran, last, rfl⟩ :=
    @cmdRequest_ok _ net faultless address command (repool source.servers.server log' source) words
  refine ⟨{ pContext := some (waiting address []), nUseTime := tmNow }, _, ?_, .inr rfl, last, rfl⟩
  rw [CRedisConnection.connRequest, bind_of_ok ranTime, bind_of_ok ranIdle]
  dsimp only
  rw [Bool.not_true, if_neg Bool.false_ne_true, up]
  exact (bind_of_ok ran).trans rfl

/-- The commands with their words, as a context keeps them. -/
def withWords (source : World (Pool ρ)) (vecCmd : List ℕ) : List (ℕ × List CppString) :=
  vecCmd.map fun command => (command, (source.command command).args)

theorem appendAll_ok {vecRedisCmd : List ℕ} {source : World (Pool ρ)}
    (words : ∀ command ∈ vecRedisCmd, (source.command command).args ≠ []) (pending : List (ℕ × List CppString)) :
    ∃ target, CRedisConnection.appendAll net (some (waiting address pending)) vecRedisCmd source =
        .ok ((.success, some (waiting address (pending ++ withWords source vecRedisCmd))), target) ∧
      UpToLog source target := by
  induction vecRedisCmd generalizing source pending with
  | nil => exact ⟨source, by rw [withWords, List.map_nil, List.append_nil]; rfl, UpToLog.rfl' source⟩
  | cons command vecRedisCmd ih =>
    have nonempty : ¬ (source.command command).args.length ≤ 0 := fun empty =>
      words command List.mem_cons_self (List.eq_nil_of_length_eq_zero (Nat.le_zero.mp empty))
    have first : CRedisCommand.cmdAppend net command (some (waiting address pending)) source =
        .ok ((.success, some (waiting address (pending ++ [(command, (source.command command).args)]))),
          source.note (.append command true)) := by
      rw [CRedisCommand.cmdAppend, bind_of_ok (get_apply source), if_neg nonempty]
      exact (bind_of_ok (append_ok faultless address pending command source)).trans rfl
    obtain ⟨target, ran, log, rfl⟩ := @ih (source.note (.append command true))
      (fun other member => words other (List.mem_cons_of_mem _ member))
        (pending ++ [(command, (source.command command).args)])
    refine ⟨_, ?_, log, rfl⟩
    rw [CRedisConnection.appendAll, bind_of_ok first]
    dsimp only
    rw [if_pos rfl, ran, List.append_assoc]
    rfl

theorem replyAll_ok {place : ℕ → CppString × ℤ} {vecRedisCmd : List ℕ}
    (placed : ∀ command ∈ vecRedisCmd, place command = address) (source : World (Pool ρ)) :
    ∃ target, CRedisConnection.replyAll net (waiting address (withWords source vecRedisCmd)) vecRedisCmd source =
        .ok ((.success, waiting address []), target) ∧ UpToLog (answerAll net place vecRedisCmd source) target := by
  induction vecRedisCmd generalizing source with
  | nil => exact ⟨source, rfl, UpToLog.rfl' source⟩
  | cons command vecRedisCmd ih =>
    obtain ⟨middle, ranFirst, first⟩ := @cmdReply_ok _ net faultless address command source _ rfl
      (withWords source vecRedisCmd)
    obtain ⟨target, ran, rest⟩ := ih (fun other member => placed other (List.mem_cons_of_mem _ member)) middle
    have same : withWords middle vecRedisCmd = withWords source vecRedisCmd := by
      obtain ⟨log, rfl⟩ := first
      refine List.map_congr_left fun other _ => congrArg (Prod.mk other) ?_
      exact answerAll_args net (fun _ => address) [command] source other
    rw [same] at ran
    refine ⟨target, (bind_of_ok ranFirst).trans ?_, ?_⟩
    · dsimp only
      rw [if_pos rfl]
      exact ran
    · rw [← placed command List.mem_cons_self] at first
      exact (first.answerAll net place vecRedisCmd).trans rest

theorem connRequests_ok {place : ℕ → CppString × ℤ} {vecRedisCmd : List ℕ} {serv : ℕ} {source : World (Pool ρ)}
    (placed : ∀ command ∈ vecRedisCmd, place command = address) (here : At address (source.servers.server serv))
    (words : ∀ command ∈ vecRedisCmd, (source.command command).args ≠ []) {conn : CRedisConnection}
    (clean : Clean address conn) :
    ∃ used target, CRedisConnection.connRequests net serv vecRedisCmd conn source = .ok ((.success, used), target) ∧
      Clean address used ∧ UpToLog (answerAll net place vecRedisCmd source) target := by
  obtain ⟨tmNow, timed, ranTime, log, rfl⟩ := time_ok net source
  obtain ⟨renewed, ready, ranIdle, up, log', rfl⟩ :=
    @refreshIdle_ok _ net faultless address serv (repool source.servers.server log source) here tmNow conn clean
  obtain ⟨appended, ranAppend, log'', rfl⟩ :=
    @appendAll_ok _ net faultless address vecRedisCmd (repool source.servers.server log' source) words []
  obtain ⟨target, ran, last⟩ := replyAll_ok faultless address placed (repool source.servers.server log'' source)
  refine ⟨{ renewed with pContext := some (waiting address []) }, target, ?_, .inr rfl, ?_⟩
  · rw [CRedisConnection.connRequests, bind_of_ok ranTime, bind_of_ok ranIdle]
    dsimp only
    rw [Bool.not_true, if_neg Bool.false_ne_true, up]
    exact (bind_of_ok ranAppend).trans ((bind_of_ok ran).trans rfl)
  · exact (UpToLog.answerAll net ⟨log'', rfl⟩ place vecRedisCmd).trans last

end

section

variable {net} {address : CppString × ℤ} {serv : ℕ} {source : World (Pool ρ)} {place : ℕ → CppString × ℤ}

/-- A request that succeeds on any idle connection succeeds, and the connection is idle again. -/
theorem servRequestWith_ok (linked : Linked address (source.servers.server serv)) (vecCmd : List ℕ)
    {request : CRedisConnection → Action (Pool ρ) (ReturnCode × CRedisConnection)}
    (requests : ∀ conn server, Clean address conn → At address (server serv) →
      ∃ used target, request conn (repool server source.log source) = .ok ((.success, used), target) ∧
        Clean address used ∧ UpToLog (answerAll net place vecCmd (repool server source.log source)) target) :
    ∃ target, CRedisServer.servRequestWith serv request source = .ok (.success, target) ∧
      UpToPool (answerAll net place vecCmd source) target := by
  cases queue : (source.servers.server serv).queIdleConn with
  | nil => exact absurd queue linked.idle
  | cons conn rest =>
    have cleanConn := linked.clean conn (by rw [queue]; exact List.mem_cons_self)
    let taken := Function.update source.servers.server serv { source.servers.server serv with queIdleConn := rest }
    have here : At address (taken serv) := by
      simp only [taken, Function.update_self]
      exact ⟨linked.host, linked.port, linked.named⟩
    obtain ⟨used, target, ran, cleanUsed, same⟩ := requests conn taken cleanConn here
    have fetched : CRedisServer.awaitConnection serv CRedisServer.rqstRetryTimes source =
        .ok (some conn, repool taken source.log source) := by
      rw [CRedisServer.rqstRetryTimes, CRedisServer.awaitConnection, CRedisServer.fetchConnection]
      rw [bind_apply, bind_of_ok (get_apply source), queue]
      rfl
    obtain ⟨log, rfl⟩ := same
    rw [answerAll_repool] at ran
    let returned := Function.update taken serv
      { source.servers.server serv with queIdleConn := rest ++ [used] }
    refine ⟨repool returned log (answerAll net place vecCmd source), ?_, returned, log, rfl,
      fun other at_ linkedTo => ?_⟩
    · refine (bind_of_ok fetched).trans ((bind_of_ok ran).trans ?_)
      dsimp only
      rw [CRedisServer.returnConnection, modifyServer, bind_of_ok (modify_apply _ _)]
      have held : taken serv = { source.servers.server serv with queIdleConn := rest } := Function.update_self _ _ _
      have same : { taken serv with queIdleConn := (taken serv).queIdleConn ++ [used] } =
          { source.servers.server serv with queIdleConn := rest ++ [used] } := by rw [held]
      simp only [pure_apply, repool, returned, same]
    · rw [answerAll_server] at linkedTo
      by_cases same : other = serv
      · subst other
        have same : at_ = address := linkedTo.toAt.unique linked.toAt
        subst same
        simp only [returned, Function.update_self]
        refine ⟨⟨linked.host, linked.port, linked.named⟩,
          List.append_ne_nil_of_right_ne_nil _ (List.cons_ne_nil _ _), ?_⟩
        intro other member
        rcases List.mem_append.mp member with old | new
        · exact linked.clean other (by rw [queue]; exact List.mem_cons_of_mem _ old)
        · rw [List.mem_singleton.mp new]
          exact cleanUsed
      · simp only [returned, taken, Function.update_of_ne same]
        exact linkedTo

variable (faultless : Faultless net)
include faultless

theorem servRequest_ok {command : ℕ} (linked : Linked (place command) (source.servers.server serv))
    (words : (source.command command).args ≠ []) :
    ∃ target, CRedisServer.servRequest net serv command source = .ok (.success, target) ∧
      UpToPool (answer net (place command) command source) target :=
  servRequestWith_ok linked [command] fun conn server clean here =>
    @connRequest_ok _ net faultless (place command) serv command (repool server source.log source) here words conn clean

theorem servRequests_ok {vecCmd : List ℕ} (linked : Linked address (source.servers.server serv))
    (placed : ∀ command ∈ vecCmd, place command = address)
    (words : ∀ command ∈ vecCmd, (source.command command).args ≠ []) :
    ∃ target, CRedisServer.servRequests net serv vecCmd source = .ok (.success, target) ∧
      UpToPool (answerAll net place vecCmd source) target :=
  servRequestWith_ok linked vecCmd fun conn server clean here =>
    @connRequests_ok _ net faultless address place vecCmd serv
      (repool server source.log source) placed here words conn clean

end

/-- The client knows for each of these slots a server that stands for the node of the slot. -/
structure Steady (slots : Set ℕ) (route : ℕ → CppString × ℤ) (world : World (Pool ρ)) : Prop where
  valid : world.client.bValid = true
  server : ∀ slot ∈ slots, ∃ serv, (∀ isValid, world.client.getMatchedServer isValid slot = some serv) ∧
    Linked (route slot) (world.servers.server serv)

/-- The slots of keys. -/
def allSlots : Set ℕ := { slot | slot < 16384 }

variable {slots : Set ℕ} {route : ℕ → CppString × ℤ} {source target : World (Pool ρ)}

theorem Steady.of_same (steady : Steady slots route source) (client : target.client = source.client)
    (server : target.servers.server = source.servers.server) : Steady slots route target where
  valid := by
    rw [client]
    exact steady.valid
  server slot bound := by
    rw [client, server]
    exact steady.server slot bound

theorem Steady.upToPool (steady : Steady slots route source) (same : UpToPool source target) :
    Steady slots route target := by
  obtain ⟨server, log, rfl, kept⟩ := same
  refine ⟨steady.valid, fun slot bound => ?_⟩
  obtain ⟨serv, matched, linked⟩ := steady.server slot bound
  exact ⟨serv, matched, kept serv _ linked⟩

section

variable {net} (faultless : Faultless net) (address : ℕ → ℕ)
include faultless

theorem refreshThread_ok (source : World (Pool ρ)) : refreshThread net source = .ok ((), source) := by
  rw [refreshThread, bind_of_ok (get_apply source), faultless.rounds]
  rfl

/-- A command with a server is carried out by it. -/
theorem execute_ok {command serv : ℕ} {place : CppString × ℤ} (valid : source.client.bValid = true)
    (matched : matchedServer (net.servers address) source command = some serv)
    (linked : Linked place (source.servers.server serv)) (words : (source.command command).args ≠ []) :
    ∃ target, execute (net.servers address) command source = .ok (.success, target) ∧
      UpToPool (answer net place command source) target := by
  obtain ⟨target, ran, same⟩ := @servRequest_ok _ net serv source (fun _ => place) faultless command linked words
  refine ⟨target, ?_, same⟩
  have simple : simpleExecute (net.servers address) command source = .ok (.success, target) := by
    rw [simpleExecute]
    refine (bind_of_ok (refreshThread_ok faultless source)).trans ((bind_of_ok (get_apply source)).trans ?_)
    rw [valid, Bool.not_true, if_neg Bool.false_ne_true, matched]
    exact ran
  rw [execute, bind_of_ok (get_apply source), valid, Bool.not_true, if_neg Bool.false_ne_true, bind_of_ok simple,
    bind_of_ok (get_apply target)]
  split_ifs with single moved moved
  · cases moved
  · rfl
  · rcases moved with ⟨wrong, -⟩ | wrong <;> cases wrong
  · rfl

/-- A method does what its command does at the node of its key. -/
theorem executeImpl_ok {α : Type} (steady : Steady slots route source) {args : List CppString} (words : args ≠ [])
    {strKey : CppString} (covered : hashSlot strKey ∈ slots) {funcFetch : Fetch α} {funcConv : Convert}
    {result : ReturnCode × Option α}
    (fetched : fetchResult funcFetch funcConv
      (some (net.serve source.servers.redis (route (hashSlot strKey)) args).1) = .ok result) :
    ∃ target, executeImpl (net.servers address) args (hashSlot strKey) funcFetch funcConv source =
      .ok (result, target) ∧
      Steady slots route target ∧ target.client = source.client ∧
      target.servers.redis = (net.serve source.servers.redis (route (hashSlot strKey)) args).2 := by
  obtain ⟨serv, matched, linked⟩ := steady.server (hashSlot strKey) covered
  let redisCmd : CRedisCommand := { args := args, nSlot := hashSlot strKey, funcConv := funcConv }
  let issued : World (Pool ρ) := { source with
    command := Function.update source.command source.commands redisCmd, commands := source.commands + 1 }
  have here : issued.command source.commands = redisCmd := Function.update_self _ _ _
  have own : matchedServer (net.servers address) issued source.commands = some serv := by
    rw [matchedServer, here]
    exact matched _
  obtain ⟨target, ran, same⟩ :=
    @execute_ok _ net issued faultless address source.commands serv _ steady.valid own linked
    (by rw [here]; exact words)
  have answered : Steady slots route (answer net (route (hashSlot strKey)) source.commands issued) :=
    steady.of_same rfl rfl
  refine ⟨target, ?_, answered.upToPool same, ?_⟩
  · rw [executeImpl]
    refine (bind_of_ok (show newCommand redisCmd source = .ok (source.commands, issued) from rfl)).trans
      ((bind_of_ok ran).trans ?_)
    rw [if_pos rfl, fetchCommand, bind_of_ok (get_apply target)]
    obtain ⟨server, log, rfl, -⟩ := same
    have reply : (answer net (route (hashSlot strKey)) source.commands issued).command source.commands =
        { redisCmd with pReply := some (net.serve source.servers.redis (route (hashSlot strKey)) args).1 } := by
      simp only [answer, here, Function.update_self]
      rfl
    simp only [repool, reply]
    rw [fetched]
    rfl
  · obtain ⟨server, log, rfl, -⟩ := same
    refine ⟨rfl, ?_⟩
    simp only [repool, answer, here]
    rfl

/-- Groups of commands are carried out one after the other. -/
theorem requestAll_ok {place : ℕ → CppString × ℤ} (mapCmd : List (Option ℕ × List ℕ)) {source : World (Pool ρ)}
    (linked : ∀ entry ∈ mapCmd, ∃ serv node, entry.1 = some serv ∧ Linked node (source.servers.server serv) ∧
      ∀ command ∈ entry.2, place command = node ∧ (source.command command).args ≠ []) :
    ∃ target, requestAll (net.servers address) mapCmd source = .ok (.success, target) ∧
      UpToPool (answerAll net place (mapCmd.flatMap Prod.snd) source) target := by
  induction mapCmd generalizing source with
  | nil => exact ⟨source, rfl, (UpToLog.rfl' source).upToPool⟩
  | cons entry mapCmd ih =>
    obtain ⟨pRedisServ, vecCmd⟩ := entry
    obtain ⟨serv, node, rfl, here, commands⟩ := linked _ List.mem_cons_self
    obtain ⟨middle, ran, first⟩ := servRequests_ok faultless here (fun command member => (commands command member).1)
      fun command member => (commands command member).2
    have later : ∀ entry ∈ mapCmd, ∃ serv node, entry.1 = some serv ∧ Linked node (middle.servers.server serv) ∧
        ∀ command ∈ entry.2, place command = node ∧ (middle.command command).args ≠ [] := by
      intro entry member
      obtain ⟨serv, node, isServ, there, commands⟩ := linked entry (List.mem_cons_of_mem _ member)
      obtain ⟨server, log, rfl, kept⟩ := first
      refine ⟨serv, node, isServ, kept serv node ?_, fun command inEntry => ⟨(commands command inEntry).1, ?_⟩⟩
      · rwa [answerAll_server]
      · have same := answerAll_args net place vecCmd source command
        exact fun empty => (commands command inEntry).2 (same.symm.trans empty)
    obtain ⟨target, rest, last⟩ := ih later
    refine ⟨target, (bind_of_ok ran).trans ?_, ?_⟩
    · rw [if_pos rfl]
      exact rest
    · rw [List.flatMap_cons, answerAll, List.foldl_append]
      exact (first.answerAll net place _).trans last

/-- A pass carries out its commands in the order of the groups. -/
theorem flushCommand_ok {place : ℕ → CppString × ℤ} (steady : Steady slots route source) {vecCmd : List ℕ}
    (commands : ∀ command ∈ vecCmd, ∃ slot ∈ slots, (source.command command).nSlot = (slot : ℕ) ∧
      place command = route slot ∧ (source.command command).args ≠ []) :
    ∃ target, flushCommand (net.servers address) vecCmd source = .ok (.success, target) ∧
      UpToPool (answerAll net place
        ((groupCmds (net.servers address) source vecCmd).flatMap Prod.snd) source) target := by
  have grouped := groupCmds_grouped (net.servers address) source vecCmd
  have routed : ∀ command ∈ vecCmd, ∃ serv,
      matchedServer (net.servers address) source command = some serv ∧
      Linked (place command) (source.servers.server serv) ∧ (source.command command).args ≠ [] := by
    intro command member
    obtain ⟨slot, covered, isSlot, placed, words⟩ := commands command member
    obtain ⟨serv, matched, linked⟩ := steady.server slot covered
    rw [← placed] at linked
    refine ⟨serv, ?_, linked, words⟩
    rw [matchedServer, isSlot]
    exact matched _
  obtain ⟨target, ran, same⟩ := @requestAll_ok _ net faultless address place
    (groupCmds (net.servers address) source vecCmd) source (by
      intro entry member
      obtain ⟨first, inCmd, isKey⟩ := (grouped.keys entry.1).mp (List.mem_map_of_mem member)
      obtain ⟨serv, matched, linked, -⟩ := routed first inCmd
      refine ⟨serv, place first, isKey.symm.trans matched, linked, fun command inEntry => ?_⟩
      rw [grouped.entries entry member, List.mem_filter, decide_eq_true_eq] at inEntry
      obtain ⟨other, matched', linked', words⟩ := routed command inEntry.1
      obtain rfl : other = serv := Option.some.inj (matched'.symm.trans (inEntry.2.trans (isKey.symm.trans matched)))
      exact ⟨linked'.toAt.unique linked.toAt, words⟩)
  exact ⟨target, (bind_of_ok (get_apply source)).trans ran, same⟩

/-- A flush needs no second pass. -/
theorem flushPipeline_ok {place : ℕ → CppString × ℤ} (steady : Steady slots route source) {pPipeline : CRedisPipeline}
    (commands : ∀ command ∈ pPipeline.vecCmd, ∃ slot ∈ slots, (source.command command).nSlot = (slot : ℕ) ∧
      place command = route slot ∧ (source.command command).args ≠ []) :
    ∃ target, flushPipeline (net.servers address) (some pPipeline) source = .ok (.success, target) ∧
      UpToPool (answerAll net place
        ((groupCmds (net.servers address) source pPipeline.vecCmd).flatMap Prod.snd) source) target := by
  obtain ⟨target, flushed, same⟩ := flushCommand_ok faultless address steady commands
  refine ⟨target, ?_, same⟩
  rw [flushPipeline, bind_of_ok flushed]
  rfl

end

/-- A network in which no call fails. -/
def reliable {ρ : Type} (serve : ρ → CppString × ℤ → List CppString → RedisReply × ρ) : Network ρ where
  clock _ := 0
  connect _ _ := true
  append _ := true
  receive _ := none
  rounds _ := 0
  serve := serve

theorem reliable_faultless {ρ : Type} (serve : ρ → CppString × ℤ → List CppString → RedisReply × ρ) :
    Faultless (reliable serve) :=
  ⟨fun _ _ => rfl, fun _ => rfl, fun _ => rfl, fun _ => rfl⟩

def halfAt (serv : ℕ) : CppString × ℤ := (text "127.0.0.1", 7000 + serv)

/-- The node of the lower half of the slots, and the node of the upper one. -/
def twoNodes (slot : ℕ) : CppString × ℤ := halfAt (slot / 8192)

def halfRegion (serv : ℕ) : SlotRegion where
  nStartSlot := 8192 * serv
  nEndSlot := 8192 * serv + 8191
  strHost := (halfAt serv).1
  nPort := (halfAt serv).2
  pRedisServ := some serv

def linkedServer (address : CppString × ℤ) : CRedisServer where
  strHost := address.1
  nPort := address.2
  queIdleConn := [{}]
  vecHosts := [address]

def overTwoNodes {ρ : Type} (redis : ρ) : World (Pool ρ) where
  client := { bCluster := true, vecSlot := [halfRegion 0, halfRegion 1], vecRedisServ := [0, 1] }
  servers := { server := fun serv => linkedServer (halfAt serv), servers := 2, redis := redis }

theorem linkedServer_linked {address : CppString × ℤ} (named : address.1 ≠ []) :
    Linked address (linkedServer address) where
  host := rfl
  port := rfl
  named := named
  idle := List.cons_ne_nil _ _
  clean conn member := by
    rw [linkedServer, List.mem_singleton] at member
    subst member
    exact .inl rfl

theorem overTwoNodes_found {slot : ℕ} (bound : slot < 16384) :
    findServer [halfRegion 0, halfRegion 1] slot = some (slot / 8192) := by
  have apart : Slots.Apart [halfRegion 0, halfRegion 1] := by
    refine ⟨List.pairwise_pair.mpr (by decide), fun slotReg member => ?_⟩
    rw [List.mem_cons, List.mem_singleton] at member
    rcases member with rfl | rfl <;> decide
  by_cases lower : slot < 8192
  · rw [Slots.findServer_of_mem apart List.mem_cons_self (Int.natCast_nonneg slot) (by simp only [halfRegion]; omega),
      Nat.div_eq_of_lt lower]
    rfl
  · have half : slot / 8192 = 1 := by omega
    rw [Slots.findServer_of_mem apart (List.mem_cons_of_mem _ List.mem_cons_self) (by simp only [halfRegion]; omega)
      (by simp only [halfRegion]; omega), half]
    rfl

theorem overTwoNodes_steady {ρ : Type} (redis : ρ) : Steady allSlots twoNodes (overTwoNodes redis) where
  valid := rfl
  server slot bound := by
    refine ⟨slot / 8192, fun isValid => ?_, linkedServer_linked (List.cons_ne_nil _ _)⟩
    have cast : (slot : ℤ) ≠ -1 := by omega
    rw [CRedisClient.getMatchedServer, overTwoNodes, Bool.not_true, if_neg Bool.false_ne_true, if_pos cast]
    exact overTwoNodes_found bound

end CppRedis.Soundness.FaultFree
