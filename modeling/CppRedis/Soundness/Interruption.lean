import CppRedis.Model.RedisClient.Remote
import CppRedis.Soundness.Renaming

/-! # Renaming while commands fail

`Rename` and `Renamenx` of keys on different nodes, where each request may fail after it was carried out any
number of times. The value is lost only when the source was deleted without a reply and the clean-up then
deletes the copy.
-/

namespace CppRedis.Soundness.Interruption

open Machine Machine.Keyspace Machine.Program Model.RedisClient Model.RedisCpp Model.Redis Stores FaultFree Renaming

variable {o : Type} (format : Format o) {owner : ℕ → CppString × ℤ}

abbrev Far (owner : ℕ → CppString × ℤ) (o : Type) := World (Remote (Stores owner o))

/-- What a command leaves of what its key holds. -/
def leaves (keyCommand : KeyCommand) (entry : Option (Entry o)) : Option (Entry o) := (keyCommand.act format entry).2

/-- A command was carried out so many times, and nothing else happened to commands and stores. -/
structure Tried (key : CppString) (keyCommand : KeyCommand) (command count : ℕ) (source target : Far owner o) :
    Prop where
  vecSlot : target.client.vecSlot = source.client.vecSlot
  bCluster : target.client.bCluster = source.client.bCluster
  commands : target.commands = source.commands
  redisCmd : target.command command = { source.command command with pReply := (target.command command).pReply }
  executed : target.servers.executed = source.servers.executed ++ List.replicate count command
  union : target.servers.redis.union = Function.update source.servers.redis.union key
    ((leaves format keyCommand)^[count] (source.servers.redis.union key))

section

variable {format} {key : CppString} {keyCommand : KeyCommand} {command count more : ℕ}
    {source middle target : Far owner o}

theorem Tried.none (vecSlot : target.client.vecSlot = source.client.vecSlot)
    (bCluster : target.client.bCluster = source.client.bCluster) (commands : target.commands = source.commands)
    (redisCmd : target.command command = { source.command command with pReply := (target.command command).pReply })
    (servers : target.servers = source.servers) : Tried format key keyCommand command 0 source target where
  vecSlot := vecSlot
  bCluster := bCluster
  commands := commands
  redisCmd := redisCmd
  executed := by rw [servers, List.replicate_zero, List.append_nil]
  union := by rw [servers, Function.iterate_zero_apply, Function.update_eq_self]

theorem Tried.trans (first : Tried format key keyCommand command count source middle)
    (second : Tried format key keyCommand command more middle target) :
    Tried format key keyCommand command (count + more) source target where
  vecSlot := second.vecSlot.trans first.vecSlot
  bCluster := second.bCluster.trans first.bCluster
  commands := second.commands.trans first.commands
  redisCmd := by
    rw [second.redisCmd, first.redisCmd]
  executed := by
    rw [second.executed, first.executed, List.append_assoc, List.replicate_append_replicate]
  union := by
    rw [second.union, first.union, Function.update_idem, Function.update_self,
      ← Function.iterate_add_apply, Nat.add_comm]

/-- What is logged, and the reply that is stored, leave this as it is. -/
theorem Tried.setReply (tried : Tried format key keyCommand command count source target) (event : Event)
    (reply : Option RedisReply) :
    Tried format key keyCommand command count source ((target.note event).setReply command reply) where
  vecSlot := tried.vecSlot
  bCluster := tried.bCluster
  commands := tried.commands
  redisCmd := by
    simp only [World.setReply, World.note, Function.update_self]
    rw [tried.redisCmd]
  executed := tried.executed
  union := tried.union

end

variable {links : Links (Stores owner o)} (serves : links.serve = serveNode format) {key : CppString}
  {keyCommand : KeyCommand} {command serv : ℕ} {source : Far owner o}

section

variable (parsed : parse (source.command command).args = some (.on key keyCommand))
  (placed : links.node serv = nodeOf owner key)
include serves parsed placed

theorem execute_tried :
    (links.execute serv command source).1 = (keyCommand.act format (source.servers.redis.union key)).1 ∧
      Tried format key keyCommand command 1 source (links.execute serv command source).2 := by
  obtain ⟨reply, union⟩ := serveNode_on format parsed source.servers.redis
  have served : links.execute serv command source =
      ((serveNode format source.servers.redis (nodeOf owner key) (source.command command).args).1, { source with
        servers := {
          redis := (serveNode format source.servers.redis (nodeOf owner key) (source.command command).args).2
          executed := source.servers.executed ++ [command] } }) := by
    rw [Links.execute, serves, placed]
  rw [served]
  exact ⟨reply, { vecSlot := rfl, bCluster := rfl, commands := rfl, redisCmd := rfl, executed := rfl, union := union }⟩

theorem executeTimes_tried (count : ℕ) :
    Tried format key keyCommand command count source (links.executeTimes serv command count source) := by
  induction count generalizing source with
  | zero => exact .none rfl rfl rfl rfl rfl
  | succ count ih =>
    have first := (execute_tried format serves parsed placed).2
    have again : parse ((links.execute serv command source).2.command command).args = some (.on key keyCommand) := by
      rw [first.redisCmd]
      exact parsed
    have both := first.trans (ih again)
    rw [Nat.add_comm] at both
    exact both

/-- A request fails, or stores what the last execution replied. -/
theorem servRequest_tried :
    ∃ nRet target count, links.servRequest serv command source = .ok (nRet, target) ∧
      Tried format key keyCommand command count source target ∧
      ((nRet = .rqstErr ∨ nRet = .noResource) ∨ nRet = .success ∧ ∃ before, count = before + 1 ∧
        (target.command command).pReply = some
          (keyCommand.act format ((leaves format keyCommand)^[before] (source.servers.redis.union key))).1) := by
  cases fate : links.fate source.log with
  | refused =>
    refine ⟨.noResource, source.note (.append command false), 0, ?_, .none rfl rfl rfl rfl rfl, .inl (.inr rfl)⟩
    rw [Links.servRequest, bind_of_ok (get_apply source), fate]
    rfl
  | failed lost =>
    have tried := executeTimes_tried format serves parsed placed lost
    refine ⟨.rqstErr, ((links.executeTimes serv command lost source).note (.lost lost)).setReply command none, lost, ?_,
      tried.setReply _ _, .inl (.inl rfl)⟩
    rw [Links.servRequest, bind_of_ok (get_apply source), fate]
    rfl
  | answered lost =>
    have tried := executeTimes_tried format serves parsed placed lost
    have again : parse ((links.executeTimes serv command lost source).command command).args =
        some (.on key keyCommand) := by
      rw [tried.redisCmd]
      exact parsed
    obtain ⟨reply, last⟩ := execute_tried format serves again placed
    rw [tried.union, Function.update_self] at reply
    let replied := links.execute serv command (links.executeTimes serv command lost source)
    refine ⟨.success, (replied.2.note (.reply command replied.1)).setReply command (some replied.1), lost + 1, ?_,
      (tried.trans last).setReply _ _, .inr ⟨rfl, lost, rfl, ?_⟩⟩
    · rw [Links.servRequest, bind_of_ok (get_apply source), fate]
      rfl
    · simp only [World.setReply, Function.update_self]
      exact congrArg some reply

end

/-- The client finds the server of a key, and this stands for the node of the key. -/
def Knows (links : Links (Stores owner o)) (strKey : CppString) (world : Far owner o) : Prop :=
  world.client.bCluster = true ∧
    ∃ serv, findServer world.client.vecSlot (hashSlot strKey) = some serv ∧ links.node serv = nodeOf owner strKey

theorem Knows.of_same {strKey : CppString} {target : Far owner o} (knows : Knows links strKey source)
    (vecSlot : target.client.vecSlot = source.client.vecSlot)
    (bCluster : target.client.bCluster = source.client.bCluster) :
    Knows links strKey target := by
  rw [Knows, vecSlot, bCluster]
  exact knows

/-- A request has failed, or the last execution has replied. -/
def Settled (key : CppString) (keyCommand : KeyCommand) (command count : ℕ) (nRet : ReturnCode)
    (source target : Far owner o) : Prop :=
  (nRet = .rqstErr ∨ nRet = .noResource) ∨ nRet = .success ∧ ∃ before, count = before + 1 ∧
    (target.command command).pReply = some
      (keyCommand.act format ((leaves format keyCommand)^[before] (source.servers.redis.union key))).1

variable (address : ℕ → ℕ)

theorem refreshThread_tried (key : CppString) (keyCommand : KeyCommand) (command : ℕ) (source : Far owner o) :
    ∃ target, links.refreshThread source = .ok ((), target) ∧ Tried format key keyCommand command 0 source target := by
  rw [Links.refreshThread, bind_of_ok (get_apply source)]
  cases links.refreshed source.log with
  | none => exact ⟨source.note .refresh, rfl, .none rfl rfl rfl rfl rfl⟩
  | some bValid => exact ⟨_, rfl, .none rfl rfl rfl rfl rfl⟩

theorem waitForRefresh_tried (key : CppString) (keyCommand : KeyCommand) (command : ℕ) (source : Far owner o) :
    ∃ refreshed target, waitForRefresh (links.servers address) source = .ok (refreshed, target) ∧
      Tried format key keyCommand command 0 source target := by
  have await : ∀ nRetry source, ∃ target, awaitValid (links.servers address) nRetry source = .ok ((), target) ∧
      Tried format key keyCommand command 0 source target := by
    intro nRetry
    induction nRetry with
    | zero => exact fun source => ⟨source, rfl, .none rfl rfl rfl rfl rfl⟩
    | succ nRetry ih =>
      intro source
      rw [awaitValid, bind_of_ok (get_apply source)]
      split_ifs
      · exact ⟨source, rfl, .none rfl rfl rfl rfl rfl⟩
      · obtain ⟨middle, ran, first⟩ := @refreshThread_tried o format owner links key keyCommand command source
        obtain ⟨target, rest, last⟩ := ih middle
        exact ⟨target, (bind_of_ok ran).trans rest, first.trans last⟩
  have noted : Tried format key keyCommand command 0 source (source.note .waitForRefresh) := .none rfl rfl rfl rfl rfl
  obtain ⟨first, ranFirst, triedFirst⟩ :=
    @refreshThread_tried o format owner links key keyCommand command (source.note .waitForRefresh)
  obtain ⟨second, ranSecond, triedSecond⟩ := await waitRetryTimes first
  obtain ⟨third, ranThird, triedThird⟩ := @refreshThread_tried o format owner links key keyCommand command second
  refine ⟨third.client.bValid, third, ?_, ((noted.trans triedFirst).trans triedSecond).trans triedThird⟩
  rw [waitForRefresh, bind_of_ok (modify_apply _ source)]
  exact (bind_of_ok ranFirst).trans ((bind_of_ok ranSecond).trans ((bind_of_ok ranThird).trans rfl))

include serves

theorem simpleExecute_tried (parsed : parse (source.command command).args = some (.on key keyCommand))
    (slot : (source.command command).nSlot = (hashSlot key : ℕ)) (knows : Knows links key source) :
    ∃ nRet target count, simpleExecute (links.servers address) command source = .ok (nRet, target) ∧
      Tried format key keyCommand command count source target ∧
      Settled format key keyCommand command count nRet source target := by
  obtain ⟨middle, ranRefresh, first⟩ := @refreshThread_tried o format owner links key keyCommand command source
  have start : simpleExecute (links.servers address) command source = _ :=
    (bind_of_ok ranRefresh).trans (bind_of_ok (get_apply middle))
  rw [start]
  split_ifs with invalid
  · exact ⟨.rqstErr, middle, 0, rfl, first, .inl (.inl rfl)⟩
  · obtain ⟨cluster, serv, found, placed⟩ := knows.of_same first.vecSlot first.bCluster
    have same : (middle.command command).nSlot = (hashSlot key : ℕ) := by
      rw [first.redisCmd]
      exact slot
    have matched : matchedServer (links.servers address) middle command = some serv := by
      have other : ((hashSlot key : ℕ) : ℤ) ≠ -1 := by omega
      rw [matchedServer, same, CRedisClient.getMatchedServer, cluster, Bool.not_true, if_neg Bool.false_ne_true,
        if_pos other, found]
    have again : parse (middle.command command).args = some (.on key keyCommand) := by
      rw [first.redisCmd]
      exact parsed
    obtain ⟨nRet, target, count, ran, tried, settled⟩ := servRequest_tried format serves again placed
    have unchanged : middle.servers.redis.union key = source.servers.redis.union key := by
      rw [first.union, Function.update_self, Function.iterate_zero_apply]
    rw [matched]
    refine ⟨nRet, target, count, ran, ?_, ?_⟩
    · have both := first.trans tried
      rwa [Nat.zero_add] at both
    · rwa [unchanged] at settled

/-- The retry of `Execute` adds its executions to those before. -/
theorem execute_settled (parsed : parse (source.command command).args = some (.on key keyCommand))
    (slot : (source.command command).nSlot = (hashSlot key : ℕ)) (knows : Knows links key source) :
    ∃ nRet target count, Model.RedisClient.execute (links.servers address) command source = .ok (nRet, target) ∧
      Tried format key keyCommand command count source target ∧
      Settled format key keyCommand command count nRet source target := by
  rw [Model.RedisClient.execute, bind_of_ok (get_apply source)]
  split_ifs with invalid
  · exact ⟨.rqstErr, source, 0, rfl, .none rfl rfl rfl rfl rfl, .inl (.inl rfl)⟩
  obtain ⟨nRet, first, count, ranFirst, tried, settled⟩ := simpleExecute_tried format serves address parsed slot knows
  have cluster : (!first.client.bCluster) = false := by rw [tried.bCluster, knows.1, Bool.not_true]
  rw [bind_of_ok ranFirst, bind_of_ok (get_apply first), cluster, if_neg Bool.false_ne_true]
  split_ifs with again
  · obtain ⟨refreshed, second, ranWait, waited⟩ :=
      @waitForRefresh_tried o format owner links address key keyCommand command first
    rw [bind_of_ok ranWait]
    have sofar := tried.trans waited
    rw [Nat.add_zero] at sofar
    have failed : nRet = .rqstErr ∨ nRet = .noResource := by
      rcases settled with failed | ⟨rfl, -⟩
      · exact failed
      · rcases again with ⟨wrong, -⟩ | wrong <;> cases wrong
    cases refreshed with
    | false => exact ⟨nRet, second, count, rfl, sofar, .inl failed⟩
    | true =>
      obtain ⟨nRet, target, more, ran, retried, settled⟩ := simpleExecute_tried format serves address
        (by rw [sofar.redisCmd]; exact parsed) (by rw [sofar.redisCmd]; exact slot)
        (knows.of_same sofar.vecSlot sofar.bCluster)
      refine ⟨nRet, target, count + more, ran, sofar.trans retried, settled.imp_right ?_⟩
      rintro ⟨success, before, rfl, reply⟩
      rw [sofar.union, Function.update_self, ← Function.iterate_add_apply, Nat.add_comm before] at reply
      exact ⟨success, count + before, rfl, reply⟩
  · exact ⟨nRet, first, count, rfl, tried, settled⟩

/-- A call issued its command, which was carried out so many times. -/
structure Called (key : CppString) (keyCommand : KeyCommand) (count : ℕ) (source target : Far owner o) : Prop where
  vecSlot : target.client.vecSlot = source.client.vecSlot
  bCluster : target.client.bCluster = source.client.bCluster
  commands : target.commands = source.commands + 1
  executed : target.servers.executed = source.servers.executed ++ List.replicate count source.commands
  union : target.servers.redis.union = Function.update source.servers.redis.union key
    ((leaves format keyCommand)^[count] (source.servers.redis.union key))

/-- A method for one key fails, or takes its result from what the last execution replied. -/
theorem executeImpl_called {α : Type} {args : List CppString} (funcFetch : Fetch α) (funcConv : Convert)
    (parsed : parse args = some (.on key keyCommand)) (knows : Knows links key source)
    (total : ∀ entry : Option (Entry o), ∃ result,
      fetchResult funcFetch funcConv (some (keyCommand.act format entry).1) = .ok result) :
    ∃ result target count, executeImpl (links.servers address) args (hashSlot key) funcFetch funcConv source =
        .ok (result, target) ∧ Called format key keyCommand count source target ∧
      (result.1.value < 0 ∨ ∃ before, count = before + 1 ∧ fetchResult funcFetch funcConv (some
        (keyCommand.act format ((leaves format keyCommand)^[before] (source.servers.redis.union key))).1) =
          .ok result) := by
  let redisCmd : CRedisCommand := { args := args, nSlot := hashSlot key, funcConv := funcConv }
  let issued : Far owner o := { source with
    command := Function.update source.command source.commands redisCmd, commands := source.commands + 1 }
  have here : issued.command source.commands = redisCmd := Function.update_self _ _ _
  obtain ⟨nRet, target, count, ran, tried, settled⟩ := @execute_settled o format owner links serves key keyCommand
    source.commands issued address (by rw [here]; exact parsed) (by rw [here]) knows
  have called : Called format key keyCommand count source target :=
    ⟨tried.vecSlot, tried.bCluster, tried.commands, tried.executed, tried.union⟩
  have start : executeImpl (links.servers address) args (hashSlot key) funcFetch funcConv source = _ :=
    (bind_of_ok (show newCommand redisCmd source = .ok (source.commands, issued) from rfl)).trans (bind_of_ok ran)
  rw [start]
  rcases settled with failed | ⟨rfl, before, rfl, reply⟩
  · have negative : nRet.value < 0 := by rcases failed with rfl | rfl <;> decide
    have wrong : nRet ≠ .success := by
      rintro rfl
      exact absurd negative (by decide)
    rw [if_neg wrong]
    exact ⟨(nRet, none), target, count, rfl, called, .inl negative⟩
  · obtain ⟨result, fetched⟩ := total ((leaves format keyCommand)^[before] (issued.servers.redis.union key))
    refine ⟨result, target, before + 1, ?_, called, .inr ⟨before, rfl, fetched⟩⟩
    rw [if_pos rfl, fetchCommand, bind_of_ok (get_apply target), tried.redisCmd, here, reply]
    dsimp only
    rw [fetched]
    rfl

omit serves in
/-- A command that reads leaves the stores as they are. -/
theorem Called.union_of_reads {format : Format o} {count : ℕ} {target : Far owner o}
    (called : Called format key keyCommand count source target)
    (reads : leaves format keyCommand = id) : target.servers.redis.union = source.servers.redis.union := by
  rw [called.union, reads, Function.iterate_id, id, Function.update_eq_self]

theorem del_called (knows : Knows links key source) :
    ∃ result target count, del (links.servers address) key source = .ok (result, target) ∧
      Called format key .del count source target ∧ (result.1.value < 0 ∨ 0 < count) := by
  obtain ⟨result, target, count, ran, called, settled⟩ :=
    executeImpl_called format serves address fetchInteger .default (parse_del key) knows fun entry => ⟨_, rfl⟩
  exact ⟨result, target, count, ran, called, settled.imp_right fun ⟨before, more, _⟩ => by omega⟩

theorem exists_called (knows : Knows links key source) :
    ∃ result target count, exists_ (links.servers address) key source = .ok (result, target) ∧
      Called format key .exists count source target ∧
      (result.1 = .success → result.2 = some (if (source.servers.redis.union key).isSome then 1 else 0)) := by
  obtain ⟨result, target, count, ran, called, settled⟩ :=
    executeImpl_called format serves address fetchInteger .default (parse_exists key) knows fun entry => ⟨_, rfl⟩
  refine ⟨result, target, count, ran, called, fun success => ?_⟩
  rcases settled with negative | ⟨before, -, fetched⟩
  · rw [success] at negative
    exact absurd negative (by decide)
  · have reads : leaves format KeyCommand.exists = id := rfl
    rw [reads, Function.iterate_id] at fetched
    cases fetched
    rfl

theorem dump_called (knows : Knows links key source) :
    ∃ result target count, dump (links.servers address) key source = .ok (result, target) ∧
      Called format key .dump count source target ∧
      (result.1 = .success → result.2 = some ((source.servers.redis.union key).elim [] fun entry =>
        format.dump entry.value)) := by
  have fetches : ∀ entry : Option (Entry o), fetchResult fetchString .default
    (some (KeyCommand.dump.act format entry).1) =
      .ok (.success, some (entry.elim [] fun entry => format.dump entry.value)) := by
    rintro (_ | entry) <;> rfl
  obtain ⟨result, target, count, ran, called, settled⟩ :=
    executeImpl_called format serves address fetchString .default (parse_dump key) knows fun entry => ⟨_, fetches entry⟩
  refine ⟨result, target, count, ran, called, fun success => ?_⟩
  rcases settled with negative | ⟨before, -, fetched⟩
  · rw [success] at negative
    exact absurd negative (by decide)
  · have reads : leaves format KeyCommand.dump = id := rfl
    rw [reads, Function.iterate_id, fetches] at fetched
    cases fetched
    rfl

theorem pttl_called (longBits : ℕ) (knows : Knows links key source) :
    ∃ result target count, pttl (links.servers address) longBits key source = .ok (result, target) ∧
      Called format key .pttl count source target := by
  have fetches : ∀ entry : Option (Entry o), fetchResult fetchInteger .default
    (some (KeyCommand.pttl.act format entry).1) =
      .ok (.success, some (remaining entry)) := by
    rintro (_ | ⟨value, _ | ttl⟩) <;> rfl
  obtain ⟨result, target, count, ran, called, -⟩ :=
    executeImpl_called format serves address fetchInteger .default (parse_pttl key) knows fun entry =>
      ⟨_, fetches entry⟩
  exact ⟨_, target, count, (bind_of_ok ran).trans rfl, called⟩

/-- Where `RESTORE` succeeds the key holds the value. -/
theorem restore_called (nTtl : ℤ) (value : Value o) (knows : Knows links key source) :
    ∃ result target count, restore (links.servers address) key nTtl (format.dump value) source = .ok (result, target) ∧
      Called format key (.restore (convertToString nTtl) (format.dump value)) count source target ∧
      (result.1 = .success → ∃ entry, target.servers.redis.union key = some entry ∧ entry.value = value) := by
  have fetches : ∀ entry : Option (Entry o), ∃ result, fetchResult fetchString .ok
      (some ((KeyCommand.restore (convertToString nTtl) (format.dump value)).act format entry).1) = .ok result ∧
      (result.1 = .success → ∃ made,
        leaves format (.restore (convertToString nTtl) (format.dump value)) entry = some made ∧
          made.value = value) := by
    rintro (_ | entry)
    · simp only [leaves, KeyCommand.act, restoreEntry]
      cases parseInteger (convertToString nTtl) with
      | none => exact ⟨_, rfl, by rintro ⟨⟩⟩
      | some ttl =>
        dsimp only
        split_ifs
        · exact ⟨_, rfl, by rintro ⟨⟩⟩
        · rw [format.load_dump]
          exact ⟨_, rfl, fun _ => ⟨_, rfl, rfl⟩⟩
        · rw [format.load_dump]
          exact ⟨_, rfl, fun _ => ⟨_, rfl, rfl⟩⟩
    · exact ⟨_, rfl, by rintro ⟨⟩⟩
  obtain ⟨result, target, count, ran, called, settled⟩ := executeImpl_called format serves address fetchString .ok
    (parse_restore key (convertToString nTtl) (format.dump value)) knows fun entry =>
      (fetches entry).imp fun _ both => both.1
  refine ⟨result, target, count, ran, called, fun success => ?_⟩
  rcases settled with negative | ⟨before, rfl, fetched⟩
  · rw [success] at negative
    exact absurd negative (by decide)
  · obtain ⟨other, fetched', made⟩ := fetches ((leaves format
      (.restore (convertToString nTtl) (format.dump value)))^[before] (source.servers.redis.union key))
    cases fetched.symm.trans fetched'
    rw [called.union, Function.update_self, Function.iterate_succ_apply']
    exact made success

/-- Calls issued so many commands, and these are the ones that were carried out, in order. -/
structure Trace (issued : ℕ) (carried : List ℕ) (source target : Far owner o) : Prop where
  vecSlot : target.client.vecSlot = source.client.vecSlot
  bCluster : target.client.bCluster = source.client.bCluster
  commands : target.commands = source.commands + issued
  executed : target.servers.executed = source.servers.executed ++ carried
  bounds : ∀ command ∈ carried, command < source.commands + issued

omit serves in
theorem Called.trace {format : Format o} {count : ℕ} {target : Far owner o}
    (called : Called format key keyCommand count source target) :
    Trace 1 (List.replicate count source.commands) source target where
  vecSlot := called.vecSlot
  bCluster := called.bCluster
  commands := called.commands
  executed := called.executed
  bounds command member := by
    rw [List.eq_of_mem_replicate member]
    exact Nat.lt_succ_self _

omit serves in
theorem Trace.trans {issued more : ℕ} {carried later : List ℕ} {middle target : Far owner o}
    (first : Trace issued carried source middle) (second : Trace more later middle target) :
    Trace (issued + more) (carried ++ later) source target where
  vecSlot := second.vecSlot.trans first.vecSlot
  bCluster := second.bCluster.trans first.bCluster
  commands := by rw [second.commands, first.commands, Nat.add_assoc]
  executed := by rw [second.executed, first.executed, List.append_assoc]
  bounds command member := by
    rcases List.mem_append.mp member with early | late
    · have bound := first.bounds command early
      omega
    · have bound := second.bounds command late
      rw [first.commands] at bound
      omega

omit serves in
theorem Trace.knows {issued : ℕ} {carried : List ℕ} {target : Far owner o} (trace : Trace issued carried source target)
    {strKey : CppString} (knows : Knows links strKey source) : Knows links strKey target :=
  knows.of_same trace.vecSlot trace.bCluster

/-- A key holds the value. -/
def HoldsValue (store : Store o) (value : Value o) (strKey : CppString) : Prop :=
  ∃ entry, store strKey = some entry ∧ entry.value = value

/-- The value is under one of the keys. -/
def Safe (value : Value o) (strKey strNewKey : CppString) (world : Far owner o) : Prop :=
  HoldsValue world.servers.redis.union value strKey ∨ HoldsValue world.servers.redis.union value strNewKey

section

variable {strKey strNewKey : CppString} {value : Value o}

omit serves in
/-- A command for one key leaves the others alone. -/
theorem Called.holdsValue {format : Format o} {count : ℕ} {target : Far owner o}
    (called : Called format key keyCommand count source target)
    (different : strKey ≠ key) :
    HoldsValue target.servers.redis.union value strKey ↔ HoldsValue source.servers.redis.union value strKey := by
  rw [HoldsValue, HoldsValue, called.union, Function.update_of_ne different]

omit serves in
theorem Called.holdsValue_del {format : Format o} {count : ℕ} {target : Far owner o}
    (called : Called format key .del count source target)
    (held : HoldsValue source.servers.redis.union value key) :
    HoldsValue target.servers.redis.union value key ↔ count = 0 := by
  rw [HoldsValue, called.union, Function.update_self]
  cases count with
  | zero => exact iff_of_true held rfl
  | succ count =>
    rw [Function.iterate_succ_apply']
    exact iff_of_false (fun ⟨_, absent, _⟩ => nomatch absent) (Nat.succ_ne_zero count)

theorem cleanUp_called (nRet : ReturnCode) (knows : Knows links key source) :
    ∃ code target count, cleanUp (links.servers address) key nRet source = .ok (code, target) ∧
      Called format key .del count source target := by
  obtain ⟨result, target, count, ran, called, -⟩ := del_called format serves address knows
  exact ⟨_, target, count, (bind_of_ok ran).trans rfl, called⟩

/-- A method returns, and loses the value if and only if two of its commands in a row are both carried out. -/
def Loses (value : Value o) (strKey strNewKey : CppString) (first : ℕ)
    (program : Action (Remote (Stores owner o)) ReturnCode)
    (source : Far owner o) : Prop :=
  ∃ nRet target issued carried, program source = .ok (nRet, target) ∧ Trace issued carried source target ∧
    (Safe value strKey strNewKey target ↔ ¬ (source.commands + first ∈ carried ∧
      source.commands + (first + 1) ∈ carried))

omit serves in
/-- A call before the rest of a method. -/
theorem Loses.call {format : Format o} {α : Type} {count first : ℕ} {middle : Far owner o} {result : α}
    {program : Action (Remote (Stores owner o)) α} {rest : α → Action (Remote (Stores owner o)) ReturnCode}
    (ran : program source = .ok (result, middle)) (called : Called format key keyCommand count source middle)
    (ends : Loses value strKey strNewKey first (rest result) middle) :
    Loses value strKey strNewKey (first + 1) (program >>= rest) source := by
  obtain ⟨nRet, target, issued, carried, finished, trace, safe⟩ := ends
  refine ⟨nRet, target, 1 + issued, List.replicate count source.commands ++ carried, (bind_of_ok ran).trans finished,
    called.trace.trans trace, ?_⟩
  have later : ∀ index, source.commands + (index + 1) ∈ List.replicate count source.commands ++ carried ↔
      middle.commands + index ∈ carried := by
    intro index
    have same : source.commands + (index + 1) = middle.commands + index := by
      rw [called.commands]
      omega
    rw [List.mem_append, List.mem_replicate, same]
    constructor
    · rintro (⟨-, wrong⟩ | member)
      · omega
      · exact member
    · exact .inr
  rw [safe, later, later]

omit serves in
theorem Loses.return {nRet : ReturnCode} {first : ℕ} (held : HoldsValue source.servers.redis.union value strKey) :
    Loses value strKey strNewKey first (return nRet) source :=
  ⟨nRet, source, 0, [], rfl, ⟨rfl, rfl, rfl, (List.append_nil _).symm, nofun⟩,
    iff_of_true (.inl held) (fun both => nomatch both.1)⟩

variable (different : strKey ≠ strNewKey)
include different

/-- The clean-up is harmless while the source is there. -/
theorem cleanUp_loses (nRet : ReturnCode) (first : ℕ) (knowsNew : Knows links strNewKey source)
    (held : HoldsValue source.servers.redis.union value strKey) :
    Loses value strKey strNewKey first (cleanUp (links.servers address) strNewKey nRet) source := by
  obtain ⟨code, target, count, ran, cleaned⟩ := cleanUp_called format serves address nRet knowsNew
  refine ⟨code, target, 1, _, ran, cleaned.trace, iff_of_true (.inl ((cleaned.holdsValue different).mpr held)) ?_⟩
  rintro ⟨-, second⟩
  have bound := cleaned.trace.bounds _ second
  omega

/-- Deleting and cleaning up together lose the value. -/
theorem delete_loses {copied : Far owner o} (knows : Knows links strKey copied)
    (knowsNew : Knows links strNewKey copied)
    (stays : HoldsValue copied.servers.redis.union value strKey)
    (copyHeld : HoldsValue copied.servers.redis.union value strNewKey) :
    Loses value strKey strNewKey 0 (do
      let (nRet, _) ← del (links.servers address) strKey
      if nRet.value < 0 then cleanUp (links.servers address) strNewKey nRet
      else return .success) copied := by
  obtain ⟨⟨code, _⟩, deleted, deletions, ranDel, gone, did⟩ := del_called format serves address knows
  have copyStays : HoldsValue deleted.servers.redis.union value strNewKey :=
    (gone.holdsValue (Ne.symm different)).mpr copyHeld
  rw [Loses, bind_of_ok ranDel]
  dsimp only
  by_cases negative : code.value < 0
  · rw [if_pos negative]
    obtain ⟨last, target, cleanings, ran, cleaned⟩ :=
      cleanUp_called format serves address code (gone.trace.knows knowsNew)
    refine ⟨last, target, _, _, ran, gone.trace.trans cleaned.trace, ?_⟩
    have old : HoldsValue target.servers.redis.union value strKey ↔ deletions = 0 :=
      (cleaned.holdsValue different).trans (gone.holdsValue_del stays)
    have new := cleaned.holdsValue_del copyStays
    have first : copied.commands + 0 ∈ List.replicate deletions copied.commands ++
        List.replicate cleanings deleted.commands ↔ deletions ≠ 0 := by
      rw [List.mem_append, List.mem_replicate, List.mem_replicate, gone.commands]
      omega
    have second : copied.commands + (0 + 1) ∈ List.replicate deletions copied.commands ++
        List.replicate cleanings deleted.commands ↔ cleanings ≠ 0 := by
      rw [List.mem_append, List.mem_replicate, List.mem_replicate, gone.commands]
      omega
    rw [Safe, old, new, first, second]
    omega
  · rw [if_neg negative]
    refine ⟨_, deleted, _, _, rfl, gone.trace, iff_of_true (.inr copyStays) ?_⟩
    rintro ⟨-, second⟩
    have bound := gone.trace.bounds _ second
    omega

theorem moveOn_loses (nTtl : ℤ) (knows : Knows links strKey source) (knowsNew : Knows links strNewKey source)
    (held : HoldsValue source.servers.redis.union value strKey) :
    Loses value strKey strNewKey 1 (moveOn (links.servers address) strKey strNewKey nTtl
      (format.dump value)) source := by
  obtain ⟨⟨nRet, copy⟩, copied, count, ranRestore, restored, made⟩ :=
    restore_called format serves address nTtl value knowsNew
  have stays : HoldsValue copied.servers.redis.union value strKey := (restored.holdsValue different).mpr held
  have knowsNew := restored.trace.knows knowsNew
  apply Loses.call ranRestore restored
  dsimp only
  by_cases success : nRet = .success
  · rw [if_neg (not_not.mpr success)]
    exact delete_loses format serves address different (restored.trace.knows knows) knowsNew stays (made success)
  · rw [if_pos success]
    exact cleanUp_loses format serves address different nRet 0 knowsNew stays

/-- What both methods do first leaves the value where it is. -/
theorem dump_pttl_loses (longBits first : ℕ) {entry : Entry o} (knows : Knows links strKey source)
    (knowsNew : Knows links strNewKey source) (present : source.servers.redis.union strKey = some entry)
    (refused : ReturnCode → CppString → Prop) [∀ nRet strVal, Decidable (refused nRet strVal)]
    (dead : ReturnCode → Option ℤ → Prop) [∀ nRet nTtl, Decidable (dead nRet nTtl)]
    (accepts : ∀ nRet strVal, ¬ refused nRet strVal → nRet = .success)
    (rest : Option ℤ → CppString → Action (Remote (Stores owner o)) ReturnCode)
    (ends : ∀ nTtl (target : Far owner o), Knows links strKey target → Knows links strNewKey target →
      HoldsValue target.servers.redis.union entry.value strKey →
      Loses entry.value strKey strNewKey first (rest nTtl (format.dump entry.value)) target) :
    Loses entry.value strKey strNewKey (first + 2) (do
      let (nRet, strVal) ← dump (links.servers address) strKey
      if refused nRet (strVal.getD []) then cleanUp (links.servers address) strNewKey nRet
      else
        let (nRet, nTtl) ← pttl (links.servers address) longBits strKey
        if dead nRet nTtl then cleanUp (links.servers address) strNewKey nRet
        else rest nTtl (strVal.getD [])) source := by
  have held : HoldsValue source.servers.redis.union entry.value strKey := ⟨entry, present, rfl⟩
  obtain ⟨⟨nRet, strVal⟩, dumped, count, ranDump, called, payload⟩ := dump_called format serves address knows
  apply Loses.call ranDump called
  dsimp only at payload ⊢
  rw [← called.union_of_reads rfl] at held
  have knowsNew := called.trace.knows knowsNew
  have knows := called.trace.knows knows
  split_ifs with failed
  · exact cleanUp_loses format serves address different nRet _ knowsNew held
  rw [payload (accepts _ _ failed), present]
  obtain ⟨⟨nRet, nTtl⟩, lived, count, ranPttl, called⟩ := pttl_called format serves address longBits knows
  apply Loses.call ranPttl called
  dsimp only
  rw [← called.union_of_reads rfl] at held
  have knowsNew := called.trace.knows knowsNew
  split_ifs with failed
  · exact cleanUp_loses format serves address different nRet _ knowsNew held
  · exact ends nTtl lived (called.trace.knows knows) knowsNew held

theorem rename_loses (longBits : ℕ) {entry : Entry o} (knows : Knows links strKey source)
    (knowsNew : Knows links strNewKey source) (apart : source.client.inSameNode strKey strNewKey = false)
    (present : source.servers.redis.union strKey = some entry) :
    Loses entry.value strKey strNewKey 4 (rename (links.servers address) longBits strKey strNewKey) source := by
  rw [Loses, rename, bind_of_ok (get_apply source), apart, if_neg Bool.false_ne_true]
  apply dump_pttl_loses format serves address different longBits 2 knows knowsNew present
    (fun nRet strVal => nRet ≠ .success ∨ strVal = []) (fun nRet nTtl => nRet ≠ .success ∨ nTtl = some (-2))
    (fun nRet strVal accepted => not_not.mp fun wrong => accepted (.inl wrong))
    (fun nTtl strVal => do
      let nTtl := if nTtl = some (-1) then 0 else nTtl.getD 0
      let (nRet, _) ← del (links.servers address) strNewKey
      if nRet.value < 0 then cleanUp (links.servers address) strNewKey nRet
      else moveOn (links.servers address) strKey strNewKey nTtl strVal)
  intro nTtl target knows knowsNew held
  obtain ⟨⟨nRet, _⟩, freed, count, ranDel, called, -⟩ := del_called format serves address knowsNew
  apply Loses.call ranDel called
  dsimp only
  rw [← called.holdsValue different] at held
  have knowsNew := called.trace.knows knowsNew
  by_cases failed : nRet.value < 0
  · rw [if_pos failed]
    exact cleanUp_loses format serves address different nRet _ knowsNew held
  · rw [if_neg failed]
    exact moveOn_loses format serves address different _ (called.trace.knows knows) knowsNew held

theorem renamenx_loses (longBits : ℕ) {entry : Entry o} (knows : Knows links strKey source)
    (knowsNew : Knows links strNewKey source) (apart : source.client.inSameNode strKey strNewKey = false)
    (present : source.servers.redis.union strKey = some entry) :
    Loses entry.value strKey strNewKey 4 (renamenx (links.servers address) longBits strKey strNewKey) source := by
  rw [Loses, renamenx, bind_of_ok (get_apply source), apart, if_neg Bool.false_ne_true]
  obtain ⟨⟨nRet, nVal⟩, asked, count, ranExists, called, -⟩ := exists_called format serves address knowsNew
  apply Loses.call ranExists called
  dsimp only
  have present : asked.servers.redis.union strKey = some entry := by rwa [called.union_of_reads rfl]
  have held : HoldsValue asked.servers.redis.union entry.value strKey := ⟨entry, present, rfl⟩
  have knowsNew := called.trace.knows knowsNew
  split_ifs with failed taken
  · exact .return held
  · exact .return held
  apply dump_pttl_loses format serves address different longBits 1 (called.trace.knows knows) knowsNew present
    (fun nRet _ => nRet ≠ .success) (fun nRet _ => nRet ≠ .success) (fun nRet _ accepted => not_not.mp accepted)
    (fun nTtl strVal => moveOn (links.servers address) strKey strNewKey
      (if nTtl = some (-1) then 0 else nTtl.getD 0) strVal)
  intro nTtl target knows knowsNew held
  exact moveOn_loses format serves address different _ knows knowsNew held

omit different serves in
/-- Keys of different nodes are of different servers. -/
theorem Knows.apart (knows : Knows links strKey source) (knowsNew : Knows links strNewKey source)
    (nodes : nodeOf owner strKey ≠ nodeOf owner strNewKey) : source.client.inSameNode strKey strNewKey = false := by
  obtain ⟨cluster, serv, found, placed⟩ := knows
  obtain ⟨-, servNew, foundNew, placedNew⟩ := knowsNew
  rw [CRedisClient.inSameNode, cluster, if_pos rfl, found, foundNew, decide_eq_false_iff_not]
  intro same
  obtain rfl := Option.some.inj same
  exact nodes (placed.symm.trans placedNew)

end

/-- The call returns, and the value is gone if and only if the fifth command, which deletes the source, and the
sixth, which deletes the copy, were both carried out. -/
def SafeUnlessBoth (value : Value o) (strKey strNewKey : CppString)
    (program : Action (Remote (Stores owner o)) ReturnCode)
    (source : Far owner o) : Prop :=
  ∃ nRet target carried, program source = .ok (nRet, target) ∧
    target.servers.executed = source.servers.executed ++ carried ∧
    (Safe value strKey strNewKey target ↔ ¬ (source.commands + 4 ∈ carried ∧ source.commands + 5 ∈ carried))

omit serves in
theorem Loses.safeUnlessBoth {strKey strNewKey : CppString} {value : Value o}
    {program : Action (Remote (Stores owner o)) ReturnCode} (loses : Loses value strKey strNewKey 4 program source) :
    SafeUnlessBoth value strKey strNewKey program source := by
  obtain ⟨nRet, target, issued, carried, ran, trace, safe⟩ := loses
  exact ⟨nRet, target, carried, ran, trace.executed, safe⟩

/-- Whatever requests fail, and whether they were carried out or not. -/
theorem rename_renamenx_safe_iff (longBits : ℕ) {strKey strNewKey : CppString} {entry : Entry o}
    (nodes : nodeOf owner strKey ≠ nodeOf owner strNewKey) (knows : Knows links strKey source)
    (knowsNew : Knows links strNewKey source) (present : source.servers.redis.union strKey = some entry) :
    SafeUnlessBoth entry.value strKey strNewKey (rename (links.servers address) longBits strKey strNewKey) source ∧
      SafeUnlessBoth entry.value strKey strNewKey
        (renamenx (links.servers address) longBits strKey strNewKey) source := by
  have different : strKey ≠ strNewKey := by
    rintro rfl
    exact nodes rfl
  have apart := knows.apart knowsNew nodes
  exact ⟨(rename_loses format serves address different longBits knows knowsNew apart present).safeUnlessBoth,
    (renamenx_loses format serves address different longBits knows knowsNew apart present).safeUnlessBoth⟩

omit serves

/-- A client of two nodes, of which one holds a string. -/
def far : Far twoNodes Unit where
  client := { bCluster := true, vecSlot := [halfRegion 0, halfRegion 1], vecRedisServ := [0, 1] }
  servers := { redis := Shards.split _ onlyA }

/-- Four commands are answered, the fifth is carried out but its reply is lost, and its retry fails at once. -/
def interrupted (log : List Event) : Fate :=
  let replies := log.countP fun
    | .reply _ _ => true
    | _ => false
  let losses := log.countP fun
    | .lost _ => true
    | _ => false
  if replies < 4 then .answered 0
  else if losses = 0 then .failed 1
  else if losses = 1 then .failed 0
  else .answered 0

def overLinks (fate : List Event → Fate) : Links (Stores twoNodes Unit) where
  node := halfAt
  serve := serveNode plain
  fate := fate
  refreshed _ := none

theorem far_knows (fate : List Event → Fate) (strKey : CppString) : Knows (overLinks fate) strKey far :=
  ⟨rfl, hashSlot strKey / 8192, overTwoNodes_found (hashSlot_lt strKey), rfl⟩

theorem far_union : far.servers.redis.union = onlyA := Shards.union_split onlyA

theorem rename_renamenx_two_links :
    SafeUnlessBoth (.string (text "v")) (text "a") (text "b")
        (rename ((overLinks interrupted).servers id) 64 (text "a") (text "b")) far ∧
      SafeUnlessBoth (.string (text "v")) (text "a") (text "b")
        (renamenx ((overLinks interrupted).servers id) 64 (text "a") (text "b")) far := by
  have nodes : nodeOf twoNodes (text "a") ≠ nodeOf twoNodes (text "b") := by decide +kernel
  have present : far.servers.redis.union (text "a") = some { value := .string (text "v") } := by
    rw [far_union, onlyA_a]
  exact rename_renamenx_safe_iff plain rfl id 64 nodes (far_knows interrupted _) (far_knows interrupted _) present

/-- The commands that a call has carried out. -/
def carriedOut {α : Type} (program : Action (Remote (Stores twoNodes Unit)) α) : Option (List ℕ) :=
  match program far with
  | .ok (_, target) => some target.servers.executed
  | .error _ => none

theorem SafeUnlessBoth.lost {value : Value Unit} {strKey strNewKey : CppString}
    {program : Action (Remote (Stores twoNodes Unit)) ReturnCode}
    (safe : SafeUnlessBoth value strKey strNewKey program far)
    (both : carriedOut program = some [0, 1, 2, 3, 4, 5]) :
    ∃ nRet target, program far = .ok (nRet, target) ∧ ¬ Safe value strKey strNewKey target := by
  obtain ⟨nRet, target, carried, ran, executed, safe⟩ := safe
  rw [carriedOut, ran] at both
  have all : carried = [0, 1, 2, 3, 4, 5] := executed.symm.trans (Option.some.inj both)
  refine ⟨nRet, target, ran, fun held => safe.mp held ?_⟩
  rw [all]
  exact ⟨by decide, by decide⟩

/-- The reply to the deletion of the source is lost, and its retry fails: the clean-up deletes the copy. -/
theorem rename_renamenx_lose_value :
    (∃ nRet target, rename ((overLinks interrupted).servers id) 64 (text "a") (text "b") far = .ok (nRet, target) ∧
        ¬ Safe (.string (text "v")) (text "a") (text "b") target) ∧
      ∃ nRet target, renamenx ((overLinks interrupted).servers id) 64 (text "a") (text "b") far = .ok (nRet, target) ∧
        ¬ Safe (.string (text "v")) (text "a") (text "b") target := by
  have different : text "a" ≠ text "b" := by decide
  have apart : far.client.inSameNode (text "a") (text "b") = false := by decide +kernel
  have present : far.servers.redis.union (text "a") = some { value := .string (text "v") } := by
    rw [far_union, onlyA_a]
  have knows := far_knows interrupted (text "a")
  have knowsNew := far_knows interrupted (text "b")
  constructor
  · exact (rename_loses plain rfl id different 64 knows knowsNew apart present).safeUnlessBoth.lost (by decide +kernel)
  · exact (renamenx_loses plain rfl id different 64 knows knowsNew apart present).safeUnlessBoth.lost
      (by decide +kernel)

end CppRedis.Soundness.Interruption
