import CppRedis.Soundness.Refreshing
import CppRedis.Soundness.Retries

/-! # The error type of an attempt

One `ErrorInfo` lives through all rounds of a command. A connection that is made and a listing clear its error
type, an error reply with a code overwrites it, and everything else leaves it: an error reply without a code is
then taken for what an earlier attempt got, and so is a reply that is lost. An attempt is treated by its own
outcome exactly when no error type is left at these two points.
-/

namespace CppRedis.Soundness.Errtypes

open Machine Model Model.R3c Model.RedisCpp Machine.Effect Frames Rounds Retries Refreshing

variable {env : Env}

/-- The code at the front of an error reply, or nothing. -/
def ownCode (str : CppString) : CppString := extractErrtype str []

/-- The rounds of a call, with the states that they start in. -/
inductive Reached (env : Env) (readonly : Bool) (numRetries : ℤ) (key : CppString) (start : World) :
    ℕ → Option Node → World → Prop where
  | first : Reached env readonly numRetries key start 0 none { start with errinfo := {} }
  | next {loopCounter : ℕ} {askNode next : Option Node} {source target : World}
      (reached : Reached env readonly numRetries key start loopCounter askNode source)
      (below : loopCounter ≠ intMax)
      (ran : R3c.round env readonly numRetries key loopCounter askNode source = (.ok (.again next), target)) :
      Reached env readonly numRetries key start (loopCounter + 1) next target

/-- The node of a round has been chosen. -/
def Chosen (env : Env) (readonly : Bool) (key : CppString) (askNode : Option Node) (source : World)
    (found : Option NodeRef) (chosen : World) : Prop :=
  getRedisNode env (if source.client.clusterMode then some (getKeySlot (env.random source.log).toNat key) else none)
    readonly askNode source = (.ok found, chosen)

/-- The command has been transmitted, as far as there is a connection. -/
def Transmitted (env : Env) (askNode : Option Node) (redisNode : NodeRef) (chosen : World) (result : HandleResult)
    (reply : Option RedisReply) (sent : World) : Prop :=
  transmit env askNode.isSome redisNode (chosen.note (.attempt (some redisNode))) = (.ok (result, reply), sent)

/-- The chosen node has a connection. -/
def Connected (redisNode : NodeRef) (chosen : World) : Prop :=
  ∃ entry, chosen.client.at? redisNode = some entry ∧ entry.context.isSome

/-- What has been left of the error type since: nothing, or what a connection was refused with. -/
def Fresh (env : Env) (source target : World) : Prop :=
  target.errinfo.errtype = [] ∨
    ∃ events node readonly error rest, env.connect (source.log ++ events) node readonly = some error ∧
      target.log = source.log ++ events ++ .connect node readonly false :: rest ∧
      target.errinfo.errtype = error.errtype

section

variable (env : Env) (readonly : Bool) (numRetries : ℤ) (key : CppString) (loopCounter : ℕ) (askNode : Option Node)
  (source : World)

/-- The round ends with an exception. -/
def Throws (errinfo : ErrorInfo) (target : World) : Prop :=
  R3c.round env readonly numRetries key loopCounter askNode source = (.ok (.finish (.thrown errinfo)), target)

/-- The attempt is treated by its own outcome: an error reply is classified by its own code, and an exception
carries this code, no code if the reply was lost, and what the attempt's own connection was refused with if it
had no other. -/
structure Own : Prop where
  classified : ∀ redisNode chosen result str sent, Chosen env readonly key askNode source (some redisNode) chosen →
    Transmitted env askNode redisNode chosen result (some (.error str)) sent →
    sent.errinfo.errtype = ownCode str ∧ result = errtypeResult (ownCode str)
  replied : ∀ redisNode chosen result str sent errinfo target,
    Chosen env readonly key askNode source (some redisNode) chosen →
    Transmitted env askNode redisNode chosen result (some (.error str)) sent →
    Throws env readonly numRetries key loopCounter askNode source errinfo target → errinfo.errtype = ownCode str
  lost : ∀ redisNode chosen result sent errinfo target,
    Chosen env readonly key askNode source (some redisNode) chosen → Connected redisNode chosen →
    Transmitted env askNode redisNode chosen result none sent →
    Throws env readonly numRetries key loopCounter askNode source errinfo target → errinfo.errtype = []
  unconnected : ∀ found chosen errinfo target, Chosen env readonly key askNode source found chosen →
    (∀ redisNode, found = some redisNode → ¬ Connected redisNode chosen) →
    Throws env readonly numRetries key loopCounter askNode source errinfo target →
    Fresh env source { target with errinfo := errinfo }

/-- No error type is left from before when an attempt gets an error reply without a code, or loses its reply and
gives up. -/
structure Clean : Prop where
  uncoded : ∀ redisNode chosen result str sent, Chosen env readonly key askNode source (some redisNode) chosen →
    Transmitted env askNode redisNode chosen result (some (.error str)) sent → ownCode str = [] →
    chosen.errinfo.errtype = []
  lost : ∀ redisNode chosen result sent, Chosen env readonly key askNode source (some redisNode) chosen →
    Connected redisNode chosen → Transmitted env askNode redisNode chosen result none sent →
    result = .error ∨ numRetries ≤ loopCounter → chosen.errinfo.errtype = []

end

/-- A code takes the place of what is left from before. -/
theorem extractErrtype_eq (str errtype : CppString) :
    extractErrtype str errtype = if ownCode str = [] then errtype else ownCode str := by
  by_cases coded : 2 < str.length ∧ 0x20 ∈ cStr str ∧ 2 < ((cStr str).takeWhile (· ≠ 0x20)).length ∧
      (((cStr str).takeWhile (· ≠ 0x20)).take 3).all isUpper
  · have own : ownCode str = (cStr str).takeWhile (· ≠ 0x20) := if_pos coded
    have filled : ownCode str ≠ [] := by
      rw [own]
      exact List.ne_nil_of_length_pos (Nat.lt_trans Nat.zero_lt_two coded.2.2.1)
    rw [if_neg filled, own]
    exact if_pos coded
  · have own : ownCode str = [] := if_neg coded
    rw [if_pos own]
    exact if_neg coded

theorem modifyClient_run (change : CRedisClient → CRedisClient) (source : World) :
    modifyClient change source = (.ok (), { source with client := change source.client }) := rfl

/-- An error reply is classified by its code, or by what is left from before. -/
theorem handleRedisReply_error (redisNode : NodeRef) (str : CppString) (source : World) :
    ∃ target, handleRedisReply redisNode (.error str) source =
        (.ok (errtypeResult (extractErrtype str source.errinfo.errtype)), target) ∧
      target.errinfo.errtype = extractErrtype str source.errinfo.errtype := by
  rw [handleRedisReply, bind_of_ok (modifyClient_run _ _), handleRedisReplayError, bind_of_ok (get_apply _)]
  dsimp only
  rw [bind_of_ok (set_errinfo _ _), provided]
  split_ifs
  · exact ⟨_, rfl, rfl⟩
  · exact ⟨_, rfl, rfl⟩

theorem handleRedisCommandError_run {redisNode : NodeRef} {err : Option RedisErr} {result : HandleResult}
    {source target : World} (ran : handleRedisCommandError env redisNode err source = (.ok result, target)) :
    target.errinfo.errtype = source.errinfo.errtype ∧ (result = .error ∨ result = .reconnCond) := by
  rw [handleRedisCommandError, bind_of_ok (get_apply source), bind_of_ok (set_errinfo _ _)] at ran
  split at ran
  · cases ran
    exact ⟨rfl, .inl rfl⟩
  · cases ran
    exact ⟨rfl, .inr rfl⟩

/-- What a transmission leaves of the error type. -/
inductive Left (askNode : Option Node) (redisNode : NodeRef) (chosen : World) :
    HandleResult → Option RedisReply → World → Prop where
  | unconnected (broken : ¬ Connected redisNode chosen) {sent : World} (same : sent.errinfo = chosen.errinfo) :
      Left askNode redisNode chosen .reconnUncond none sent
  | lost {result : HandleResult} {sent : World} (connected : Connected redisNode chosen)
      (same : sent.errinfo.errtype = chosen.errinfo.errtype) (failed : result = .error ∨ result = .reconnCond) :
      Left askNode redisNode chosen result none sent
  | replied {str : CppString} {sent : World} (connected : Connected redisNode chosen)
      (code : sent.errinfo.errtype = extractErrtype str chosen.errinfo.errtype) :
      Left askNode redisNode chosen (errtypeResult (extractErrtype str chosen.errinfo.errtype)) (some (.error str)) sent
  | success {reply : RedisReply} {sent : World} (clean : ∀ str, reply ≠ .error str) :
      Left askNode redisNode chosen .success (some reply) sent

/-- Requests leave the error type. -/
theorem send_errinfo {request : Request} {redisNode : Option NodeRef} {node : Node} {context : RedisContext}
    {answered : Option RedisReply × RedisContext} {source target : World}
    (ran : send env request redisNode node context source = (.ok answered, target)) :
    target.errinfo = source.errinfo := by
  rw [send] at ran
  split at ran
  · cases ran
    rfl
  · cases ran
    rfl

theorem askFirst_errinfo {asked : Bool} {redisNode : NodeRef} {node : Node} {context made : RedisContext}
    {source target : World} (ran : askFirst env asked redisNode node context source = (.ok made, target)) :
    target.errinfo = source.errinfo := by
  rw [askFirst] at ran
  split at ran
  · obtain ⟨answered, middle, sent, returned⟩ := bind_eq_ok_iff.mp ran
    cases returned
    exact send_errinfo sent
  · cases ran
    rfl

theorem Transmitted.left {askNode : Option Node} {redisNode : NodeRef} {chosen sent : World} {result : HandleResult}
    {reply : Option RedisReply} (transmitted : Transmitted env askNode redisNode chosen result reply sent) :
    Left askNode redisNode chosen result reply sent := by
  obtain ⟨entry, first, ranEntry, restEntry⟩ := bind_eq_ok_iff.mp transmitted
  obtain ⟨rfl, found⟩ := entryAt_run ranEntry
  rcases connection : entry.context with _ | context <;> rw [connection] at restEntry
  · cases restEntry
    refine .unconnected ?_ rfl
    rintro ⟨other, also, open_⟩
    cases found.symm.trans also
    rw [connection] at open_
    cases open_
  · have connected : Connected redisNode chosen := ⟨entry, found, Option.isSome_of_eq_some connection⟩
    obtain ⟨made, second, ranAsk, restAsk⟩ := bind_eq_ok_iff.mp restEntry
    obtain ⟨⟨answered, after⟩, third, ranSend, restSend⟩ := bind_eq_ok_iff.mp restAsk
    have same : third.errinfo = (chosen.note (.attempt (some redisNode))).errinfo :=
      (send_errinfo ranSend).trans (askFirst_errinfo ranAsk)
    change third.errinfo = chosen.errinfo at same
    dsimp only at restSend
    rw [bind_of_ok (modifyClient_run _ _)] at restSend
    rcases answered with _ | reply
    · obtain ⟨_, last, ranError, returned⟩ := bind_eq_ok_iff.mp restSend
      cases returned
      obtain ⟨kept, failed⟩ := handleRedisCommandError_run ranError
      exact .lost connected (kept.trans (congrArg ErrorInfo.errtype same)) failed
    · obtain ⟨_, last, ranReply, returned⟩ := bind_eq_ok_iff.mp restSend
      cases returned
      cases reply with
      | error str =>
        obtain ⟨target, handled, code⟩ := handleRedisReply_error redisNode str
          { third with client := CRedisClient.modifyAt ({ · with context := some after }) redisNode third.client }
        cases ranReply.symm.trans handled
        dsimp only at code ⊢
        rw [same] at code ⊢
        exact .replied connected code
      | _ =>
        cases ranReply
        exact .success nofun

theorem giveUp_run (source : World) : giveUp source = (.ok (.finish (.thrown source.errinfo)), source) := rfl

/-- The entry of the tables after the connection has been closed. -/
theorem closed_errinfo (condition : Prop) [Decidable condition] (redisNode : NodeRef) (source : World) :
    ∃ target, provided condition (modifyClient (CRedisClient.modifyAt (·.close) redisNode)) source =
      (.ok (), target) ∧ target.errinfo = source.errinfo := by
  rw [provided]
  split
  · exact ⟨_, rfl, rfl⟩
  · exact ⟨_, rfl, rfl⟩

/-- An exception carries the `ErrorInfo` that the transmission leaves, after a result that is not tried again. -/
theorem conclude_thrown {numRetries : ℤ} {loopCounter : ℕ} {redisNode : NodeRef} {node : Node} {result : HandleResult}
    {reply : Option RedisReply} {errinfo : ErrorInfo} {source target : World}
    (ran : conclude env numRetries loopCounter redisNode node result reply source =
      (.ok (.finish (.thrown errinfo)), target)) :
    errinfo = source.errinfo ∧ (result = .error ∨ result = .redirect ∨
      goesOn result loopCounter numRetries = false) := by
  have retried (other : retry env numRetries loopCounter redisNode node result source =
      (.ok (.finish (.thrown errinfo)), target)) :
      errinfo = source.errinfo ∧ goesOn result loopCounter numRetries = false := by
    obtain ⟨middle, closed, same⟩ := closed_errinfo result.isReconn redisNode source
    rw [retry, bind_of_ok closed] at other
    split at other
    · obtain ⟨_, _, _, returned⟩ := bind_eq_ok_iff.mp other
      cases returned
    · next stops =>
      rw [giveUp_run] at other
      cases other
      exact ⟨same, Bool.eq_false_iff.mpr stops⟩
  cases result with
  | success => cases ran
  | error =>
    cases ran
    exact ⟨rfl, .inl rfl⟩
  | redirect =>
    rcases parsed : parseMovedString (errorStr reply) with _ | next <;> rw [conclude, parsed] at ran
    · cases ran
      exact ⟨rfl, .inr (.inl rfl)⟩
    · dsimp only at ran
      split at ran
      · cases ran
      · cases ran
        exact ⟨rfl, .inr (.inl rfl)⟩
  | _ =>
    obtain ⟨same, stops⟩ := retried ran
    exact ⟨same, .inr (.inr stops)⟩

/-- After a result that is not tried again the round ends with the `ErrorInfo` as it is. -/
theorem conclude_gives_up {numRetries : ℤ} {loopCounter : ℕ} {redisNode : NodeRef} {node : Node} {result : HandleResult}
    {reply : Option RedisReply} (stops : result = .error ∨ result = .reconnCond ∧ numRetries ≤ loopCounter)
    (source : World) :
    ∃ target, conclude env numRetries loopCounter redisNode node result reply source =
      (.ok (.finish (.thrown source.errinfo)), target) := by
  rcases stops with rfl | ⟨rfl, spent⟩
  · exact ⟨source, rfl⟩
  · obtain ⟨middle, closed, same⟩ := closed_errinfo HandleResult.reconnCond.isReconn redisNode source
    have stops : ¬ goesOn .reconnCond loopCounter numRetries = true := by
      simp only [goesOn, Bool.not_eq_true', decide_eq_false_iff_not, not_not]
      exact spent
    refine ⟨middle, ?_⟩
    rw [conclude, retry, bind_of_ok closed, if_neg stops, giveUp_run, same]
    all_goals rintro ⟨⟩

section

variable {readonly : Bool} {numRetries : ℤ} {key : CppString} {loopCounter : ℕ} {askNode : Option Node}
  {source chosen sent : World} {redisNode : NodeRef} {result : HandleResult} {reply : Option RedisReply}

/-- A round goes from the choice of its node through the transmission to its end. -/
theorem round_run (choice : Chosen env readonly key askNode source (some redisNode) chosen)
    (transmitted : Transmitted env askNode redisNode chosen result reply sent) :
    ∃ node, R3c.round env readonly numRetries key loopCounter askNode source =
      conclude env numRetries loopCounter redisNode node result reply sent := by
  obtain ⟨entry, first, ranEntry, _⟩ := bind_eq_ok_iff.mp transmitted
  obtain ⟨rfl, found⟩ := entryAt_run ranEntry
  refine ⟨entry.node, ?_⟩
  rw [R3c.round, bind_of_ok (get_apply source)]
  rw [bind_of_ok choice, bind_of_ok (modify_apply _ _)]
  dsimp only
  rw [attempt, bind_of_ok ranEntry, bind_of_ok transmitted]

theorem round_none (choice : Chosen env readonly key askNode source none chosen) :
    R3c.round env readonly numRetries key loopCounter askNode source = noAnyNode (chosen.note (.attempt none)) := by
  rw [R3c.round, bind_of_ok (get_apply source)]
  rw [bind_of_ok choice, bind_of_ok (modify_apply _ _)]

/-- A round that throws has come to its transmission. -/
theorem transmitted_of_throws {errinfo : ErrorInfo} {target : World}
    (choice : Chosen env readonly key askNode source (some redisNode) chosen)
    (throws : Throws env readonly numRetries key loopCounter askNode source errinfo target) :
    ∃ result reply sent, Transmitted env askNode redisNode chosen result reply sent := by
  rw [Throws, R3c.round, bind_of_ok (get_apply source)] at throws
  rw [bind_of_ok choice, bind_of_ok (modify_apply _ _)] at throws
  obtain ⟨entry, first, ranEntry, rest⟩ := bind_eq_ok_iff.mp throws
  obtain ⟨⟨result, reply⟩, sent, ranTransmit, _⟩ := bind_eq_ok_iff.mp rest
  obtain ⟨rfl, -⟩ := entryAt_run ranEntry
  exact ⟨result, reply, sent, ranTransmit⟩

end

/-- The error type is as before, or it is fresh. -/
structure Renews (env : Env) (source target : World) : Prop where
  log : source.log <+: target.log
  errtype : target.errinfo.errtype = source.errinfo.errtype ∨ Fresh env source target

theorem Fresh.mono {source middle target : World} (fresh : Fresh env source middle) (later : middle.log <+: target.log)
    (same : target.errinfo.errtype = middle.errinfo.errtype) : Fresh env source target := by
  obtain ⟨added, grown⟩ := later
  rcases fresh with none | ⟨events, node, readonly, error, rest, refused, noted, code⟩
  · exact .inl (same.trans none)
  · refine .inr ⟨events, node, readonly, error, rest ++ added, refused, ?_, same.trans code⟩
    rw [← grown, noted, List.append_assoc, List.cons_append]

theorem Fresh.before {source middle target : World} (earlier : source.log <+: middle.log)
    (fresh : Fresh env middle target) : Fresh env source target := by
  obtain ⟨added, grown⟩ := earlier
  rcases fresh with none | ⟨events, node, readonly, error, rest, refused, noted, code⟩
  · exact .inl none
  · refine .inr ⟨added ++ events, node, readonly, error, rest, ?_, ?_, code⟩
    · rwa [← List.append_assoc, grown]
    · rwa [← List.append_assoc, grown]

theorem Fresh.after {source middle target : World} (fresh : Fresh env source middle) (renews : Renews env middle target)
    (earlier : source.log <+: middle.log) : Fresh env source target := by
  rcases renews.errtype with same | again
  · exact fresh.mono renews.log same
  · exact again.before earlier

instance : Std.Refl (Renews env) := ⟨fun _ => ⟨List.prefix_rfl, .inl rfl⟩⟩

instance : IsTrans World (Renews env) where
  trans source middle target first second := by
    refine ⟨first.log.trans second.log, ?_⟩
    rcases first.errtype with same | fresh
    · rcases second.errtype with also | fresh
      · exact .inl (also.trans same)
      · exact .inr (fresh.before first.log)
    · exact .inr (fresh.after second first.log)

theorem connectRedisNode_fresh (node : Node) (readonly : Bool) (source : World) :
    Fresh env source (connectRedisNode env node readonly source).2 := by
  cases failed : env.connect source.log node readonly with
  | none =>
    left
    change (Option.getD (env.connect source.log node readonly) {}).errtype = []
    rw [failed]
    rfl
  | some error =>
    right
    refine ⟨[], node, readonly, error, [], by rwa [List.append_nil], ?_, ?_⟩
    · change source.log ++ [.connect node readonly (env.connect source.log node readonly).isNone] = _
      rw [failed, List.append_nil]
      rfl
    · change (Option.getD (env.connect source.log node readonly) {}).errtype = _
      rw [failed]
      rfl

theorem connectRedisNode_renews (node : Node) (readonly : Bool) :
    Keeps (Renews env) (connectRedisNode env node readonly) :=
  fun source => ⟨List.prefix_append _ _, .inr (connectRedisNode_fresh node readonly source)⟩

theorem modifyClient_renews (change : CRedisClient → CRedisClient) : Keeps (Renews env) (modifyClient change) :=
  fun _ => ⟨List.prefix_rfl, .inl rfl⟩

theorem note_renews (event : Event) : Keeps (Renews env) (modify (World.note event) : Action Unit) :=
  fun _ => ⟨List.prefix_append _ _, .inl rfl⟩

theorem check_renews (condition : Bool) : Keeps (Renews env) (check env condition) := .ite (.throw _) (.pure _)

theorem provided_renews {condition : Prop} [Decidable condition] {action : Action Unit}
    (renews : Keeps (Renews env) action) : Keeps (Renews env) (provided condition action) := .ite renews (.pure _)

theorem parseRows_errtype (nodesInfo : List NodeInfo) (lines : List CppString) :
    (parseRows nodesInfo lines).2.errtype = [] := by
  fun_induction parseRows nodesInfo lines with
  | case1 nodesInfo => rfl
  | case2 nodesInfo line lines empty => rfl
  | case3 nodesInfo line lines filled unread => rfl
  | case4 nodesInfo line lines filled nodeinfo read ih => exact ih

/-- A listing leaves no error type. -/
theorem parseListing_errtype {reply : RedisReply} {nodesInfo : List NodeInfo} {errinfo : ErrorInfo}
    (parsed : parseListing reply = .ok (nodesInfo, errinfo)) : errinfo.errtype = [] := by
  unfold parseListing at parsed
  split at parsed
  · dsimp only at parsed
    split at parsed
    · cases parsed
      rfl
    · obtain ⟨-, rfl⟩ := Prod.mk.inj (Except.ok.inj parsed)
      exact parseRows_errtype _ _
  · cases parsed
    rfl
  · cases parsed
    rfl
  · cases parsed

theorem setErrinfo_renews {errinfo : ErrorInfo} (none : errinfo.errtype = []) :
    Keeps (Renews env) (setErrinfo errinfo) :=
  fun _ => ⟨List.prefix_rfl, .inr (.inl none)⟩

theorem listClusterNodes_renews (redisNode : Option NodeRef) (node : Node) (context : RedisContext) :
    Keeps (Renews env) (listClusterNodes env redisNode node context) := by
  apply Keeps.bind
  · exact .ite (.pure _) (.get_then fun _ => (note_renews _).bind fun _ => .pure _)
  · rintro ⟨_ | reply, context⟩
    · exact (setErrinfo_renews rfl).bind fun _ => .pure _
    · rcases parsed : parseListing reply with fault | ⟨nodesInfo, errinfo⟩ <;> simp only [parsed]
      · exact .throw _
      · refine (setErrinfo_renews (parseListing_errtype parsed)).bind fun _ => .ite (.pure _) ?_
        exact (note_renews _).bind fun _ => .pure _

theorem updateSlots_renews (nodeinfo : NodeInfo) : Keeps (Renews env) (updateSlots nodeinfo) :=
  .forM fun _ _ => .ite (modifyClient_renews _) (.throw _)

theorem addMasterNode_renews (nodeinfo : NodeInfo) : Keeps (Renews env) (addMasterNode env nodeinfo) := by
  refine (connectRedisNode_renews _ _).bind fun _ => .get_then fun _ => ?_
  refine (note_renews _).bind fun _ => (check_renews _).bind fun _ => ?_
  exact (modifyClient_renews _).bind fun _ => .pure _

theorem initMasterNode_renews (several : Bool) (connected : ℕ) (nodeinfo : NodeInfo) :
    Keeps (Renews env) (initMasterNode env several connected nodeinfo) := by
  refine (provided_renews (modifyClient_renews _)).bind fun _ => .ite ?_ (.pure _)
  exact (updateSlots_renews nodeinfo).bind fun _ => (addMasterNode_renews nodeinfo).bind fun _ => .pure _

theorem initMasterNodes_renews (nodesInfo : List NodeInfo) : Keeps (Renews env) (initMasterNodes env nodesInfo) := by
  refine (modifyClient_renews _).bind fun _ => Keeps.bind (.foldlM fun _ _ _ => initMasterNode_renews _ _ _) fun _ => ?_
  exact (note_renews _).bind fun _ => .pure _

/-- The error of a replica's connection is kept apart. -/
theorem initReplicaNode_renews (nodeinfo : NodeInfo) : Keeps (Renews env) (initReplicaNode env nodeinfo) := by
  apply Keeps.get_bind
  intro source
  rcases source.client.getRedisMasterNode nodeinfo.masterId with _ | master
  · exact refl source
  · obtain ⟨context, middle, connected⟩ : ∃ context middle, connectRedisNode env nodeinfo.node true source =
        (.ok context, middle) := ⟨_, _, rfl⟩
    have later := ((connectRedisNode_renews nodeinfo.node true).run connected).log
    dsimp only
    rw [bind_of_ok connected, bind_of_ok (set_errinfo _ _)]
    rcases context with _ | context
    · exact ⟨later, .inl rfl⟩
    · exact ⟨later, .inl rfl⟩

theorem initReplicas_renews (nodesInfo : List NodeInfo) : Keeps (Renews env) (initReplicas env nodesInfo) :=
  .get_then fun _ => provided_renews (.forM fun _ _ => initReplicaNode_renews _)

theorem initClusterLoop_renews (rounds : ℕ) (seed : UInt64) : Keeps (Renews env) (initClusterLoop env rounds seed) := by
  induction rounds generalizing seed with
  | zero => exact .pure _
  | succ rounds ih =>
    apply Keeps.get_then
    intro world
    apply (connectRedisNode_renews _ _).bind
    rintro (_ | context)
    · exact ih _
    · apply (listClusterNodes_renews _ _ _).bind
      rintro ⟨_ | nodesInfo, context⟩
      · exact ih _
      · exact (initMasterNodes_renews nodesInfo).bind fun _ => .ite (initReplicas_renews nodesInfo) (ih _)

/-- After a connection has been tried, what follows keeps or renews its error type. -/
theorem fresh_of_connect {α : Type} {node : Node} {readonly : Bool} {next : Option RedisContext → Action α}
    {result : Except R3c.Fault α} {source target : World}
    (ran : (connectRedisNode env node readonly >>= next) source = (result, target))
    (after : ∀ context, Keeps (Renews env) (next context)) : Fresh env source target := by
  obtain ⟨context, middle, connected⟩ : ∃ context middle, connectRedisNode env node readonly source =
      (.ok context, middle) := ⟨_, _, rfl⟩
  have fresh := @connectRedisNode_fresh env node readonly source
  rw [connected] at fresh
  rw [bind_of_ok connected] at ran
  exact fresh.after ((after context).run ran) ((connectRedisNode_renews node readonly).run connected).log

/-- Filling empty tables tries a connection at least. -/
theorem initCluster_fresh {filled : Bool} {source target : World} (seeds : source.client.nodes ≠ [])
    (ran : initCluster env source = (.ok filled, target)) : Fresh env source target := by
  obtain ⟨rounds, size⟩ := Nat.exists_eq_succ_of_ne_zero fun none => seeds (List.eq_nil_of_length_eq_zero none)
  rw [initCluster, bind_of_ok (get_apply source), size] at ran
  obtain ⟨_, middle, looped, returned⟩ := bind_eq_ok_iff.mp ran
  cases returned
  rw [initClusterLoop, bind_of_ok (get_apply source)] at looped
  apply fresh_of_connect looped
  rintro (_ | context)
  · exact initClusterLoop_renews _ _
  · apply (listClusterNodes_renews _ _ _).bind
    rintro ⟨_ | nodesInfo, context⟩
    · exact initClusterLoop_renews _ _
    · exact (initMasterNodes_renews nodesInfo).bind fun _ =>
        .ite (initReplicas_renews nodesInfo) (initClusterLoop_renews _ _)

theorem initCluster_filled {source target : World} (ran : initCluster env source = (.ok true, target)) :
    target.client.masters.keys ≠ [] := by
  rw [initCluster, bind_of_ok (get_apply source)] at ran
  obtain ⟨_, middle, _, returned⟩ := bind_eq_ok_iff.mp ran
  rw [bind_of_ok (get_apply middle)] at returned
  obtain ⟨filled, rfl⟩ := Prod.mk.inj returned
  exact of_decide_eq_true (Except.ok.inj filled)

theorem check_run {condition : Bool} {source target : World} (ran : check env condition source = (.ok (), target)) :
    target = source := by
  rw [check] at ran
  split at ran
  · cases ran
  · cases ran
    rfl

/-- A table that is filled, or a fresh error type. -/
theorem refill_run {filled : Bool} {source target : World} (cluster : Cluster source)
    (ran : refill env source = (.ok filled, target)) :
    source.log <+: target.log ∧ (filled = true → target.client.masters.keys ≠ []) ∧
      (filled = false → Fresh env source target) := by
  rw [refill, bind_of_ok (get_apply source)] at ran
  split at ran
  · next there =>
    cases ran
    exact ⟨List.prefix_rfl, fun _ => there, by rintro ⟨⟩⟩
  · rw [bind_of_ok (modifyClient_run _ _), bind_of_ok (get_apply _)] at ran
    obtain ⟨_, middle, checked, rest⟩ := bind_eq_ok_iff.mp ran
    have same := check_run checked
    have start : source.log <+: middle.log := by rw [same]
    have seeds : middle.client.nodes ≠ [] := by
      rw [same]
      intro none
      rw [Cluster, CRedisClient.clusterMode, (List.append_eq_nil_iff.mp none).1] at cluster
      exact absurd cluster (by decide)
    refine ⟨start.trans ((later_frame.initCluster env).run rest).log_earlier, ?_, ?_⟩
    · rintro rfl
      exact initCluster_filled rest
    · intro _
      exact (initCluster_fresh seeds rest).before start

/-- In a table that is filled there is a master. -/
theorem findMaster_some {slot : ℕ} {askNode found : Option Node} {source target : World}
    (there : source.client.masters.keys ≠ []) (ran : findMaster env slot askNode source = (.ok found, target)) :
    target = source ∧ found ≠ none := by
  rw [findMaster, bind_of_ok (get_apply source)] at ran
  split at ran
  · cases ran
    exact ⟨rfl, nofun⟩
  · rw [randomRedisMasterNode, bind_of_ok (get_apply source)] at ran
    have ordered : env.order source.log source.client.masters.keys ≠ [] := fun none =>
      there (List.Perm.nil_eq (none ▸ env.order_perm source.log source.client.masters.keys)).symm
    rw [if_neg ordered] at ran
    split at ran
    · cases ran
    · obtain ⟨chosen, rfl⟩ := Prod.mk.inj ran
      refine ⟨rfl, ?_⟩
      rw [← Except.ok.inj chosen]
      exact fun none => absurd (Nat.mod_lt _ (List.length_pos_of_ne_nil ordered))
        (Nat.not_lt.mpr (List.getElem?_eq_none_iff.mp none))

/-- An entry is connected, or its connection has just been refused. -/
theorem ensureContext_connected {redisNode : NodeRef} {connected : Bool} {source target : World}
    (ran : ensureContext env redisNode source = (.ok connected, target)) :
    source.log <+: target.log ∧ (connected = true → Connected redisNode target) ∧
      (connected = false → Fresh env source target) := by
  obtain ⟨entry, first, ranEntry, rest⟩ := bind_eq_ok_iff.mp ran
  obtain ⟨rfl, found⟩ := entryAt_run ranEntry
  rcases connection : entry.context with _ | context <;> rw [connection] at rest
  · obtain ⟨context, middle, ranConnect, stored⟩ := bind_eq_ok_iff.mp rest
    have fresh := fresh_of_connect rest fun _ => (modifyClient_renews _).bind fun _ => .pure _
    have client : middle.client = first.client := by
      cases ranConnect
      rfl
    have renews := (connectRedisNode_renews entry.node false).run ranConnect
    cases stored
    refine ⟨renews.log, fun made => ?_, fun _ => fresh⟩
    refine ⟨entry.setRedisContext context, ?_, made⟩
    dsimp only
    rw [CRedisClient.modifyAt_at?, if_pos rfl, client, found]
    rfl
  · cases rest
    exact ⟨List.prefix_rfl, fun _ => ⟨entry, found, Option.isSome_of_eq_some connection⟩, nofun⟩

/-- Choosing between a master and its replicas changes no entry. -/
theorem chooseNode_run {node : Node} {redisNode : NodeRef} {source target : World}
    (ran : chooseNode env node source = (.ok redisNode, target)) :
    target.log = source.log ∧ target.errinfo = source.errinfo ∧
      ∀ other, target.client.at? other = source.client.at? other := by
  rw [chooseNode, bind_of_ok (get_apply source)] at ran
  rcases found : source.client.masters.lookup node with _ | master <;> rw [found] at ran
  · cases ran
  · dsimp only at ran
    split at ran
    · cases ran
      exact ⟨rfl, rfl, fun _ => rfl⟩
    · rw [bind_of_ok (modifyClient_run _ _)] at ran
      have counted (other : NodeRef) := source.client.modifyMaster_at? node
        (fun master => { master with index := master.index + 1 }) other fun _ => ⟨rfl, rfl⟩
      split at ran
      · cases ran
        exact ⟨rfl, rfl, counted⟩
      · cases ran
        exact ⟨rfl, rfl, counted⟩

/-- The chosen node is connected, or its connection has just been refused. -/
theorem readNode_run {start source target : World} {readonly connected : Bool} {node : Node} {redisNode : NodeRef}
    (earlier : start.log <+: source.log) (there : connected = true → Connected (.master node) source)
    (refused : connected = false → Fresh env start source)
    (ran : readNode env readonly node connected source = (.ok redisNode, target)) :
    Connected redisNode target ∨ Fresh env start target := by
  have master : Connected (.master node) source ∨ Fresh env start source := by
    cases connected with
    | true => exact .inl (there rfl)
    | false => exact .inr (refused rfl)
  rw [readNode, bind_of_ok (get_apply source)] at ran
  split at ran
  · cases ran
    exact master
  · split at ran
    · cases ran
      exact master
    · obtain ⟨chosen, middle, ranChoose, rest⟩ := bind_eq_ok_iff.mp ran
      obtain ⟨log, _, _⟩ := chooseNode_run ranChoose
      obtain ⟨made, last, ranEnsure, returned⟩ := bind_eq_ok_iff.mp rest
      obtain ⟨_, connects, refuses⟩ := ensureContext_connected ranEnsure
      cases made with
      | true =>
        cases returned
        exact .inl (connects rfl)
      | false =>
        cases returned
        exact .inr ((refuses rfl).before (log ▸ earlier))

theorem getRedisNode_fresh {slot : Option ℕ} {readonly : Bool} {askNode : Option Node} {found : Option NodeRef}
    {source target : World} (cluster : slot ≠ none → Cluster source)
    (ran : getRedisNode env slot readonly askNode source = (.ok found, target)) :
    (∃ redisNode, found = some redisNode ∧ Connected redisNode target) ∨ Fresh env source target := by
  rcases slot with _ | slot
  · rw [getRedisNode, standaloneNode, bind_of_ok (get_apply source)] at ran
    obtain ⟨_, middle, checked, rest⟩ := bind_eq_ok_iff.mp ran
    obtain rfl := check_run checked
    rcases ordered : env.order middle.log middle.client.masters.keys with _ | ⟨node, nodes⟩ <;> rw [ordered] at rest
    · cases rest
    · obtain ⟨made, last, ranEnsure, returned⟩ := bind_eq_ok_iff.mp rest
      obtain ⟨_, connects, refuses⟩ := ensureContext_connected ranEnsure
      cases returned
      cases made with
      | true => exact .inl ⟨_, rfl, connects rfl⟩
      | false => exact .inr (refuses rfl)
  · rw [getRedisNode, clusterNode] at ran
    obtain ⟨_, first, checked, rest⟩ := bind_eq_ok_iff.mp ran
    obtain rfl := check_run checked
    obtain ⟨filled, second, ranFill, restFill⟩ := bind_eq_ok_iff.mp rest
    obtain ⟨early, fills, fails⟩ := refill_run (cluster (Option.some_ne_none _)) ranFill
    cases filled with
    | false =>
      cases restFill
      exact .inr (fails rfl)
    | true =>
      obtain ⟨owner, third, ranFind, restFind⟩ := bind_eq_ok_iff.mp restFill
      obtain ⟨rfl, some⟩ := findMaster_some (fills rfl) ranFind
      rcases owner with _ | node
      · exact absurd rfl some
      · obtain ⟨made, fourth, ranEnsure, restEnsure⟩ := bind_eq_ok_iff.mp restFind
        obtain ⟨later, connects, refuses⟩ := ensureContext_connected ranEnsure
        obtain ⟨redisNode, last, ranRead, returned⟩ := bind_eq_ok_iff.mp restEnsure
        cases returned
        rcases readNode_run (early.trans later) connects (fun off => (refuses off).before early) ranRead with
          there | fresh
        · exact .inl ⟨_, rfl, there⟩
        · exact .inr fresh

theorem Chosen.fresh {readonly : Bool} {key : CppString} {askNode : Option Node} {found : Option NodeRef}
    {source chosen : World} (choice : Chosen env readonly key askNode source found chosen) :
    (∃ redisNode, found = some redisNode ∧ Connected redisNode chosen) ∨ Fresh env source chosen := by
  refine getRedisNode_fresh (fun clustered => ?_) choice
  rw [Cluster]
  by_contra single
  exact clustered (if_neg single)

section

variable {readonly : Bool} {numRetries : ℤ} {key : CppString} {loopCounter : ℕ} {askNode : Option Node}
  {source : World}

/-- An attempt without a connection is treated by what its own connection was refused with. -/
theorem unconnected_fresh {found : Option NodeRef} {chosen target : World} {errinfo : ErrorInfo}
    (choice : Chosen env readonly key askNode source found chosen)
    (off : ∀ redisNode, found = some redisNode → ¬ Connected redisNode chosen)
    (throws : Throws env readonly numRetries key loopCounter askNode source errinfo target) :
    Fresh env source { target with errinfo := errinfo } := by
  have fresh : Fresh env source chosen :=
    choice.fresh.resolve_left fun ⟨redisNode, same, connected⟩ => off redisNode same connected
  rcases found with _ | redisNode
  · rw [Throws, round_none choice] at throws
    cases throws
    exact fresh.mono (List.prefix_append _ _) rfl
  · obtain ⟨result, reply, sent, transmitted⟩ := transmitted_of_throws choice throws
    obtain ⟨node, run⟩ := @round_run env readonly numRetries key loopCounter askNode source chosen sent redisNode result
      reply choice transmitted
    rw [Throws, run] at throws
    have early : chosen.log <+: sent.log := (List.prefix_append _ _).trans
      ((later_frame.transmit env (fun _ _ _ _ => .modifyAt _ _) (fun _ _ _ _ => .note _ trivial) _ _).run
        transmitted).log_earlier
    have late := ((later_frame.conclude env (fun _ _ _ _ => .modifyAt _ _) (fun _ _ => .note _ trivial) _ _ _ _ _ _).run
      throws).log_earlier
    obtain ⟨rfl, -⟩ := conclude_thrown throws
    cases transmitted.left with
    | unconnected _ same => exact fresh.mono (early.trans late) (congrArg ErrorInfo.errtype same)
    | lost connected => exact absurd connected (off redisNode rfl)
    | replied connected => exact absurd connected (off redisNode rfl)
    | success => cases throws

/-- One attempt is treated by its own outcome if and only if no error type is in the way. -/
theorem own_iff_clean :
    Own env readonly numRetries key loopCounter askNode source ↔
      Clean env readonly numRetries key loopCounter askNode source := by
  constructor
  · intro own
    constructor
    · intro redisNode chosen result str sent choice transmitted uncoded
      have classified := (own.classified redisNode chosen result str sent choice transmitted).1
      cases transmitted.left with
      | success clean => exact absurd rfl (clean str)
      | replied _ code =>
        rw [classified, extractErrtype_eq, if_pos uncoded, uncoded] at code
        exact code.symm
    · intro redisNode chosen result sent choice connected transmitted stops
      cases transmitted.left with
      | unconnected off => exact absurd connected off
      | lost _ same failed =>
        obtain ⟨node, run⟩ := @round_run env readonly numRetries key loopCounter askNode source chosen sent redisNode
          result none choice transmitted
        have ends : result = .error ∨ result = .reconnCond ∧ numRetries ≤ loopCounter := by
          rcases failed with error | reconn
          · exact .inl error
          · exact stops.imp_right fun spent => ⟨reconn, spent⟩
        obtain ⟨target, concludes⟩ := @conclude_gives_up env numRetries loopCounter redisNode node result none ends sent
        exact same.symm.trans (own.lost redisNode chosen result sent _ target choice connected transmitted
          (run.trans concludes))
  · intro clean
    have classified : ∀ redisNode chosen result str sent,
      Chosen env readonly key askNode source (some redisNode) chosen →
        Transmitted env askNode redisNode chosen result (some (.error str)) sent →
        sent.errinfo.errtype = ownCode str ∧ result = errtypeResult (ownCode str) := by
      intro redisNode chosen result str sent choice transmitted
      cases transmitted.left with
      | success clean => exact absurd rfl (clean str)
      | replied _ code =>
        have own : extractErrtype str chosen.errinfo.errtype = ownCode str := by
          rw [extractErrtype_eq]
          split
          · next uncoded => rw [clean.uncoded redisNode chosen _ str sent choice transmitted uncoded, uncoded]
          · rfl
        rw [own] at code ⊢
        exact ⟨code, rfl⟩
    refine ⟨classified, ?_, ?_, fun found chosen errinfo target choice off throws =>
      unconnected_fresh choice off throws⟩
    · intro redisNode chosen result str sent errinfo target choice transmitted throws
      obtain ⟨node, run⟩ := @round_run env readonly numRetries key loopCounter askNode source chosen
        sent redisNode result
        (some (.error str)) choice transmitted
      rw [Throws, run] at throws
      obtain ⟨rfl, -⟩ := conclude_thrown throws
      exact (classified redisNode chosen result str sent choice transmitted).1
    · intro redisNode chosen result sent errinfo target choice connected transmitted throws
      obtain ⟨node, run⟩ := @round_run env readonly numRetries key loopCounter askNode source chosen
        sent redisNode result
        none choice transmitted
      rw [Throws, run] at throws
      obtain ⟨rfl, ends⟩ := conclude_thrown throws
      cases transmitted.left with
      | unconnected off => exact absurd connected off
      | lost _ same failed =>
        rw [same]
        refine clean.lost redisNode chosen result sent choice connected transmitted ?_
        rcases failed with rfl | rfl
        · exact .inl rfl
        · have spent := (ends.resolve_left nofun).resolve_left nofun
          simp only [goesOn, Bool.not_eq_false', decide_eq_true_eq] at spent
          exact .inr spent

end

/-- An exception comes from one of the rounds. -/
theorem commandLoop_throws {readonly : Bool} {numRetries : ℤ} {key : CppString} {start : World} {rounds loopCounter : ℕ}
    {askNode : Option Node} {source target : World} {errinfo : ErrorInfo}
    (reached : Reached env readonly numRetries key start loopCounter askNode source)
    (ran : commandLoop env readonly numRetries key rounds loopCounter askNode source =
      (.ok (some (.thrown errinfo)), target)) :
    ∃ loopCounter askNode source target, Reached env readonly numRetries key start loopCounter askNode source ∧
      Throws env readonly numRetries key loopCounter askNode source errinfo target := by
  induction rounds generalizing loopCounter askNode source with
  | zero => cases ran
  | succ rounds ih =>
    obtain ⟨turn, middle, turned, rest⟩ := bind_eq_ok_iff.mp ran
    cases turn with
    | finish outcome =>
      cases rest
      exact ⟨loopCounter, askNode, source, _, reached, turned⟩
    | again next =>
      dsimp only at rest
      split at rest
      · cases rest
      · next below => exact ih (.next reached below turned) rest

/-- The exception of a call that has a key, or needs none, comes from one of its rounds. -/
theorem redisCommand_throws {rounds : ℕ} {readonly : Bool} {numRetries : ℤ} {key : CppString} {start target : World}
    {errinfo : ErrorInfo} (keyed : ¬ (start.client.clusterMode ∧ key = []))
    (ran : redisCommand env rounds readonly numRetries key start = (.ok (some (.thrown errinfo)), target)) :
    ∃ loopCounter askNode source target, Reached env readonly numRetries key start loopCounter askNode source ∧
      Throws env readonly numRetries key loopCounter askNode source errinfo target := by
  rw [redisCommand, bind_of_ok (set_errinfo _ _), bind_of_ok (get_apply _), if_neg keyed] at ran
  exact commandLoop_throws .first ran

/-- For every call and every sequence of outcomes: all attempts are treated by their own outcomes if and only if
no error type of an earlier attempt is left when an attempt gets an error reply without a code, or loses its reply
and gives up. -/
theorem attempts_own_iff (env : Env) (readonly : Bool) (numRetries : ℤ) (key : CppString) (start : World) :
    (∀ loopCounter askNode source, Reached env readonly numRetries key start loopCounter askNode source →
        Own env readonly numRetries key loopCounter askNode source) ↔
      ∀ loopCounter askNode source, Reached env readonly numRetries key start loopCounter askNode source →
        Clean env readonly numRetries key loopCounter askNode source := by
  constructor
  · exact fun own loopCounter askNode source reached => own_iff_clean.mp (own loopCounter askNode source reached)
  · exact fun clean loopCounter askNode source reached => own_iff_clean.mpr (clean loopCounter askNode source reached)

/-- A server that is down, and then replies with an error that has no code. -/
def staleEnv : Env :=
  plainEnv (fun _ => true) fun log _ _ =>
    if log.any fun event => match event with | .request .command _ _ _ => true | _ => false then
      .reply (.error (text "Lock held"))
    else .reply (.error (text "CLUSTERDOWN The cluster is down"))

/-- The second attempt of a call. -/
def secondAttempt : World := (R3c.round staleEnv false 5 [] 0 none { client := lossyClient }).2

def secondChosen : World := (getRedisNode staleEnv none false none secondAttempt).2

def secondSent : Except R3c.Fault (HandleResult × Option RedisReply) × World :=
  transmit staleEnv false (.master (text "s", 1)) (secondChosen.note (.attempt (some (.master (text "s", 1)))))

/-- The first attempt is followed by a second one, which chooses the server and gets the error without a code. -/
def goesStale : Except R3c.Fault Turn → Except R3c.Fault (Option NodeRef) →
    Except R3c.Fault (HandleResult × Option RedisReply) → Bool
  | .ok (.again none), .ok (some redisNode), .ok (_, some (.error str)) =>
      redisNode = .master (text "s", 1) ∧ str = text "Lock held"
  | _, _, _ => false

theorem of_goesStale {turn : Except R3c.Fault Turn} {found : Except R3c.Fault (Option NodeRef)}
    {answered : Except R3c.Fault (HandleResult × Option RedisReply)} (stale : goesStale turn found answered = true) :
    turn = .ok (.again none) ∧ found = .ok (some (.master (text "s", 1))) ∧
      ∃ result, answered = .ok (result, some (.error (text "Lock held"))) := by
  unfold goesStale at stale
  split at stale
  · obtain ⟨rfl, rfl⟩ := of_decide_eq_true stale
    exact ⟨rfl, rfl, _, rfl⟩
  · cases stale

/-- The second attempt is taken for one more that found the server down. -/
theorem attempts_own_stale :
    ¬ ∀ loopCounter askNode source, Reached staleEnv false 5 [] { client := lossyClient } loopCounter askNode source →
      Own staleEnv false 5 [] loopCounter askNode source := by
  intro own
  have stale : goesStale (R3c.round staleEnv false 5 [] 0 none { client := lossyClient }).1
      (getRedisNode staleEnv none false none secondAttempt).1 secondSent.1 = true := by decide +kernel
  obtain ⟨turn, found, result, answered⟩ := of_goesStale stale
  have reached : Reached staleEnv false 5 [] { client := lossyClient } 1 none secondAttempt :=
    .next .first (by decide) (Prod.ext turn rfl)
  have single : ¬ secondAttempt.client.clusterMode = true := by decide +kernel
  have choice : Chosen staleEnv false [] none secondAttempt (some (.master (text "s", 1))) secondChosen := by
    rw [Chosen, if_neg single]
    exact Prod.ext found rfl
  have classified := ((own 1 none secondAttempt reached).classified _ _ result _ secondSent.2 choice
    (Prod.ext answered rfl)).1
  revert classified
  decide +kernel

end CppRedis.Soundness.Errtypes
