import CppRedis.Soundness.Attribution
import CppRedis.Soundness.FaultFree
import CppRedis.Soundness.Transmissions

/-! # Commands that a flush sends again

One pass of `FlushCommand` sends a command at most once. The retry of `FlushPipeline` is a second pass
over all commands of the pipeline, also over those that have their replies.
-/

namespace CppRedis.Soundness.Resending

open Machine Machine.Program Model.RedisClient Model.RedisCpp
open Requests Transmissions Grouping Attribution

/-- Since the first log the command was sent again after its reply had come. -/
def Resent (since log : List Event) (command : ℕ) : Prop :=
  ∃ middle reply, Answered since middle command reply ∧ Sent middle log command

section

variable {since middle log : List Event} {command : ℕ}

theorem sent_iff (grows : since <+: log) : Sent since log command ↔ sends command since < sends command log := by
  obtain ⟨events, rfl⟩ := grows
  rw [sends_append, Nat.lt_add_right_iff_pos, sends, List.countP_pos_iff]
  constructor
  · rintro ⟨_, same, member⟩
    cases List.append_cancel_left same
    exact ⟨_, member, by simp only [isSend, beq_self_eq_true, Bool.and_self]⟩
  · rintro ⟨event, member, sent⟩
    refine ⟨events, rfl, ?_⟩
    cases event with
    | append other taken =>
      simp only [isSend, Bool.and_eq_true, beq_iff_eq] at sent
      obtain ⟨rfl, rfl⟩ := sent
      exact member
    | _ => cases sent

theorem sent_of_answered {reply : RedisReply} (answered : Answered since log command reply) :
    Sent since log command := by
  obtain ⟨front, back, rfl, sent⟩ := answered
  exact ⟨front ++ .reply command reply :: back, by rw [List.append_assoc], List.mem_append_left _ sent⟩

theorem grows_of_sent (sent : Sent since log command) : since <+: log := by
  obtain ⟨events, rfl, -⟩ := sent
  exact List.prefix_append _ _

theorem sends_of_sent (sent : Sent since log command) : sends command since < sends command log :=
  (sent_iff (grows_of_sent sent)).mp sent

theorem sends_mono (grows : since <+: log) : sends command since ≤ sends command log := grows.sublist.countP_le

theorem Resent.twice (resent : Resent since log command) : sends command since + 2 ≤ sends command log := by
  obtain ⟨middle, reply, answered, again⟩ := resent
  have first := sends_of_sent (sent_of_answered answered)
  have second := sends_of_sent again
  omega

/-- A command that is sent only once after a log has its first reply before it. -/
theorem Resent.answered {first : List Event} (resent : Resent since log command) (grows : first <+: log)
    (order : InOrder first log) (once : sends command log ≤ sends command first + 1) :
    ∃ reply, Answered since first command reply := by
  obtain ⟨middle, reply, ⟨front, back, rfl, sent⟩, again⟩ := resent
  have inMiddle : since ++ front ++ [.reply command reply] <+: since ++ front ++ .reply command reply :: back :=
    ⟨back, by simp only [List.append_assoc, List.cons_append, List.nil_append]⟩
  have inLog := inMiddle.trans (grows_of_sent again)
  have here : since ++ front ++ [.reply command reply] <+: first → ∃ reply, Answered since first command reply := by
    rintro ⟨more, rfl⟩
    exact ⟨reply, front, more, by simp only [List.append_assoc, List.cons_append, List.nil_append], sent⟩
  rcases List.prefix_or_prefix_of_prefix inLog grows with earlier | later
  · exact here earlier
  · rcases List.prefix_concat_iff.mp later with same | before
    · rw [← same] at here
      exact here (List.prefix_refl _)
    · have between := sends_of_sent (order _ command reply before inLog)
      have again := sends_of_sent again
      have mono : sends command (since ++ front) ≤ sends command (since ++ front ++ .reply command reply :: back) :=
        sends_mono ((List.prefix_append _ _).trans inMiddle)
      omega

end

section

variable {ρ : Type} (net : Network ρ) {command : ℕ} {source target : World (Pool ρ)}

/-- hiredis takes a command in its turn among the commands of a request. -/
def Takes (pContext : Option RedisContext) (vecRedisCmd : List ℕ) (command : ℕ) (world : World (Pool ρ)) : Prop :=
  ∃ earlier later context taken, vecRedisCmd = earlier ++ command :: later ∧
    CRedisConnection.appendAll net pContext (earlier ++ [command]) world = .ok ((.success, context), taken)

/-- A server has a connection that is up, or comes up again, and takes the command. -/
def Reaches (serv : ℕ) (vecRedisCmd : List ℕ) (command : ℕ) (world : World (Pool ρ)) : Prop :=
  ∃ conn held tmNow clocked conn' ready,
    CRedisServer.awaitConnection serv CRedisServer.rqstRetryTimes world = .ok (some conn, held) ∧
    time net held = .ok (tmNow, clocked) ∧
    CRedisConnection.refreshIdle net serv tmNow conn clocked = .ok ((true, conn'), ready) ∧
    Takes net conn'.pContext vecRedisCmd command ready

/-- All servers before that of a command answer all that they are asked, and its server takes the command. -/
def PassReaches (command : ℕ) : List (Option ℕ × List ℕ) → World (Pool ρ) → Prop
  | [], _ | (none, _) :: _, _ => False
  | (some serv, vecCmd) :: mapCmd, world =>
      Reaches net serv vecCmd command world ∨
        ∃ answered, CRedisServer.servRequests net serv vecCmd world = .ok (.success, answered) ∧
          PassReaches command mapCmd answered

/-- A command that hiredis takes is in the log, and no other one is. -/
theorem cmdAppend_sent {other : ℕ} {pContext : Option RedisContext} {result : ReturnCode × Option RedisContext}
    (ran : CRedisCommand.cmdAppend net other pContext source = .ok (result, target)) :
    result.1 = .success ∧ target.log = source.log ++ [.append other true] ∨
      result.1 ≠ .success ∧ ∀ c, sends c target.log = sends c source.log := by
  rw [CRedisCommand.cmdAppend.eq_def, bind_of_ok (get_apply source)] at ran
  split_ifs at ran with empty
  · cases ran
    exact .inr ⟨nofun, fun _ => rfl⟩
  · cases pContext with
    | none =>
      cases ran
      exact .inr ⟨nofun, fun _ => rfl⟩
    | some context =>
      dsimp only at ran
      rcases redisAppendCommandArgv_cases net context other source with ⟨_, does⟩ | ⟨_, does⟩ | ⟨_, does⟩
      · rw [bind_of_ok does] at ran
        cases ran
        exact .inr ⟨nofun, fun _ => rfl⟩
      · rw [bind_of_ok does] at ran
        cases ran
        exact .inl ⟨rfl, rfl⟩
      · rw [bind_of_ok does] at ran
        cases ran
        refine .inr ⟨nofun, fun c => ?_⟩
        rw [World.note, sends_append]
        rfl

theorem takes_cons_of_success {other : ℕ} {vecRedisCmd : List ℕ} {pContext context : Option RedisContext}
    (ran : CRedisCommand.cmdAppend net other pContext source = .ok ((.success, context), target)) :
    Takes net pContext (other :: vecRedisCmd) command source ↔
      command = other ∨ Takes net context vecRedisCmd command target := by
  have next : ∀ rest, CRedisConnection.appendAll net pContext (other :: rest) source =
      CRedisConnection.appendAll net context rest target := fun rest => bind_of_ok ran
  constructor
  · rintro ⟨_ | ⟨first, earlier⟩, later, last, taken, same, does⟩
    · exact .inl (List.cons.inj same).1.symm
    · obtain ⟨rfl, rest⟩ := List.cons.inj same
      rw [List.cons_append, next] at does
      exact .inr ⟨earlier, later, last, taken, rest, does⟩
  · rintro (rfl | ⟨earlier, later, last, taken, rfl, does⟩)
    · exact ⟨[], vecRedisCmd, context, target, rfl, next []⟩
    · exact ⟨other :: earlier, later, last, taken, rfl, (next _).trans does⟩

theorem not_takes_cons {other : ℕ} {vecRedisCmd : List ℕ} {pContext context : Option RedisContext} {nRet : ReturnCode}
    (ran : CRedisCommand.cmdAppend net other pContext source = .ok ((nRet, context), target))
    (failed : nRet ≠ .success) :
    ¬ Takes net pContext (other :: vecRedisCmd) command source := by
  have ends : ∀ rest, CRedisConnection.appendAll net pContext (other :: rest) source =
      .ok ((nRet, context), target) := by
    intro rest
    rw [CRedisConnection.appendAll, bind_of_ok ran]
    dsimp only
    rw [if_neg failed]
    rfl
  rintro ⟨_ | ⟨first, earlier⟩, later, last, taken, same, does⟩
  · cases (List.cons.inj same).1
    cases (ends []).symm.trans does
    exact failed rfl
  · cases (List.cons.inj same).1
    cases (ends _).symm.trans does
    exact failed rfl

theorem appendAll_sent_iff {vecRedisCmd : List ℕ} {pContext : Option RedisContext}
    {result : ReturnCode × Option RedisContext}
    (ran : CRedisConnection.appendAll net pContext vecRedisCmd source = .ok (result, target)) :
    sends command source.log < sends command target.log ↔ Takes net pContext vecRedisCmd command source := by
  induction vecRedisCmd generalizing pContext source with
  | nil =>
    cases ran
    refine iff_of_false (lt_irrefl _) ?_
    rintro ⟨earlier, later, _, _, same, -⟩
    cases earlier <;> cases same
  | cons other vecRedisCmd ih =>
    obtain ⟨⟨nRet, context⟩, middle, ranFirst, ranRest⟩ := bind_eq_ok_iff.mp ran
    rcases cmdAppend_sent net ranFirst with ⟨success, log⟩ | ⟨failed, same⟩
    · obtain rfl : nRet = .success := success
      have grows : sends command middle.log ≤ sends command target.log :=
        (appendAll_follows (S := ∅) (C := ∅) net _ _ _ _ _ ranRest).log.sublist.countP_le
      rw [takes_cons_of_success net ranFirst, ← ih ranRest]
      rw [log, sends_append] at grows ⊢
      by_cases own : command = other
      · subst other
        rw [show sends command [.append command true] = 1 by simp [sends, isSend]] at grows ⊢
        omega
      · rw [show sends command [.append other true] = 0 by simp [sends, isSend, Ne.symm own]] at grows ⊢
        simp only [Nat.add_zero, own, false_or]
    · dsimp only at ranRest failed
      rw [if_neg failed] at ranRest
      cases ranRest
      exact iff_of_false (same command).not_gt (not_takes_cons net ranFirst failed)

theorem servRequests_sent_iff {serv : ℕ} {vecRedisCmd : List ℕ} {nRet : ReturnCode}
    (bound : command < source.commands)
    (ran : CRedisServer.servRequests net serv vecRedisCmd source = .ok (nRet, target)) :
    sends command source.log < sends command target.log ↔ Reaches net serv vecRedisCmd command source := by
  have none : ∀ {α : Type} {program : Action (Pool ρ) α} {first last : World (Pool ρ)} {value : α},
      Obeys (Transmissions.Sends ∅) program → program first = .ok (value, last) → command < first.commands →
      command < last.commands ∧ sends command last.log = sends command first.log := by
    intro α program first last value obeys ran bound
    have kept := obeys.follows _ _ _ ran
    exact ⟨lt_of_lt_of_le bound kept.commands, kept.sends command bound (Set.notMem_empty _)⟩
  obtain ⟨fetched, held, ranFetch, ran⟩ := bind_eq_ok_iff.mp ran
  obtain ⟨bound, sameFetch⟩ := none (awaitConnection_sends serv _) ranFetch bound
  cases fetched with
  | none =>
    cases ran
    refine iff_of_false (by rw [sameFetch]; exact lt_irrefl _) ?_
    rintro ⟨conn, _, _, _, _, _, found, -⟩
    cases ranFetch.symm.trans found
  | some conn =>
    obtain ⟨⟨nRet, last⟩, requested, ranRequest, ran⟩ := bind_eq_ok_iff.mp ran
    have sameReturn : sends command target.log = sends command requested.log := by
      cases ran
      rfl
    obtain ⟨tmNow, clocked, ranTime, ran⟩ := bind_eq_ok_iff.mp ranRequest
    obtain ⟨bound, sameTime⟩ := none (time_sends net) ranTime bound
    obtain ⟨⟨up, conn'⟩, ready, ranReady, ran⟩ := bind_eq_ok_iff.mp ran
    obtain ⟨bound, sameReady⟩ := none (refreshIdle_sends net serv tmNow conn) ranReady bound
    have determined : Reaches net serv vecRedisCmd command source ↔
        up = true ∧ Takes net conn'.pContext vecRedisCmd command ready := by
      constructor
      · rintro ⟨_, _, _, _, _, _, fetch, clock, idle, takes⟩
        cases ranFetch.symm.trans fetch
        cases ranTime.symm.trans clock
        cases ranReady.symm.trans idle
        exact ⟨rfl, takes⟩
      · rintro ⟨rfl, takes⟩
        exact ⟨conn, held, tmNow, clocked, conn', ready, ranFetch, ranTime, ranReady, takes⟩
    rw [determined, sameReturn, ← sameFetch, ← sameTime, ← sameReady]
    cases up with
    | false =>
      cases ran
      exact iff_of_false (lt_irrefl _) nofun
    | true =>
      obtain ⟨⟨nRet, pContext⟩, appended, ranAppend, ran⟩ := bind_eq_ok_iff.mp ran
      have later : sends command requested.log = sends command appended.log := by
        have bound := lt_of_lt_of_le bound (appendAll_follows (S := ∅) (C := ∅) net _ _ _ _ _ ranAppend).commands
        dsimp only at ran
        split at ran
        · exact (none (.bind (replyAll_sends net vecRedisCmd _) fun _ => .pure _) ran bound).2
        · cases ran
          rfl
      rw [later, appendAll_sent_iff net ranAppend]
      exact (and_iff_right rfl).symm

variable (address : ℕ → ℕ)

/-- A pass sends a command exactly when it gets to it. -/
theorem requestAll_sent_iff {mapCmd : List (Option ℕ × List ℕ)} {nRet : ReturnCode} (bound : command < source.commands)
    (ran : requestAll (net.servers address) mapCmd source = .ok (nRet, target)) :
    sends command source.log < sends command target.log ↔ PassReaches net command mapCmd source := by
  induction mapCmd generalizing source with
  | nil =>
    cases ran
    exact iff_of_false (lt_irrefl _) id
  | cons entry mapCmd ih =>
    obtain ⟨_ | serv, vecCmd⟩ := entry
    · cases ran
    · obtain ⟨code, answered, ranFirst, ranRest⟩ := bind_eq_ok_iff.mp ran
      have kept := servRequests_follows (C := {c | c ∈ vecCmd}) net (Set.mem_univ serv) (fun _ => id) _ _ _ ranFirst
      have first := servRequests_sent_iff net bound ranFirst
      have grows : sends command source.log ≤ sends command answered.log := kept.log.sublist.countP_le
      rw [PassReaches, ← first]
      by_cases success : code = .success
      · subst code
        rw [if_pos rfl] at ranRest
        have rest := ih (lt_of_lt_of_le bound kept.commands) ranRest
        have more : sends command answered.log ≤ sends command target.log :=
          (requestAll_follows net address _ _ _ _ ranRest).log.sublist.countP_le
        have determined : (∃ other, CRedisServer.servRequests net serv vecCmd source = .ok (.success, other) ∧
            PassReaches net command mapCmd other) ↔ PassReaches net command mapCmd answered := by
          constructor
          · rintro ⟨other, does, reaches⟩
            cases ranFirst.symm.trans does
            exact reaches
          · exact fun reaches => ⟨answered, ranFirst, reaches⟩
        rw [determined, ← rest]
        omega
      · rw [if_neg success] at ranRest
        cases ranRest
        refine (or_iff_left ?_).symm
        rintro ⟨other, does, -⟩
        cases ranFirst.symm.trans does
        exact success rfl

/-- The retry of a flush gets to a command that has its reply. -/
def RetryReaches (vecCmd : List ℕ) (command : ℕ) (source : World (Pool ρ)) : Prop :=
  ∃ first refreshed reply,
    flushCommand (net.servers address) vecCmd source = .ok (.rqstErr, first) ∧ first.client.bCluster = true ∧
    Answered source.log first.log command reply ∧
    waitForRefresh (net.servers address) first = .ok (true, refreshed) ∧
    PassReaches net command (groupCmds (net.servers address) refreshed vecCmd) refreshed

/-- The first pass fails before the retry, which takes a network that refuses a connection, a command or a reply. -/
theorem not_retryReaches (faultless : FaultFree.Faultless net) {slots : Set ℕ} {route place : ℕ → CppString × ℤ}
    (steady : FaultFree.Steady slots route source) {vecCmd : List ℕ}
    (commands : ∀ command ∈ vecCmd, ∃ slot ∈ slots, (source.command command).nSlot = (slot : ℕ) ∧
      place command = route slot ∧ (source.command command).args ≠ []) (command : ℕ) :
    ¬ RetryReaches net address vecCmd command source := by
  rintro ⟨first, _, _, failed, -⟩
  obtain ⟨target, ran, -⟩ := FaultFree.flushCommand_ok faultless address steady commands
  cases ran.symm.trans failed

theorem flushCommand_once {vecCmd : List ℕ} (nodup : vecCmd.Nodup) (bound : command < source.commands)
    {nRet : ReturnCode} (ran : flushCommand (net.servers address) vecCmd source = .ok (nRet, target)) :
    sends command target.log ≤ sends command source.log + 1 := by
  have counted := (requestAll_count net address command _ _ _ _ ran bound).2
  rw [(groupCmds_perm _ _ _).count_eq] at counted
  exact counted.trans (Nat.add_le_add_left (List.nodup_iff_count_le_one.mp nodup command) _)

/-- A flush sends a command again after its reply exactly when its retry gets to it. -/
theorem flushPipeline_resent_iff {pPipeline : CRedisPipeline} {nRet : ReturnCode} (attributed : Attributed source)
    (worded : Worded pPipeline.vecCmd source) (nodup : pPipeline.vecCmd.Nodup) (member : command ∈ pPipeline.vecCmd)
    (ran : flushPipeline (net.servers address) (some pPipeline) source = .ok (nRet, target)) :
    Resent source.log target.log command ↔ RetryReaches net address pPipeline.vecCmd command source := by
  have bound := (worded command member).1
  obtain ⟨code, first, ranFirst, ran⟩ := bind_eq_ok_iff.mp ran
  have once := flushCommand_once net address nodup bound ranFirst
  have kept := requestAll_follows net address _ _ _ _ ranFirst
  have unsent : sends command target.log ≤ sends command source.log + 1 → ¬ Resent source.log target.log command := by
    intro few resent
    have twice := resent.twice
    omega
  split_ifs at ran with failed
  · cases ran
    refine iff_of_false (unsent once) ?_
    rintro ⟨_, _, _, does, -⟩
    cases ranFirst.symm.trans does
    exact failed rfl
  rw [bind_of_ok (get_apply first)] at ran
  split_ifs at ran with single
  · cases ran
    refine iff_of_false (unsent once) ?_
    rintro ⟨_, _, _, does, cluster, -⟩
    cases ranFirst.symm.trans does
    rw [cluster] at single
    cases single
  obtain ⟨refreshed, second, ranWait, ran⟩ := bind_eq_ok_iff.mp ran
  have still := lt_of_lt_of_le bound kept.commands
  have waited := waitForRefresh_sends (C := ∅) net address _ _ _ ranWait
  have quiet := waited.sends command still (Set.notMem_empty _)
  cases refreshed with
  | false =>
    cases ran
    refine iff_of_false (unsent (by rw [quiet]; exact once)) ?_
    rintro ⟨_, _, _, does, _, _, refreshes, -⟩
    cases ranFirst.symm.trans does
    cases ranWait.symm.trans refreshes
  | true =>
    have here := lt_of_lt_of_le still waited.commands
    have again := flushCommand_once net address nodup here ran
    have reaches := requestAll_sent_iff net address here ran
    obtain ⟨going, -⟩ := flushCommand_replied net address source.log _ source ⟨attributed.going, worded⟩ _ _ ranFirst
    have going := waitForRefresh_going net address _ going.toAttributed.going _ _ ranWait
    have words := (worded.of_kept kept).of_kept (waitForRefresh_follows (C := ∅) net address _ _ _ ranWait)
    obtain ⟨going, -⟩ := flushCommand_replied net address first.log _ second ⟨going, words⟩ _ _ ran
    constructor
    · intro resent
      obtain ⟨reply, answered⟩ := resent.answered going.goes going.order (by rw [← quiet]; exact again)
      have twice := resent.twice
      refine ⟨first, second, reply, ?_, ?_, answered, ranWait, reaches.mp (by omega)⟩
      · rw [ranFirst, not_not.mp failed]
      · simpa only [Bool.not_eq_eq_eq_not, Bool.not_true, Bool.not_eq_false] using single
    · rintro ⟨_, _, reply, does, _, answered, refreshes, gets⟩
      cases ranFirst.symm.trans does
      cases ranWait.symm.trans refreshes
      refine ⟨first.log, reply, answered, (sent_iff going.goes).mpr ?_⟩
      rw [← quiet]
      exact reaches.mpr gets

/-- After every run of the threads, a flush sends no command of the pipeline again after its reply, exactly
when its retry gets to no command that has its reply. -/
theorem flush_notResent_iff (callers : Callers ρ) (fresh : Fresh callers) (events : List CallerEvent)
    (pPipeline : CRedisPipeline) (nRet : ReturnCode) (flushed : World (Pool ρ)) :
    let source := run (Callers.step net) callers events
    (∀ command ∈ pPipeline.vecCmd, command ∈ source.queued) → pPipeline.vecCmd.Nodup →
    flushPipeline (net.servers address) (some pPipeline) source.world = .ok (nRet, flushed) →
      ((∀ command ∈ pPipeline.vecCmd, ¬ Resent source.world.log flushed.log command) ↔
        ∀ command ∈ pPipeline.vecCmd, ¬ RetryReaches net address pPipeline.vecCmd command source.world) := by
  intro source queued nodup ran
  have settled := run_settled net fresh events
  have worded : Worded pPipeline.vecCmd source.world := fun command member =>
    settled.queued command (queued command member)
  refine forall₂_congr fun command member => not_congr ?_
  exact flushPipeline_resent_iff net address settled.toAttributed worded nodup member ran

end

/-- A flush over a link that works sends nothing twice. -/
theorem flush_notResent_counting :
    let queue := CallerEvent.queueCommand (text "incr") (.str (text "n")) 3432 .default
    let source := run (Callers.step counting) connected [queue, queue]
    ∃ flushed, flushPipeline (counting.servers id) (some { vecCmd := [0, 1] }) source.world = .ok (.success, flushed) ∧
      ∀ command ∈ [0, 1], ¬ Resent source.world.log flushed.log command := by
  intro queue source
  have ran : ∃ first, flushCommand (counting.servers id) [0, 1] source.world = .ok (.success, first) := ⟨_, rfl⟩
  refine ⟨_, rfl, (flush_notResent_iff counting id connected connected_fresh [queue, queue] { vecCmd := [0, 1] } _ _
    (by decide) (by decide) rfl).mpr ?_⟩
  rintro command member ⟨_, _, _, does, -⟩
  obtain ⟨first, ran⟩ := ran
  cases ran.symm.trans does

/-- Two servers that count, each with half of the slots. The second one breaks the first connection to it. -/
def breaking : Network (ℤ × ℤ) where
  clock _ := 0
  connect _ _ := true
  append _ := true
  receive log := if log.length = 9 then some 0 else none
  rounds _ := 0
  serve counts address _ :=
    if address.2 = 7000 then (.integer (counts.1 + 1), (counts.1 + 1, counts.2))
    else (.integer (counts.2 + 1), (counts.1, counts.2 + 1))

/-- A client of the two servers, with a connection to each. -/
def halves : Callers (ℤ × ℤ) where
  world := {
    client := {
      bCluster := true, vecRedisServ := [0, 1]
      vecSlot := [
        { nStartSlot := 0, nEndSlot := 8191, strHost := text "redis", nPort := 7000, pRedisServ := some 0 },
        { nStartSlot := 8192, nEndSlot := 16383, strHost := text "redis", nPort := 7001, pRedisServ := some 1 }] }
    servers := {
      server := fun serv => {
        strHost := text "redis", nPort := 7000 + serv, queIdleConn := [{}], vecHosts := [(text "redis", 7000 + serv)] }
      servers := 2
      redis := (0, 0) } }

/-- The threads queue an `INCR` for each server. -/
def queueIncr (key : String) : CallerEvent :=
  .queueCommand (text "incr") (.str (text key)) (hashSlot (text key)) .default

/-- The event is the reply to the command. -/
def isReply (command : ℕ) : Event → Bool
  | .reply other _ => other == command
  | _ => false

theorem resent_of_position {command : ℕ} {log : List Event} (k : ℕ) (replied : log[k]?.any (isReply command) = true)
    (before : 0 < sends command (log.take k)) (after : 0 < sends command (log.drop (k + 1))) :
    Resent [] log command := by
  cases here : log[k]? with
  | none =>
    rw [here] at replied
    cases replied
  | some event =>
    rw [here] at replied
    cases event with
    | reply other reply =>
      obtain rfl : other = command := beq_iff_eq.mp replied
      obtain ⟨bound, isReply⟩ := List.getElem?_eq_some_iff.mp here
      have split : log = log.take k ++ .reply other reply :: log.drop (k + 1) := by
        rw [← isReply, List.getElem_cons_drop, List.take_append_drop]
      have sent : ∀ events, 0 < sends other events → .append other true ∈ events := fun events some => by
        obtain ⟨_, rfl, member⟩ := (sent_iff List.nil_prefix).mpr some
        exact member
      refine ⟨log.take k ++ [.reply other reply], reply, ⟨log.take k, [], rfl, sent _ before⟩,
        log.drop (k + 1), ?_, sent _ after⟩
      rw [List.append_assoc, List.singleton_append, ← split]
    | _ => cases replied

/-- The first server has answered when the connection to the second one breaks; the retry, which succeeds,
increments its counter once more. -/
theorem flush_increments_twice :
    let source := run (Callers.step breaking) halves [queueIncr "n", queueIncr "a"]
    ∃ flushed, flushPipeline (breaking.servers id) (some { vecCmd := [0, 1] }) source.world = .ok (.success, flushed) ∧
      Resent source.world.log flushed.log 0 ∧ flushed.servers.redis = (2, 1) := by
  intro source
  have checked : (match flushPipeline (breaking.servers id) (some { vecCmd := [0, 1] }) source.world with
      | .ok (nRet, flushed) => decide (nRet = .success ∧ flushed.servers.redis = (2, 1) ∧
          flushed.log[4]?.any (isReply 0) = true ∧ 0 < sends 0 (flushed.log.take 4) ∧ 0 < sends 0 (flushed.log.drop 5))
      | .error _ => false) = true := by decide +kernel
  cases ran : flushPipeline (breaking.servers id) (some { vecCmd := [0, 1] }) source.world with
  | error fault =>
    rw [ran] at checked
    cases checked
  | ok result =>
    rw [ran] at checked
    obtain ⟨success, redis, replied, before, after⟩ := of_decide_eq_true checked
    refine ⟨result.2, ?_, ?_, redis⟩
    · rw [← success]
    · have none : source.world.log = [] := rfl
      rw [none]
      exact resent_of_position 4 replied before after

end CppRedis.Soundness.Resending
