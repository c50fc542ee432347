import CppRedis.Model.R3c.Scripts
import CppRedis.Soundness.Errtypes
import CppRedis.Soundness.Rerouting

/-! # The answer that ends a command

`redis_command` returns a reply that is no error, and throws at an error reply whose code calls for no other attempt.
Nothing is sent after either of them, so a command gets at most one such answer, and it comes last.
-/

namespace CppRedis.Soundness.Answers

open Machine Model Model.R3c Model.RedisCpp Machine.Effect Frames Rounds

variable {env : Env} {source middle target : World}

/-- An event that is no command. -/
def Quiet (event : Event) : Prop := ∀ redisNode node answer, event ≠ .request .command redisNode node answer

theorem quiet_frame : TableFrame (Grows Quiet) := by
  apply Grows.frame
  rintro event side redisNode node answer rfl
  exact side.elim

theorem answersIn_append (before after : List Event) :
    answersIn (before ++ after) = answersIn before ++ answersIn after :=
  List.filterMap_append ..

theorem answersIn_quiet {events : List Event} (quiet : ∀ event ∈ events, Quiet event) : answersIn events = [] := by
  refine List.filterMap_eq_nil_iff.mpr fun event member => ?_
  cases event with
  | request request redisNode node answer =>
    cases request with
    | command => exact absurd rfl (quiet _ member redisNode node answer)
    | _ => rfl
  | _ => rfl

/-- The commands that are sent between two states are answered so. -/
def Answered (answers : List Answer) (source target : World) : Prop :=
  ∃ events, target.log = source.log ++ events ∧ answersIn events = answers

theorem Answered.trans {before after : List Answer} (first : Answered before source middle)
    (second : Answered after middle target) : Answered (before ++ after) source target := by
  obtain ⟨events, log, answers⟩ := first
  obtain ⟨more, logMore, answersMore⟩ := second
  exact ⟨events ++ more, by rw [logMore, log, List.append_assoc], by rw [answersIn_append, answers, answersMore]⟩

theorem answered_quiet (grows : Grows Quiet source target) : Answered [] source target := by
  obtain ⟨events, log, quiet⟩ := grows.log
  exact ⟨events, log, answersIn_quiet quiet⟩

/-- A reply after which nothing is sent again. -/
def Stops (reply : RedisReply) : Prop :=
  (∀ str, reply ≠ .error str) ∨ ∃ str code, reply = .error str ∧ Coded code str ∧ errtypeResult code = .error

/-- How a command ends with such a reply. -/
inductive Ends : RedisReply → Outcome → Prop where
  | returned (reply : RedisReply) : (∀ str, reply ≠ .error str) → Ends reply (.returned (some reply))
  | thrown (str code : CppString) (errinfo : ErrorInfo) : Coded code str → errinfo.errtype = code →
      Ends (.error str) (.thrown errinfo)

/-- Where an answer ends the command, it is the last one. -/
def Final (answers : List Answer) (outcome : Outcome) : Prop :=
  ∀ before reply after, answers = before ++ .reply reply :: after → Stops reply → after = [] ∧ Ends reply outcome

/-- A command that returns does so with the reply of one of these answers, which is no error. -/
def Received (answers : List Answer) (outcome : Outcome) : Prop :=
  ∀ reply, outcome = .returned reply →
    ∃ value, reply = some value ∧ (∀ str, value ≠ .error str) ∧ .reply value ∈ answers

/-- A transmission gets one answer, which it hands on, or none. -/
theorem transmit_answered {asked : Bool} {redisNode : NodeRef} {result : HandleResult} {reply : Option RedisReply}
    (ran : transmit env asked redisNode source = (.ok (result, reply), target)) :
    ∃ answers, Answered answers source target ∧
      (answers = [] ∧ reply = none ∨ ∃ answer, answers = [answer] ∧ answer.reply? = reply) := by
  obtain ⟨entry, first, ranEntry, restEntry⟩ := bind_eq_ok_iff.mp ran
  obtain ⟨rfl, found⟩ := Refreshing.entryAt_run ranEntry
  rcases connection : entry.context with _ | context <;> rw [connection] at restEntry
  · cases restEntry
    exact ⟨[], answered_quiet (quiet_frame.refl.refl _), .inl ⟨rfl, rfl⟩⟩
  · obtain ⟨made, second, ranAsk, restAsk⟩ := bind_eq_ok_iff.mp restEntry
    obtain ⟨⟨answered, after⟩, third, ranSend, restSend⟩ := bind_eq_ok_iff.mp restAsk
    dsimp only at restSend
    rw [bind_of_ok (Errtypes.modifyClient_run _ _)] at restSend
    have asking := answered_quiet ((quiet_frame.askFirst env asked redisNode entry.node context).run ranAsk)
    have closing : ∀ {last : World}, Grows Quiet
        { third with client := CRedisClient.modifyAt ({ · with context := some after }) redisNode third.client } last →
        Answered [] third last := fun grows => answered_quiet ((Grows.modifyAt _ redisNode).trans grows)
    have handled : answered = reply ∧ Answered [] third target := by
      rcases answered with _ | value
      · obtain ⟨_, last, ranError, returned⟩ := bind_eq_ok_iff.mp restSend
        cases returned
        exact ⟨rfl, closing ((quiet_frame.handleRedisCommandError env redisNode after.err).run ranError)⟩
      · obtain ⟨_, last, ranReply, returned⟩ := bind_eq_ok_iff.mp restSend
        cases returned
        exact ⟨rfl, closing ((quiet_frame.handleRedisReply redisNode value).run ranReply)⟩
    obtain ⟨rfl, closed⟩ := handled
    rcases Rerouting.send_run ranSend with ⟨unsent, rfl⟩ | ⟨answers, rfl⟩
    · exact ⟨_, asking.trans closed, .inl ⟨rfl, unsent⟩⟩
    · have sent : Answered [env.answer second.log .command entry.node] second
          (second.note (.request .command (some redisNode) entry.node (env.answer second.log .command entry.node))) :=
        ⟨_, rfl, rfl⟩
      exact ⟨_, (asking.trans sent).trans closed, .inr ⟨_, rfl, answers.symm⟩⟩

/-- A transmission that is answered so ends the round. -/
theorem conclude_ends {askNode : Option Node} {redisNode : NodeRef} {chosen sent : World} {result : HandleResult}
    {value : RedisReply} (numRetries : ℤ) (loopCounter : ℕ) (node : Node) (stops : Stops value)
    (transmitted : Errtypes.Transmitted env askNode redisNode chosen result (some value) sent) :
    ∃ outcome, conclude env numRetries loopCounter redisNode node result (some value) sent =
      (.ok (.finish outcome), sent) ∧ Ends value outcome := by
  cases transmitted.left with
  | success clean => exact ⟨_, rfl, .returned value clean⟩
  | @replied str _ _ errtype =>
    obtain ⟨_, code, same, coded, plain⟩ := stops.resolve_left fun clean => clean str rfl
    cases same
    rw [extractErrtype_coded coded] at errtype ⊢
    rw [plain]
    exact ⟨_, rfl, .thrown str code _ coded errtype⟩

/-- What is returned is the reply of a success. -/
theorem conclude_returned (numRetries : ℤ) (loopCounter : ℕ) (redisNode : NodeRef) (node : Node)
    (result : HandleResult) (reply : Option RedisReply) :
    Yields (conclude env numRetries loopCounter redisNode node result reply) fun turn =>
      ∀ returned, turn = .finish (.returned returned) → result = .success ∧ returned = reply := by
  have thrown : ∀ result : HandleResult, Yields giveUp fun turn =>
      ∀ returned, turn = .finish (.returned returned) → result = .success ∧ returned = reply :=
    fun _ => .bind fun _ => .pure (by rintro _ ⟨⟩)
  cases result with
  | success =>
    refine .pure fun returned same => ?_
    cases same
    exact ⟨rfl, rfl⟩
  | error => exact thrown _
  | redirect =>
    rw [conclude]
    rcases parseMovedString (errorStr reply) with _ | askNode
    · exact thrown _
    · exact .ite (fun _ => .pure (by rintro _ ⟨⟩)) fun _ => thrown _
  | _ => exact .bind fun _ => .ite (fun _ => .bind fun _ => .pure (by rintro _ ⟨⟩)) fun _ => thrown _

section

variable {readonly : Bool} {numRetries : ℤ} {key : CppString} {loopCounter rounds : ℕ} {askNode : Option Node}

/-- A round gets one answer or none, and ends the loop where the answer does. -/
theorem round_answered {turn : Turn}
    (ran : R3c.round env readonly numRetries key loopCounter askNode source = (.ok turn, target)) :
    ∃ answers, Answered answers source target ∧
      (answers = [] ∨ ∃ answer, answers = [answer] ∧
        ∀ value, answer = .reply value → Stops value → ∃ outcome, turn = .finish outcome ∧ Ends value outcome) ∧
      ∀ outcome, turn = .finish outcome → Received answers outcome := by
  rw [R3c.round, bind_of_ok (get_apply source)] at ran
  obtain ⟨found, chosen, ranChoice, ranRest⟩ := bind_eq_ok_iff.mp ran
  rw [bind_of_ok (modify_apply _ _)] at ranRest
  have choosing : Answered [] source (chosen.note (.attempt found)) := by
    refine answered_quiet (((quiet_frame.getRedisNode env _ readonly askNode).run ranChoice).trans (.note chosen ?_))
    rintro _ _ _ ⟨⟩
  rcases found with _ | redisNode
  · have ended : Answered [] (chosen.note (.attempt none)) target :=
      answered_quiet ((quiet_frame.noAnyNode).run ranRest)
    refine ⟨_, choosing.trans ended, .inl rfl, ?_⟩
    cases ranRest
    rintro _ ⟨⟩ _ ⟨⟩
  · obtain ⟨entry, first, ranEntry, rest⟩ := bind_eq_ok_iff.mp ranRest
    obtain ⟨rfl, _⟩ := Refreshing.entryAt_run ranEntry
    obtain ⟨⟨result, received⟩, second, ranTransmit, concluded⟩ := bind_eq_ok_iff.mp rest
    obtain ⟨answers, answered, few⟩ := transmit_answered ranTransmit
    have closing : Answered [] second target := answered_quiet
      ((quiet_frame.conclude env (fun _ _ _ _ => .modifyAt _ _) (fun _ _ => .note _ (by rintro _ _ _ ⟨⟩)) numRetries
        loopCounter redisNode entry.node result received).run concluded)
    have all := (choosing.trans answered).trans closing
    rw [List.nil_append, List.append_nil] at all
    refine ⟨answers, all, few.imp And.left ?_, ?_⟩
    · rintro ⟨answer, rfl, handed⟩
      refine ⟨answer, rfl, ?_⟩
      rintro value rfl stops
      cases handed
      obtain ⟨outcome, ends, how⟩ := conclude_ends numRetries loopCounter entry.node stops ranTransmit
      cases concluded.symm.trans ends
      exact ⟨outcome, rfl, how⟩
    · rintro _ finished reply rfl
      obtain ⟨rfl, rfl⟩ := conclude_returned numRetries loopCounter redisNode entry.node result received _ _ _ concluded
        reply finished
      obtain ⟨value, same, clean⟩ := Retries.transmit_success _ redisNode _ _ _ ranTransmit rfl
      cases same
      rcases few with ⟨_, wrong⟩ | ⟨answer, rfl, handed⟩
      · cases wrong
      · cases answer with
        | reply other =>
          cases handed
          exact ⟨value, rfl, clean, List.mem_singleton_self _⟩
        | lost err => cases handed

theorem commandLoop_final {outcome : Outcome}
    (ran : commandLoop env readonly numRetries key rounds loopCounter askNode source = (.ok (some outcome), target)) :
    ∃ answers, Answered answers source target ∧ Final answers outcome ∧ Received answers outcome := by
  induction rounds generalizing loopCounter askNode source with
  | zero => cases ran
  | succ rounds ih =>
    obtain ⟨turn, middle, ranRound, rest⟩ := bind_eq_ok_iff.mp ran
    obtain ⟨answers, answered, few, received⟩ := round_answered ranRound
    cases turn with
    | finish ended =>
      cases rest
      refine ⟨answers, answered, ?_, received outcome rfl⟩
      rintro before value after split stops
      rcases few with rfl | ⟨answer, rfl, ends⟩
      · cases before <;> cases split
      · obtain ⟨rfl, same, rfl⟩ : before = [] ∧ answer = .reply value ∧ after = [] := by
          cases before with
          | nil =>
            cases split
            exact ⟨rfl, rfl, rfl⟩
          | cons _ before =>
            have none := (List.cons.inj split).2
            cases before <;> cases none
        obtain ⟨_, same, ends⟩ := ends value same stops
        cases same
        exact ⟨rfl, ends⟩
    | again next =>
      dsimp only at rest
      split at rest
      · cases rest
      · obtain ⟨more, answeredMore, final, receivedMore⟩ := ih rest
        refine ⟨answers ++ more, answered.trans answeredMore, ?_, fun reply returned => ?_⟩
        · rcases few with rfl | ⟨answer, rfl, ends⟩
          · exact final
          · rintro before value after split stops
            cases before with
            | nil =>
              obtain ⟨_, wrong, _⟩ := ends value (List.cons.inj split).1 stops
              cases wrong
            | cons _ before => exact final before value after (List.cons.inj split).2 stops
        · obtain ⟨value, same, clean, member⟩ := receivedMore reply returned
          exact ⟨value, same, clean, List.mem_append_right _ member⟩

/-- The answer that ends a command is the last one, and a reply that is returned is among the answers. -/
theorem redisCommand_final {outcome : Outcome}
    (ran : redisCommand env rounds readonly numRetries key source = (.ok (some outcome), target)) :
    ∃ answers, Answered answers source target ∧ Final answers outcome ∧ Received answers outcome := by
  rw [redisCommand, bind_of_ok (Rounds.set_errinfo _ _), bind_of_ok (get_apply _)] at ran
  split at ran
  · cases ran
    refine ⟨[], ⟨[], (List.append_nil _).symm, rfl⟩, ?_, by rintro _ ⟨⟩⟩
    rintro before _ _ split _
    cases before <;> cases split
  · obtain ⟨answers, answered, ends⟩ := commandLoop_final ran
    exact ⟨answers, answered, ends⟩

end

/-- What a command of a session sends, with the answers. -/
theorem sendCommand_final {source target : Session} {rounds : ℕ} {key : CppString} {numRetries : ℤ}
    {args : List CppString} {outcome : Outcome}
    (ran : sendCommand env rounds key numRetries args source = (.ok (some outcome), target)) :
    ∃ answers, target.sent = source.sent ++ answers.map (fun answer => (args, answer)) ∧ Final answers outcome ∧
      Received answers outcome ∧ ∃ world, target = { source with world := world, sent := target.sent } := by
  rcases commanded : redisCommand env rounds false numRetries key source.world with ⟨result, world⟩
  rw [sendCommand, commanded] at ran
  cases ran
  obtain ⟨answers, ⟨events, log, rfl⟩, final, received⟩ := redisCommand_final commanded
  refine ⟨answersIn events, ?_, final, received, world, rfl⟩
  dsimp only
  rw [log, List.drop_left]

end CppRedis.Soundness.Answers
