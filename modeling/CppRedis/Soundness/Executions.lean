import CppRedis.Soundness.Rounds

/-! # How often a command may be executed

A node that answers with `MOVED`, `ASK` or `CLUSTERDOWN` has not executed the command. Any other transmission may
have been executed, and the loop of `redis_command` makes at most one more of them than it has retries.
-/

namespace CppRedis.Soundness.Executions

open Machine Model Model.R3c Model.RedisCpp Machine.Effect Frames Rounds

/-- The error codes of a node that has not executed a command. -/
def refusals : List CppString := [text "MOVED", text "ASK", text "CLUSTERDOWN"]

/-- An answer with one of these codes. -/
def Answer.refused : Answer → Bool
  | .reply (.error str) => refusals.any fun code => (code ++ [0x20]).isPrefixOf str
  | _ => false

/-- A transmission of the command that may have been executed. -/
def mayExecute : Event → Bool
  | .request .command _ _ answer => !Answer.refused answer
  | _ => false

def executions (log : List Event) : ℕ := log.countP mayExecute

/-- Every error reply to a command starts with a code. -/
def CodedReplies (env : Env) : Prop :=
  ∀ log node str, env.answer log .command node = .reply (.error str) → ∃ code, Coded code str

/-- A reply whose code calls for another attempt is a refusal. -/
theorem refused_of_result {code str : CppString} (coded : Coded code str) (result : errtypeResult code ≠ .error) :
    Answer.refused (.reply (.error str)) = true := by
  obtain ⟨long, upper, rest, rfl⟩ := coded
  have member : code ∈ refusals := by
    rw [errtypeResult] at result
    split_ifs at result with down ask moved
    · exact down ▸ by decide
    · exact ask ▸ by decide
    · exact moved ▸ by decide
    · exact absurd rfl result
  apply List.any_eq_true.mpr
  refine ⟨code, member, List.isPrefixOf_iff_prefix.mpr ⟨rest, ?_⟩⟩
  rw [List.append_assoc]
  rfl

variable {env : Env} {count : ℕ}

/-- So many executions are in the log. -/
def Spent (count : ℕ) (world : World) : Prop := executions world.log = count

/-- What a transmission with this result has spent, where the loop has to go on with any other one. -/
def Charged (count : ℕ) (result : HandleResult) (world : World) : Prop :=
  executions world.log = count ∨
    executions world.log = count + 1 ∧ (result = .success ∨ result = .error ∨ result = .reconnCond)

/-- At most one more. -/
def AtMostOne {α : Type} (count : ℕ) (_ : α) (world : World) : Prop := executions world.log ≤ count + 1

theorem Spent.grows {source target : World} (spent : Spent count source)
    (grows : Grows (mayExecute · = false) source target) : Spent count target := by
  obtain ⟨events, log, none⟩ := grows.log
  have fresh : events.countP mayExecute = 0 := List.countP_eq_zero.mpr fun event member => by
    rw [none event member]
    exact Bool.false_ne_true
  rw [Spent, executions, log, List.countP_append, fresh]
  exact spent

theorem Charged.grows {result : HandleResult} {source target : World} (charged : Charged count result source)
    (grows : Grows (mayExecute · = false) source target) : Charged count result target := by
  rcases charged with spent | ⟨spent, final⟩
  · exact .inl (Spent.grows spent grows)
  · exact .inr ⟨Spent.grows spent grows, final⟩

theorem frame : TableFrame (Grows (mayExecute · = false)) := by
  apply Grows.frame
  intro event side
  cases event with
  | request request redisNode node answer => cases request <;> first | rfl | exact side.elim
  | _ => rfl

/-- A reply that calls for another attempt has spent nothing. -/
def Sent (count : ℕ) (reply : Option RedisReply) (world : World) : Prop :=
  (Spent count world ∨ Spent (count + 1) world) ∧
    ∀ str, reply = some (.error str) → ∃ code, Coded code str ∧ (errtypeResult code ≠ .error → Spent count world)

theorem Sent.grows {reply : Option RedisReply} {source target : World} (sent : Sent count reply source)
    (grows : Grows (mayExecute · = false) source target) : Sent count reply target := by
  refine ⟨sent.1.imp (Spent.grows · grows) (Spent.grows · grows), ?_⟩
  intro str same
  obtain ⟨code, coded, refused⟩ := sent.2 str same
  exact ⟨code, coded, fun result => Spent.grows (refused result) grows⟩

theorem Spent.note {source : World} (spent : Spent count source) (event : Event) :
    Spent (count + if mayExecute event then 1 else 0) (source.note event) := by
  rw [Spent, executions, World.note, List.countP_append, List.countP_singleton]
  exact congrArg (· + _) spent

theorem send_command (coded : CodedReplies env) (redisNode : Option NodeRef) (node : Node) (context : RedisContext) :
    Triple (Spent count) (send env .command redisNode node context) (fun sent => Sent count sent.1)
      (fun _ _ => False) := by
  apply Triple.ite
  · intro _
    exact .pure fun source spent => ⟨.inl spent, nofun⟩
  · intro _
    apply Triple.get_bind
    intro source spent
    apply Triple.bind (fun _ world => world = source.note
      (.request .command redisNode node (env.answer source.log .command node)))
    · exact .update fun _ same => congrArg _ same
    · intro _
      apply Triple.pure
      rintro _ rfl
      have once := spent.note (.request .command redisNode node (env.answer source.log .command node))
      rw [mayExecute] at once
      constructor
      · cases refused : Answer.refused (env.answer source.log .command node) with
        | true => exact .inl (by simpa [refused] using once)
        | false => exact .inr (by simpa [refused] using once)
      · intro str same
        rcases answered : env.answer source.log .command node with reply | err
        · rw [answered] at same
          cases same
          obtain ⟨code, coding⟩ := coded _ _ _ answered
          refine ⟨code, coding, fun result => ?_⟩
          simpa [answered, refused_of_result coding result] using once
        · rw [answered] at same
          cases same

theorem Spent.atMostOne {α : Type} {value : α} {world : World} (spent : Spent count world) :
    AtMostOne count value world := by
  rw [Spent] at spent
  rw [AtMostOne]
  omega

theorem Charged.atMostOne {α : Type} {value : α} {result : HandleResult} {world : World}
    (charged : Charged count result world) : AtMostOne count value world := by
  rw [AtMostOne]
  rcases charged with spent | ⟨spent, _⟩ <;> omega

/-- A function that executes nothing. -/
theorem spent_triple {α : Type} {program : Action α} (keeps : Keeps (Grows (mayExecute · = false)) program) :
    Triple (Spent count) program (fun _ => Spent count) (AtMostOne count) :=
  keeps.triple (fun _ _ => Spent.grows) fun _ _ => Spent.atMostOne

theorem Sent.atMostOne {α : Type} {value : α} {reply : Option RedisReply} {world : World}
    (sent : Sent count reply world) : AtMostOne count value world := by
  rcases sent.1 with spent | spent <;> rw [Spent] at spent <;> rw [AtMostOne] <;> omega

theorem sent_triple {α : Type} {program : Action α} (keeps : Keeps (Grows (mayExecute · = false)) program)
    (reply : Option RedisReply) : Triple (Sent count reply) program (fun _ => Sent count reply) (AtMostOne count) :=
  keeps.triple (fun _ _ => Sent.grows) fun _ _ => Sent.atMostOne

/-- What a reply has spent is charged to its result. -/
theorem Sent.charged {reply : RedisReply} {result : HandleResult} {world : World} (sent : Sent count (some reply) world)
    (handled : Handled reply result) : Charged count result world := by
  rcases sent.1 with spent | spent
  · exact .inl spent
  · rcases handled with ⟨_, rfl⟩ | ⟨str, errtype, rfl, rfl⟩
    · exact .inr ⟨spent, .inl rfl⟩
    · obtain ⟨code, coded, refused⟩ := sent.2 str rfl
      rw [extractErrtype_coded coded]
      by_cases failed : errtypeResult code = .error
      · exact .inr ⟨spent, .inr (.inl failed)⟩
      · exact .inl (refused failed)

theorem transmit_charged (coded : CodedReplies env) (asked : Bool) (redisNode : NodeRef) :
    Triple (Spent count) (transmit env asked redisNode) (fun result => Charged count result.1) (AtMostOne count) := by
  apply Triple.bind _ (spent_triple (frame.entryAt redisNode))
  intro entry
  rcases entry.context with _ | context
  · exact .pure fun _ => .inl
  · apply Triple.bind _ (spent_triple (frame.askFirst env asked redisNode entry.node context))
    intro context
    apply Triple.bind _ ((send_command coded (some redisNode) entry.node context).weaken (fun _ => id)
      (fun _ _ => id) fun _ _ => False.elim)
    rintro ⟨reply, context⟩
    have stored : Keeps (Grows (mayExecute · = false)) (modifyClient
        (CRedisClient.modifyAt ({ · with context := some context }) redisNode)) := fun world => .modifyAt ..
    apply Triple.bind _ (sent_triple stored reply)
    intro _
    rcases reply with _ | reply
    · apply Triple.bind _ ((sent_triple (frame.handleRedisCommandError env redisNode _) none).yielding
        (handleRedisCommandError_yields redisNode _))
      intro result
      apply Triple.pure
      rintro world ⟨sent, failed⟩
      exact sent.1.imp id fun spent => ⟨spent, .inr failed⟩
    · apply Triple.bind _ ((sent_triple (frame.handleRedisReply redisNode reply) (some reply)).yielding
        (handleRedisReply_yields redisNode reply))
      intro result
      exact .pure fun world handled => handled.1.charged handled.2

/-- What a round has spent: one more for certain only if the loop ends. -/
def Closed (count : ℕ) (numRetries : ℤ) (loopCounter : ℕ) (turn : Turn) (world : World) : Prop :=
  executions world.log ≤ count + 1 ∧
    ∀ askNode, turn = .again askNode → numRetries ≤ loopCounter → executions world.log ≤ count

theorem charged_triple {α : Type} {program : Action α} (keeps : Keeps (Grows (mayExecute · = false)) program)
    (result : HandleResult) :
    Triple (Charged count result) program (fun _ => Charged count result) (AtMostOne count) :=
  keeps.triple (fun _ _ => Charged.grows) fun _ _ => Charged.atMostOne

theorem attempt_closed (coded : CodedReplies env) (numRetries : ℤ) (loopCounter : ℕ) (askNode : Option Node)
    (redisNode : NodeRef) :
    Triple (Spent count) (attempt env numRetries loopCounter askNode redisNode)
      (Closed count numRetries loopCounter) (AtMostOne count) := by
  apply Triple.bind _ (spent_triple (frame.entryAt redisNode))
  intro entry
  apply Triple.bind _ (transmit_charged coded askNode.isSome redisNode)
  rintro ⟨result, reply⟩
  have concluded : Keeps (Grows (mayExecute · = false))
      (conclude env numRetries loopCounter redisNode entry.node result reply) :=
    frame.conclude env (fun _ _ _ _ => .modifyAt _ _) (fun _ _ => .note _ rfl) _ _ _ _ _ _
  apply ((charged_triple concluded result).yielding (conclude_again _ _ _ _ _ _)).weaken_post
  rintro turn world ⟨charged, again⟩
  refine ⟨@Charged.atMostOne _ _ () _ _ charged, fun askNode same out => ?_⟩
  rcases charged with spent | ⟨_, rfl | rfl | rfl⟩
  · exact Nat.le_of_eq spent
  · rcases again askNode same with ⟨wrong, _⟩ | ⟨wrong, _⟩
    · cases wrong
    · exact absurd rfl wrong
  · rcases again askNode same with ⟨wrong, _⟩ | ⟨_, wrong, _⟩
    · cases wrong
    · exact absurd rfl wrong
  · rcases again askNode same with ⟨wrong, _⟩ | ⟨_, _, _, goes, _⟩
    · cases wrong
    · simp [goesOn, out] at goes

theorem round_closed (coded : CodedReplies env) (readonly : Bool) (numRetries : ℤ) (key : CppString) (loopCounter : ℕ)
    (askNode : Option Node) :
    Triple (Spent count) (round env readonly numRetries key loopCounter askNode)
      (Closed count numRetries loopCounter) (AtMostOne count) := by
  apply Triple.get_bind
  intro source spent
  apply Triple.bind (fun _ => Spent count)
  · apply (spent_triple (frame.getRedisNode env _ readonly askNode)).strengthen_pre
    rintro _ rfl
    exact spent
  · intro redisNode
    apply Triple.bind (fun _ => Spent count)
    · exact .update fun world spent => spent.note (.attempt redisNode)
    · intro _
      rcases redisNode with _ | redisNode
      · apply ((spent_triple frame.noAnyNode).yielding (noAnyNode_yields fun _ => False)).weaken_post
        rintro turn world ⟨spent, again⟩
        exact ⟨@Spent.atMostOne _ _ () _ spent, fun askNode same _ => (again askNode same).elim⟩
      · exact attempt_closed coded numRetries loopCounter askNode redisNode

/-- Every round before the last one has spent a retry. -/
theorem commandLoop_executions (coded : CodedReplies env) (readonly : Bool) (numRetries : ℤ) (key : CppString)
    (rounds loopCounter : ℕ) (askNode : Option Node) (source : World) :
    executions (commandLoop env readonly numRetries key rounds loopCounter askNode source).2.log ≤
      executions source.log + (numRetries - loopCounter).toNat + 1 := by
  induction rounds generalizing loopCounter askNode source with
  | zero => exact Nat.le_trans (Nat.le_add_right _ _) (Nat.le_add_right _ _)
  | succ rounds ih =>
    have closed := round_closed coded readonly numRetries key loopCounter askNode source rfl
    rw [commandLoop, bind_apply]
    rcases ran : round env readonly numRetries key loopCounter askNode source with
      ⟨fault | outcome | askNode, target⟩ <;>
      rw [ran] at closed
    · have bound : executions target.log ≤ executions source.log + 1 := closed
      dsimp only
      omega
    · have bound := closed.1
      change executions target.log ≤ _
      omega
    · obtain ⟨bound, out⟩ := closed
      have last := out askNode rfl
      dsimp only
      split
      · change executions target.log ≤ _
        omega
      · have rest := ih (loopCounter + 1) askNode target
        push_cast at rest
        omega

/-- Whatever comes of the attempts, also if the call does not come to its end. -/
theorem executions_le (coded : CodedReplies env) (readonly : Bool) (numRetries : ℤ) (natural : 0 ≤ numRetries)
    (key : CppString) (rounds : ℕ) (source : World) :
    (executions (redisCommand env rounds readonly numRetries key source).2.log : ℤ) ≤
      executions source.log + (numRetries + 1) := by
  rw [redisCommand, bind_of_ok (set_errinfo {} source), bind_of_ok (get_apply _)]
  split
  · change (executions source.log : ℤ) ≤ _
    omega
  · have bound := commandLoop_executions coded readonly numRetries key rounds 0 none { source with errinfo := {} }
    dsimp only at bound
    omega

theorem clusterEnv_coded : CodedReplies clusterEnv := by
  intro log node str answered
  have replied : (if node = (text "m", 1) then RedisReply.string (text "v") else .error (text "MOVED 1 m:1")) =
      .error str := Answer.reply.inj answered
  split_ifs at replied
  cases replied
  exact ⟨text "MOVED", by decide, by decide, text "1 m:1", by decide⟩

/-- The first attempt is refused, and the second one is executed. -/
theorem executions_le_moved :
    (executions (redisCommand clusterEnv 3 false 1 (text "k") { client := clusterClient }).2.log : ℤ) ≤ 0 + (1 + 1) ∧
      executions (redisCommand clusterEnv 3 false 1 (text "k") { client := clusterClient }).2.log = 1 ∧
      (redisCommand clusterEnv 3 false 1 (text "k") { client := clusterClient }).2.log.countP
        (fun event => event matches .request .command ..) = 2 :=
  ⟨executions_le clusterEnv_coded false 1 (by decide) (text "k") 3 { client := clusterClient }, by decide +kernel,
    by decide +kernel⟩

end CppRedis.Soundness.Executions
