import CppRedis.Soundness.Frames

/-! # What follows a transmission

The result that a reply stands for, and when a round of the loop of `redis_command` is followed by another one.
-/

namespace CppRedis.Soundness.Rounds

open Machine Model Model.R3c Model.RedisCpp Machine.Effect

/-- Surroundings without chance, in which assertions are checked. -/
def plainEnv (connects : Node → Bool) (answer : List Event → Request → Node → Answer) : Env where
  asserts := true
  address := 0
  errno _ := 0
  random _ := 0
  order _ nodes := nodes
  order_perm _ nodes := .refl nodes
  connect _ node _ := if connects node then none else some { errcode := -1 }
  answer := answer

/-- A server that the client is connected to. -/
def connectedMaster (nodeid : NodeId) (node : Node) : CRedisMasterNode :=
  { nodeid := nodeid, node := node, context := some {} }

/-- A single server, and a connection that is lost by every request. -/
def lossyEnv : Env := plainEnv (fun _ => true) fun _ _ _ => .lost .io

def lossyClient : CRedisClient where
  nodes := [(text "s", 1)]
  rawNodesString := text "s:1"
  nodesString := text "s:1"
  readPolicy := .onlyMaster
  masters := AList.insert (text "s", 1) (connectedMaster [] (text "s", 1)) ∅

/-- A cluster of which `s:1` has given its slots to `m:1`, which answers and is listed by both. -/
def clusterEnv : Env :=
  plainEnv (fun _ => true) fun _ request node => .reply <|
    if request = .clusterNodes then .string (text "id m:1 master - 0 0 1 connected 0-16383\n")
    else if node = (text "m", 1) then .string (text "v")
    else .error (text "MOVED 1 m:1")

/-- A client that knows `s:1` alone, and two seeds. -/
def clusterClient : CRedisClient := { lossyClient with nodes := [(text "s", 1), (text "s", 2)] }

variable {env : Env}

/-- An error text that starts with an upper-case code of at least three letters and a blank. -/
def Coded (code str : CppString) : Prop := 3 ≤ code.length ∧ code.all isUpper ∧ ∃ rest, str = code ++ 0x20 :: rest

/-- The code becomes the error type. -/
theorem extractErrtype_coded {code str : CppString} (coded : Coded code str) (errtype : CppString) :
    extractErrtype str errtype = code := by
  obtain ⟨long, upper, rest, rfl⟩ := coded
  have letters : ∀ byte ∈ code, byte ≠ 0 ∧ byte ≠ 0x20 := by
    intro byte member
    have letter := List.all_eq_true.mp upper byte member
    constructor
    · rintro rfl
      exact absurd letter (by decide)
    · rintro rfl
      exact absurd letter (by decide)
  have visible : cStr (code ++ 0x20 :: rest) = code ++ 0x20 :: rest.takeWhile (· ≠ 0) := by
    rw [cStr, List.takeWhile_append_of_pos fun byte member => decide_eq_true (letters byte member).1]
    rfl
  have first : (cStr (code ++ 0x20 :: rest)).takeWhile (· ≠ 0x20) = code := by
    rw [visible, List.takeWhile_append_of_pos fun byte member => decide_eq_true (letters byte member).2]
    exact (congrArg (code ++ ·) (List.takeWhile_cons_of_neg (by decide))).trans (List.append_nil code)
  have taken : (code.take 3).all isUpper := by
    apply List.all_eq_true.mpr
    exact fun byte member => List.all_eq_true.mp upper byte (List.mem_of_mem_take member)
  rw [extractErrtype, first]
  apply if_pos
  refine ⟨?_, ?_, by omega, taken⟩
  · rw [List.length_append]
    omega
  · rw [visible]
    exact List.mem_append_right _ List.mem_cons_self

theorem set_errinfo (errinfo : ErrorInfo) (source : World) :
    setErrinfo errinfo source = (.ok (), { source with errinfo := errinfo }) := rfl

theorem entryAt_apply {redisNode : NodeRef} {entry : CRedisNode} {source : World}
    (found : source.client.at? redisNode = some entry) : entryAt redisNode source = (.ok entry, source) := by
  rw [entryAt, bind_of_ok (get_apply _), found]
  rfl

theorem check_apply {condition : Bool} (holds : condition = true) (source : World) :
    check env condition source = (.ok (), source) := by
  rw [check, holds, Bool.not_true, Bool.and_false, if_neg Bool.false_ne_true]
  rfl

/-- The choice of a node, once its master has been found in a table that is filled. -/
theorem clusterNode_found {slot : ℕ} (bound : slot < clusterSlots) {readonly : Bool} {askNode : Option Node}
    {node : Node} {source : World} (filled : source.client.masters.keys ≠ [])
    (finds : findMaster env slot askNode source = (.ok (some node), source)) :
    clusterNode env slot readonly askNode source =
      (ensureContext env (.master node) >>= fun connected =>
        readNode env readonly node connected >>= fun redisNode => pure (some redisNode) :
          Action (Option NodeRef)) source := by
  have full : refill env source = (.ok true, source) := by
    rw [refill, bind_of_ok (get_apply _), if_pos filled]
    rfl
  rw [clusterNode, bind_of_ok (check_apply (decide_eq_true bound) source), bind_of_ok full,
    if_pos rfl, bind_of_ok finds]

theorem errtypeResult_ne_success (errtype : CppString) : errtypeResult errtype ≠ .success := by
  rw [errtypeResult]
  split_ifs <;> nofun

/-- The result that a reply stands for. -/
def Handled (reply : RedisReply) (result : HandleResult) : Prop :=
  (∀ str, reply ≠ .error str) ∧ result = .success ∨
    ∃ str errtype, reply = .error str ∧ result = errtypeResult (extractErrtype str errtype)

theorem handleRedisReply_yields (redisNode : NodeRef) (reply : RedisReply) :
    Yields (handleRedisReply redisNode reply) (Handled reply) := by
  apply Yields.bind
  intro _
  cases reply with
  | error str =>
    apply Yields.bind
    intro world
    refine .bind fun _ => .bind fun _ => ?_
    exact .pure (.inr ⟨str, _, rfl, rfl⟩)
  | _ => exact .pure (.inl ⟨nofun, rfl⟩)

theorem Handled.success {reply : RedisReply} (handled : Handled reply .success) : ∀ str, reply ≠ .error str := by
  rcases handled with ⟨clean, _⟩ | ⟨str, errtype, _, wrong⟩
  · exact clean
  · exact absurd wrong.symm (errtypeResult_ne_success _)

theorem handleRedisCommandError_yields (redisNode : NodeRef) (err : Option RedisErr) :
    Yields (handleRedisCommandError env redisNode err) fun result => result = .error ∨ result = .reconnCond := by
  apply Yields.bind
  intro world
  refine .bind fun _ => .ite (fun _ => .pure (.inl rfl)) fun _ => ?_
  exact .bind fun _ => .pure (.inr rfl)

/-- A round that is followed by another one. -/
def Follows (numRetries : ℤ) (loopCounter : ℕ) (result : HandleResult) (askNode : Option Node) : Prop :=
  result = .redirect ∧ loopCounter ≤ 2 ∨
    result ≠ .success ∧ result ≠ .error ∧ result ≠ .redirect ∧ goesOn result loopCounter numRetries ∧ askNode = none

theorem Follows.bounded {numRetries : ℤ} {loopCounter : ℕ} {result : HandleResult} {askNode : Option Node}
    (follows : Follows numRetries loopCounter result askNode) : (loopCounter : ℤ) ≤ max numRetries 2 := by
  rcases follows with ⟨_, few⟩ | ⟨_, _, _, goes, _⟩
  · omega
  · cases result <;>
      simp only [goesOn, Bool.not_eq_true', decide_eq_false_iff_not, Bool.and_eq_false_iff] at goes <;> omega

theorem giveUp_yields (fact : Option Node → Prop) :
    Yields giveUp fun turn => ∀ askNode, turn = .again askNode → fact askNode :=
  .bind fun _ => .pure nofun

theorem noAnyNode_yields (fact : Option Node → Prop) :
    Yields noAnyNode fun turn => ∀ askNode, turn = .again askNode → fact askNode :=
  .bind fun _ => .bind fun _ => giveUp_yields fact

theorem retry_again (numRetries : ℤ) (loopCounter : ℕ) (redisNode : NodeRef) (node : Node) (result : HandleResult) :
    Yields (retry env numRetries loopCounter redisNode node result) fun turn =>
      ∀ askNode, turn = .again askNode → goesOn result loopCounter numRetries ∧ askNode = none := by
  refine .bind fun _ => .ite (fun goes => .bind fun _ => .pure ?_) fun _ => giveUp_yields _
  intro askNode same
  cases same
  exact ⟨goes, rfl⟩

theorem conclude_again (numRetries : ℤ) (loopCounter : ℕ) (redisNode : NodeRef) (node : Node) (result : HandleResult)
    (reply : Option RedisReply) :
    Yields (conclude env numRetries loopCounter redisNode node result reply) fun turn =>
      ∀ askNode, turn = .again askNode → Follows numRetries loopCounter result askNode := by
  cases result with
  | success => exact .pure (by rintro _ ⟨⟩)
  | error => exact giveUp_yields _
  | redirect =>
    rw [conclude]
    rcases parseMovedString (errorStr reply) with _ | askNode
    · exact giveUp_yields _
    · exact .ite (fun few => .pure fun _ _ => .inl ⟨rfl, few⟩) fun _ => giveUp_yields _
  | _ =>
    intro source turn target ran askNode same
    obtain ⟨goes, unasked⟩ := retry_again _ _ _ _ _ source turn target ran askNode same
    exact .inr ⟨by rintro ⟨⟩, by rintro ⟨⟩, by rintro ⟨⟩, goes, unasked⟩

end CppRedis.Soundness.Rounds
