import CppRedis.Soundness.Answers
import Mathlib.Algebra.Order.BigOperators.Group.List
import Mathlib.Algebra.Order.Group.Nat
import Mathlib.Algebra.GroupWithZero.Nat

/-! # An increment under a marker

However often its script is sent, an increment with a unique id is made at most once, and it has been made if a call
returns true. Every command that a call sends runs this script, and the script leaves a marker that stops the next
run of it.
-/

namespace CppRedis.Soundness.Markers

open Machine Model Model.R3c Model.RedisCpp Machine.Effect Frames Rounds Refreshing Retries Rerouting Answers

/-- The marker is not the key that is incremented. -/
theorem markerKey_ne (key uid : CppString) : markerKey key uid ≠ key := by
  intro same
  have length := congrArg List.length same
  rw [markerKey, List.length_cons, List.length_append, List.length_cons] at length
  omega

/-- A command that runs the script for this key and this id, on a server that caches a script under its SHA-1. -/
inductive Scripted (sha1 : CppString → CppString) (key uid : CppString) : List CppString → Prop where
  | eval (field : CppString) (increment : Int64) (expiredSeconds : UInt32) :
      Scripted sha1 key uid (evalArgs hincrbyScript key (hincrbyParameters field increment uid expiredSeconds))
  | evalsha (field : CppString) (increment : Int64) (expiredSeconds : UInt32) :
      Scripted sha1 key uid
        (evalshaArgs (sha1 hincrbyScript) key (hincrbyParameters field increment uid expiredSeconds))

/-- The keys that there are. -/
abbrev Keys := CppString → Bool

/-- What a command does to the keys: its reply, and how often it increments. Nothing is known of a command that does
not run the script. -/
inductive Does (sha1 : CppString → CppString) (key uid : CppString) (args : List CppString) :
    Keys → RedisReply → ℕ → Keys → Prop where
  /-- The script is not cached, or its `SET` raises an error. -/
  | refused (keys : Keys) (str : CppString) :
      Scripted sha1 key uid args → Does sha1 key uid args keys (.error str) 0 keys
  | found (keys : Keys) :
      Scripted sha1 key uid args → keys (markerKey key uid) = true → Does sha1 key uid args keys .nil 0 keys
  /-- `HINCRBY` raises an error, and the marker stays. -/
  | failed (keys : Keys) (str : CppString) :
      Scripted sha1 key uid args → keys (markerKey key uid) = false →
      Does sha1 key uid args keys (.error str) 0 (Function.update keys (markerKey key uid) true)
  | applied (keys : Keys) (value : ℤ) :
      Scripted sha1 key uid args → keys (markerKey key uid) = false →
      Does sha1 key uid args keys (.integer value) 1
        (Function.update (Function.update keys (markerKey key uid) true) key true)
  | unknown (keys after : Keys) (reply : RedisReply) (count : ℕ) :
      ¬ Scripted sha1 key uid args → Does sha1 key uid args keys reply count after

/-- A call of `hincrby` for a key and an id, of some client, that has returned, thrown, or not yet ended. -/
structure Call (strsha1 : CppString → CppString) (key uid : CppString) where
  env : Env
  source : Session
  used : Used strsha1 source
  rounds : ℕ
  numRetries : ℤ
  field : CppString
  increment : Int64
  expiredSeconds : UInt32

namespace Call

variable {strsha1 : CppString → CppString} {key uid : CppString} (call : Call strsha1 key uid)

def run : Except R3c.Fault (Option Incremented) × Session :=
  hincrby call.env strsha1 call.rounds key call.numRetries call.field call.increment uid call.expiredSeconds call.source

/-- The commands that the call has sent, with their answers. -/
def sent : List (List CppString × Answer) := call.run.2.sent.drop call.source.sent.length

def ReturnsTrue : Prop := ∃ result, call.run.1 = .ok (some result) ∧ result.isTrue = true

end Call

/-- A command that the server has executed. -/
structure Execution (ι : Type) where
  call : ι
  attempt : ℕ
  reply : RedisReply
  count : ℕ

section

variable {strsha1 : CppString → CppString} {key uid : CppString} {ι : Type}

/-- What a server has executed of the commands of some calls, in the order of the executions. A command may be executed
at any time or not at all, and everything else leaves the marker. -/
inductive History (sha1 : CppString → CppString) (calls : ι → Call strsha1 key uid) :
    Keys → List (Execution ι) → Keys → Prop where
  | start (keys : Keys) : History sha1 calls keys [] keys
  | executed (source middle target : Keys) (executions : List (Execution ι)) (execution : Execution ι)
      (args : List CppString) (answer : Answer) :
      History sha1 calls source executions middle →
      (calls execution.call).sent[execution.attempt]? = some (args, answer) →
      Does sha1 key uid args middle execution.reply execution.count target →
      History sha1 calls source (executions ++ [execution]) target
  | otherwise (source middle target : Keys) (executions : List (Execution ι)) :
      History sha1 calls source executions middle →
      target (markerKey key uid) = middle (markerKey key uid) → History sha1 calls source executions target

/-- An answer that arrives is an error of a server that has not executed the command, or the reply to it. -/
def Answered (calls : ι → Call strsha1 key uid) (executions : List (Execution ι)) : Prop :=
  ∀ call attempt args reply, (calls call).sent[attempt]? = some (args, .reply reply) →
    (∃ str, reply = .error str) ∨
      ∃ execution ∈ executions, execution.call = call ∧ execution.attempt = attempt ∧ execution.reply = reply

/-- How often the increment has been made. -/
def increments (executions : List (Execution ι)) : ℕ := (executions.map (·.count)).sum

end

/-- The SHA-1 of a session is that of the script, if there is one. -/
def Known (strsha1 : CppString → CppString) (session : Session) : Prop :=
  session.hincrbyShastr1 = [] ∨ session.hincrbyShastr1 = strsha1 hincrbyScript

/-- More commands have been sent, all of a kind, if the SHA-1 was known, and it still is. -/
def Sends (strsha1 : CppString → CppString) (kind : List CppString → Prop) (source target : Session) : Prop :=
  Known strsha1 source → Known strsha1 target ∧
    ∃ more, target.sent = source.sent ++ more ∧ ∀ command ∈ more, kind command.1

section

variable {env : Env} {strsha1 : CppString → CppString} {kind : List CppString → Prop}

instance : Std.Refl (Sends strsha1 kind) := ⟨fun _ known => ⟨known, [], (List.append_nil _).symm, nofun⟩⟩

instance : IsTrans Session (Sends strsha1 kind) where
  trans _ _ _ first second known := by
    obtain ⟨knownMiddle, before, sentBefore, kindBefore⟩ := first known
    obtain ⟨knownTarget, after, sentAfter, kindAfter⟩ := second knownMiddle
    refine ⟨knownTarget, before ++ after, by rw [sentAfter, sentBefore, List.append_assoc], fun command member => ?_⟩
    exact (List.mem_append.mp member).elim (kindBefore command) (kindAfter command)

/-- A SHA-1 that is stored. -/
theorem store_sends {change : Session → Session} (sent : ∀ session, (change session).sent = session.sent)
    (known : ∀ session, Known strsha1 (change session)) :
    Keeps (Sends strsha1 kind) (modify change : SessionAction Unit) :=
  fun session _ => ⟨known session, [], (sent session).trans (List.append_nil _).symm, nofun⟩

theorem sendCommand_sends (rounds : ℕ) (key : CppString) (numRetries : ℤ) {args : List CppString} (holds : kind args) :
    Keeps (Sends strsha1 kind) (sendCommand env rounds key numRetries args) := by
  refine fun session known => ⟨known, _, rfl, fun command member => ?_⟩
  obtain ⟨answer, _, rfl⟩ := List.mem_map.mp member
  exact holds

variable {sha1 : CppString → CppString} {key uid : CppString}

theorem hincrbySend_sends (caches : strsha1 hincrbyScript = sha1 hincrbyScript) (rounds : ℕ) (numRetries : ℤ)
    (field : CppString) (increment : Int64) (expiredSeconds : UInt32) :
    Keeps (Sends strsha1 (Scripted sha1 key uid))
      (hincrbySend env strsha1 rounds key numRetries (hincrbyParameters field increment uid expiredSeconds)) := by
  apply Keeps.get_bind
  intro session known
  split
  · next filled =>
    rw [known.resolve_left filled, caches]
    exact sendCommand_sends rounds key numRetries (.evalsha field increment expiredSeconds) session known
  · have evaluated := @sendCommand_sends env strsha1 _ rounds key numRetries _
      (@Scripted.eval sha1 key uid field increment expiredSeconds)
    refine evaluated.bind ?_ session known
    rintro (_ | reply | errinfo)
    · exact .pure _
    · exact .bind (store_sends (fun _ => rfl) fun _ => .inr rfl) fun _ => .pure _
    · exact .pure _

theorem hincrbyReturn_sends (reply : Option RedisReply) : Keeps (Sends strsha1 kind) (hincrbyReturn reply) := by
  rcases reply with _ | reply
  · exact .throw _
  · exact .pure _

theorem hincrby_sends (caches : strsha1 hincrbyScript = sha1 hincrbyScript) (rounds : ℕ) (numRetries : ℤ)
    (field : CppString) (increment : Int64) (expiredSeconds : UInt32) :
    Keeps (Sends strsha1 (Scripted sha1 key uid))
      (hincrby env strsha1 rounds key numRetries field increment uid expiredSeconds) := by
  have once := @hincrbySend_sends env strsha1 sha1 key uid caches rounds numRetries field increment expiredSeconds
  apply Keeps.bind once
  rintro (_ | reply | errinfo)
  · exact .pure _
  · exact .bind (hincrbyReturn_sends reply) fun _ => .pure _
  · refine .ite (.pure _) (.bind (store_sends (fun _ => rfl) fun _ => .inl rfl) fun _ => .bind once ?_)
    rintro (_ | reply | errinfo)
    · exact .pure _
    · exact .bind (hincrbyReturn_sends reply) fun _ => .pure _
    · exact .pure _

/-- A session knows the SHA-1 of the script, or none. -/
theorem used_known {session : Session} (used : Used strsha1 session) : Known strsha1 session := by
  induction used with
  | constructed world => exact .inl rfl
  | otherwise session world _ ih => exact ih
  | called env rounds key numRetries field increment uid expiredSeconds session _ ih =>
    exact (@hincrby_sends env strsha1 strsha1 key uid rfl rounds numRetries field increment expiredSeconds session ih).1

/-- A call sends nothing but the script. -/
theorem Call.scripted (call : Call strsha1 key uid) (caches : strsha1 hincrbyScript = sha1 hincrbyScript)
    {args : List CppString} {answer : Answer} (sent : (args, answer) ∈ call.sent) : Scripted sha1 key uid args := by
  obtain ⟨_, more, grown, scripted⟩ := hincrby_sends caches call.rounds call.numRetries call.field call.increment
    call.expiredSeconds call.source (used_known call.used)
  rw [Call.sent, Call.run, grown, List.drop_left] at sent
  exact scripted _ sent

end

/-- The commands that have been sent from one session to the next. -/
def between (source target : Session) : List (List CppString × Answer) := target.sent.drop source.sent.length

section

variable {env : Env} {strsha1 : CppString → CppString} {rounds : ℕ} {key : CppString} {numRetries : ℤ}
  {source middle target : Session}

theorem between_subset (earlier : source.sent.length ≤ middle.sent.length) :
    between middle target ⊆ between source target := (List.drop_sublist_drop_left _ earlier).subset

theorem sendCommand_returned {args : List CppString} {reply : Option RedisReply}
    (ran : sendCommand env rounds key numRetries args source = (.ok (some (.returned reply)), target)) :
    ∃ value, reply = some value ∧ (∀ str, value ≠ .error str) ∧ (args, .reply value) ∈ between source target := by
  obtain ⟨answers, sent, _, received, _⟩ := sendCommand_final ran
  obtain ⟨value, same, clean, member⟩ := received reply rfl
  refine ⟨value, same, clean, ?_⟩
  rw [between, sent, List.drop_left]
  exact List.mem_map_of_mem member

theorem hincrbySend_returned {parameters : List CppString} {reply : Option RedisReply}
    (ran : hincrbySend env strsha1 rounds key numRetries parameters source = (.ok (some (.returned reply)), target)) :
    ∃ value, reply = some value ∧ (∀ str, value ≠ .error str) ∧
      ∃ args, (args, .reply value) ∈ between source target := by
  rw [hincrbySend, bind_of_ok (get_apply source)] at ran
  split at ran
  · obtain ⟨value, same, clean, member⟩ := sendCommand_returned ran
    exact ⟨value, same, clean, _, member⟩
  · obtain ⟨outcome, middle, evaluated, rest⟩ := bind_eq_ok_iff.mp ran
    rcases outcome with _ | reply | errinfo
    · cases rest
    · cases rest
      obtain ⟨value, same, clean, member⟩ := sendCommand_returned evaluated
      exact ⟨value, same, clean, _, member⟩
    · cases rest

/-- A call that returns true has got a reply that is neither an error nor that of a script that has found the marker. -/
theorem hincrby_isTrue {field : CppString} {increment : Int64} {uid : CppString} {expiredSeconds : UInt32}
    (known : Known strsha1 source) {result : Incremented} (succeeded : result.isTrue = true)
    (ran : hincrby env strsha1 rounds key numRetries field increment uid expiredSeconds source =
      (.ok (some result), target)) :
    ∃ value, (∀ str, value ≠ .error str) ∧ value ≠ .nil ∧ ∃ args, (args, .reply value) ∈ between source target := by
  have returns : ∀ {before after : Session} {reply : Option RedisReply},
      (do return some (← hincrbyReturn reply) : SessionAction (Option Incremented)) before =
        (.ok (some result), after) →
      before.sent = after.sent ∧ reply ≠ some .nil := by
    intro before after reply returned
    rcases reply with _ | reply
    · cases returned
    · cases returned
      refine ⟨rfl, ?_⟩
      rintro ⟨⟩
      cases succeeded
  obtain ⟨outcome, middle, sending, rest⟩ := bind_eq_ok_iff.mp ran
  rcases outcome with _ | reply | errinfo
  · cases rest
  · obtain ⟨sent, filled⟩ := returns rest
    obtain ⟨value, rfl, clean, args, member⟩ := hincrbySend_returned sending
    refine ⟨value, clean, fun wrong => filled (congrArg some wrong), args, ?_⟩
    rwa [between, ← sent]
  · dsimp only at rest
    split at rest
    · cases rest
      cases succeeded
    · obtain ⟨_, more, grown, _⟩ :=
        (@hincrbySend_sends env strsha1 strsha1 key uid rfl rounds numRetries field increment
        expiredSeconds).run sending known
      have earlier : source.sent.length ≤ middle.sent.length := by
        rw [grown, List.length_append]
        omega
      rw [bind_of_ok (modify_apply _ _)] at rest
      obtain ⟨outcome, last, again, rest⟩ := bind_eq_ok_iff.mp rest
      rcases outcome with _ | reply | errinfo
      · cases rest
      · obtain ⟨sent, filled⟩ := returns rest
        obtain ⟨value, rfl, clean, args, member⟩ := hincrbySend_returned again
        refine ⟨value, clean, fun wrong => filled (congrArg some wrong), args, between_subset earlier ?_⟩
        rwa [between, ← sent]
      · cases rest
        cases succeeded

end

section

variable {strsha1 sha1 : CppString → CppString} {key uid : CppString} {ι : Type} {calls : ι → Call strsha1 key uid}
  {keys after : Keys} {executions : List (Execution ι)}

theorem increments_append (execution : Execution ι) :
    increments (executions ++ [execution]) = increments executions + execution.count := by
  rw [increments, List.map_append, List.sum_append]
  rfl

/-- An execution with a reply that is neither an error nor that of a found marker has incremented. -/
theorem history_counts (caches : strsha1 hincrbyScript = sha1 hincrbyScript)
    (history : History sha1 calls keys executions after) :
    ∀ execution ∈ executions, (∀ str, execution.reply ≠ .error str) → execution.reply ≠ .nil → execution.count = 1 := by
  induction history with
  | start => exact nofun
  | otherwise middle target executions _ _ ih => exact ih
  | executed middle target executions last args answer _ sent does ih =>
    intro execution member clean filled
    rcases List.mem_append.mp member with member | member
    · exact ih execution member clean filled
    · obtain rfl := List.mem_singleton.mp member
      have scripted := (calls execution.call).scripted caches (List.mem_of_getElem? sent)
      generalize execution.reply = reply at *
      generalize execution.count = count at *
      cases does with
      | refused str _ => exact absurd rfl (clean str)
      | found _ _ => exact absurd rfl filled
      | failed str _ _ => exact absurd rfl (clean str)
      | applied value _ _ => rfl
      | unknown _ _ _ other => exact absurd scripted other

/-- The marker is there as soon as the increment has been made, which it is once. -/
theorem history_marked (caches : strsha1 hincrbyScript = sha1 hincrbyScript)
    (history : History sha1 calls keys executions after) :
    increments executions = 0 ∨ increments executions = 1 ∧ after (markerKey key uid) = true := by
  induction history with
  | start => exact .inl rfl
  | otherwise middle target executions _ same ih => exact ih.imp_right fun marked => ⟨marked.1, same ▸ marked.2⟩
  | executed middle target executions last args answer _ sent does ih =>
    have scripted := (calls last.call).scripted caches (List.mem_of_getElem? sent)
    rw [increments_append]
    generalize last.reply = reply at *
    generalize last.count = count at *
    cases does with
    | refused _ _ => exact ih
    | found _ _ => exact ih
    | failed _ _ absent =>
      refine .inl (ih.resolve_right fun marked => ?_)
      rw [absent] at marked
      exact Bool.false_ne_true marked.2
    | applied value _ absent =>
      refine .inr ⟨?_, ?_⟩
      · rw [ih.resolve_right fun marked => Bool.false_ne_true (absent.symm.trans marked.2)]
      · rw [Function.update_of_ne (markerKey_ne key uid), Function.update_self]
    | unknown _ _ _ other => exact absurd scripted other

/-- However often the calls send the script, and whatever is lost, the increment is made at most once, and it has been
made if a call returns true. -/
theorem increments_once (caches : strsha1 hincrbyScript = sha1 hincrbyScript)
    (history : History sha1 calls keys executions after) (answered : Answered calls executions) :
    increments executions ≤ 1 ∧ ∀ call, (calls call).ReturnsTrue → increments executions = 1 := by
  have marked := history_marked caches history
  refine ⟨by omega, fun call => ?_⟩
  rintro ⟨result, returned, succeeded⟩
  rcases ran : (calls call).run with ⟨outcome, target⟩
  rw [ran] at returned
  subst returned
  obtain ⟨value, clean, filled, args, member⟩ := hincrby_isTrue (used_known (calls call).used) succeeded ran
  have sent : (args, .reply value) ∈ (calls call).sent := by
    rwa [Call.sent, ran]
  obtain ⟨attempt, _, found⟩ := List.mem_iff_getElem.mp sent
  rcases answered call attempt args value (List.getElem?_eq_some_iff.mpr ⟨_, found⟩) with
    ⟨str, wrong⟩ | ⟨execution, executed, _, _, rfl⟩
  · exact absurd wrong (clean str)
  · have counted := history_counts caches history execution executed clean filled
    have some_counted : execution.count ≤ increments executions :=
      List.single_le_sum (fun _ _ => Nat.zero_le _) _ (List.mem_map_of_mem executed)
    omega

end

/-- A server that answers with five. -/
def countingEnv : Env := plainEnv (fun _ => true) fun _ _ _ => .reply (.integer 5)

/-- A call on a single server. -/
def countingCall : Call id (text "k") (text "u") where
  env := countingEnv
  source := { world := { client := lossyClient } }
  used := .constructed _
  rounds := 1
  numRetries := 3
  field := text "f"
  increment := 1
  expiredSeconds := 60

/-- A call that has sent one command, and returns its reply. -/
def countsFive : Except R3c.Fault (Option Incremented) × Session → Bool
  | (.ok (some (.returned (some 5))), { sent := [(args, .reply (.integer 5))], .. }) =>
      args = evalArgs hincrbyScript (text "k") (hincrbyParameters (text "f") 1 (text "u") 60)
  | _ => false

theorem of_countsFive {run : Except R3c.Fault (Option Incremented) × Session} (counts : countsFive run = true) :
    run.1 = .ok (some (.returned (some 5))) ∧ run.2.sent =
      [(evalArgs hincrbyScript (text "k") (hincrbyParameters (text "f") 1 (text "u") 60), .reply (.integer 5))] := by
  unfold countsFive at counts
  split at counts
  · exact ⟨rfl, congrArg (fun args => [(args, Answer.reply (.integer 5))]) (of_decide_eq_true counts)⟩
  · cases counts

/-- A call on a single server, which gives the same answer each time. -/
def answeredOnce (answer : Answer) : Call id (text "k") (text "u") :=
  { countingCall with env := plainEnv (fun _ => true) fun _ _ _ => answer, numRetries := 0 }

/-- The first call loses its reply, and the second one is told that the marker is there. -/
def twoCalls (second : Bool) : Call id (text "k") (text "u") := answeredOnce (if second then .reply .nil else .lost .io)

/-- One command, the script, whose reply is lost or says that the marker is there. -/
def sendsScript (second : Bool) : List (List CppString × Answer) → Bool
  | [(args, .lost .io)] =>
      !second && args = evalArgs hincrbyScript (text "k") (hincrbyParameters (text "f") 1 (text "u") 60)
  | [(args, .reply .nil)] =>
      second && args = evalArgs hincrbyScript (text "k") (hincrbyParameters (text "f") 1 (text "u") 60)
  | _ => false

theorem of_sendsScript {second : Bool} {sent : List (List CppString × Answer)}
    (sends : sendsScript second sent = true) :
    sent = [(evalArgs hincrbyScript (text "k") (hincrbyParameters (text "f") 1 (text "u") 60),
      if second then .reply .nil else .lost .io)] := by
  unfold sendsScript at sends
  split at sends
  · obtain ⟨first, same⟩ := Bool.and_eq_true_iff.mp sends
    obtain rfl : second = false := by simpa using first
    rw [of_decide_eq_true same]
    rfl
  · obtain ⟨rfl, same⟩ := Bool.and_eq_true_iff.mp sends
    rw [of_decide_eq_true same]
    rfl
  · cases sends

theorem twoCalls_sent (second : Bool) : (twoCalls second).sent =
    [(evalArgs hincrbyScript (text "k") (hincrbyParameters (text "f") 1 (text "u") 60),
      if second then .reply .nil else .lost .io)] := by
  apply of_sendsScript
  cases second <;> decide +kernel

/-- What the server executes of them. -/
def twoExecutions : List (Execution Bool) := [⟨false, 0, .integer 5, 1⟩, ⟨true, 0, .nil, 0⟩]

theorem twoCalls_history : ∃ after, History id twoCalls (fun _ => false) twoExecutions after := by
  have first : History id twoCalls (fun _ => false) ([] ++ [(⟨false, 0, .integer 5, 1⟩ : Execution Bool)]) _ :=
    .executed _ _ _ _ _ _ (.lost .io) (.start _) (congrArg (·[0]?) (twoCalls_sent false))
      (.applied _ 5 (.eval _ _ _) rfl)
  have marked : Function.update (Function.update (fun _ => false)
    (markerKey (text "k") (text "u")) true) (text "k") true
      (markerKey (text "k") (text "u")) = true := by
    rw [Function.update_of_ne (markerKey_ne _ _), Function.update_self]
  exact ⟨_, .executed _ _ _ _ ⟨true, 0, .nil, 0⟩ _ (.reply .nil) first (congrArg (·[0]?) (twoCalls_sent true))
    (.found _ (.eval _ _ _) marked)⟩

theorem increments_once_counting :
    ((increments [(⟨(), 0, .integer 5, 1⟩ : Execution Unit)] ≤ 1 ∧
        ∀ _ : Unit, countingCall.ReturnsTrue → increments [(⟨(), 0, .integer 5, 1⟩ : Execution Unit)] = 1) ∧
      countingCall.ReturnsTrue) ∧
    increments twoExecutions ≤ 1 ∧ ∀ second, (twoCalls second).ReturnsTrue → increments twoExecutions = 1 := by
  refine ⟨?_, ?_⟩
  · have counts : countsFive countingCall.run = true := by decide +kernel
    obtain ⟨returned, sent⟩ := of_countsFive counts
    have sent : countingCall.sent = [(_, Answer.reply (.integer 5))] :=
      (congrArg (List.drop 0) sent).trans List.drop_zero
    have history : History id (fun _ => countingCall) (fun _ => false)
        ([] ++ [(⟨(), 0, .integer 5, 1⟩ : Execution Unit)]) _ :=
      .executed _ _ _ _ _ _ (.reply (.integer 5)) (.start _) (congrArg (·[0]?) sent) (.applied _ 5 (.eval _ _ _) rfl)
    refine ⟨increments_once rfl history fun call attempt args reply found => ?_, _, returned, rfl⟩
    obtain ⟨early, same⟩ := List.getElem?_eq_some_iff.mp (sent ▸ found)
    obtain rfl : attempt = 0 := Nat.lt_one_iff.mp early
    cases same
    exact .inr ⟨_, List.mem_cons_self, rfl, rfl, rfl⟩
  · obtain ⟨after, history⟩ := twoCalls_history
    refine increments_once rfl history fun second attempt args reply found => ?_
    rw [twoCalls_sent] at found
    obtain ⟨early, same⟩ := List.getElem?_eq_some_iff.mp found
    obtain rfl : attempt = 0 := Nat.lt_one_iff.mp early
    cases second
    · cases same
    · cases same
      exact .inr ⟨_, List.mem_cons_of_mem _ List.mem_cons_self, rfl, rfl, rfl⟩

end CppRedis.Soundness.Markers
