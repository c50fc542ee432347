import CppRedis.Soundness.Requests

/-! # Redirections

`Execute` tests for a MOVED error under a return code that no request produces: `CmdRequest` reports every
reply as a success, and an error reply gets its code only in `FetchResult`. So a redirected command is
never sent again.
-/

namespace CppRedis.Soundness.Redirection

open Machine Machine.Program Model.RedisClient Model.RedisCpp Requests

variable {ρ : Type} (net : Network ρ) (address : ℕ → ℕ)

/-- The command exists and has no reply. -/
def Unanswered {σ : Type} (command : ℕ) (world : World σ) : Prop :=
  command < world.commands ∧ (world.command command).pReply = none

/-- A request reports success, or leaves its command without a reply. -/
def Reported {σ : Type} (command : ℕ) (nRet : ReturnCode) (world : World σ) : Prop :=
  command < world.commands ∧ (nRet = .success ∨ (world.command command).pReply = none)

section

variable {σ : Type} {command : ℕ} {C : Set ℕ}

theorem Unanswered.of_kept (other : command ∉ C) {source target : World σ} (kept : Kept C source target)
    (unanswered : Unanswered command source) : Unanswered command target :=
  ⟨lt_of_lt_of_le unanswered.1 kept.commands, by rw [kept.command command unanswered.1 other, unanswered.2]⟩

theorem Unanswered.reported {world : World σ} (unanswered : Unanswered command world) (nRet : ReturnCode) :
    Reported command nRet world := ⟨unanswered.1, .inr unanswered.2⟩

end

section

variable {S : Set ℕ} {command : ℕ}

theorem unanswered_of_footprint {source target : World (Pool ρ)} (footprint : Footprint S ∅ source target)
    (unanswered : Unanswered command source) : Unanswered command target :=
  unanswered.of_kept (Set.notMem_empty command) footprint.toKept

theorem cmdRequest_reported (pContext : Option RedisContext) :
    Ensures (Unanswered command) (CRedisCommand.cmdRequest net command pContext)
      fun result world => Reported command result.1 world := by
  refine .bind _ .get fun world => .ite (fun _ => .pure fun source here => here.2.reported _) fun _ => ?_
  cases pContext with
  | none => exact .pure fun source here => here.2.reported _
  | some context =>
    refine .bind (fun _ => (command < ·.commands)) (.update fun source here => here.2.1) fun _ => ?_
    refine .bind (fun _ => (command < ·.commands)) ?_ fun sent => ?_
    · refine (redisCommandArgv_follows (S := ∅) (C := ∅) net context command).ensures ?_
      exact fun source target footprint bound => lt_of_lt_of_le bound footprint.commands
    · refine .bind (fun _ world => command < world.commands ∧ (world.command command).pReply = sent.1)
        (.update fun source bound => ⟨bound, ?_⟩) fun _ => .pure fun source here => ⟨here.1, ?_⟩
      · simp only [World.setReply, Function.update_self]
      · rw [here.2]
        cases sent.1 with
        | none => exact .inr rfl
        | some reply => exact .inl rfl

theorem connRequest_reported (serv : ℕ) (conn : CRedisConnection) :
    Ensures (Unanswered command) (CRedisConnection.connRequest net serv command conn)
      fun result world => Reported command result.1 world := by
  refine .bind _ ((time_follows (S := ∅) net).ensures fun _ _ => unanswered_of_footprint) fun tmNow => ?_
  refine .bind _ ((refreshIdle_follows (S := {serv}) net (Set.mem_singleton serv) tmNow conn).ensures
    fun _ _ => unanswered_of_footprint) fun ready => ?_
  refine .ite (fun _ => .pure fun _ here => here.reported _) fun _ =>
    .bind _ (cmdRequest_reported net _) fun first => ?_
  refine .ite (fun failed => ?_) fun _ => .pure fun _ here => here
  have unanswered : ∀ world : World (Pool ρ), Reported command first.1 world → Unanswered command world := by
    rintro world ⟨bound, success | none⟩
    · rw [failed] at success
      cases success
    · exact ⟨bound, none⟩
  refine .weaken ?_ unanswered fun _ _ => id
  refine .get_then fun _ => ?_
  refine .ite (fun _ => .pure fun _ here => here.reported _) fun _ => ?_
  refine .bind _ ((reconnect_follows (S := {serv}) net (Set.mem_singleton serv) _).ensures
    fun _ _ => unanswered_of_footprint) fun again => ?_
  exact .ite (fun _ => .pure fun _ here => here.reported _) fun _ =>
    .bind _ (cmdRequest_reported net _) fun _ => .pure fun _ here => here

theorem servRequest_reported (serv : ℕ) :
    Ensures (Unanswered command) (CRedisServer.servRequest net serv command) (Reported command) := by
  refine .bind _ ((awaitConnection_follows (S := {serv}) (Set.mem_singleton serv) _).ensures
    fun _ _ => unanswered_of_footprint) fun fetched => ?_
  cases fetched with
  | none => exact .pure fun _ here => here.reported _
  | some conn =>
    refine .bind _ (connRequest_reported net serv conn) fun result => .bind (fun _ => Reported command result.1) ?_
      fun _ => .pure fun _ here => here
    refine (returnConnection_follows (S := {serv}) (C := ∅) (Set.mem_singleton serv) _).ensures ?_
    intro source target footprint here
    refine ⟨lt_of_lt_of_le here.1 footprint.commands, ?_⟩
    rw [footprint.command command here.1 (Set.notMem_empty command)]
    exact here.2

theorem simpleExecute_reported :
    Ensures (Unanswered command) (simpleExecute (net.servers address) command) (Reported command) := by
  refine .bind _ ((refreshThread_follows (C := ∅) net).ensures
    fun _ _ kept here => here.of_kept (Set.notMem_empty command) kept) fun _ => .bind _ .get fun world => ?_
  refine .ite (fun _ => .pure fun _ here => here.2.reported _) fun _ => ?_
  split
  · exact .pure fun _ here => here.2.reported _
  · exact (servRequest_reported net _).strengthen_pre fun _ here => here.2

end

/-- The world after `ExecuteImpl` has allocated its command, at `world.commands`. -/
def issue {σ : Type} (redisCmd : CRedisCommand) (world : World σ) : World σ :=
  { world with
    command := Function.update world.command world.commands redisCmd, commands := world.commands + 1 }

/-- A MOVED error to the first attempt leads to a refresh and, when that succeeds, to another attempt. -/
def RetriesMoved (world : World (Pool ρ)) (args : List CppString) (nSlot : ℤ) (funcConv : Convert) : Prop :=
  let servers := net.servers address
  let issued := issue { args := args, nSlot := nSlot, funcConv := funcConv } world
  world.client.bCluster = true → world.client.bValid = true →
    ∀ nRet first, simpleExecute servers world.commands issued = .ok (nRet, first) →
      isMovedErr (first.command world.commands).pReply = true →
      ∀ result last, execute servers world.commands issued = .ok (result, last) →
        ∃ later, last.log = first.log ++ later ∧ Event.waitForRefresh ∈ later ∧
          ∀ refreshed, waitForRefresh servers first = .ok (true, refreshed) →
            ∃ taken, Event.append world.commands taken ∈ later

/-- The first attempt of a cluster command on a valid client meets a MOVED error. -/
def FirstMoved (world : World (Pool ρ)) (args : List CppString) (nSlot : ℤ) (funcConv : Convert) : Prop :=
  world.client.bCluster = true ∧ world.client.bValid = true ∧
    ∃ nRet first, simpleExecute (net.servers address) world.commands
        (issue { args := args, nSlot := nSlot, funcConv := funcConv } world) = .ok (nRet, first) ∧
      isMovedErr (first.command world.commands).pReply = true

/-- A reply ends the command, whatever it says. -/
theorem execute_of_reply {world first : World (Pool ρ)} {command : ℕ} {nRet : ReturnCode}
    (unanswered : Unanswered command world) (cluster : world.client.bCluster = true)
    (valid : world.client.bValid = true)
    (ran : simpleExecute (net.servers address) command world = .ok (nRet, first))
    (replied : (first.command command).pReply ≠ none) :
    execute (net.servers address) command world = .ok (.success, first) := by
  obtain rfl : nRet = .success :=
    (simpleExecute_reported net address world unanswered nRet first ran).2.resolve_right replied
  have mode : first.client.bCluster = true :=
    (simpleExecute_follows net address command world _ first ran).bCluster.trans cluster
  rw [execute, bind_of_ok (get_apply world)]
  simp only [valid, Bool.not_true, Bool.false_eq_true, ↓reduceIte]
  rw [bind_of_ok ran, bind_of_ok (get_apply first)]
  simp only [mode, Bool.not_true, Bool.false_eq_true, reduceCtorEq, false_and, or_self, ↓reduceIte, pure_apply]

/-- A command is sent again after a MOVED error exactly when there is no such error. -/
theorem retriesMoved_iff (world : World (Pool ρ)) (args : List CppString) (nSlot : ℤ) (funcConv : Convert) :
    RetriesMoved net address world args nSlot funcConv ↔ ¬ FirstMoved net address world args nSlot funcConv := by
  constructor
  · rintro retries ⟨cluster, valid, nRet, first, ran, moved⟩
    have unanswered : Unanswered world.commands
        (issue { args := args, nSlot := nSlot, funcConv := funcConv } world) :=
      ⟨Nat.lt_succ_self _, by simp only [issue, Function.update_self]⟩
    have replied : (first.command world.commands).pReply ≠ none := by
      intro none
      rw [none] at moved
      cases moved
    have ends := execute_of_reply net address unanswered cluster valid ran replied
    obtain ⟨later, log, refreshed, -⟩ := retries cluster valid nRet first ran moved _ _ ends
    obtain rfl : later = [] := List.self_eq_append_right.mp log
    cases refreshed
  · intro unmoved cluster valid nRet first ran moved
    exact absurd ⟨cluster, valid, nRet, first, ran, moved⟩ unmoved

/-- A cluster client that knows one server, for all slots. -/
def oneServer : World (Pool Unit) where
  client := {
    bCluster := true, vecRedisServ := [0]
    vecSlot := [
      { nStartSlot := 0, nEndSlot := 16383, strHost := text "10.0.0.1", nPort := 7000, pRedisServ := some 0 }] }
  servers := {
    server := fun _ => {
      strHost := text "10.0.0.1", nPort := 7000, nConnNum := 1, queIdleConn := [{}]
      vecHosts := [(text "10.0.0.1", 7000)] }
    servers := 1, redis := () }

/-- No call fails, and every command is redirected. -/
def redirecting : Network Unit where
  clock _ := 0
  connect _ _ := true
  append _ := true
  receive _ := none
  rounds _ := 0
  serve _ _ _ := (.error (text "MOVED 7629 10.0.0.2:7001"), ())

/-- A redirected GET is sent once, and its caller gets the error. -/
theorem redirected_get_not_retried :
    ¬ RetriesMoved redirecting id oneServer [text "get", text "k"] (hashSlot (text "k")) .default := by
  intro retries
  obtain ⟨later, log, refreshed, -⟩ := retries rfl rfl .success _ rfl rfl .success _ rfl
  obtain rfl : later = [] := List.self_eq_append_right.mp log
  cases refreshed

end CppRedis.Soundness.Redirection
