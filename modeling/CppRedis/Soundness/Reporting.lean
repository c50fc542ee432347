import CppRedis.Soundness.Requests
import CppRedis.Soundness.Grouping

/-! # What the codes of requests report

A request reports success only when each of its commands has a reply; all its other codes are negative.
So for a flush over several servers, with its retry.
-/

namespace CppRedis.Soundness.Reporting

open Machine Machine.Program Model.RedisClient Model.RedisCpp
open Requests Grouping

/-- All these commands have replies. -/
def Stored {σ : Type} (vecCmd : List ℕ) (world : World σ) : Prop :=
  ∀ command ∈ vecCmd, (world.command command).pReply ≠ none

/-- These commands exist. -/
def Allocated {σ : Type} (vecCmd : List ℕ) (world : World σ) : Prop := ∀ command ∈ vecCmd, command < world.commands

/-- All commands have replies, or the code is negative. -/
def Reports {σ : Type} (vecCmd : List ℕ) (nRet : ReturnCode) (world : World σ) : Prop :=
  nRet = .success ∧ Stored vecCmd world ∨ nRet.value < 0

theorem paramErr_negative : ReturnCode.paramErr.value < 0 := by decide

theorem rqstErr_negative : ReturnCode.rqstErr.value < 0 := by decide

section

variable {σ : Type} {vecCmd others : List ℕ} {C : Set ℕ} {source target : World σ}

theorem Reports.stored {nRet : ReturnCode} (reports : Reports vecCmd nRet source) (success : nRet = .success) :
    Stored vecCmd source := by
  rcases reports with ⟨-, stored⟩ | negative
  · exact stored
  · rw [success] at negative
    exact absurd negative (by decide)

theorem Reports.negative {nRet : ReturnCode} (reports : Reports vecCmd nRet source) (failed : nRet ≠ .success) :
    nRet.value < 0 := reports.resolve_left fun here => failed here.1

/-- The reply that was got is stored, or the code says that there was none. -/
theorem reports_of_reply {command : ℕ} {reply : Option RedisReply} {world : World σ}
    (same : (world.command command).pReply = reply) :
    Reports [command] (if reply.isSome then .success else .rqstErr) world := by
  cases reply with
  | none => exact .inr (by decide)
  | some reply =>
    refine .inl ⟨rfl, fun other member => ?_⟩
    rw [List.mem_singleton.mp member, same]
    exact Option.some_ne_none reply

/-- Replies last while other commands are asked. -/
theorem Stored.of_kept (stored : Stored vecCmd source) (allocated : Allocated vecCmd source)
    (kept : Kept C source target)
    (own : ∀ command ∈ C, command ∈ others) (later : Stored others target) : Stored vecCmd target := by
  intro command member
  by_cases again : command ∈ others
  · exact later command again
  · rw [kept.command command (allocated command member) fun inside => again (own command inside)]
    exact stored command member

theorem Allocated.of_kept (allocated : Allocated vecCmd source) (kept : Kept C source target) :
    Allocated vecCmd target :=
  fun command member => lt_of_lt_of_le (allocated command member) kept.commands

theorem stored_append : Stored (vecCmd ++ others) source ↔ Stored vecCmd source ∧ Stored others source :=
  List.forall_mem_append

/-- Requests for some commands and, when these succeed, for others. -/
theorem Reports.append {nRet : ReturnCode} (stored : Stored vecCmd source) (allocated : Allocated vecCmd source)
    (kept : Kept C source target) (own : ∀ command ∈ C, command ∈ others) (later : Reports others nRet target) :
    Reports (vecCmd ++ others) nRet target :=
  later.imp_left fun ⟨success, rest⟩ => ⟨success, stored_append.mpr ⟨stored.of_kept allocated kept own rest, rest⟩⟩

end

section

variable {ρ : Type} (net : Network ρ)

theorem anything {α : Type} (program : Action (Pool ρ) α) : Ensures (fun _ => True) program fun _ _ => True :=
  fun _ _ _ _ _ => trivial

theorem cmdRequest_reports (command : ℕ) (pContext : Option RedisContext) :
    Ensures (fun _ : World (Pool ρ) => True) (CRedisCommand.cmdRequest net command pContext)
      fun result => Reports [command] result.1 := by
  refine .bind _ .get fun world => .ite (fun _ => .pure fun _ _ => .inr paramErr_negative) fun _ => ?_
  cases pContext with
  | none => exact .pure fun _ _ => .inr rqstErr_negative
  | some context =>
    refine .bind _ (.update fun _ _ => trivial) fun _ => .bind _ (anything _) fun sent => ?_
    refine .bind (fun _ world => (world.command command).pReply = sent.1) (.update fun source _ => ?_)
      fun _ => .pure fun world same => reports_of_reply same
    simp only [World.setReply, Function.update_self]

theorem connRequest_reports (serv command : ℕ) (conn : CRedisConnection) :
    Ensures (fun _ : World (Pool ρ) => True) (CRedisConnection.connRequest net serv command conn)
      fun result => Reports [command] result.1 := by
  refine .bind _ (anything _) fun tmNow => .bind _ (anything _) fun ready => ?_
  refine .ite (fun _ => .pure fun _ _ => .inr rqstErr_negative) fun _ =>
    .bind _ (cmdRequest_reports net command _) fun first => ?_
  refine .ite (fun failed => ?_) fun _ => .pure fun _ here => here
  refine .bind _ (.weaken (anything _) (fun _ _ => trivial) fun _ _ => id) fun _ => .ite (fun _ => .pure fun _ _ => ?_)
    fun _ => ?_
  · rw [failed]
    exact .inr (by decide)
  · refine .bind _ (anything _) fun again => .ite (fun _ => .pure fun _ _ => .inr rqstErr_negative) fun _ => ?_
    exact .bind _ (cmdRequest_reports net command _) fun second => .pure fun _ here => here

/-- What a request reports is reported after the connection is returned. -/
theorem servRequestWith_reports {pre : World (Pool ρ) → Prop} {vecCmd : List ℕ} (serv : ℕ)
    {request : CRedisConnection → Action (Pool ρ) (ReturnCode × CRedisConnection)}
    (before : Ensures pre (CRedisServer.awaitConnection serv CRedisServer.rqstRetryTimes) fun _ => pre)
    (reports : ∀ conn, Ensures pre (request conn) fun result => Reports vecCmd result.1) :
    Ensures pre (CRedisServer.servRequestWith serv request) (Reports vecCmd) := by
  refine .bind _ before fun fetched => ?_
  cases fetched with
  | none => exact .pure fun _ _ => .inr (by decide)
  | some conn =>
    refine .bind _ (reports conn) fun result => .bind (fun _ => Reports vecCmd result.1) ?_ fun _ =>
      .pure fun _ here => here
    exact .update fun _ here => here

theorem servRequest_reports (serv command : ℕ) :
    Ensures (fun _ : World (Pool ρ) => True) (CRedisServer.servRequest net serv command) (Reports [command]) :=
  servRequestWith_reports serv (anything _) (connRequest_reports net serv command)

variable (address : ℕ → ℕ)

end

end CppRedis.Soundness.Reporting
