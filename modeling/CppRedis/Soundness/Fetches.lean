import CppRedis.Soundness.Attribution

/-! # Commands without a pipeline

A method without a pipeline that succeeds returns what was fetched from a reply to its own command, also after a refresh
and a second request.
-/

namespace CppRedis.Soundness.Fetches

open Machine Machine.Program Model.RedisClient Model.RedisCpp Requests Attribution

variable {ρ : Type} (net : Network ρ) (address : ℕ → ℕ) {since : List Event}

theorem simpleExecute_going (command : ℕ) :
    Ensures (Going since) (simpleExecute (net.servers address) command) fun _ => Going since := by
  refine .bind _ (refreshThread_going net) fun _ => .get_then fun world =>
    .ite (fun _ => .pure fun _ here => here) fun _ => ?_
  split
  · exact .pure fun _ here => here
  · exact servRequest_going net _ command

theorem execute_going (command : ℕ) :
    Ensures (Going since) (execute (net.servers address) command) fun _ => Going since := by
  have again (nRet : ReturnCode) : Ensures (Going since)
      (do if ← waitForRefresh (net.servers address) then simpleExecute (net.servers address) command else return nRet)
      fun _ => Going since :=
    .bind _ (waitForRefresh_going net address) fun _ =>
      .ite (fun _ => simpleExecute_going net address command) fun _ => .pure fun _ here => here
  refine .get_then fun _ => .ite (fun _ => .pure fun _ here => here) fun _ =>
    .bind _ (simpleExecute_going net address command) fun nRet => .get_then fun _ => .ite (fun _ => ?_) fun _ => ?_
  · exact .ite (fun _ => again nRet) fun _ => .pure fun _ here => here
  · exact .ite (fun _ => again nRet) fun _ => .pure fun _ here => here

theorem execute_follows (command : ℕ) : Follows (Kept {command}) (execute (net.servers address) command) := by
  have again (nRet : ReturnCode) : Follows (Kept {command})
      (do
        if ← waitForRefresh (net.servers address) then simpleExecute (net.servers address) command
        else return nRet) :=
    .bind (waitForRefresh_follows net address) fun _ => .ite (simpleExecute_follows net address command) (.pure _)
  refine .bind .get fun _ => .ite (.pure _) (.bind (simpleExecute_follows net address command) fun nRet =>
    .bind .get fun _ => .ite (.ite (again nRet) (.pure _)) (.ite (again nRet) (.pure _)))

variable {α : Type} {args : List CppString} {nSlot : ℤ} {funcFetch : Fetch α} {funcConv : Convert}

/-- A fetch that returns found a reply. -/
theorem fetchCommand_ok {σ : Type} {command : ℕ} {source target : World σ} {result : ReturnCode × Option α}
    (ran : fetchCommand funcFetch command source = .ok (result, target)) :
    target = source ∧ ∃ reply, (source.command command).pReply = some reply ∧
      fetchResult funcFetch (source.command command).funcConv (some reply) = .ok result := by
  rw [fetchCommand, bind_of_ok (get_apply source)] at ran
  cases fetched : fetchResult funcFetch (source.command command).funcConv (source.command command).pReply with
  | error fault =>
    rw [fetched] at ran
    cases ran
  | ok fetchedResult =>
    rw [fetched] at ran
    cases ran
    refine ⟨rfl, ?_⟩
    cases stored : (source.command command).pReply with
    | none =>
      rw [stored] at fetched
      cases fetched
    | some reply =>
      rw [stored] at fetched
      exact ⟨reply, rfl, fetched⟩

theorem executeImpl_attributed :
    Ensures Attributed (executeImpl (net.servers address) args nSlot funcFetch funcConv) fun _ => Attributed := by
  refine .bind _ (newCommand_attributed rfl) fun command => .bind _ ?_ fun nRet =>
    .ite (fun _ => ?_) fun _ => .pure fun _ here => here
  · intro source here value target ran
    exact (execute_going net address command source here.going value target ran).toAttributed
  · intro source here value target ran
    obtain ⟨rfl, -⟩ := fetchCommand_ok ran
    exact here

theorem executeImpl_follows :
    Follows (Kept Set.univ) (executeImpl (net.servers address) args nSlot funcFetch funcConv) := by
  refine .bind (newCommand_kept _) fun command => .bind ?_ fun nRet => .ite ?_ (.pure _)
  · exact (execute_follows net address command).mono fun _ _ kept => kept.mono fun _ _ _ => Set.mem_univ _
  · intro source value target ran
    obtain ⟨rfl, -⟩ := fetchCommand_ok ran
    exact Kept.rfl' _

theorem mem_of_answered {log : List Event} {command : ℕ} {reply : RedisReply}
    (answered : Answered since log command reply) : .reply command reply ∈ log := by
  obtain ⟨front, back, rfl, -⟩ := answered
  exact List.mem_append_right _ List.mem_cons_self

/-- What a method that succeeds returns was fetched from a reply to its command. -/
theorem executeImpl_fetched {source target : World (Pool ρ)} {value : Option α} (attributed : Attributed source)
    (ran : executeImpl (net.servers address) args nSlot funcFetch funcConv source = .ok ((.success, value), target)) :
    (target.command source.commands).args = args ∧ ∃ reply, .reply source.commands reply ∈ target.log ∧
      fetchResult funcFetch funcConv (some reply) = .ok (.success, value) := by
  obtain ⟨command, issued, ranNew, ran⟩ := bind_eq_ok_iff.mp ran
  have fresh := newCommand_attributed rfl source attributed command issued ranNew
  cases ranNew
  obtain ⟨nRet, executed, ranExecute, ran⟩ := bind_eq_ok_iff.mp ran
  have going := execute_going net address source.commands _ fresh.going _ _ ranExecute
  have kept := execute_follows net address source.commands _ _ _ ranExecute
  have words := kept.args source.commands (Nat.lt_succ_self _)
  have same := kept.funcConv source.commands (Nat.lt_succ_self _)
  simp only [Function.update_self] at words same
  by_cases success : nRet = .success
  · rw [if_pos success] at ran
    obtain ⟨rfl, reply, stored, fetched⟩ := fetchCommand_ok ran
    rw [same] at fetched
    exact ⟨words, reply, mem_of_answered (going.replies _ _ stored), fetched⟩
  · rw [if_neg success] at ran
    cases ran
    exact absurd rfl success

end CppRedis.Soundness.Fetches
