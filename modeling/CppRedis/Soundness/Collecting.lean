import CppRedis.Model.RedisClient.Collections
import CppRedis.Soundness.Batches
import CppRedis.Soundness.Decoding
import CppRedis.Soundness.Fetches
import CppRedis.Soundness.Homes

/-! # Vectors that are collected

`FetchStringArray` clears the vector of the caller. `Keys` and, in cluster mode, `Mget` collect in loops of their own,
behind what the vector holds. So they return the result of the call just when the vector is empty before.
-/

namespace CppRedis.Soundness.Collecting

open Machine Machine.Program Model.RedisClient Model.RedisCpp Requests Attribution Fetches Homes Batches
open Model.Redis (Store getReply mgetReply)

variable {ρ o : Type} {net : Network ρ} {address : ℕ → ℕ} {source target : World (Pool ρ)}

/-- The servers answer with the keys of theirs that match, or with errors, and keep what they store. -/
structure Matches (net : Network ρ) (hosts : ℕ → Hosts) (held : Set ρ) (matching : ℕ → List CppString)
    (strPattern : CppString) (vecRedisServ : List ℕ) : Prop where
  harmless : ∀ redis ∈ held, ∀ host, (net.serve redis host [text "keys", strPattern]).2 ∈ held
  answers : ∀ serv ∈ vecRedisServ, ∀ redis ∈ held, ∀ host ∈ hosts serv,
    (net.serve redis host [text "keys", strPattern]).1 = .array ((matching serv).map .string) ∨
      ∃ str, (net.serve redis host [text "keys", strPattern]).1 = .error str

section

variable {hosts : ℕ → Hosts} {held : Set ρ} {matching : ℕ → List CppString} {strPattern : CppString}
  {before after : List CppString}

/-- The command of `Keys`. -/
structure Asks (command : ℕ) (strPattern : CppString) (world : World (Pool ρ)) : Prop where
  bound : command < world.commands
  args : (world.command command).args = [text "keys", strPattern]
  funcConv : (world.command command).funcConv = .default

theorem Asks.of_kept {command : ℕ} {C : Set ℕ} (asks : Asks command strPattern source) (kept : Kept C source target) :
    Asks command strPattern target where
  bound := lt_of_lt_of_le asks.bound kept.commands
  args := (kept.args command asks.bound).trans asks.args
  funcConv := (kept.funcConv command asks.bound).trans asks.funcConv

/-- The loop appends the keys of each server. -/
theorem keysFrom_collected {command : ℕ} {vecRedisServ : List ℕ}
    (matched : Matches net hosts held matching strPattern vecRedisServ) {vecVal : List CppString}
    (home : AtHome hosts held source) (asks : Asks command strPattern source)
    (ran : keysFrom (net.servers address) command vecVal before vecRedisServ source = .ok ((.success, after), target)) :
    after = before ++ vecRedisServ.flatMap matching ∧ AtHome hosts held target ∧ target.client = source.client := by
  induction vecRedisServ generalizing source vecVal before with
  | nil =>
    cases ran
    exact ⟨(List.append_nil _).symm, home, rfl⟩
  | cons serv vecRedisServ ih =>
    obtain ⟨nRet, requested, ranRequest, ran⟩ := bind_eq_ok_iff.mp ran
    let inquiry : Inquiry ρ := ⟨hosts, held, command, [text "keys", strPattern]⟩
    have asking : Asking inquiry source := { home with args := asks.args }
    have harmless : Harmless net inquiry := matched.harmless
    obtain ⟨asking, served⟩ := servRequest_home harmless serv source asking _ _ ranRequest
    have footprint := servRequest_follows (S := {serv}) (C := {command}) net (Set.mem_singleton serv)
      (Set.mem_singleton command) _ _ _ ranRequest
    have asks := asks.of_kept footprint.toKept
    have later : Matches net hosts held matching strPattern vecRedisServ :=
      { matched with answers := fun other member => matched.answers other (List.mem_cons_of_mem _ member) }
    by_cases success : nRet = .success
    · simp only [success, ne_eq, not_true_eq_false, if_false] at ran
      obtain ⟨⟨code, value⟩, fetched, ranFetch, ran⟩ := bind_eq_ok_iff.mp ran
      obtain ⟨rfl, reply, stored, result⟩ := fetchCommand_ok ranFetch
      obtain ⟨redis, known, host, member, answer⟩ := served success
      rw [asks.funcConv] at result
      rw [stored, Option.some_inj] at answer
      rcases matched.answers serv List.mem_cons_self redis known host member with array | ⟨str, failed⟩
      · rw [answer, array, fetchResult, fetchStringArray, Decoding.fetchStrings_strings] at result
        cases result
        simp only [not_true_eq_false, if_false, Option.getD_some] at ran
        obtain ⟨rfl, home, client⟩ := ih later asking.toAtHome asks ran
        exact ⟨by rw [List.flatMap_cons, List.append_assoc], home, client.trans footprint.client⟩
      · rw [answer, failed] at result
        cases result
        cases ran
    · simp only [ne_eq, success, not_false_eq_true, if_true] at ran
      cases ran
      exact absurd rfl success

theorem keys_collected (matched : Matches net hosts held matching strPattern source.client.vecRedisServ)
    (home : AtHome hosts held source)
    (ran : keys (net.servers address) strPattern before source = .ok ((.success, after), target)) :
    after = before ++ source.client.vecRedisServ.flatMap matching ∧ AtHome hosts held target ∧
      target.client = source.client := by
  obtain ⟨command, _, ranNew, ran⟩ := bind_eq_ok_iff.mp ran
  cases ranNew
  rw [bind_of_ok (get_apply _)] at ran
  let issued : World (Pool ρ) := { source with
    command := Function.update source.command source.commands { args := [text "keys", strPattern] }
    commands := source.commands + 1 }
  have asks : Asks source.commands strPattern issued := by
    refine ⟨Nat.lt_succ_self _, ?_, ?_⟩
    · simp only [issued, Function.update_self]
    · simp only [issued, Function.update_self]
  have atHome : AtHome hosts held issued := home.same rfl home.redis
  have collected := keysFrom_collected matched atHome asks ran
  exact collected

end

/-- The replies to commands of this call are those of the store. Errors may come before the last reply,
and to `MGET`. -/
def Truthful (store : Store o) (source target : World (Pool ρ)) : Prop :=
  ∀ command reply, source.commands ≤ command → .reply command reply ∈ target.log →
    (∀ strKey, (target.command command).args = [text "get", strKey] →
      reply = getReply (store strKey) ∨ (∃ str, reply = .error str) ∧ (target.command command).pReply ≠ some reply) ∧
    ∀ vecKey, (target.command command).args = text "mget" :: vecKey →
      reply = .array (vecKey.map fun key => mgetReply (store key)) ∨ ∃ str, reply = .error str

theorem issueAll_attributed {redisCmds : List CRedisCommand} (fresh : ∀ redisCmd ∈ redisCmds, redisCmd.pReply = none)
    (attributed : Attributed source) : Attributed (issueAll redisCmds source) := by
  induction redisCmds generalizing source with
  | nil => exact attributed
  | cons redisCmd redisCmds ih =>
    refine ih (fun other member => fresh other (List.mem_cons_of_mem _ member)) ?_
    exact newCommand_attributed (fresh redisCmd List.mem_cons_self) source attributed source.commands _ rfl

section

variable {store : Store o} {vecKey before after : List CppString}

theorem getCommand_issued {command : ℕ} (member : command ∈ List.range' source.commands vecKey.length) :
    (issueAll (vecKey.map getCommand) source).command command =
      getCommand (keyOf (issueAll (vecKey.map getCommand) source) command) := by
  obtain ⟨key, -, same⟩ := exists_of_issueAll member
  rw [keyOf, same]
  rfl

theorem worded_issued : Worded (List.range' source.commands vecKey.length)
    (issueAll (vecKey.map getCommand) source) := by
  intro command member
  rw [issueAll_commands, List.length_map, getCommand_issued member]
  exact ⟨(List.mem_range'_1.mp member).2, List.cons_ne_nil _ _⟩

theorem issued_attributed (attributed : Attributed source) : Attributed (issueAll (vecKey.map getCommand) source) := by
  refine issueAll_attributed (fun redisCmd inMap => ?_) attributed
  obtain ⟨key, -, rfl⟩ := List.mem_map.mp inMap
  rfl

/-- What the loop of `Mget` reads after a flush is what the store has. -/
theorem flushed_stored {flushed : World (Pool ρ)} {nRet : ReturnCode} (attributed : Attributed source)
    (ran : flushPipeline (net.servers address) (some { vecCmd := List.range' source.commands vecKey.length })
      (issueAll (vecKey.map getCommand) source) = .ok (nRet, flushed))
    (truthful : Truthful store source flushed) {command : ℕ}
    (member : command ∈ List.range' source.commands vecKey.length) (replied : (flushed.command command).pReply ≠ none) :
    (flushed.command command).pReply =
      some (getReply (store (keyOf (issueAll (vecKey.map getCommand) source) command))) := by
  have issued : Attributed (issueAll (vecKey.map getCommand) source) := issued_attributed attributed
  have going := (flushPipeline_replied net address _ _ _ ⟨issued.going, worded_issued⟩ _ _ ran).1
  have kept := NullPointers.flushPipeline_kept net address _ _ _ _ ran
  have args := kept.args command (worded_issued command member).1
  rw [getCommand_issued member] at args
  obtain ⟨reply, stored⟩ := Option.ne_none_iff_exists'.mp replied
  have logged := mem_of_answered (going.replies _ _ stored)
  rcases (truthful command reply (List.mem_range'_1.mp member).1 logged).1 _ args with same | ⟨-, other⟩
  · rw [stored, same]
  · exact absurd stored other

theorem mget_alone_collected (attributed : Attributed source) (truthful : Truthful store source target)
    (several : vecKey ≠ []) (single : source.client.bCluster = false)
    (ran : mget (net.servers address) vecKey before source = .ok ((.success, after), target)) :
    after = vecKey.map fun key => shown (store key) := by
  obtain ⟨strKey, rest, rfl⟩ := List.exists_cons_of_ne_nil several
  rw [mget.eq_def] at ran
  dsimp only at ran
  rw [bind_of_ok (get_apply source), single, Bool.not_false, if_pos rfl] at ran
  obtain ⟨args, _, ranArgs, ran⟩ := bind_eq_ok_iff.mp ran
  cases ranArgs
  obtain ⟨⟨nRet, value⟩, executed, ranExecute, ran⟩ := bind_eq_ok_iff.mp ran
  cases ran
  obtain ⟨args, reply, logged, fetched⟩ := executeImpl_fetched net address attributed ranExecute
  rcases (truthful _ _ le_rfl logged).2 _ args with same | ⟨str, same⟩
  · rw [same, fetchResult, fetchStringArray_mget] at fetched
    cases fetched
    rfl
  · rw [same] at fetched
    cases fetched

/-- What there is after `Mget` in cluster mode is there after its flush. -/
theorem mget_flushed {nRet : ReturnCode} (several : vecKey ≠ []) (cluster : source.client.bCluster = true)
    (ran : mget (net.servers address) vecKey before source = .ok ((nRet, after), target)) :
    let vecCmd := List.range' source.commands vecKey.length
    (∃ code, flushPipeline (net.servers address) (some { vecCmd := vecCmd }) (issueAll (vecKey.map getCommand) source) =
      .ok (code, target)) ∧
      (∀ command ∈ vecCmd, (target.command command).funcConv = .default) ∧ Reporting.Stored vecCmd target ∧
      fetchGets { vecCmd := vecCmd } [] before (vecCmd.length + 1) target = .ok ((nRet, after), target) := by
  intro vecCmd
  rw [mget_of_cluster (net.servers address) several cluster before, bind_of_ok (queueGets_ok vecKey {} source)] at ran
  obtain ⟨code, flushed, ranFlush, ranFetch⟩ := bind_eq_ok_iff.mp ran
  change fetchGets { vecCmd := vecCmd } [] before (vecCmd.length + 1) flushed = _ at ranFetch
  have kept := NullPointers.flushPipeline_kept net address _ _ _ _ ranFlush
  have plain : ∀ command ∈ vecCmd, (flushed.command command).funcConv = .default := by
    intro command member
    rw [kept.funcConv command (worded_issued command member).1, getCommand_issued member]
    rfl
  have looks := @NullPointers.fetchGets_looksInto _ flushed vecCmd { vecCmd := vecCmd } [] before rfl plain
  obtain ⟨rfl, stored⟩ := looks.stored ranFetch
  exact ⟨⟨code, ranFlush⟩, plain, stored, ranFetch⟩

theorem mget_cluster_collected (attributed : Attributed source) (truthful : Truthful store source target)
    (several : vecKey ≠ []) (cluster : source.client.bCluster = true)
    (ran : mget (net.servers address) vecKey before source = .ok ((.success, after), target)) :
    after = before ++ vecKey.map fun key => shown (store key) := by
  obtain ⟨⟨_, ranFlush⟩, plain, stored, ranFetch⟩ := mget_flushed several cluster ran
  let vecCmd := List.range' source.commands vecKey.length
  let issued := issueAll (vecKey.map getCommand) source
  have fetched := @fetchGets_ok _ _ target (fun command => store (keyOf issued command)) vecCmd { vecCmd := vecCmd } rfl
    [] before plain fun command member => flushed_stored attributed ranFlush truthful member (stored command member)
  cases fetched.symm.trans ranFetch
  have values := map_issueAll getCommand (fun redisCmd => shown (store (redisCmd.args.getD 1 []))) vecKey source
  exact congrArg (before ++ ·) values

/-- `Mget` leaves the client in its mode, and replies and connections attributed. -/
theorem mget_keeps {nRet : ReturnCode} (attributed : Attributed source)
    (ran : mget (net.servers address) vecKey before source = .ok ((nRet, after), target)) :
    Attributed target ∧ target.client.bCluster = source.client.bCluster := by
  cases vecKey with
  | nil =>
    cases ran
    exact ⟨attributed, rfl⟩
  | cons strKey rest =>
    cases mode : source.client.bCluster with
    | true =>
      obtain ⟨⟨_, ranFlush⟩, -⟩ := mget_flushed (List.cons_ne_nil _ _) mode ran
      have issued : Attributed (issueAll ((strKey :: rest).map getCommand) source) := issued_attributed attributed
      have going := (flushPipeline_replied net address _ _ _ ⟨issued.going, worded_issued⟩ _ _ ranFlush).1
      have kept := NullPointers.flushPipeline_kept net address _ _ _ _ ranFlush
      refine ⟨going.toAttributed, kept.bCluster.trans ?_⟩
      rw [(issueAll_same _ _).1, mode]
    | false =>
      rw [mget.eq_def] at ran
      dsimp only at ran
      rw [bind_of_ok (get_apply source), mode, Bool.not_false, if_pos rfl] at ran
      obtain ⟨args, _, ranArgs, ran⟩ := bind_eq_ok_iff.mp ran
      cases ranArgs
      obtain ⟨⟨nRet, value⟩, executed, ranExecute, ran⟩ := bind_eq_ok_iff.mp ran
      cases ran
      refine ⟨executeImpl_attributed net address source attributed _ _ ranExecute, ?_⟩
      exact (executeImpl_follows net address _ _ _ ranExecute).bCluster.trans mode

end

/-- A call that collects in a vector. -/
inductive Call where
  | keys (strPattern : CppString)
  | mget (vecKey : List CppString)
deriving DecidableEq, Repr

def Call.run {σ : Type} (servers : Servers σ) (pvecVal : List CppString) : Call → Action σ (ReturnCode × List CppString)
  | .keys strPattern => Model.RedisClient.keys servers strPattern pvecVal
  | .mget vecKey => Model.RedisClient.mget servers vecKey pvecVal

/-- What is stored: the keys of each server that match a pattern, and the entries of the keys. -/
structure Contents (o : Type) where
  matching : ℕ → CppString → List CppString
  store : Store o

/-- The result of a call. -/
def Call.result (contents : Contents o) (vecRedisServ : List ℕ) : Call → List CppString
  | .keys strPattern => vecRedisServ.flatMap fun serv => contents.matching serv strPattern
  | .mget vecKey => vecKey.map fun key => shown (contents.store key)

/-- Whether a call clears the vector. -/
def Call.clears (bCluster : Bool) : Call → Bool
  | .keys _ => false
  | .mget vecKey => !vecKey.isEmpty && !bCluster

/-- The servers of `Keys` answer with what is stored. For `Mget` no reply of another command is left on a connection. -/
def Prepared (net : Network ρ) (contents : Contents o) (source : World (Pool ρ)) : Call → Prop
  | .keys strPattern => ∃ hosts held, AtHome hosts held source ∧
      Matches net hosts held (fun serv => contents.matching serv strPattern) strPattern source.client.vecRedisServ
  | .mget _ => Attributed source

/-- The servers of `Mget` answered with what is stored. -/
def Told (contents : Contents o) (source target : World (Pool ρ)) : Call → Prop
  | .keys _ => True
  | .mget _ => Truthful contents.store source target

section

variable {contents : Contents o} {call : Call} {before after : List CppString}

/-- A call that does not clear the vector appends to it, and the next one finds all as it was. -/
theorem run_collected (prepared : Prepared net contents source call) (told : Told contents source target call)
    (ran : call.run (net.servers address) before source = .ok ((.success, after), target)) :
    after = (if call.clears source.client.bCluster then [] else before) ++
        call.result contents source.client.vecRedisServ ∧
      Prepared net contents target call ∧
      call.result contents target.client.vecRedisServ = call.result contents source.client.vecRedisServ ∧
      call.clears target.client.bCluster = call.clears source.client.bCluster := by
  cases call with
  | keys strPattern =>
    obtain ⟨hosts, held, home, matched⟩ := prepared
    obtain ⟨rfl, home, client⟩ := keys_collected matched home ran
    refine ⟨rfl, ⟨hosts, held, home, ?_⟩, by rw [client], by rw [client]⟩
    rw [client]
    exact matched
  | mget vecKey =>
    obtain ⟨attributed, bCluster⟩ := mget_keeps prepared ran
    refine ⟨?_, attributed, rfl, by rw [bCluster]⟩
    cases vecKey with
    | nil =>
      cases ran
      exact (List.append_nil _).symm
    | cons strKey vecKey =>
      cases mode : source.client.bCluster with
      | true => exact mget_cluster_collected prepared told (List.cons_ne_nil _ _) mode ran
      | false => exact mget_alone_collected prepared told (List.cons_ne_nil _ _) mode ran

/-- What is appended is the whole vector just when there was nothing before. -/
theorem appended_eq_iff {clears : Bool} {result : List CppString} :
    (if clears then [] else before) ++ result = result ↔ before = [] ∨ clears = true := by
  cases clears with
  | true => exact iff_of_true rfl (.inr rfl)
  | false => exact List.append_left_eq_self.trans (or_iff_left Bool.false_ne_true).symm

/-- The vector holds the result of the call just when it was empty before or the call clears it, and the next call
leaves it as it is just when there is no result or the call clears it. -/
theorem vector_current_iff (prepared : Prepared net contents source call) (told : Told contents source target call)
    (ran : call.run (net.servers address) before source = .ok ((.success, after), target)) :
    (after = call.result contents source.client.vecRedisServ ↔
        before = [] ∨ call.clears source.client.bCluster = true) ∧
      ∀ again last, call.run (net.servers address) after target = .ok ((.success, again), last) →
        Told contents target last call →
          (again = after ↔ call.result contents source.client.vecRedisServ = [] ∨
            call.clears source.client.bCluster = true) := by
  obtain ⟨rfl, prepared, result, clears⟩ := run_collected prepared told ran
  refine ⟨appended_eq_iff, fun again last ranAgain told => ?_⟩
  obtain ⟨rfl, -⟩ := run_collected prepared told ranAgain
  rw [result, clears]
  cases call.clears source.client.bCluster with
  | true => exact iff_of_true rfl (.inr rfl)
  | false => exact List.append_right_eq_self.trans (or_iff_left Bool.false_ne_true).symm

/-- A server with one key, behind a link that works. -/
def listing : Network ℕ where
  clock _ := 0
  connect _ _ := true
  append _ := true
  receive _ := none
  rounds _ := 0
  serve count _ _ := (.array [.string (text "a")], count)

def oneKey : Contents Unit where
  matching _ _ := [text "a"]
  store _ := none

theorem connected_prepared : Prepared listing oneKey connected.world (.keys (text "*")) := by
  refine ⟨fun _ => Set.univ, Set.univ, ⟨fun serv => ⟨fun _ _ => trivial, .inr trivial, ?_⟩, trivial⟩, ?_⟩
  · intro conn member context same
    rw [List.mem_singleton.mp member] at same
    cases same
  · exact ⟨fun _ _ _ => trivial, fun _ _ _ _ _ _ => .inl rfl⟩

theorem vector_current_iff_keys : ∃ after target,
    Call.run (listing.servers id) [] (.keys (text "*")) connected.world = .ok ((.success, after), target) ∧
    (after = Call.result oneKey [0] (.keys (text "*")) ↔
      ([] : List CppString) = [] ∨ Call.clears false (.keys (text "*")) = true) := by
  obtain ⟨after, target, ran⟩ : ∃ after target,
      Call.run (listing.servers id) [] (.keys (text "*")) connected.world = .ok ((.success, after), target) :=
    ⟨_, _, rfl⟩
  have told : Told oneKey connected.world target (.keys (text "*")) := trivial
  exact ⟨after, target, ran, (vector_current_iff connected_prepared told ran).1⟩

/-- A vector with the key has it twice afterwards, and three times after the next call. -/
theorem keys_stale :
    let call := fun pvecVal => Call.run (listing.servers id) pvecVal (.keys (text "*"))
    Except.map Prod.fst (call [text "a"] connected.world) = .ok (.success, [text "a", text "a"]) ∧
      [text "a", text "a"] ≠ Call.result oneKey [0] (.keys (text "*")) ∧
      Except.map Prod.fst ((call [text "a"] >>= fun first => call first.2) connected.world) =
        .ok (.success, [text "a", text "a", text "a"]) := by
  decide +kernel

end

end CppRedis.Soundness.Collecting
