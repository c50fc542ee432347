import CppRedis.Model.RedisClient.Pipelines
import CppRedis.Machine.Run
import CppRedis.Soundness.FaultFree
import CppRedis.Soundness.Transmissions
import CppRedis.Soundness.Reporting

/-! # Null servers and null replies

A flush follows a null pointer only for a command whose slot has no server, and a fetch only for a command
that the flush did not get to. `Mget` and `Mset` do not look at the code of their flush.
-/

namespace CppRedis.Soundness.NullPointers

open Machine Machine.Program Model.RedisClient Model.RedisCpp
open Requests Transmissions Grouping Reporting

/-- `ServRequest` on a null server, or a field of a null reply. -/
def NullPointer (fault : Fault) : Prop := fault = .nullServer ∨ fault = .nullReply

section

variable {ρ : Type} (net : Network ρ) (address : ℕ → ℕ)

theorem fetchRegion_error {reply : RedisReply} {fault : Fault} (failed : fetchRegion reply = .error fault) :
    fault = .nullField := by
  unfold fetchRegion at failed
  split at failed
  · split at failed <;> cases failed
    rfl
  · cases failed
    rfl
  · cases failed

theorem fetchRegions_error {element : List RedisReply} {fault : Fault}
    (failed : fetchRegions element = .error fault) : fault = .nullField := by
  induction element with
  | nil => cases failed
  | cons reply element ih =>
    simp only [fetchRegions] at failed
    cases here : fetchRegion reply with
    | error other =>
      rw [here] at failed
      cases failed
      exact fetchRegion_error here
    | ok found =>
      rw [here] at failed
      cases found with
      | none => cases failed
      | some slotReg =>
        cases rest : fetchRegions element with
        | error other =>
          rw [rest] at failed
          cases failed
          exact ih rest
        | ok found =>
          rw [rest] at failed
          cases failed

theorem fetchSlot_error {reply : RedisReply} {fault : Fault} (failed : fetchSlot reply = .error fault) :
    ¬ NullPointer fault := by
  cases reply with
  | array element =>
    rw [fetchRegions_error failed]
    exact nofun
  | _ => cases failed

/-- `LoadClusterSlots` looks into a reply only when there is one. -/
theorem loadSlotsFrom_avoids (command : ℕ) (vecRedisServ : List ℕ) :
    Avoids NullPointer (fun _ => True) (loadSlotsFrom net command vecRedisServ) := by
  induction vecRedisServ with
  | nil => exact .pure
  | cons serv vecRedisServ ih =>
    refine .bind _ (anything _) (fun _ _ _ => nofun) fun _ => .ite (fun _ => .pure) fun _ => ?_
    refine .bind _ (servRequest_reports net serv command)
      ((servRequest_sends net serv (Set.mem_univ command)).avoids _) fun nRet => .ite (fun success => ?_) fun _ => ?_
    · refine .get_bind fun source reports fault failed => ?_
      have stored := reports.stored success command (List.mem_singleton_self _)
      cases here : (source.command command).pReply with
      | none => exact absurd here stored
      | some reply =>
        rw [here] at failed
        dsimp only at failed
        cases fetched : fetchSlot reply with
        | error other =>
          rw [fetched] at failed
          cases failed
          exact fetchSlot_error fetched
        | ok found =>
          rw [fetched] at failed
          cases found with
          | none => exact ih source trivial fault failed
          | some vecSlot =>
            dsimp only at failed
            rw [bind_of_ok (get_apply source)] at failed
            refine (Avoids.bind _ (anything _) ((assignServers_sends (C := Set.univ) net _ _ _ _).avoids _)
              fun assigned => ?_) source trivial fault failed
            cases assigned with
            | none => exact .pure
            | some tables =>
              exact .bind _ (anything _) ((deleteServers_sends (C := Set.univ) _).avoids _) fun _ =>
                .bind _ (anything _) (fun _ _ _ => nofun) fun _ => .pure
    · exact fun source _ => ih source trivial

theorem refreshRound_avoids : Avoids NullPointer (fun _ => True) (refreshRound net) := by
  refine .bind _ (anything _) (fun _ _ _ => nofun) fun _ => .bind _ (anything _) (fun _ _ _ => nofun) fun world => ?_
  have setValid : ∀ bValid : Bool, Avoids NullPointer (fun _ => True) (modify fun world : World (Pool ρ) =>
      { world with client := { world.client with bValid := bValid } } : Action (Pool ρ) Unit) :=
    fun _ _ _ _ => nofun
  refine .ite (fun _ => .bind _ (anything _) ?_ setValid) fun _ => ?_
  · refine .bind _ (anything _) (fun _ _ _ => nofun) fun command =>
      .bind _ (anything _) (fun _ _ _ => nofun) fun world => ?_
    exact loadSlotsFrom_avoids net command _
  · split
    · exact .bind _ (anything _) (.throw nofun) setValid
    · exact .bind _ (anything _) ((initializeServer_sends (C := Set.univ) net _).avoids _) setValid

theorem refreshThread_avoids : Avoids NullPointer (fun _ => True) (refreshThread net) := by
  refine .bind _ (anything _) (fun _ _ _ => nofun) fun world => ?_
  induction net.rounds world.log with
  | zero => exact .pure
  | succ count ih => exact .bind _ (anything _) (refreshRound_avoids net) fun _ => ih

theorem waitForRefresh_avoids : Avoids NullPointer (fun _ => True) (waitForRefresh (net.servers address)) := by
  have await : ∀ nRetry, Avoids NullPointer (fun _ => True) (awaitValid (net.servers address) nRetry) := by
    intro nRetry
    induction nRetry with
    | zero => exact .pure
    | succ nRetry ih =>
      exact .bind _ (anything _) (fun _ _ _ => nofun) fun _ => .ite (fun _ => .pure) fun _ =>
        .bind _ (anything _) (refreshThread_avoids net) fun _ => ih
  exact .bind _ (anything _) (fun _ _ _ => nofun) fun _ => .bind _ (anything _) (refreshThread_avoids net) fun _ =>
    .bind _ (anything _) (await _) fun _ => .bind _ (anything _) (refreshThread_avoids net) fun _ =>
      .bind _ (anything _) (fun _ _ _ => nofun) fun _ => .pure

/-- A program follows a null pointer. -/
def Fails {α : Type} (program : Action (Pool ρ) α) (source : World (Pool ρ)) : Prop :=
  ∃ fault, NullPointer fault ∧ program source = .error fault

/-- Each command has a server. -/
def Owned (vecCmd : List ℕ) (world : World (Pool ρ)) : Prop :=
  ∀ command ∈ vecCmd, matchedServer (net.servers address) world command ≠ none

/-- Each command has a server at the start of the flush and, if there is one, of its retry. -/
def OwnedInFlush (vecCmd : List ℕ) (world : World (Pool ρ)) : Prop :=
  Owned net address vecCmd world ∧ ∀ first refreshed,
    flushCommand (net.servers address) vecCmd world = .ok (.rqstErr, first) → first.client.bCluster = true →
    waitForRefresh (net.servers address) first = .ok (true, refreshed) → Owned net address vecCmd refreshed

theorem not_fails_of_ok {α : Type} {program : Action (Pool ρ) α} {source : World (Pool ρ)} {result : α × World (Pool ρ)}
    (ran : program source = .ok result) : ¬ Fails program source := by
  rintro ⟨fault, -, failed⟩
  cases ran.symm.trans failed

theorem fails_bind_of_ok {α β : Type} {first : Action (Pool ρ) α} {next : α → Action (Pool ρ) β}
    {source middle : World (Pool ρ)} {value : α} (ran : first source = .ok (value, middle)) :
    Fails (first >>= next) source ↔ Fails (next value) middle := by
  rw [Fails, Fails, bind_of_ok ran]

theorem requestAll_returns {mapCmd : List (Option ℕ × List ℕ)} (owned : ∀ entry ∈ mapCmd, entry.1 ≠ none) :
    Obeys (Transmissions.Sends Set.univ) (requestAll (net.servers address) mapCmd) := by
  induction mapCmd with
  | nil => exact .pure _
  | cons entry mapCmd ih =>
    obtain ⟨_ | serv, vecCmd⟩ := entry
    · exact absurd rfl (owned _ List.mem_cons_self)
    · exact .bind (servRequests_sends net serv fun _ _ => Set.mem_univ _) fun nRet =>
        .ite (ih fun other member => owned other (List.mem_cons_of_mem _ member)) (.pure _)

theorem flushCommand_returns {vecCmd : List ℕ} {source : World (Pool ρ)} (owned : Owned net address vecCmd source) :
    ∃ nRet target, flushCommand (net.servers address) vecCmd source = .ok (nRet, target) := by
  have served : ∀ entry ∈ groupCmds (net.servers address) source vecCmd, entry.1 ≠ none := by
    intro entry member isNone
    have grouped := groupCmds_grouped (net.servers address) source vecCmd
    obtain ⟨command, inCmd, unowned⟩ := (grouped.keys none).mp (List.mem_map.mpr ⟨entry, member, isNone⟩)
    exact owned command inCmd unowned
  obtain ⟨nRet, target, ran, -⟩ := requestAll_returns net address served source
  exact ⟨nRet, target, ran⟩

theorem flushCommand_fails {vecCmd : List ℕ} {source : World (Pool ρ)} (unowned : ¬ Owned net address vecCmd source) :
    flushCommand (net.servers address) vecCmd source = .error .nullServer := by
  simp only [Owned, not_forall, not_not] at unowned
  obtain ⟨command, member, none⟩ := unowned
  obtain ⟨cmds, rest, groups⟩ := groupCmds_head (net.servers address) source member none
  rw [flushCommand, bind_of_ok (get_apply source), groups]
  rfl

theorem flushPipeline_fails_iff (pPipeline : CRedisPipeline) (source : World (Pool ρ)) :
    Fails (flushPipeline (net.servers address) (some pPipeline)) source ↔
      ¬ OwnedInFlush net address pPipeline.vecCmd source := by
  by_cases owned : Owned net address pPipeline.vecCmd source
  swap
  · have failed := flushCommand_fails net address owned
    exact iff_of_true ⟨_, .inl rfl, bind_of_error failed⟩ fun both => owned both.1
  obtain ⟨nRet, first, ranFirst⟩ := flushCommand_returns net address owned
  rw [flushPipeline, fails_bind_of_ok ranFirst]
  split_ifs with failed
  · refine iff_of_false (not_fails_of_ok rfl) (not_not.mpr ⟨owned, fun _ _ does => ?_⟩)
    cases ranFirst.symm.trans does
    exact absurd rfl failed
  rw [fails_bind_of_ok (get_apply first)]
  obtain rfl := not_not.mp failed
  split_ifs with single
  · refine iff_of_false (not_fails_of_ok rfl) (not_not.mpr ⟨owned, fun _ _ does cluster => ?_⟩)
    cases ranFirst.symm.trans does
    rw [cluster] at single
    cases single
  cases ranWait : waitForRefresh (net.servers address) first with
  | error fault =>
    refine iff_of_false ?_ (not_not.mpr ⟨owned, fun _ _ does _ refreshes => ?_⟩)
    · rintro ⟨other, null, failed⟩
      rw [bind_of_error ranWait] at failed
      cases failed
      exact waitForRefresh_avoids net address first trivial fault ranWait null
    · cases ranFirst.symm.trans does
      cases ranWait.symm.trans refreshes
  | ok result =>
    obtain ⟨refreshed, second⟩ := result
    rw [fails_bind_of_ok ranWait]
    cases refreshed with
    | false =>
      refine iff_of_false (not_fails_of_ok rfl) (not_not.mpr ⟨owned, fun _ _ does _ refreshes => ?_⟩)
      cases ranFirst.symm.trans does
      cases ranWait.symm.trans refreshes
    | true =>
      have determined : OwnedInFlush net address pPipeline.vecCmd source ↔
          Owned net address pPipeline.vecCmd second := by
        constructor
        · exact fun both => both.2 first second ranFirst (by simpa using single) ranWait
        · refine fun again => ⟨owned, fun _ _ does _ refreshes => ?_⟩
          cases ranFirst.symm.trans does
          cases ranWait.symm.trans refreshes
          exact again
      rw [determined]
      by_cases again : Owned net address pPipeline.vecCmd second
      · obtain ⟨code, last, ran⟩ := flushCommand_returns net address again
        exact iff_of_false (not_fails_of_ok ran) (not_not.mpr again)
      · exact iff_of_true ⟨_, .inl rfl, flushCommand_fails net address again⟩ again

end

section

variable {ρ α : Type} {source : World (Pool ρ)} {command : ℕ}

theorem convert_error {nRet : ReturnCode} {reply : RedisReply} {funcConv : Convert} {fault : Fault}
    (failed : funcConv.apply nRet reply = .error fault) : fault = .nullField := by
  cases funcConv with
  | stuRes strVal =>
    simp only [Convert.apply] at failed
    split_ifs at failed
    split at failed <;> cases failed
    rfl
  | _ => cases failed

theorem fetchCommand_none (funcFetch : Fetch α) (none : (source.command command).pReply = Option.none) :
    fetchCommand funcFetch command source = .error .nullReply := by
  rw [fetchCommand, bind_of_ok (get_apply source), none]
  rfl

/-- With a reply the result is that of the conversion, if this has one. -/
theorem fetchCommand_some (funcFetch : Fetch α) {reply : RedisReply}
    (stored : (source.command command).pReply = some reply) :
    (∃ nRet, (source.command command).funcConv.apply (funcFetch reply).1 reply = .ok nRet ∧
      fetchCommand funcFetch command source = .ok ((nRet, (funcFetch reply).2), source)) ∨
    (∃ fault, (source.command command).funcConv.apply (funcFetch reply).1 reply = .error fault) ∧
      fetchCommand funcFetch command source = .error .nullField := by
  rw [fetchCommand, bind_of_ok (get_apply source), stored]
  simp only [fetchResult]
  cases converted : (source.command command).funcConv.apply (funcFetch reply).1 reply with
  | error fault =>
    cases convert_error converted
    exact .inr ⟨⟨_, rfl⟩, rfl⟩
  | ok nRet => exact .inl ⟨nRet, rfl, rfl⟩

/-- The replies up to the first one at which a loop ends. -/
def StoredUntil (ends : RedisReply → Bool) (world : World (Pool ρ)) : List ℕ → Prop
  | [] => True
  | command :: vecCmd =>
      match (world.command command).pReply with
      | none => False
      | some reply => ends reply = false → StoredUntil ends world vecCmd

theorem StoredUntil.of_stored {ends : RedisReply → Bool} {vecCmd : List ℕ} {world : World (Pool ρ)}
    (stored : Stored vecCmd world) : StoredUntil ends world vecCmd := by
  induction vecCmd with
  | nil => trivial
  | cons command vecCmd ih =>
    obtain ⟨reply, here⟩ := Option.ne_none_iff_exists'.mp (stored command List.mem_cons_self)
    rw [StoredUntil, here]
    exact fun _ => ih fun other member => stored other (List.mem_cons_of_mem _ member)

/-- A loop over the replies of these commands looks into each one, up to the one at which it ends. -/
def LooksInto (ends : RedisReply → Bool) (vecCmd : List ℕ) (program : Action (Pool ρ) α) (world : World (Pool ρ)) :
    Prop :=
  (StoredUntil ends world vecCmd →
    (∃ value, program world = .ok (value, world)) ∧ Stored vecCmd world ∨ program world = .error .nullField) ∧
  (¬ StoredUntil ends world vecCmd → program world = .error .nullReply)

theorem looksInto_nil {program : Action (Pool ρ) α} {ends : RedisReply → Bool} {value : α}
    (ran : program source = .ok (value, source)) : LooksInto ends [] program source :=
  ⟨fun _ => .inl ⟨⟨value, ran⟩, nofun⟩, fun absent => absurd trivial absent⟩

theorem looksInto_of_none {program : Action (Pool ρ) α} {ends : RedisReply → Bool} {vecCmd : List ℕ}
    (none : (source.command command).pReply = Option.none) (failed : program source = .error .nullReply) :
    LooksInto ends (command :: vecCmd) program source := by
  refine ⟨fun until_ => ?_, fun _ => failed⟩
  rw [StoredUntil, none] at until_
  exact until_.elim

theorem looksInto_of_some {program rest : Action (Pool ρ) α} {ends : RedisReply → Bool} {vecCmd : List ℕ}
    {reply : RedisReply} (stored : (source.command command).pReply = some reply) (goesOn : ends reply = false)
    (same : program source = rest source) (later : LooksInto ends vecCmd rest source) :
    LooksInto ends (command :: vecCmd) program source := by
  have until_ : StoredUntil ends source (command :: vecCmd) ↔ StoredUntil ends source vecCmd := by
    rw [StoredUntil, stored]
    exact ⟨fun all => all goesOn, fun all _ => all⟩
  rw [LooksInto, until_, same]
  refine ⟨fun all => (later.1 all).imp_left fun ⟨ran, rest⟩ => ⟨ran, ?_⟩, later.2⟩
  rintro other (_ | ⟨_, member⟩)
  · rw [stored]
    exact Option.some_ne_none reply
  · exact rest other member

/-- The next fetch, where commands are left. -/
theorem fetchReply_of_drop (funcFetch : Fetch α) {ppLine : CRedisPipeline} {vecCmd : List ℕ}
    (rest : ppLine.vecCmd.drop ppLine.nCursor = command :: vecCmd) :
    (fetchReply funcFetch ppLine : Action (Pool ρ) _) = (do
      let result ← fetchCommand funcFetch command
      return (result, { ppLine with nCursor := ppLine.nCursor + 1 })) ∧
    ppLine.vecCmd.drop (ppLine.nCursor + 1) = vecCmd := by
  have here : ppLine.vecCmd[ppLine.nCursor]? = some command := by rw [← List.head?_drop, rest, List.head?_cons]
  constructor
  · rw [fetchReply.eq_def, here]
  · rw [← List.tail_drop, rest, List.tail_cons]

/-- The next fetch, where none are left. -/
theorem fetchReply_of_end (funcFetch : Fetch α) {ppLine : CRedisPipeline}
    (rest : ppLine.vecCmd.drop ppLine.nCursor = []) :
    (fetchReply funcFetch ppLine : Action (Pool ρ) _) = return ((.resultEof, none), ppLine) := by
  have here : ppLine.vecCmd[ppLine.nCursor]? = none := by rw [← List.head?_drop, rest, List.head?_nil]
  rw [fetchReply.eq_def, here]

theorem fetchGets_looksInto (vecCmd : List ℕ) {ppLine : CRedisPipeline} (strVal : CppString) (pvecVal : List CppString)
    (rest : ppLine.vecCmd.drop ppLine.nCursor = vecCmd)
    (plain : ∀ command ∈ vecCmd, (source.command command).funcConv = .default) :
    LooksInto (fun _ => false) vecCmd (fetchGets ppLine strVal pvecVal (vecCmd.length + 1)) source := by
  induction vecCmd generalizing ppLine strVal pvecVal with
  | nil =>
    have same := fetchReply_of_end (ρ := ρ) fetchString rest
    rw [List.length_nil, fetchGets, same]
    exact looksInto_nil rfl
  | cons command vecCmd ih =>
    obtain ⟨same, rest⟩ := fetchReply_of_drop (ρ := ρ) fetchString rest
    rw [List.length_cons, fetchGets, same]
    cases stored : (source.command command).pReply with
    | none => exact looksInto_of_none stored (bind_of_error (bind_of_error (fetchCommand_none _ stored)))
    | some reply =>
      have next := fun strVal pvecVal => @ih { ppLine with nCursor := ppLine.nCursor + 1 } strVal pvecVal rest
        fun other member => plain other (List.mem_cons_of_mem _ member)
      have conv := plain command List.mem_cons_self
      rcases fetchCommand_some fetchString stored with ⟨nRet, converted, ran⟩ | ⟨⟨fault, failed⟩, -⟩
      · rw [conv] at converted
        cases converted
        have fetched : (do
            let result ← fetchCommand fetchString command
            return (result, { ppLine with nCursor := ppLine.nCursor + 1 })) source = .ok _ := bind_of_ok ran
        cases reply <;> exact looksInto_of_some stored rfl ((bind_of_ok fetched).trans rfl) (next _ _)
      · rw [conv] at failed
        cases failed

/-- A loop that returns found a reply for each command. -/
theorem LooksInto.stored {ends : RedisReply → Bool} {vecCmd : List ℕ} {program : Action (Pool ρ) α}
    (looks : LooksInto ends vecCmd program source) {value : α} {target : World (Pool ρ)}
    (ran : program source = .ok (value, target)) : target = source ∧ Stored vecCmd source := by
  by_cases until_ : StoredUntil ends source vecCmd
  · rcases looks.1 until_ with ⟨⟨_, does⟩, stored⟩ | failed
    · cases does.symm.trans ran
      exact ⟨rfl, stored⟩
    · cases failed.symm.trans ran
  · cases (looks.2 until_).symm.trans ran

/-- A reply to which `StuResConv` has no answer. -/
def isNil : RedisReply → Bool
  | .nil => true
  | _ => false

end

section

variable {ρ : Type} (net : Network ρ) (address : ℕ → ℕ)

theorem flushPipeline_kept (pPipeline : CRedisPipeline) :
    Follows (Kept Set.univ) (flushPipeline (net.servers address) (some pPipeline)) := by
  have flush : Follows (Kept Set.univ) (flushCommand (net.servers address) pPipeline.vecCmd) := fun _ _ _ ran =>
    (requestAll_follows net address _ _ _ _ ran).mono fun _ _ _ => Set.mem_univ _
  exact .bind flush fun nRet => .ite (.pure _) <| .bind .get fun _ => .ite (.pure _) <|
    .bind (waitForRefresh_follows net address) fun _ => .ite flush (.pure _)

/-- Commands from here on, with a conversion, are queued. -/
structure Queued (conv : Convert) (count : ℕ) (source queued : World (Pool ρ)) : Prop
    extends Kept ∅ source queued where
  more : queued.commands = source.commands + count
  conv : ∀ command ∈ List.range' source.commands count, (queued.command command).funcConv = conv

theorem Queued.cons {conv : Convert} {count : ℕ} {source middle queued : World (Pool ρ)}
    (first : Kept ∅ source middle) (next : middle.commands = source.commands + 1)
    (same : (middle.command source.commands).funcConv = conv) (rest : Queued conv count middle queued) :
    Queued conv (count + 1) source queued where
  toKept := first.trans rest.toKept
  more := by rw [rest.more, next, Nat.add_right_comm, Nat.add_assoc]
  conv := by
    intro command member
    rw [List.range'_succ, List.mem_cons, ← next] at member
    rcases member with rfl | later
    · rw [rest.toKept.funcConv _ (by rw [next]; exact Nat.lt_succ_self _), same]
    · exact rest.conv command later

theorem Queued.nil (conv : Convert) (source : World (Pool ρ)) : Queued conv 0 source source :=
  { Kept.rfl' source with more := rfl, conv := fun _ => nofun }

/-- The pipeline of a method that queues this many commands. -/
def queueing (ppLine : CRedisPipeline) (source : World (Pool ρ)) (count : ℕ) : CRedisPipeline :=
  { ppLine with vecCmd := ppLine.vecCmd ++ List.range' source.commands count }

/-- The commands of a pipeline have servers, and after the flush replies up to the one at which a loop ends. -/
def AnsweredInFlush (ends : RedisReply → Bool) (ppLine : CRedisPipeline) (queued : World (Pool ρ)) : Prop :=
  OwnedInFlush net address ppLine.vecCmd queued ∧ ∀ nRet flushed,
    flushPipeline (net.servers address) (some ppLine) queued = .ok (nRet, flushed) →
      StoredUntil ends flushed ppLine.vecCmd

/-- A network that refuses nothing answers the commands for slots that have servers. -/
theorem answeredInFlush_of_faultless (faultless : FaultFree.Faultless net) {slots : Set ℕ}
    {route place : ℕ → CppString × ℤ} {queued : World (Pool ρ)} (steady : FaultFree.Steady slots route queued)
    {ppLine : CRedisPipeline}
    (commands : ∀ command ∈ ppLine.vecCmd, ∃ slot ∈ slots, (queued.command command).nSlot = (slot : ℕ) ∧
      place command = route slot ∧ (queued.command command).args ≠ []) (ends : RedisReply → Bool) :
    AnsweredInFlush net address ends ppLine queued := by
  refine ⟨⟨fun command member unowned => ?_, fun first _ failed => ?_⟩, fun nRet flushed ran => .of_stored ?_⟩
  · obtain ⟨slot, covered, isSlot, -⟩ := commands command member
    obtain ⟨serv, matched, -⟩ := steady.server slot covered
    rw [matchedServer, isSlot] at unowned
    cases (matched _).symm.trans unowned
  · obtain ⟨target, succeeded, -⟩ := FaultFree.flushCommand_ok faultless address steady commands
    cases succeeded.symm.trans failed
  · obtain ⟨target, does, server, log, rfl, -⟩ := FaultFree.flushPipeline_ok faultless address steady commands
    cases does.symm.trans ran
    exact fun command member =>
      FaultFree.answerAll_stored net place (.inl ((mem_groupCmds _ _ _ command).mpr member))

/-- A pipeline is flushed, and a loop goes over its replies. -/
theorem flushed_loop {α : Type} {ends : RedisReply → Bool} (ppLine : CRedisPipeline) {loop : Action (Pool ρ) α}
    {queued : World (Pool ρ)}
    (looks : ∀ flushed, Kept Set.univ queued flushed → LooksInto ends ppLine.vecCmd loop flushed) :
    let program := do
      let _ ← flushPipeline (net.servers address) (some ppLine)
      loop
    (Fails program queued ↔ ¬ AnsweredInFlush net address ends ppLine queued) ∧
      ∀ value target, program queued = .ok (value, target) → Kept Set.univ queued target ∧
        Stored ppLine.vecCmd target := by
  intro program
  have flushFails := flushPipeline_fails_iff net address ppLine queued
  cases ran : flushPipeline (net.servers address) (some ppLine) queued with
  | error fault =>
    have failed : program queued = .error fault := bind_of_error ran
    constructor
    · have same : Fails program queued ↔ Fails (flushPipeline (net.servers address) (some ppLine)) queued := by
        simp only [Fails, failed, ran, Except.error.injEq]
      rw [same, flushFails]
      refine not_congr ⟨fun owned => ⟨owned, fun _ _ does => ?_⟩, fun both => both.1⟩
      cases ran.symm.trans does
    · intro value target does
      cases failed.symm.trans does
  | ok result =>
    obtain ⟨nRet, flushed⟩ := result
    have kept := flushPipeline_kept net address ppLine _ _ _ ran
    have same : program queued = loop flushed := bind_of_ok ran
    have owned := not_not.mp fun unowned => not_fails_of_ok ran (flushFails.mpr unowned)
    have answered : AnsweredInFlush net address ends ppLine queued ↔ StoredUntil ends flushed ppLine.vecCmd := by
      refine ⟨fun both => both.2 nRet flushed ran, fun all => ⟨owned, fun _ _ does => ?_⟩⟩
      cases ran.symm.trans does
      exact all
    obtain ⟨goes, stops⟩ := looks flushed kept
    rw [answered, Fails, same]
    by_cases all : StoredUntil ends flushed ppLine.vecCmd
    · rcases goes all with ⟨⟨value, done⟩, stored⟩ | field
      · refine ⟨iff_of_false ?_ (not_not.mpr all), fun other target does => ?_⟩
        · rintro ⟨fault, -, failed⟩
          cases done.symm.trans failed
        · cases done.symm.trans does
          exact ⟨kept, stored⟩
      · refine ⟨iff_of_false ?_ (not_not.mpr all), fun other target does => ?_⟩
        · rintro ⟨fault, null, failed⟩
          cases field.symm.trans failed
          exact null.elim nofun nofun
        · cases field.symm.trans does
    · refine ⟨iff_of_true ⟨_, .inr rfl, stops all⟩ all, fun other target does => ?_⟩
      cases (stops all).symm.trans does

/-- The pipeline of `Mget` or `Mset`, when all its commands are queued, is answered. -/
def CallAnswered (ends : RedisReply → Bool) (queue : Action (Pool ρ) CRedisPipeline) (world : World (Pool ρ)) : Prop :=
  ∀ ppLine queued, queue world = .ok (ppLine, queued) → AnsweredInFlush net address ends ppLine queued

/-- A method queues commands, flushes them and goes over their replies. -/
theorem call_spec {α : Type} {ends : RedisReply → Bool} {conv : Convert} {count : ℕ}
    {queue : Action (Pool ρ) CRedisPipeline} (loop : CRedisPipeline → Action (Pool ρ) α)
    {source queued : World (Pool ρ)}
    (ranQueue : queue source = .ok (queueing {} source count, queued)) (spec : Queued conv count source queued)
    (looks : ∀ flushed, (∀ command ∈ List.range' source.commands count, (flushed.command command).funcConv = conv) →
      LooksInto ends (List.range' source.commands count) (loop (queueing {} source count)) flushed) :
    let program := do
      let ppLine ← queue
      let _ ← flushPipeline (net.servers address) (some ppLine)
      loop ppLine
    (Fails program source ↔ ¬ CallAnswered net address ends queue source) ∧
      ∀ value target, program source = .ok (value, target) →
        Kept Set.univ source target ∧ Stored (List.range' source.commands count) target := by
  intro program
  have commands : (queueing {} source count).vecCmd = List.range' source.commands count := List.nil_append _
  have all : ∀ flushed, Kept Set.univ queued flushed →
      LooksInto ends (queueing {} source count).vecCmd (loop (queueing {} source count)) flushed := by
    intro flushed kept
    rw [commands]
    refine looks flushed fun command member => ?_
    rw [kept.funcConv command, spec.conv command member]
    rw [spec.more]
    exact (List.mem_range'_1.mp member).2
  obtain ⟨fails, returns⟩ := flushed_loop net address (queueing {} source count) all
  rw [commands] at returns
  have answered : CallAnswered net address ends queue source ↔
      AnsweredInFlush net address ends (queueing {} source count) queued := by
    refine ⟨fun all => all _ _ ranQueue, fun all _ _ does => ?_⟩
    cases ranQueue.symm.trans does
    exact all
  refine ⟨?_, fun value target ran => ?_⟩
  · rw [answered]
    exact (fails_bind_of_ok ranQueue).trans fails
  · obtain ⟨kept, stored⟩ := returns value target ((bind_of_ok ranQueue).symm.trans ran)
    exact ⟨(spec.toKept.mono fun command _ _ => Set.mem_univ command).trans kept, stored⟩

/-- No null server was asked, no field of a null reply was read, and commands without a reply were reported by
negative codes. -/
def Safe (user : PipelineUser (Pool ρ)) : Prop :=
  (∀ fault, user.fault = some fault → ¬ NullPointer fault) ∧ user.silent = false

section

variable {user : PipelineUser (Pool ρ)} {world : World (Pool ρ)} {vecCmd : List ℕ}

end

end

end CppRedis.Soundness.NullPointers
