import CppRedis.Model.RedisClient.Callers
import CppRedis.Machine.Run
import CppRedis.Soundness.Requests
import CppRedis.Soundness.Grouping

/-! # Replies belong to their commands

Replies are told apart only by their order on a connection. Between requests no connection that still
works has an unanswered command, and within a pipelined request the unanswered ones are the commands whose
replies are still to be read. So the reply that a command stores is the one that its own transmission got.
-/

namespace CppRedis.Soundness.Attribution

open Machine Machine.Program Model.RedisClient Model.RedisCpp Requests Grouping

/-- Since the first log, the command was sent, and later answered with the reply. -/
def Answered (since log : List Event) (command : ℕ) (reply : RedisReply) : Prop :=
  ∃ front back, log = since ++ front ++ .reply command reply :: back ∧ .append command true ∈ front

/-- Since the first log, the command was sent. -/
def Sent (since log : List Event) (command : ℕ) : Prop :=
  ∃ events, log = since ++ events ∧ .append command true ∈ events

/-- A connection without unanswered commands, unless it is broken. -/
def Clean (conn : CRedisConnection) : Prop :=
  ∀ context, conn.pContext = some context → context.err = true ∨ context.pending = []

/-- Since the first log, replies come after their commands. -/
def InOrder (since log : List Event) : Prop :=
  ∀ middle command reply, since <+: middle → middle ++ [.reply command reply] <+: log → Sent since middle command

/-- Every stored reply is the answer to the command it is stored in, and idle connections are clean. -/
structure Attributed {ρ : Type} (world : World (Pool ρ)) : Prop where
  replies : ∀ command reply, (world.command command).pReply = some reply → Answered [] world.log command reply
  idle : ∀ serv, ∀ conn ∈ (world.servers.server serv).queIdleConn, Clean conn

/-- The log goes on from the first one, and all replies are attributed. -/
structure Going {ρ : Type} (since : List Event) (world : World (Pool ρ)) : Prop extends Attributed world where
  goes : since <+: world.log
  order : InOrder since world.log

section

variable {since log : List Event} {command : ℕ}

theorem Answered.mono {later : List Event} (grows : log <+: later) {reply : RedisReply}
    (answered : Answered since log command reply) : Answered since later command reply := by
  obtain ⟨front, back, rfl, sent⟩ := answered
  obtain ⟨more, rfl⟩ := grows
  exact ⟨front, back ++ more, by simp only [List.append_assoc, List.cons_append], sent⟩

theorem Answered.start {reply : RedisReply} (answered : Answered since log command reply) :
    Answered [] log command reply := by
  obtain ⟨front, back, rfl, sent⟩ := answered
  exact ⟨since ++ front, back, by rw [List.nil_append], List.mem_append_right _ sent⟩

theorem Sent.mono {later : List Event} (grows : log <+: later) (sent : Sent since log command) :
    Sent since later command := by
  obtain ⟨events, rfl, member⟩ := sent
  obtain ⟨more, rfl⟩ := grows
  exact ⟨events ++ more, by rw [List.append_assoc], List.mem_append_left _ member⟩

theorem Sent.answered (sent : Sent since log command) (reply : RedisReply) :
    Answered since (log ++ [.reply command reply]) command reply := by
  obtain ⟨events, rfl, member⟩ := sent
  exact ⟨events, [], rfl, member⟩

theorem sent_of_append (grows : since <+: log) : Sent since (log ++ [.append command true]) command := by
  obtain ⟨events, rfl⟩ := grows
  exact ⟨events ++ [.append command true], by rw [List.append_assoc],
    List.mem_append_right _ (List.mem_singleton_self _)⟩

theorem Clean.fresh (nUseTime : ℤ) : Clean { nUseTime := nUseTime } := by
  intro context none
  cases none

theorem InOrder.start (log : List Event) : InOrder log log := by
  intro middle command reply grows before
  have short := (before.trans grows).length_le
  rw [List.length_append, List.length_singleton] at short
  omega

theorem InOrder.silent (order : InOrder since log) {events : List Event} (silent : ∀ event ∈ events, Silent event) :
    InOrder since (log ++ events) := by
  intro middle command reply grows before
  rcases List.prefix_or_prefix_of_prefix before (List.prefix_append log events) with inLog | beyond
  · exact order middle command reply grows inLog
  · rcases List.prefix_concat_iff.mp beyond with same | inMiddle
    · rw [same] at order
      exact order middle command reply grows (List.prefix_refl _)
    · obtain ⟨more, rfl⟩ := inMiddle
      rw [List.append_assoc, List.prefix_append_right_inj] at before
      have member := before.subset (List.mem_append_right more (List.mem_singleton_self _))
      exact absurd rfl (silent _ member command reply)

theorem InOrder.reply (order : InOrder since log) (sent : Sent since log command) (reply : RedisReply) :
    InOrder since (log ++ [.reply command reply]) := by
  intro middle other answer grows before
  rcases List.prefix_concat_iff.mp before with same | inLog
  · obtain ⟨rfl, last⟩ := List.append_inj' same rfl
    cases List.singleton_inj.mp last
    exact sent
  · exact order middle other answer grows inLog

end

section

variable {ρ : Type} {source target : World (Pool ρ)} {since : List Event}

theorem Attributed.going (attributed : Attributed source) : Going source.log source :=
  { attributed with goes := List.prefix_refl _, order := .start _ }

/-- A longer log without new replies. -/
theorem Going.of_log (going : Going since source) {events : List Event} (grows : target.log = source.log ++ events)
    (silent : ∀ event ∈ events, Silent event) (same : target.command = source.command)
    (servers : target.servers.server = source.servers.server) : Going since target where
  replies command reply stored := by
    rw [same] at stored
    rw [grows]
    exact (going.replies command reply stored).mono (List.prefix_append _ _)
  idle serv conn member := by
    rw [servers] at member
    exact going.idle serv conn member
  goes := by
    rw [grows]
    exact going.goes.trans (List.prefix_append _ _)
  order := by
    rw [grows]
    exact going.order.silent silent

theorem Going.same (going : Going since source) (log : target.log = source.log) (same : target.command = source.command)
    (servers : target.servers.server = source.servers.server) : Going since target :=
  going.of_log (by rw [log, List.append_nil]) (fun event member => absurd member List.not_mem_nil) same servers

theorem Going.note (going : Going since source) {event : Event} (silent : Silent event) :
    Going since (source.note event) :=
  going.of_log rfl (fun other member => by rw [List.mem_singleton.mp member]; exact silent) rfl rfl

theorem Going.of_logged (going : Going since source) (logged : Logged source target) : Going since target := by
  obtain ⟨events, rfl, silent⟩ := logged
  exact going.of_log rfl silent rfl rfl

/-- The reply to a command that was sent. -/
theorem Going.reply (going : Going since source) {command : ℕ} (sent : Sent since source.log command)
    {reply : RedisReply} (grows : target.log = source.log ++ [.reply command reply])
    (same : target.command = source.command) (servers : target.servers.server = source.servers.server) :
    Going since target where
  replies other stored here := by
    rw [same] at here
    rw [grows]
    exact (going.replies other stored here).mono (List.prefix_append _ _)
  idle serv conn member := by
    rw [servers] at member
    exact going.idle serv conn member
  goes := by
    rw [grows]
    exact going.goes.trans (List.prefix_append _ _)
  order := by
    rw [grows]
    exact going.order.reply sent reply

theorem Going.setReply (going : Going since source) (command : ℕ) (reply : Option RedisReply)
    (answered : ∀ stored, reply = some stored → Answered since source.log command stored) :
    Going since (source.setReply command reply) where
  replies other stored here := by
    by_cases same : other = command
    · subst other
      simp only [World.setReply, Function.update_self] at here
      exact (answered stored here).start
    · simp only [World.setReply, Function.update_of_ne same] at here
      exact going.replies other stored here
  idle := going.idle
  goes := going.goes
  order := going.order

theorem Going.modifyServer (going : Going since source) (serv : ℕ) {change : CRedisServer → CRedisServer}
    (idle : ∀ conn ∈ (change (source.servers.server serv)).queIdleConn, Clean conn) :
    Going since { source with servers := { source.servers with
      server := Function.update source.servers.server serv (change (source.servers.server serv)) } } where
  replies := going.replies
  idle other conn member := by
    by_cases same : other = serv
    · subst other
      simp only [Function.update_self] at member
      exact idle conn member
    · simp only [Function.update_of_ne same] at member
      exact going.idle other conn member
  goes := going.goes
  order := going.order

end

section

variable {ρ : Type} (net : Network ρ) {since : List Event}

theorem modifyServer_going (serv : ℕ) {change : CRedisServer → CRedisServer}
    (idle : ∀ server conn, conn ∈ (change server).queIdleConn → conn ∈ server.queIdleConn) :
    Ensures (Going (ρ := ρ) since) (modifyServer serv change) fun _ => Going since :=
  .update fun _ attributed => attributed.modifyServer serv fun conn member =>
    attributed.idle serv conn (idle _ conn member)

theorem connectToRedis_clean (strHost : CppString) (nPort : ℤ) (conn : CRedisConnection) :
    Ensures (Going since) (CRedisConnection.connectToRedis net strHost nPort conn)
      fun result world => Going since world ∧ Clean result.2 := by
  intro source attributed _ _ ran
  refine ⟨attributed.of_logged (connectToRedis_logged net _ _ _ _ _ _ ran), ?_⟩
  obtain ⟨connected, middle, ranConnect, ranRest⟩ := bind_eq_ok_iff.mp ran
  cases ranConnect
  cases decided : net.connect source.log (strHost, nPort) with
  | true =>
    simp only [decided, ↓reduceIte] at ranRest
    cases ranRest
    intro context same
    cases same
    exact .inr rfl
  | false =>
    simp only [decided, Bool.false_eq_true, ↓reduceIte] at ranRest
    cases ranRest
    exact Clean.fresh _

theorem connectToAny_clean (serv : ℕ) (vecHosts : List (CppString × ℤ)) (conn : CRedisConnection) :
    Ensures (fun world => Going since world ∧ Clean conn) (CRedisConnection.connectToAny net serv conn vecHosts)
      fun result world => Going since world ∧ Clean result.2 := by
  induction vecHosts generalizing conn with
  | nil =>
    refine .bind _ (.and_fact (modifyServer_going serv ?_) _) fun _ => .pure fun _ here => here
    exact fun _ _ member => member
  | cons hostPair vecHosts ih =>
    refine .bind _ ((connectToRedis_clean net _ _ _).strengthen_pre fun _ here => here.1) fun connected => ?_
    refine .ite (fun _ => ?_) fun _ => ih _
    refine .bind _ (.and_fact (modifyServer_going serv ?_) _) fun _ => .pure fun _ here => here
    exact fun _ _ member => member

theorem reconnect_clean (serv : ℕ) (conn : CRedisConnection) :
    Ensures (fun world => Going since world ∧ Clean conn) (CRedisConnection.reconnect net serv conn)
      fun result world => Going since world ∧ Clean result.2 := by
  refine .get_then fun world => .ite (fun _ => connectToAny_clean net serv _ conn) fun _ => ?_
  refine .bind _ ((connectToRedis_clean net _ _ _).strengthen_pre fun _ here => here.1) fun connected => ?_
  exact .ite (fun _ => .pure fun _ here => here) fun _ => connectToAny_clean net serv _ _

theorem refreshIdle_clean (serv : ℕ) (tmNow : ℤ) (conn : CRedisConnection) :
    Ensures (fun world => Going since world ∧ Clean conn) (CRedisConnection.refreshIdle net serv tmNow conn)
      fun result world => Going since world ∧ Clean result.2 :=
  .get_then fun _ => .ite (fun _ => reconnect_clean net serv conn) fun _ => .pure fun _ here => here

/-- The context is broken, or its unanswered commands are these, all sent since the first log. -/
def Pending (since : List Event) (commands : List ℕ) (context : RedisContext) (world : World (Pool ρ)) : Prop :=
  context.err = true ∨
    context.pending.map Prod.fst = commands ∧ ∀ command ∈ commands, Sent since world.log command

theorem Pending.clean {since : List Event} {context : RedisContext} {world : World (Pool ρ)}
    (pending : Pending since [] context world) (nUseTime : ℤ) :
    Clean { pContext := some context, nUseTime := nUseTime } := by
  intro other same
  cases same
  exact pending.imp id fun unanswered => List.map_eq_nil_iff.mp unanswered.1

theorem Clean.pending {conn : CRedisConnection} (clean : Clean conn) {context : RedisContext}
    (same : conn.pContext = some context) (since : List Event) (world : World (Pool ρ)) :
    Pending since [] context world :=
  (clean context same).imp id fun none => ⟨by rw [none, List.map_nil], nofun⟩

/-- An append puts its command behind the unanswered ones, or breaks the context. -/
theorem redisAppendCommandArgv_pending (since : List Event) (commands : List ℕ) (context : RedisContext)
    (command : ℕ) :
    Ensures (fun world => Going since world ∧ Pending since commands context world)
      (redisAppendCommandArgv net context command)
      fun result world => Going since world ∧ Pending since (commands ++ [command]) result.2 world ∧
        (result.1 = false → result.2.err = true) := by
  rintro source ⟨going, pending⟩ value target ran
  rcases redisAppendCommandArgv_cases net context command source with
    ⟨broken, does⟩ | ⟨works, does⟩ | ⟨works, does⟩
  · cases does.symm.trans ran
    exact ⟨going, .inl broken, fun _ => broken⟩
  · cases does.symm.trans ran
    have grows : source.log <+: source.log ++ [.append command true] := List.prefix_append _ _
    refine ⟨going.note nofun, .inr ?_, nofun⟩
    obtain ⟨unanswered, sent⟩ := pending.resolve_left (by rw [works]; exact Bool.false_ne_true)
    refine ⟨by rw [List.map_append, unanswered, List.map_singleton], fun other member => ?_⟩
    rcases List.mem_append.mp member with earlier | here
    · exact (sent other earlier).mono grows
    · rw [List.mem_singleton.mp here]
      exact sent_of_append going.goes
  · cases does.symm.trans ran
    exact ⟨going.note nofun, .inl rfl, fun _ => rfl⟩

/-- A reply answers the first unanswered command, or the context breaks. -/
theorem redisGetReply_pending (since : List Event) (command : ℕ) (commands : List ℕ) (context : RedisContext) :
    Ensures (fun world => Going since world ∧ Pending since (command :: commands) context world)
      (redisGetReply net context)
      fun result world => Going since world ∧ Pending since commands result.2 world ∧
        (result.1 = none → result.2.err = true) ∧
        ∀ reply, result.1 = some reply → Answered since world.log command reply := by
  rintro source ⟨going, pending⟩ value target ran
  rcases redisGetReply_cases net context source with
    ⟨broken, does⟩ | ⟨works, first, args, rest, unanswered, _, does⟩ | ⟨works, done, _, does⟩
  · cases does.symm.trans ran
    exact ⟨going, .inl broken, fun _ => broken, nofun⟩
  · cases does.symm.trans ran
    obtain ⟨names, sent⟩ := pending.resolve_left (by rw [works]; exact Bool.false_ne_true)
    rw [unanswered, List.map_cons, List.cons.injEq] at names
    obtain ⟨rfl, names⟩ := names
    refine ⟨going.reply (sent first List.mem_cons_self) rfl rfl rfl, .inr ⟨names, fun other member => ?_⟩, nofun, ?_⟩
    · exact (sent other (List.mem_cons_of_mem _ member)).mono (List.prefix_append _ _)
    · intro reply same
      cases same
      exact (sent first List.mem_cons_self).answered _
  · cases does.symm.trans ran
    have noted : Going since (source.note (.lost done.length)) := going.note nofun
    exact ⟨noted.same rfl rfl rfl, .inl rfl, fun _ => rfl, nofun⟩

/-- A single command on a clean connection gets its own reply, and leaves the connection clean. -/
theorem cmdRequest_clean (command : ℕ) (conn : CRedisConnection) (nUseTime : ℤ) :
    Ensures (fun world => Going since world ∧ Clean conn) (CRedisCommand.cmdRequest net command conn.pContext)
      fun result world => Going since world ∧ Clean { pContext := result.2, nUseTime := nUseTime } := by
  have same : Clean conn → Clean { pContext := conn.pContext, nUseTime := nUseTime } := id
  refine .get_then fun _ => .ite (fun _ => .pure fun _ here => ⟨here.1, same here.2⟩) fun _ => ?_
  cases held : conn.pContext with
  | none => exact .pure fun _ here => ⟨here.1, Clean.fresh nUseTime⟩
  | some context =>
    refine .bind (fun _ world => Going since world ∧ Pending since [] context world) (.update fun source here => ?_)
      fun _ => ?_
    · exact ⟨here.1.setReply command none nofun, here.2.pending held _ _⟩
    · refine .bind (fun result world => Going since world ∧ Pending since [] result.2 world ∧
        ∀ reply, result.1 = some reply → Answered since world.log command reply) ?_ fun sent => ?_
      · refine .bind _ (redisAppendCommandArgv_pending net since [] context command) fun taken => .ite (fun _ => ?_)
          fun refused => .pure fun _ here => ⟨here.1, .inl (here.2.2 (Bool.eq_false_iff.mpr refused)),
            nofun⟩
        exact (redisGetReply_pending net since command [] _).weaken (fun _ here => ⟨here.1, here.2.1⟩)
          fun _ _ here => ⟨here.1, here.2.1, here.2.2.2⟩
      · refine .bind (fun _ world => Going since world ∧ Clean { pContext := some sent.2, nUseTime := nUseTime })
          (.update fun source here => ?_) fun _ => .pure fun _ here => here
        exact ⟨here.1.setReply command sent.1 here.2.2, here.2.1.clean nUseTime⟩

theorem connRequest_clean (serv command : ℕ) (conn : CRedisConnection) :
    Ensures (fun world => Going since world ∧ Clean conn) (CRedisConnection.connRequest net serv command conn)
      fun result world => Going since world ∧ Clean result.2 := by
  have clock : Ensures (fun world : World (Pool ρ) => Going since world ∧ Clean conn) (time net)
      fun _ world => Going since world ∧ Clean conn :=
    .and_fact ((time_logged net).ensures fun _ _ logged here => here.of_logged logged) _
  refine .bind _ clock fun tmNow => .bind _ (refreshIdle_clean net serv tmNow conn) fun ready => ?_
  refine .ite (fun _ => .pure fun _ here => here) fun _ => ?_
  refine .bind _ (cmdRequest_clean net command ready.2 ready.2.nUseTime) fun first => .ite (fun _ => ?_)
    fun _ => .pure fun _ here => here
  refine .get_then fun _ => .ite (fun _ => .pure fun _ here => here) fun _ => ?_
  refine .bind _ (reconnect_clean net serv _) fun again => .ite (fun _ => .pure fun _ here => here) fun _ => ?_
  exact .bind _ (cmdRequest_clean net command again.2 again.2.nUseTime) fun second => .pure fun _ here => here

/-- The commands exist and have at least their names as words. -/
def Worded {σ : Type} (commands : List ℕ) (world : World σ) : Prop :=
  ∀ command ∈ commands, command < world.commands ∧ (world.command command).args ≠ []

theorem Worded.of_kept {σ : Type} {commands : List ℕ} {C : Set ℕ} {source target : World σ}
    (kept : Kept C source target) (worded : Worded commands source) : Worded commands target := by
  intro command member
  obtain ⟨bound, words⟩ := worded command member
  exact ⟨lt_of_lt_of_le bound kept.commands, by rw [kept.args command bound]; exact words⟩

/-- Since the first log the command got an answer, and it is the stored one. -/
def Replied (since : List Event) (world : World (Pool ρ)) (command : ℕ) : Prop :=
  ∃ reply, (world.command command).pReply = some reply ∧ Answered since world.log command reply

theorem cmdAppend_pending (since : List Event) (commands : List ℕ) (context : RedisContext) (command : ℕ) :
    Ensures (fun world => Going since world ∧ Pending since commands context world ∧ Worded [command] world)
      (CRedisCommand.cmdAppend net command (some context))
      fun result world => Going since world ∧ ∃ after, result.2 = some after ∧
        (result.1 = .success ∧ Pending since (commands ++ [command]) after world ∨
          result.1 ≠ .success ∧ after.err = true) := by
  refine .bind _ .get fun world => .ite (fun empty => .pure fun source here => ?_) fun _ => ?_
  · obtain ⟨rfl, -, -, worded⟩ := here
    exact absurd (List.length_eq_zero_iff.mp (Nat.le_zero.mp empty)) (worded command (List.mem_singleton_self _)).2
  · refine .bind _ ((redisAppendCommandArgv_pending net since commands context command).strengthen_pre
      fun _ here => ⟨here.2.1, here.2.2.1⟩) fun taken => .pure fun source here => ?_
    refine ⟨here.1, taken.2, rfl, ?_⟩
    cases sent : taken.1 with
    | true => exact .inl ⟨rfl, here.2.1⟩
    | false => exact .inr ⟨by simp, here.2.2 sent⟩

theorem cmdReply_pending (since : List Event) (command : ℕ) (commands : List ℕ) (context : RedisContext) :
    Ensures (fun world => Going since world ∧ Pending since (command :: commands) context world)
      (CRedisCommand.cmdReply net command context)
      fun result world => Going since world ∧ Pending since commands result.2 world ∧
        (result.1 = .success ∧ Replied since world command ∨ result.1 ≠ .success ∧ result.2.err = true) := by
  refine .bind (fun _ world => Going since world ∧ Pending since (command :: commands) context world)
    (.update fun source here => ⟨here.1.setReply command none (by rintro _ ⟨⟩), here.2⟩) fun _ => ?_
  refine .bind _ (redisGetReply_pending net since command commands context) fun got => ?_
  refine .bind (fun _ world => Going since world ∧ Pending since commands got.2 world ∧
      (got.1 = none → got.2.err = true) ∧ ∀ reply, got.1 = some reply → Replied since world command)
    (.update fun source here => ?_) fun _ => .pure fun source here => ⟨here.1, here.2.1, ?_⟩
  · refine ⟨here.1.setReply command got.1 here.2.2.2, here.2.1, here.2.2.1, fun reply same => ⟨reply, ?_, ?_⟩⟩
    · simp only [World.setReply, Function.update_self, same]
    · exact here.2.2.2 reply same
  · cases answer : got.1 with
    | none => exact .inr ⟨by rintro ⟨⟩, here.2.2.1 answer⟩
    | some reply => exact .inl ⟨rfl, here.2.2.2 reply answer⟩

/-- The first loop leaves exactly the commands unanswered, or breaks the context. -/
theorem appendAll_pending (since : List Event) (vecRedisCmd commands : List ℕ) (context : RedisContext) :
    Ensures (fun world => Going since world ∧ Pending since commands context world ∧ Worded vecRedisCmd world)
      (CRedisConnection.appendAll net (some context) vecRedisCmd)
      fun result world => Going since world ∧ ∃ after, result.2 = some after ∧
        (result.1 = .success ∧ Pending since (commands ++ vecRedisCmd) after world ∨
          result.1 ≠ .success ∧ after.err = true) := by
  induction vecRedisCmd generalizing commands context with
  | nil => exact .pure fun _ here => ⟨here.1, context, rfl, .inl ⟨rfl, by rw [List.append_nil]; exact here.2.1⟩⟩
  | cons command vecRedisCmd ih =>
    rintro source ⟨going, pending, worded⟩ value target ran
    obtain ⟨⟨nRet, pContext⟩, middle, ranFirst, ranRest⟩ := bind_eq_ok_iff.mp ran
    have first : Worded [command] source := fun other member =>
      worded other (by rw [List.mem_singleton.mp member]; exact List.mem_cons_self)
    have footprint := cmdAppend_follows (S := ∅) (C := ∅) net command (some context) _ _ _ ranFirst
    obtain ⟨going, after, same, outcome⟩ :=
      cmdAppend_pending net since commands context command source ⟨going, pending, first⟩ _ _ ranFirst
    obtain rfl : pContext = some after := same
    rcases outcome with ⟨success, pending⟩ | ⟨failed, broken⟩
    · obtain rfl : nRet = .success := success
      have later : Worded vecRedisCmd middle := Worded.of_kept footprint.toKept fun other member =>
        worded other (List.mem_cons_of_mem _ member)
      have rest := ih (commands ++ [command]) after middle ⟨going, pending, later⟩ value target ranRest
      rwa [List.append_assoc] at rest
    · dsimp only at ranRest
      rw [if_neg failed] at ranRest
      cases ranRest
      exact ⟨going, after, rfl, .inr ⟨failed, broken⟩⟩

/-- The second loop gives each command its own reply, or breaks the context. -/
theorem replyAll_pending (since : List Event) (vecRedisCmd : List ℕ) (context : RedisContext) :
    Ensures (fun world => Going since world ∧ Pending since vecRedisCmd context world ∧ Worded vecRedisCmd world)
      (CRedisConnection.replyAll net context vecRedisCmd)
      fun result world => Going since world ∧ Pending since [] result.2 world ∧
        (result.1 = .success → ∀ command ∈ vecRedisCmd, Replied since world command) := by
  induction vecRedisCmd generalizing context with
  | nil => exact .pure fun _ here => ⟨here.1, here.2.1, fun _ => nofun⟩
  | cons command vecRedisCmd ih =>
    rintro source ⟨going, pending, worded⟩ value target ran
    obtain ⟨⟨nRet, after⟩, middle, ranFirst, ranRest⟩ := bind_eq_ok_iff.mp ran
    have bound := (worded command List.mem_cons_self).1
    have footprint := cmdReply_follows (S := ∅) net (Set.mem_singleton command) context _ _ _ ranFirst
    obtain ⟨going, pending, outcome⟩ :=
      cmdReply_pending net since command vecRedisCmd context source ⟨going, pending⟩ _ _ ranFirst
    rcases outcome with ⟨success, replied⟩ | ⟨failed, broken⟩
    · obtain rfl : nRet = .success := success
      have later : Worded vecRedisCmd middle := Worded.of_kept footprint.toKept fun other member =>
        worded other (List.mem_cons_of_mem _ member)
      obtain ⟨going, pending, rest⟩ := ih after middle ⟨going, pending, later⟩ value target ranRest
      refine ⟨going, pending, fun success other member => ?_⟩
      by_cases inRest : other ∈ vecRedisCmd
      · exact rest success other inRest
      · obtain rfl : other = command := (List.mem_cons.mp member).resolve_right inRest
        have kept := replyAll_follows (S := ∅) (C := {c | c ∈ vecRedisCmd}) net vecRedisCmd
          (fun _ => id) after _ _ _ ranRest
        obtain ⟨reply, stored, answered⟩ := replied
        refine ⟨reply, ?_, answered.mono kept.log⟩
        rw [kept.command other (lt_of_lt_of_le bound footprint.commands) inRest, stored]
    · dsimp only at ranRest
      rw [if_neg failed] at ranRest
      cases ranRest
      exact ⟨going, .inl broken, fun success => absurd success failed⟩

/-- Without a context nothing can be appended. -/
theorem appendAll_none (vecRedisCmd : List ℕ) {source target : World (Pool ρ)}
    {value : ReturnCode × Option RedisContext}
    (ran : CRedisConnection.appendAll net none vecRedisCmd source = .ok (value, target)) :
    value.2 = none ∧ target = source ∧ (value.1 = .success → vecRedisCmd = []) := by
  cases vecRedisCmd with
  | nil =>
    cases ran
    exact ⟨rfl, rfl, fun _ => rfl⟩
  | cons command vecRedisCmd =>
    have refused : ∃ nRet, nRet ≠ .success ∧
        CRedisCommand.cmdAppend net command none source = .ok ((nRet, none), source) := by
      by_cases empty : (source.command command).args.length ≤ 0
      · exact ⟨.paramErr, nofun, by
          simp only [CRedisCommand.cmdAppend, bind_apply, get_apply, empty, ↓reduceIte, pure_apply]⟩
      · exact ⟨.rqstErr, nofun, by
          simp only [CRedisCommand.cmdAppend, bind_apply, get_apply, empty, ↓reduceIte, pure_apply]⟩
    obtain ⟨nRet, failed, does⟩ := refused
    rw [CRedisConnection.appendAll, bind_of_ok does] at ran
    dsimp only at ran
    rw [if_neg failed] at ran
    cases ran
    exact ⟨rfl, rfl, fun success => absurd success failed⟩

/-- A pipelined request that succeeds has every command answered, and leaves the connection clean. -/
theorem connRequests_clean (since : List Event) (serv : ℕ) (vecRedisCmd : List ℕ) (conn : CRedisConnection) :
    Ensures (fun world => (Going since world ∧ Clean conn) ∧ Worded vecRedisCmd world)
      (CRedisConnection.connRequests net serv vecRedisCmd conn)
      fun result world => Going since world ∧ Clean result.2 ∧
        (result.1 = .success → ∀ command ∈ vecRedisCmd, Replied since world command) := by
  rintro source ⟨⟨going, clean⟩, worded⟩ value target ran
  obtain ⟨tmNow, clocked, ranTime, ran⟩ := bind_eq_ok_iff.mp ran
  have going := going.of_logged (time_logged net _ _ _ ranTime)
  have worded := worded.of_kept (time_follows (S := ∅) (C := ∅) net _ _ _ ranTime).toKept
  obtain ⟨⟨ready, conn'⟩, started, ranReady, ran⟩ := bind_eq_ok_iff.mp ran
  have footprint := refreshIdle_follows (C := ∅) net (Set.mem_singleton serv) tmNow conn _ _ _ ranReady
  obtain ⟨going, clean⟩ := refreshIdle_clean net serv tmNow conn clocked ⟨going, clean⟩ _ _ ranReady
  have worded := worded.of_kept footprint.toKept
  cases ready with
  | false =>
    cases ran
    exact ⟨going, clean, nofun⟩
  | true =>
    obtain ⟨⟨nRet, pContext⟩, appended, ranAppend, ran⟩ := bind_eq_ok_iff.mp ran
    have kept := (appendAll_follows (S := ∅) (C := ∅) net vecRedisCmd _ _ _ _ ranAppend).toKept
    cases held : conn'.pContext with
    | none =>
      rw [held] at ranAppend
      obtain ⟨none, rfl, empty⟩ := appendAll_none net vecRedisCmd ranAppend
      obtain rfl : pContext = Option.none := none
      cases nRet
      all_goals
        cases ran
        exact ⟨going, Clean.fresh _, fun success command member => by rw [empty success] at member; cases member⟩
    | some context =>
      rw [held] at ranAppend
      obtain ⟨going, after, same, outcome⟩ := appendAll_pending net since vecRedisCmd [] context started
        ⟨going, clean.pending held _ _, worded⟩ _ _ ranAppend
      obtain rfl : pContext = some after := same
      rcases outcome with ⟨success, pending⟩ | ⟨failed, broken⟩
      · obtain rfl : nRet = .success := success
        obtain ⟨⟨nRet, last⟩, replied, ranReply, ran⟩ := bind_eq_ok_iff.mp ran
        obtain ⟨going, pending, all⟩ := replyAll_pending net since vecRedisCmd after appended
          ⟨going, pending, worded.of_kept kept⟩ _ _ ranReply
        cases ran
        exact ⟨going, pending.clean _, all⟩
      · have ends : target = appended ∧ value = (nRet, { conn' with pContext := some after }) := by
          cases nRet
          case success => exact absurd rfl failed
          all_goals
            cases ran
            exact ⟨rfl, rfl⟩
        obtain ⟨rfl, rfl⟩ := ends
        exact ⟨going, (show Pending since [] after target from .inl broken).clean _,
          fun success => absurd success failed⟩

theorem fetchConnection_clean (serv : ℕ) :
    Ensures (Going (ρ := ρ) since) (CRedisServer.fetchConnection serv)
      fun fetched world => Going since world ∧ ∀ conn, fetched = some conn → Clean conn := by
  intro source attributed value target ran
  simp only [CRedisServer.fetchConnection, bind_apply, get_apply] at ran
  cases idle : (source.servers.server serv).queIdleConn with
  | nil =>
    rw [idle] at ran
    cases ran
    exact ⟨attributed, nofun⟩
  | cons conn rest =>
    rw [idle] at ran
    cases ran
    have member : ∀ other ∈ conn :: rest, Clean other := by
      rw [← idle]
      exact attributed.idle serv
    refine ⟨@Going.modifyServer _ _ _ attributed serv (fun server => { server with queIdleConn := rest })
      fun other inside => member other (List.mem_cons_of_mem _ inside), fun other same => ?_⟩
    cases same
    exact member conn List.mem_cons_self

theorem returnConnection_clean (serv : ℕ) (conn : CRedisConnection) :
    Ensures (fun world : World (Pool ρ) => Going since world ∧ Clean conn) (CRedisServer.returnConnection serv conn)
      fun _ => Going since := by
  refine .update fun source here => @Going.modifyServer _ _ _ here.1 serv
    (fun server => { server with queIdleConn := server.queIdleConn ++ [conn] }) fun other member => ?_
  rcases List.mem_append.mp member with idle | returned
  · exact here.1.idle serv other idle
  · rw [List.mem_singleton.mp returned]
    exact here.2

theorem awaitConnection_clean (serv : ℕ) (nTry : ℕ) :
    Ensures (Going (ρ := ρ) since) (CRedisServer.awaitConnection serv nTry)
      fun fetched world => Going since world ∧ ∀ conn, fetched = some conn → Clean conn := by
  induction nTry with
  | zero => exact .pure fun _ here => ⟨here, nofun⟩
  | succ nTry ih =>
    refine .bind _ (fetchConnection_clean serv) fun fetched => ?_
    cases fetched with
    | none => exact ih.strengthen_pre fun _ here => here.1
    | some conn => exact .pure fun _ here => here

theorem servRequest_going (serv command : ℕ) :
    Ensures (Going since) (CRedisServer.servRequest net serv command) fun _ => Going since := by
  refine .bind _ (awaitConnection_clean serv _) fun fetched => ?_
  cases fetched with
  | none => exact .pure fun _ here => here.1
  | some conn =>
    refine .bind _ ((connRequest_clean net serv command conn).strengthen_pre fun _ here => ⟨here.1, here.2 conn rfl⟩)
      fun result => ?_
    exact .bind _ (returnConnection_clean serv _) fun _ => .pure fun _ here => here

/-- The pipelined request on a server: on success every command has its answer. -/
theorem servRequests_going (since : List Event) (serv : ℕ) (vecRedisCmd : List ℕ) :
    Ensures (fun world => Going since world ∧ Worded vecRedisCmd world) (CRedisServer.servRequests net serv vecRedisCmd)
      fun nRet world => Going since world ∧
        (nRet = .success → ∀ command ∈ vecRedisCmd, Replied since world command) := by
  rintro source ⟨going, worded⟩ value target ran
  obtain ⟨fetched, held, ranFetch, ran⟩ := bind_eq_ok_iff.mp ran
  have footprint := awaitConnection_follows (C := ∅) (Set.mem_singleton serv) _ _ _ _ ranFetch
  obtain ⟨going, clean⟩ := awaitConnection_clean serv _ source going _ _ ranFetch
  cases fetched with
  | none =>
    cases ran
    exact ⟨going, nofun⟩
  | some conn =>
    obtain ⟨⟨nRet, conn'⟩, requested, ranRequest, ran⟩ := bind_eq_ok_iff.mp ran
    obtain ⟨going, clean, replied⟩ := connRequests_clean net since serv vecRedisCmd conn held
      ⟨⟨going, clean conn rfl⟩, worded.of_kept footprint.toKept⟩ _ _ ranRequest
    obtain ⟨_, returned, ranReturn, ran⟩ := bind_eq_ok_iff.mp ran
    have returned := returnConnection_clean serv conn' requested ⟨going, clean⟩ _ _ ranReturn
    cases ranReturn
    cases ran
    exact ⟨returned, replied⟩

theorem newCommand_going {redisCmd : CRedisCommand} (fresh : redisCmd.pReply = none) :
    Ensures (Going (ρ := ρ) since) (newCommand redisCmd) fun _ => Going since := by
  intro source going value target ran
  cases ran
  refine { going with replies := fun command reply stored => ?_ }
  by_cases same : command = source.commands
  · subst command
    simp only [Function.update_self, fresh] at stored
    cases stored
  · simp only [Function.update_of_ne same] at stored
    exact going.replies command reply stored

theorem openConnections_going (serv count : ℕ) :
    Ensures (Going since) (CRedisServer.openConnections net serv count) fun _ => Going since := by
  induction count with
  | zero => exact .pure fun _ here => here
  | succ count ih =>
    refine .bind _ ((reconnect_clean net serv {}).strengthen_pre fun _ here => ⟨here, Clean.fresh 0⟩) fun opened => ?_
    refine .ite (fun _ => ?_) fun _ => ih.strengthen_pre fun _ here => here.1
    exact .bind _ (returnConnection_clean serv _) fun _ => ih

theorem askTimeout_going (serv : ℕ) :
    Ensures (Going since) (CRedisServer.askTimeout net serv) fun _ => Going since := by
  refine .bind _ (newCommand_going rfl) fun command => .bind _ (servRequest_going net serv command) fun nRet => ?_
  refine .get_then fun world => ?_
  split
  · refine modifyServer_going serv ?_
    exact fun _ _ member => member
  · exact .pure fun _ here => here

theorem cleanConn_going (serv : ℕ) :
    Ensures (Going (ρ := ρ) since) (CRedisServer.cleanConn serv) fun _ => Going since := by
  refine modifyServer_going serv ?_
  exact fun _ _ => nofun

theorem initializeServer_going (serv : ℕ) :
    Ensures (Going since) (CRedisServer.initializeServer net serv) fun _ => Going since := by
  refine .bind _ (cleanConn_going serv) fun _ => .get_then fun _ =>
    .bind _ (openConnections_going net serv _) fun _ => .get_then fun _ => ?_
  refine .ite (fun _ => .bind _ (askTimeout_going net serv) fun _ => ?_) fun _ => ?_
  · exact .get_then fun _ => .pure fun _ here => here
  · exact .get_then fun _ => .pure fun _ here => here

theorem new_going (strHost : CppString) (nPort nTimeout nConnNum : ℤ) :
    Ensures (Going since) (CRedisServer.new net strHost nPort nTimeout nConnNum) fun _ => Going since := by
  refine .get_then fun world => .bind (fun _ => Going since) (.update fun source here => ?_) fun _ => ?_
  · exact here.same rfl rfl rfl
  · refine .bind (fun _ => Going since) (modifyServer_going _ ?_) fun _ =>
      .bind _ (initializeServer_going net _) fun _ => .pure fun _ here => here
    exact fun _ _ => nofun

theorem deleteServers_going (vecRedisServ : List ℕ) :
    Ensures (Going (ρ := ρ) since) (deleteServers vecRedisServ) fun _ => Going since := by
  induction vecRedisServ with
  | nil => exact .pure fun _ here => here
  | cons serv vecRedisServ ih => exact .bind _ (cleanConn_going serv) fun _ => ih

theorem assignServers_going (nTimeout nConnNum : ℤ) (vecSlot : List SlotRegion) (vecRedisServ : List ℕ) :
    Ensures (Going since) (assignServers net nTimeout nConnNum vecRedisServ vecSlot) fun _ => Going since := by
  induction vecSlot generalizing vecRedisServ with
  | nil => exact .pure fun _ here => here
  | cons slotReg vecSlot ih =>
    refine .get_then fun world => ?_
    split
    · exact .bind _ (ih _) fun _ => .pure fun _ here => here
    · refine .bind _ (new_going net _ _ _ _) fun serv => .get_then fun _ => .ite (fun _ => ?_) fun _ => ?_
      · exact .bind _ (deleteServers_going _) fun _ => .pure fun _ here => here
      · exact .bind _ (ih _) fun _ => .pure fun _ here => here

theorem setClient_going (change : CRedisClient → CRedisClient) :
    Ensures (Going (ρ := ρ) since) (modify fun world => { world with client := change world.client } :
      Action (Pool ρ) Unit)
      fun _ => Going since :=
  .update fun _ here => here.same rfl rfl rfl

theorem loadSlotsFrom_going (command : ℕ) (vecRedisServ : List ℕ) :
    Ensures (Going since) (loadSlotsFrom net command vecRedisServ) fun _ => Going since := by
  induction vecRedisServ with
  | nil => exact .pure fun _ here => here
  | cons serv vecRedisServ ih =>
    refine .get_then fun _ => .ite (fun _ => .pure fun _ here => here) fun _ => ?_
    refine .bind _ (servRequest_going net serv command) fun nRet => .ite (fun _ => ?_) fun _ => ih
    refine .get_then fun world => ?_
    split
    · exact .throw
    · split
      · exact .throw
      · exact ih
      · refine .get_then fun _ => .bind _ (assignServers_going net _ _ _ _) fun assigned => ?_
        cases assigned with
        | none => exact .pure fun _ here => here
        | some tables =>
          exact .bind _ (deleteServers_going _) fun _ =>
            .bind _ (setClient_going fun client => client.install tables.1 tables.2) fun _ => .pure fun _ here => here

theorem refreshRound_going : Ensures (Going since) (refreshRound net) fun _ => Going since := by
  refine .bind (fun _ => Going since) (.update fun _ going => going.note nofun) fun _ => .get_then fun world => ?_
  have setValid := fun bValid : Bool =>
    @setClient_going ρ since fun client => { client with bValid := bValid }
  refine .ite (fun _ => .bind _ ?_ setValid) fun _ => ?_
  · exact .bind _ (newCommand_going rfl) fun command => .get_then fun _ => loadSlotsFrom_going net command _
  · split
    · exact .bind _ .throw setValid
    · exact .bind _ (initializeServer_going net _) setValid

theorem refreshThread_going : Ensures (Going since) (refreshThread net) fun _ => Going since := by
  refine .get_then fun world => ?_
  induction net.rounds world.log with
  | zero => exact .pure fun _ here => here
  | succ count ih => exact .bind _ (refreshRound_going net) fun _ => ih

theorem newCommand_attributed {redisCmd : CRedisCommand} (fresh : redisCmd.pReply = none) :
    Ensures (Attributed (ρ := ρ)) (newCommand redisCmd) fun _ => Attributed :=
  fun source here value target ran => (newCommand_going fresh source here.going value target ran).toAttributed

theorem servRequest_attributed (serv command : ℕ) :
    Ensures Attributed (CRedisServer.servRequest net serv command) fun _ => Attributed :=
  fun source here value target ran =>
    (servRequest_going net serv command source here.going value target ran).toAttributed

variable (address : ℕ → ℕ)

theorem requestAll_replied (since : List Event) (mapCmd : List (Option ℕ × List ℕ)) :
    Ensures (fun world => Going since world ∧ Worded (mapCmd.flatMap Prod.snd) world)
      (requestAll (net.servers address) mapCmd)
      fun nRet world => Going since world ∧
        (nRet = .success → ∀ command ∈ mapCmd.flatMap Prod.snd, Replied since world command) := by
  induction mapCmd with
  | nil => exact .pure fun _ here => ⟨here.1, fun _ => nofun⟩
  | cons entry mapCmd ih =>
    obtain ⟨_ | serv, vecCmd⟩ := entry
    · exact .throw
    · rintro source ⟨going, worded⟩ value target ran
      obtain ⟨nRet, middle, ranFirst, ranRest⟩ := bind_eq_ok_iff.mp ran
      have kept := (servRequests_follows (C := {c | c ∈ vecCmd}) net (Set.mem_univ serv) (fun _ => id) _ _ _
        ranFirst).toKept
      obtain ⟨going, replied⟩ := servRequests_going net since serv vecCmd source
        ⟨going, fun command member => worded command (List.mem_append_left _ member)⟩ _ _ ranFirst
      by_cases success : nRet = .success
      · rw [if_pos success] at ranRest
        have later : Worded (mapCmd.flatMap Prod.snd) middle := Worded.of_kept kept fun command member =>
          worded command (List.mem_append_right _ member)
        obtain ⟨going, rest⟩ := ih middle ⟨going, later⟩ _ _ ranRest
        refine ⟨going, fun done command member => ?_⟩
        by_cases inRest : command ∈ mapCmd.flatMap Prod.snd
        · exact rest done command inRest
        · have here : command ∈ vecCmd := (List.mem_append.mp member).resolve_right inRest
          have frame := requestAll_follows net address mapCmd _ _ _ ranRest
          obtain ⟨reply, stored, answered⟩ := replied success command here
          refine ⟨reply, ?_, answered.mono frame.log⟩
          rw [frame.command command (lt_of_lt_of_le (worded command member).1 kept.commands) inRest, stored]
      · rw [if_neg success] at ranRest
        cases ranRest
        exact ⟨going, fun done => absurd done success⟩

theorem flushCommand_replied (since : List Event) (vecCmd : List ℕ) :
    Ensures (fun world => Going since world ∧ Worded vecCmd world) (flushCommand (net.servers address) vecCmd)
      fun nRet world => Going since world ∧ (nRet = .success → ∀ command ∈ vecCmd, Replied since world command) := by
  rintro source ⟨going, worded⟩ value target ran
  have spec := requestAll_replied net address since _ source ⟨going, fun command member =>
    worded command ((mem_groupCmds _ _ _ _).mp member)⟩ _ _ ran
  exact ⟨spec.1, fun success command member => spec.2 success command ((mem_groupCmds _ _ _ _).mpr member)⟩

theorem waitForRefresh_going : Ensures (Going since) (waitForRefresh (net.servers address)) fun _ => Going since := by
  have await : ∀ nRetry, Ensures (Going since) (awaitValid (net.servers address) nRetry) fun _ => Going since := by
    intro nRetry
    induction nRetry with
    | zero => exact .pure fun _ here => here
    | succ nRetry ih =>
      exact .get_then fun _ => .ite (fun _ => .pure fun _ here => here) fun _ =>
        .bind _ (refreshThread_going net) fun _ => ih
  have noted : ∀ world : World (Pool ρ), Going since world → Going since (world.note .waitForRefresh) :=
    fun _ going => going.note nofun
  exact .bind _ (.update noted) fun _ => .bind _ (refreshThread_going net) fun _ =>
    .bind _ (await _) fun _ => .bind _ (refreshThread_going net) fun _ =>
      .get_then fun _ => .pure fun _ here => here

/-- A flush that succeeds, at once or after a refresh, has every command answered. -/
theorem flushPipeline_replied (since : List Event) (pPipeline : CRedisPipeline) :
    Ensures (fun world => Going since world ∧ Worded pPipeline.vecCmd world)
      (flushPipeline (net.servers address) (some pPipeline))
      fun nRet world => Going since world ∧
        (nRet = .success → ∀ command ∈ pPipeline.vecCmd, Replied since world command) := by
  rintro source ⟨going, worded⟩ value target ran
  obtain ⟨nRet, first, ranFirst, ran⟩ := bind_eq_ok_iff.mp ran
  have kept := requestAll_follows net address _ _ _ _ ranFirst
  obtain ⟨going, replied⟩ := flushCommand_replied net address since _ source ⟨going, worded⟩ _ _ ranFirst
  split_ifs at ran with failed
  · cases ran
    exact ⟨going, replied⟩
  · obtain ⟨_, _, ranGet, ran⟩ := bind_eq_ok_iff.mp ran
    cases ranGet
    split_ifs at ran
    · cases ran
      exact ⟨going, replied⟩
    · obtain ⟨refreshed, second, ranWait, ran⟩ := bind_eq_ok_iff.mp ran
      have frame := waitForRefresh_follows (C := ∅) net address _ _ _ ranWait
      have going := waitForRefresh_going net address _ going _ _ ranWait
      cases refreshed with
      | false =>
        cases ran
        exact ⟨going, fun success => absurd success (by rw [not_not.mp failed]; exact nofun)⟩
      | true =>
        have worded := (worded.of_kept kept).of_kept frame
        exact flushCommand_replied net address since _ second ⟨going, worded⟩ _ _ ran

/-- Nothing has been asked yet: no command has a reply, and no connection an unanswered command. -/
structure Fresh (callers : Callers ρ) : Prop where
  replies : ∀ command, (callers.world.command command).pReply = none
  idle : ∀ serv, ∀ conn ∈ (callers.world.servers.server serv).queIdleConn, Clean conn
  held : ∀ thread, callers.held thread = none
  queued : callers.queued = []

/-- The invariant of the threads. -/
structure Settled (callers : Callers ρ) : Prop extends Attributed callers.world where
  held : ∀ thread conn, callers.held thread = some conn → Clean conn
  queued : Worded callers.queued callers.world

theorem Fresh.settled {callers : Callers ρ} (fresh : Fresh callers) : Settled callers where
  replies command reply stored := by
    rw [fresh.replies] at stored
    cases stored
  idle := fresh.idle
  held thread conn same := by
    rw [fresh.held] at same
    cases same
  queued := by
    rw [fresh.queued]
    exact nofun

theorem Settled.after {α : Type} {callers : Callers ρ} (settled : Settled callers) {pre : World (Pool ρ) → Prop}
    {program : Action (Pool ρ) α} {post : α → World (Pool ρ) → Prop} {next : α → World (Pool ρ) → Callers ρ}
    (ensures : Ensures pre program post) (here : pre callers.world)
    {C : Set ℕ} (follows : Follows (Kept C) program)
    (then_ : ∀ value world, post value world → Kept C callers.world world → Settled (next value world)) :
    Settled (callers.after program next) := by
  simp only [Callers.after]
  cases ran : program callers.world with
  | error fault => exact { settled with }
  | ok result =>
    exact then_ result.1 result.2 (ensures _ here _ _ ran) (follows _ _ _ ran)

/-- What only the queue and the held connections of the threads add. -/
theorem Settled.of_world {callers : Callers ρ} (settled : Settled callers) {world : World (Pool ρ)}
    (attributed : Attributed world) {C : Set ℕ} (kept : Kept C callers.world world) :
    Settled { callers with world := world } :=
  { attributed with held := settled.held, queued := settled.queued.of_kept kept }

theorem Settled.hold {callers : Callers ρ} (settled : Settled callers) {world : World (Pool ρ)}
    (attributed : Attributed world) {C : Set ℕ} (kept : Kept C callers.world world) (thread : ℕ)
    {conn : Option CRedisConnection} (clean : ∀ held, conn = some held → Clean held) :
    Settled { callers with world := world, held := Function.update callers.held thread conn } := by
  refine { attributed with held := fun other held same => ?_, queued := settled.queued.of_kept kept }
  by_cases own : other = thread
  · subst other
    exact clean held (by simpa only [Function.update_self] using same)
  · exact settled.held other held (by simpa only [Function.update_of_ne own] using same)

theorem newCommand_kept {C : Set ℕ} (redisCmd : CRedisCommand) :
    Follows (Kept C) (newCommand redisCmd : Action (Pool ρ) ℕ) := by
  intro source value target ran
  cases ran
  exact kept_newCommand redisCmd source

theorem newCommand_spec (redisCmd : CRedisCommand) :
    Ensures (fun _ : World (Pool ρ) => True) (newCommand redisCmd)
      fun command world => command < world.commands ∧ (world.command command).args = redisCmd.args := by
  intro source _ value target ran
  cases ran
  exact ⟨Nat.lt_succ_self _, by simp only [Function.update_self]⟩

/-- One section of one thread keeps the invariant. -/
theorem step_settled {callers : Callers ρ} (settled : Settled callers) (event : CallerEvent) :
    Settled (Callers.step net callers event) := by
  simp only [Callers.step]
  split_ifs with crashed
  · exact settled
  cases event with
  | execute strCmd arguments nSlot funcConv =>
    simp only [Callers.issue]
    cases arguments.words strCmd with
    | error fault => exact { settled with }
    | ok args =>
      exact settled.after (newCommand_attributed rfl) settled.toAttributed (newCommand_kept (C := ∅) _)
        fun _ world attributed kept => settled.of_world attributed kept
  | queueCommand strCmd arguments nSlot funcConv =>
    dsimp only
    split_ifs with queued
    · simp only [Callers.issue]
      cases words : arguments.words strCmd with
      | error fault => exact { settled with }
      | ok args =>
        have issues : Ensures Attributed (newCommand { args := args, nSlot := nSlot, funcConv := funcConv })
            fun command (world : World (Pool ρ)) => Attributed world ∧
              command < world.commands ∧ (world.command command).args = args := by
          intro source attributed command world ran
          exact ⟨newCommand_attributed rfl source attributed command world ran,
            newCommand_spec _ source trivial command world ran⟩
        refine settled.after issues settled.toAttributed (newCommand_kept (C := ∅) _) ?_
        · rintro command world ⟨attributed, bound, same⟩ kept
          refine { attributed with held := settled.held, queued := fun other member => ?_ }
          rcases List.mem_append.mp member with earlier | here
          · exact settled.queued.of_kept kept other earlier
          · rw [List.mem_singleton.mp here, same]
            exact ⟨bound, SetArgs.words_ne_nil queued words⟩
    · exact settled
  | fetchConnection thread serv =>
    dsimp only
    split_ifs with busy
    · exact settled
    · exact settled.after (fetchConnection_clean serv) settled.toAttributed.going
        ((fetchConnection_follows (C := ∅) (Set.mem_singleton serv)).mono fun _ _ footprint => footprint.toKept)
        fun conn world here kept => settled.hold here.1.toAttributed kept thread here.2
  | connRequest thread serv command =>
    simp only [Callers.request]
    cases held : callers.held thread with
    | none => exact settled
    | some conn =>
      refine settled.after (connRequest_clean net serv command conn) ⟨settled.toAttributed.going,
        settled.held thread conn held⟩
        ((connRequest_follows (C := {command}) net (Set.mem_singleton serv) (Set.mem_singleton command) conn).mono
          fun _ _ footprint => footprint.toKept) fun result world here kept => ?_
      exact settled.hold here.1.toAttributed kept thread fun other same => by
        cases same
        exact here.2
  | connRequests thread serv vecRedisCmd =>
    dsimp only
    split_ifs with queued
    · simp only [Callers.request]
      cases held : callers.held thread with
      | none => exact settled
      | some conn =>
        refine settled.after (connRequests_clean net _ serv vecRedisCmd conn)
          ⟨⟨settled.toAttributed.going, settled.held thread conn held⟩,
            fun command member => settled.queued command (queued command member)⟩
          ((connRequests_follows (C := {c | c ∈ vecRedisCmd}) net (Set.mem_singleton serv) (fun _ => id) conn).mono
            fun _ _ footprint => footprint.toKept) fun result world here kept => ?_
        exact settled.hold here.1.toAttributed kept thread fun other same => by
          cases same
          exact here.2.1
    · exact settled
  | returnConnection thread serv =>
    dsimp only
    cases held : callers.held thread with
    | none => exact settled
    | some conn =>
      exact settled.after (returnConnection_clean serv conn) ⟨settled.toAttributed.going, settled.held thread conn held⟩
        ((returnConnection_follows (C := ∅) (Set.mem_singleton serv) conn).mono fun _ _ footprint => footprint.toKept)
        fun _ world going kept => settled.hold going.toAttributed kept thread nofun
  | refresh =>
    exact settled.after (refreshRound_going net) settled.toAttributed.going (refreshRound_follows (C := ∅) net)
      fun _ world going kept => settled.of_world going.toAttributed kept

/-- The commands that the threads issued with a pipeline exist and have words, after every run. -/
theorem run_settled {callers : Callers ρ} (fresh : Fresh callers) (events : List CallerEvent) :
    Settled (run (Callers.step net) callers events) :=
  run_invariant Settled (fun _ event settled => step_settled net settled event) fresh.settled events

/-- After a flush that succeeds the fetch at a position hands out the answer to the command there. -/
theorem fetch_of_replied {pPipeline : CRedisPipeline} {flushed : World (Pool ρ)} {k : ℕ}
    (bound : k < pPipeline.vecCmd.length) {reply : RedisReply}
    (stored : (flushed.command pPipeline.vecCmd[k]).pReply = some reply) :
    fetchRawReply { pPipeline with nCursor := k } flushed =
        .ok (((.success, some reply), { pPipeline with nCursor := k + 1 }), flushed) ∧
      ∀ (α : Type) (funcFetch : Fetch α) (result : ReturnCode × Option α),
        fetchResult funcFetch (flushed.command pPipeline.vecCmd[k]).funcConv (some reply) = .ok result →
        fetchReply funcFetch { pPipeline with nCursor := k } flushed =
          .ok ((result, { pPipeline with nCursor := k + 1 }), flushed) := by
  constructor
  · simp only [fetchRawReply, List.getElem?_eq_getElem bound, bind_apply, get_apply, pure_apply, stored]
  · intro α funcFetch result fetched
    simp only [fetchReply, fetchCommand, List.getElem?_eq_getElem bound, bind_apply, get_apply, pure_apply, stored,
      fetched]

/-- In every run of the threads each stored reply answers a transmission of its own command. After any run, a
flush that succeeds leaves the answers, all of this flush, to be fetched in the order of the commands. -/
theorem replies_own (callers : Callers ρ) (fresh : Fresh callers) (events : List CallerEvent) :
    Always (Callers.step net) (fun state => ∀ command reply,
      (state.world.command command).pReply = some reply → Answered [] state.world.log command reply) callers events ∧
    ∀ (pPipeline : CRedisPipeline) (flushed : World (Pool ρ)),
      let source := run (Callers.step net) callers events
      (∀ command ∈ pPipeline.vecCmd, command ∈ source.queued) →
      flushPipeline (net.servers address) (some pPipeline) source.world = .ok (.success, flushed) →
      ∀ (k : ℕ) (bound : k < pPipeline.vecCmd.length), ∃ reply,
        Answered source.world.log flushed.log pPipeline.vecCmd[k] reply ∧
        fetchRawReply { pPipeline with nCursor := k } flushed =
          .ok (((.success, some reply), { pPipeline with nCursor := k + 1 }), flushed) ∧
        ∀ (α : Type) (funcFetch : Fetch α) (result : ReturnCode × Option α),
          fetchResult funcFetch (flushed.command pPipeline.vecCmd[k]).funcConv (some reply) = .ok result →
          fetchReply funcFetch { pPipeline with nCursor := k } flushed =
            .ok ((result, { pPipeline with nCursor := k + 1 }), flushed) := by
  constructor
  · refine (always_iff_initial _ _ _ _).mpr fun first _ => ?_
    exact (run_settled net fresh first).replies
  · intro pPipeline flushed source queued ran k bound
    have settled := run_settled net fresh events
    obtain ⟨reply, stored, answered⟩ := flushPipeline_replied net address source.world.log pPipeline source.world
      ⟨settled.toAttributed.going, fun command member => settled.queued command (queued command member)⟩
      _ _ ran |>.2 rfl pPipeline.vecCmd[k] (List.getElem_mem bound)
    exact ⟨reply, answered, fetch_of_replied bound stored⟩

/-- A server that counts the commands, behind a link that works. -/
def counting : Network ℕ where
  clock _ := 0
  connect _ _ := true
  append _ := true
  receive _ := none
  rounds _ := 0
  serve count _ _ := (.integer (count + 1), count + 1)

/-- A client with one server that has a connection in its pool. -/
def connected : Callers ℕ where
  world := {
    client := { vecRedisServ := [0] }
    servers := {
      server := fun _ => { strHost := text "redis", queIdleConn := [{}], vecHosts := [(text "redis", 6379)] }
      servers := 1
      redis := 0 } }

theorem connected_fresh : Fresh connected :=
  ⟨fun _ => rfl, fun _ conn member => by
    rw [List.mem_singleton.mp member]
    exact Clean.fresh 0, fun _ => rfl, rfl⟩

/-- Two threads queue a command each; the flush of both leaves the answer of each in its place. -/
theorem replies_own_counting :
    let queue := CallerEvent.queueCommand (text "incr") (.str (text "n")) 7365 .default
    let source := run (Callers.step counting) connected [queue, queue]
    ∃ flushed reply, flushPipeline (counting.servers id) (some { vecCmd := [0, 1] }) source.world =
        .ok (.success, flushed) ∧
      (flushed.command 1).pReply = some (.integer 2) ∧
      Answered source.world.log flushed.log 1 reply ∧
      fetchRawReply { vecCmd := [0, 1], nCursor := 1 } flushed =
        .ok (((.success, some reply), { vecCmd := [0, 1], nCursor := 2 }), flushed) := by
  intro queue source
  have own := (replies_own counting id connected connected_fresh [queue, queue]).2 { vecCmd := [0, 1] } _ (by decide)
    rfl 1 (by decide)
  obtain ⟨reply, answered, fetched, -⟩ := own
  exact ⟨_, reply, rfl, rfl, answered, fetched⟩

end

end CppRedis.Soundness.Attribution
