import CppRedis.Model.RedisClient.Refresh

/-! # What requests leave alone

A request changes the replies of its own commands and the state of its own server; everything else in
the world stays, but for new commands and servers. The relations below say so for every function of
`CRedisConnection` and `CRedisServer`, and for the refresh thread.
-/

namespace CppRedis.Soundness.Requests

open Machine Machine.Program Model.RedisClient Model.RedisCpp

/-- Commands outside the set keep their replies, all commands keep what they ask for, and the log grows. -/
structure Kept {σ : Type} (C : Set ℕ) (source target : World σ) : Prop where
  log : source.log <+: target.log
  commands : source.commands ≤ target.commands
  command : ∀ c < source.commands, c ∉ C → target.command c = source.command c
  args : ∀ c < source.commands, (target.command c).args = (source.command c).args
  nSlot : ∀ c < source.commands, (target.command c).nSlot = (source.command c).nSlot
  funcConv : ∀ c < source.commands, (target.command c).funcConv = (source.command c).funcConv
  bCluster : target.client.bCluster = source.client.bCluster

/-- A server keeps its hosts, and the host it is at is one of them or none. -/
structure Drift (source target : CRedisServer) : Prop where
  vecHosts : target.vecHosts = source.vecHosts
  nConnNum : target.nConnNum = source.nConnNum
  address : target.strHost = source.strHost ∧ target.nPort = source.nPort ∨
    (target.strHost, target.nPort) ∈ source.vecHosts ∨
    target.strHost = [] ∧ (target.nPort = source.nPort ∨ ∃ host, (host, target.nPort) ∈ source.vecHosts)

/-- The client stays, servers outside the set stay, and all servers keep their hosts. -/
structure Footprint {ρ : Type} (S C : Set ℕ) (source target : World (Pool ρ)) : Prop
    extends Kept C source target where
  client : target.client = source.client
  servers : source.servers.servers ≤ target.servers.servers
  server : ∀ q < source.servers.servers, q ∉ S → target.servers.server q = source.servers.server q
  drift : ∀ q < source.servers.servers, Drift (source.servers.server q) (target.servers.server q)

section

variable {σ ρ : Type} {S C : Set ℕ}

theorem Kept.rfl' (world : World σ) : Kept C world world :=
  ⟨List.prefix_refl _, le_refl _, fun _ _ _ => rfl, fun _ _ => rfl, fun _ _ => rfl, fun _ _ => rfl, rfl⟩

theorem Kept.trans {source middle target : World σ} (first : Kept C source middle)
    (second : Kept C middle target) : Kept C source target where
  log := first.log.trans second.log
  commands := first.commands.trans second.commands
  command c bound outside :=
    (second.command c (lt_of_lt_of_le bound first.commands) outside).trans (first.command c bound outside)
  args c bound := (second.args c (lt_of_lt_of_le bound first.commands)).trans (first.args c bound)
  nSlot c bound := (second.nSlot c (lt_of_lt_of_le bound first.commands)).trans (first.nSlot c bound)
  funcConv c bound := (second.funcConv c (lt_of_lt_of_le bound first.commands)).trans (first.funcConv c bound)
  bCluster := second.bCluster.trans first.bCluster

theorem Kept.mono {more : Set ℕ} {source target : World σ} (kept : Kept C source target)
    (subset : ∀ c < source.commands, c ∈ C → c ∈ more) : Kept more source target :=
  { kept with command := fun c bound outside => kept.command c bound fun inside => outside (subset c bound inside) }

instance : Std.Refl (Kept (σ := σ) C) := ⟨Kept.rfl'⟩
instance : IsTrans (World σ) (Kept C) := ⟨fun _ _ _ => Kept.trans⟩

theorem Drift.rfl' (server : CRedisServer) : Drift server server := ⟨rfl, rfl, .inl ⟨rfl, rfl⟩⟩

theorem Drift.trans {source middle target : CRedisServer} (first : Drift source middle)
    (second : Drift middle target) : Drift source target := by
  refine ⟨second.vecHosts.trans first.vecHosts, second.nConnNum.trans first.nConnNum, ?_⟩
  have later := second.address
  rw [first.vecHosts] at later
  rcases later with ⟨host, port⟩ | known | ⟨none, port | known⟩
  · rw [host, port]
    exact first.address
  · exact .inr (.inl known)
  · rw [none, port]
    rcases first.address with ⟨_, port⟩ | known | ⟨_, known⟩
    · exact .inr (.inr ⟨rfl, .inl port⟩)
    · exact .inr (.inr ⟨rfl, .inr ⟨_, known⟩⟩)
    · exact .inr (.inr ⟨rfl, known⟩)
  · exact .inr (.inr ⟨none, .inr known⟩)

theorem Footprint.rfl' (world : World (Pool ρ)) : Footprint S C world world :=
  { Kept.rfl' world with
    client := rfl, servers := le_refl _, server := fun _ _ _ => rfl, drift := fun _ _ => Drift.rfl' _ }

theorem Footprint.trans {source middle target : World (Pool ρ)} (first : Footprint S C source middle)
    (second : Footprint S C middle target) : Footprint S C source target :=
  { first.toKept.trans second.toKept with
    client := second.client.trans first.client
    servers := first.servers.trans second.servers
    server := fun q bound outside =>
      (second.server q (lt_of_lt_of_le bound first.servers) outside).trans (first.server q bound outside)
    drift := fun q bound => (first.drift q bound).trans (second.drift q (lt_of_lt_of_le bound first.servers)) }

theorem Footprint.mono {T more : Set ℕ} {source target : World (Pool ρ)}
    (footprint : Footprint S C source target)
    (subsetServs : ∀ q < source.servers.servers, q ∈ S → q ∈ T)
    (subset : ∀ c < source.commands, c ∈ C → c ∈ more) : Footprint T more source target :=
  { footprint with
    toKept := footprint.toKept.mono subset
    server := fun q bound outside => footprint.server q bound fun inside => outside (subsetServs q bound inside) }

instance : Std.Refl (Footprint (ρ := ρ) S C) := ⟨Footprint.rfl'⟩
instance : IsTrans (World (Pool ρ)) (Footprint S C) := ⟨fun _ _ _ => Footprint.trans⟩

theorem kept_note (event : Event) (world : World σ) : Kept C world (world.note event) :=
  { Kept.rfl' world with log := List.prefix_append _ _ }

theorem footprint_note (event : Event) (world : World (Pool ρ)) : Footprint S C world (world.note event) :=
  { Footprint.rfl' world with log := List.prefix_append _ _ }

theorem footprint_setReply {command : ℕ} (inside : command ∈ C) (reply : Option RedisReply)
    (world : World (Pool ρ)) : Footprint S C world (world.setReply command reply) := by
  have fields : ∀ c, ((world.setReply command reply).command c).args = (world.command c).args ∧
      ((world.setReply command reply).command c).nSlot = (world.command c).nSlot ∧
      ((world.setReply command reply).command c).funcConv = (world.command c).funcConv := by
    intro c
    by_cases same : c = command
    · subst c
      simp only [World.setReply, Function.update_self, and_self]
    · simp only [World.setReply, Function.update_of_ne same, and_self]
  exact { (Footprint.rfl' world : Footprint S C world world) with
    command := fun c _ outside => by
      refine Function.update_of_ne (fun same => outside ?_) _ _
      rw [same]
      exact inside
    args := fun c _ => (fields c).1, nSlot := fun c _ => (fields c).2.1, funcConv := fun c _ => (fields c).2.2 }

theorem footprint_server {serv : ℕ} (inside : serv ∈ S) {change : CRedisServer → CRedisServer}
    (world : World (Pool ρ)) (drift : Drift (world.servers.server serv) (change (world.servers.server serv))) :
    Footprint S C world { world with servers := { world.servers with
      server := Function.update world.servers.server serv (change (world.servers.server serv)) } } :=
  { (Footprint.rfl' world : Footprint S C world world) with
    server := fun q _ outside => by
      refine Function.update_of_ne (fun same => outside ?_) _ _
      rw [same]
      exact inside
    drift := fun q _ => by
      by_cases same : q = serv
      · subst q
        simpa only [Function.update_self] using drift
      · simpa only [Function.update_of_ne same] using Drift.rfl' _ }

theorem kept_newCommand (redisCmd : CRedisCommand) (world : World σ) :
    Kept C world { world with
      command := Function.update world.command world.commands redisCmd, commands := world.commands + 1 } where
  log := List.prefix_refl _
  commands := Nat.le_succ _
  command c bound _ := Function.update_of_ne bound.ne _ _
  args c bound := by
    dsimp only
    rw [Function.update_of_ne bound.ne]
  nSlot c bound := by
    dsimp only
    rw [Function.update_of_ne bound.ne]
  funcConv c bound := by
    dsimp only
    rw [Function.update_of_ne bound.ne]
  bCluster := rfl

end

section

variable {ρ : Type} (net : Network ρ) {S C : Set ℕ}

/-- A broken context takes nothing; another one takes the command or breaks. -/
theorem redisAppendCommandArgv_cases (context : RedisContext) (command : ℕ) (source : World (Pool ρ)) :
    context.err = true ∧ redisAppendCommandArgv net context command source = .ok ((false, context), source) ∨
    context.err = false ∧ redisAppendCommandArgv net context command source =
      .ok ((true, { context with pending := context.pending ++ [(command, (source.command command).args)] }),
        source.note (.append command true)) ∨
    context.err = false ∧ redisAppendCommandArgv net context command source =
      .ok ((false, { context with err := true }), source.note (.append command false)) := by
  cases broken : context.err with
  | true =>
    exact .inl ⟨rfl, by simp only [redisAppendCommandArgv, bind_apply, get_apply, broken, ↓reduceIte, pure_apply]⟩
  | false =>
    cases taken : net.append source.log with
    | true =>
      refine .inr (.inl ⟨rfl, ?_⟩)
      simp only [redisAppendCommandArgv, bind_apply, get_apply, broken, taken, Bool.false_eq_true, ↓reduceIte,
        set_apply, pure_apply]
    | false =>
      refine .inr (.inr ⟨rfl, ?_⟩)
      simp only [redisAppendCommandArgv, bind_apply, get_apply, broken, taken, Bool.false_eq_true, ↓reduceIte,
        set_apply, pure_apply]

/-- A broken context answers nothing; another one answers its first pending command or breaks. -/
theorem redisGetReply_cases (context : RedisContext) (source : World (Pool ρ)) :
    context.err = true ∧ redisGetReply net context source = .ok ((none, context), source) ∨
    context.err = false ∧ (∃ command args rest,
      context.pending = (command, args) :: rest ∧ net.receive source.log = none ∧
      redisGetReply net context source =
        .ok ((some (net.serve source.servers.redis (context.host, context.port) args).1,
            { context with pending := rest }),
          { source.note (.reply command (net.serve source.servers.redis (context.host, context.port) args).1) with
            servers := { source.servers with
              redis := (net.serve source.servers.redis (context.host, context.port) args).2 } })) ∨
    context.err = false ∧ (∃ done : List (ℕ × List CppString),
      done ⊆ context.pending ∧
      redisGetReply net context source =
        .ok ((none, { context with err := true }),
          { source.note (.lost done.length) with
            servers := { source.servers with
              redis := net.serveAll source.servers.redis (context.host, context.port) done } })) := by
  cases broken : context.err with
  | true => exact .inl ⟨rfl, by simp only [redisGetReply, bind_apply, get_apply, broken, ↓reduceIte, pure_apply]⟩
  | false =>
    cases pending : context.pending with
    | nil =>
      refine .inr (.inr ⟨rfl, [], List.nil_subset _, ?_⟩)
      simp only [redisGetReply, bind_apply, get_apply, broken, pending, Bool.false_eq_true, ↓reduceIte, set_apply,
        pure_apply, List.take_nil]
    | cons first rest =>
      obtain ⟨command, args⟩ := first
      cases receive : net.receive source.log with
      | none =>
        refine .inr (.inl ⟨rfl, command, args, rest, rfl, rfl, ?_⟩)
        simp only [redisGetReply, bind_apply, get_apply, broken, pending, receive, Bool.false_eq_true, ↓reduceIte,
          set_apply, pure_apply]
      | some executed =>
        refine .inr (.inr ⟨rfl, ((command, args) :: rest).take executed, List.take_subset _ _, ?_⟩)
        simp only [redisGetReply, bind_apply, get_apply, broken, pending, receive, Bool.false_eq_true, ↓reduceIte,
          set_apply, pure_apply, Option.getD_some]

theorem redisAppendCommandArgv_follows (context : RedisContext) (command : ℕ) :
    Follows (Footprint S C) (redisAppendCommandArgv net context command) := by
  intro source value target ran
  rcases redisAppendCommandArgv_cases net context command source with ⟨_, does⟩ | ⟨_, does⟩ | ⟨_, does⟩
  · cases does.symm.trans ran
    exact Footprint.rfl' _
  · cases does.symm.trans ran
    exact footprint_note _ _
  · cases does.symm.trans ran
    exact footprint_note _ _

theorem redisGetReply_follows (context : RedisContext) :
    Follows (Footprint S C) (redisGetReply net context) := by
  intro source value target ran
  rcases redisGetReply_cases net context source with ⟨_, does⟩ | ⟨_, _, _, _, _, _, does⟩ | ⟨_, _, _, does⟩
  · cases does.symm.trans ran
    exact Footprint.rfl' _
  · cases does.symm.trans ran
    exact { (footprint_note _ _ : Footprint S C source _) with }
  · cases does.symm.trans ran
    exact { (footprint_note _ _ : Footprint S C source _) with }

theorem redisCommandArgv_follows (context : RedisContext) (command : ℕ) :
    Follows (Footprint S C) (redisCommandArgv net context command) :=
  .bind (redisAppendCommandArgv_follows net context command) fun _ =>
    .ite (redisGetReply_follows net _) (.pure _)

theorem cmdRequest_follows {command : ℕ} (inside : command ∈ C) (pContext : Option RedisContext) :
    Follows (Footprint S C) (CRedisCommand.cmdRequest net command pContext) := by
  refine .bind .get fun _ => .ite (.pure _) ?_
  cases pContext with
  | none => exact .pure _
  | some context =>
    exact .bind (.update (footprint_setReply inside _)) fun _ =>
      .bind (redisCommandArgv_follows net context command) fun _ =>
        .bind (.update (footprint_setReply inside _)) fun _ => .pure _

theorem cmdAppend_follows (command : ℕ) (pContext : Option RedisContext) :
    Follows (Footprint S C) (CRedisCommand.cmdAppend net command pContext) := by
  refine .bind .get fun _ => .ite (.pure _) ?_
  cases pContext with
  | none => exact .pure _
  | some context => exact .bind (redisAppendCommandArgv_follows net context command) fun _ => .pure _

theorem cmdReply_follows {command : ℕ} (inside : command ∈ C) (context : RedisContext) :
    Follows (Footprint S C) (CRedisCommand.cmdReply net command context) :=
  .bind (.update (footprint_setReply inside _)) fun _ =>
    .bind (redisGetReply_follows net context) fun _ =>
      .bind (.update (footprint_setReply inside _)) fun _ => .pure _

/-- The event is not a reply. -/
def Silent (event : Event) : Prop := ∀ command reply, event ≠ .reply command reply

/-- Nothing changes but the log, which gets no reply. -/
def Logged (source target : World (Pool ρ)) : Prop :=
  ∃ events, target = { source with log := source.log ++ events } ∧ ∀ event ∈ events, Silent event

instance : Std.Refl (Logged (ρ := ρ)) := ⟨fun world => ⟨[], by rw [List.append_nil], nofun⟩⟩

instance : IsTrans (World (Pool ρ)) Logged := ⟨by
  rintro source _ _ ⟨first, rfl, silent⟩ ⟨second, rfl, still⟩
  refine ⟨first ++ second, by rw [List.append_assoc], fun event member => ?_⟩
  exact (List.mem_append.mp member).elim (silent event) (still event)⟩

theorem logged_note {event : Event} (silent : Silent event) (world : World (Pool ρ)) :
    Logged world (world.note event) :=
  ⟨[event], rfl, fun other member => by rw [List.mem_singleton.mp member]; exact silent⟩

theorem Logged.footprint {source target : World (Pool ρ)} (logged : Logged source target) :
    Footprint S C source target := by
  obtain ⟨events, rfl, -⟩ := logged
  exact { (Footprint.rfl' source : Footprint S C source source) with log := List.prefix_append _ _ }

theorem time_logged : Follows Logged (time net) :=
  .bind .get fun _ => .bind (.update (logged_note nofun)) fun _ => .pure _

theorem connectToRedis_logged (strHost : CppString) (nPort : ℤ) (conn : CRedisConnection) :
    Follows Logged (CRedisConnection.connectToRedis net strHost nPort conn) := by
  refine .bind (.bind .get fun _ => .bind (.update (logged_note nofun)) fun _ => .pure _) fun connected => ?_
  cases connected with
  | none => exact .pure _
  | some context => exact .bind (time_logged net) fun _ => .pure _

/-- The loop over the hosts of a server leaves the server at one of them, or at none. -/
theorem connectToAny_footprint {serv : ℕ} (inside : serv ∈ S) (vecHosts : List (CppString × ℤ))
    (conn : CRedisConnection) (source : World (Pool ρ))
    (known : ∀ hostPair ∈ vecHosts, hostPair ∈ (source.servers.server serv).vecHosts)
    {value : Bool × CRedisConnection} {target : World (Pool ρ)}
    (ran : CRedisConnection.connectToAny net serv conn vecHosts source = .ok (value, target)) :
    Footprint S C source target := by
  induction vecHosts generalizing conn source with
  | nil =>
    cases ran
    exact @footprint_server _ _ _ _ inside (fun server => { server with strHost := [] }) source
      ⟨rfl, rfl, .inr (.inr ⟨rfl, .inl rfl⟩)⟩
  | cons hostPair vecHosts ih =>
    obtain ⟨⟨connected, conn'⟩, middle, ranConnect, ranRest⟩ := bind_eq_ok_iff.mp ran
    have logged := connectToRedis_logged net _ _ _ _ _ _ ranConnect
    obtain ⟨events, rfl, -⟩ := id logged
    refine logged.footprint.trans ?_
    cases connected with
    | true =>
      cases ranRest
      exact @footprint_server _ _ _ _ inside
        (fun server => { server with strHost := hostPair.1, nPort := hostPair.2 }) _
        ⟨rfl, rfl, .inr (.inl (known _ List.mem_cons_self))⟩
    | false => exact ih conn' _ (fun other member => known other (List.mem_cons_of_mem _ member)) ranRest

theorem reconnect_follows {serv : ℕ} (inside : serv ∈ S) (conn : CRedisConnection) :
    Follows (Footprint S C) (CRedisConnection.reconnect net serv conn) := by
  refine .get_bind fun source value target ran => ?_
  dsimp only at ran
  split_ifs at ran
  · exact connectToAny_footprint net inside _ conn source (fun _ member => member) ran
  · obtain ⟨⟨connected, conn'⟩, middle, ranConnect, ranRest⟩ := bind_eq_ok_iff.mp ran
    have logged := connectToRedis_logged net _ _ _ _ _ _ ranConnect
    obtain ⟨events, rfl, -⟩ := id logged
    refine logged.footprint.trans ?_
    cases connected with
    | true =>
      cases ranRest
      exact Footprint.rfl' _
    | false => exact connectToAny_footprint net inside _ conn' _ (fun _ member => member) ranRest

theorem time_follows : Follows (Footprint S C) (time net) :=
  (time_logged net).mono fun _ _ logged => logged.footprint

theorem refreshIdle_follows {serv : ℕ} (inside : serv ∈ S) (tmNow : ℤ) (conn : CRedisConnection) :
    Follows (Footprint S C) (CRedisConnection.refreshIdle net serv tmNow conn) :=
  .bind .get fun _ => .ite (reconnect_follows net inside conn) (.pure _)

theorem connRequest_follows {serv command : ℕ} (inside : serv ∈ S) (own : command ∈ C)
    (conn : CRedisConnection) : Follows (Footprint S C) (CRedisConnection.connRequest net serv command conn) := by
  refine .bind (time_follows net) fun tmNow => .bind (refreshIdle_follows net inside tmNow conn) fun ready => ?_
  refine .ite (.pure _) (.bind (cmdRequest_follows net own _) fun first => .ite ?_ (.pure _))
  refine .bind .get fun _ => .ite (.pure _) (.bind (reconnect_follows net inside _) fun again => ?_)
  exact .ite (.pure _) (.bind (cmdRequest_follows net own _) fun _ => .pure _)

theorem appendAll_follows (vecRedisCmd : List ℕ) (pContext : Option RedisContext) :
    Follows (Footprint S C) (CRedisConnection.appendAll net pContext vecRedisCmd) := by
  induction vecRedisCmd generalizing pContext with
  | nil => exact .pure _
  | cons command vecRedisCmd ih =>
    exact .bind (cmdAppend_follows net command pContext) fun _ => .ite (ih _) (.pure _)

theorem replyAll_follows (vecRedisCmd : List ℕ) (own : ∀ command ∈ vecRedisCmd, command ∈ C)
    (context : RedisContext) : Follows (Footprint S C) (CRedisConnection.replyAll net context vecRedisCmd) := by
  induction vecRedisCmd generalizing context with
  | nil => exact .pure _
  | cons command vecRedisCmd ih =>
    refine .bind (cmdReply_follows net (own _ List.mem_cons_self) context) fun _ => .ite ?_ (.pure _)
    exact ih (fun other member => own other (List.mem_cons_of_mem _ member)) _

theorem connRequests_follows {serv : ℕ} {vecRedisCmd : List ℕ} (inside : serv ∈ S)
    (own : ∀ command ∈ vecRedisCmd, command ∈ C) (conn : CRedisConnection) :
    Follows (Footprint S C) (CRedisConnection.connRequests net serv vecRedisCmd conn) := by
  refine .bind (time_follows net) fun tmNow => .bind (refreshIdle_follows net inside tmNow conn) fun ready => ?_
  refine .ite (.pure _) (.bind (appendAll_follows net vecRedisCmd _) fun appended => ?_)
  dsimp only
  split
  · exact .bind (replyAll_follows net vecRedisCmd own _) fun _ => .pure _
  · exact .pure _

theorem modifyServer_follows {serv : ℕ} (inside : serv ∈ S) {change : CRedisServer → CRedisServer}
    (drift : ∀ server, Drift server (change server)) :
    Follows (Footprint (ρ := ρ) S C) (modifyServer serv change) :=
  .update fun world => footprint_server inside world (drift _)

theorem cleanConn_follows {serv : ℕ} (inside : serv ∈ S) :
    Follows (Footprint (ρ := ρ) S C) (CRedisServer.cleanConn serv) :=
  modifyServer_follows inside fun _ => ⟨rfl, rfl, .inl ⟨rfl, rfl⟩⟩

theorem returnConnection_follows {serv : ℕ} (inside : serv ∈ S) (conn : CRedisConnection) :
    Follows (Footprint (ρ := ρ) S C) (CRedisServer.returnConnection serv conn) :=
  modifyServer_follows inside fun _ => ⟨rfl, rfl, .inl ⟨rfl, rfl⟩⟩

theorem fetchConnection_follows {serv : ℕ} (inside : serv ∈ S) :
    Follows (Footprint (ρ := ρ) S C) (CRedisServer.fetchConnection serv) := by
  refine .bind .get fun world => ?_
  split
  · exact .pure _
  · exact .bind (modifyServer_follows inside fun _ => ⟨rfl, rfl, .inl ⟨rfl, rfl⟩⟩) fun _ => .pure _

theorem awaitConnection_follows {serv : ℕ} (inside : serv ∈ S) (nTry : ℕ) :
    Follows (Footprint (ρ := ρ) S C) (CRedisServer.awaitConnection serv nTry) := by
  induction nTry with
  | zero => exact .pure _
  | succ nTry ih =>
    refine .bind (fetchConnection_follows inside) fun fetched => ?_
    cases fetched with
    | none => exact ih
    | some conn => exact .pure _

theorem servRequestWith_follows {serv : ℕ} (inside : serv ∈ S)
    {request : CRedisConnection → Action (Pool ρ) (ReturnCode × CRedisConnection)}
    (requests : ∀ conn, Follows (Footprint S C) (request conn)) :
    Follows (Footprint S C) (CRedisServer.servRequestWith serv request) := by
  refine .bind (awaitConnection_follows inside _) fun fetched => ?_
  cases fetched with
  | none => exact .pure _
  | some conn =>
    exact .bind (requests conn) fun result => .bind (returnConnection_follows inside _) fun _ => .pure _

theorem servRequest_follows {serv command : ℕ} (inside : serv ∈ S) (own : command ∈ C) :
    Follows (Footprint S C) (CRedisServer.servRequest net serv command) :=
  servRequestWith_follows inside fun conn => connRequest_follows net inside own conn

theorem servRequests_follows {serv : ℕ} {vecRedisCmd : List ℕ} (inside : serv ∈ S)
    (own : ∀ command ∈ vecRedisCmd, command ∈ C) :
    Follows (Footprint S C) (CRedisServer.servRequests net serv vecRedisCmd) :=
  servRequestWith_follows inside fun conn => connRequests_follows net inside own conn

theorem openConnections_follows {serv : ℕ} (inside : serv ∈ S) (count : ℕ) :
    Follows (Footprint S C) (CRedisServer.openConnections net serv count) := by
  induction count with
  | zero => exact .pure _
  | succ count ih =>
    refine .bind (reconnect_follows net inside {}) fun opened => ?_
    exact .ite (.bind (returnConnection_follows inside _) fun _ => ih) ih

/-- What is done to a new command is not done to one of the world. -/
theorem newCommand_bind_follows {α : Type} (redisCmd : CRedisCommand) {next : ℕ → Action (Pool ρ) α}
    (after : ∀ command, Follows (Footprint S {command}) (next command)) :
    Follows (Footprint S C) (newCommand redisCmd >>= next) := by
  intro source value target ran
  obtain ⟨command, middle, ranNew, ranNext⟩ := bind_eq_ok_iff.mp ran
  cases ranNew
  have new : Footprint S {source.commands} source
      { source with
        command := Function.update source.command source.commands redisCmd, commands := source.commands + 1 } :=
    { (Footprint.rfl' source : Footprint S {source.commands} source source) with
      toKept := kept_newCommand redisCmd source }
  refine (new.trans (after _ _ _ _ ranNext)).mono (fun _ _ => id) fun c bound same => ?_
  rw [Set.mem_singleton_iff.mp same] at bound
  exact absurd bound (lt_irrefl _)

theorem askTimeout_follows {serv : ℕ} (inside : serv ∈ S) :
    Follows (Footprint S C) (CRedisServer.askTimeout net serv) := by
  refine newCommand_bind_follows _ fun command => ?_
  refine .bind (servRequest_follows net inside (Set.mem_singleton command)) fun nRet => .bind .get fun world => ?_
  split
  · exact modifyServer_follows inside fun _ => ⟨rfl, rfl, .inl ⟨rfl, rfl⟩⟩
  · exact .pure _

theorem initializeServer_follows {serv : ℕ} (inside : serv ∈ S) :
    Follows (Footprint S C) (CRedisServer.initializeServer net serv) := by
  refine .bind (cleanConn_follows inside) fun _ => .bind .get fun _ =>
    .bind (openConnections_follows net inside _) fun _ => .bind .get fun _ => ?_
  exact .ite (.bind (askTimeout_follows net inside) fun _ => .bind .get fun _ => .pure _)
    (.bind .get fun _ => .pure _)

theorem new_follows (strHost : CppString) (nPort nTimeout nConnNum : ℤ) :
    Follows (Footprint S C) (CRedisServer.new net strHost nPort nTimeout nConnNum) := by
  refine .get_bind fun source value target ran => ?_
  obtain ⟨_, allocated, ranAllocate, ranRest⟩ := bind_eq_ok_iff.mp ran
  cases ranAllocate
  obtain ⟨_, constructed, ranConstruct, ranRest⟩ := bind_eq_ok_iff.mp ranRest
  cases ranConstruct
  obtain ⟨_, initialized, ranInitialize, ranReturn⟩ := bind_eq_ok_iff.mp ranRest
  cases ranReturn
  have later := initializeServer_follows (S := {source.servers.servers}) (C := C) net
    (Set.mem_singleton _) _ _ _ ranInitialize
  refine (Footprint.trans ?_ later).mono (fun q bound same => ?_) fun _ _ => id
  · exact { (Footprint.rfl' source : Footprint {source.servers.servers} C source source) with
      servers := Nat.le_succ _
      server := fun q bound _ => Function.update_of_ne bound.ne _ _
      drift := fun q bound => by
        dsimp only
        rw [Function.update_of_ne bound.ne]
        exact Drift.rfl' _ }
  · rw [Set.mem_singleton_iff.mp same] at bound
    exact absurd bound (lt_irrefl _)

theorem deleteServers_follows (vecRedisServ : List ℕ) (inside : ∀ serv ∈ vecRedisServ, serv ∈ S) :
    Follows (Footprint (ρ := ρ) S C) (deleteServers vecRedisServ) := by
  induction vecRedisServ with
  | nil => exact .pure _
  | cons serv vecRedisServ ih =>
    exact .bind (cleanConn_follows (inside serv List.mem_cons_self)) fun _ =>
      ih fun other member => inside other (List.mem_cons_of_mem _ member)

theorem assignServers_follows (nTimeout nConnNum : ℤ) (vecSlot : List SlotRegion) (vecRedisServ : List ℕ) :
    Follows (Footprint Set.univ C) (assignServers net nTimeout nConnNum vecRedisServ vecSlot) := by
  induction vecSlot generalizing vecRedisServ with
  | nil => exact .pure _
  | cons slotReg vecSlot ih =>
    refine .bind .get fun world => ?_
    split
    · exact .bind (ih _) fun _ => .pure _
    · refine .bind (new_follows net _ _ _ _) fun serv => .bind .get fun _ => .ite ?_ (.bind (ih _) fun _ => .pure _)
      exact .bind (deleteServers_follows _ fun _ _ => Set.mem_univ _) fun _ => .pure _

/-- The servers a client is given change no command. -/
theorem loadSlotsFrom_follows {command : ℕ} (own : command ∈ C) (vecRedisServ : List ℕ) :
    Follows (Kept C) (loadSlotsFrom net command vecRedisServ) := by
  have kept : ∀ {source target : World (Pool ρ)}, Footprint Set.univ C source target → Kept C source target :=
    fun footprint => footprint.toKept
  induction vecRedisServ with
  | nil => exact .pure _
  | cons serv vecRedisServ ih =>
    refine .bind .get fun _ => .ite (.pure _) (.bind ?_ fun nRet => .ite ?_ ih)
    · exact (servRequest_follows net (Set.mem_univ serv) own).mono fun _ _ => kept
    · refine .bind .get fun world => ?_
      split
      · exact .throw
      · split
        · exact .throw
        · exact ih
        · refine .bind .get fun _ => .bind ((assignServers_follows net _ _ _ _).mono fun _ _ => kept) fun assigned => ?_
          cases assigned with
          | none => exact .pure _
          | some tables =>
            refine .bind ((deleteServers_follows _ fun _ _ => Set.mem_univ _).mono fun _ _ => kept) fun _ => ?_
            exact .bind (.update fun world => { Kept.rfl' world with }) fun _ => .pure _

theorem newCommand_bind_kept {σ α : Type} (redisCmd : CRedisCommand) {next : ℕ → Action σ α}
    (after : ∀ command, Follows (Kept {command}) (next command)) : Follows (Kept C) (newCommand redisCmd >>= next) := by
  intro source value target ran
  obtain ⟨command, middle, ranNew, ranNext⟩ := bind_eq_ok_iff.mp ran
  cases ranNew
  refine ((kept_newCommand redisCmd source).trans (after _ _ _ _ ranNext)).mono fun c bound same => ?_
  rw [Set.mem_singleton_iff.mp same] at bound
  exact absurd bound (lt_irrefl _)

theorem refreshRound_follows : Follows (Kept C) (refreshRound net) := by
  refine .bind (.update (kept_note _)) fun _ => .bind .get fun world => ?_
  have setValid : ∀ bValid : Bool, Follows (Kept C) (modify fun world : World (Pool ρ) =>
      { world with client := { world.client with bValid := bValid } } : Action (Pool ρ) Unit) :=
    fun _ => .update fun world => { Kept.rfl' world with }
  refine .ite (.bind ?_ setValid) ?_
  · exact newCommand_bind_kept _ fun command => .bind .get fun _ =>
      loadSlotsFrom_follows net (Set.mem_singleton command) _
  · split
    · exact .bind .throw setValid
    · exact .bind ((initializeServer_follows net (Set.mem_univ _)).mono fun _ _ footprint => footprint.toKept) setValid

theorem refreshThread_follows : Follows (Kept C) (refreshThread net) := by
  refine .bind .get fun world => ?_
  induction net.rounds world.log with
  | zero => exact .pure _
  | succ count ih => exact .bind (refreshRound_follows net) fun _ => ih

variable (address : ℕ → ℕ)

theorem simpleExecute_follows (command : ℕ) :
    Follows (Kept {command}) (simpleExecute (net.servers address) command) := by
  refine .bind (refreshThread_follows net) fun _ => .bind .get fun world => .ite (.pure _) ?_
  split
  · exact .pure _
  · exact (servRequest_follows net (Set.mem_univ _) (Set.mem_singleton command)).mono
      fun _ _ footprint => footprint.toKept

theorem awaitValid_follows (nRetry : ℕ) : Follows (Kept C) (awaitValid (net.servers address) nRetry) := by
  induction nRetry with
  | zero => exact .pure _
  | succ nRetry ih => exact .bind .get fun _ => .ite (.pure _) (.bind (refreshThread_follows net) fun _ => ih)

theorem waitForRefresh_follows : Follows (Kept C) (waitForRefresh (net.servers address)) :=
  .bind (.update (kept_note _)) fun _ => .bind (refreshThread_follows net) fun _ =>
    .bind (awaitValid_follows net address _) fun _ => .bind (refreshThread_follows net) fun _ =>
      .bind .get fun _ => .pure _

theorem requestAll_follows (mapCmd : List (Option ℕ × List ℕ)) :
    Follows (Kept {command | command ∈ mapCmd.flatMap Prod.snd}) (requestAll (net.servers address) mapCmd) := by
  induction mapCmd with
  | nil => exact .pure _
  | cons entry mapCmd ih =>
    obtain ⟨_ | serv, vecCmd⟩ := entry
    · exact .throw
    · refine .bind ?_ fun nRet => .ite (ih.mono ?_) (.pure _)
      · exact (servRequests_follows net (Set.mem_univ serv) fun command member =>
          List.mem_append_left _ member).mono fun _ _ footprint => footprint.toKept
      · exact fun _ _ kept => kept.mono fun _ _ member => List.mem_append_right _ member

end

end CppRedis.Soundness.Requests
