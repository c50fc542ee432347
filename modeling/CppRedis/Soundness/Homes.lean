import CppRedis.Soundness.Requests

/-! # Servers and their hosts

A server connects to its hosts only, so a request to it that succeeds has the reply of one of them to its own words,
whatever the network does.
-/

namespace CppRedis.Soundness.Homes

open Machine Machine.Program Model.RedisClient Model.RedisCpp Requests

/-- Addresses. -/
abbrev Hosts := Set (CppString × ℤ)

/-- A context for one of the hosts, broken or without unanswered commands. -/
structure Linked (hosts : Hosts) (context : RedisContext) : Prop where
  host : (context.host, context.port) ∈ hosts
  clean : context.err = true ∨ context.pending = []

/-- A server that knows and is linked to these hosts only. -/
structure Housed (hosts : Hosts) (server : CRedisServer) : Prop where
  vecHosts : ∀ host ∈ server.vecHosts, host ∈ hosts
  address : server.strHost = [] ∨ (server.strHost, server.nPort) ∈ hosts
  idle : ∀ conn ∈ server.queIdleConn, ∀ context, conn.pContext = some context → Linked hosts context

section

variable {ρ : Type}

/-- All servers are at home, and what is stored is one of these states. -/
structure AtHome (hosts : ℕ → Hosts) (held : Set ρ) (world : World (Pool ρ)) : Prop where
  servers : ∀ serv, Housed (hosts serv) (world.servers.server serv)
  redis : world.servers.redis ∈ held

theorem AtHome.same {hosts : ℕ → Hosts} {held : Set ρ} {source target : World (Pool ρ)}
    (home : AtHome hosts held source)
    (server : target.servers.server = source.servers.server) (redis : target.servers.redis ∈ held) :
    AtHome hosts held target := by
  refine ⟨fun serv => ?_, redis⟩
  rw [server]
  exact home.servers serv

/-- A command, its words, the hosts that it may reach and the states that it may find there. -/
structure Inquiry (ρ : Type) where
  hosts : ℕ → Hosts
  held : Set ρ
  command : ℕ
  words : List CppString

/-- All is as expected, and the command has its words. -/
structure Asking (inquiry : Inquiry ρ) (world : World (Pool ρ)) : Prop
    extends AtHome inquiry.hosts inquiry.held world where
  args : (world.command inquiry.command).args = inquiry.words

/-- The command has a reply of one of the hosts of the server. -/
def Served (net : Network ρ) (inquiry : Inquiry ρ) (serv : ℕ) (world : World (Pool ρ)) : Prop :=
  ∃ redis ∈ inquiry.held, ∃ host ∈ inquiry.hosts serv,
    (world.command inquiry.command).pReply = some (net.serve redis host inquiry.words).1

variable (net : Network ρ) {inquiry : Inquiry ρ}

theorem Asking.same {source target : World (Pool ρ)} (asking : Asking inquiry source)
    (server : target.servers.server = source.servers.server) (redis : target.servers.redis ∈ inquiry.held)
    (command : target.command = source.command) : Asking inquiry target :=
  { asking.toAtHome.same server redis with args := by rw [command]; exact asking.args }

theorem Asking.of_logged {source target : World (Pool ρ)} (asking : Asking inquiry source)
    (logged : Logged source target) : Asking inquiry target := by
  obtain ⟨events, rfl, -⟩ := logged
  exact asking.same rfl asking.redis rfl

theorem Asking.setReply {source : World (Pool ρ)} (asking : Asking inquiry source) (reply : Option RedisReply) :
    Asking inquiry (source.setReply inquiry.command reply) := by
  refine { asking.toAtHome.same rfl asking.redis with args := ?_ }
  simp only [World.setReply, Function.update_self]
  exact asking.args

/-- A connection of a server is to one of its hosts, if there is one. -/
def Homely (hosts : Hosts) (conn : CRedisConnection) : Prop :=
  ∀ context, conn.pContext = some context → Linked hosts context

theorem modifyServer_home (serv : ℕ) {change : CRedisServer → CRedisServer}
    (keeps : ∀ server, Housed (inquiry.hosts serv) server → Housed (inquiry.hosts serv) (change server)) :
    Ensures (Asking inquiry) (modifyServer serv change) fun _ =>
      Asking inquiry := by
  refine .update fun source asking => { asking with servers := fun other => ?_ }
  by_cases same : other = serv
  · subst other
    simpa only [Function.update_self] using keeps _ (asking.servers serv)
  · simpa only [Function.update_of_ne same] using asking.servers other

theorem connectToRedis_home {serv : ℕ} {strHost : CppString} {nPort : ℤ}
    (member : (strHost, nPort) ∈ inquiry.hosts serv)
    (conn : CRedisConnection) :
    Ensures (Asking inquiry) (CRedisConnection.connectToRedis net strHost nPort conn)
      fun result world => Asking inquiry world ∧ Homely (inquiry.hosts serv) result.2 := by
  intro source home _ _ ran
  refine ⟨home.of_logged (connectToRedis_logged net _ _ _ _ _ _ ran), ?_⟩
  obtain ⟨connected, middle, ranConnect, ranRest⟩ := bind_eq_ok_iff.mp ran
  cases ranConnect
  cases decided : net.connect source.log (strHost, nPort) with
  | true =>
    simp only [decided, ↓reduceIte] at ranRest
    cases ranRest
    intro context same
    cases same
    exact ⟨member, .inr rfl⟩
  | false =>
    simp only [decided, Bool.false_eq_true, ↓reduceIte] at ranRest
    cases ranRest
    exact nofun

theorem connectToAny_home {serv : ℕ} {vecHosts : List (CppString × ℤ)}
    (known : ∀ host ∈ vecHosts, host ∈ inquiry.hosts serv) (conn : CRedisConnection) :
    Ensures (fun world => Asking inquiry world ∧ Homely (inquiry.hosts serv) conn)
      (CRedisConnection.connectToAny net serv conn vecHosts)
      fun result world => Asking inquiry world ∧ Homely (inquiry.hosts serv) result.2 := by
  induction vecHosts generalizing conn with
  | nil =>
    refine .bind _ (.and_fact (modifyServer_home serv fun server housed => ?_) _) fun _ => .pure fun _ here => here
    exact { housed with address := .inl rfl }
  | cons hostPair vecHosts ih =>
    have member := known hostPair List.mem_cons_self
    refine .bind _ ((connectToRedis_home net member conn).strengthen_pre fun _ here => here.1) fun connected => ?_
    refine .ite (fun _ => ?_) fun _ => ih (fun host later => known host (List.mem_cons_of_mem _ later)) _
    refine .bind _ (.and_fact (modifyServer_home serv fun server housed => ?_) _) fun _ => .pure fun _ here => here
    exact { housed with address := .inr member }

theorem reconnect_home (serv : ℕ) (conn : CRedisConnection) :
    Ensures (fun world => Asking inquiry world ∧ Homely (inquiry.hosts serv) conn)
      (CRedisConnection.reconnect net serv conn)
      fun result world => Asking inquiry world ∧ Homely (inquiry.hosts serv) result.2 := by
  refine .bind _ .get fun world source ⟨same, here⟩ => ?_
  subst same
  have housed := here.1.servers serv
  refine Ensures.ite (fun _ => connectToAny_home net housed.vecHosts conn) (fun named => ?_) world here
  refine .bind _ ((connectToRedis_home net (housed.address.resolve_left named) conn).strengthen_pre fun _ => And.left)
    fun connected => ?_
  exact .ite (fun _ => .pure fun _ here => here) fun _ => connectToAny_home net housed.vecHosts _

theorem refreshIdle_home (serv : ℕ) (tmNow : ℤ) (conn : CRedisConnection) :
    Ensures (fun world => Asking inquiry world ∧ Homely (inquiry.hosts serv) conn)
      (CRedisConnection.refreshIdle net serv tmNow conn)
      fun result world => Asking inquiry world ∧ Homely (inquiry.hosts serv) result.2 :=
  .get_then fun _ => .ite (fun _ => reconnect_home net serv conn) fun _ => .pure fun _ here => here

/-- The command leads from one of the states to one of them. -/
def Harmless (net : Network ρ) (inquiry : Inquiry ρ) : Prop :=
  ∀ redis ∈ inquiry.held, ∀ host, (net.serve redis host inquiry.words).2 ∈ inquiry.held

theorem Harmless.serveAll {net : Network ρ} (harmless : Harmless net inquiry) (host : CppString × ℤ)
    {done : List (ℕ × List CppString)} (own : ∀ entry ∈ done, entry.2 = inquiry.words) {redis : ρ}
    (member : redis ∈ inquiry.held) : net.serveAll redis host done ∈ inquiry.held := by
  induction done generalizing redis with
  | nil => exact member
  | cons entry done ih =>
    refine ih (fun other later => own other (List.mem_cons_of_mem _ later)) ?_
    rw [own entry List.mem_cons_self]
    exact harmless redis member host

variable {net} (harmless : Harmless net inquiry)
include harmless

/-- A command on a clean context is answered by its host, or the context breaks. -/
theorem redisCommandArgv_home {serv : ℕ} {context : RedisContext} (linked : Linked (inquiry.hosts serv) context) :
    Ensures (Asking inquiry) (redisCommandArgv net context inquiry.command)
      fun result world => Asking inquiry world ∧ Linked (inquiry.hosts serv) result.2 ∧
        ∀ reply, result.1 = some reply → ∃ redis ∈ inquiry.held, ∃ host ∈ inquiry.hosts serv,
          reply = (net.serve redis host inquiry.words).1 := by
  intro source asking value target ran
  obtain ⟨⟨taken, sent⟩, middle, ranAppend, ran⟩ := bind_eq_ok_iff.mp ran
  rcases redisAppendCommandArgv_cases net context inquiry.command source with
    ⟨broken, does⟩ | ⟨works, does⟩ | ⟨works, does⟩
  · cases does.symm.trans ranAppend
    cases ran
    exact ⟨asking, linked, nofun⟩
  · cases does.symm.trans ranAppend
    have empty := linked.clean.resolve_left (by rw [works]; exact Bool.false_ne_true)
    simp only [if_true, empty, asking.args, List.nil_append] at ran
    rcases redisGetReply_cases net { context with pending := [(inquiry.command, inquiry.words)] }
        (source.note (.append inquiry.command true)) with
      ⟨broken, does⟩ | ⟨-, first, args, rest, unanswered, -, does⟩ | ⟨-, done, own, does⟩
    · cases does.symm.trans ran
      exact absurd (works.symm.trans broken) Bool.false_ne_true
    · cases does.symm.trans ran
      cases unanswered
      refine ⟨asking.same rfl (harmless _ asking.redis _) rfl, ⟨linked.host, .inr rfl⟩, fun reply same => ?_⟩
      cases same
      exact ⟨_, asking.redis, _, linked.host, rfl⟩
    · cases does.symm.trans ran
      have words : ∀ entry ∈ done, entry.2 = inquiry.words := by
        intro entry member
        rw [List.mem_singleton.mp (own member)]
      exact ⟨asking.same rfl (harmless.serveAll _ words asking.redis) rfl, ⟨linked.host, .inl rfl⟩, nofun⟩
  · cases does.symm.trans ranAppend
    cases ran
    exact ⟨asking.same rfl asking.redis rfl, ⟨linked.host, .inl rfl⟩, nofun⟩

theorem cmdRequest_home (serv : ℕ) (conn : CRedisConnection) (nUseTime : ℤ) :
    Ensures (fun world => Asking inquiry world ∧ Homely (inquiry.hosts serv) conn)
      (CRedisCommand.cmdRequest net inquiry.command conn.pContext)
      fun result world => Asking inquiry world ∧
        Homely (inquiry.hosts serv) { pContext := result.2, nUseTime := nUseTime } ∧
        (result.1 = .success → Served net inquiry serv world) := by
  refine .get_then fun _ => .ite (fun _ => .pure fun _ here => ⟨here.1, here.2, nofun⟩) fun _ => ?_
  cases linked : conn.pContext with
  | none => exact .pure fun _ here => ⟨here.1, nofun, nofun⟩
  | some context =>
    rintro source ⟨asking, homely⟩
    have linked := homely context linked
    refine Ensures.bind (fun _ => Asking inquiry) (.update fun _ asking => asking.setReply none) (fun _ => ?_)
      source asking
    refine .bind _ (redisCommandArgv_home harmless linked) fun sent => ?_
    refine .bind (fun _ world => Asking inquiry world ∧ Linked (inquiry.hosts serv) sent.2 ∧
      (sent.1.isSome = true → Served net inquiry serv world)) (.update fun world here => ?_) fun _ =>
        .pure fun _ here => ⟨here.1, ?_, ?_⟩
    · refine ⟨here.1.setReply _, here.2.1, fun found => ?_⟩
      obtain ⟨reply, same⟩ := Option.isSome_iff_exists.mp found
      obtain ⟨redis, known, host, member, served⟩ := here.2.2 reply same
      refine ⟨redis, known, host, member, ?_⟩
      simp only [World.setReply, Function.update_self, same, served]
    · intro other same
      cases same
      exact here.2.1
    · intro success
      cases found : sent.1 with
      | none =>
        simp only [found] at success
        cases success
      | some reply => exact here.2.2 (by rw [found]; rfl)

theorem connRequest_home (serv : ℕ) (conn : CRedisConnection) :
    Ensures (fun world => Asking inquiry world ∧ Homely (inquiry.hosts serv) conn)
      (CRedisConnection.connRequest net serv inquiry.command conn)
      fun result world => Asking inquiry world ∧ Homely (inquiry.hosts serv) result.2 ∧
        (result.1 = .success → Served net inquiry serv world) := by
  have clock : Ensures (fun world => Asking inquiry world ∧ Homely (inquiry.hosts serv) conn) (time net)
      fun _ world => Asking inquiry world ∧ Homely (inquiry.hosts serv) conn :=
    .and_fact ((time_logged net).ensures fun _ _ logged asking => asking.of_logged logged) _
  refine .bind _ clock fun tmNow => .bind _ (refreshIdle_home net serv tmNow conn) fun ready => ?_
  refine .ite (fun _ => .pure fun _ here => ⟨here.1, here.2, nofun⟩) fun _ => ?_
  refine .bind _ (cmdRequest_home harmless serv ready.2 ready.2.nUseTime) fun first => .ite (fun failed => ?_)
    fun _ => .pure fun _ here => here
  refine .get_then fun _ => .ite (fun _ => .pure fun _ here => here) fun _ => ?_
  refine .bind _ ((reconnect_home net serv _).strengthen_pre fun _ here => ⟨here.1, here.2.1⟩) fun again =>
    .ite (fun _ => .pure fun _ here => ⟨here.1, here.2, nofun⟩) fun _ => ?_
  exact .bind _ (cmdRequest_home harmless serv again.2 again.2.nUseTime) fun second => .pure fun _ here => here

omit harmless

theorem fetchConnection_home (serv : ℕ) :
    Ensures (Asking inquiry) (CRedisServer.fetchConnection serv)
      fun fetched world => Asking inquiry world ∧ ∀ conn, fetched = some conn → Homely (inquiry.hosts serv) conn := by
  refine .bind _ .get fun world source ⟨same, home⟩ => ?_
  subst same
  have housed := home.servers serv
  cases idle : (world.servers.server serv).queIdleConn with
  | nil => exact Ensures.pure (fun _ here => ⟨here, nofun⟩) world home
  | cons conn rest =>
    have homely : ∀ other ∈ conn :: rest, Homely (inquiry.hosts serv) other := by
      rw [← idle]
      exact housed.idle
    refine Ensures.bind _ (modifyServer_home serv fun server kept => ?_) (fun _ => .pure fun _ here => ⟨here, ?_⟩)
      world home
    · exact { kept with idle := fun other member => homely other (List.mem_cons_of_mem _ member) }
    · intro other same
      cases same
      exact homely conn List.mem_cons_self

theorem awaitConnection_home (serv nTry : ℕ) :
    Ensures (Asking inquiry) (CRedisServer.awaitConnection serv nTry)
      fun fetched world => Asking inquiry world ∧ ∀ conn, fetched = some conn → Homely (inquiry.hosts serv) conn := by
  induction nTry with
  | zero => exact .pure fun _ home => ⟨home, nofun⟩
  | succ nTry ih =>
    refine .bind _ (fetchConnection_home serv) fun fetched => ?_
    cases fetched with
    | none => exact ih.strengthen_pre fun _ here => here.1
    | some conn => exact .pure fun _ here => here

theorem returnConnection_home (serv : ℕ) {conn : CRedisConnection} (homely : Homely (inquiry.hosts serv) conn) :
    Ensures (Asking inquiry) (CRedisServer.returnConnection serv conn) fun _ => Asking inquiry := by
  refine modifyServer_home serv fun server housed => { housed with idle := fun other member => ?_ }
  rcases List.mem_append.mp member with idle | returned
  · exact housed.idle other idle
  · rw [List.mem_singleton.mp returned]
    exact homely

/-- A request that succeeds has the reply of a host of its server. -/
theorem servRequest_home (harmless : Harmless net inquiry) (serv : ℕ) :
    Ensures (Asking inquiry) (CRedisServer.servRequest net serv inquiry.command)
      fun nRet world => Asking inquiry world ∧ (nRet = .success → Served net inquiry serv world) := by
  refine .bind _ (awaitConnection_home serv _) fun fetched => ?_
  cases fetched with
  | none => exact .pure fun _ here => ⟨here.1, nofun⟩
  | some conn =>
    refine .bind _ ((connRequest_home harmless serv conn).strengthen_pre fun _ here => ⟨here.1, here.2 conn rfl⟩)
      fun result => ?_
    rintro source ⟨asking, homely, served⟩ value target ran
    obtain ⟨_, returned, ranReturn, ran⟩ := bind_eq_ok_iff.mp ran
    have asking := returnConnection_home serv homely source asking _ _ ranReturn
    cases ranReturn
    cases ran
    exact ⟨asking, served⟩

end

end CppRedis.Soundness.Homes
