import CppRedis.Machine.Delimited
import CppRedis.Soundness.Entries
import CppRedis.Soundness.Errtypes
import CppRedis.Soundness.Numerals

/-! # What follows `ASK`

A reply with `ASK` names a node. The next attempt is made on this node whenever the client has it as a master, can
read its name, and does not read from its replicas; otherwise it depends on the surroundings where the attempt goes.
-/

namespace CppRedis.Soundness.Asking

open Machine Model Model.R3c Model.RedisCpp Machine.Effect Frames Rounds Masters Refreshing Retries
  Entries Errtypes Numerals

variable {env : Env}

/-- A reply with `ASK` that names a node, as a server writes it. -/
def Names (str : CppString) (node : Node) : Prop :=
  ∃ slot, (∀ byte ∈ slot ++ node.1, byte ≠ 0 ∧ byte ≠ 0x20) ∧ node.2 ≠ 0 ∧
    str = text "ASK " ++ slot ++ 0x20 :: node2string node

theorem node2string_visible {node : Node} (visible : ∀ byte ∈ node.1, byte ≠ 0 ∧ byte ≠ 0x20) :
    ∀ byte ∈ node2string node, byte ≠ 0 ∧ byte ≠ 0x20 := by
  intro byte member
  rw [node2string, List.mem_append, List.mem_cons] at member
  rcases member with host | rfl | port
  · exact visible byte host
  · decide
  · constructor
    · rintro rfl
      exact notMem_convertToString (by decide) _ port
    · rintro rfl
      exact notMem_convertToString (by decide) _ port

/-- The whole text is read up to its end, and the name stands behind its last blank. -/
theorem Names.last {str : CppString} {node : Node} (names : Names str node) :
    cStr str = str ∧ parseMovedString str = (cut 0x3A (node2string node)).bind fun (ip, port) =>
      if toPort (RedisClient.atoi port) = 0 then none else some (ip, toPort (RedisClient.atoi port)) := by
  obtain ⟨slot, visible, port, rfl⟩ := names
  have named := node2string_visible fun byte member => visible byte (List.mem_append_right _ member)
  constructor
  · apply List.takeWhile_eq_self_iff.mpr
    intro byte member
    rw [List.append_assoc, List.mem_append, List.mem_append, List.mem_cons] at member
    apply decide_eq_true
    rcases member with code | slot | rfl | name
    · exact (by decide +kernel : ∀ byte ∈ text "ASK ", byte ≠ 0) byte code
    · exact (visible byte (List.mem_append_left _ slot)).1
    · decide
    · exact (named byte name).1
  · have blank : 0x20 ∈ text "ASK " ++ slot ++ 0x20 :: node2string node :=
      List.mem_append_right _ List.mem_cons_self
    have unspaced : 0x20 ∉ (node2string node).reverse := fun member =>
      (named 0x20 (List.mem_reverse.mp member)).2 rfl
    have behind : ((text "ASK " ++ slot ++ 0x20 :: node2string node).reverse.takeWhile (· ≠ 0x20)).reverse =
        node2string node := by
      rw [List.reverse_append, List.reverse_cons, List.append_assoc, List.singleton_append,
        Delimited.takeWhile_mark unspaced, List.reverse_reverse]
    rw [parseMovedString, if_pos blank, behind]
    cases cut 0x3A (node2string node) <;> rfl

/-- A host without a colon is read as it is written. -/
theorem Names.parsed {str : CppString} {node : Node} (names : Names str node) (colonless : 0x3A ∉ node.1) :
    parseMovedString (cStr str) = some node := by
  obtain ⟨whole, last⟩ := names.last
  obtain ⟨slot, visible, port, rfl⟩ := names
  have read : toPort (RedisClient.atoi (RedisClient.convertToString node.2.toNat)) = node.2 := by
    have bound := node.2.toNat_lt
    have small : (node.2.toNat : ℤ) % 65536 = node.2.toNat := by omega
    rw [atoi_convertToString (by omega), toPort, small, Int.toNat_natCast, UInt16.ofNat_toNat]
  rw [whole, last, cut, node2string, Delimited.dropWhile_mark colonless, Delimited.takeWhile_mark colonless]
  exact (if_neg (read.trans_ne port)).trans (congrArg (fun port => some (node.1, port)) read)

/-- What is read has a host without a colon. -/
theorem colonless_of_parsed {str : CppString} {node : Node} (parsed : parseMovedString str = some node) :
    0x3A ∉ node.1 := by
  rw [parseMovedString] at parsed
  split at parsed
  · rw [cut] at parsed
    split at parsed
    · cases parsed
    · next ip port found =>
      split at parsed
      · cases parsed
      · cases parsed
        split at found
        · cases found
        · cases found
          intro colon
          have other := List.all_eq_true.mp (List.all_takeWhile ..) _ colon
          exact of_decide_eq_true other rfl
  · cases parsed

/-- The address that a place in the tables stands for. -/
def address : NodeRef → Node
  | .master node => node
  | .replica _ replicaNode => replicaNode

def AtHome (redisNode : NodeRef) (entry : CRedisNode) : Prop := entry.node = address redisNode

/-- Every entry of the tables is at its own address. -/
def Keyed (client : CRedisClient) : Prop := Everywhere AtHome client

theorem atHome_lasting : Lasting AtHome where
  update _ _ _ placed _ home := (placed _).trans home
  master _ _ _ _ := rfl
  replica _ _ _ := rfl

theorem keyed_frame : TableFrame (Carries AtHome) := carries_frame atHome_lasting

theorem keyed_loose (world : World) (update : CRedisNode → CRedisNode) (redisNode : NodeRef) (placed : Placed update) :
    Carries AtHome world { world with client := world.client.modifyAt update redisNode } :=
  fun keyed => keyed.modifyAt fun entry home => (placed entry).trans home

/-- In the tables of a client this stays so. -/
theorem redisCommand_keyed (rounds : ℕ) (readonly : Bool) (numRetries : ℤ) (key : CppString) :
    Keeps (Carries AtHome) (redisCommand env rounds readonly numRetries key) :=
  keyed_frame.redisCommand env keyed_loose (fun _ _ => id) (fun _ _ _ _ => id)
    (fun _ _ => id) rounds readonly numRetries
    key

def Connecting (event : Event) : Prop := ∃ node readonly connected, event = .connect node readonly connected

/-- A master has been connected, unless this has been refused. -/
structure Opened (node : Node) (master opened : CRedisMasterNode) (connected : Bool) (connects : List Event)
    (source target : World) : Prop where
  lookup : target.client.masters.lookup node = some opened
  node : opened.node = master.node
  replicas : opened.replicas = master.replicas
  index : opened.index = master.index
  context : opened.context.isSome = connected
  kept : master.context.isSome → connected = true
  policy : target.client.readPolicy = source.client.readPolicy
  log : target.log = source.log ++ connects
  connecting : ∀ event ∈ connects, Connecting event
  refused : connected = false → .connect master.node false false ∈ connects

theorem ensureContext_opened (env : Env) {node : Node} {master : CRedisMasterNode} {source : World}
    (there : source.client.masters.lookup node = some master) :
    ∃ connected target opened connects, ensureContext env (.master node) source = (.ok connected, target) ∧
      Opened node master opened connected connects source target := by
  have found : source.client.at? (.master node) = some master.toCRedisNode := by
    rw [CRedisClient.at?, there, Option.map_some]
  rw [ensureContext, bind_of_ok (entryAt_apply found)]
  rcases connection : master.context with _ | context
  · obtain ⟨context, errinfo, _, ran⟩ := connectRedisNode_run env master.node false source
    refine ⟨context.isSome, _, { master with toCRedisNode := master.setRedisContext context },
      [.connect master.node false context.isSome], bind_of_ok ran, ?_⟩
    exact {
      lookup := by
        rw [CRedisClient.modifyAt, CRedisClient.modifyMaster_lookup, if_pos rfl, there]
        rfl
      node := rfl
      replicas := rfl
      index := rfl
      context := rfl
      kept := by
        rw [connection]
        rintro ⟨⟩
      policy := CRedisClient.modifyMaster_readPolicy ..
      log := rfl
      connecting := by
        intro event member
        rw [List.mem_singleton.mp member]
        exact ⟨_, _, _, rfl⟩
      refused := by
        intro off
        rw [off]
        exact List.mem_cons_self }
  · refine ⟨true, source, master, [], rfl, ?_⟩
    exact {
      lookup := there
      node := rfl
      replicas := rfl
      index := rfl
      context := by rw [connection, Option.isSome_some]
      kept := fun _ => rfl
      policy := rfl
      log := (List.append_nil _).symm
      connecting := List.forall_mem_nil _
      refused := by rintro ⟨⟩ }

/-- It is the turn of the master itself, not of one of its replicas. -/
def Turns (policy : ReadPolicy) (master : CRedisMasterNode) : Prop :=
  master.replicas.keys = [] ∨
    policy = .readReplica ∧ master.index.toNat % (master.replicas.keys.length + 1) = master.replicas.keys.length

theorem chooseNode_turns (env : Env) {node : Node} {master : CRedisMasterNode} {source : World}
    (there : source.client.masters.lookup node = some master) :
    ∃ redisNode target index, chooseNode env node source = (.ok redisNode, target) ∧ target.log = source.log ∧
      target.client.readPolicy = source.client.readPolicy ∧
      target.client.masters.lookup node = some { master with index := index } ∧
      (Turns source.client.readPolicy master → redisNode = .master node) ∧
      (¬ Turns source.client.readPolicy master → ∃ replicaNode ∈ master.replicas.keys,
        redisNode = .replica node replicaNode) := by
  have perm := env.order_perm source.log master.replicas.keys
  rw [chooseNode, bind_of_ok (get_apply _), there]
  dsimp only
  by_cases none : env.order source.log master.replicas.keys = []
  · have empty : master.replicas.keys = [] := List.Perm.nil_eq (none ▸ perm) |>.symm
    rw [if_pos none]
    exact ⟨_, source, master.index, rfl, rfl, rfl, there, fun _ => rfl, fun other => absurd (.inl empty) other⟩
  · have filled : master.replicas.keys ≠ [] := fun empty => none (List.perm_nil.mp (empty ▸ perm))
    have turned : ({ source with client := source.client.modifyMaster node fun master =>
        { master with index := master.index + 1 } } : World).client.masters.lookup node =
          some { master with index := master.index + 1 } := by
      dsimp only
      rw [CRedisClient.modifyMaster_lookup, if_pos rfl, there]
      rfl
    rw [if_neg none, bind_of_ok (modifyClient_run _ _), perm.length_eq]
    split
    · next own =>
      refine ⟨_, _, master.index + 1, rfl, rfl, CRedisClient.modifyMaster_readPolicy .., turned, fun _ => rfl, ?_⟩
      exact fun other => absurd (.inr own) other
    · next other =>
      refine ⟨_, _, master.index + 1, rfl, rfl, CRedisClient.modifyMaster_readPolicy .., turned, ?_, fun _ => ?_⟩
      · exact fun turn => absurd (turn.resolve_left filled) other
      · refine ⟨_, perm.mem_iff.mp (?_ : _ ∈ env.order source.log master.replicas.keys), rfl⟩
        have position : master.index.toNat % (master.replicas.keys.length + 1) % master.replicas.keys.length <
            (env.order source.log master.replicas.keys).length := by
          rw [perm.length_eq]
          exact Nat.mod_lt _ (List.length_pos_of_ne_nil filled)
        rw [List.getD_eq_getElem _ _ position]
        exact List.getElem_mem position

/-- The command goes to the master, and to none of its replicas. -/
def Own (readonly : Bool) (policy : ReadPolicy) (master : CRedisMasterNode) : Prop :=
  readonly = false ∨ policy = .onlyMaster ∨ policy = .priorityMaster ∧ master.context.isSome ∨ Turns policy master

theorem Opened.own {readonly : Bool} {node : Node} {master opened : CRedisMasterNode} {connected : Bool}
    {connects : List Event} {source target : World} (opens : Opened node master opened connected connects source target)
    (own : Own readonly source.client.readPolicy master) : Own readonly target.client.readPolicy opened := by
  rw [opens.policy]
  refine own.imp_right fun reads => reads.imp_right fun reads => ?_
  rcases reads with ⟨policy, there⟩ | turns
  · exact .inl ⟨policy, opens.context.trans (opens.kept there)⟩
  · rw [Turns, ← opens.replicas, ← opens.index] at turns
    exact .inr turns

/-- The master itself is read from, connected or not. -/
theorem readNode_own (env : Env) {readonly connected : Bool} {node : Node} {master : CRedisMasterNode} {source : World}
    (there : source.client.masters.lookup node = some master) (context : master.context.isSome = connected)
    (own : Own readonly source.client.readPolicy master) :
    ∃ target last connects, readNode env readonly node connected source = (.ok (.master node), target) ∧
      target.client.masters.lookup node = some last ∧ last.node = master.node ∧
      target.log = source.log ++ connects ∧ (∀ event ∈ connects, Connecting event) ∧
      (last.context = none → connected = false ∨ .connect master.node false false ∈ connects) := by
  have off : master.context = none → connected = false := fun none => context ▸ (by rw [none, Option.isSome_none])
  rw [readNode, bind_of_ok (get_apply _)]
  split
  · exact ⟨source, master, [], rfl, there, rfl, (List.append_nil _).symm, List.forall_mem_nil _,
      fun none => .inl (off none)⟩
  · next reads =>
    split
    · exact ⟨source, master, [], rfl, there, rfl, (List.append_nil _).symm, List.forall_mem_nil _,
        fun none => .inl (off none)⟩
    · next unprivileged =>
      have turns : Turns source.client.readPolicy master := by
        rcases own with writes | only | privileged | turns
        · exact absurd (.inl (by rw [writes, Bool.not_false])) reads
        · exact absurd (.inr only) reads
        · exact absurd ⟨context.symm.trans privileged.2, privileged.1⟩ unprivileged
        · exact turns
      obtain ⟨redisNode, middle, index, ran, log, _, turned, self, _⟩ := chooseNode_turns env there
      obtain rfl := self turns
      obtain ⟨again, target, last, connects, ensured, opens⟩ := ensureContext_opened env turned
      rw [bind_of_ok ran, bind_of_ok ensured]
      refine ⟨target, last, connects, by rw [ite_self]; rfl, opens.lookup, opens.node, log ▸ opens.log,
        opens.connecting, ?_⟩
      intro none
      exact .inr (opens.refused (opens.context.symm.trans (by rw [none, Option.isSome_none])))

/-- Otherwise a replica is chosen if it is connected or can be. -/
theorem readNode_other {readonly connected : Bool} {node : Node} {master : CRedisMasterNode} {redisNode : NodeRef}
    {source target : World} (there : source.client.masters.lookup node = some master)
    (ran : readNode env readonly node connected source = (.ok redisNode, target)) :
    redisNode = .master node ∨ readonly = true ∧ ∃ replicaNode ∈ master.replicas.keys,
      redisNode = .replica node replicaNode := by
  rw [readNode, bind_of_ok (get_apply _)] at ran
  split at ran
  · cases ran
    exact .inl rfl
  · next reads =>
    have reading : readonly = true := by
      by_contra writes
      exact reads (.inl (by rw [Bool.eq_false_iff.mpr writes, Bool.not_false]))
    split at ran
    · cases ran
      exact .inl rfl
    · obtain ⟨chosen, middle, index, choose, _, _, _, self, other⟩ := chooseNode_turns env there
      rw [bind_of_ok choose] at ran
      obtain ⟨made, last, _, rest⟩ := bind_eq_ok_iff.mp ran
      cases made with
      | true =>
        cases rest
        by_cases turns : Turns source.client.readPolicy master
        · exact .inl (self turns)
        · exact .inr ⟨reading, other turns⟩
      | false =>
        cases rest
        exact .inl rfl

variable {readonly : Bool} {key : CppString} {asked node : Node} {source : World} {master : CRedisMasterNode}

/-- The search for a master leads to this one. -/
def Picks (env : Env) (asked node : Node) (source : World) : Prop :=
  ∀ slot, findMaster env slot (some asked) source = (.ok (some node), source)

theorem picks_known (there : (source.client.masters.lookup node).isSome) : Picks env node node source := by
  intro slot
  rw [findMaster, bind_of_ok (get_apply _), Option.getD_some, if_pos there]
  rfl

/-- In place of a node that is not there some master is taken. -/
theorem picks_random (env : Env) (cluster : Cluster source) (absent : source.client.masters.lookup asked = none)
    (filled : source.client.masters.keys ≠ []) :
    ∃ other position, (env.order source.log source.client.masters.keys)[position]? = some other ∧
      position ≤ (env.random source.log).toNat ∧ other ∈ source.client.masters.keys ∧ Picks env asked other source := by
  have perm := env.order_perm source.log source.client.masters.keys
  have ordered : env.order source.log source.client.masters.keys ≠ [] := fun none =>
    filled (List.Perm.nil_eq (none ▸ perm)).symm
  have seeds : source.client.nodes ≠ [] := by
    intro none
    rw [Cluster, CRedisClient.clusterMode, none] at cluster
    exact absurd cluster (by decide)
  have inside := Nat.mod_lt ((env.random source.log).toNat % source.client.nodes.length)
    (List.length_pos_of_ne_nil ordered)
  refine ⟨_, _, List.getElem?_eq_getElem inside, (Nat.mod_le _ _).trans (Nat.mod_le _ _),
    perm.mem_iff.mp (List.getElem_mem inside), fun slot => ?_⟩
  rw [findMaster, bind_of_ok (get_apply _), Option.getD_some, absent, if_neg (by exact Bool.false_ne_true),
    randomRedisMasterNode, bind_of_ok (get_apply _), if_neg ordered, if_neg seeds, List.getElem?_eq_getElem inside]
  rfl

/-- The choice, once the master has been found. -/
theorem chosen_of_picks (cluster : Cluster source) (there : (source.client.masters.lookup node).isSome)
    (picks : Picks env asked node source) {found : Option NodeRef} {chosen : World} :
    Chosen env readonly key (some asked) source found chosen ↔
      (ensureContext env (.master node) >>= fun connected =>
        readNode env readonly node connected >>= fun redisNode => pure (some redisNode) :
          Action (Option NodeRef)) source =
          (.ok found, chosen) := by
  have filled : source.client.masters.keys ≠ [] :=
    List.ne_nil_of_mem (AList.mem_keys.mp (AList.lookup_isSome.mp there))
  have bound := getKeySlot_lt (env.random source.log).toNat key
  rw [Cluster] at cluster
  rw [Chosen, if_pos cluster, getRedisNode, clusterNode_found bound filled (picks _)]

/-- What an attempt sends: nothing without a connection that can be used, and otherwise `ASKING` and the command, unless
`ASKING` is lost. -/
inductive Exchange (redisNode : NodeRef) (node : Node) (context : Option RedisContext) : List Event → Prop where
  | nothing (unusable : ∀ made ∈ context, made.err ≠ none) : Exchange redisNode node context []
  | lost (err : RedisErr) :
      Exchange redisNode node context [.request .asking (some redisNode) node (.lost err)]
  | both (reply : RedisReply) (answer : Answer) :
      Exchange redisNode node context
        [.request .asking (some redisNode) node (.reply reply), .request .command (some redisNode) node answer]

theorem send_open (env : Env) (request : Request) (redisNode : Option NodeRef) (address : Node) {context : RedisContext}
    (usable : context.err = none) (source : World) :
    send env request redisNode address context source =
      (.ok ((env.answer source.log request address).reply?, (env.answer source.log request address).context),
        source.note (.request request redisNode address (env.answer source.log request address))) := by
  rw [send, usable, if_neg (by exact Bool.false_ne_true)]
  rfl

theorem send_broken (env : Env) (request : Request) (redisNode : Option NodeRef) (address : Node)
    {context : RedisContext}
    (broken : context.err ≠ none) (source : World) :
    send env request redisNode address context source = (.ok (none, context), source) := by
  rw [send, if_pos (Option.isSome_iff_ne_none.mpr broken)]
  rfl

theorem askFirst_run {redisNode : NodeRef} {address : Node} {context after : RedisContext} {reply : Option RedisReply}
    {source target : World} (sent : send env .asking
      (some redisNode) address context source = (.ok (reply, after), target)) :
    askFirst env true redisNode address context source = (.ok after, target) := by
  rw [askFirst, if_pos rfl, bind_of_ok sent]
  rfl

theorem handleRedisReply_log (redisNode : NodeRef) (reply : RedisReply) (source : World) :
    ∃ result target, handleRedisReply redisNode reply source = (.ok result, target) ∧ target.log = source.log := by
  cases reply with
  | error str =>
    rw [handleRedisReply, bind_of_ok (modifyClient_run _ _), handleRedisReplayError, bind_of_ok (get_apply _)]
    dsimp only
    rw [bind_of_ok (set_errinfo _ _), provided]
    split
    · exact ⟨_, _, rfl, rfl⟩
    · exact ⟨_, _, rfl, rfl⟩
  | _ => exact ⟨_, _, rfl, rfl⟩

theorem handleRedisCommandError_log (env : Env) (redisNode : NodeRef) (err : Option RedisErr) (source : World) :
    ∃ result target, handleRedisCommandError env redisNode err source = (.ok result, target) ∧
      target.log = source.log := by
  rw [handleRedisCommandError, bind_of_ok (get_apply source), bind_of_ok (set_errinfo _ _)]
  split
  · exact ⟨_, _, rfl, rfl⟩
  · exact ⟨_, _, rfl, rfl⟩

/-- The command over a connection, once `ASKING` has left it behind. -/
theorem transmit_run {redisNode : NodeRef} {entry : CRedisNode} {context asked after : RedisContext}
    {reply : Option RedisReply} {source middle third : World} (found : source.client.at? redisNode = some entry)
    (connection : entry.context = some context)
    (ask : askFirst env true redisNode entry.node context source = (.ok asked, middle))
    (sent : send env .command (some redisNode) entry.node asked middle = (.ok (reply, after), third)) :
    ∃ result target, transmit env true redisNode source = (.ok (result, reply), target) ∧ target.log = third.log := by
  rw [transmit, bind_of_ok (entryAt_apply found), connection]
  dsimp only
  rw [bind_of_ok ask, bind_of_ok sent]
  dsimp only
  rw [bind_of_ok (modifyClient_run _ _)]
  rcases reply with _ | reply
  · obtain ⟨result, target, ran, log⟩ := handleRedisCommandError_log env redisNode after.err
      { third with client := CRedisClient.modifyAt ({ · with context := some after }) redisNode third.client }
    exact ⟨result, target, bind_of_ok ran, log⟩
  · obtain ⟨result, target, ran, log⟩ := handleRedisReply_log redisNode reply
      { third with client := CRedisClient.modifyAt ({ · with context := some after }) redisNode third.client }
    exact ⟨result, target, bind_of_ok ran, log⟩

theorem transmit_exchange (env : Env) {redisNode : NodeRef} {entry : CRedisNode} {source : World}
    (found : source.client.at? redisNode = some entry) :
    ∃ result reply target events, transmit env true redisNode source = (.ok (result, reply), target) ∧
      target.log = source.log ++ events ∧ Exchange redisNode entry.node entry.context events := by
  rcases connection : entry.context with _ | context
  · refine ⟨.reconnUncond, none, source, [], ?_, (List.append_nil _).symm, .nothing nofun⟩
    rw [transmit, bind_of_ok (entryAt_apply found), connection]
    rfl
  · by_cases usable : context.err = none
    · have asks := send_open env .asking (some redisNode) entry.node usable source
      cases answer : env.answer source.log .asking entry.node with
      | lost err =>
        rw [answer] at asks
        have broken : (Answer.lost err).context.err ≠ none := nofun
        obtain ⟨result, target, ran, log⟩ := transmit_run found connection (askFirst_run asks)
          (send_broken env .command (some redisNode) entry.node broken _)
        exact ⟨result, none, target, _, ran, log, .lost err⟩
      | reply reply =>
        rw [answer] at asks
        have usable : (Answer.reply reply).context.err = none := rfl
        obtain ⟨result, target, ran, log⟩ := transmit_run found connection (askFirst_run asks)
          (send_open env .command (some redisNode) entry.node usable _)
        exact ⟨result, _, target, _, ran, log.trans (List.append_assoc ..), .both reply _⟩
    · have nothing (request : Request) := send_broken env request (some redisNode) entry.node usable source
      obtain ⟨result, target, ran, log⟩ :=
        transmit_run found connection (askFirst_run (nothing .asking)) (nothing .command)
      refine ⟨result, none, target, [], ran, log.trans (List.append_nil _).symm, .nothing ?_⟩
      rintro made same
      cases same
      exact usable

/-- An attempt with a redirection goes to a node: the node that it chooses is there, and if there is no connection to
it, this is because one has been refused. -/
def GoesTo (env : Env) (readonly : Bool) (key : CppString) (askNode : Option Node) (node : Node)
    (source : World) : Prop :=
  ∃ redisNode chosen entry connects,
    Chosen env readonly key askNode source (some redisNode) chosen ∧ chosen.client.at? redisNode = some entry ∧
    entry.node = node ∧ chosen.log = source.log ++ connects ∧ (∀ event ∈ connects, Connecting event) ∧
    (entry.context = none → .connect node false false ∈ connects) ∧
    ∃ result reply sent events, Transmitted env askNode redisNode chosen result reply sent ∧
      sent.log = chosen.log ++ .attempt (some redisNode) :: events ∧ Exchange redisNode node entry.context events

/-- The node is in the table of masters and is not left for its replicas, and its name can be read, or there is no other
master. -/
structure Leads (readonly : Bool) (node : Node) (client : CRedisClient) : Prop where
  known : ∃ master, client.masters.lookup node = some master ∧ Own readonly client.readPolicy master
  readable : 0x3A ∉ node.1 ∨ client.masters.keys = [node]

/-- No replica in the tables has this address. -/
def Lone (node : Node) (client : CRedisClient) : Prop :=
  ∀ other master, client.masters.lookup other = some master → node ∉ master.replicas.keys

theorem goesTo_of_picks (cluster : Cluster source) (keyed : Keyed source.client) (picks : Picks env asked node source)
    (there : source.client.masters.lookup node = some master) (own : Own readonly source.client.readPolicy master) :
    GoesTo env readonly key (some asked) node source := by
  obtain ⟨connected, middle, opened, first, ensured, opens⟩ := ensureContext_opened env there
  obtain ⟨chosen, last, second, ran, lookup, same, log, connecting, refused⟩ :=
    readNode_own env opens.lookup opens.context (opens.own own)
  have home : master.node = node := keyed (.master node) master.toCRedisNode (by rw [CRedisClient.at?, there]; rfl)
  have choice : Chosen env readonly key (some asked) source (some (.master node)) chosen := by
    rw [chosen_of_picks cluster (Option.isSome_of_eq_some there) picks, bind_of_ok ensured, bind_of_ok ran]
    rfl
  have entry : chosen.client.at? (.master node) = some last.toCRedisNode := by
    rw [CRedisClient.at?, lookup]
    rfl
  have placed : last.node = node := same.trans (opens.node.trans home)
  have attempted : (chosen.note (.attempt (some (.master node)))).client.at? (.master node) = some last.toCRedisNode :=
    entry
  obtain ⟨result, reply, sent, events, transmitted, noted, exchange⟩ := transmit_exchange env attempted
  refine ⟨.master node, chosen, last.toCRedisNode, first ++ second, choice, entry, placed, ?_, ?_, ?_, result, reply,
    sent, events, transmitted, noted.trans (List.append_assoc ..), placed ▸ exchange⟩
  · rw [log, opens.log, List.append_assoc]
  · intro event member
    rcases List.mem_append.mp member with early | late
    · exact opens.connecting event early
    · exact connecting event late
  · intro none
    rw [← home]
    rcases refused none with off | again
    · exact List.mem_append_left _ (opens.refused off)
    · exact List.mem_append_right _ (opens.node ▸ again)

/-- Where no replica that is read from has the address, the attempt can only go to the master there. -/
theorem master_of_goesTo (cluster : Cluster source) (keyed : Keyed source.client) {other : Node}
    (picks : Picks env asked other source) (there : source.client.masters.lookup other = some master)
    (lone : readonly = true → Lone node source.client) (goes : GoesTo env readonly key (some asked) node source) :
    other = node ∧ ∃ chosen, Chosen env readonly key (some asked) source (some (.master node)) chosen := by
  obtain ⟨redisNode, chosen, entry, connects, choice, found, placed, _⟩ := goes
  have home : entry.node = address redisNode :=
    (keyed_frame.getRedisNode env _ readonly (some asked)).run choice keyed redisNode entry found
  have ran := (chosen_of_picks cluster (Option.isSome_of_eq_some there) picks).mp choice
  obtain ⟨connected, middle, opened, first, ensured, opens⟩ := ensureContext_opened env there
  rw [bind_of_ok ensured] at ran
  obtain ⟨read, last, ranRead, returned⟩ := bind_eq_ok_iff.mp ran
  cases returned
  rcases readNode_other opens.lookup ranRead with rfl | ⟨reads, replicaNode, member, rfl⟩
  · obtain rfl : node = other := placed.symm.trans home
    exact ⟨rfl, chosen, choice⟩
  · obtain rfl : node = replicaNode := placed.symm.trans home
    rw [opens.replicas] at member
    exact absurd member (lone reads other master there)

theorem exists_picks (env : Env) (cluster : Cluster source) (filled : source.client.masters.keys ≠ []) (asked : Node) :
    ∃ other master, Picks env asked other source ∧ source.client.masters.lookup other = some master := by
  rcases there : source.client.masters.lookup asked with _ | master
  · obtain ⟨other, _, _, _, member, picks⟩ := picks_random env cluster there filled
    obtain ⟨master, found⟩ := Option.isSome_iff_exists.mp (AList.lookup_isSome.mpr (AList.mem_keys.mpr member))
    exact ⟨other, master, picks, found⟩
  · exact ⟨asked, master, picks_known (Option.isSome_of_eq_some there), there⟩

/-- One master comes first, and one address is refused. -/
def adverse (env : Env) (first refused : Node) : Env :=
  { env with
    random := fun _ => 0
    order := fun _ nodes => if first ∈ nodes then first :: nodes.erase first else nodes
    order_perm := by
      intro _ nodes
      split
      · next member => exact (List.perm_cons_erase member).symm
      · exact .refl nodes
    connect := fun _ node _ => if node = refused then some {} else none }

/-- The master that comes first is taken. -/
theorem picks_adverse {first refused : Node} (cluster : Cluster source)
    (absent : source.client.masters.lookup asked = none) (member : first ∈ source.client.masters.keys) :
    Picks (adverse env first refused) asked first source := by
  obtain ⟨other, position, there, low, _, picks⟩ :=
    picks_random (adverse env first refused) cluster absent (List.ne_nil_of_mem member)
  obtain rfl : position = 0 := Nat.le_zero.mp low
  have ordered : (adverse env first refused).order source.log source.client.masters.keys =
      first :: source.client.masters.keys.erase first := if_pos member
  rw [ordered, List.getElem?_cons_zero] at there
  obtain rfl := Option.some.inj there
  exact picks

theorem ensureContext_adverse {first : Node} {connected : Bool} {target : World} (home : master.node = node)
    (there : source.client.masters.lookup node = some master)
    (ran : ensureContext (adverse env first node) (.master node) source = (.ok connected, target)) :
    connected = master.context.isSome := by
  obtain ⟨entry, middle, ranEntry, rest⟩ := bind_eq_ok_iff.mp ran
  obtain ⟨rfl, found⟩ := entryAt_run ranEntry
  obtain rfl : entry = master.toCRedisNode := by
    rw [CRedisClient.at?, there] at found
    exact (Option.some.inj found).symm
  rcases connection : master.context with _ | context <;> rw [connection] at rest
  · have refused : (adverse env first node).connect middle.log master.node false = some {} := if_pos home
    obtain ⟨context, last, ranConnect, stored⟩ := bind_eq_ok_iff.mp rest
    cases stored
    rw [connectRedisNode, bind_of_ok (get_apply _), refused] at ranConnect
    cases ranConnect
    rfl
  · cases rest
    rfl

theorem ensureContext_willing (env : Env) (first : Node) {refused : Node} {redisNode : NodeRef} {entry : CRedisNode}
    (other : entry.node ≠ refused) (found : source.client.at? redisNode = some entry) :
    ∃ target, ensureContext (adverse env first refused) redisNode source = (.ok true, target) := by
  rw [ensureContext, bind_of_ok (entryAt_apply found)]
  rcases entry.context with _ | context
  · have willing : (adverse env first refused).connect source.log entry.node false = none := if_neg other
    have connects : ∃ target, connectRedisNode (adverse env first refused) entry.node false source =
        (.ok (some {}), target) := by
      rw [connectRedisNode, bind_of_ok (get_apply _), willing]
      exact ⟨_, rfl⟩
    obtain ⟨target, ran⟩ := connects
    exact ⟨_, bind_of_ok ran⟩
  · exact ⟨source, rfl⟩

/-- A master that may be left for its replicas is left for one of them. -/
theorem chosen_replica {first : Node} (cluster : Cluster source) (keyed : Keyed source.client)
    (picks : Picks (adverse env first node) asked node source)
    (there : source.client.masters.lookup node = some master) (lone : readonly = true → Lone node source.client)
    (strays : ¬ Own readonly source.client.readPolicy master) :
    ∃ replicaNode chosen,
      Chosen (adverse env first node) readonly key (some asked) source (some (.replica node replicaNode)) chosen := by
  have home : master.node = node := keyed (.master node) master.toCRedisNode (by rw [CRedisClient.at?, there]; rfl)
  obtain ⟨connected, middle, opened, connects, ensured, opens⟩ := ensureContext_opened (adverse env first node) there
  have context := ensureContext_adverse home there ensured
  simp only [Own, not_or, not_and] at strays
  obtain ⟨reads, replicas, privileged, turns⟩ := strays
  have keyedMiddle : Keyed middle.client :=
    (keyed_frame.ensureContext (adverse env first node) (.master node)).run ensured keyed
  have turnsOpened : ¬ Turns middle.client.readPolicy opened := by
    rw [Turns, opens.policy, opens.replicas, opens.index]
    exact turns
  obtain ⟨redisNode, last, index, chose, _, _, turned, _, other⟩ :=
    chooseNode_turns (adverse env first node) opens.lookup
  obtain ⟨replicaNode, member, rfl⟩ := other turnsOpened
  obtain ⟨replica, inside⟩ := Option.isSome_iff_exists.mp (AList.lookup_isSome.mpr (AList.mem_keys.mpr member))
  have found : last.client.at? (.replica node replicaNode) = some replica := by
    rw [CRedisClient.at?, turned]
    exact inside
  have keyedLast : Keyed last.client :=
    (keyed_frame.chooseNode (adverse env first node) node).run chose keyedMiddle
  have apart : replica.node ≠ node := by
    rw [keyedLast _ _ found, address]
    rintro rfl
    rw [opens.replicas] at member
    exact lone (Bool.of_not_eq_false reads) _ master there member
  obtain ⟨target, willing⟩ := ensureContext_willing env first apart found
  refine ⟨replicaNode, target, (chosen_of_picks cluster (Option.isSome_of_eq_some there) picks).mpr ?_⟩
  have unread : ¬ (!readonly ∨ middle.client.readPolicy = .onlyMaster) := by
    rw [opens.policy, Bool.not_eq_true', Bool.eq_false_iff]
    rintro (writes | only)
    · exact reads (Bool.eq_false_iff.mpr writes)
    · exact replicas only
  have unprivileged : ¬ (connected ∧ middle.client.readPolicy = .priorityMaster) := by
    rw [opens.policy, context]
    rintro ⟨there, policy⟩
    exact privileged policy there
  rw [bind_of_ok ensured, readNode, bind_of_ok
    (?_ : (get >>= _ : Action NodeRef) middle = (.ok (.replica node replicaNode), target))]
  · rfl
  · rw [bind_of_ok (get_apply _), if_neg unread, if_neg unprivileged, bind_of_ok chose, bind_of_ok willing, if_pos rfl]
    rfl

variable {numRetries : ℤ} {loopCounter : ℕ} {askNode next : Option Node} {chosen sent target : World}
  {redisNode : NodeRef} {result : HandleResult} {str : CppString}

/-- The loop goes on with what is read of the name, and with the tables as they are. -/
theorem ask_again (names : Names str node)
    (choice : Chosen env readonly key askNode source (some redisNode) chosen)
    (transmitted : Transmitted env askNode redisNode chosen result (some (.error str)) sent)
    (ran : R3c.round env readonly numRetries key loopCounter askNode source = (.ok (.again next), target)) :
    target = sent ∧ ∃ asked, next = some asked ∧ parseMovedString (cStr str) = some asked := by
  have coded : Coded (text "ASK") str := by
    obtain ⟨slot, _, _, rfl⟩ := names
    exact ⟨by decide, by decide, slot ++ 0x20 :: node2string node, List.append_assoc ..⟩
  have redirect : result = .redirect := by
    cases transmitted.left with
    | success clean => exact absurd rfl (clean str)
    | replied _ code =>
      rw [extractErrtype_coded coded]
      decide
  obtain ⟨entryNode, run⟩ :=
    @round_run env readonly numRetries key loopCounter askNode source chosen sent redisNode result
    (some (.error str)) choice transmitted
  rw [run, redirect, conclude] at ran
  have named : errorStr (some (.error str)) = cStr str := rfl
  rw [named] at ran
  rcases parsed : parseMovedString (cStr str) with _ | asked <;> rw [parsed] at ran
  · cases ran
  · dsimp only at ran
    split at ran
    · cases ran
      exact ⟨rfl, asked, rfl, rfl⟩
    · cases ran

/-- The tables that the next attempt starts from. -/
theorem ask_tables (cluster : Cluster source) (keyed : Keyed source.client)
    (choice : Chosen env readonly key askNode source (some redisNode) chosen)
    (transmitted : Transmitted env askNode redisNode chosen result (some (.error str)) sent) :
    Cluster sent ∧ Keyed sent.client ∧ sent.client.masters.keys ≠ [] := by
  have clusterChosen : Cluster chosen := cluster.later ((later_frame.getRedisNode env _ readonly askNode).run choice)
  have keyedChosen : Keyed chosen.client := (keyed_frame.getRedisNode env _ readonly askNode).run choice keyed
  have clusterNoted : Cluster (chosen.note (.attempt (some redisNode))) := clusterChosen
  have clusterSent : Cluster sent := clusterNoted.later ((later_frame.transmit env (fun _ _ _ _ => .modifyAt _ _)
    (fun _ _ _ _ => .note _ trivial) askNode.isSome redisNode).run transmitted)
  have keyedSent : Keyed sent.client :=
    (keyed_frame.transmit env keyed_loose (fun _ _ _ _ => id) askNode.isSome redisNode).run transmitted keyedChosen
  obtain ⟨entry, first, ranEntry, _⟩ := bind_eq_ok_iff.mp transmitted
  obtain ⟨rfl, found⟩ := entryAt_run ranEntry
  have onNode := @transmit_safe env askNode.isSome redisNode _
    (⟨.inl clusterChosen, Option.isSome_of_eq_some found⟩ : OnNode redisNode (chosen.note (.attempt (some redisNode))))
  rw [transmitted] at onNode
  exact ⟨clusterSent, keyedSent, CRedisClient.masters_ne_nil onNode.2⟩

/-- For every reply with `ASK` after which the loop goes on: if the node that it names is found in the tables, the
next attempt goes to it, whatever the surroundings do. Otherwise, unless it is also the address of a replica that is
read from, there are surroundings in which the attempt goes to another node. -/
theorem asked_goes_to (env : Env) (cluster : Cluster source) (keyed : Keyed source.client) (names : Names str node)
    (choice : Chosen env readonly key askNode source (some redisNode) chosen)
    (transmitted : Transmitted env askNode redisNode chosen result (some (.error str)) sent)
    (ran : R3c.round env readonly numRetries key loopCounter askNode source = (.ok (.again next), target)) :
    (Leads readonly node target.client → ∀ other : Env, GoesTo other readonly key next node target) ∧
      ((readonly = true → Lone node target.client) → (∀ other : Env, GoesTo other readonly key next node target) →
        Leads readonly node target.client) := by
  obtain ⟨rfl, asked, rfl, parsed⟩ := ask_again names choice transmitted ran
  obtain ⟨clusterTarget, keyedTarget, filled⟩ := ask_tables cluster keyed choice transmitted
  constructor
  · rintro ⟨⟨master, there, own⟩, readable⟩ other
    refine goesTo_of_picks clusterTarget keyedTarget ?_ there own
    by_cases same : asked = node
    · rw [same]
      exact picks_known (Option.isSome_of_eq_some there)
    · have only : target.client.masters.keys = [node] :=
        readable.resolve_left fun colonless => same (Option.some.inj (parsed.symm.trans (names.parsed colonless)))
      have absent : target.client.masters.lookup asked = none := by
        rw [AList.lookup_eq_none, AList.mem_keys, only, List.mem_singleton]
        exact same
      obtain ⟨found, _, _, _, member, picks⟩ := picks_random other clusterTarget absent filled
      rw [only, List.mem_singleton] at member
      rwa [member] at picks
  · intro lone goes
    -- Wherever the search leads, it leads to the node.
    have leads (other : Env) : ∃ master, Picks other asked node target ∧
        target.client.masters.lookup node = some master := by
      obtain ⟨found, master, picks, there⟩ := exists_picks other clusterTarget filled asked
      obtain ⟨rfl, _⟩ := master_of_goesTo clusterTarget keyedTarget picks there lone (goes other)
      exact ⟨master, picks, there⟩
    obtain ⟨master, _, there⟩ := leads env
    refine ⟨⟨master, there, ?_⟩, ?_⟩
    · by_contra strays
      obtain ⟨_, picks, _⟩ := leads (adverse env node node)
      obtain ⟨replicaNode, chosen, replica⟩ :=
        @chosen_replica env readonly key asked node target master node clusterTarget
        keyedTarget picks there lone strays
      obtain ⟨_, other, choice⟩ := @master_of_goesTo (adverse env node node) readonly key asked node target master
        clusterTarget keyedTarget node picks there lone (goes _)
      cases replica.symm.trans choice
    · by_contra unreadable
      obtain ⟨colon, several⟩ := not_or.mp unreadable
      have different : asked ≠ node := by
        rintro rfl
        exact colon (colonless_of_parsed parsed)
      have absent : target.client.masters.lookup asked = none := by
        by_contra known
        obtain ⟨other, found⟩ := Option.ne_none_iff_exists'.mp known
        exact different (master_of_goesTo clusterTarget keyedTarget (picks_known (Option.isSome_of_eq_some found)) found
          lone (goes env)).1
      obtain ⟨first, member, apart⟩ : ∃ first ∈ target.client.masters.keys, first ≠ node := by
        by_contra alone
        push Not at alone
        have member : node ∈ target.client.masters.keys := AList.mem_keys.mp (AList.lookup_isSome.mp
          (Option.isSome_of_eq_some there))
        apply several
        apply List.perm_singleton.mp
        apply (List.perm_ext_iff_of_nodup target.client.masters.keys_nodup (List.nodup_singleton node)).mpr
        intro other
        rw [List.mem_singleton]
        exact ⟨alone other, fun same => same ▸ member⟩
      obtain ⟨other, found⟩ := Option.isSome_iff_exists.mp (AList.lookup_isSome.mpr (AList.mem_keys.mpr member))
      exact apart (master_of_goesTo clusterTarget keyedTarget (picks_adverse clusterTarget absent member) found lone
        (goes (adverse env first node))).1

example : parseMovedString (text "ASK 1 h:7") = some (text "h", 7) := by decide +kernel

/-- A server that sends every command on to this node. -/
def askingEnv (node : Node) : Env :=
  plainEnv (fun _ => true) fun _ _ _ => .reply (.error (text "ASK 1 " ++ node2string node))

/-- A master without slots. -/
def idleMaster (port : UInt16) : NodeInfo where
  node := (text "s", port)
  id := text "id"
  flags := text "master"
  masterId := text "-"

def askedClient : CRedisClient :=
  ({ lossyClient with nodes := [(text "s", 1), (text "s", 2)], masters := ∅ } : CRedisClient).insertMaster
    (idleMaster 1) (some {}) |>.insertMaster (idleMaster 2) (some {})

theorem askedClient_keyed : Keyed askedClient := by
  have healthy : Healthy (some {}) := by
    rintro _ ⟨⟩
    rfl
  refine Everywhere.insertMaster atHome_lasting (.insertMaster atHome_lasting ?_ _ healthy) _ healthy
  intro redisNode entry found
  cases redisNode <;> cases found

def askedSource : World := { client := askedClient }

def askedChosen (node : Node) : World :=
  (getRedisNode (askingEnv node) (some (getKeySlot 0 (text "k"))) false none askedSource).2

def askedSent (node : Node) : Except R3c.Fault (HandleResult × Option RedisReply) × World :=
  transmit (askingEnv node) false (.master (text "s", 2))
    ((askedChosen node).note (.attempt (some (.master (text "s", 2)))))

def askedTurn (node : Node) : Except R3c.Fault Turn × World :=
  R3c.round (askingEnv node) false 5 (text "k") 0 none askedSource

/-- The second master is chosen, and sends the command on. -/
def sendsOn (node : Node) : Except R3c.Fault (Option NodeRef) → Except R3c.Fault (HandleResult × Option RedisReply) →
    Except R3c.Fault Turn → Bool
  | .ok (some redisNode), .ok (_, some (.error str)), .ok (.again (some next)) =>
      redisNode = .master (text "s", 2) ∧ str = text "ASK 1 " ++ node2string node ∧ next = node
  | _, _, _ => false

theorem asking_run {node : Node}
    (ran : sendsOn node (getRedisNode (askingEnv node) (some (getKeySlot 0 (text "k"))) false none askedSource).1
      (askedSent node).1 (askedTurn node).1 = true) :
    Chosen (askingEnv node) false (text "k") none askedSource (some (.master (text "s", 2))) (askedChosen node) ∧
      (∃ result, Transmitted (askingEnv node) none (.master (text "s", 2)) (askedChosen node) result
        (some (.error (text "ASK 1 " ++ node2string node))) (askedSent node).2) ∧
      askedTurn node = (.ok (.again (some node)), (askedTurn node).2) := by
  unfold sendsOn at ran
  split at ran
  · next redisNode result str next found answered turn =>
    obtain ⟨rfl, rfl, rfl⟩ := of_decide_eq_true ran
    refine ⟨?_, ⟨_, Prod.ext answered rfl⟩, Prod.ext turn rfl⟩
    have cluster : askedSource.client.clusterMode = true := by decide
    rw [Chosen, if_pos cluster]
    exact Prod.ext found rfl
  · cases ran

/-- A command that is sent on to the first master. -/
theorem asked_goes_to_master :
    GoesTo (askingEnv (text "s", 1)) false (text "k") (some (text "s", 1)) (text "s", 1)
      (askedTurn (text "s", 1)).2 := by
  have ran : sendsOn (text "s", 1)
      (getRedisNode (askingEnv (text "s", 1)) (some (getKeySlot 0 (text "k"))) false none askedSource).1
      (askedSent (text "s", 1)).1 (askedTurn (text "s", 1)).1 = true := by decide +kernel
  obtain ⟨choice, ⟨result, transmitted⟩, turned⟩ := asking_run ran
  have names : Names (text "ASK 1 " ++ node2string (text "s", 1)) (text "s", 1) :=
    ⟨text "1", by decide +kernel, by decide, by decide⟩
  have present : ((askedTurn (text "s", 1)).2.client.masters.lookup (text "s", 1)).isSome := by decide +kernel
  obtain ⟨master, there⟩ := Option.isSome_iff_exists.mp present
  have cluster : Cluster askedSource := Eq.refl true
  have leads : Leads false (text "s", 1) (askedTurn (text "s", 1)).2.client :=
    ⟨⟨master, there, .inl rfl⟩, .inl (by decide)⟩
  exact (asked_goes_to (askingEnv (text "s", 1)) cluster askedClient_keyed names choice transmitted turned).1 leads _

/-- A command that is sent on to a node that is not in the tables is asked of a master that is. -/
theorem asked_goes_to_unknown :
    ∃ redisNode chosen result sent next target, Names (text "ASK 1 " ++ node2string (text "n", 9)) (text "n", 9) ∧
      Chosen (askingEnv (text "n", 9)) false (text "k") none askedSource (some redisNode) chosen ∧
      Transmitted (askingEnv (text "n", 9)) none redisNode chosen result
        (some (.error (text "ASK 1 " ++ node2string (text "n", 9)))) sent ∧
      R3c.round (askingEnv (text "n", 9)) false 5 (text "k") 0 none askedSource = (.ok (.again next), target) ∧
      ¬ GoesTo (askingEnv (text "n", 9)) false (text "k") next (text "n", 9) target := by
  have ran : sendsOn (text "n", 9)
      (getRedisNode (askingEnv (text "n", 9)) (some (getKeySlot 0 (text "k"))) false none askedSource).1
      (askedSent (text "n", 9)).1 (askedTurn (text "n", 9)).1 = true := by decide +kernel
  obtain ⟨choice, ⟨result, transmitted⟩, turned⟩ := asking_run ran
  have names : Names (text "ASK 1 " ++ node2string (text "n", 9)) (text "n", 9) :=
    ⟨text "1", by decide +kernel, by decide, by decide⟩
  refine ⟨_, _, result, _, _, _, names, choice, transmitted, turned, ?_⟩
  have cluster : Cluster askedSource := Eq.refl true
  obtain ⟨same, _⟩ := ask_again names choice transmitted turned
  obtain ⟨clusterTarget, keyedTarget, filled⟩ := ask_tables cluster askedClient_keyed choice transmitted
  rw [← same] at clusterTarget keyedTarget filled
  intro goes
  obtain ⟨other, master, picks, there⟩ := exists_picks (askingEnv (text "n", 9)) clusterTarget filled (text "n", 9)
  obtain ⟨rfl, _⟩ := master_of_goesTo clusterTarget keyedTarget picks there (absurd · Bool.false_ne_true) goes
  have absent : (askedTurn (text "n", 9)).2.client.masters.lookup (text "n", 9) = none := by decide +kernel
  exact Option.some_ne_none _ (there.symm.trans absent)

end CppRedis.Soundness.Asking
