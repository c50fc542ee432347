import CppRedis.Model.R3c.Command

/-! # What the functions of a cluster client leave

The changes of the tables and the events outside of attempts are listed once. A relation between worlds that
is closed under them holds around every run of a function that does nothing else.
-/

namespace CppRedis.Soundness.Frames

open Machine Model Model.R3c Model.RedisCpp Machine.Effect

/-- An event that is no part of an attempt, and no refresh. -/
def Side : Event → Prop
  | .attempt _ | .refresh _ | .request .command .. => False
  | _ => True

/-- An event of filling the tables. -/
def Building : Event → Prop
  | .connect .. | .insert .. | .counted _ => True
  | _ => False

theorem Building.side {event : Event} (building : Building event) : Side event := by
  cases event <;> trivial

/-- A context without an error, if there is one. -/
def Healthy (context : Option RedisContext) : Prop := ∀ made ∈ context, made.err = none

/-- An update of an entry that leaves its address. -/
def Placed (update : CRedisNode → CRedisNode) : Prop := ∀ entry, (update entry).node = entry.node

/-- A change of entries that moves none and breaks no connection. -/
inductive EntryChange : (CRedisClient → CRedisClient) → Prop where
  | entry (update : CRedisNode → CRedisNode) (redisNode : NodeRef) :
      Placed update → (∀ entry, Healthy entry.context → Healthy (update entry).context) →
      EntryChange (CRedisClient.modifyAt update redisNode)
  | index (node : Node) :
      EntryChange (CRedisClient.modifyMaster node fun master => { master with index := master.index + 1 })

/-- A change of the tables, by which no broken connection comes in. -/
inductive TableChange : (CRedisClient → CRedisClient) → Prop where
  | strings (nodesString : CRedisClient → CppString) :
      TableChange fun client => { client with nodesString := nodesString client }
  | slots (segment : ℤ × ℤ) (node : Node) : TableChange (·.assignSlots segment node)
  | master (nodeinfo : NodeInfo) (context : Option RedisContext) :
      Healthy context → TableChange (·.insertMaster nodeinfo context)
  | replica (node : Node) (replica : CRedisNode) :
      Healthy replica.context → TableChange (·.addReplicaNode node replica)
  | clear (nodesInfo : List NodeInfo) (nodes : List Node) : TableChange (·.clearInvalidMasterNodes nodesInfo nodes)
  | seeds (nodes : CRedisClient → List Node) :
      TableChange fun client => { client with nodes := client.nodes ++ nodes client }

/-- A relation between worlds that is closed under connecting a node and changes of entries. -/
structure EntryFrame (relation : World → World → Prop) : Prop where
  refl : Std.Refl relation
  trans : IsTrans World relation
  errinfo : ∀ world errinfo, relation world { world with errinfo := errinfo }
  connect : ∀ world node readonly connected, relation world (world.note (.connect node readonly connected))
  entry : ∀ world change, EntryChange change → relation world { world with client := change world.client }

/-- A relation that is also closed under side events. -/
structure Frame (relation : World → World → Prop) : Prop extends EntryFrame relation where
  side : ∀ world event, Side event → relation world (world.note event)

/-- A relation that is also closed under changes of the tables. -/
structure BuildFrame (relation : World → World → Prop) : Prop extends EntryFrame relation where
  build : ∀ world event, Building event → relation world (world.note event)
  table : ∀ world change, TableChange change → relation world { world with client := change world.client }

structure TableFrame (relation : World → World → Prop) : Prop extends Frame relation, BuildFrame relation

theorem connectRedisNode_healthy (env : Env) (node : Node) (readonly : Bool) :
    Yields (connectRedisNode env node readonly) Healthy := by
  intro source value target ran
  cases ran
  intro made member
  split at member
  · cases member
    rfl
  · cases member

namespace EntryFrame

variable {relation : World → World → Prop} (frame : EntryFrame relation) (env : Env)

include frame

theorem pure {α : Type} (value : α) : Keeps relation (Pure.pure value : Action α) :=
  have := frame.refl
  .pure value

theorem throw {α : Type} (fault : R3c.Fault) : Keeps relation (MonadExcept.throw fault : Action α) :=
  have := frame.refl
  .throw fault

theorem bind {α β : Type} {first : Action α} {next : α → Action β} (before : Keeps relation first)
    (after : ∀ value, Keeps relation (next value)) : Keeps relation (first >>= next) :=
  have := frame.trans
  before.bind after

theorem bind_of {α β : Type} {first : Action α} {next : α → Action β} {fact : α → Prop}
    (gives : Yields first fact) (before : Keeps relation first)
    (after : ∀ value, fact value → Keeps relation (next value)) : Keeps relation (first >>= next) :=
  have := frame.trans
  before.bind_of gives after

theorem forM {γ : Type} {body : γ → Action PUnit} {items : List γ} (each : ∀ item, Keeps relation (body item)) :
    Keeps relation (items.forM body) :=
  have := frame.refl
  have := frame.trans
  .forM fun item _ => each item

theorem foldlM {α γ : Type} {body : α → γ → Action α} {items : List γ} {start : α}
    (each : ∀ value item, Keeps relation (body value item)) : Keeps relation (items.foldlM body start) :=
  have := frame.refl
  have := frame.trans
  .foldlM fun value item _ => each value item

theorem changed {change : CRedisClient → CRedisClient} (changes : EntryChange change) :
    Keeps relation (modifyClient change) := fun world => frame.entry world change changes

theorem setErrinfo (errinfo : ErrorInfo) : Keeps relation (R3c.setErrinfo errinfo) :=
  fun world => frame.errinfo world errinfo

theorem check (condition : Bool) : Keeps relation (R3c.check env condition) :=
  .ite (frame.throw _) (frame.pure _)

theorem provided {condition : Prop} [Decidable condition] {action : Action Unit} (holds : Keeps relation action) :
    Keeps relation (R3c.provided condition action) := .ite holds (frame.pure _)

theorem entryAt (redisNode : NodeRef) : Keeps relation (R3c.entryAt redisNode) := by
  apply Keeps.get_then
  intro world
  rcases world.client.at? redisNode with _ | entry
  · exact frame.throw _
  · exact frame.pure _

theorem connectRedisNode (node : Node) (readonly : Bool) : Keeps relation (R3c.connectRedisNode env node readonly) := by
  apply Keeps.get_then
  intro world
  exact frame.bind (frame.setErrinfo _) fun _ => frame.bind (fun world => frame.connect world ..) fun _ => frame.pure _

theorem openContext (node : Node) (context : Option RedisContext) :
    Keeps relation (R3c.openContext env node context) := by
  rcases context with _ | context
  · exact frame.connectRedisNode env _ _
  · exact frame.pure _

theorem connErrors (count : CRedisNode → UInt32) (redisNode : NodeRef) :
    Keeps relation (modifyClient (CRedisClient.modifyAt
      (fun entry => { entry with connErrors := count entry }) redisNode)) :=
  frame.changed (.entry _ _ (fun _ => rfl) fun _ healthy => healthy)

theorem ensureContext (redisNode : NodeRef) : Keeps relation (R3c.ensureContext env redisNode) := by
  apply frame.bind (frame.entryAt redisNode)
  intro entry
  rcases entry.context with _ | context
  · apply frame.bind_of (connectRedisNode_healthy env entry.node false) (frame.connectRedisNode env _ _)
    intro context healthy
    exact frame.bind (frame.changed (.entry _ _ (fun _ => rfl) fun _ _ => healthy)) fun _ => frame.pure _
  · exact frame.pure _

theorem randomRedisMasterNode : Keeps relation (R3c.randomRedisMasterNode env) := by
  apply Keeps.get_then
  intro world
  exact .ite (frame.pure _) (.ite (frame.throw _) (frame.pure _))

theorem chooseNode (node : Node) : Keeps relation (R3c.chooseNode env node) := by
  apply Keeps.get_then
  intro world
  rcases world.client.masters.lookup node with _ | master
  · exact frame.throw _
  · apply Keeps.ite
    · exact frame.pure _
    · refine frame.bind (frame.changed (.index node)) fun _ => ?_
      exact .ite (frame.pure _) (frame.pure _)

theorem standaloneNode : Keeps relation (R3c.standaloneNode env) := by
  apply Keeps.get_then
  intro world
  refine frame.bind (frame.check env _) fun _ => ?_
  rcases env.order world.log world.client.masters.keys with _ | ⟨node, nodes⟩
  · exact frame.throw _
  · exact frame.bind (frame.ensureContext env _) fun _ => frame.pure _

theorem findMaster (slot : ℕ) (askNode : Option Node) : Keeps relation (R3c.findMaster env slot askNode) := by
  apply Keeps.get_then
  intro world
  exact .ite (frame.pure _) (frame.randomRedisMasterNode env)

theorem readNode (readonly : Bool) (node : Node) (connected : Bool) :
    Keeps relation (R3c.readNode env readonly node connected) := by
  apply Keeps.get_then
  intro world
  refine .ite (frame.pure _) (.ite (frame.pure _) ?_)
  apply frame.bind (frame.chooseNode env node)
  intro redisNode
  apply frame.bind (frame.ensureContext env redisNode)
  exact fun _ => .ite (frame.pure _) (frame.pure _)

theorem handleRedisCommandError (redisNode : NodeRef) (err : Option RedisErr) :
    Keeps relation (R3c.handleRedisCommandError env redisNode err) := by
  apply Keeps.get_then
  intro world
  refine frame.bind (frame.setErrinfo _) fun _ => .ite (frame.pure _) ?_
  exact frame.bind (frame.connErrors (·.connErrors + 1) redisNode) fun _ => frame.pure _

theorem handleRedisReplayError (redisNode : NodeRef) (str : CppString) :
    Keeps relation (R3c.handleRedisReplayError redisNode str) := by
  apply Keeps.get_then
  intro world
  refine frame.bind (frame.setErrinfo _) fun _ => ?_
  exact frame.bind (frame.provided (frame.connErrors (fun _ => 2019) redisNode)) fun _ => frame.pure _

theorem handleRedisReply (redisNode : NodeRef) (reply : RedisReply) :
    Keeps relation (R3c.handleRedisReply redisNode reply) := by
  refine frame.bind (frame.connErrors (fun _ => 0) redisNode) fun _ => ?_
  cases reply with
  | error str => exact frame.handleRedisReplayError redisNode str
  | _ => exact frame.pure _

theorem giveUp : Keeps relation R3c.giveUp := Keeps.get_then fun _ => frame.pure _

theorem noAnyNode : Keeps relation R3c.noAnyNode :=
  Keeps.get_then fun _ => frame.bind (frame.setErrinfo _) fun _ => frame.giveUp

end EntryFrame

namespace Frame

variable {relation : World → World → Prop} (frame : Frame relation) (env : Env)

include frame

theorem note {event : Event} (side : Side event) : Keeps relation (modify (World.note event) : Action Unit) :=
  fun world => frame.side world event side

theorem send {request : Request} (other : request ≠ .command) (redisNode : Option NodeRef) (node : Node)
    (context : RedisContext) : Keeps relation (R3c.send env request redisNode node context) := by
  apply Keeps.ite
  · exact frame.pure _
  · apply Keeps.get_then
    intro world
    refine frame.bind (frame.note ?_) fun _ => frame.pure _
    cases request with
    | asking => trivial
    | command => exact other rfl
    | clusterNodes => trivial

theorem listClusterNodes (redisNode : Option NodeRef) (node : Node) (context : RedisContext) :
    Keeps relation (R3c.listClusterNodes env redisNode node context) := by
  apply frame.bind (frame.send env (by decide) redisNode node context)
  rintro ⟨_ | reply, context⟩
  · exact frame.bind (frame.setErrinfo _) fun _ => frame.pure _
  · rcases parsed : parseListing reply with fault | ⟨nodesInfo, errinfo⟩ <;> simp only [parsed]
    · exact frame.throw _
    · refine frame.bind (frame.setErrinfo _) fun _ => .ite (frame.pure _) ?_
      exact frame.bind (frame.note trivial) fun _ => frame.pure _

theorem askFirst (asked : Bool) (redisNode : NodeRef) (node : Node) (context : RedisContext) :
    Keeps relation (R3c.askFirst env asked redisNode node context) := by
  apply Keeps.ite
  · exact frame.bind (frame.send env (by decide) _ _ _) fun _ => frame.pure _
  · exact frame.pure _

/-- Two relations at once. -/
theorem inter {other : World → World → Prop} (also : Frame other) :
    Frame fun source target => relation source target ∧ other source target where
  refl := ⟨fun world => ⟨frame.refl.refl world, also.refl.refl world⟩⟩
  trans := ⟨fun _ _ _ first second => ⟨frame.trans.trans _ _ _ first.1 second.1,
    also.trans.trans _ _ _ first.2 second.2⟩⟩
  errinfo world errinfo := ⟨frame.errinfo world errinfo, also.errinfo world errinfo⟩
  connect world node readonly connected :=
    ⟨frame.connect world node readonly connected, also.connect world node readonly connected⟩
  entry world change changes := ⟨frame.entry world change changes, also.entry world change changes⟩
  side world event side := ⟨frame.side world event side, also.side world event side⟩

end Frame

namespace BuildFrame

variable {relation : World → World → Prop} (frame : BuildFrame relation) (env : Env)

include frame

theorem client {change : CRedisClient → CRedisClient} (changes : TableChange change) :
    Keeps relation (modifyClient change) := fun world => frame.table world change changes

theorem updateSlots (nodeinfo : NodeInfo) : Keeps relation (R3c.updateSlots nodeinfo) := by
  apply frame.forM
  intro segment
  apply Keeps.ite
  · exact frame.client (.slots ..)
  · exact frame.throw _

theorem addMasterNode (nodeinfo : NodeInfo) : Keeps relation (R3c.addMasterNode env nodeinfo) := by
  apply frame.bind_of (connectRedisNode_healthy env nodeinfo.node false) (frame.connectRedisNode env _ _)
  intro context healthy
  apply Keeps.get_then
  intro world
  refine frame.bind (fun world => frame.build world _ trivial) fun _ => frame.bind (frame.check env _) fun _ => ?_
  exact frame.bind (frame.client (.master nodeinfo context healthy)) fun _ => frame.pure _

theorem initMasterNode (several : Bool) (connected : ℕ) (nodeinfo : NodeInfo) :
    Keeps relation (R3c.initMasterNode env several connected nodeinfo) := by
  apply frame.bind (frame.provided (frame.client (.strings _)))
  intro _
  refine Keeps.ite ?_ (frame.pure _)
  refine frame.bind (frame.updateSlots nodeinfo) fun _ => ?_
  exact frame.bind (frame.addMasterNode env nodeinfo) fun _ => frame.pure _

theorem initMasterNodes (nodesInfo : List NodeInfo) : Keeps relation (R3c.initMasterNodes env nodesInfo) := by
  refine frame.bind (frame.client (.strings _)) fun _ => ?_
  refine frame.bind (frame.foldlM (frame.initMasterNode env _)) fun connected => ?_
  exact frame.bind (fun world => frame.build world _ trivial) fun _ => frame.pure _

theorem initReplicaNode (nodeinfo : NodeInfo) : Keeps relation (R3c.initReplicaNode env nodeinfo) := by
  apply Keeps.get_then
  intro world
  rcases world.client.getRedisMasterNode nodeinfo.masterId with _ | master
  · exact frame.pure _
  · apply frame.bind_of (connectRedisNode_healthy env nodeinfo.node true) (frame.connectRedisNode env _ _)
    intro context healthy
    refine frame.bind (frame.setErrinfo _) fun _ => ?_
    rcases context with _ | context
    · exact frame.pure _
    · exact frame.client (.replica _ _ healthy)

theorem initReplicas (nodesInfo : List NodeInfo) : Keeps relation (R3c.initReplicas env nodesInfo) := by
  apply Keeps.get_then
  exact fun _ => frame.provided (frame.forM (frame.initReplicaNode env))

theorem updateMasterNode (several : Bool) (nodeinfo : NodeInfo) :
    Keeps relation (R3c.updateMasterNode env several nodeinfo) := by
  apply frame.bind (frame.provided (frame.client (.strings _)))
  intro _
  refine Keeps.ite ?_ (frame.pure _)
  refine frame.bind (frame.updateSlots nodeinfo) fun _ => .get_then fun world => frame.provided ?_
  exact frame.bind (frame.addMasterNode env nodeinfo) fun _ => frame.pure _

theorem clearAndUpdateMasterNodes (nodesInfo : List NodeInfo) :
    Keeps relation (R3c.clearAndUpdateMasterNodes env nodesInfo) := by
  apply frame.bind (frame.provided (frame.client (.strings _)))
  intro _
  refine frame.bind (frame.forM (frame.updateMasterNode env _)) fun _ => .get_then fun _ => ?_
  exact frame.client (.clear ..)

end BuildFrame

namespace TableFrame

variable {relation : World → World → Prop} (frame : TableFrame relation) (env : Env)

section

include frame

theorem initClusterLoop (rounds : ℕ) (seed : UInt64) : Keeps relation (R3c.initClusterLoop env rounds seed) := by
  induction rounds generalizing seed with
  | zero => exact frame.pure _
  | succ rounds ih =>
    apply Keeps.get_then
    intro world
    apply frame.bind (frame.connectRedisNode env _ _)
    rintro (_ | context)
    · exact ih _
    · apply frame.bind (frame.listClusterNodes env _ _ _)
      rintro ⟨_ | nodesInfo, context⟩
      · exact ih _
      · exact frame.bind (frame.initMasterNodes env nodesInfo) fun _ =>
          .ite (frame.initReplicas env nodesInfo) (ih _)

theorem initCluster : Keeps relation (R3c.initCluster env) := by
  apply Keeps.get_then
  intro world
  exact frame.bind (frame.initClusterLoop env _ _) fun _ => .get_then fun _ => frame.pure _

theorem refill : Keeps relation (R3c.refill env) := by
  apply Keeps.get_then
  intro world
  apply Keeps.ite
  · exact frame.pure _
  · refine frame.bind (frame.client (.seeds fun client => parseNodes client.nodesString)) fun _ => ?_
    apply Keeps.get_then
    intro world
    exact frame.bind (frame.check env _) fun _ => frame.initCluster env

theorem clusterNode (slot : ℕ) (readonly : Bool) (askNode : Option Node) :
    Keeps relation (R3c.clusterNode env slot readonly askNode) := by
  refine frame.bind (frame.check env _) fun _ => frame.bind (frame.refill env) fun _ => ?_
  apply Keeps.ite
  · apply frame.bind (frame.findMaster env slot askNode)
    rintro (_ | node)
    · exact frame.pure _
    · refine frame.bind (frame.ensureContext env _) fun _ => ?_
      exact frame.bind (frame.readNode env readonly node _) fun _ => frame.pure _
  · exact frame.pure _

theorem getRedisNode (slot : Option ℕ) (readonly : Bool) (askNode : Option Node) :
    Keeps relation (R3c.getRedisNode env slot readonly askNode) := by
  rcases slot with _ | slot
  · exact frame.standaloneNode env
  · exact frame.clusterNode env slot readonly askNode

end

section

variable (loose : ∀ world update redisNode, Placed update →
  relation world { world with client := world.client.modifyAt update redisNode })

include frame loose

theorem refreshLoop (errorNode : Option Node) (nodes : List Node) :
    Keeps relation (R3c.refreshLoop env errorNode nodes) := by
  have anyEntry : ∀ update redisNode, Placed update →
      Keeps relation (modifyClient (CRedisClient.modifyAt update redisNode)) :=
    fun update redisNode placed world => loose world update redisNode placed
  induction nodes with
  | nil => exact frame.pure _
  | cons node nodes ih =>
    apply Keeps.ite
    · exact ih
    · apply frame.bind (frame.entryAt _)
      intro entry
      apply frame.bind (frame.openContext env _ _)
      rintro (_ | context)
      · exact ih
      · refine frame.bind (anyEntry _ _ fun _ => rfl) fun _ => ?_
        apply frame.bind (frame.listClusterNodes env _ _ _)
        rintro ⟨nodesInfo, context⟩
        refine frame.bind (anyEntry _ _ fun _ => rfl) fun _ => ?_
        rcases nodesInfo with _ | nodesInfo
        · exact ih
        · exact frame.bind (frame.clearAndUpdateMasterNodes env _) fun _ => frame.initReplicas env _

theorem transmit
    (sent : ∀ world redisNode node answer, relation world (world.note (.request .command redisNode node answer)))
    (asked : Bool) (redisNode : NodeRef) : Keeps relation (R3c.transmit env asked redisNode) := by
  have sends : ∀ node context, Keeps relation (R3c.send env .command (some redisNode) node context) := by
    intro node context
    apply Keeps.ite
    · exact frame.pure _
    · exact .get_then fun _ => frame.bind (fun world => sent world ..) fun _ => frame.pure _
  apply frame.bind (frame.entryAt redisNode)
  intro entry
  rcases entry.context with _ | context
  · exact frame.pure _
  · apply frame.bind (frame.askFirst env asked redisNode entry.node context)
    intro context
    apply frame.bind (sends entry.node context)
    rintro ⟨reply, context⟩
    refine frame.bind (fun world => loose world _ redisNode fun _ => rfl) fun _ => ?_
    rcases reply with _ | reply
    · exact frame.bind (frame.handleRedisCommandError env redisNode _) fun _ => frame.pure _
    · exact frame.bind (frame.handleRedisReply redisNode reply) fun _ => frame.pure _

variable (noted : ∀ world, world.client.masters.keys ≠ [] →
  relation world (world.note (.refresh world.client.masters.keys.length)))

include noted

theorem refreshMasterNodeTable (errorNode : Option Node) {source : World}
    (filled : source.client.masters.keys ≠ []) :
    relation source (R3c.refreshMasterNodeTable env errorNode source).2 := by
  have trans := frame.trans
  apply trans.trans _ _ _ (noted source filled)
  change relation _ ((if _ then _ else _ : Action Unit) _).2
  rw [if_neg filled]
  exact frame.refreshLoop env loose _ _ _

theorem refreshIfNeeded (result : HandleResult) (redisNode : NodeRef) (node : Node) :
    Keeps relation (R3c.refreshIfNeeded env result redisNode node) := by
  have refl := frame.refl
  intro source
  rw [R3c.refreshIfNeeded, bind_apply, R3c.entryAt, bind_apply, get_apply]
  dsimp only
  rcases found : source.client.at? redisNode with _ | entry
  · exact refl.refl source
  · change relation source ((if _ then _ else _ : Action Unit) source).2
    split
    · apply frame.refreshMasterNodeTable env loose noted
      exact CRedisClient.masters_ne_nil (Option.isSome_of_eq_some found)
    · exact refl.refl source

theorem retry (numRetries : ℤ) (loopCounter : ℕ) (redisNode : NodeRef) (node : Node) (result : HandleResult) :
    Keeps relation (R3c.retry env numRetries loopCounter redisNode node result) := by
  refine frame.bind (frame.provided fun world => loose world _ redisNode fun _ => rfl) fun _ => .ite ?_ frame.giveUp
  exact frame.bind (frame.refreshIfNeeded env loose noted result redisNode node) fun _ => frame.pure _

theorem conclude (numRetries : ℤ) (loopCounter : ℕ) (redisNode : NodeRef) (node : Node) (result : HandleResult)
    (reply : Option RedisReply) :
    Keeps relation (R3c.conclude env numRetries loopCounter redisNode node result reply) := by
  cases result with
  | success => exact frame.pure _
  | error => exact frame.giveUp
  | redirect =>
    rw [R3c.conclude]
    rcases parseMovedString (errorStr reply) with _ | askNode
    · exact frame.giveUp
    · exact .ite (frame.pure _) frame.giveUp
  | _ => exact frame.retry env loose noted _ _ _ _ _

variable (sent : ∀ world redisNode node answer, relation world (world.note (.request .command redisNode node answer)))

include sent

theorem attempt (numRetries : ℤ) (loopCounter : ℕ) (askNode : Option Node) (redisNode : NodeRef) :
    Keeps relation (R3c.attempt env numRetries loopCounter askNode redisNode) := by
  apply frame.bind (frame.entryAt redisNode)
  intro entry
  apply frame.bind (frame.transmit env loose sent askNode.isSome redisNode)
  exact fun _ => frame.conclude env loose noted _ _ _ _ _ _

variable (attempted : ∀ world redisNode, relation world (world.note (.attempt redisNode)))

include attempted

omit attempted in
/-- What follows the choice of a node. -/
theorem afterChoice (numRetries : ℤ) (loopCounter : ℕ) (askNode : Option Node) (redisNode : Option NodeRef) :
    Keeps relation (match redisNode with
      | none => R3c.noAnyNode
      | some redisNode => R3c.attempt env numRetries loopCounter askNode redisNode) := by
  rcases redisNode with _ | redisNode
  · exact frame.noAnyNode
  · exact frame.attempt env loose noted sent numRetries loopCounter askNode redisNode

theorem round (readonly : Bool) (numRetries : ℤ) (key : CppString) (loopCounter : ℕ) (askNode : Option Node) :
    Keeps relation (R3c.round env readonly numRetries key loopCounter askNode) := by
  refine .get_then fun _ => frame.bind (frame.getRedisNode env _ readonly askNode) fun redisNode => ?_
  refine frame.bind (fun world => attempted world redisNode) fun _ => ?_
  exact frame.afterChoice env loose noted sent numRetries loopCounter askNode redisNode

theorem commandLoop (readonly : Bool) (numRetries : ℤ) (key : CppString) (rounds loopCounter : ℕ)
    (askNode : Option Node) :
    Keeps relation (R3c.commandLoop env readonly numRetries key rounds loopCounter askNode) := by
  induction rounds generalizing loopCounter askNode with
  | zero => exact frame.pure _
  | succ rounds ih =>
    apply frame.bind (frame.round env loose noted sent attempted readonly numRetries key loopCounter askNode)
    rintro (outcome | askNode)
    · exact frame.pure _
    · exact .ite (frame.throw _) (ih (loopCounter + 1) askNode)

theorem redisCommand (rounds : ℕ) (readonly : Bool) (numRetries : ℤ) (key : CppString) :
    Keeps relation (R3c.redisCommand env rounds readonly numRetries key) := by
  refine frame.bind (frame.setErrinfo _) fun _ => .get_then fun _ => .ite (frame.pure _) ?_
  exact frame.commandLoop env loose noted sent attempted readonly numRetries key rounds 0 none

end

end TableFrame

/-- The log grows by events of a kind, and seeds are only added. -/
structure Grows (kind : Event → Prop) (source target : World) : Prop where
  log : ∃ events, target.log = source.log ++ events ∧ ∀ event ∈ events, kind event
  nodes : source.client.nodes <+: target.client.nodes
  policy : target.client.readPolicy = source.client.readPolicy

namespace Grows

variable {kind : Event → Prop} {source middle target : World}

/-- Nothing is noted. -/
theorem of_eq (log : target.log = source.log) (nodes : source.client.nodes <+: target.client.nodes)
    (policy : target.client.readPolicy = source.client.readPolicy) : Grows kind source target :=
  ⟨⟨[], by rw [log, List.append_nil], nofun⟩, nodes, policy⟩

theorem note (source : World) {event : Event} (holds : kind event) : Grows kind source (source.note event) := by
  refine ⟨⟨[event], rfl, ?_⟩, List.prefix_rfl, rfl⟩
  intro noted member
  rwa [List.mem_singleton.mp member]

theorem log_earlier (grows : Grows kind source target) : source.log <+: target.log := by
  obtain ⟨events, grown, _⟩ := grows.log
  exact ⟨events, grown.symm⟩

theorem trans (first : Grows kind source middle) (second : Grows kind middle target) : Grows kind source target := by
  obtain ⟨before, grown, kindBefore⟩ := first.log
  obtain ⟨after, grownAfter, kindAfter⟩ := second.log
  refine ⟨⟨before ++ after, ?_, ?_⟩, first.nodes.trans second.nodes, second.policy.trans first.policy⟩
  · rw [grownAfter, grown, List.append_assoc]
  · intro event member
    rcases List.mem_append.mp member with member | member
    · exact kindBefore event member
    · exact kindAfter event member

theorem modifyMaster (node : Node) (change : CRedisMasterNode → CRedisMasterNode) :
    Grows kind source { source with client := source.client.modifyMaster node change } := by
  obtain ⟨masters, changed⟩ := source.client.modifyMaster_eq node change
  rw [changed]
  exact .of_eq rfl List.prefix_rfl rfl

theorem modifyAt (update : CRedisNode → CRedisNode) (redisNode : NodeRef) :
    Grows kind source { source with client := source.client.modifyAt update redisNode } := by
  cases redisNode with
  | master node => exact .modifyMaster ..
  | replica node replicaNode => exact .modifyMaster ..

theorem entry {change : CRedisClient → CRedisClient} (changes : EntryChange change) :
    Grows kind source { source with client := change source.client } := by
  cases changes with
  | entry update redisNode placed healthy => exact .modifyAt update redisNode
  | index node => exact .modifyMaster ..

theorem table {change : CRedisClient → CRedisClient} (changes : TableChange change) :
    Grows kind source { source with client := change source.client } := by
  cases changes with
  | strings nodesString => exact .of_eq rfl List.prefix_rfl rfl
  | slots segment node => exact .of_eq rfl List.prefix_rfl rfl
  | master nodeinfo context healthy => exact .of_eq rfl List.prefix_rfl rfl
  | replica node replica healthy => exact .modifyMaster ..
  | clear nodesInfo nodes =>
    obtain ⟨masters, ids, changed⟩ := source.client.clearInvalidMasterNodes_eq nodesInfo nodes
    dsimp only
    rw [changed]
    exact .of_eq rfl List.prefix_rfl rfl
  | seeds nodes => exact .of_eq rfl (List.prefix_append _ _) rfl

theorem entryFrame (connects : ∀ node readonly connected, kind (.connect node readonly connected)) :
    EntryFrame (Grows kind) where
  refl := ⟨fun _ => .of_eq rfl List.prefix_rfl rfl⟩
  trans := ⟨fun _ _ _ => trans⟩
  errinfo _ _ := .of_eq rfl List.prefix_rfl rfl
  connect world _ _ _ := .note world (connects _ _ _)
  entry _ _ := entry

theorem buildFrame (builds : ∀ event, Building event → kind event) : BuildFrame (Grows kind) where
  toEntryFrame := entryFrame fun _ _ _ => builds _ trivial
  build world event building := .note world (builds event building)
  table _ _ := table

theorem frame (sides : ∀ event, Side event → kind event) : TableFrame (Grows kind) where
  toEntryFrame := entryFrame fun _ _ _ => sides _ trivial
  side world event side := .note world (sides event side)
  build world event building := .note world (sides event building.side)
  table _ _ := table

end Grows

/-- The log grows in any way. -/
abbrev Later : World → World → Prop := Grows fun _ => True

theorem later_frame : TableFrame Later := Grows.frame fun _ _ => trivial

end CppRedis.Soundness.Frames
