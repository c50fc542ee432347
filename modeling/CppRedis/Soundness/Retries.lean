import CppRedis.Soundness.Rounds
import Mathlib.Data.List.GetD
import Mathlib.Data.List.Rotate

/-! # The end of a command

`redis_command` comes to its end after a bounded number of rounds, and refreshes no empty table. What can stop it
before is an assertion, and a listing that cannot be read or does not fit into the slots.
-/

namespace CppRedis.Soundness.Retries

open Machine Model Model.R3c Model.RedisCpp Machine.Effect Frames Rounds

/-- The reasons for a failure that the steps of a run can show. -/
def Blame (env : Env) : R3c.Fault → World → Prop
  | .assertion, world => env.asserts = true ∧ ∃ node, .insert node false ∈ world.log
  | .slotRange, world => ∃ nodesInfo, .listed nodesInfo ∈ world.log ∧
      ∃ nodeinfo ∈ nodesInfo, nodeinfo.liveMaster ∧ ∃ segment ∈ nodeinfo.slots, segmentInRange segment = false
  | .nullText, world => ∃ redisNode node reply, .request .clusterNodes redisNode node (.reply reply) ∈ world.log ∧
      parseListing reply = .error .nullText
  | _, _ => False

/-- A listing has been obtained. -/
def Listed (nodesInfo : List NodeInfo) (world : World) : Prop := .listed nodesInfo ∈ world.log

/-- A pointer points to an entry. -/
def Present (redisNode : NodeRef) (world : World) : Prop := (world.client.at? redisNode).isSome

/-- The seeds and the entries are the same. -/
structure Holds (source target : World) : Prop where
  nodes : target.client.nodes = source.client.nodes
  entries : ∀ redisNode, (target.client.at? redisNode).isSome = (source.client.at? redisNode).isSome

theorem Holds.modifyAt (world : World) (update : CRedisNode → CRedisNode) (redisNode : NodeRef) :
    Holds world { world with client := world.client.modifyAt update redisNode } := by
  constructor
  · exact CRedisClient.modifyAt_nodes ..
  · intro other
    rw [CRedisClient.modifyAt_at?]
    split
    · exact Option.isSome_map ..
    · rfl

theorem holds_frame : Frame Holds where
  refl := ⟨fun _ => ⟨rfl, fun _ => rfl⟩⟩
  trans := ⟨fun _ _ _ first second =>
    ⟨second.nodes.trans first.nodes, fun redisNode => (second.entries redisNode).trans (first.entries redisNode)⟩⟩
  errinfo _ _ := ⟨rfl, fun _ => rfl⟩
  connect _ _ _ _ := ⟨rfl, fun _ => rfl⟩
  side _ _ _ := ⟨rfl, fun _ => rfl⟩
  entry world _ changes := by
    cases changes with
    | entry update redisNode placed healthy => exact .modifyAt world update redisNode
    | index node =>
      constructor
      · exact CRedisClient.modifyMaster_nodes ..
      · intro redisNode
        dsimp only
        rw [CRedisClient.modifyMaster_at?]
        exact fun _ => ⟨rfl, rfl⟩

theorem Listed.later {nodesInfo : List NodeInfo} {source target : World} (listed : Listed nodesInfo source)
    (later : Later source target) : Listed nodesInfo target := by
  obtain ⟨events, log, _⟩ := later.log
  rw [Listed, log]
  exact List.mem_append_left _ listed

variable {env : Env}

section

variable {inv : World → Prop} (stable : ∀ source target, inv source → Later source target → inv target)

include stable

/-- What the log keeps, in a function that always returns. -/
theorem safe_of_returns {α : Type} {program : Action α} (keeps : Keeps Later program) (returns : Returns program) :
    Triple inv program (fun _ => inv) (Blame env) :=
  keeps.triple_of_returns returns stable

theorem connectRedisNode_safe (node : Node) (readonly : Bool) :
    Triple inv (connectRedisNode env node readonly) (fun _ => inv) (Blame env) :=
  safe_of_returns stable (later_frame.connectRedisNode env node readonly) fun _ => ⟨_, _, rfl⟩

theorem client_safe {change : CRedisClient → CRedisClient} (changes : TableChange change) :
    Triple inv (modifyClient change) (fun _ => inv) (Blame env) :=
  safe_of_returns stable (later_frame.client changes) fun _ => ⟨_, _, rfl⟩

theorem strings_safe (condition : Prop) [Decidable condition] (nodesString : CRedisClient → CppString) :
    Triple inv (provided condition (modifyClient fun client => { client with nodesString := nodesString client }))
      (fun _ => inv) (Blame env) :=
  .ite (fun _ => client_safe stable (.strings nodesString)) fun _ => .pure fun _ => id

theorem updateSlots_safe {nodesInfo : List NodeInfo} {nodeinfo : NodeInfo} (member : nodeinfo ∈ nodesInfo)
    (live : nodeinfo.liveMaster) (listed : ∀ world, inv world → Listed nodesInfo world) :
    Triple inv (updateSlots nodeinfo) (fun _ => inv) (Blame env) := by
  apply Triple.forM
  intro segment inside
  apply Triple.ite
  · exact fun _ => client_safe stable (.slots segment nodeinfo.node)
  · intro outside
    apply Triple.throw
    intro world here
    exact ⟨nodesInfo, listed world here, nodeinfo, member, live, segment, inside, Bool.eq_false_iff.mpr outside⟩

theorem addMasterNode_safe (nodeinfo : NodeInfo) :
    Triple inv (addMasterNode env nodeinfo) (fun _ => inv) (Blame env) := by
  apply Triple.bind _ (connectRedisNode_safe stable nodeinfo.node false)
  intro context
  apply Triple.get_bind
  intro source here
  generalize (source.client.masters.lookup nodeinfo.node).isNone = absent
  apply Triple.bind fun _ world => inv world ∧ .insert nodeinfo.node absent ∈ world.log
  · apply Triple.update
    rintro _ rfl
    exact ⟨stable _ _ here (.note _ trivial), List.mem_append_right _ List.mem_cons_self⟩
  · intro _
    apply Triple.bind fun _ => inv
    · apply Triple.ite
      · intro fails
        obtain ⟨asserts, fresh⟩ := Bool.and_eq_true_iff.mp fails
        apply Triple.throw
        rintro world ⟨_, inserted⟩
        rw [Bool.not_eq_true'] at fresh
        exact ⟨asserts, nodeinfo.node, fresh ▸ inserted⟩
      · exact fun _ => .pure fun _ => And.left
    · intro _
      apply Triple.bind fun _ => inv
      · exact fun world here => stable world _ here (.of_eq rfl List.prefix_rfl rfl)
      · exact fun _ => .pure fun _ => id

variable {nodesInfo : List NodeInfo} (listed : ∀ world, inv world → Listed nodesInfo world)

include listed

theorem initMasterNode_safe (several : Bool) (connected : ℕ) {nodeinfo : NodeInfo} (member : nodeinfo ∈ nodesInfo) :
    Triple inv (initMasterNode env several connected nodeinfo) (fun _ => inv) (Blame env) := by
  apply Triple.bind _ (strings_safe stable _ _)
  intro _
  apply Triple.ite
  · intro live
    apply Triple.bind _ (updateSlots_safe stable member live listed)
    intro _
    exact .bind _ (addMasterNode_safe stable nodeinfo) fun _ => .pure fun _ => id
  · exact fun _ => .pure fun _ => id

theorem initMasterNodes_safe : Triple inv (initMasterNodes env nodesInfo) (fun _ => inv) (Blame env) := by
  apply Triple.bind _ (client_safe stable (.strings _))
  intro _
  apply Triple.bind fun _ => inv
  · apply Triple.foldlM
    exact fun connected nodeinfo member => initMasterNode_safe stable listed _ connected member
  · intro connected
    refine .bind (fun _ => inv) ?_ fun _ => .pure fun _ => id
    exact fun world here => stable world _ here (.note world trivial)

theorem updateMasterNode_safe (several : Bool) {nodeinfo : NodeInfo} (member : nodeinfo ∈ nodesInfo) :
    Triple inv (updateMasterNode env several nodeinfo) (fun _ => inv) (Blame env) := by
  apply Triple.bind _ (strings_safe stable _ _)
  intro _
  apply Triple.ite
  · intro live
    apply Triple.bind _ (updateSlots_safe stable member live listed)
    intro _
    refine .get_then fun world => .ite ?_ fun _ => .pure fun _ => id
    exact fun _ => .bind _ (addMasterNode_safe stable nodeinfo) fun _ => .pure fun _ => id
  · exact fun _ => .pure fun _ => id

theorem clearAndUpdateMasterNodes_safe :
    Triple inv (clearAndUpdateMasterNodes env nodesInfo) (fun _ => inv) (Blame env) := by
  apply Triple.bind _ (strings_safe stable _ _)
  intro _
  refine .bind _ (.forM fun nodeinfo member => updateMasterNode_safe stable listed _ member) fun _ => ?_
  exact .get_then fun world => client_safe stable (.clear nodesInfo _)

end

theorem initReplicaNode_returns (nodeinfo : NodeInfo) : Returns (initReplicaNode env nodeinfo) := by
  apply Returns.get_then
  intro world
  rcases world.client.getRedisMasterNode nodeinfo.masterId with _ | master
  · exact .pure _
  · apply Returns.bind (fun _ => ⟨_, _, rfl⟩)
    rintro (_ | context)
    · exact .bind (.update _) fun _ => .pure _
    · exact .bind (.update _) fun _ => .update _

theorem send_noted (redisNode : Option NodeRef) (node : Node) (context : RedisContext) :
    Triple (fun _ => True) (send env .clusterNodes redisNode node context)
      (fun sent world => ∀ reply, sent.1 = some reply →
        .request .clusterNodes redisNode node (.reply reply) ∈ world.log) (Blame env) := by
  apply Triple.ite
  · exact fun _ => .pure fun _ _ => nofun
  · intro _
    apply Triple.get_bind
    intro source _
    apply Triple.bind fun _ world =>
      .request .clusterNodes redisNode node (env.answer source.log .clusterNodes node) ∈ world.log
    · exact .update fun _ _ => List.mem_append_right _ List.mem_cons_self
    · intro _
      apply Triple.pure
      intro world noted reply same
      rcases answered : env.answer source.log .clusterNodes node with made | err <;> rw [answered] at same noted
      · cases same
        exact noted
      · cases same

theorem parseListing_error {reply : RedisReply} {fault : R3c.Fault} (failed : parseListing reply = .error fault) :
    fault = .nullText := by
  cases reply <;> simp only [parseListing] at failed
  all_goals first | (split at failed <;> cases failed) | cases failed
  all_goals rfl

section

variable {inv : World → Prop} (stable : ∀ source target, inv source → Later source target → inv target)

include stable

theorem send_safe {request : Request} (other : request ≠ .command) (redisNode : Option NodeRef) (node : Node)
    (context : RedisContext) : Triple inv (send env request redisNode node context) (fun _ => inv) (Blame env) := by
  apply safe_of_returns stable (later_frame.send env other redisNode node context)
  exact .ite (.pure _) (.get_then fun _ => .bind (.update _) fun _ => .pure _)

theorem listClusterNodes_safe (redisNode : Option NodeRef) (node : Node) (context : RedisContext) :
    Triple inv (listClusterNodes env redisNode node context)
      (fun result world => inv world ∧ ∀ nodesInfo, result.1 = some nodesInfo →
        Listed nodesInfo world) (Blame env) := by
  apply Triple.bind _ ((send_safe stable (by decide) redisNode node context).and
    ((send_noted redisNode node context).strengthen_pre fun _ _ => trivial))
  rintro ⟨_ | reply, context⟩
  · apply Triple.bind fun _ => inv
    · exact .update fun world here => stable world _ here.1 (.of_eq rfl List.prefix_rfl rfl)
    · exact fun _ => .pure fun _ here => ⟨here, nofun⟩
  · dsimp only
    rcases parsed : parseListing reply with fault | ⟨nodesInfo, errinfo⟩
    · apply Triple.throw
      rintro world ⟨_, noted⟩
      obtain rfl := parseListing_error parsed
      exact ⟨redisNode, node, reply, noted reply rfl, parsed⟩
    · apply Triple.bind fun _ => inv
      · exact .update fun world here => stable world _ here.1 (.of_eq rfl List.prefix_rfl rfl)
      · intro _
        apply Triple.ite
        · exact fun _ => .pure fun _ here => ⟨here, nofun⟩
        · intro _
          apply Triple.bind fun _ world => inv world ∧ Listed nodesInfo world
          · apply Triple.update
            exact fun world here => ⟨stable world _ here (.note _ trivial), List.mem_append_right _ List.mem_cons_self⟩
          · intro _
            apply Triple.pure
            rintro world ⟨here, listed⟩
            refine ⟨here, fun other same => ?_⟩
            cases same
            exact listed

theorem initReplicas_safe (nodesInfo : List NodeInfo) :
    Triple inv (initReplicas env nodesInfo) (fun _ => inv) (Blame env) := by
  apply safe_of_returns stable (later_frame.initReplicas env nodesInfo)
  exact .get_then fun _ => .ite (.forM initReplicaNode_returns) (.pure _)

theorem initClusterLoop_safe (rounds : ℕ) (seed : UInt64) :
    Triple inv (initClusterLoop env rounds seed) (fun _ => inv) (Blame env) := by
  induction rounds generalizing seed with
  | zero => exact .pure fun _ => id
  | succ rounds ih =>
    apply Triple.get_then
    intro world
    apply Triple.bind _ (connectRedisNode_safe stable _ false)
    rintro (_ | context)
    · exact ih (seed + 1)
    · apply Triple.bind _ (listClusterNodes_safe stable none _ context)
      rintro ⟨_ | nodesInfo, context⟩
      · exact (ih (seed + 1)).strengthen_pre fun _ here => here.1
      · have listing : ∀ source target, inv source ∧ Listed nodesInfo source → Later source target →
            inv target ∧ Listed nodesInfo target :=
          fun source target here later => ⟨stable source target here.1 later, here.2.later later⟩
        apply ((initMasterNodes_safe listing fun _ => And.right).strengthen_pre _).bind
        · intro connected
          apply Triple.ite
          · exact fun _ => (initReplicas_safe stable nodesInfo).strengthen_pre fun _ => And.left
          · exact fun _ => (ih (seed + 1)).strengthen_pre fun _ => And.left
        · exact fun _ here => ⟨here.1, here.2 nodesInfo rfl⟩

theorem initCluster_safe : Triple inv (initCluster env) (fun _ => inv) (Blame env) := by
  apply Triple.get_then
  intro world
  exact .bind _ (initClusterLoop_safe stable _ _) fun _ => .get_then fun _ => .pure fun _ => id

end

/-- The log grows, and the seeds and entries are the same. -/
def Settled (source target : World) : Prop := Later source target ∧ Holds source target

theorem settled_frame : Frame Settled := later_frame.toFrame.inter holds_frame

theorem Settled.modifyAt (world : World) (update : CRedisNode → CRedisNode) (redisNode : NodeRef) :
    Settled world { world with client := world.client.modifyAt update redisNode } :=
  ⟨.modifyAt update redisNode, .modifyAt world update redisNode⟩

theorem Present.settled {redisNode : NodeRef} {source target : World} (present : Present redisNode source)
    (settled : Settled source target) : Present redisNode target := by
  rw [Present, settled.2.entries]
  exact present

theorem present_master {node : Node} {world : World} :
    Present (.master node) world ↔ node ∈ world.client.masters.keys := by
  rw [Present, CRedisClient.at?, Option.isSome_map, AList.lookup_isSome, AList.mem_keys]

section

variable {inv : World → Prop} (steady : ∀ source target, inv source → Settled source target → inv target)

include steady

theorem steady_of_returns {α : Type} {program : Action α} (keeps : Keeps Settled program) (returns : Returns program) :
    Triple inv program (fun _ => inv) (Blame env) :=
  keeps.triple_of_returns returns steady

omit steady in
theorem entryAt_safe (redisNode : NodeRef) :
    Triple (fun world => inv world ∧ Present redisNode world) (entryAt redisNode)
      (fun _ world => inv world ∧ Present redisNode world) (Blame env) := by
  apply Triple.get_bind
  intro source here
  obtain ⟨entry, found⟩ := Option.isSome_iff_exists.mp here.2
  rw [found]
  apply Triple.pure
  rintro _ rfl
  exact here

theorem modifyAt_safe (update : CRedisNode → CRedisNode) (redisNode : NodeRef) :
    Triple inv (modifyClient (CRedisClient.modifyAt update redisNode)) (fun _ => inv) (Blame env) :=
  fun world here => steady world _ here (.modifyAt world update redisNode)

theorem openContext_safe (node : Node) (context : Option RedisContext) :
    Triple inv (openContext env node context) (fun _ => inv) (Blame env) := by
  apply steady_of_returns steady (settled_frame.openContext env node context)
  rcases context with _ | context
  · exact fun _ => ⟨_, _, rfl⟩
  · exact .pure _

theorem ensureContext_safe (redisNode : NodeRef) :
    Triple (fun world => inv world ∧ Present redisNode world) (ensureContext env redisNode) (fun _ => inv)
      (Blame env) := by
  apply Triple.bind _ (entryAt_safe redisNode)
  intro entry
  rcases entry.context with _ | context
  · apply Triple.bind fun _ => inv
    · apply (openContext_safe steady entry.node none).strengthen_pre fun _ => And.left
    · intro context
      exact .bind _ (modifyAt_safe steady _ redisNode) fun _ => .pure fun _ => id
  · exact .pure fun _ => And.left

omit steady in
theorem randomRedisMasterNode_safe :
    Triple (fun world => inv world ∧ world.client.nodes ≠ []) (randomRedisMasterNode env)
      (fun found world => inv world ∧ ∀ node, found = some node → Present (.master node) world) (Blame env) := by
  apply Triple.get_bind
  rintro source ⟨here, seeds⟩
  apply Triple.ite
  · intro _
    apply Triple.pure
    rintro _ rfl
    exact ⟨here, nofun⟩
  · intro _
    rw [if_neg seeds]
    apply Triple.pure
    rintro _ rfl
    refine ⟨here, fun node found => present_master.mpr ?_⟩
    exact (env.order_perm _ _).mem_iff.mp (List.mem_of_getElem? found)

theorem chooseNode_safe (node : Node) :
    Triple (fun world => inv world ∧ Present (.master node) world) (chooseNode env node)
      (fun redisNode world => (inv world ∧ Present (.master node) world) ∧ Present redisNode world) (Blame env) := by
  apply Triple.get_bind
  intro source here
  have present := here.2
  rw [Present, CRedisClient.at?, Option.isSome_map] at present
  obtain ⟨master, found⟩ := Option.isSome_iff_exists.mp present
  rw [found]
  apply Triple.ite
  · intro _
    apply Triple.pure
    rintro _ rfl
    exact ⟨here, here.2⟩
  · intro several
    apply Triple.bind fun _ world => (inv world ∧ Present (.master node) world) ∧ Settled source world
    · rintro world rfl
      have settled := settled_frame.entry world _ (.index node)
      exact ⟨⟨steady _ _ here.1 settled, here.2.settled settled⟩, settled⟩
    · intro _
      apply Triple.ite
      · exact fun _ => .pure fun _ after => ⟨after.1, after.1.2⟩
      · intro _
        apply Triple.pure
        rintro world ⟨after, settled⟩
        refine ⟨after, Present.settled ?_ settled⟩
        rw [Present, CRedisClient.at?, found, Option.bind_some, AList.lookup_isSome, AList.mem_keys]
        apply (env.order_perm source.log master.replicas.keys).mem_iff.mp
        rw [List.getD_eq_getElem _ _ (Nat.mod_lt _ (List.length_pos_iff.mpr several))]
        exact List.getElem_mem _

omit steady in
theorem standaloneNode_safe (steady : ∀ source target, inv source → Settled source target → inv target) :
    Triple (fun world => inv world ∧ world.client.masters.keys ≠ []) (standaloneNode env)
      (fun found world => inv world ∧ ∀ redisNode, found = some redisNode → Present redisNode world) (Blame env) := by
  apply Triple.get_bind
  rintro source ⟨here, filled⟩
  apply Triple.bind fun _ world => world = source
  · apply Triple.ite
    · intro fails
      rw [decide_eq_true filled, Bool.not_true, Bool.and_false] at fails
      exact absurd fails Bool.false_ne_true
    · exact fun _ => .pure fun _ => id
  · intro _
    have perm := env.order_perm source.log source.client.masters.keys
    rcases order : env.order source.log source.client.masters.keys with _ | ⟨node, nodes⟩ <;> rw [order] at perm
    · exact absurd perm.symm.eq_nil filled
    · have present : Present (.master node) source := present_master.mpr (perm.mem_iff.mp List.mem_cons_self)
      have stays : ∀ first last, inv first ∧ Present (.master node) first → Settled first last →
          inv last ∧ Present (.master node) last :=
        fun first last before settled => ⟨steady first last before.1 settled, before.2.settled settled⟩
      apply ((ensureContext_safe stays (.master node)).strengthen_pre _).bind
      · intro _
        apply Triple.pure
        rintro world ⟨after, stays⟩
        refine ⟨after, fun redisNode same => ?_⟩
        cases same
        exact stays
      · rintro _ rfl
        exact ⟨⟨here, present⟩, present⟩

theorem readNode_safe (readonly : Bool) (node : Node) (connected : Bool) :
    Triple (fun world => inv world ∧ Present (.master node) world) (readNode env readonly node connected)
      (fun redisNode world => inv world ∧ Present redisNode world) (Blame env) := by
  apply Triple.get_then
  intro world
  refine .ite (fun _ => .pure fun _ => id) fun _ => .ite (fun _ => .pure fun _ => id) fun _ => ?_
  apply Triple.bind _ (chooseNode_safe steady node)
  intro redisNode
  have stays : ∀ first last, (inv first ∧ Present (.master node) first) ∧ Present redisNode first →
      Settled first last → (inv last ∧ Present (.master node) last) ∧ Present redisNode last :=
    fun first last before settled =>
      ⟨⟨steady first last before.1.1 settled, before.1.2.settled settled⟩, before.2.settled settled⟩
  apply ((ensureContext_safe stays redisNode).strengthen_pre _).bind
  · intro made
    exact .ite (fun _ => .pure fun _ after => ⟨after.1.1, after.2⟩) fun _ => .pure fun _ after => after.1
  · exact fun world before => ⟨before, before.2⟩

end

section

variable {inv : World → Prop} (stable : ∀ source target, inv source → Later source target → inv target)

include stable

theorem refreshLoop_safe (errorNode : Option Node) (nodes : List Node) :
    Triple (fun world => inv world ∧ ∀ node ∈ nodes, Present (.master node) world) (refreshLoop env errorNode nodes)
      (fun _ => inv) (Blame env) := by
  have steady : ∀ (nodes : List Node) source target, (inv source ∧ ∀ node ∈ nodes, Present (.master node) source) →
      Settled source target → inv target ∧ ∀ node ∈ nodes, Present (.master node) target :=
    fun nodes source target before settled =>
      ⟨stable source target before.1 settled.1, fun node member => (before.2 node member).settled settled⟩
  induction nodes with
  | nil => exact .pure fun _ => And.left
  | cons node nodes ih =>
    have rest : Triple (fun world => inv world ∧ ∀ other ∈ node :: nodes, Present (.master other) world)
        (refreshLoop env errorNode nodes) (fun _ => inv) (Blame env) :=
      ih.strengthen_pre fun _ before => ⟨before.1, fun other member => before.2 other (List.mem_cons_of_mem _ member)⟩
    apply Triple.ite
    · exact fun _ => rest
    · intro _
      apply ((entryAt_safe (.master node)).weaken _ (fun _ _ => And.left) fun _ _ => id).bind
      · intro entry
        apply Triple.bind _ (openContext_safe (steady (node :: nodes)) node entry.context)
        rintro (_ | context)
        · exact rest
        · apply Triple.bind _ (modifyAt_safe (steady (node :: nodes)) _ _)
          intro _
          have listing : ∀ source target, (∀ other ∈ node :: nodes, Present (.master other) source) →
              Holds source target → ∀ other ∈ node :: nodes, Present (.master other) target := by
            intro source target before holds other member
            rw [Present, holds.entries]
            exact before other member
          apply Triple.bind _ ((listClusterNodes_safe stable (some (.master node)) node context).keeping
            (holds_frame.listClusterNodes env _ node context) listing)
          rintro ⟨nodesInfo, context⟩
          have stays : ∀ source target,
              ((inv source ∧ ∀ listed, nodesInfo = some listed → Listed listed source) ∧
                ∀ other ∈ node :: nodes, Present (.master other) source) → Settled source target →
              (inv target ∧ ∀ listed, nodesInfo = some listed → Listed listed target) ∧
                ∀ other ∈ node :: nodes, Present (.master other) target :=
            fun source target before settled =>
              ⟨⟨stable source target before.1.1 settled.1, fun listed same => (before.1.2 listed same).later settled.1⟩,
                listing source target before.2 settled.2⟩
          apply Triple.bind _ (modifyAt_safe stays _ _)
          intro _
          rcases nodesInfo with _ | nodesInfo
          · exact rest.strengthen_pre fun _ before => ⟨before.1.1, before.2⟩
          · have listed : ∀ source target, inv source ∧ Listed nodesInfo source → Later source target →
                inv target ∧ Listed nodesInfo target :=
              fun source target before later => ⟨stable source target before.1 later, before.2.later later⟩
            apply ((clearAndUpdateMasterNodes_safe listed fun _ => And.right).weaken _ (fun _ _ => And.left)
              fun _ _ => id).bind
            · exact fun _ => initReplicas_safe stable nodesInfo
            · exact fun _ before => ⟨before.1.1, before.1.2 nodesInfo rfl⟩
      · exact fun world before => ⟨before, before.2 node List.mem_cons_self⟩

theorem refreshMasterNodeTable_safe (errorNode : Option Node) :
    Triple (fun world => inv world ∧ world.client.masters.keys ≠ []) (refreshMasterNodeTable env errorNode)
      (fun _ => inv) (Blame env) := by
  apply Triple.get_bind
  rintro source ⟨here, filled⟩
  apply Triple.bind fun _ world => inv world ∧ ∀ node ∈ source.client.masters.keys, Present (.master node) world
  · rintro world rfl
    exact ⟨stable _ _ here (.note _ trivial), fun node member => present_master.mpr member⟩
  · intro _
    rw [if_neg filled]
    apply (refreshLoop_safe stable errorNode _).strengthen_pre
    rintro world ⟨after, present⟩
    refine ⟨after, fun node member => present node ?_⟩
    exact (env.order_perm _ _).mem_iff.mp (List.mem_rotate.mp member)

end

/-- A cluster, whose seeds stay. -/
def Cluster (world : World) : Prop := world.client.clusterMode = true

theorem Cluster.later {source target : World} (cluster : Cluster source) (later : Later source target) :
    Cluster target := by
  rw [Cluster, CRedisClient.clusterMode, decide_eq_true_iff] at cluster ⊢
  exact Nat.lt_of_lt_of_le cluster later.nodes.length_le

/-- The table of a single server is never empty. -/
def Ready (world : World) : Prop := Cluster world ∨ world.client.masters.keys ≠ []

theorem Ready.settled {source target : World} (ready : Ready source) (settled : Settled source target) :
    Ready target := by
  rcases ready with cluster | filled
  · exact .inl (cluster.later settled.1)
  · obtain ⟨node, member⟩ := List.exists_mem_of_ne_nil _ filled
    exact .inr (List.ne_nil_of_mem (present_master.mp ((present_master.mpr member).settled settled)))

theorem refill_safe : Triple Cluster (refill env) (fun _ => Cluster) (Blame env) := by
  apply Triple.get_then
  intro world
  apply Triple.ite
  · exact fun _ => .pure fun _ => id
  · intro _
    apply Triple.bind _ (client_safe (fun _ _ => Cluster.later) (.seeds fun client => parseNodes client.nodesString))
    intro _
    apply Triple.get_bind
    intro source cluster
    apply Triple.bind fun _ => Cluster
    · have several : decide (1 < source.client.nodes.length) = true := cluster
      rw [several]
      apply Triple.ite
      · intro fails
        rw [Bool.not_true, Bool.and_false] at fails
        exact absurd fails Bool.false_ne_true
      · rintro _ _ rfl
        exact cluster
    · exact fun _ => initCluster_safe fun _ _ => Cluster.later

theorem findMaster_safe (slot : ℕ) (askNode : Option Node) :
    Triple Cluster (findMaster env slot askNode)
      (fun found world => Cluster world ∧ ∀ node, found = some node → Present (.master node) world) (Blame env) := by
  apply Triple.get_bind
  intro source cluster
  apply Triple.ite
  · intro found
    apply Triple.pure
    rintro _ rfl
    refine ⟨cluster, fun node same => ?_⟩
    cases same
    rw [Present, CRedisClient.at?, Option.isSome_map]
    exact found
  · intro _
    apply randomRedisMasterNode_safe.strengthen_pre
    rintro _ rfl
    refine ⟨cluster, fun none => ?_⟩
    rw [Cluster, CRedisClient.clusterMode, none] at cluster
    exact absurd cluster (by decide)

theorem clusterNode_safe {slot : ℕ} (bound : slot < clusterSlots) (readonly : Bool) (askNode : Option Node) :
    Triple Cluster (clusterNode env slot readonly askNode)
      (fun found world => Cluster world ∧ ∀ redisNode, found = some redisNode → Present redisNode world)
      (Blame env) := by
  have steady : ∀ source target, Cluster source → Settled source target → Cluster target :=
    fun _ _ cluster settled => cluster.later settled.1
  have lasting : ∀ node source target, Cluster source ∧ Present (.master node) source → Settled source target →
      Cluster target ∧ Present (.master node) target :=
    fun node source target before settled => ⟨steady _ _ before.1 settled, before.2.settled settled⟩
  apply Triple.bind fun _ => Cluster
  · apply Triple.ite
    · intro fails
      rw [decide_eq_true bound, Bool.not_true, Bool.and_false] at fails
      exact absurd fails Bool.false_ne_true
    · exact fun _ => .pure fun _ => id
  · intro _
    apply Triple.bind _ refill_safe
    intro filled
    apply Triple.ite
    · intro _
      apply Triple.bind _ (findMaster_safe slot askNode)
      rintro (_ | node)
      · exact .pure fun _ before => ⟨before.1, nofun⟩
      · apply ((ensureContext_safe (lasting node) (.master node)).strengthen_pre _).bind
        · intro connected
          apply Triple.bind _ (readNode_safe steady readonly node connected)
          intro redisNode
          apply Triple.pure
          rintro world ⟨cluster, present⟩
          refine ⟨cluster, fun other same => ?_⟩
          cases same
          exact present
        · exact fun world before => ⟨⟨before.1, before.2 node rfl⟩, before.2 node rfl⟩
    · exact fun _ => .pure fun _ cluster => ⟨cluster, nofun⟩

/-- An attempt may start on a node, or it may go on there. -/
def OnNode (redisNode : NodeRef) (world : World) : Prop := Ready world ∧ Present redisNode world

theorem OnNode.settled {redisNode : NodeRef} (source target : World) (before : OnNode redisNode source)
    (settled : Settled source target) : OnNode redisNode target :=
  ⟨before.1.settled settled, before.2.settled settled⟩

theorem getRedisNode_safe (readonly : Bool) (askNode : Option Node) (source : World) {slot : ℕ}
    (bound : slot < clusterSlots) :
    Triple (fun world => world = source ∧ Ready world)
      (getRedisNode env (if source.client.clusterMode then some slot else none) readonly askNode)
      (fun found world => Ready world ∧ ∀ redisNode, found = some redisNode → Present redisNode world) (Blame env) := by
  cases mode : source.client.clusterMode with
  | true =>
    apply (clusterNode_safe bound readonly askNode).weaken _ (fun _ _ after => ⟨.inl after.1, after.2⟩) fun _ _ => id
    rintro _ ⟨rfl, _⟩
    exact mode
  | false =>
    apply (standaloneNode_safe fun _ _ => Ready.settled).strengthen_pre
    rintro _ ⟨rfl, ready⟩
    refine ⟨ready, ready.resolve_left fun cluster => ?_⟩
    rw [Cluster, mode] at cluster
    cases cluster

theorem handleRedisReply_returns (redisNode : NodeRef) (reply : RedisReply) :
    Returns (handleRedisReply redisNode reply) := by
  refine .bind (.update _) fun _ => ?_
  cases reply with
  | error str =>
    refine .get_then fun _ => .bind (.update _) fun _ => .bind ?_ fun _ => .pure _
    exact .ite (.update _) (.pure _)
  | _ => exact .pure _

theorem send_keeps (request : Request) (redisNode : Option NodeRef) (node : Node) (context : RedisContext) :
    Keeps Settled (send env request redisNode node context) := by
  apply Keeps.ite
  · exact settled_frame.pure _
  · refine .get_then fun _ => settled_frame.bind ?_ fun _ => settled_frame.pure _
    exact fun world => ⟨.note world trivial, rfl, fun _ => rfl⟩

theorem send_returns (request : Request) (redisNode : Option NodeRef) (node : Node) (context : RedisContext) :
    Returns (send env request redisNode node context) :=
  .ite (.pure _) (.get_then fun _ => .bind (.update _) fun _ => .pure _)

theorem transmit_safe (asked : Bool) (redisNode : NodeRef) :
    Triple (OnNode redisNode) (transmit env asked redisNode) (fun _ => OnNode redisNode) (Blame env) := by
  apply (entryAt_safe redisNode).bind
  intro entry
  rcases entry.context with _ | context
  · exact .pure fun _ => id
  · apply Triple.bind fun _ => OnNode redisNode
    · apply steady_of_returns OnNode.settled (settled_frame.askFirst env asked redisNode entry.node context)
      exact .ite (.bind (send_returns _ _ _ _) fun _ => .pure _) (.pure _)
    · intro context
      apply Triple.bind _ (steady_of_returns OnNode.settled (send_keeps .command (some redisNode) entry.node context)
        (send_returns _ _ _ _))
      rintro ⟨reply, context⟩
      apply Triple.bind _ (modifyAt_safe OnNode.settled _ redisNode)
      intro _
      rcases reply with _ | reply
      · refine .bind _ ?_ fun _ => .pure fun _ => id
        apply steady_of_returns OnNode.settled (settled_frame.handleRedisCommandError env redisNode _)
        exact .get_then fun _ => .bind (.update _) fun _ => .ite (.pure _) (.bind (.update _) fun _ => .pure _)
      · refine .bind _ ?_ fun _ => .pure fun _ => id
        exact steady_of_returns OnNode.settled (settled_frame.handleRedisReply redisNode reply)
          (handleRedisReply_returns redisNode reply)

theorem giveUp_safe : Triple Ready giveUp (fun _ => Ready) (Blame env) := .get_then fun _ => .pure fun _ => id

theorem refreshIfNeeded_safe (result : HandleResult) (redisNode : NodeRef) (node : Node) :
    Triple (OnNode redisNode) (refreshIfNeeded env result redisNode node) (fun _ => Ready) (Blame env) := by
  apply (entryAt_safe redisNode).bind
  intro entry
  apply Triple.get_bind
  rintro source ⟨ready, present⟩
  apply Triple.ite
  · rintro ⟨cluster, _⟩
    apply (refreshMasterNodeTable_safe (fun _ _ => Cluster.later) _).weaken _ (fun _ _ => .inl) fun _ _ => id
    rintro world rfl
    exact ⟨cluster, CRedisClient.masters_ne_nil present⟩
  · rintro _ _ rfl
    exact ready

theorem retry_safe (numRetries : ℤ) (loopCounter : ℕ) (redisNode : NodeRef) (node : Node) (result : HandleResult) :
    Triple (OnNode redisNode) (retry env numRetries loopCounter redisNode node result) (fun _ => Ready)
      (Blame env) := by
  apply Triple.bind fun _ => OnNode redisNode
  · exact .ite (fun _ => modifyAt_safe OnNode.settled _ redisNode) fun _ => .pure fun _ => id
  · intro _
    apply Triple.ite
    · exact fun _ => .bind _ (refreshIfNeeded_safe result redisNode node) fun _ => .pure fun _ => id
    · exact fun _ => giveUp_safe.strengthen_pre fun _ => And.left

theorem conclude_safe (numRetries : ℤ) (loopCounter : ℕ) (redisNode : NodeRef) (node : Node) (result : HandleResult)
    (reply : Option RedisReply) :
    Triple (OnNode redisNode) (conclude env numRetries loopCounter redisNode node result reply) (fun _ => Ready)
      (Blame env) := by
  have ends : Triple (OnNode redisNode) giveUp (fun _ => Ready) (Blame env) :=
    giveUp_safe.strengthen_pre fun _ => And.left
  cases result with
  | success => exact .pure fun _ => And.left
  | error => exact ends
  | redirect =>
    rw [conclude]
    rcases parseMovedString (errorStr reply) with _ | askNode
    · exact ends
    · exact .ite (fun _ => .pure fun _ => And.left) fun _ => ends
  | _ => exact retry_safe numRetries loopCounter redisNode node _

theorem getKeySlot_lt (rand : ℕ) (key : CppString) : getKeySlot rand key < clusterSlots := by
  have masked : ∀ crc : UInt16, (crc &&& 0x3FFF).toNat < clusterSlots := by
    intro crc
    rw [UInt16.toNat_and]
    exact Nat.lt_of_le_of_lt Nat.and_le_right (by decide)
  rw [getKeySlot, keyHashSlot]
  split_ifs
  all_goals first | exact masked _ | exact Nat.lt_of_le_of_lt Nat.and_le_right (by decide)

/-- A command returns with a reply that is no error, or throws. -/
def Proper : Outcome → Prop
  | .returned reply => ∃ value, reply = some value ∧ ∀ str, value ≠ .error str
  | .thrown _ => True

theorem transmit_success (asked : Bool) (redisNode : NodeRef) :
    Yields (transmit env asked redisNode) fun result =>
      result.1 = .success → ∃ value, result.2 = some value ∧ ∀ str, value ≠ .error str := by
  refine .bind fun entry => ?_
  rcases entry.context with _ | context
  · exact .pure nofun
  · refine .bind fun context => .bind fun ⟨reply, context⟩ => .bind fun _ => ?_
    rcases reply with _ | reply
    · intro source result target ran succeeded
      obtain ⟨handled, middle, ranError, returned⟩ := bind_eq_ok_iff.mp ran
      cases returned
      rcases handleRedisCommandError_yields _ _ _ _ _ ranError with failed | failed <;> rw [failed] at succeeded <;>
        cases succeeded
    · intro source result target ran succeeded
      obtain ⟨handled, middle, ranReply, returned⟩ := bind_eq_ok_iff.mp ran
      cases returned
      have kind := handleRedisReply_yields _ _ _ _ _ ranReply
      dsimp only at succeeded
      rw [succeeded] at kind
      exact ⟨reply, rfl, kind.success⟩

theorem giveUp_proper : Yields giveUp fun turn => ∀ outcome, turn = .finish outcome → Proper outcome := by
  refine .bind fun _ => .pure fun outcome same => ?_
  cases same
  trivial

theorem conclude_proper (numRetries : ℤ) (loopCounter : ℕ) (redisNode : NodeRef) (node : Node) (result : HandleResult)
    (reply : Option RedisReply)
    (success : result = .success → ∃ value, reply = some value ∧ ∀ str, value ≠ .error str) :
    Yields (conclude env numRetries loopCounter redisNode node result reply) fun turn =>
      ∀ outcome, turn = .finish outcome → Proper outcome := by
  cases result with
  | success =>
    refine .pure fun outcome same => ?_
    cases same
    exact success rfl
  | error => exact giveUp_proper
  | redirect =>
    rw [conclude]
    rcases parseMovedString (errorStr reply) with _ | askNode
    · exact giveUp_proper
    · exact .ite (fun _ => .pure (by rintro _ ⟨⟩)) fun _ => giveUp_proper
  | _ => exact .bind fun _ => .ite (fun _ => .bind fun _ => .pure (by rintro _ ⟨⟩)) fun _ => giveUp_proper

/-- What a round leaves: a proper outcome, or a counter that is not too large. -/
def Turned (numRetries : ℤ) (loopCounter : ℕ) (turn : Turn) (world : World) : Prop :=
  Ready world ∧ (∀ outcome, turn = .finish outcome → Proper outcome) ∧
    ∀ askNode, turn = .again askNode → (loopCounter : ℤ) ≤ max numRetries 2

theorem attempt_safe (numRetries : ℤ) (loopCounter : ℕ) (askNode : Option Node) (redisNode : NodeRef) :
    Triple (OnNode redisNode) (attempt env numRetries loopCounter askNode redisNode) (Turned numRetries loopCounter)
      (Blame env) := by
  apply (entryAt_safe redisNode).bind
  intro entry
  apply Triple.bind _ ((transmit_safe askNode.isSome redisNode).yielding (transmit_success _ _))
  rintro ⟨result, reply⟩ source ⟨here, success⟩
  have concluded := ((@conclude_safe env numRetries loopCounter redisNode entry.node result reply).yielding
    (conclude_proper _ _ _ _ _ _ success)).yielding (conclude_again _ _ _ _ _ _)
  exact concluded.weaken (fun _ => id)
    (fun turn world after => ⟨after.1.1, after.1.2, fun askNode same => (after.2 askNode same).bounded⟩)
    (fun _ _ => id) source here

theorem round_safe (readonly : Bool) (numRetries : ℤ) (key : CppString) (loopCounter : ℕ) (askNode : Option Node) :
    Triple Ready (round env readonly numRetries key loopCounter askNode) (Turned numRetries loopCounter)
      (Blame env) := by
  apply Triple.get_bind
  intro source ready
  have chosen := @getRedisNode_safe env readonly askNode source _
    (getKeySlot_lt (env.random source.log).toNat key)
  apply (chosen.strengthen_pre _).bind
  · intro redisNode
    apply Triple.bind fun _ world => Ready world ∧ ∀ found, redisNode = some found → Present found world
    · exact .update fun _ => id
    · intro _
      rcases redisNode with _ | redisNode
      · refine .get_then fun _ => .bind (fun _ => Ready) (.update fun _ => And.left) fun _ => ?_
        apply ((giveUp_safe.yielding giveUp_proper).yielding (giveUp_yields fun _ => False)).weaken_post
        exact fun turn world after => ⟨after.1.1, after.1.2, fun askNode same => (after.2 askNode same).elim⟩
      · exact (attempt_safe numRetries loopCounter askNode redisNode).strengthen_pre
          fun _ before => ⟨before.1, before.2 redisNode rfl⟩
  · rintro _ rfl
    exact ⟨rfl, ready⟩

/-- Enough rounds are left for every counter that a round may be followed by. -/
theorem commandLoop_safe (readonly : Bool) {numRetries : ℤ} (small : numRetries < intMax) (key : CppString)
    {rounds loopCounter : ℕ} (askNode : Option Node) (few : (loopCounter : ℤ) ≤ max numRetries 2 + 1)
    (enough : max numRetries 2 + 2 ≤ loopCounter + rounds) :
    Triple Ready (commandLoop env readonly numRetries key rounds loopCounter askNode)
      (fun found _ => ∃ outcome, found = some outcome ∧ Proper outcome) (Blame env) := by
  induction rounds generalizing loopCounter askNode with
  | zero =>
    omega
  | succ rounds ih =>
    apply Triple.bind _ (round_safe readonly numRetries key loopCounter askNode)
    rintro (outcome | askNode)
    · exact .pure fun _ turned => ⟨outcome, rfl, turned.2.1 outcome rfl⟩
    · rintro source ⟨ready, _, bounded⟩
      have bound := bounded askNode rfl
      have below : loopCounter ≠ intMax := by
        rintro rfl
        have large : (2 : ℤ) < intMax := by decide
        omega
      dsimp only
      rw [if_neg below]
      apply ih askNode
      · push_cast
        omega
      · push_cast at enough ⊢
        omega
      · exact ready

/-- Tables are refreshed only if they are not empty, in every run. -/
def NoEmptyRefresh : Event → Prop
  | .refresh masters => 0 < masters
  | _ => True

theorem filled_frame : TableFrame (Grows NoEmptyRefresh) := by
  apply Grows.frame
  intro event side
  cases event with
  | refresh masters => exact side.elim
  | _ => trivial

theorem redisCommand_filled (rounds : ℕ) (readonly : Bool) (numRetries : ℤ) (key : CppString) :
    Keeps (Grows NoEmptyRefresh) (redisCommand env rounds readonly numRetries key) :=
  filled_frame.redisCommand env (fun _ _ _ _ => .modifyAt _ _)
    (fun _ filled => .note _ (List.length_pos_iff.mpr filled))
    (fun _ _ _ _ => .note _ trivial) (fun _ _ => .note _ trivial) rounds readonly numRetries key

/-- The steps of a run that stays clear of the failures. -/
structure Clear (env : Env) (log : List Event) : Prop where
  /-- Where assertions are checked, no master is inserted at an address that is there. -/
  inserts : env.asserts = true → ∀ node, .insert node false ∉ log
  /-- The slots of live masters are in the table of slots. -/
  slots : ∀ nodesInfo, .listed nodesInfo ∈ log → ∀ nodeinfo ∈ nodesInfo, nodeinfo.liveMaster →
    ∀ segment ∈ nodeinfo.slots, segmentInRange segment
  /-- A reply to `CLUSTER NODES` is a text. -/
  texts : ∀ redisNode node reply, .request .clusterNodes redisNode node (.reply reply) ∈ log →
    ∃ str, reply = .string str ∨ reply = .error str ∨ reply = .status str

theorem Clear.blameless {log : List Event} (clear : Clear env log) {fault : R3c.Fault} {world : World}
    (same : world.log = log) : ¬ Blame env fault world := by
  intro blamed
  subst same
  cases fault with
  | assertion =>
    obtain ⟨asserts, node, inserted⟩ := blamed
    exact clear.inserts asserts node inserted
  | slotRange =>
    obtain ⟨nodesInfo, listed, nodeinfo, member, live, segment, inside, outside⟩ := blamed
    rw [clear.slots nodesInfo listed nodeinfo member live segment inside] at outside
    cases outside
  | nullText =>
    obtain ⟨redisNode, node, reply, noted, failed⟩ := blamed
    obtain ⟨str, rfl | rfl | rfl⟩ := clear.texts redisNode node reply noted
    · rw [parseListing] at failed
      split at failed <;> cases failed
    · cases failed
    · cases failed
  | _ => exact blamed

/-- A command with at most so many rounds. -/
def boundedCommand (env : Env) (readonly : Bool) (numRetries : ℤ) (key : CppString) : Action (Option Outcome) :=
  redisCommand env (max numRetries 2 + 2).toNat readonly numRetries key

/-- No table that is empty is refreshed in any run, and a run that stays clear comes to its end. -/
theorem boundedCommand_ends (env : Env) (readonly : Bool) {numRetries : ℤ} (small : numRetries < intMax)
    (key : CppString) {source : World} (ready : Ready source) :
    (∃ events, (boundedCommand env readonly numRetries key source).2.log = source.log ++ events ∧
      ∀ masters, .refresh masters ∈ events → 0 < masters) ∧
    (Clear env (boundedCommand env readonly numRetries key source).2.log →
      ∃ outcome, (boundedCommand env readonly numRetries key source).1 = .ok (some outcome) ∧ Proper outcome) := by
  constructor
  · obtain ⟨events, log, filled⟩ := (redisCommand_filled _ readonly numRetries key source).log
    exact ⟨events, log, fun masters member => filled _ member⟩
  · rw [boundedCommand, redisCommand, bind_of_ok (set_errinfo {} source), bind_of_ok (get_apply _)]
    split
    · exact fun _ => ⟨_, rfl, trivial⟩
    · intro clear
      have ends := @commandLoop_safe env readonly numRetries small key (max numRetries 2 + 2).toNat 0 none
        (by omega) (by omega) { source with errinfo := {} } ready
      rcases ran : commandLoop env readonly numRetries key (max numRetries 2 + 2).toNat 0 none
        { source with errinfo := {} } with ⟨fault | found, target⟩ <;> rw [ran] at ends clear
      · exact (clear.blameless rfl ends).elim
      · obtain ⟨outcome, rfl, proper⟩ := ends
        exact ⟨outcome, rfl, proper⟩

/-- Two seeds, which list a master that cannot be reached. -/
def strandedEnv : Env :=
  plainEnv (fun node => node.1 = text "s") fun _ _ _ =>
    .reply (.string (text "id m:1 master - 0 0 1 connected 0-16383\n"))

def strandedClient : CRedisClient where
  nodes := [(text "s", 1), (text "s", 2)]
  rawNodesString := text "s:1,s:2"
  nodesString := text "s:1,s:2"
  readPolicy := .onlyMaster

def isAssertion {α : Type} : Except R3c.Fault α → Bool
  | .error .assertion => true
  | _ => false

/-- The second seed lists the same master, and the assertion on its insertion fails. -/
theorem stranded_aborts :
    ¬ ∃ rounds outcome,
      (redisCommand strandedEnv rounds false 5 (text "k") { client := strandedClient }).1 = .ok (some outcome) := by
  rintro ⟨rounds, outcome, ends⟩
  revert ends
  cases rounds with
  | zero => exact nofun
  | succ rounds =>
    have aborted : isAssertion (round strandedEnv false 5 (text "k") 0 none { client := strandedClient }).1 = true := by
      decide +kernel
    have keyed : ¬ (strandedClient.clusterMode = true ∧ text "k" = []) := fun wrong => absurd wrong.2 (by decide)
    rw [redisCommand, bind_of_ok (set_errinfo _ _), bind_of_ok (get_apply _), if_neg keyed, commandLoop, bind_apply]
    rcases ran : round strandedEnv false 5 (text "k") 0 none { client := strandedClient } with ⟨fault | turn, target⟩
    · exact nofun
    · rw [ran] at aborted
      cases aborted

/-- An event of a run that stays clear. -/
def clearEvent : Event → Bool
  | .insert _ absent => absent
  | .listed nodesInfo => nodesInfo.all fun nodeinfo => nodeinfo.slots.all segmentInRange
  | .request .clusterNodes _ _ (.reply (.string _)) => true
  | .request .clusterNodes _ _ (.reply _) => false
  | _ => true

theorem Clear.of_clearEvent {log : List Event} (clear : log.all clearEvent = true) : Clear env log := by
  have each := List.all_eq_true.mp clear
  constructor
  · exact fun _ node inserted => Bool.false_ne_true (each _ inserted)
  · intro nodesInfo listed nodeinfo member _ segment memberSegment
    exact List.all_eq_true.mp (List.all_eq_true.mp (each _ listed) nodeinfo member) segment memberSegment
  · intro redisNode node reply noted
    have texts := each _ noted
    cases reply with
    | string str => exact ⟨str, .inl rfl⟩
    | _ => cases texts

/-- A log in which a redirection is followed by a listing. -/
def redirected (log : List Event) : Bool :=
  (log.any fun event => event matches .request .command _ _ (.reply (.error _))) &&
    log.any fun event => event matches .listed _

/-- The first attempt is redirected, the masters are listed, and a later attempt returns. -/
theorem boundedCommand_ends_moved :
    redirected (boundedCommand clusterEnv false 1 (text "k") { client := clusterClient }).2.log = true ∧
      ∃ outcome, (boundedCommand clusterEnv false 1 (text "k") { client := clusterClient }).1 = .ok (some outcome) ∧
        Proper outcome := by
  have ready : Ready { client := clusterClient } := .inl (Eq.refl true)
  have clear : (boundedCommand clusterEnv false 1 (text "k") { client := clusterClient }).2.log.all
      clearEvent = true := by
    decide +kernel
  exact ⟨by decide +kernel,
    (boundedCommand_ends clusterEnv false (by decide) (text "k") ready).2 (.of_clearEvent clear)⟩

end CppRedis.Soundness.Retries
