import CppRedis.Machine.Effect
import CppRedis.Model.R3c.Listing
import Mathlib.Data.List.AList

/-! # The nodes of a cluster client

The tables of `CRedisClient` in `r3c.cpp` and the effects on them. A node is named by its place in the tables.
What happens outside of the client, its connections, the replies, and the order in which a hash table is walked,
is decided from all that happened before. Logs, sleeps and the command monitor are left out.
-/

namespace CppRedis.Model.R3c

open Machine RedisCpp RedisClient

/-- A `redisContext::err` other than zero. -/
inductive RedisErr where
  | io
  | other
  | eof
  | protocol
  | oom
deriving DecidableEq, Repr

structure RedisContext where
  err : Option RedisErr := none
deriving DecidableEq, Repr

structure CRedisNode where
  nodeid : NodeId
  node : Node
  context : Option RedisContext
  connErrors : UInt32 := 0

namespace CRedisNode

def setRedisContext (redisNode : CRedisNode) (context : Option RedisContext) : CRedisNode :=
  { redisNode with
    context := context
    connErrors := if context.isNone then redisNode.connErrors + 1 else redisNode.connErrors }

def close (redisNode : CRedisNode) : CRedisNode := { redisNode with context := none }

def needRefreshMaster (redisNode : CRedisNode) : Bool :=
  (3 < redisNode.connErrors && redisNode.connErrors % 3 = 0) || 2018 < redisNode.connErrors

end CRedisNode

structure CRedisMasterNode extends CRedisNode where
  replicas : AList fun _ : Node => CRedisNode := ∅
  index : UInt32 := 0

inductive ReadPolicy where
  | onlyMaster
  | priorityMaster
  | priorityReplica
  | readReplica
deriving DecidableEq, Repr

/-- A `CRedisNode*`. -/
inductive NodeRef where
  | master (node : Node)
  | replica (node replicaNode : Node)
deriving DecidableEq

structure CRedisClient where
  /-- `_nodes`, and the addresses that it is read from. -/
  nodes : List Node
  rawNodesString : CppString
  nodesString : CppString
  readPolicy : ReadPolicy
  /-- `_redis_master_nodes` and `_redis_master_nodes_id`. -/
  masters : AList fun _ : Node => CRedisMasterNode := ∅
  mastersId : NodeId → Option Node := fun _ => none
  slot2node : ℕ → Node := fun _ => ([], 0)

/-- `CLUSTER_SLOTS`. -/
def clusterSlots : ℕ := 16384

namespace CRedisClient

def clusterMode (client : CRedisClient) : Bool := 1 < client.nodes.length

/-- What a pointer points to. -/
def at? (client : CRedisClient) : NodeRef → Option CRedisNode
  | .master node => (client.masters.lookup node).map (·.toCRedisNode)
  | .replica node replicaNode => (client.masters.lookup node).bind (·.replicas.lookup replicaNode)

/-- A change of a master. -/
def modifyMaster (node : Node) (change : CRedisMasterNode → CRedisMasterNode) (client : CRedisClient) : CRedisClient :=
  match client.masters.lookup node with
  | none => client
  | some master => { client with masters := client.masters.insert node (change master) }

/-- A change through a pointer. -/
def modifyAt (change : CRedisNode → CRedisNode) : NodeRef → CRedisClient → CRedisClient
  | .master node => modifyMaster node fun master => { master with toCRedisNode := change master.toCRedisNode }
  | .replica node replicaNode => modifyMaster node fun master =>
      match master.replicas.lookup replicaNode with
      | none => master
      | some replica => { master with replicas := master.replicas.insert replicaNode (change replica) }

section

variable (node other : Node) (change : CRedisMasterNode → CRedisMasterNode) (update : CRedisNode → CRedisNode)
  (redisNode : NodeRef) (client : CRedisClient)

theorem modifyMaster_lookup :
    (client.modifyMaster node change).masters.lookup other =
      if other = node then (client.masters.lookup other).map change else client.masters.lookup other := by
  rw [modifyMaster]
  by_cases same : other = node
  · subst same
    rw [if_pos rfl]
    rcases found : client.masters.lookup other with _ | master
    · exact found
    · exact AList.lookup_insert _
  · rw [if_neg same]
    rcases client.masters.lookup node with _ | master
    · rfl
    · exact AList.lookup_insert_ne same

/-- A change of a master leaves the other tables. -/
theorem modifyMaster_eq :
    ∃ masters, client.modifyMaster node change = { client with masters := masters } := by
  rw [modifyMaster]
  rcases client.masters.lookup node with _ | master
  · exact ⟨client.masters, rfl⟩
  · exact ⟨_, rfl⟩

/-- A change that leaves the entries themselves. -/
theorem modifyMaster_at? (same : ∀ master, (change master).toCRedisNode = master.toCRedisNode ∧
    (change master).replicas = master.replicas) :
    (client.modifyMaster node change).at? redisNode = client.at? redisNode := by
  have mapped : ∀ other, (client.modifyMaster node change).masters.lookup other =
      client.masters.lookup other ∨ (client.modifyMaster node change).masters.lookup other =
        (client.masters.lookup other).map change := by
    intro other
    rw [modifyMaster_lookup]
    split
    · exact .inr rfl
    · exact .inl rfl
  cases redisNode with
  | master other =>
    rcases mapped other with kept | changed
    · rw [at?, kept, at?]
    · rw [at?, changed, at?, Option.map_map]
      exact Option.map_congr fun master _ => (same master).1
  | replica other replicaNode =>
    rcases mapped other with kept | changed
    · rw [at?, kept, at?]
    · rw [at?, changed, at?, Option.bind_map]
      exact Option.bind_congr fun master _ => congrArg _ (same master).2

theorem masters_ne_nil {redisNode : NodeRef} {client : CRedisClient} (present : (client.at? redisNode).isSome) :
    client.masters.keys ≠ [] := by
  have filled : ∃ node, (client.masters.lookup node).isSome := by
    cases redisNode with
    | master node => exact ⟨node, (Option.isSome_map ..).symm.trans present⟩
    | replica node replicaNode => exact ⟨node, Option.isSome_of_isSome_bind present⟩
  obtain ⟨node, found⟩ := filled
  exact List.ne_nil_of_mem (AList.mem_keys.mp (AList.lookup_isSome.mp found))

@[simp] theorem modifyMaster_nodes : (client.modifyMaster node change).nodes = client.nodes := by
  obtain ⟨masters, changed⟩ := modifyMaster_eq node change client
  rw [changed]

@[simp] theorem modifyMaster_readPolicy : (client.modifyMaster node change).readPolicy = client.readPolicy := by
  obtain ⟨masters, changed⟩ := modifyMaster_eq node change client
  rw [changed]

@[simp] theorem modifyMaster_mastersId : (client.modifyMaster node change).mastersId = client.mastersId := by
  obtain ⟨masters, changed⟩ := modifyMaster_eq node change client
  rw [changed]

@[simp] theorem modifyMaster_slot2node : (client.modifyMaster node change).slot2node = client.slot2node := by
  obtain ⟨masters, changed⟩ := modifyMaster_eq node change client
  rw [changed]

@[simp] theorem modifyAt_nodes : (client.modifyAt update redisNode).nodes = client.nodes := by
  cases redisNode with
  | master node => exact modifyMaster_nodes ..
  | replica node replicaNode => exact modifyMaster_nodes ..

theorem modifyAt_at? (target : NodeRef) :
    (client.modifyAt update redisNode).at? target =
      if target = redisNode then (client.at? target).map update else client.at? target := by
  cases redisNode with
  | master node =>
    cases target with
    | master other =>
      rw [modifyAt, at?, at?, modifyMaster_lookup]
      by_cases same : other = node
      · rw [if_pos same, if_pos (congrArg NodeRef.master same), Option.map_map, Option.map_map]
        rfl
      · rw [if_neg same, if_neg fun wrong => same (NodeRef.master.inj wrong)]
    | replica other otherReplica =>
      have apart : NodeRef.replica other otherReplica ≠ .master node := nofun
      rw [modifyAt, at?, at?, modifyMaster_lookup, if_neg apart]
      by_cases same : other = node
      · rw [if_pos same, Option.bind_map]
        rfl
      · rw [if_neg same]
  | replica node replicaNode =>
    cases target with
    | master other =>
      have apart : NodeRef.master other ≠ .replica node replicaNode := nofun
      rw [modifyAt, at?, at?, modifyMaster_lookup, if_neg apart]
      by_cases same : other = node
      · rw [if_pos same, Option.map_map]
        apply Option.map_congr
        intro master found
        dsimp only [Function.comp_apply]
        cases master.replicas.lookup replicaNode <;> rfl
      · rw [if_neg same]
    | replica other otherReplica =>
      rw [modifyAt, at?, at?, modifyMaster_lookup]
      by_cases same : other = node
      · subst same
        rw [if_pos rfl, Option.bind_map]
        rcases client.masters.lookup other with _ | master
        · exact (ite_self none).symm
        · simp only [Option.bind_some, Function.comp_apply]
          by_cases sameReplica : otherReplica = replicaNode
          · subst sameReplica
            rw [if_pos rfl]
            rcases found : master.replicas.lookup otherReplica with _ | replica
            · exact found
            · exact AList.lookup_insert _
          · rw [if_neg fun wrong => sameReplica (NodeRef.replica.inj wrong).2]
            rcases master.replicas.lookup replicaNode with _ | replica
            · rfl
            · exact AList.lookup_insert_ne sameReplica
      · rw [if_neg same, if_neg fun wrong => same (NodeRef.replica.inj wrong).1]

end

def getRedisMasterNode (client : CRedisClient) (nodeid : NodeId) : Option Node :=
  (client.mastersId nodeid).filter fun node => (client.masters.lookup node).isSome

end CRedisClient

/-- What is sent over a connection that is made. -/
inductive Request where
  | asking
  | command
  | clusterNodes
deriving DecidableEq

/-- What comes of a request. -/
inductive Answer where
  | reply (reply : RedisReply)
  /-- A null reply, and the error of the context. -/
  | lost (err : RedisErr)

def Answer.reply? : Answer → Option RedisReply
  | .reply answer => some answer
  | .lost _ => none

/-- The context after a request. -/
def Answer.context : Answer → RedisContext
  | .reply _ => {}
  | .lost err => { err := some err }

inductive Event where
  | connect (node : Node) (readonly connected : Bool)
  /-- An attempt of a command has found its node. -/
  | attempt (redisNode : Option NodeRef)
  /-- A request goes out, over a connection of the tables or over a temporary one. -/
  | request (request : Request) (redisNode : Option NodeRef) (node : Node) (answer : Answer)
  | listed (nodesInfo : List NodeInfo)
  /-- A master is inserted, at an address that is new or not. -/
  | insert (node : Node) (absent : Bool)
  /-- `init_master_nodes` has connected so many masters. -/
  | counted (connected : ℕ)
  /-- The masters are refreshed, and this many are in the table. -/
  | refresh (masters : ℕ)

/-- The client, the `ErrorInfo` of the call, and the log. -/
structure World where
  client : CRedisClient
  errinfo : ErrorInfo := {}
  log : List Event := []

def World.note (event : Event) (world : World) : World := { world with log := world.log ++ [event] }

/-- What surrounds the program. -/
structure Env where
  /-- The build checks assertions. -/
  asserts : Bool
  /-- `this`. -/
  address : UInt64
  errno : List Event → ℤ
  random : List Event → UInt64
  /-- A hash table is walked in any order. -/
  order : List Event → List Node → List Node
  order_perm : ∀ log nodes, (order log nodes).Perm nodes
  /-- The error of a connection that is not made. -/
  connect : List Event → Node → Bool → Option ErrorInfo
  answer : List Event → Request → Node → Answer

abbrev Action := Effect World Fault

variable (env : Env)

def modifyClient (change : CRedisClient → CRedisClient) : Action Unit :=
  modify fun world => { world with client := change world.client }

def setErrinfo (errinfo : ErrorInfo) : Action Unit := modify fun world => { world with errinfo := errinfo }

/-- A step that is taken on a condition. -/
def provided (condition : Prop) [Decidable condition] (action : Action Unit) : Action Unit :=
  if condition then action else return ()

/-- What a pointer points to. -/
def entryAt (redisNode : NodeRef) : Action CRedisNode := do
  match (← get).client.at? redisNode with
  | none => throw .dangling
  | some entry => return entry

/-- `R3C_ASSERT`. -/
def check (condition : Bool) : Action Unit := if env.asserts && !condition then throw .assertion else return ()

/-- `connect_redis_node`. A context that is returned has no error. -/
def connectRedisNode (node : Node) (readonly : Bool) : Action (Option RedisContext) := do
  let failed := env.connect (← get).log node readonly
  setErrinfo (failed.getD {})
  modify (World.note (.connect node readonly failed.isNone))
  return if failed.isNone then some {} else none

/-- A request through hiredis. Nothing goes out over a context with an error. -/
def send (request : Request) (redisNode : Option NodeRef) (node : Node) (context : RedisContext) :
    Action (Option RedisReply × RedisContext) := do
  if context.err.isSome then return (none, context)
  else
    let answer := env.answer (← get).log request node
    modify (World.note (.request request redisNode node answer))
    return (answer.reply?, answer.context)

/-- `list_cluster_nodes`: the nodes if there are any, and the context. -/
def listClusterNodes (redisNode : Option NodeRef) (node : Node) (context : RedisContext) :
    Action (Option (List NodeInfo) × RedisContext) := do
  let (reply, context) ← send env .clusterNodes redisNode node context
  match reply with
  | none =>
      setErrinfo { errcode := errorCommand }
      return (none, context)
  | some reply =>
      match parseListing reply with
      | .error fault => throw fault
      | .ok (nodesInfo, errinfo) =>
          setErrinfo errinfo
          if nodesInfo = [] then return (none, context)
          else
            modify (World.note (.listed nodesInfo))
            return (some nodesInfo, context)

end CppRedis.Model.R3c
