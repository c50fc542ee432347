import CppRedis.Model.R3c.Nodes

/-! # Filling and refreshing the tables

`init_cluster`, `refresh_master_node_table` and what they call, from `r3c.cpp`.
-/

namespace CppRedis.Model.R3c

open Machine RedisCpp RedisClient

namespace CRedisClient

def updateNodesString (nodeinfo : NodeInfo) (client : CRedisClient) : CRedisClient :=
  { client with
    nodesString :=
      if client.nodesString = [] then node2string nodeinfo.node
      else client.nodesString ++ 0x2C :: node2string nodeinfo.node }

/-- The inner loop of `update_slots`. -/
def assignSlots (segment : ℤ × ℤ) (node : Node) (client : CRedisClient) : CRedisClient :=
  { client with
    slot2node := fun slot =>
      if segment.1 ≤ (slot : ℤ) ∧ (slot : ℤ) ≤ segment.2 then node else client.slot2node slot }

/-- The tables at the end of `add_master_node`. A master that is there before stays. -/
def insertMaster (nodeinfo : NodeInfo) (context : Option RedisContext) (client : CRedisClient) : CRedisClient :=
  { client with
    masters :=
      if (client.masters.lookup nodeinfo.node).isNone then
        client.masters.insert nodeinfo.node { nodeid := nodeinfo.id, node := nodeinfo.node, context := context }
      else client.masters
    mastersId := Function.update client.mastersId nodeinfo.id (some nodeinfo.node) }

def addReplicaNode (node : Node) (replica : CRedisNode) : CRedisClient → CRedisClient :=
  modifyMaster node fun master => { master with replicas := master.replicas.insert replica.node replica }

section

variable (node other address : Node) (replica : CRedisNode) (client : CRedisClient)

/-- A replica leaves the masters' own entries. -/
theorem addReplicaNode_master :
    ((client.addReplicaNode node replica).masters.lookup other).map (·.toCRedisNode) =
      (client.masters.lookup other).map (·.toCRedisNode) := by
  rw [addReplicaNode, modifyMaster_lookup]
  split
  · exact Option.map_map ..
  · rfl

theorem addReplicaNode_nodeid :
    ((client.addReplicaNode node replica).masters.lookup other).map (·.nodeid) =
      (client.masters.lookup other).map (·.nodeid) := by
  have same := congrArg (Option.map CRedisNode.nodeid) (addReplicaNode_master node other replica client)
  rwa [Option.map_map, Option.map_map] at same

/-- The entry of a replica after one has been added. -/
theorem addReplicaNode_replica :
    (client.addReplicaNode node replica).at? (.replica other address) =
      if other = node ∧ address = replica.node then (client.masters.lookup node).map fun _ => replica
      else client.at? (.replica other address) := by
  rw [at?, at?, addReplicaNode, modifyMaster_lookup]
  by_cases same : other = node
  · subst same
    rw [if_pos rfl]
    rcases client.masters.lookup other with _ | master
    · exact (ite_self _).symm
    by_cases here : address = replica.node
    · subst here
      rw [if_pos ⟨rfl, rfl⟩]
      exact AList.lookup_insert _
    · rw [if_neg fun wrong => here wrong.2]
      exact AList.lookup_insert_ne here
  · rw [if_neg same, if_neg fun wrong => same wrong.1]

end

/-- A step of the loop of `clear_invalid_master_nodes`. -/
def clearInvalid (nodesInfo : List NodeInfo) (client : CRedisClient) (node : Node) : CRedisClient :=
  if nodesInfo.any fun nodeinfo => nodeinfo.liveMaster && nodeinfo.node = node then client
  else
    match client.masters.lookup node with
    | none => client
    | some master =>
        { client with
          masters := client.masters.erase node
          mastersId := Function.update client.mastersId master.nodeid none }

/-- `clear_invalid_master_nodes`, for the masters that a listing names, over the entries in some order. -/
def clearInvalidMasterNodes (nodesInfo : List NodeInfo) (nodes : List Node) (client : CRedisClient) : CRedisClient :=
  nodes.foldl (clearInvalid nodesInfo) client

theorem clearInvalid_eq (nodesInfo : List NodeInfo) (client : CRedisClient) (node : Node) :
    ∃ masters ids, client.clearInvalid nodesInfo node = { client with masters := masters, mastersId := ids } := by
  rw [clearInvalid]
  split
  · exact ⟨client.masters, client.mastersId, rfl⟩
  · rcases client.masters.lookup node with _ | master
    · exact ⟨client.masters, client.mastersId, rfl⟩
    · exact ⟨_, _, rfl⟩

/-- Only the tables of masters are changed. -/
theorem clearInvalidMasterNodes_eq (nodesInfo : List NodeInfo) (nodes : List Node) (client : CRedisClient) :
    ∃ masters ids, client.clearInvalidMasterNodes nodesInfo nodes =
      { client with masters := masters, mastersId := ids } := by
  rw [clearInvalidMasterNodes]
  induction nodes generalizing client with
  | nil => exact ⟨client.masters, client.mastersId, rfl⟩
  | cons node nodes ih =>
    obtain ⟨masters, ids, first⟩ := client.clearInvalid_eq nodesInfo node
    obtain ⟨lastMasters, lastIds, rest⟩ := ih { client with masters := masters, mastersId := ids }
    exact ⟨lastMasters, lastIds, by rw [List.foldl_cons, first, rest]⟩

end CRedisClient

variable (env : Env)

/-- A segment that is not empty is in `_slot2node`. -/
def segmentInRange (segment : ℤ × ℤ) : Bool := segment.2 < segment.1 || (0 ≤ segment.1 && segment.2 < clusterSlots)

def updateSlots (nodeinfo : NodeInfo) : Action Unit :=
  nodeinfo.slots.forM fun segment =>
    if segmentInRange segment then modifyClient (·.assignSlots segment nodeinfo.node) else throw .slotRange

def addMasterNode (nodeinfo : NodeInfo) : Action Bool := do
  let context ← connectRedisNode env nodeinfo.node false
  let absent := ((← get).client.masters.lookup nodeinfo.node).isNone
  modify (World.note (.insert nodeinfo.node absent))
  check env absent
  modifyClient (·.insertMaster nodeinfo context)
  return context.isSome

/-- A step of the loop of `init_master_nodes`, which counts the masters that are connected. -/
def initMasterNode (several : Bool) (connected : ℕ) (nodeinfo : NodeInfo) : Action ℕ := do
  provided several (modifyClient (·.updateNodesString nodeinfo))
  if nodeinfo.liveMaster then
    updateSlots nodeinfo
    let added ← addMasterNode env nodeinfo
    return if added then connected + 1 else connected
  else return connected

def initMasterNodes (nodesInfo : List NodeInfo) : Action Bool := do
  modifyClient fun client =>
    { client with nodesString := if 1 < nodesInfo.length then [] else client.rawNodesString }
  let connected ← nodesInfo.foldlM (initMasterNode env (1 < nodesInfo.length)) 0
  modify (World.note (.counted connected))
  return 0 < connected

/-- A step of the loop of `init_replica_nodes`, with an `ErrorInfo` of its own. -/
def initReplicaNode (nodeinfo : NodeInfo) : Action Unit := do
  let world ← get
  match world.client.getRedisMasterNode nodeinfo.masterId with
  | none => return ()
  | some master =>
      let context ← connectRedisNode env nodeinfo.node true
      setErrinfo world.errinfo
      match context with
      | none => return ()
      | some context =>
          modifyClient
            (·.addReplicaNode master { nodeid := nodeinfo.id, node := nodeinfo.node, context := some context })

def initReplicaNodes (nodesInfo : List NodeInfo) : Action Unit := nodesInfo.forM (initReplicaNode env)

/-- The replicas of a listing, unless only masters are read. -/
def initReplicas (nodesInfo : List NodeInfo) : Action Unit := do
  let policy := (← get).client.readPolicy
  provided (policy ≠ .onlyMaster) (initReplicaNodes env (nodesInfo.filter (·.liveReplica)))

/-- The loop of `init_cluster`, for some rounds. The context of a seed is a temporary one. -/
def initClusterLoop : ℕ → UInt64 → Action Unit
  | 0, _ => return ()
  | rounds + 1, seed => do
      let nodes := (← get).client.nodes
      let node := nodes.getD ((seed + 1).toNat % nodes.length) ([], 0)
      match ← connectRedisNode env node false with
      | none => initClusterLoop rounds (seed + 1)
      | some context =>
          match ← listClusterNodes env none node context with
          | (none, _) => initClusterLoop rounds (seed + 1)
          | (some nodesInfo, _) =>
              if ← initMasterNodes env nodesInfo then initReplicas env nodesInfo
              else initClusterLoop rounds (seed + 1)

def initCluster : Action Bool := do
  let world ← get
  initClusterLoop env world.client.nodes.length (env.random world.log)
  return (← get).client.masters.keys ≠ []

/-- A step of the loop of `clear_and_update_master_nodes`. -/
def updateMasterNode (several : Bool) (nodeinfo : NodeInfo) : Action Unit := do
  provided several (modifyClient (·.updateNodesString nodeinfo))
  if nodeinfo.liveMaster then
    updateSlots nodeinfo
    let absent := ((← get).client.masters.lookup nodeinfo.node).isNone
    provided absent (discard (addMasterNode env nodeinfo))

def clearAndUpdateMasterNodes (nodesInfo : List NodeInfo) : Action Unit := do
  provided (1 < nodesInfo.length) (modifyClient fun client => { client with nodesString := [] })
  nodesInfo.forM (updateMasterNode env (1 < nodesInfo.length))
  let world ← get
  modifyClient (·.clearInvalidMasterNodes nodesInfo (env.order world.log world.client.masters.keys))

/-- The context of an entry of the tables, or a new one. -/
def openContext (node : Node) (context : Option RedisContext) : Action (Option RedisContext) :=
  match context with
  | none => connectRedisNode env node false
  | some context => return some context

/-- The loop of `refresh_master_node_table` over the masters, until one lists the nodes. -/
def refreshLoop (errorNode : Option Node) : List Node → Action Unit
  | [] => return ()
  | node :: nodes => do
      if errorNode = some node then refreshLoop errorNode nodes
      else
        let redisNode ← entryAt (.master node)
        match ← openContext env node redisNode.context with
        | none => refreshLoop errorNode nodes
        | some context =>
            modifyClient (CRedisClient.modifyAt (·.setRedisContext (some context)) (.master node))
            let (nodesInfo, context) ← listClusterNodes env (some (.master node)) node context
            modifyClient (CRedisClient.modifyAt ({ · with context := some context }) (.master node))
            match nodesInfo with
            | none => refreshLoop errorNode nodes
            | some nodesInfo =>
                clearAndUpdateMasterNodes env nodesInfo
                initReplicas env nodesInfo

def refreshMasterNodeTable (errorNode : Option Node) : Action Unit := do
  let world ← get
  let nodes := world.client.masters.keys
  modify (World.note (.refresh nodes.length))
  if nodes = [] then throw .divisionByZero
  else
    refreshLoop env errorNode ((env.order world.log nodes).rotate
      ((env.address - UInt64.ofNat nodes.length).toNat % nodes.length))

end CppRedis.Model.R3c
