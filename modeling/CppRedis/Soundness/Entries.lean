import CppRedis.Soundness.Masters

/-! # Facts about the entries of the tables

A fact about an entry and its place in the tables, that holds of every entry that comes in and is kept by every
update, is a frame: what holds of all entries before a function holds of all entries after it.
-/

namespace CppRedis.Soundness.Entries

open Machine Model Model.R3c Model.RedisCpp Machine.Effect Frames Masters

/-- A fact about all entries. -/
def Everywhere (fact : NodeRef → CRedisNode → Prop) (client : CRedisClient) : Prop :=
  ∀ redisNode entry, client.at? redisNode = some entry → fact redisNode entry

/-- A fact that entries have when they come in, and keep. -/
structure Lasting (fact : NodeRef → CRedisNode → Prop) : Prop where
  update : ∀ update redisNode entry, Placed update →
    (∀ entry, Healthy entry.context → Healthy (update entry).context) → fact redisNode entry →
      fact redisNode (update entry)
  master : ∀ nodeid node context, Healthy context → fact (.master node) { nodeid, node, context }
  replica : ∀ node (replica : CRedisNode), Healthy replica.context → fact (.replica node replica.node) replica

variable {fact : NodeRef → CRedisNode → Prop} {client : CRedisClient}

theorem Everywhere.modifyAt (everywhere : Everywhere fact client) {update : CRedisNode → CRedisNode}
    {redisNode : NodeRef} (keeps : ∀ entry, fact redisNode entry → fact redisNode (update entry)) :
    Everywhere fact (client.modifyAt update redisNode) := by
  intro other entry found
  rw [CRedisClient.modifyAt_at?] at found
  split at found
  · next same =>
    subst same
    obtain ⟨before, there, rfl⟩ := Option.map_eq_some_iff.mp found
    exact keeps before (everywhere other before there)
  · exact everywhere other entry found

/-- Entries of a table in which each master is one of before. -/
theorem Everywhere.of_lookup {other : CRedisClient} (everywhere : Everywhere fact client)
    (lookup : ∀ node master, other.masters.lookup node = some master → client.masters.lookup node = some master) :
    Everywhere fact other := by
  intro redisNode entry found
  apply everywhere redisNode entry
  cases redisNode with
  | master node =>
    obtain ⟨master, there, same⟩ := Option.map_eq_some_iff.mp found
    rw [CRedisClient.at?, lookup node master there]
    exact congrArg some same
  | replica node replicaNode =>
    obtain ⟨master, there, inside⟩ := Option.bind_eq_some_iff.mp found
    rw [CRedisClient.at?, lookup node master there]
    exact inside

theorem clear_lookup {nodesInfo : List NodeInfo} {nodes : List Node} {node : Node} {master : CRedisMasterNode}
    (found : (client.clearInvalidMasterNodes nodesInfo nodes).masters.lookup node = some master) :
    client.masters.lookup node = some master := by
  rw [CRedisClient.clearInvalidMasterNodes] at found
  induction nodes generalizing client with
  | nil => exact found
  | cons other nodes ih =>
    rcases clearInvalid_lookup nodesInfo client other node with same | ⟨gone, _⟩
    · exact same.symm.trans (ih found)
    · cases gone.symm.trans (ih found)

/-- A master that is there before stays. -/
theorem insertMaster_lookup (nodeinfo : NodeInfo) (context : Option RedisContext) (node : Node) :
    (client.insertMaster nodeinfo context).masters.lookup node =
      if node = nodeinfo.node ∧ client.masters.lookup nodeinfo.node = none then
        some { nodeid := nodeinfo.id, node := nodeinfo.node, context := context }
      else client.masters.lookup node := by
  dsimp only [CRedisClient.insertMaster]
  rcases found : client.masters.lookup nodeinfo.node with _ | master
  · rw [Option.isNone_none, if_pos rfl]
    by_cases same : node = nodeinfo.node
    · rw [if_pos ⟨same, rfl⟩, same]
      exact AList.lookup_insert _
    · rw [if_neg fun wrong => same wrong.1]
      exact AList.lookup_insert_ne same
  · rw [Option.isNone_some, if_neg Bool.false_ne_true, if_neg fun wrong => Option.some_ne_none _ wrong.2]

theorem Everywhere.insertMaster (lasting : Lasting fact) (everywhere : Everywhere fact client) (nodeinfo : NodeInfo)
    {context : Option RedisContext} (healthy : Healthy context) :
    Everywhere fact (client.insertMaster nodeinfo context) := by
  intro redisNode entry found
  cases redisNode with
  | master node =>
    rw [CRedisClient.at?, insertMaster_lookup] at found
    split at found
    · next new =>
      obtain ⟨rfl, _⟩ := new
      cases found
      exact lasting.master _ _ _ healthy
    · exact everywhere (.master node) entry found
  | replica node replicaNode =>
    rw [CRedisClient.at?, insertMaster_lookup] at found
    split at found
    · cases found
    · exact everywhere (.replica node replicaNode) entry found

/-- A new master, whose id is not noted. -/
theorem Everywhere.insert (lasting : Lasting fact) (everywhere : Everywhere fact client) {nodeid : NodeId} {node : Node}
    (absent : client.masters.lookup node = none) {context : Option RedisContext} (healthy : Healthy context) :
    Everywhere fact { client with masters := client.masters.insert node { nodeid, node, context } } := by
  apply (everywhere.insertMaster lasting { node, id := nodeid, flags := [], masterId := [] } healthy).of_lookup
  intro other master found
  dsimp only [CRedisClient.insertMaster]
  rw [absent, Option.isNone_none, if_pos rfl]
  exact found

theorem Everywhere.addReplicaNode (lasting : Lasting fact) (everywhere : Everywhere fact client) (node : Node)
    {replica : CRedisNode} (healthy : Healthy replica.context) :
    Everywhere fact (client.addReplicaNode node replica) := by
  intro redisNode entry found
  cases redisNode with
  | master other =>
    exact everywhere (.master other) entry
      ((CRedisClient.addReplicaNode_master node other replica client).symm.trans found)
  | replica other address =>
    rw [CRedisClient.addReplicaNode_replica] at found
    split at found
    · next same =>
      obtain ⟨rfl, rfl⟩ := same
      obtain ⟨_, _, rfl⟩ := Option.map_eq_some_iff.mp found
      exact lasting.replica _ _ healthy
    · exact everywhere (.replica other address) entry found

theorem Everywhere.entry (lasting : Lasting fact) (everywhere : Everywhere fact client)
    {change : CRedisClient → CRedisClient} (changes : EntryChange change) : Everywhere fact (change client) := by
  cases changes with
  | entry update redisNode placed healthy =>
    exact everywhere.modifyAt fun entry => lasting.update update redisNode entry placed healthy
  | index node =>
    intro redisNode entry found
    rw [CRedisClient.modifyMaster_at?] at found
    · exact everywhere redisNode entry found
    · exact fun _ => ⟨rfl, rfl⟩

theorem Everywhere.table (lasting : Lasting fact) (everywhere : Everywhere fact client)
    {change : CRedisClient → CRedisClient} (changes : TableChange change) : Everywhere fact (change client) := by
  cases changes with
  | strings nodesString => exact everywhere
  | slots segment node => exact everywhere
  | master nodeinfo context healthy => exact everywhere.insertMaster lasting nodeinfo healthy
  | replica node replica healthy => exact everywhere.addReplicaNode lasting node healthy
  | clear nodesInfo nodes => exact everywhere.of_lookup fun _ _ => clear_lookup
  | seeds nodes => exact everywhere

/-- The fact holds of all entries after, if it does before. -/
def Carries (fact : NodeRef → CRedisNode → Prop) (source target : World) : Prop :=
  Everywhere fact source.client → Everywhere fact target.client

theorem carries_frame (lasting : Lasting fact) : TableFrame (Carries fact) where
  refl := ⟨fun _ => id⟩
  trans := ⟨fun _ _ _ first second => second ∘ first⟩
  errinfo _ _ := id
  connect _ _ _ _ := id
  entry _ _ changes everywhere := everywhere.entry lasting changes
  side _ _ _ := id
  build _ _ _ := id
  table _ _ changes everywhere := everywhere.table lasting changes

end CppRedis.Soundness.Entries
