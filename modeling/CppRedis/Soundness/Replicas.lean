import CppRedis.Soundness.Masters

/-! # The replicas of a listing

`init_replica_nodes` adds every replica that can be connected to the master that its master id leads to, and changes
nothing else.
-/

namespace CppRedis.Soundness.Replicas

open Machine Model Model.R3c Model.RedisCpp Machine.Effect Masters

variable {env : Env}

theorem getRedisMasterNode_eq {source target : CRedisClient} (ids : target.mastersId = source.mastersId)
    (masters : ∀ node, (target.masters.lookup node).isSome = (source.masters.lookup node).isSome) (nodeid : NodeId) :
    target.getRedisMasterNode nodeid = source.getRedisMasterNode nodeid := by
  rw [CRedisClient.getRedisMasterNode, CRedisClient.getRedisMasterNode, ids]
  simp only [masters]

theorem getRedisMasterNode_eq_some {client : CRedisClient} {nodeid : NodeId} {node : Node} :
    client.getRedisMasterNode nodeid = some node ↔
      client.mastersId nodeid = some node ∧ (client.masters.lookup node).isSome :=
  Option.filter_eq_some_iff

/-- The tables after `init_replica_nodes`, for replicas at different addresses, and what it has noted. -/
structure Replicated (replicas : List NodeInfo) (events : List Event) (source target : World) : Prop where
  log : target.log = source.log ++ events
  connects : ∀ event ∈ events, ∃ nodeinfo ∈ replicas, ∃ connected, event = .connect nodeinfo.node true connected
  masters : ∀ node, (target.client.masters.lookup node).map (·.nodeid) =
    (source.client.masters.lookup node).map (·.nodeid)
  ids : target.client.mastersId = source.client.mastersId
  policy : target.client.readPolicy = source.client.readPolicy
  made : ∀ nodeinfo ∈ replicas, ∀ node, source.client.getRedisMasterNode nodeinfo.masterId = some node →
    .connect nodeinfo.node true true ∈ events →
    (target.client.at? (.replica node nodeinfo.node)).map (·.nodeid) = some nodeinfo.id
  kept : ∀ node address, (∀ nodeinfo ∈ replicas, nodeinfo.node = address →
      source.client.getRedisMasterNode nodeinfo.masterId = some node → .connect address true true ∉ events) →
    target.client.at? (.replica node address) = source.client.at? (.replica node address)

namespace Replicated

variable {nodeinfo : NodeInfo} {replicas : List NodeInfo} {before after : List Event} {source middle target : World}

/-- Nothing is added. -/
theorem of_client {events : List Event} (log : target.log = source.log ++ events)
    (connects : ∀ event ∈ events, ∃ nodeinfo ∈ replicas, event = .connect nodeinfo.node true false)
    (client : target.client = source.client) : Replicated replicas events source target where
  log := log
  connects event member := by
    obtain ⟨nodeinfo, listed, same⟩ := connects event member
    exact ⟨nodeinfo, listed, false, same⟩
  masters node := by rw [client]
  ids := by rw [client]
  policy := by rw [client]
  made nodeinfo _ node _ member := by
    obtain ⟨_, _, same⟩ := connects _ member
    exact absurd (Event.connect.inj same).2.2 (by decide)
  kept node address _ := by rw [client]

theorem isSome (replicated : Replicated replicas before source target) (node : Node) :
    (target.client.masters.lookup node).isSome = (source.client.masters.lookup node).isSome := by
  have same := congrArg Option.isSome (replicated.masters node)
  rwa [Option.isSome_map, Option.isSome_map] at same

theorem cons (first : Replicated [nodeinfo] before source middle) (rest : Replicated replicas after middle target)
    (apart : nodeinfo.node ∉ replicas.map (·.node)) :
    Replicated (nodeinfo :: replicas) (before ++ after) source target := by
  have lookup := getRedisMasterNode_eq first.ids first.isSome
  have inBefore {address : Node} (member : .connect address true true ∈ before) : address = nodeinfo.node := by
    obtain ⟨other, listed, connected, same⟩ := first.connects _ member
    cases List.mem_singleton.mp listed
    cases same
    rfl
  have inAfter {address : Node} (member : .connect address true true ∈ after) : address ∈ replicas.map (·.node) := by
    obtain ⟨other, listed, connected, same⟩ := rest.connects _ member
    cases same
    exact List.mem_map_of_mem listed
  exact {
    log := by rw [rest.log, first.log, List.append_assoc]
    connects := by
      intro event member
      rcases List.mem_append.mp member with member | member
      · obtain ⟨other, listed, connected, same⟩ := first.connects event member
        cases List.mem_singleton.mp listed
        exact ⟨nodeinfo, List.mem_cons_self, connected, same⟩
      · obtain ⟨other, listed, connected, same⟩ := rest.connects event member
        exact ⟨other, List.mem_cons_of_mem _ listed, connected, same⟩
    masters := fun node => (rest.masters node).trans (first.masters node)
    ids := rest.ids.trans first.ids
    policy := rest.policy.trans first.policy
    made := by
      intro other listed node leads connected
      rcases List.mem_cons.mp listed with rfl | listed
      · have here := (List.mem_append.mp connected).resolve_right fun later => apart (inAfter later)
        rw [rest.kept node other.node fun later memberLater same => ?_]
        · exact first.made other List.mem_cons_self node leads here
        · exact absurd (same ▸ List.mem_map_of_mem memberLater) apart
      · have later := (List.mem_append.mp connected).resolve_left fun here =>
          apart (inBefore here ▸ List.mem_map_of_mem listed)
        exact rest.made other listed node ((lookup _).trans leads) later
    kept := by
      intro node address absent
      rw [rest.kept node address fun other listed same leads later =>
        absent other (List.mem_cons_of_mem _ listed) same ((lookup _).symm.trans leads) (List.mem_append_right _ later)]
      apply first.kept
      intro other listed same leads here
      cases List.mem_singleton.mp listed
      exact absent nodeinfo List.mem_cons_self same leads (List.mem_append_left _ here) }

end Replicated

/-- A replica is connected if its master is there, and added if it is connected. -/
theorem initReplicaNode_run (env : Env) (nodeinfo : NodeInfo) (source : World) :
    ∃ events target, initReplicaNode env nodeinfo source = (.ok (), target) ∧
      Replicated [nodeinfo] events source target := by
  rw [initReplicaNode, bind_of_ok (get_apply _)]
  rcases leads : source.client.getRedisMasterNode nodeinfo.masterId with _ | node
  · exact ⟨[], source, rfl, .of_client (List.append_nil _).symm nofun rfl⟩
  · obtain ⟨context, errinfo, _, ran⟩ := connectRedisNode_run env nodeinfo.node true source
    dsimp only
    rw [bind_of_ok ran]
    refine ⟨[.connect nodeinfo.node true context.isSome], ?_⟩
    rcases context with _ | context
    · refine ⟨_, rfl, .of_client rfl ?_ rfl⟩
      exact fun event member => ⟨nodeinfo, List.mem_cons_self, List.mem_singleton.mp member⟩
    · obtain ⟨master, there⟩ := Option.isSome_iff_exists.mp (getRedisMasterNode_eq_some.mp leads).2
      refine ⟨_, rfl, ?_⟩
      exact {
        log := rfl
        connects := fun event member => ⟨nodeinfo, List.mem_cons_self, true, List.mem_singleton.mp member⟩
        masters := fun _ => CRedisClient.addReplicaNode_nodeid ..
        ids := CRedisClient.modifyMaster_mastersId ..
        policy := CRedisClient.modifyMaster_readPolicy ..
        made := by
          intro other listed master leadsToo _
          cases List.mem_singleton.mp listed
          cases leads.symm.trans leadsToo
          rw [CRedisClient.addReplicaNode_replica, if_pos ⟨rfl, rfl⟩, there]
          rfl
        kept := by
          intro other address absent
          rw [CRedisClient.addReplicaNode_replica, if_neg]
          rintro ⟨rfl, rfl⟩
          exact absent nodeinfo List.mem_cons_self rfl leads List.mem_cons_self }

theorem initReplicaNodes_run (env : Env) {replicas : List NodeInfo} (apart : (replicas.map (·.node)).Nodup)
    (source : World) :
    ∃ events target, initReplicaNodes env replicas source = (.ok (), target) ∧
      Replicated replicas events source target := by
  rw [initReplicaNodes]
  induction replicas generalizing source with
  | nil => exact ⟨[], source, rfl, .of_client (List.append_nil _).symm nofun rfl⟩
  | cons nodeinfo replicas ih =>
    obtain ⟨absent, apart⟩ := List.nodup_cons.mp apart
    obtain ⟨before, middle, ranFirst, first⟩ := initReplicaNode_run env nodeinfo source
    obtain ⟨after, target, ranRest, rest⟩ := ih apart middle
    exact ⟨before ++ after, target, (bind_of_ok ranFirst).trans ranRest, first.cons rest absent⟩

end CppRedis.Soundness.Replicas
