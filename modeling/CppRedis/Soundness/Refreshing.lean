import CppRedis.Soundness.Masters
import CppRedis.Soundness.Rounds

/-! # How a refresh goes

`refresh_master_node_table` asks one master after another, which changes only their connections, until one lists
the nodes. This listing is the only one, and the tables are brought in line with it.
-/

namespace CppRedis.Soundness.Refreshing

open Machine Model Model.R3c Model.RedisCpp Machine.Effect Frames Masters

/-- An event of asking a master for the nodes. -/
def Probing : Event → Prop
  | .connect _ readonly _ => readonly = false
  | .request .clusterNodes .. | .listed _ => True
  | _ => False

/-- What the tables know of a master apart from its connection. -/
def core (entry : CRedisMasterNode) : NodeId × AList (fun _ : Node => CRedisNode) := (entry.nodeid, entry.replicas)

/-- Masters have been asked, which has led to a listing or not, and only connections are changed. -/
structure Prepared (found : Option (List NodeInfo)) (source target : World) : Prop where
  log : ∃ events, target.log = source.log ++ events ∧ (∀ event ∈ events, Probing event) ∧
    ∀ nodesInfo, .listed nodesInfo ∈ events ↔ found = some nodesInfo
  nodes : target.client.nodes = source.client.nodes
  policy : target.client.readPolicy = source.client.readPolicy
  masters : ∀ node, (target.client.masters.lookup node).map core = (source.client.masters.lookup node).map core
  ids : target.client.mastersId = source.client.mastersId
  slots : target.client.slot2node = source.client.slot2node

namespace Prepared

variable {found : Option (List NodeInfo)} {source middle target : World}

theorem trans (first : Prepared none source middle) (second : Prepared found middle target) :
    Prepared found source target where
  log := by
    obtain ⟨before, grown, probing, unlisted⟩ := first.log
    obtain ⟨after, grownAfter, probingAfter, listed⟩ := second.log
    refine ⟨before ++ after, by rw [grownAfter, grown, List.append_assoc], fun event member => ?_, fun nodesInfo => ?_⟩
    · exact (List.mem_append.mp member).elim (probing event) (probingAfter event)
    · rw [List.mem_append, listed]
      exact or_iff_right fun member => nomatch (unlisted nodesInfo).mp member
  nodes := second.nodes.trans first.nodes
  policy := second.policy.trans first.policy
  masters node := (second.masters node).trans (first.masters node)
  ids := second.ids.trans first.ids
  slots := second.slots.trans first.slots

/-- The same tables, and events of asking. -/
theorem of_client (client : target.client = source.client) {events : List Event}
    (log : target.log = source.log ++ events) (probing : ∀ event ∈ events, Probing event)
    (listed : ∀ nodesInfo, .listed nodesInfo ∈ events ↔ found = some nodesInfo) : Prepared found source target :=
  ⟨⟨events, log, probing, listed⟩, by rw [client], by rw [client], fun _ => by rw [client], by rw [client],
    by rw [client]⟩

/-- Only a connection of the entry of a master is changed. -/
theorem modifyAt (prepared : Prepared found source target) (update : CRedisNode → CRedisNode)
    (same : ∀ entry, (update entry).nodeid = entry.nodeid) (node : Node) :
    Prepared found source { target with client := target.client.modifyAt update (.master node) } where
  log := prepared.log
  nodes := (CRedisClient.modifyMaster_nodes ..).trans prepared.nodes
  policy := (CRedisClient.modifyMaster_readPolicy ..).trans prepared.policy
  masters other := by
    rw [← prepared.masters other]
    dsimp only [CRedisClient.modifyAt]
    rw [CRedisClient.modifyMaster_lookup]
    split
    · rw [Option.map_map]
      exact Option.map_congr fun entry _ => Prod.ext (same _) rfl
    · rfl
  ids := (CRedisClient.modifyMaster_mastersId ..).trans prepared.ids
  slots := (CRedisClient.modifyMaster_slot2node ..).trans prepared.slots

end Prepared

variable {env : Env}

/-- Events of a request, none of which is a listing. -/
theorem unlisted_singleton {event : Event} (other : ∀ nodesInfo, event ≠ .listed nodesInfo)
    (nodesInfo : List NodeInfo) :
    .listed nodesInfo ∈ [event] ↔ none = some nodesInfo :=
  iff_of_false (fun member => other nodesInfo (List.mem_singleton.mp member).symm) nofun

theorem send_prepared {redisNode : Option NodeRef} {node : Node} {context : RedisContext}
    {answered : Option RedisReply × RedisContext} {source target : World}
    (ran : send env .clusterNodes redisNode node context source = (.ok answered, target)) :
    Prepared none source target := by
  rw [send] at ran
  split at ran
  · cases ran
    exact .of_client rfl (List.append_nil _).symm nofun fun _ => iff_of_false List.not_mem_nil nofun
  · cases ran
    refine .of_client rfl rfl ?_ (unlisted_singleton nofun)
    intro event member
    rw [List.mem_singleton.mp member]
    trivial

/-- The answer to `CLUSTER NODES` is a listing or none, and only a listing is noted as such. -/
theorem listClusterNodes_prepared {redisNode : Option NodeRef} {node : Node} {context after : RedisContext}
    {found : Option (List NodeInfo)} {source target : World}
    (ran : listClusterNodes env redisNode node context source = (.ok (found, after), target)) :
    Prepared found source target := by
  obtain ⟨⟨reply, made⟩, middle, ranSend, ranRest⟩ := bind_eq_ok_iff.mp ran
  have sent := send_prepared ranSend
  rcases reply with _ | reply
  · cases ranRest
    exact ⟨sent.log, sent.nodes, sent.policy, sent.masters, sent.ids, sent.slots⟩
  · dsimp only at ranRest
    rcases parsed : parseListing reply with fault | ⟨nodesInfo, errinfo⟩ <;> rw [parsed] at ranRest
    · cases ranRest
    · dsimp only at ranRest
      rw [bind_of_ok (Rounds.set_errinfo _ _)] at ranRest
      split at ranRest
      · cases ranRest
        exact ⟨sent.log, sent.nodes, sent.policy, sent.masters, sent.ids, sent.slots⟩
      · cases ranRest
        apply sent.trans
        refine @Prepared.of_client _ _ _ rfl [.listed nodesInfo] rfl ?_ fun other => ?_
        · intro event member
          rw [List.mem_singleton.mp member]
          trivial
        · rw [List.mem_singleton, Event.listed.injEq, Option.some.injEq, eq_comm]

/-- A connection that is opened for a refresh. -/
theorem openContext_prepared {node : Node} {context opened : Option RedisContext} {source target : World}
    (ran : openContext env node context source = (.ok opened, target)) : Prepared none source target := by
  rcases context with _ | context
  · obtain ⟨_, _, _, connected⟩ := connectRedisNode_run env node false source
    rw [openContext, connected] at ran
    cases ran
    refine .of_client rfl rfl ?_ (unlisted_singleton nofun)
    intro event member
    rw [List.mem_singleton.mp member]
    rfl
  · cases ran
    exact .of_client rfl (List.append_nil _).symm nofun fun _ => iff_of_false List.not_mem_nil nofun

theorem entryAt_run {redisNode : NodeRef} {entry : CRedisNode} {source target : World}
    (ran : entryAt redisNode source = (.ok entry, target)) :
    target = source ∧ source.client.at? redisNode = some entry := by
  rw [entryAt, bind_of_ok (get_apply source)] at ran
  rcases found : source.client.at? redisNode with _ | other <;> rw [found] at ran
  · cases ran
  · cases ran
    exact ⟨rfl, rfl⟩

/-- Filling the tables notes no listing. -/
theorem unlisted_frame : BuildFrame (Grows fun event => ∀ nodesInfo, event ≠ .listed nodesInfo) := by
  apply Grows.buildFrame
  rintro event building nodesInfo rfl
  exact building

/-- What follows the asking of a master. -/
def Listing (env : Env) (nodesInfo : List NodeInfo) (source target : World) : Prop :=
  ∃ middle updated, Prepared (some nodesInfo) source middle ∧
    clearAndUpdateMasterNodes env nodesInfo middle = (.ok (), updated) ∧
    initReplicas env nodesInfo updated = (.ok (), target)

/-- Every listing that is noted in a run is the one that the tables are brought in line with. -/
def Traced (env : Env) (source target : World) : Prop :=
  ∃ events, target.log = source.log ++ events ∧
    ∀ nodesInfo, .listed nodesInfo ∈ events → Listing env nodesInfo source target

theorem Traced.after {source middle target : World} (prepared : Prepared none source middle)
    (traced : Traced env middle target) : Traced env source target := by
  obtain ⟨before, log, _, unlisted⟩ := prepared.log
  obtain ⟨after, logAfter, listing⟩ := traced
  refine ⟨before ++ after, by rw [logAfter, log, List.append_assoc], fun nodesInfo member => ?_⟩
  rcases List.mem_append.mp member with member | member
  · exact nomatch (unlisted nodesInfo).mp member
  · obtain ⟨last, updated, lastPrepared, ran⟩ := listing nodesInfo member
    exact ⟨last, updated, prepared.trans lastPrepared, ran⟩

/-- The listing that has been obtained is the only one. -/
theorem Traced.of_listing {nodesInfo : List NodeInfo} {source middle updated target : World}
    (prepared : Prepared (some nodesInfo) source middle)
    (ranUpdate : clearAndUpdateMasterNodes env nodesInfo middle = (.ok (), updated))
    (ranReplicas : initReplicas env nodesInfo updated = (.ok (), target)) : Traced env source target := by
  obtain ⟨before, log, _, listed⟩ := prepared.log
  have first := unlisted_frame.clearAndUpdateMasterNodes env nodesInfo middle
  have second := unlisted_frame.initReplicas env nodesInfo updated
  rw [ranUpdate] at first
  rw [ranReplicas] at second
  obtain ⟨after, logAfter, unlisted⟩ := (first.trans second).log
  refine ⟨before ++ after, by rw [logAfter, log, List.append_assoc], fun other member => ?_⟩
  rcases List.mem_append.mp member with member | member
  · cases (listed other).mp member
    exact ⟨middle, updated, prepared, ranUpdate, ranReplicas⟩
  · exact absurd rfl (unlisted _ member other)

theorem refreshLoop_traced {errorNode : Option Node} {nodes : List Node} {source target : World}
    (ran : refreshLoop env errorNode nodes source = (.ok (), target)) : Traced env source target := by
  induction nodes generalizing source with
  | nil =>
    cases ran
    exact ⟨[], (List.append_nil _).symm, nofun⟩
  | cons node nodes ih =>
    rw [refreshLoop] at ran
    split at ran
    · exact ih ran
    · obtain ⟨entry, first, ranEntry, asking⟩ := bind_eq_ok_iff.mp ran
      cases (entryAt_run ranEntry).1
      obtain ⟨context, second, ranOpen, ran⟩ := bind_eq_ok_iff.mp asking
      have opened := openContext_prepared ranOpen
      rcases context with _ | context
      · exact .after opened (ih ran)
      · obtain ⟨_, third, ranStore, ran⟩ := bind_eq_ok_iff.mp ran
        cases ranStore
        obtain ⟨⟨found, after⟩, fourth, ranList, ran⟩ := bind_eq_ok_iff.mp ran
        obtain ⟨_, fifth, ranStore, ran⟩ := bind_eq_ok_iff.mp ran
        cases ranStore
        have stored := opened.modifyAt (·.setRedisContext (some context)) (fun _ => rfl) node
        have asked := stored.trans (listClusterNodes_prepared ranList)
        have closed := asked.modifyAt ({ · with context := some after }) (fun _ => rfl) node
        rcases found with _ | nodesInfo
        · exact .after closed (ih ran)
        · obtain ⟨_, updated, ranUpdate, ranReplicas⟩ := bind_eq_ok_iff.mp ran
          exact .of_listing closed ranUpdate ranReplicas

end CppRedis.Soundness.Refreshing
