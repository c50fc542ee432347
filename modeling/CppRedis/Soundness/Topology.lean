import CppRedis.Soundness.Entries
import CppRedis.Soundness.Replicas
import CppRedis.Soundness.Rerouting

/-! # The tables and the cluster that is listed

The masters are found by their ids and by their addresses, and each has a table of its replicas. The functions that
update them bring them in line with a listing only if no master has changed its id or its address, and no replica has
left its master.
-/

namespace CppRedis.Soundness.Topology

open Machine Model Model.R3c Model.RedisCpp Machine.Effect Frames Rounds Masters Refreshing Rerouting Replicas

variable {env : Env}

/-- A listing with different ids and different addresses. -/
structure Distinct (nodesInfo : List NodeInfo) : Prop where
  ids : (nodesInfo.map (·.id)).Nodup
  nodes : (nodesInfo.map (·.node)).Nodup

/-- The listing that an event notes. -/
def listing? : Event → Option (List NodeInfo)
  | .listed nodesInfo => some nodesInfo
  | _ => none

/-- The last listing that is noted. -/
def lastListing (log : List Event) : Option (List NodeInfo) := (log.filterMap listing?).getLast?

/-- A call of `init_cluster` or `refresh_master_node_table`, with its last listing. -/
structure Call where
  source : World
  target : World
  events : List Event
  nodesInfo : List NodeInfo

namespace Call

variable (call : Call)

/-- The call has noted its events, and the listing is the last one of them. -/
structure Lists : Prop where
  log : call.target.log = call.source.log ++ call.events
  last : lastListing call.events = some call.nodesInfo
  distinct : ∀ nodesInfo, .listed nodesInfo ∈ call.events → Distinct nodesInfo

/-- A live replica of a master in the listing, that could be connected. -/
def Replica (master : NodeInfo) (address : Node) (nodeid : NodeId) : Prop :=
  ∃ nodeinfo ∈ call.nodesInfo, nodeinfo.liveReplica ∧ nodeinfo.masterId = master.id ∧ nodeinfo.node = address ∧
    nodeinfo.id = nodeid ∧ .connect address true true ∈ call.events

/-- Every live master is found by its id, at its address, with its live replicas. -/
def Reflects : Prop :=
  ∀ master ∈ call.nodesInfo, master.liveMaster →
    call.target.client.getRedisMasterNode master.id = some master.node ∧
      ∃ entry, call.target.client.masters.lookup master.node = some entry ∧
        ∀ address nodeid, (entry.replicas.lookup address).map (·.nodeid) = some nodeid ↔
          call.Replica master address nodeid

/-- Masters keep their ids and their addresses, and replicas stay with their masters. -/
structure Steady : Prop where
  agree : ∀ one other, .listed one ∈ call.events → .listed other ∈ call.events →
    ∀ master ∈ one, ∀ again ∈ other, master.liveMaster → again.liveMaster → master.node = again.node →
      master.id = again.id
  same : ∀ master ∈ call.nodesInfo, master.liveMaster →
    ∀ node entry, call.source.client.masters.lookup node = some entry → (entry.nodeid = master.id ↔ node = master.node)
  stay : ∀ master ∈ call.nodesInfo, master.liveMaster →
    ∀ address replica, call.source.client.at? (.replica master.node address) = some replica →
      ∃ nodeid, call.Replica master address nodeid

end Call

/-- A client that has not been filled. -/
structure Blank (world : World) : Prop where
  log : world.log = []
  masters : world.client.masters = ∅
  ids : world.client.mastersId = fun _ => none
  policy : world.client.readPolicy ≠ .onlyMaster

/-- Calls of `init_cluster` and then `refresh_master_node_table` that succeed, the last one first. -/
inductive Run (env : Env) : List Call → Prop where
  | init (call : Call) :
      Blank call.source → initCluster env call.source = (.ok true, call.target) → call.Lists → Run env [call]
  | refresh (call last : Call) (calls : List Call) (errorNode : Option Node) :
      Run env (last :: calls) → call.source = last.target →
      refreshMasterNodeTable env errorNode call.source = (.ok (), call.target) → call.Lists →
      Run env (call :: last :: calls)

/-- The table of ids leads to entries with these ids. -/
def Leading (client : CRedisClient) : Prop :=
  ∀ nodeid node, client.mastersId nodeid = some node →
    ∃ entry, client.masters.lookup node = some entry ∧ entry.nodeid = nodeid

/-- It also knows the id of every entry. -/
structure Indexed (client : CRedisClient) : Prop where
  leads : Leading client
  known : ∀ node entry, client.masters.lookup node = some entry → (client.mastersId entry.nodeid).isSome

/-- The masters of a list are found by their ids. -/
def Mapped (nodesInfo : List NodeInfo) (client : CRedisClient) : Prop :=
  ∀ master ∈ nodesInfo, master.liveMaster → client.mastersId master.id = some master.node

/-- No connection to a replica is noted. -/
def Unread (log : List Event) : Prop := ∀ node connected, .connect node true connected ∉ log

/-- Tables with the same masters, under the same ids. -/
theorem Indexed.of_masters {source target : CRedisClient} (indexed : Indexed source)
    (masters : ∀ node, (target.masters.lookup node).map (·.nodeid) = (source.masters.lookup node).map (·.nodeid))
    (ids : target.mastersId = source.mastersId) : Indexed target where
  leads nodeid node leads := by
    obtain ⟨entry, found, same⟩ := indexed.leads nodeid node (ids ▸ leads)
    have mapped := masters node
    rw [found, Option.map_some, same] at mapped
    exact Option.map_eq_some_iff.mp mapped
  known node entry found := by
    have mapped := masters node
    rw [found, Option.map_some, eq_comm] at mapped
    obtain ⟨other, foundBefore, same⟩ := Option.map_eq_some_iff.mp mapped
    rw [ids, ← same]
    exact indexed.known node other foundBefore

/-- What `init_replica_nodes` makes of tables in which the masters are found. -/
theorem reflects_of_replicas {call : Call} {between : World} {before : List Event} (distinct : Distinct call.nodesInfo)
    (indexed : Indexed between.client) (mapped : Mapped call.nodesInfo between.client)
    (policy : between.client.readPolicy ≠ .onlyMaster) (log : between.log = call.source.log ++ before)
    (grown : call.target.log = call.source.log ++ call.events) (unread : Unread before)
    (stay : ∀ master ∈ call.nodesInfo, master.liveMaster →
      ∀ address replica, between.client.at? (.replica master.node address) = some replica →
        ∃ nodeid, call.Replica master address nodeid)
    (ran : initReplicas env call.nodesInfo between = (.ok (), call.target)) :
    call.Reflects ∧ Indexed call.target.client ∧ call.target.client.readPolicy ≠ .onlyMaster := by
  have apart : ((call.nodesInfo.filter (·.liveReplica)).map (·.node)).Nodup :=
    distinct.nodes.sublist (List.filter_sublist.map _)
  obtain ⟨after, target, ranReplicas, replicated⟩ := initReplicaNodes_run env apart between
  have same : target = call.target := by
    rw [initReplicas, bind_of_ok (get_apply _), provided, if_pos policy, ranReplicas] at ran
    exact (Prod.mk.inj ran).2
  subst same
  have events : call.events = before ++ after := by
    rw [replicated.log, log, List.append_assoc] at grown
    exact (List.append_cancel_left grown).symm
  have later {address : Node} (connected : .connect address true true ∈ call.events) :
      .connect address true true ∈ after :=
    (List.mem_append.mp (events ▸ connected)).resolve_left (unread address true)
  have kept := getRedisMasterNode_eq replicated.ids replicated.isSome
  have indexedAfter := indexed.of_masters replicated.masters replicated.ids
  refine ⟨fun master member live => ?_, indexedAfter, replicated.policy ▸ policy⟩
  have leads := mapped master member live
  obtain ⟨entry, found, identity⟩ := indexed.leads master.id master.node leads
  have here : between.client.getRedisMasterNode master.id = some master.node :=
    getRedisMasterNode_eq_some.mpr ⟨leads, Option.isSome_of_eq_some found⟩
  obtain ⟨entryAfter, foundAfter, _⟩ := indexedAfter.leads master.id master.node (replicated.ids ▸ leads)
  refine ⟨(kept _).trans here, entryAfter, foundAfter, fun address nodeid => ?_⟩
  have inside : entryAfter.replicas.lookup address = call.target.client.at? (.replica master.node address) := by
    rw [CRedisClient.at?, foundAfter]
    rfl
  -- a replica that is connected is the only one at its address, and its master is this one
  have added {nodeinfo : NodeInfo} (listed : nodeinfo ∈ call.nodesInfo) (liveReplica : nodeinfo.liveReplica)
      (own : nodeinfo.masterId = master.id) (connected : .connect nodeinfo.node true true ∈ call.events) :
      (call.target.client.at? (.replica master.node nodeinfo.node)).map (·.nodeid) = some nodeinfo.id :=
    replicated.made nodeinfo (List.mem_filter.mpr ⟨listed, liveReplica⟩) master.node (own ▸ here) (later connected)
  rw [inside]
  constructor
  · intro stored
    by_cases absent : ∀ nodeinfo ∈ call.nodesInfo.filter (·.liveReplica), nodeinfo.node = address →
        between.client.getRedisMasterNode nodeinfo.masterId = some master.node → .connect address true true ∉ after
    · rw [replicated.kept master.node address absent] at stored
      obtain ⟨replica, foundBefore, _⟩ := Option.map_eq_some_iff.mp stored
      obtain ⟨_, nodeinfo, listed, liveReplica, own, rfl, _, connected⟩ :=
        stay master member live address replica foundBefore
      exact absurd (later connected)
        (absent nodeinfo (List.mem_filter.mpr ⟨listed, liveReplica⟩) rfl (own ▸ here))
    · push Not at absent
      obtain ⟨nodeinfo, filtered, rfl, leadsToo, connected⟩ := absent
      obtain ⟨listed, liveReplica⟩ := List.mem_filter.mp filtered
      have own : nodeinfo.masterId = master.id := by
        obtain ⟨other, foundToo, same⟩ := indexed.leads _ _ (getRedisMasterNode_eq_some.mp leadsToo).1
        cases found.symm.trans foundToo
        exact same.symm.trans identity
      have noted : .connect nodeinfo.node true true ∈ call.events := events ▸ List.mem_append_right _ connected
      have same := (added listed liveReplica own noted).symm.trans stored
      exact ⟨nodeinfo, listed, liveReplica, own, rfl, Option.some.inj same, noted⟩
  · rintro ⟨nodeinfo, listed, liveReplica, own, rfl, rfl, connected⟩
    exact added listed liveReplica own connected

section

variable {nodesInfo : List NodeInfo} {source target client : CRedisClient}

/-- An entry has the id of a live master if and only if it is at its address. -/
def Matching (nodesInfo : List NodeInfo) (client : CRedisClient) : Prop :=
  ∀ master ∈ nodesInfo, master.liveMaster →
    ∀ node entry, client.masters.lookup node = some entry → (entry.nodeid = master.id ↔ node = master.node)

theorem Matching.of_masters (same : Matching nodesInfo source)
    (masters : ∀ node, (target.masters.lookup node).map (·.nodeid) = (source.masters.lookup node).map (·.nodeid)) :
    Matching nodesInfo target := by
  intro master member live node entry found
  have mapped := masters node
  rw [found, Option.map_some, eq_comm] at mapped
  obtain ⟨other, foundBefore, id⟩ := Option.map_eq_some_iff.mp mapped
  rw [← id]
  exact same master member live node other foundBefore

/-- Two nodes of a listing with one address are the same, and so are two with one id. -/
theorem Distinct.eq_iff (distinct : Distinct nodesInfo) {one other : NodeInfo} (memberOne : one ∈ nodesInfo)
    (memberOther : other ∈ nodesInfo) : one.id = other.id ↔ one.node = other.node := by
  constructor
  · intro same
    rw [List.inj_on_of_nodup_map distinct.ids memberOne memberOther same]
  · intro same
    rw [List.inj_on_of_nodup_map distinct.nodes memberOne memberOther same]

theorem Matching.updated (distinct : Distinct nodesInfo) (same : Matching nodesInfo source)
    (update : Updated nodesInfo source target) : Matching nodesInfo target := by
  intro master member live node entry found
  rcases foundBefore : source.masters.lookup node with _ | before
  · obtain ⟨other, memberOther, _, rfl, _, _, rfl⟩ := update.fresh node entry foundBefore found
    exact distinct.eq_iff memberOther member
  · rw [update.kept node (Option.isSome_of_eq_some foundBefore)] at found
    exact same master member live node entry found

theorem leading_updated (distinct : Distinct nodesInfo) (leads : Leading source)
    (update : Updated nodesInfo source target) : Leading target := by
  intro nodeid node leadsAfter
  by_cases new : ∃ master ∈ nodesInfo, master.liveMaster ∧ source.masters.lookup master.node = none ∧ master.id = nodeid
  · obtain ⟨master, member, live, absent, rfl⟩ := new
    cases (update.newIds distinct.nodes distinct.ids master member live absent).symm.trans leadsAfter
    obtain ⟨entry, found⟩ := Option.isSome_iff_exists.mp (update.named master.node ⟨master, member, live, rfl⟩)
    obtain ⟨other, memberOther, _, same, _, _, rfl⟩ := update.fresh master.node entry absent found
    exact ⟨_, found, (distinct.eq_iff memberOther member).mpr same⟩
  · rw [update.oldIds nodeid
      fun master member live absent same => new ⟨master, member, live, absent, same⟩] at leadsAfter
    obtain ⟨entry, found, same⟩ := leads nodeid node leadsAfter
    exact ⟨entry, (update.kept node (Option.isSome_of_eq_some found)).trans found, same⟩

theorem mapped_updated (distinct : Distinct nodesInfo) (indexed : Indexed source) (same : Matching nodesInfo source)
    (update : Updated nodesInfo source target) : Mapped nodesInfo target := by
  intro master member live
  rcases found : source.masters.lookup master.node with _ | entry
  · exact update.newIds distinct.nodes distinct.ids master member live found
  · rw [update.oldIds master.id]
    · obtain ⟨node, leads⟩ := Option.isSome_iff_exists.mp (indexed.known master.node entry found)
      rw [(same master member live master.node entry found).mpr rfl] at leads
      obtain ⟨other, foundOther, identity⟩ := indexed.leads master.id node leads
      rw [leads, (same master member live node other foundOther).mp identity]
    · intro other memberOther _ absent sameId
      rw [(distinct.eq_iff memberOther member).mp sameId, found] at absent
      cases absent

theorem leading_clear {nodes : List Node} (leads : Leading client) :
    Leading (client.clearInvalidMasterNodes nodesInfo nodes) := by
  rw [CRedisClient.clearInvalidMasterNodes]
  induction nodes generalizing client with
  | nil => exact leads
  | cons node nodes ih =>
    apply ih
    by_cases named : MasterAt nodesInfo node
    · rwa [clearInvalid_of_named named]
    · rcases found : client.masters.lookup node with _ | erased
      · rwa [clearInvalid_of_absent found]
      · rw [clearInvalid_of_unnamed named found]
        intro nodeid other leadsTo
        dsimp only at leadsTo ⊢
        rw [Function.update_apply] at leadsTo
        split at leadsTo
        · cases leadsTo
        · next kept =>
          obtain ⟨entry, foundEntry, same⟩ := leads nodeid other leadsTo
          refine ⟨entry, (AList.lookup_erase_ne ?_).trans foundEntry, same⟩
          rintro rfl
          cases found.symm.trans foundEntry
          exact kept same.symm

/-- An id is kept if no entry that has it is erased. -/
theorem clear_ids {nodes : List Node} {nodeid : NodeId}
    (named : ∀ node entry, client.masters.lookup node = some entry → entry.nodeid = nodeid → MasterAt nodesInfo node) :
    (client.clearInvalidMasterNodes nodesInfo nodes).mastersId nodeid = client.mastersId nodeid := by
  rw [CRedisClient.clearInvalidMasterNodes]
  induction nodes generalizing client with
  | nil => rfl
  | cons node nodes ih =>
    rw [List.foldl_cons, ih]
    · by_cases here : MasterAt nodesInfo node
      · rw [clearInvalid_of_named here]
      · rcases found : client.masters.lookup node with _ | erased
        · rw [clearInvalid_of_absent found]
        · rw [clearInvalid_of_unnamed here found]
          exact Function.update_of_ne (fun same => here (named node erased found same.symm)) _ _
    · intro other entry foundEntry
      apply named other entry
      rcases clearInvalid_lookup nodesInfo client node other with same | ⟨gone, _⟩
      · exact same.symm.trans foundEntry
      · cases gone.symm.trans foundEntry

/-- The tables after entries that the listing does not name have been erased. -/
theorem indexed_clear {nodes : List Node} (perm : nodes.Perm client.masters.keys) (same : Matching nodesInfo client)
    (leads : Leading client) (mapped : Mapped nodesInfo client) :
    Indexed (client.clearInvalidMasterNodes nodesInfo nodes) ∧
      Mapped nodesInfo (client.clearInvalidMasterNodes nodesInfo nodes) := by
  have mappedAfter : Mapped nodesInfo (client.clearInvalidMasterNodes nodesInfo nodes) := by
    intro master member live
    rw [clear_ids fun node entry found id => ?_]
    · exact mapped master member live
    · exact ⟨master, member, live, ((same master member live node entry found).mp id).symm⟩
  refine ⟨⟨leading_clear leads, fun node entry found => ?_⟩, mappedAfter⟩
  have before := Entries.clear_lookup found
  by_cases named : MasterAt nodesInfo node
  · obtain ⟨master, member, live, rfl⟩ := named
    rw [(same master member live master.node entry before).mpr rfl, mappedAfter master member live]
    rfl
  · have visited : node ∈ nodes :=
      perm.mem_iff.mpr (AList.mem_keys.mp (AList.lookup_isSome.mp (Option.isSome_of_eq_some before)))
    cases (clear_erases visited named).symm.trans found

end

instance {kind : Event → Prop} : Std.Refl (Grows kind) := ⟨fun _ => .of_eq rfl List.prefix_rfl rfl⟩

instance {kind : Event → Prop} : IsTrans World (Grows kind) := ⟨fun _ _ _ => Grows.trans⟩

/-- An event of taking over masters. -/
def Mastering (event : Event) : Prop := ∀ node connected, event ≠ .connect node true connected

theorem addMasterNode_mastering (nodeinfo : NodeInfo) : Keeps (Grows Mastering) (addMasterNode env nodeinfo) := by
  apply Keeps.bind
  · intro source
    obtain ⟨context, errinfo, _, ran⟩ := connectRedisNode_run env nodeinfo.node false source
    rw [ran]
    refine ⟨⟨[_], rfl, fun event member => ?_⟩, List.prefix_rfl, rfl⟩
    rw [List.mem_singleton.mp member]
    exact fun _ _ => nofun
  · intro context
    refine .get_then fun _ => .bind (fun world => .note world fun _ _ => nofun) fun _ => .bind ?_ fun _ => ?_
    · exact .ite (.throw _) (.pure _)
    · exact .bind (fun world => ⟨⟨[], (List.append_nil _).symm, nofun⟩, List.prefix_rfl, rfl⟩) fun _ => .pure _

theorem updateSlots_mastering (nodeinfo : NodeInfo) : Keeps (Grows Mastering) (updateSlots nodeinfo) :=
  .forM fun segment _ => .ite (fun _ => .table (.slots segment nodeinfo.node)) (.throw _)

theorem strings_mastering (condition : Prop) [Decidable condition] (nodesString : CRedisClient → CppString) :
    Keeps (Grows Mastering)
      (provided condition (modifyClient fun client => { client with nodesString := nodesString client })) :=
  .ite (fun _ => .table (.strings nodesString)) (.pure _)

theorem clearAndUpdateMasterNodes_mastering (nodesInfo : List NodeInfo) :
    Keeps (Grows Mastering) (clearAndUpdateMasterNodes env nodesInfo) := by
  refine .bind (strings_mastering _ fun _ => []) fun _ => .bind (.forM fun nodeinfo _ => ?_) fun _ =>
    .get_then fun _ => ?_
  · refine .bind (strings_mastering _ fun client => (client.updateNodesString nodeinfo).nodesString) fun _ => ?_
    refine .ite (.bind (updateSlots_mastering nodeinfo) fun _ => .get_then fun _ => ?_) (.pure _)
    exact .ite (.bind (addMasterNode_mastering nodeinfo) fun _ => .pure _) (.pure _)
  · exact fun _ => .table (.clear ..)

theorem mem_listings {nodesInfo : List NodeInfo} {log : List Event} :
    nodesInfo ∈ log.filterMap listing? ↔ .listed nodesInfo ∈ log := by
  rw [List.mem_filterMap]
  constructor
  · rintro ⟨event, member, noted⟩
    cases event <;> cases noted
    exact member
  · exact fun member => ⟨_, member, rfl⟩

theorem listed_of_last {nodesInfo : List NodeInfo} {log : List Event} (last : lastListing log = some nodesInfo) :
    .listed nodesInfo ∈ log := mem_listings.mp (List.mem_of_getLast? last)

theorem lastListing_append {log events : List Event} (unlisted : ∀ nodesInfo, .listed nodesInfo ∉ events) :
    lastListing (log ++ events) = lastListing log := by
  have none : events.filterMap listing? = [] :=
    List.eq_nil_iff_forall_not_mem.mpr fun nodesInfo member => unlisted nodesInfo (mem_listings.mp member)
  rw [lastListing, List.filterMap_append, none, List.append_nil, lastListing]

theorem lastListing_append_only {log events : List Event} {nodesInfo : List NodeInfo}
    (only : ∀ other, .listed other ∈ events ↔ some nodesInfo = some other) :
    lastListing (log ++ events) = some nodesInfo := by
  have member : nodesInfo ∈ events.filterMap listing? := mem_listings.mpr ((only nodesInfo).mpr rfl)
  rw [lastListing, List.filterMap_append, List.getLast?_append_of_ne_nil _ (List.ne_nil_of_mem member)]
  obtain ⟨last, found⟩ := Option.ne_none_iff_exists'.mp (mt List.getLast?_eq_none_iff.mp (List.ne_nil_of_mem member))
  rw [found, (only last).mp (mem_listings.mp (List.mem_of_getLast? found))]

/-- The masters under their ids after masters have been asked for the nodes. -/
theorem prepared_masters {found : Option (List NodeInfo)} {source target : World}
    (prepared : Prepared found source target) (node : Node) :
    (target.client.masters.lookup node).map (·.nodeid) = (source.client.masters.lookup node).map (·.nodeid) := by
  have same := congrArg (Option.map Prod.fst) (prepared.masters node)
  rwa [Option.map_map, Option.map_map] at same

/-- The replicas of a master that the listing names are those of before, if there are any. -/
theorem replica_of_update {nodesInfo : List NodeInfo} {source middle : World} {updated : CRedisClient}
    {nodes : List Node} (prepared : Prepared (some nodesInfo) source middle)
    (update : Updated nodesInfo middle.client updated) {node address : Node} (named : MasterAt nodesInfo node)
    {replica : CRedisNode}
    (found : (updated.clearInvalidMasterNodes nodesInfo nodes).at? (.replica node address) = some replica) :
    source.client.at? (.replica node address) = some replica := by
  obtain ⟨master, there, inside⟩ := Option.bind_eq_some_iff.mp found
  rw [clear_keeps named] at there
  rcases before : middle.client.masters.lookup node with _ | between
  · obtain ⟨_, _, _, _, _, _, rfl⟩ := update.fresh node master before there
    cases inside
  · rw [update.kept node (Option.isSome_of_eq_some before), before] at there
    cases there
    have same := prepared.masters node
    rw [before, Option.map_some, eq_comm] at same
    obtain ⟨other, foundOther, cores⟩ := Option.map_eq_some_iff.mp same
    rw [CRedisClient.at?, foundOther]
    exact (congrArg (AList.lookup address) (congrArg Prod.snd cores)).trans inside

theorem Unread.append {before after : List Event} (first : Unread before) (second : Unread after) :
    Unread (before ++ after) :=
  fun node connected member => (List.mem_append.mp member).elim (first node connected) (second node connected)

/-- A refresh that lists the nodes brings steady tables in line with the listing. -/
theorem refresh_reflects {call : Call} {errorNode : Option Node} (lists : call.Lists) (steady : call.Steady)
    (indexed : Indexed call.source.client) (policy : call.source.client.readPolicy ≠ .onlyMaster)
    (ran : refreshMasterNodeTable env errorNode call.source = (.ok (), call.target)) :
    call.Reflects ∧ Indexed call.target.client ∧ call.target.client.readPolicy ≠ .onlyMaster := by
  have listed := listed_of_last lists.last
  have distinct := lists.distinct _ listed
  obtain ⟨events, log, listing⟩ := refreshMasterNodeTable_traced ran
  have noted : call.events = .refresh call.source.client.masters.keys.length :: events := by
    rw [lists.log, World.note, List.append_assoc] at log
    exact List.append_cancel_left log
  rw [noted] at listed
  have traced : .listed call.nodesInfo ∈ events := (List.mem_cons.mp listed).resolve_left (by rintro ⟨⟩)
  obtain ⟨middle, between, prepared, ranUpdate, ranReplicas⟩ := listing _ traced
  obtain ⟨updated, nodes, update, perm, cleared⟩ := clearAndUpdateMasterNodes_ran env ranUpdate
  have masters := prepared_masters prepared
  have indexedMiddle := Indexed.of_masters indexed masters prepared.ids
  have same := Matching.of_masters steady.same masters
  obtain ⟨indexedAfter, mapped⟩ := indexed_clear perm (same.updated distinct update)
    (leading_updated distinct indexedMiddle.leads update) (mapped_updated distinct indexedMiddle same update)
  rw [← cleared] at indexedAfter mapped
  obtain ⟨asked, askedLog, probing, _⟩ := prepared.log
  have grows := (clearAndUpdateMasterNodes_mastering call.nodesInfo).run ranUpdate
  obtain ⟨written, writtenLog, mastering⟩ := grows.log
  have unread : Unread (.refresh call.source.client.masters.keys.length :: asked ++ written) := by
    apply Unread.append
    · intro node connected member
      exact Bool.false_ne_true (probing _ ((List.mem_cons.mp member).resolve_left (by rintro ⟨⟩))).symm
    · exact fun node connected member => mastering _ member node connected rfl
  refine reflects_of_replicas distinct indexedAfter mapped ?_ ?_ lists.log unread ?_ ranReplicas
  · rw [grows.policy, prepared.policy]
    exact policy
  · rw [writtenLog, askedLog, World.note]
    simp only [List.append_assoc, List.cons_append, List.nil_append]
  · intro master member live address replica found
    rw [cleared] at found
    exact steady.stay master member live address replica
      (replica_of_update prepared update ⟨master, member, live, rfl⟩ found)

/-- The tables of masters are the same. -/
structure Untouched (source target : World) : Prop where
  masters : target.client.masters = source.client.masters
  ids : target.client.mastersId = source.client.mastersId
  policy : target.client.readPolicy = source.client.readPolicy

instance : Std.Refl Untouched := ⟨fun _ => ⟨rfl, rfl, rfl⟩⟩

instance : IsTrans World Untouched where
  trans _ _ _ first second :=
    ⟨second.masters.trans first.masters, second.ids.trans first.ids, second.policy.trans first.policy⟩

theorem connectRedisNode_untouched (node : Node) (readonly : Bool) :
    Keeps Untouched (connectRedisNode env node readonly) := by
  intro source
  obtain ⟨context, errinfo, _, ran⟩ := connectRedisNode_run env node readonly source
  rw [ran]
  exact ⟨rfl, rfl, rfl⟩

theorem strings_untouched (condition : Prop) [Decidable condition] (nodesString : CRedisClient → CppString) :
    Keeps Untouched
      (provided condition (modifyClient fun client => { client with nodesString := nodesString client })) :=
  .ite (fun _ => ⟨rfl, rfl, rfl⟩) (.pure _)

theorem updateSlots_untouched (nodeinfo : NodeInfo) : Keeps Untouched (updateSlots nodeinfo) :=
  .forM fun _ _ => .ite (fun _ => ⟨rfl, rfl, rfl⟩) (.throw _)

section

variable {known : List NodeInfo → Prop}

/-- Tables that are being filled with the masters of listings, and hold no replicas yet. -/
structure Filling (known : List NodeInfo → Prop) (client : CRedisClient) : Prop where
  indexed : Indexed client
  listed : ∀ node entry, client.masters.lookup node = some entry →
    ∃ nodesInfo, known nodesInfo ∧ ∃ master ∈ nodesInfo, master.liveMaster ∧ master.node = node ∧
      master.id = entry.nodeid
  bare : ∀ node entry, client.masters.lookup node = some entry → entry.replicas = ∅
  policy : client.readPolicy ≠ .onlyMaster

/-- Also the masters of a part of a listing are found. -/
def Filled (known : List NodeInfo → Prop) (nodesInfo : List NodeInfo) (world : World) : Prop :=
  Filling known world.client ∧ Mapped nodesInfo world.client

theorem Filled.untouched {nodesInfo : List NodeInfo} {source target : World} (filled : Filled known nodesInfo source)
    (untouched : Untouched source target) : Filled known nodesInfo target := by
  obtain ⟨masters, ids, policy⟩ := untouched
  obtain ⟨⟨⟨leads, knows⟩, listed, bare, reads⟩, mapped⟩ := filled
  refine ⟨⟨⟨?_, ?_⟩, ?_, ?_, policy ▸ reads⟩, ?_⟩
  · rwa [Leading, masters, ids]
  · rwa [masters, ids]
  · rwa [masters]
  · rwa [masters]
  · rwa [Mapped, ids]

/-- What leaves the tables, in a run that may fail. -/
theorem Filled.keeps {α : Type} {program : Action α} {nodesInfo : List NodeInfo} (keeps : Keeps Untouched program) :
    Triple (Filled known nodesInfo) program (fun _ => Filled known nodesInfo) fun _ _ => True :=
  keeps.triple (fun _ _ => Filled.untouched) fun _ _ _ => trivial

/-- No address has been listed under two ids. -/
def Agreeing (known : List NodeInfo → Prop) : Prop :=
  ∀ one other, known one → known other → ∀ master ∈ one, ∀ again ∈ other, master.liveMaster → again.liveMaster →
    master.node = again.node → master.id = again.id

theorem Filling.insertMaster {client : CRedisClient} (filling : Filling known client) (agree : Agreeing known)
    {nodesInfo : List NodeInfo} (knows : known nodesInfo) {master : NodeInfo} (member : master ∈ nodesInfo)
    (live : master.liveMaster) (context : Option RedisContext) :
    Filling known (client.insertMaster master context) := by
  refine ⟨⟨?_, ?_⟩, ?_, ?_, filling.policy⟩
  · intro nodeid node leads
    rw [Entries.insertMaster_lookup]
    dsimp only [CRedisClient.insertMaster] at leads
    rw [Function.update_apply] at leads
    split at leads
    · next same =>
      cases leads
      subst same
      rcases found : client.masters.lookup master.node with _ | entry
      · rw [if_pos ⟨rfl, rfl⟩]
        exact ⟨_, rfl, rfl⟩
      · obtain ⟨other, knowsOther, again, memberAgain, liveAgain, place, identity⟩ := filling.listed _ entry found
        rw [if_neg fun wrong => Option.some_ne_none _ wrong.2]
        exact ⟨entry, rfl, identity.symm.trans
          (agree other nodesInfo knowsOther knows again memberAgain master member liveAgain live place)⟩
    · obtain ⟨entry, found, same⟩ := filling.indexed.leads nodeid node leads
      refine ⟨entry, ?_, same⟩
      rw [if_neg]
      · exact found
      · rintro ⟨rfl, absent⟩
        cases found.symm.trans absent
  · intro node entry found
    rw [Entries.insertMaster_lookup] at found
    dsimp only [CRedisClient.insertMaster]
    rw [Function.update_apply]
    split at found
    · cases found
      rw [if_pos rfl]
      rfl
    · split
      · rfl
      · exact filling.indexed.known node entry found
  · intro node entry found
    rw [Entries.insertMaster_lookup] at found
    split at found
    · next new =>
      cases found
      exact ⟨nodesInfo, knows, master, member, live, new.1.symm, rfl⟩
    · exact filling.listed node entry found
  · intro node entry found
    rw [Entries.insertMaster_lookup] at found
    split at found
    · cases found
      rfl
    · exact filling.bare node entry found

/-- A step takes over one more node of a listing. -/
theorem initMasterNode_filled (agree : Agreeing known) {before after : List NodeInfo} {nodeinfo : NodeInfo}
    (knows : known (before ++ nodeinfo :: after)) (distinct : Distinct (before ++ nodeinfo :: after)) (several : Bool)
    (connected : ℕ) :
    Triple (Filled known before) (initMasterNode env several connected nodeinfo)
      (fun _ => Filled known (before ++ [nodeinfo])) fun _ _ => True := by
  have member : nodeinfo ∈ before ++ nodeinfo :: after := List.mem_append_right _ List.mem_cons_self
  apply Triple.bind _ (Filled.keeps (strings_untouched several fun client =>
    (client.updateNodesString nodeinfo).nodesString))
  intro _
  apply Triple.ite
  · intro live
    apply Triple.bind _ (Filled.keeps (updateSlots_untouched nodeinfo))
    intro _
    refine .bind (fun _ => Filled known (before ++ [nodeinfo])) ?_ fun _ => .pure fun _ => id
    apply Triple.bind _ (Filled.keeps (connectRedisNode_untouched nodeinfo.node false))
    intro context
    refine .get_then fun world => .bind _ (Filled.keeps fun _ => ⟨rfl, rfl, rfl⟩) fun _ => ?_
    refine .bind _ (Filled.keeps (.ite (.throw _) (.pure _))) fun _ => ?_
    refine .bind _ (.update ?_) fun _ => .pure fun _ => id
    rintro source ⟨filling, mapped⟩
    refine ⟨filling.insertMaster agree knows member live context, ?_⟩
    intro master memberMaster liveMaster
    dsimp only [CRedisClient.insertMaster]
    rcases List.mem_append.mp memberMaster with earlier | last
    · have apart : master.id ≠ nodeinfo.id := by
        have ids := distinct.ids
        rw [List.map_append, List.map_cons] at ids
        intro same
        exact (List.nodup_append.mp ids).2.2 _ (List.mem_map_of_mem earlier) _ List.mem_cons_self same
      rw [Function.update_of_ne apart]
      exact mapped master earlier liveMaster
    · cases List.mem_singleton.mp last
      exact Function.update_self ..
  · intro other
    apply Triple.pure
    rintro source ⟨filling, mapped⟩
    refine ⟨filling, fun master memberMaster liveMaster => ?_⟩
    rcases List.mem_append.mp memberMaster with earlier | last
    · exact mapped master earlier liveMaster
    · cases List.mem_singleton.mp last
      exact absurd liveMaster other

theorem initMasterNodes_filled (agree : Agreeing known) {nodesInfo : List NodeInfo} (knows : known nodesInfo)
    (distinct : Distinct nodesInfo) :
    Triple (fun world => Filling known world.client) (initMasterNodes env nodesInfo)
      (fun _ => Filled known nodesInfo) fun _ _ => True := by
  -- the loop, from behind some nodes of the listing
  have loop (several : Bool) (after before : List NodeInfo) (connected : ℕ) (whole : before ++ after = nodesInfo) :
      Triple (Filled known before) (after.foldlM (initMasterNode env several) connected)
        (fun _ => Filled known nodesInfo) fun _ _ => True := by
    induction after generalizing before connected with
    | nil =>
      rw [List.append_nil] at whole
      subst whole
      exact .pure fun _ => id
    | cons nodeinfo after ih =>
      subst whole
      apply Triple.bind _ (initMasterNode_filled agree knows distinct several connected)
      exact fun connected => ih (before ++ [nodeinfo]) connected (List.append_assoc ..)
  apply Triple.bind fun _ => Filled known []
  · exact .update fun source filling => ⟨⟨⟨filling.indexed.leads, filling.indexed.known⟩, filling.listed, filling.bare,
      filling.policy⟩, nofun⟩
  · intro _
    apply Triple.bind _ (loop _ nodesInfo [] 0 rfl)
    exact fun connected => .bind _ (Filled.keeps fun _ => ⟨rfl, rfl, rfl⟩) fun _ => .pure fun _ => id

theorem initMasterNodes_mastering (nodesInfo : List NodeInfo) :
    Keeps (Grows Mastering) (initMasterNodes env nodesInfo) := by
  apply Keeps.bind
  · exact fun _ => .table (.strings fun client => if 1 < nodesInfo.length then [] else client.rawNodesString)
  · intro _
    refine .bind (.foldlM fun connected nodeinfo _ => ?_) fun _ => .bind (fun world => .note world fun _ _ => nofun)
      fun _ => .pure _
    refine .bind (strings_mastering _ fun client => (client.updateNodesString nodeinfo).nodesString) fun _ => ?_
    refine .ite (.bind (updateSlots_mastering nodeinfo) fun _ => ?_) (.pure _)
    exact .bind (addMasterNode_mastering nodeinfo) fun _ => .pure _

/-- What the loop of `init_cluster` goes on with. -/
structure Seeking (known : List NodeInfo → Prop) (world : World) : Prop where
  filling : Filling known world.client
  mapped : ∀ nodesInfo, lastListing world.log = some nodesInfo → Mapped nodesInfo world.client
  unread : Unread world.log

/-- Nothing but the log is changed, and no listing is noted. -/
theorem Seeking.later {source target : World} (seeking : Seeking known source) (client : target.client = source.client)
    {events : List Event} (log : target.log = source.log ++ events) (unread : Unread events)
    (unlisted : ∀ nodesInfo, .listed nodesInfo ∉ events) : Seeking known target where
  filling := client ▸ seeking.filling
  mapped nodesInfo last := by
    rw [log, lastListing_append unlisted] at last
    exact client ▸ seeking.mapped nodesInfo last
  unread := log ▸ seeking.unread.append unread

end

/-- `CLUSTER NODES` leaves the tables. -/
def SameClient (source target : World) : Prop := target.client = source.client

instance : Std.Refl SameClient := ⟨fun _ => rfl⟩

instance : IsTrans World SameClient := ⟨fun _ _ _ first second => second.trans first⟩

theorem listClusterNodes_client (redisNode : Option NodeRef) (node : Node) (context : RedisContext) :
    Keeps SameClient (listClusterNodes env redisNode node context) := by
  apply Keeps.bind
  · exact .ite (.pure _) (.get_then fun _ => .bind (fun _ => rfl) fun _ => .pure _)
  · rintro ⟨_ | reply, context⟩
    · exact .bind (fun _ => rfl) fun _ => .pure _
    · dsimp only
      rcases parseListing reply with fault | ⟨nodesInfo, errinfo⟩
      · exact .throw _
      · exact .bind (fun _ => rfl) fun _ => .ite (.pure _) (.bind (fun _ => rfl) fun _ => .pure _)

/-- Tables without replicas, when none has been connected. -/
theorem reflects_of_bare {call : Call} {known : List NodeInfo → Prop} (filling : Filling known call.target.client)
    (mapped : Mapped call.nodesInfo call.target.client) (unread : Unread call.events) : call.Reflects := by
  intro master member live
  have leads := mapped master member live
  obtain ⟨entry, found, _⟩ := filling.indexed.leads _ _ leads
  refine ⟨getRedisMasterNode_eq_some.mpr ⟨leads, Option.isSome_of_eq_some found⟩, entry, found,
    fun address nodeid => ?_⟩
  rw [filling.bare _ entry found]
  refine iff_of_false nofun ?_
  rintro ⟨_, _, _, _, _, _, connected⟩
  exact unread _ _ connected

theorem initClusterLoop_reflects {call : Call} (lists : call.Lists) (start : call.source.log = [])
    (agree : Agreeing fun nodesInfo => .listed nodesInfo ∈ call.events) {rounds : ℕ} {seed : UInt64} {source : World}
    (seeking : Seeking (fun nodesInfo => .listed nodesInfo ∈ call.events) source)
    (ran : initClusterLoop env rounds seed source = (.ok (), call.target)) :
    call.Reflects ∧ Indexed call.target.client ∧ call.target.client.readPolicy ≠ .onlyMaster := by
  have events : call.target.log = call.events := by rw [lists.log, start, List.nil_append]
  induction rounds generalizing seed source with
  | zero =>
    cases ran
    have mapped := seeking.mapped call.nodesInfo (events ▸ lists.last)
    exact ⟨reflects_of_bare seeking.filling mapped (events ▸ seeking.unread), seeking.filling.indexed,
      seeking.filling.policy⟩
  | succ rounds ih =>
    rw [initClusterLoop, bind_of_ok (get_apply _)] at ran
    generalize source.client.nodes.getD ((seed + 1).toNat % source.client.nodes.length) ([], 0) = node at ran
    obtain ⟨context, errinfo, _, ranConnect⟩ := connectRedisNode_run env node false source
    rw [bind_of_ok ranConnect] at ran
    have connected : Seeking (fun nodesInfo => .listed nodesInfo ∈ call.events)
        { client := source.client, errinfo := errinfo, log := source.log ++ [.connect node false context.isSome] } := by
      refine Seeking.later seeking (Eq.refl source.client) (Eq.refl (source.log ++ _)) ?_ ?_
      · intro other made member
        cases List.mem_singleton.mp member
      · intro nodesInfo member
        cases List.mem_singleton.mp member
    rcases context with _ | context
    · exact ih connected ran
    · obtain ⟨⟨found, after⟩, listed, ranList, ran⟩ := bind_eq_ok_iff.mp ran
      have client := (listClusterNodes_client none node context).run ranList
      obtain ⟨asked, log, probing, noted⟩ := (listClusterNodes_prepared ranList).log
      have unread : Unread asked := fun other made member => Bool.false_ne_true (probing _ member).symm
      rcases found with _ | nodesInfo
      · exact ih (connected.later client log unread fun nodesInfo member => nomatch (noted nodesInfo).mp member) ran
      · obtain ⟨counted, filled, ranMasters, ran⟩ := bind_eq_ok_iff.mp ran
        have grows := (initMasterNodes_mastering nodesInfo).run ranMasters
        obtain ⟨written, logWritten, mastering⟩ := grows.log
        obtain ⟨again, logAgain, unlisted⟩ := ((unlisted_frame.initMasterNodes env nodesInfo).run ranMasters).log
        cases List.append_cancel_left (logWritten.symm.trans logAgain)
        have rest := (Keeps.ite (later_frame.initReplicas env nodesInfo)
          (later_frame.initClusterLoop env rounds _)).run ran
        have knows : .listed nodesInfo ∈ call.events := by
          have here : .listed nodesInfo ∈ listed.log := log ▸ List.mem_append_right _ ((noted nodesInfo).mpr rfl)
          exact events ▸ rest.log_earlier.subset (grows.log_earlier.subset here)
        have filling := connected.filling
        rw [← client] at filling
        have facts := (initMasterNodes_filled agree knows (lists.distinct nodesInfo knows)).run filling ranMasters
        have last : lastListing filled.log = some nodesInfo := by
          rw [logWritten, lastListing_append fun other member => unlisted _ member other rfl, log]
          exact lastListing_append_only noted
        have unreadAfter : Unread filled.log := by
          rw [logWritten, log]
          exact (connected.unread.append unread).append fun other made member => mastering _ member other made rfl
        split at ran
        · obtain ⟨added, logAdded, unlistedAdded⟩ := ((unlisted_frame.initReplicas env nodesInfo).run ran).log
          have same : nodesInfo = call.nodesInfo := by
            have lastAfter := lists.last
            rw [← events, logAdded, lastListing_append fun other member => unlistedAdded _ member other rfl,
              last] at lastAfter
            exact Option.some.inj lastAfter
          subst same
          refine reflects_of_replicas (lists.distinct _ knows) facts.1.indexed facts.2 facts.1.policy ?_ lists.log
            unreadAfter ?_ ran
          · rw [start, List.nil_append]
          · intro master member live address replica found
            obtain ⟨entry, there, inside⟩ := Option.bind_eq_some_iff.mp found
            rw [facts.1.bare _ entry there] at inside
            cases inside
        · refine ih ⟨facts.1, fun other lastOther => ?_, unreadAfter⟩ ran
          cases last.symm.trans lastOther
          exact facts.2

/-- A client that has not been filled can be. -/
theorem Blank.seeking {world : World} (blank : Blank world) (known : List NodeInfo → Prop) : Seeking known world := by
  have absent (node : Node) : world.client.masters.lookup node = none := by
    rw [blank.masters]
    exact AList.lookup_empty node
  refine ⟨⟨⟨?_, ?_⟩, ?_, ?_, blank.policy⟩, ?_, ?_⟩
  · intro nodeid node leads
    rw [blank.ids] at leads
    cases leads
  · exact fun node entry found => nomatch (absent node).symm.trans found
  · exact fun node entry found => nomatch (absent node).symm.trans found
  · exact fun node entry found => nomatch (absent node).symm.trans found
  · intro nodesInfo last
    rw [blank.log] at last
    cases last
  · intro node connected member
    rw [blank.log] at member
    cases member

theorem init_reflects {call : Call} (blank : Blank call.source) (lists : call.Lists) (steady : call.Steady)
    (ran : initCluster env call.source = (.ok true, call.target)) :
    call.Reflects ∧ Indexed call.target.client ∧ call.target.client.readPolicy ≠ .onlyMaster := by
  rw [initCluster, bind_of_ok (get_apply _)] at ran
  obtain ⟨_, middle, ranLoop, ranRest⟩ := bind_eq_ok_iff.mp ran
  have same : middle = call.target := (Prod.mk.inj ranRest).2
  subst same
  exact initClusterLoop_reflects lists blank.log steady.agree (blank.seeking _) ranLoop

/-- What each call leads to, and the next one starts with. -/
theorem run_reflects {calls : List Call} (run : Run env calls) (steady : ∀ call ∈ calls, call.Steady) :
    (∀ call ∈ calls, call.Reflects) ∧
      ∀ last ∈ calls.head?, Indexed last.target.client ∧ last.target.client.readPolicy ≠ .onlyMaster := by
  induction run with
  | init call blank ran lists =>
    obtain ⟨reflects, facts⟩ := init_reflects blank lists (steady call List.mem_cons_self) ran
    constructor
    · intro other member
      rwa [List.mem_singleton.mp member]
    · rintro _ ⟨⟩
      exact facts
  | refresh call last calls errorNode run follows ran lists ih =>
    obtain ⟨earlier, before⟩ := ih fun other member => steady other (List.mem_cons_of_mem _ member)
    obtain ⟨indexed, policy⟩ := before last rfl
    rw [← follows] at indexed policy
    obtain ⟨reflects, facts⟩ := refresh_reflects lists (steady call List.mem_cons_self) indexed policy ran
    constructor
    · intro other member
      rcases List.mem_cons.mp member with rfl | member
      · exact reflects
      · exact earlier other member
    · rintro _ ⟨⟩
      exact facts

/-- In a run in which masters keep their ids and their addresses, and replicas stay with their masters, the tables are
those of the last listing after every call. -/
theorem tables_reflect (env : Env) {calls : List Call} (run : Run env calls) (steady : ∀ call ∈ calls, call.Steady) :
    ∀ call ∈ calls, call.Reflects := (run_reflects run steady).1

/-- A master and its replica. -/
def listingOf (host : CppString) : CppString :=
  text "a " ++ host ++ text ":1 master - 0 0 1 connected 0-16383\nb r:1 slave a 0 0 1 connected\n"

/-- Servers that list the master at `m` first, and at another host from the first refresh on. -/
def movingEnv (host : CppString) : Env :=
  plainEnv (fun _ => true) fun log _ _ =>
    .reply (.string (listingOf (if log.any (fun | .refresh _ => true | _ => false) then host else text "m")))

/-- A client with two seeds. -/
def movingClient : CRedisClient where
  nodes := [(text "s", 1), (text "s", 2)]
  rawNodesString := text "s:1,s:2"
  nodesString := []
  readPolicy := .readReplica

def movingStart (host : CppString) : Except R3c.Fault Bool × World :=
  initCluster (movingEnv host) { client := movingClient }

def movingEnd (host : CppString) : Except R3c.Fault Unit × World :=
  refreshMasterNodeTable (movingEnv host) none (movingStart host).2

/-- A call between two states. -/
def callOf (source target : World) : Call where
  source := source
  target := target
  events := target.log.drop source.log.length
  nodesInfo := (lastListing (target.log.drop source.log.length)).getD []

def movingCalls (host : CppString) : List Call :=
  [callOf (movingStart host).2 (movingEnd host).2, callOf { client := movingClient } (movingStart host).2]

/-- A listing has been noted, and all of them have different ids and addresses. -/
def listsWell (events : List Event) : Bool :=
  (lastListing events).isSome && (events.filterMap listing?).all fun nodesInfo =>
    (nodesInfo.map (·.id)).Nodup && (nodesInfo.map (·.node)).Nodup

theorem lists_of_well {source target : World} (later : source.log <+: target.log)
    (well : listsWell (callOf source target).events = true) : (callOf source target).Lists := by
  rw [listsWell, Bool.and_eq_true] at well
  obtain ⟨last, distinct⟩ := well
  refine ⟨(List.prefix_iff_eq_append.mp later).symm, ?_, fun nodesInfo listed => ?_⟩
  · obtain ⟨nodesInfo, found⟩ := Option.isSome_iff_exists.mp last
    have same : (callOf source target).nodesInfo = nodesInfo := congrArg (Option.getD · []) found
    rw [same, found]
  · have each := List.all_eq_true.mp distinct nodesInfo (mem_listings.mpr listed)
    rw [Bool.and_eq_true] at each
    exact ⟨of_decide_eq_true each.1, of_decide_eq_true each.2⟩

/-- A pair from its first part. -/
theorem eq_mk_of_fst {α β : Type} {pair : α × β} {first : α} (same : pair.1 = first) : pair = (first, pair.2) := by
  subst same
  rfl

/-- A run of two calls. -/
theorem run_of_two {source middle target : World} (blank : Blank source)
    (started : initCluster env source = (.ok true, middle))
    (refreshed : refreshMasterNodeTable env none middle = (.ok (), target))
    (first : listsWell (callOf source middle).events = true) (second : listsWell (callOf middle target).events = true) :
    Run env [callOf middle target, callOf source middle] := by
  have laterFirst := ((later_frame.initCluster env).run started).log_earlier
  have laterSecond : middle.log <+: target.log := by
    obtain ⟨events, log, _⟩ := refreshMasterNodeTable_traced refreshed
    rw [log]
    exact (List.prefix_append _ _).trans (List.prefix_append _ _)
  apply Run.refresh _ _ _ none
  · exact .init _ blank started (lists_of_well laterFirst first)
  · rfl
  · exact refreshed
  · exact lists_of_well laterSecond second

theorem movingCalls_run {host : CppString} (started : (movingStart host).1 = .ok true)
    (ended : (movingEnd host).1 = .ok ()) (first : listsWell
      (callOf { client := movingClient } (movingStart host).2).events = true)
    (second : listsWell (callOf (movingStart host).2 (movingEnd host).2).events = true) :
    Run (movingEnv host) (movingCalls host) := by
  have start : movingStart host = (.ok true, (movingStart host).2) := eq_mk_of_fst started
  have ran : movingEnd host = (.ok (), (movingEnd host).2) := eq_mk_of_fst ended
  exact run_of_two ⟨rfl, rfl, rfl, by decide⟩ start ran first second
/-- `Steady`, as it can be computed. -/
def steadyCall (call : Call) : Bool :=
  let listings := call.events.filterMap listing?
  let masters := call.source.client.masters
  (listings.all fun one => listings.all fun other => one.all fun master => other.all fun again =>
    master.node = again.node → master.id = again.id) &&
  call.nodesInfo.all fun master =>
    (masters.keys.all fun node => (masters.lookup node).map (·.nodeid) = some master.id ↔ node = master.node) &&
    (((masters.lookup master.node).map (·.replicas.keys)).getD []).all fun address =>
      call.nodesInfo.any fun nodeinfo => nodeinfo.liveReplica && nodeinfo.masterId = master.id &&
        nodeinfo.node = address && call.events.any fun
          | .connect node true true => node = address
          | _ => false

theorem steady_of_check {call : Call} (checked : steadyCall call = true) : call.Steady := by
  simp only [steadyCall, Bool.and_eq_true, List.all_eq_true, List.any_eq_true, decide_eq_true_eq] at checked
  obtain ⟨agree, each⟩ := checked
  constructor
  · intro one other listedOne listedOther master member again memberAgain _ _
    exact agree one (mem_listings.mpr listedOne) other (mem_listings.mpr listedOther) master member again memberAgain
  · intro master member _ node entry found
    have visited := AList.mem_keys.mp (AList.lookup_isSome.mp (Option.isSome_of_eq_some found))
    have same := (each master member).1 node visited
    rwa [found, Option.map_some, Option.some.injEq] at same
  · intro master member _ address replica found
    obtain ⟨entry, there, inside⟩ := Option.bind_eq_some_iff.mp found
    have visited := AList.mem_keys.mp (AList.lookup_isSome.mp (Option.isSome_of_eq_some inside))
    have again := (each master member).2 address
    rw [there] at again
    obtain ⟨nodeinfo, listed, ⟨⟨live, own⟩, rfl⟩, event, noted, connects⟩ := again visited
    refine ⟨nodeinfo.id, nodeinfo, listed, live, own, rfl, rfl, ?_⟩
    split at connects
    · rwa [← of_decide_eq_true connects]
    · cases connects

/-- A master and a replica that stay as they are. -/
theorem tables_reflect_still :
    Run (movingEnv (text "m")) (movingCalls (text "m")) ∧ ∀ call ∈ movingCalls (text "m"), call.Reflects := by
  have run := @movingCalls_run (text "m") (by decide +kernel) (by decide +kernel) (by decide +kernel)
    (by decide +kernel)
  have checked : (movingCalls (text "m")).all steadyCall = true := by decide +kernel
  have each := List.all_eq_true.mp checked
  exact ⟨run, tables_reflect (movingEnv (text "m")) run fun call member => steady_of_check (each call member)⟩

/-- A master that keeps its id but moves is not found by its id. -/
theorem tables_lose_master :
    ∃ calls, Run (movingEnv (text "n")) calls ∧ ∃ call ∈ calls, ¬ call.Reflects := by
  have run := @movingCalls_run (text "n") (by decide +kernel) (by decide +kernel) (by decide +kernel)
    (by decide +kernel)
  refine ⟨_, run, _, List.mem_cons_self, fun reflects => ?_⟩
  have lost : (callOf (movingStart (text "n")).2 (movingEnd (text "n")).2).nodesInfo.any (fun master =>
      master.liveMaster && decide ((callOf (movingStart (text "n")).2
        (movingEnd (text "n")).2).target.client.getRedisMasterNode master.id ≠ some master.node)) = true := by
    decide +kernel
  obtain ⟨master, member, facts⟩ := List.any_eq_true.mp lost
  rw [Bool.and_eq_true] at facts
  exact of_decide_eq_true facts.2 (reflects master member facts.1).1

end CppRedis.Soundness.Topology
