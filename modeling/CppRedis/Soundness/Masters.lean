import CppRedis.Soundness.Rounds

/-! # The masters of a listing

After `clear_and_update_master_nodes` the table of masters and the table of slots are those of the listing, from any
tables before it.
-/

namespace CppRedis.Soundness.Masters

open Machine Model Model.R3c Model.RedisCpp Machine.Effect Frames Rounds

/-- The slots of live masters are in the table of slots, and no slot has two owners. -/
structure WellFormed (nodesInfo : List NodeInfo) : Prop where
  inside : ∀ nodeinfo ∈ nodesInfo, nodeinfo.liveMaster → ∀ slot, nodeinfo.Owns slot → 0 ≤ slot ∧ slot < clusterSlots
  apart : ∀ one ∈ nodesInfo, ∀ other ∈ nodesInfo, one.liveMaster → other.liveMaster →
    ∀ slot, one.Owns slot → other.Owns slot → one.node = other.node

/-- A listing names a live master at an address. -/
def MasterAt (nodesInfo : List NodeInfo) (node : Node) : Prop :=
  ∃ nodeinfo ∈ nodesInfo, nodeinfo.liveMaster ∧ nodeinfo.node = node

theorem WellFormed.tail {nodeinfo : NodeInfo} {nodesInfo : List NodeInfo}
    (formed : WellFormed (nodeinfo :: nodesInfo)) :
    WellFormed nodesInfo where
  inside other member := formed.inside other (List.mem_cons_of_mem _ member)
  apart one memberOne other memberOther :=
    formed.apart one (List.mem_cons_of_mem _ memberOne) other (List.mem_cons_of_mem _ memberOther)

/-- A table of slots after some slots have been given to a node. -/
def Assigned (owned : ℤ → Prop) (node : Node) (source target : ℕ → Node) : Prop :=
  ∀ slot : ℕ, (owned slot → target slot = node) ∧ (¬ owned slot → target slot = source slot)

/-- `update_slots`, for segments that are in the table. -/
theorem updateSlots_run {nodeinfo : NodeInfo} (inside : ∀ segment ∈ nodeinfo.slots, segmentInRange segment)
    (source : World) :
    ∃ slot2node, updateSlots nodeinfo source =
        (.ok (), { source with client := { source.client with slot2node := slot2node } }) ∧
      Assigned nodeinfo.Owns nodeinfo.node source.client.slot2node slot2node := by
  rw [updateSlots]
  dsimp only [NodeInfo.Owns, Assigned]
  generalize nodeinfo.node = node
  generalize nodeinfo.slots = slots at inside
  induction slots generalizing source with
  | nil => exact ⟨source.client.slot2node, rfl, fun slot => ⟨nofun, fun _ => rfl⟩⟩
  | cons segment slots ih =>
    have assigned : (if segmentInRange segment then modifyClient (·.assignSlots segment node) else throw .slotRange)
        source = (.ok (), { source with client := source.client.assignSlots segment node }) := by
      rw [if_pos (inside segment List.mem_cons_self)]
      rfl
    obtain ⟨slot2node, ran, value⟩ := ih { source with client := source.client.assignSlots segment node }
      fun other member => inside other (List.mem_cons_of_mem _ member)
    refine ⟨slot2node, (bind_of_ok assigned).trans ran, fun slot => ?_⟩
    obtain ⟨owned, others⟩ := value slot
    constructor
    · rintro ⟨other, member, bounds⟩
      by_cases later : ∃ other ∈ slots, other.1 ≤ (slot : ℤ) ∧ (slot : ℤ) ≤ other.2
      · exact owned later
      · rcases List.mem_cons.mp member with rfl | member
        · exact (others later).trans (if_pos bounds)
        · exact absurd ⟨other, member, bounds⟩ later
    · intro none
      have here : ¬ (segment.1 ≤ (slot : ℤ) ∧ (slot : ℤ) ≤ segment.2) :=
        fun bounds => none ⟨segment, List.mem_cons_self, bounds⟩
      have later : ¬ ∃ other ∈ slots, other.1 ≤ (slot : ℤ) ∧ (slot : ℤ) ≤ other.2 :=
        fun ⟨other, member, bounds⟩ => none ⟨other, List.mem_cons_of_mem _ member, bounds⟩
      exact (others later).trans (if_neg here)

/-- Segments whose slots are in the table can be written. -/
theorem segmentInRange_of_owns {nodeinfo : NodeInfo}
    (inside : ∀ slot, nodeinfo.Owns slot → 0 ≤ slot ∧ slot < clusterSlots) :
    ∀ segment ∈ nodeinfo.slots, segmentInRange segment := by
  intro segment member
  rw [segmentInRange, Bool.or_eq_true, Bool.and_eq_true, decide_eq_true_iff, decide_eq_true_iff, decide_eq_true_iff]
  by_cases empty : segment.2 < segment.1
  · exact .inl empty
  · have first := inside segment.1 ⟨segment, member, Int.le_refl _, Int.not_lt.mp empty⟩
    have last := inside segment.2 ⟨segment, member, Int.not_lt.mp empty, Int.le_refl _⟩
    exact .inr ⟨first.1, last.2⟩

variable (env : Env)

/-- `connect_redis_node` leaves the tables. -/
theorem connectRedisNode_run (node : Node) (readonly : Bool) (source : World) :
    ∃ context errinfo, Healthy context ∧ connectRedisNode env node readonly source =
      (.ok context, {
        client := source.client
        errinfo := errinfo
        log := source.log ++ [.connect node readonly context.isSome] }) := by
  rcases outcome : env.connect source.log node readonly with _ | errinfo
  · refine ⟨some {}, {}, ?_, ?_⟩
    · rintro made same
      cases same
      rfl
    · rw [connectRedisNode, bind_of_ok (get_apply _)]
      simp only [outcome]
      rfl
  · refine ⟨none, errinfo, nofun, ?_⟩
    rw [connectRedisNode, bind_of_ok (get_apply _)]
    simp only [outcome]
    rfl

theorem strings_run (condition : Prop) [Decidable condition] (nodesString : CRedisClient → CppString)
    (source : World) :
    ∃ strings, provided condition (modifyClient fun client =>
      { client with nodesString := nodesString client }) source =
      (.ok (), { source with client := { source.client with nodesString := strings } }) := by
  rw [provided]
  split
  · exact ⟨_, rfl⟩
  · exact ⟨source.client.nodesString, rfl⟩

/-- A master that is not in the table is inserted. -/
theorem addMasterNode_run (nodeinfo : NodeInfo) {source : World}
    (absent : source.client.masters.lookup nodeinfo.node = none) :
    ∃ context errinfo log, Healthy context ∧ addMasterNode env nodeinfo source =
      (.ok context.isSome,
        { client := source.client.insertMaster nodeinfo context, errinfo := errinfo, log := log }) := by
  obtain ⟨context, errinfo, healthy, ran⟩ := connectRedisNode_run env nodeinfo.node false source
  refine ⟨context, errinfo,
    source.log ++ [.connect nodeinfo.node false context.isSome] ++ [.insert nodeinfo.node true], healthy, ?_⟩
  rw [addMasterNode, bind_of_ok ran, bind_of_ok (get_apply _)]
  dsimp only
  rw [absent]
  have passes : ∀ world, check env (none : Option CRedisMasterNode).isNone world = (.ok (), world) := by
    intro world
    rw [check, Option.isNone_none, Bool.not_true, Bool.and_false, if_neg Bool.false_ne_true]
    rfl
  rw [bind_of_ok (modify_apply _ _), bind_of_ok (passes _)]
  rfl

/-- The entry of a master that has just been inserted. -/
def FreshEntry (nodeinfo : NodeInfo) (entry : CRedisMasterNode) : Prop :=
  ∃ context, Healthy context ∧ entry = { nodeid := nodeinfo.id, node := nodeinfo.node, context := context }

/-- The tables before and after a live master has been taken over. -/
structure TookOver (nodeinfo : NodeInfo) (source target : CRedisClient) : Prop where
  slots : Assigned nodeinfo.Owns nodeinfo.node source.slot2node target.slot2node
  policy : target.readPolicy = source.readPolicy
  others : ∀ node, node ≠ nodeinfo.node → target.masters.lookup node = source.masters.lookup node
  known : (source.masters.lookup nodeinfo.node).isSome →
    target.masters.lookup nodeinfo.node = source.masters.lookup nodeinfo.node ∧ target.mastersId = source.mastersId
  unknown : source.masters.lookup nodeinfo.node = none →
    (∃ entry, target.masters.lookup nodeinfo.node = some entry ∧ FreshEntry nodeinfo entry) ∧
      target.mastersId = Function.update source.mastersId nodeinfo.id (some nodeinfo.node)

theorem TookOver.insert {nodeinfo : NodeInfo} {context : Option RedisContext} (healthy : Healthy context)
    {source target : CRedisClient} (slots : Assigned nodeinfo.Owns nodeinfo.node source.slot2node target.slot2node)
    (policy : target.readPolicy = source.readPolicy) (masters : target.masters = source.masters)
    (ids : target.mastersId = source.mastersId) (absent : source.masters.lookup nodeinfo.node = none) :
    TookOver nodeinfo source (target.insertMaster nodeinfo context) := by
  have inserted : (target.insertMaster nodeinfo context).masters = source.masters.insert nodeinfo.node
      { nodeid := nodeinfo.id, node := nodeinfo.node, context := context } := by
    rw [CRedisClient.insertMaster, masters, absent]
    rfl
  refine ⟨slots, policy, ?_, ?_, ?_⟩
  · intro node other
    rw [inserted]
    exact AList.lookup_insert_ne other
  · rw [absent]
    nofun
  · intro _
    constructor
    · refine ⟨_, ?_, context, healthy, rfl⟩
      rw [inserted]
      exact AList.lookup_insert _
    · exact congrArg (Function.update · _ _) ids

/-- A live master of a listing is taken over, whether it is in the table or not. -/
theorem updateMasterNode_run {nodeinfo : NodeInfo} (live : nodeinfo.liveMaster)
    (inside : ∀ segment ∈ nodeinfo.slots, segmentInRange segment) (several : Bool) (source : World) :
    ∃ target, updateMasterNode env several nodeinfo source = (.ok (), target) ∧
      TookOver nodeinfo source.client target.client := by
  obtain ⟨strings, ranStrings⟩ :=
    strings_run several (fun client => (client.updateNodesString nodeinfo).nodesString) source
  obtain ⟨slot2node, ranSlots, assigned⟩ := updateSlots_run inside
    { source with client := { source.client with nodesString := strings } }
  have start : updateMasterNode env several nodeinfo source = _ := bind_of_ok ranStrings
  rw [start, if_pos live, bind_of_ok ranSlots, bind_of_ok (get_apply _)]
  dsimp only at assigned ⊢
  rcases found : source.client.masters.lookup nodeinfo.node with _ | entry
  · rw [provided, Option.isNone_none, if_pos rfl]
    obtain ⟨context, errinfo, log, healthy, ran⟩ := @addMasterNode_run env nodeinfo
      { source with client := { source.client with nodesString := strings, slot2node := slot2node } } found
    exact ⟨_, bind_of_ok ran, .insert healthy assigned rfl rfl rfl found⟩
  · refine ⟨{ source with client := { source.client with nodesString := strings, slot2node := slot2node } }, rfl, ?_⟩
    exact {
      slots := assigned
      policy := rfl
      others := fun _ _ => rfl
      known := fun _ => ⟨rfl, rfl⟩
      unknown := fun absent => absurd (found.symm.trans absent) (Option.some_ne_none _) }

/-- A node that is no live master changes no table. -/
theorem updateMasterNode_skips {nodeinfo : NodeInfo} (other : ¬ nodeinfo.liveMaster) (several : Bool) (source : World) :
    ∃ strings, updateMasterNode env several nodeinfo source =
      (.ok (), { source with client := { source.client with nodesString := strings } }) := by
  obtain ⟨strings, ranStrings⟩ :=
    strings_run several (fun client => (client.updateNodesString nodeinfo).nodesString) source
  have start : updateMasterNode env several nodeinfo source = _ := bind_of_ok ranStrings
  exact ⟨strings, by rw [start, if_neg other]; rfl⟩

/-- The tables before and after all nodes of a listing. -/
structure Updated (nodesInfo : List NodeInfo) (source target : CRedisClient) : Prop where
  policy : target.readPolicy = source.readPolicy
  owned : WellFormed nodesInfo → ∀ nodeinfo ∈ nodesInfo, nodeinfo.liveMaster → ∀ slot : ℕ, nodeinfo.Owns slot →
    target.slot2node slot = nodeinfo.node
  unowned : ∀ slot : ℕ, (∀ nodeinfo ∈ nodesInfo, nodeinfo.liveMaster → ¬ nodeinfo.Owns slot) →
    target.slot2node slot = source.slot2node slot
  kept : ∀ node, (source.masters.lookup node).isSome → target.masters.lookup node = source.masters.lookup node
  fresh : ∀ node entry, source.masters.lookup node = none → target.masters.lookup node = some entry →
    ∃ nodeinfo ∈ nodesInfo, nodeinfo.liveMaster ∧ nodeinfo.node = node ∧ FreshEntry nodeinfo entry
  named : ∀ node, MasterAt nodesInfo node → (target.masters.lookup node).isSome
  oldIds : ∀ id, (∀ nodeinfo ∈ nodesInfo, nodeinfo.liveMaster → source.masters.lookup nodeinfo.node = none →
    nodeinfo.id ≠ id) → target.mastersId id = source.mastersId id
  newIds : (nodesInfo.map (·.node)).Nodup → (nodesInfo.map (·.id)).Nodup → ∀ nodeinfo ∈ nodesInfo,
    nodeinfo.liveMaster → source.masters.lookup nodeinfo.node = none → target.mastersId nodeinfo.id = some nodeinfo.node

theorem Updated.nil {source target : CRedisClient} (policy : target.readPolicy = source.readPolicy)
    (masters : target.masters = source.masters) (ids : target.mastersId = source.mastersId)
    (slots : target.slot2node = source.slot2node) : Updated [] source target where
  policy := policy
  owned _ := nofun
  unowned slot _ := congrFun slots slot
  kept node _ := by rw [masters]
  fresh node entry absent found := by
    rw [masters, absent] at found
    cases found
  named _ := nofun
  oldIds id _ := congrFun ids id
  newIds _ _ := nofun

theorem TookOver.kept {nodeinfo : NodeInfo} {source middle : CRedisClient} (first : TookOver nodeinfo source middle)
    {node : Node} (there : (source.masters.lookup node).isSome) :
    middle.masters.lookup node = source.masters.lookup node := by
  by_cases same : node = nodeinfo.node
  · subst same
    exact (first.known there).1
  · exact first.others node same

theorem TookOver.named {nodeinfo : NodeInfo} {source middle : CRedisClient} (first : TookOver nodeinfo source middle) :
    (middle.masters.lookup nodeinfo.node).isSome := by
  rcases found : source.masters.lookup nodeinfo.node with _ | entry
  · obtain ⟨entry, inserted, _⟩ := (first.unknown found).1
    exact Option.isSome_of_eq_some inserted
  · have there := Option.isSome_of_eq_some found
    rwa [first.kept there]

/-- What was not there after a node has been taken over was not there before. -/
theorem TookOver.absent {nodeinfo : NodeInfo} {source middle : CRedisClient} (first : TookOver nodeinfo source middle)
    {node : Node} (absent : middle.masters.lookup node = none) : source.masters.lookup node = none := by
  by_contra there
  rw [first.kept (Option.isSome_iff_ne_none.mpr there)] at absent
  exact there absent

theorem Updated.cons_live {nodeinfo : NodeInfo} {nodesInfo : List NodeInfo} {source middle target : CRedisClient}
    (live : nodeinfo.liveMaster) (first : TookOver nodeinfo source middle) (rest : Updated nodesInfo middle target) :
    Updated (nodeinfo :: nodesInfo) source target where
  policy := rest.policy.trans first.policy
  owned formed other member otherLive slot owns := by
    rcases List.mem_cons.mp member with rfl | member
    · by_cases again : ∃ owner ∈ nodesInfo, owner.liveMaster ∧ owner.Owns slot
      · obtain ⟨owner, memberOwner, liveOwner, ownsToo⟩ := again
        rw [rest.owned formed.tail owner memberOwner liveOwner slot ownsToo]
        exact formed.apart owner (List.mem_cons_of_mem _ memberOwner) other member liveOwner live slot ownsToo owns
      · rw [rest.unowned slot fun owner memberOwner liveOwner ownsToo => again ⟨owner, memberOwner, liveOwner, ownsToo⟩]
        exact (first.slots slot).1 owns
    · exact rest.owned formed.tail other member otherLive slot owns
  unowned slot unowned := by
    rw [rest.unowned slot fun other member => unowned other (List.mem_cons_of_mem _ member)]
    exact (first.slots slot).2 (unowned nodeinfo List.mem_cons_self live)
  kept node there := by
    have same := first.kept there
    rw [rest.kept node (same ▸ there), same]
  fresh node entry absent found := by
    rcases between : middle.masters.lookup node with _ | inserted
    · obtain ⟨other, member, facts⟩ := rest.fresh node entry between found
      exact ⟨other, List.mem_cons_of_mem _ member, facts⟩
    · rw [rest.kept node (Option.isSome_of_eq_some between), between] at found
      cases found
      have same : node = nodeinfo.node := by
        by_contra other
        rw [first.others node other, absent] at between
        cases between
      subst same
      obtain ⟨made, stored, fresh⟩ := (first.unknown absent).1
      cases stored.symm.trans between
      exact ⟨nodeinfo, List.mem_cons_self, live, rfl, fresh⟩
  named node names := by
    obtain ⟨other, member, otherLive, rfl⟩ := names
    rcases List.mem_cons.mp member with rfl | member
    · rw [rest.kept _ first.named]
      exact first.named
    · exact rest.named _ ⟨other, member, otherLive, rfl⟩
  oldIds id others := by
    rw [rest.oldIds id fun other member otherLive absent =>
      others other (List.mem_cons_of_mem _ member) otherLive (first.absent absent)]
    rcases found : source.masters.lookup nodeinfo.node with _ | entry
    · rw [(first.unknown found).2]
      exact Function.update_of_ne (others nodeinfo List.mem_cons_self live found).symm _ _
    · rw [(first.known (Option.isSome_of_eq_some found)).2]
  newIds nodes ids other member otherLive absent := by
    rw [List.map_cons, List.nodup_cons] at nodes ids
    rcases List.mem_cons.mp member with rfl | member
    · rw [rest.oldIds other.id fun later memberLater _ _ same => ids.1 (same ▸ List.mem_map_of_mem memberLater)]
      rw [(first.unknown absent).2]
      exact Function.update_self _ _ _
    · apply rest.newIds nodes.2 ids.2 other member otherLive
      rw [first.others other.node fun same => nodes.1 (same ▸ List.mem_map_of_mem member)]
      exact absent

/-- The same tables, for a node that is no live master. -/
theorem Updated.cons_other {nodeinfo : NodeInfo} {nodesInfo : List NodeInfo} {source target : CRedisClient}
    (other : ¬ nodeinfo.liveMaster) (rest : Updated nodesInfo source target) :
    Updated (nodeinfo :: nodesInfo) source target := by
  have member : ∀ {one : NodeInfo}, one ∈ nodeinfo :: nodesInfo → one.liveMaster → one ∈ nodesInfo := by
    intro one member live
    rcases List.mem_cons.mp member with rfl | member
    · exact absurd live other
    · exact member
  exact {
    policy := rest.policy
    owned := fun formed one memberOne live => rest.owned formed.tail one (member memberOne live) live
    unowned := fun slot unowned => rest.unowned slot fun one memberOne => unowned one (List.mem_cons_of_mem _ memberOne)
    kept := rest.kept
    fresh := fun node entry absent found =>
      have ⟨one, memberOne, facts⟩ := rest.fresh node entry absent found
      ⟨one, List.mem_cons_of_mem _ memberOne, facts⟩
    named := fun node ⟨one, memberOne, live, same⟩ => rest.named node ⟨one, member memberOne live, live, same⟩
    oldIds := fun id others => rest.oldIds id fun one memberOne => others one (List.mem_cons_of_mem _ memberOne)
    newIds := fun nodes ids one memberOne live =>
      rest.newIds (List.nodup_cons.mp nodes).2 (List.nodup_cons.mp ids).2 one (member memberOne live) live }

/-- All nodes of a listing. -/
theorem updateMasterNodes_run {nodesInfo : List NodeInfo}
    (inside : ∀ nodeinfo ∈ nodesInfo, nodeinfo.liveMaster → ∀ segment ∈ nodeinfo.slots, segmentInRange segment)
    (several : Bool) (source : World) :
    ∃ target, nodesInfo.forM (updateMasterNode env several) source = (.ok (), target) ∧
      Updated nodesInfo source.client target.client := by
  induction nodesInfo generalizing source with
  | nil => exact ⟨source, rfl, .nil rfl rfl rfl rfl⟩
  | cons nodeinfo nodesInfo ih =>
    have insideRest := fun other member => inside other (List.mem_cons_of_mem nodeinfo member)
    by_cases live : nodeinfo.liveMaster
    · obtain ⟨middle, ran, first⟩ :=
        updateMasterNode_run env live (inside nodeinfo List.mem_cons_self live) several source
      obtain ⟨target, ranRest, rest⟩ := ih insideRest middle
      exact ⟨target, (bind_of_ok ran).trans ranRest, .cons_live live first rest⟩
    · obtain ⟨strings, ran⟩ := updateMasterNode_skips env live several source
      obtain ⟨target, ranRest, rest⟩ := ih insideRest _
      refine ⟨target, (bind_of_ok ran).trans ranRest, .cons_other live ?_⟩
      exact ⟨rest.policy, rest.owned, rest.unowned, rest.kept, rest.fresh, rest.named, rest.oldIds, rest.newIds⟩

section

variable {nodesInfo : List NodeInfo} {client : CRedisClient} {nodes : List Node} {node : Node}

theorem any_iff : (nodesInfo.any fun nodeinfo => nodeinfo.liveMaster && nodeinfo.node = node) = true ↔
    MasterAt nodesInfo node := by
  simp only [List.any_eq_true, Bool.and_eq_true, decide_eq_true_iff, MasterAt]

theorem clearInvalid_of_named (named : MasterAt nodesInfo node) : client.clearInvalid nodesInfo node = client :=
  if_pos (any_iff.mpr named)

theorem clearInvalid_of_absent (absent : client.masters.lookup node = none) :
    client.clearInvalid nodesInfo node = client := by
  rw [CRedisClient.clearInvalid, absent]
  exact ite_self client

theorem clearInvalid_of_unnamed (unnamed : ¬ MasterAt nodesInfo node) {entry : CRedisMasterNode}
    (found : client.masters.lookup node = some entry) :
    client.clearInvalid nodesInfo node = { client with
      masters := client.masters.erase node
      mastersId := Function.update client.mastersId entry.nodeid none } := by
  rw [CRedisClient.clearInvalid, if_neg (mt any_iff.mp unnamed), found]

theorem clearInvalid_lookup (nodesInfo : List NodeInfo) (client : CRedisClient) (node other : Node) :
    (client.clearInvalid nodesInfo node).masters.lookup other = client.masters.lookup other ∨
      (client.clearInvalid nodesInfo node).masters.lookup other = none ∧ other = node ∧ ¬ MasterAt nodesInfo node := by
  by_cases named : MasterAt nodesInfo node
  · rw [clearInvalid_of_named named]
    exact .inl rfl
  · rcases found : client.masters.lookup node with _ | entry
    · rw [clearInvalid_of_absent found]
      exact .inl rfl
    · rw [clearInvalid_of_unnamed named found]
      by_cases same : other = node
      · exact .inr ⟨same ▸ AList.lookup_erase _ _, same, named⟩
      · exact .inl (AList.lookup_erase_ne same)

/-- A master that the listing names stays as it is. -/
theorem clear_keeps (named : MasterAt nodesInfo node) :
    (client.clearInvalidMasterNodes nodesInfo nodes).masters.lookup node = client.masters.lookup node := by
  rw [CRedisClient.clearInvalidMasterNodes]
  induction nodes generalizing client with
  | nil => rfl
  | cons other nodes ih =>
    rw [List.foldl_cons, ih]
    rcases clearInvalid_lookup nodesInfo client other node with same | ⟨_, rfl, unnamed⟩
    · exact same
    · exact absurd named unnamed

/-- What is not in the table does not come into it. -/
theorem clear_absent (absent : client.masters.lookup node = none) :
    (client.clearInvalidMasterNodes nodesInfo nodes).masters.lookup node = none := by
  rw [CRedisClient.clearInvalidMasterNodes]
  induction nodes generalizing client with
  | nil => exact absent
  | cons other nodes ih =>
    rw [List.foldl_cons]
    apply ih
    rcases clearInvalid_lookup nodesInfo client other node with same | ⟨gone, _⟩
    · exact same.trans absent
    · exact gone

/-- An entry that is visited goes if the listing does not name it. -/
theorem clear_erases (member : node ∈ nodes) (unnamed : ¬ MasterAt nodesInfo node) :
    (client.clearInvalidMasterNodes nodesInfo nodes).masters.lookup node = none := by
  induction nodes generalizing client with
  | nil => cases member
  | cons other nodes ih =>
    rcases List.mem_cons.mp member with rfl | member
    · refine @clear_absent _ _ nodes _ ?_
      rcases found : client.masters.lookup node with _ | entry
      · rw [clearInvalid_of_absent found, found]
      · rw [clearInvalid_of_unnamed unnamed found]
        exact AList.lookup_erase _ _
    · exact ih member

theorem clear_slots : (client.clearInvalidMasterNodes nodesInfo nodes).slot2node = client.slot2node := by
  obtain ⟨masters, ids, changed⟩ := client.clearInvalidMasterNodes_eq nodesInfo nodes
  rw [changed]

end

/-- The tables after `clear_and_update_master_nodes`, which returns if the slots of live masters can be written. -/
theorem clearAndUpdateMasterNodes_inside {nodesInfo : List NodeInfo}
    (inside : ∀ nodeinfo ∈ nodesInfo, nodeinfo.liveMaster → ∀ segment ∈ nodeinfo.slots, segmentInRange segment)
    (source : World) :
    ∃ updated nodes target,
      clearAndUpdateMasterNodes env nodesInfo source = (.ok (), target) ∧
      Updated nodesInfo source.client updated ∧ nodes.Perm updated.masters.keys ∧
      target.client = updated.clearInvalidMasterNodes nodesInfo nodes := by
  obtain ⟨strings, ranStrings⟩ := strings_run (1 < nodesInfo.length) (fun _ => []) source
  obtain ⟨middle, ran, update⟩ := updateMasterNodes_run env inside (1 < nodesInfo.length)
    { source with client := { source.client with nodesString := strings } }
  refine ⟨middle.client, env.order middle.log middle.client.masters.keys, { middle with
    client := middle.client.clearInvalidMasterNodes nodesInfo (env.order middle.log middle.client.masters.keys) },
    ?_, ?_, env.order_perm _ _, rfl⟩
  · have start : clearAndUpdateMasterNodes env nodesInfo source = _ := bind_of_ok ranStrings
    rw [start, bind_of_ok ran, bind_of_ok (get_apply _)]
    rfl
  · exact ⟨update.policy, update.owned, update.unowned, update.kept, update.fresh, update.named, update.oldIds,
      update.newIds⟩

theorem clearAndUpdateMasterNodes_run {nodesInfo : List NodeInfo} (formed : WellFormed nodesInfo) (source : World) :
    ∃ updated nodes target,
      clearAndUpdateMasterNodes env nodesInfo source = (.ok (), target) ∧
      Updated nodesInfo source.client updated ∧ nodes.Perm updated.masters.keys ∧
      target.client = updated.clearInvalidMasterNodes nodesInfo nodes :=
  clearAndUpdateMasterNodes_inside env
    (fun nodeinfo member live => segmentInRange_of_owns (formed.inside nodeinfo member live)) source

/-- Slots that have been written could be written. -/
theorem updateSlots_inside {nodeinfo : NodeInfo} {source target : World}
    (ran : updateSlots nodeinfo source = (.ok (), target)) : ∀ segment ∈ nodeinfo.slots, segmentInRange segment := by
  rw [updateSlots] at ran
  generalize nodeinfo.node = node at ran
  generalize nodeinfo.slots = slots at ran ⊢
  induction slots generalizing source with
  | nil => exact nofun
  | cons segment slots ih =>
    obtain ⟨_, middle, ranFirst, ranRest⟩ := bind_eq_ok_iff.mp ran
    intro other member
    rcases List.mem_cons.mp member with rfl | member
    · by_contra outside
      dsimp only at ranFirst
      rw [if_neg outside] at ranFirst
      cases ranFirst
    · exact ih ranRest other member

theorem updateMasterNodes_inside {nodesInfo : List NodeInfo} {several : Bool} {source target : World}
    (ran : nodesInfo.forM (updateMasterNode env several) source = (.ok (), target)) :
    ∀ nodeinfo ∈ nodesInfo, nodeinfo.liveMaster → ∀ segment ∈ nodeinfo.slots, segmentInRange segment := by
  induction nodesInfo generalizing source with
  | nil => exact nofun
  | cons nodeinfo nodesInfo ih =>
    obtain ⟨_, middle, ranFirst, ranRest⟩ := bind_eq_ok_iff.mp ran
    intro other member live
    rcases List.mem_cons.mp member with rfl | member
    · obtain ⟨_, strings, _, ranLive⟩ := bind_eq_ok_iff.mp ranFirst
      rw [if_pos live] at ranLive
      obtain ⟨_, _, ranSlots, _⟩ := bind_eq_ok_iff.mp ranLive
      exact updateSlots_inside ranSlots
    · exact ih ranRest other member live

/-- The tables after a run that returned. -/
theorem clearAndUpdateMasterNodes_ran {nodesInfo : List NodeInfo} {source target : World}
    (ran : clearAndUpdateMasterNodes env nodesInfo source = (.ok (), target)) :
    ∃ updated nodes, Updated nodesInfo source.client updated ∧ nodes.Perm updated.masters.keys ∧
      target.client = updated.clearInvalidMasterNodes nodesInfo nodes := by
  obtain ⟨_, _, _, rest⟩ := bind_eq_ok_iff.mp ran
  obtain ⟨_, _, ranMasters, _⟩ := bind_eq_ok_iff.mp rest
  obtain ⟨updated, nodes, last, ranLast, facts⟩ :=
    clearAndUpdateMasterNodes_inside env (updateMasterNodes_inside env ranMasters) source
  cases ran.symm.trans ranLast
  exact ⟨updated, nodes, facts⟩

/-- The masters of the tables are the live masters of the listing, their slots lead to them, and all other slots
are as before. -/
theorem clear_and_update_masters {nodesInfo : List NodeInfo} (formed : WellFormed nodesInfo) (source : World) :
    ∃ target, clearAndUpdateMasterNodes env nodesInfo source = (.ok (), target) ∧
      (∀ node, node ∈ target.client.masters.keys ↔ MasterAt nodesInfo node) ∧
      (∀ nodeinfo ∈ nodesInfo, nodeinfo.liveMaster → ∀ slot : ℕ, nodeinfo.Owns slot →
        target.client.slot2node slot = nodeinfo.node) ∧
      ∀ slot : ℕ, (∀ nodeinfo ∈ nodesInfo, nodeinfo.liveMaster → ¬ nodeinfo.Owns slot) →
        target.client.slot2node slot = source.client.slot2node slot := by
  obtain ⟨updated, nodes, target, ran, update, perm, cleared⟩ := clearAndUpdateMasterNodes_run env formed source
  refine ⟨target, ran, fun node => ?_, ?_, ?_⟩
  · rw [cleared, ← AList.mem_keys, ← AList.lookup_isSome]
    by_cases named : MasterAt nodesInfo node
    · rw [clear_keeps named]
      exact iff_of_true (update.named node named) named
    · refine iff_of_false ?_ named
      rcases found : updated.masters.lookup node with _ | entry
      · rw [clear_absent found]
        exact Bool.false_ne_true
      · have member : node ∈ updated.masters.keys :=
          AList.mem_keys.mp (AList.lookup_isSome.mp (Option.isSome_of_eq_some found))
        rw [clear_erases (perm.mem_iff.mpr member) named]
        exact Bool.false_ne_true
  · rw [cleared, clear_slots]
    exact update.owned formed
  · rw [cleared, clear_slots]
    exact update.unowned

/-- A listing of one master. -/
theorem wellFormed_singleton {nodeinfo : NodeInfo}
    (inside : ∀ segment ∈ nodeinfo.slots, 0 ≤ segment.1 ∧ segment.2 < clusterSlots) : WellFormed [nodeinfo] where
  inside other member _ slot owns := by
    cases List.mem_singleton.mp member
    obtain ⟨segment, memberSegment, first, last⟩ := owns
    have bounds := inside segment memberSegment
    exact ⟨Int.le_trans bounds.1 first, Int.lt_of_le_of_lt last bounds.2⟩
  apart one memberOne other memberOther _ _ _ _ _ := by
    rw [List.mem_singleton.mp memberOne, List.mem_singleton.mp memberOther]

/-- A master at an address that the client does not know, as it is listed. -/
def movedMaster : NodeInfo where
  node := (text "m", 1)
  id := text "id"
  flags := text "master"
  masterId := text "-"
  epoch := 1
  slots := [(0, 16383)]

theorem movedMaster_formed : WellFormed [movedMaster] := wellFormed_singleton (by decide)

/-- Two masters, with slots between theirs that nobody owns. -/
def splitMasters : List NodeInfo :=
  [{ movedMaster with slots := [(0, 100)] },
    { movedMaster with node := (text "n", 1), id := text "other", slots := [(200, 300)] }]

theorem splitMasters_formed : WellFormed splitMasters where
  inside nodeinfo member _ slot owns := by
    have bounds : ∀ nodeinfo ∈ splitMasters, ∀ segment ∈ nodeinfo.slots, 0 ≤ segment.1 ∧ segment.2 < clusterSlots := by
      decide
    obtain ⟨segment, memberSegment, first, last⟩ := owns
    obtain ⟨low, high⟩ := bounds nodeinfo member segment memberSegment
    exact ⟨Int.le_trans low first, Int.lt_of_le_of_lt last high⟩
  apart one memberOne other memberOther _ _ slot ownsOne ownsOther := by
    have disjoint : ∀ one ∈ splitMasters, ∀ other ∈ splitMasters, one.node = other.node ∨
        ∀ segment ∈ one.slots, ∀ segment' ∈ other.slots, segment.2 < segment'.1 ∨ segment'.2 < segment.1 := by
      decide
    rcases disjoint one memberOne other memberOther with same | disjoint
    · exact same
    · obtain ⟨segment, member, first, last⟩ := ownsOne
      obtain ⟨segment', member', first', last'⟩ := ownsOther
      rcases disjoint segment member segment' member' with before | after <;> omega

/-- The slots of both lead to them, and the one between them to where it led. -/
theorem clear_and_update_masters_split :
    ∃ target, clearAndUpdateMasterNodes lossyEnv splitMasters { client := lossyClient } = (.ok (), target) ∧
      (∀ node, node ∈ target.client.masters.keys ↔ node = (text "m", 1) ∨ node = (text "n", 1)) ∧
      target.client.slot2node 8 = (text "m", 1) ∧ target.client.slot2node 250 = (text "n", 1) ∧
      target.client.slot2node 150 = lossyClient.slot2node 150 := by
  obtain ⟨target, ran, masters, slots, others⟩ :=
    clear_and_update_masters lossyEnv splitMasters_formed { client := lossyClient }
  have first := slots { movedMaster with slots := [(0, 100)] } List.mem_cons_self (by decide) 8 (by decide)
  have second := slots { movedMaster with node := (text "n", 1), id := text "other", slots := [(200, 300)] }
    (List.mem_cons_of_mem _ List.mem_cons_self) (by decide) 250 (by decide)
  refine ⟨target, ran, fun node => (masters node).trans ?_, first, second, others 150 (by decide)⟩
  constructor
  · rintro ⟨nodeinfo, member, _, rfl⟩
    rcases List.mem_cons.mp member with rfl | member
    · exact .inl rfl
    · rw [List.mem_singleton.mp member]
      exact .inr rfl
  · rintro (rfl | rfl)
    · exact ⟨_, List.mem_cons_self, by decide, rfl⟩
    · exact ⟨_, List.mem_cons_of_mem _ List.mem_cons_self, by decide, rfl⟩

end CppRedis.Soundness.Masters
