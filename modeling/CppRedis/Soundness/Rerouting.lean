import CppRedis.Soundness.Refreshing
import CppRedis.Soundness.Retries

/-! # What follows `MOVED`

A reply with `MOVED` marks its node for a refresh, the masters are refreshed before the next attempt, and this
attempt is made on the master that the new listing gives the slot of the key to.
-/

namespace CppRedis.Soundness.Rerouting

open Machine Model Model.R3c Model.RedisCpp Machine.Effect Frames Rounds Masters Refreshing Retries

variable {env : Env}

/-- The masters, their identities and their slots are the same. -/
structure SameMasters (source target : World) : Prop where
  masters : ∀ node, (target.client.masters.lookup node).map (·.nodeid) =
    (source.client.masters.lookup node).map (·.nodeid)
  slots : target.client.slot2node = source.client.slot2node

instance : Std.Refl SameMasters := ⟨fun _ => ⟨fun _ => rfl, rfl⟩⟩

instance : IsTrans World SameMasters where
  trans _ _ _ first second :=
    ⟨fun node => (second.masters node).trans (first.masters node), second.slots.trans first.slots⟩

theorem addReplicaNode_masters (world : World) (node : Node) (replica : CRedisNode) :
    SameMasters world { world with client := world.client.addReplicaNode node replica } where
  masters _ := CRedisClient.addReplicaNode_nodeid ..
  slots := CRedisClient.modifyMaster_slot2node ..

theorem initReplicas_masters (nodesInfo : List NodeInfo) : Keeps SameMasters (initReplicas env nodesInfo) := by
  apply Keeps.get_then
  intro world
  refine .ite (.forM fun nodeinfo _ => .get_then fun world => ?_) (.pure _)
  rcases world.client.getRedisMasterNode nodeinfo.masterId with _ | master
  · exact .pure _
  · apply Keeps.bind
    · intro source
      obtain ⟨context, errinfo, _, ran⟩ := connectRedisNode_run env nodeinfo.node true source
      rw [ran]
      exact ⟨fun _ => rfl, rfl⟩
    · intro context
      refine .bind (fun _ => ⟨fun _ => rfl, rfl⟩) fun _ => ?_
      rcases context with _ | context
      · exact .pure _
      · exact fun world => addReplicaNode_masters world _ _

/-- A master that is in the table, and that a slot leads to. -/
def LeadsTo (slot : ℕ) (node : Node) (world : World) : Prop :=
  (world.client.masters.lookup node).isSome ∧ world.client.slot2node slot = node

/-- After a listing, slots lead to the masters that own them. -/
theorem leadsTo_of_listing {nodesInfo : List NodeInfo} {source target : World}
    (listing : Listing env nodesInfo source target)
    (formed : WellFormed nodesInfo) {nodeinfo : NodeInfo} (member : nodeinfo ∈ nodesInfo) (live : nodeinfo.liveMaster)
    {slot : ℕ} (owns : nodeinfo.Owns slot) : LeadsTo slot nodeinfo.node target := by
  obtain ⟨middle, updated, _, ranUpdate, ranReplicas⟩ := listing
  obtain ⟨_, ran, masters, slots, _⟩ := clear_and_update_masters env formed middle
  cases ranUpdate.symm.trans ran
  have same := @initReplicas_masters env nodesInfo updated
  rw [ranReplicas] at same
  constructor
  · have there := (masters nodeinfo.node).mpr ⟨nodeinfo, member, live, rfl⟩
    rw [← AList.mem_keys, ← AList.lookup_isSome] at there
    have kept := congrArg Option.isSome (same.masters nodeinfo.node)
    rw [Option.isSome_map, Option.isSome_map] at kept
    exact kept.trans there
  · rw [same.slots]
    exact slots nodeinfo member live slot owns

/-- An error reply with the code `MOVED`. -/
def MovedReply (answer : Answer) : Prop := ∃ str, answer = .reply (.error str) ∧ Coded (text "MOVED") str

/-- An event that is no reply with `MOVED` to the command. -/
def Unmoved (event : Event) : Prop :=
  ∀ redisNode node answer, event = .request .command redisNode node answer → ¬ MovedReply answer

theorem unmoved_frame : TableFrame (Grows Unmoved) := by
  apply Grows.frame
  rintro event side redisNode node answer rfl
  exact side.elim

/-- The entry of a node says that the masters have to be refreshed. -/
def Stale (redisNode : NodeRef) (world : World) : Prop :=
  ∃ entry, world.client.at? redisNode = some entry ∧ entry.needRefreshMaster = true

theorem needRefreshMaster_moved (entry : CRedisNode) :
    ({ entry with connErrors := 2019 } : CRedisNode).needRefreshMaster = true := by
  have large : decide ((2018 : UInt32) < 2019) = true := by decide
  exact (congrArg (_ || ·) large).trans (Bool.or_true _)

/-- `MOVED` marks the node. -/
theorem handleRedisReply_moved {redisNode : NodeRef} {str : CppString} (coded : Coded (text "MOVED") str)
    {source : World} (present : Present redisNode source) :
    ∃ target, handleRedisReply redisNode (.error str) source = (.ok .retryUncond, target) ∧
      target.log = source.log ∧ Stale redisNode target := by
  obtain ⟨entry, found⟩ := Option.isSome_iff_exists.mp present
  have moved : extractErrtype str source.errinfo.errtype = text "MOVED" := extractErrtype_coded coded _
  rw [handleRedisReply, modifyClient, bind_of_ok (modify_apply _ _), handleRedisReplayError, bind_of_ok (get_apply _)]
  dsimp only
  rw [moved, bind_of_ok (set_errinfo _ _), provided, if_pos rfl]
  refine ⟨_, rfl, rfl, { entry with connErrors := 2019 }, ?_, needRefreshMaster_moved entry⟩
  dsimp only
  rw [CRedisClient.modifyAt_at?, if_pos rfl, CRedisClient.modifyAt_at?, if_pos rfl, found]
  rfl

/-- What comes of a transmission: no reply with `MOVED`, or one that comes last and marks the node. -/
inductive Transmitted (redisNode : NodeRef) (result : HandleResult) (source target : World) : Prop where
  | unmoved : Grows Unmoved source target → Transmitted redisNode result source target
  | moved (middle : World) (event : Event) : Grows Unmoved source middle → ¬ Unmoved event →
      target.log = middle.log ++ [event] → result = .retryUncond → Stale redisNode target → Later source target →
      Transmitted redisNode result source target

/-- The event of a request, if it goes out. -/
theorem send_run {request : Request} {redisNode : Option NodeRef} {node : Node} {context after : RedisContext}
    {answered : Option RedisReply} {source target : World}
    (ran : send env request redisNode node context source = (.ok (answered, after), target)) :
    answered = none ∧ target = source ∨ answered = (env.answer source.log request node).reply? ∧
      target = source.note (.request request redisNode node (env.answer source.log request node)) := by
  rw [send] at ran
  split at ran
  · cases ran
    exact .inl ⟨rfl, rfl⟩
  · cases ran
    exact .inr ⟨rfl, rfl⟩

theorem transmit_transmitted {asked : Bool} {redisNode : NodeRef} {result : HandleResult} {reply : Option RedisReply}
    {source target : World} (ran : transmit env asked redisNode source = (.ok (result, reply), target)) :
    Transmitted redisNode result source target := by
  have later := (later_frame.transmit env (fun _ _ _ _ => .modifyAt _ _) (fun _ _ _ _ => .note _ trivial) asked
    redisNode).run ran
  obtain ⟨entry, first, ranEntry, restEntry⟩ := bind_eq_ok_iff.mp ran
  obtain ⟨rfl, found⟩ := entryAt_run ranEntry
  rcases connection : entry.context with _ | context <;> rw [connection] at restEntry
  · cases restEntry
    exact .unmoved (unmoved_frame.refl.refl _)
  · obtain ⟨made, second, ranAsk, restAsk⟩ := bind_eq_ok_iff.mp restEntry
    obtain ⟨⟨answered, after⟩, third, ranSend, restSend⟩ := bind_eq_ok_iff.mp restAsk
    obtain ⟨_, fourth, stored, rest⟩ := bind_eq_ok_iff.mp restSend
    cases stored
    have quiet := (unmoved_frame.askFirst env asked redisNode entry.node context).run ranAsk
    have present : Present redisNode first := Option.isSome_of_eq_some found
    have presentSecond := present.settled ((settled_frame.askFirst env asked redisNode entry.node context).run ranAsk)
    have presentThird := presentSecond.settled ((send_keeps .command (some redisNode) entry.node made).run ranSend)
    have presentLast := presentThird.settled (.modifyAt third ({ · with context := some after }) redisNode)
    dsimp only at rest
    rcases answered with _ | reply
    · obtain ⟨_, last, ranError, returned⟩ := bind_eq_ok_iff.mp rest
      cases returned
      have failed := (unmoved_frame.handleRedisCommandError env redisNode after.err).run ranError
      have sent : Grows Unmoved second third := by
        rcases send_run ranSend with ⟨_, rfl⟩ | ⟨lost, rfl⟩
        · exact unmoved_frame.refl.refl _
        · apply Grows.note
          rintro _ _ answer ⟨⟩ ⟨str, answers, _⟩
          rw [answers] at lost
          cases lost
      exact .unmoved (quiet.trans (sent.trans ((Grows.modifyAt _ redisNode).trans failed)))
    · obtain ⟨_, last, ranReply, returned⟩ := bind_eq_ok_iff.mp rest
      cases returned
      rcases send_run ranSend with ⟨wrong, _⟩ | ⟨answers, rfl⟩
      · cases wrong
      · generalize env.answer second.log .command entry.node = answer at *
        by_cases moved : MovedReply answer
        · obtain ⟨str, rfl, coded⟩ := moved
          cases answers
          obtain ⟨target, ranMoved, log, stale⟩ := handleRedisReply_moved coded presentLast
          cases ranReply.symm.trans ranMoved
          refine .moved second (.request .command (some redisNode) entry.node _) quiet ?_ log rfl stale later
          exact fun unmoved => unmoved _ _ _ rfl ⟨str, rfl, coded⟩
        · have handled := (unmoved_frame.handleRedisReply redisNode reply).run ranReply
          have sent : Grows Unmoved second (second.note (.request .command (some redisNode) entry.node answer)) := by
            apply Grows.note
            rintro _ _ _ ⟨⟩
            exact moved
          exact .unmoved (quiet.trans (sent.trans ((Grows.modifyAt _ redisNode).trans handled)))

theorem refreshMasterNodeTable_traced {errorNode : Option Node} {source target : World}
    (ran : refreshMasterNodeTable env errorNode source = (.ok (), target)) :
    Traced env (source.note (.refresh source.client.masters.keys.length)) target := by
  rw [refreshMasterNodeTable, bind_of_ok (get_apply source), bind_of_ok (modify_apply _ _)] at ran
  split at ran
  · cases ran
  · exact refreshLoop_traced ran

theorem retry_refreshes {numRetries : ℤ} {loopCounter : ℕ} {redisNode : NodeRef} {node : Node} {askNode : Option Node}
    {source target : World} (stale : Stale redisNode source) (cluster : Cluster source)
    (ran : retry env numRetries loopCounter redisNode node .retryUncond source = (.ok (.again askNode), target)) :
    ∃ masters, Traced env (source.note (.refresh masters)) target := by
  obtain ⟨entry, found, stale⟩ := stale
  have passed : provided HandleResult.retryUncond.isReconn (modifyClient (CRedisClient.modifyAt (·.close) redisNode))
      source = (.ok (), source) := rfl
  rw [retry, bind_of_ok passed] at ran
  split at ran
  · obtain ⟨_, middle, ranRefresh, returned⟩ := bind_eq_ok_iff.mp ran
    cases returned
    rw [refreshIfNeeded, bind_of_ok (entryAt_apply found), bind_of_ok (get_apply _), provided,
      if_pos ⟨cluster, stale⟩] at ranRefresh
    exact ⟨_, refreshMasterNodeTable_traced ranRefresh⟩
  · cases ran

/-- The next attempt of the loop is made on a master of the table. -/
def NextOn (env : Env) (readonly : Bool) (numRetries : ℤ) (key : CppString) (loopCounter : ℕ) (askNode : Option Node)
    (node : Node) (world : World) : Prop :=
  (world.client.masters.lookup node).isSome ∧
    ∃ side rest, (round env readonly numRetries key loopCounter askNode world).2.log =
      world.log ++ side ++ .attempt (some (.master node)) :: rest ∧ ∀ event ∈ side, Side event

/-- Only masters are asked. -/
def MasterOnly (readonly : Bool) (world : World) : Prop := readonly = false ∨ world.client.readPolicy = .onlyMaster

theorem MasterOnly.later {readonly : Bool} {source target : World} (master : MasterOnly readonly source)
    (policy : target.client.readPolicy = source.client.readPolicy) : MasterOnly readonly target :=
  master.imp_right policy.trans

theorem ensureContext_run {redisNode : NodeRef} {source : World} (present : Present redisNode source) :
    ∃ connected target, ensureContext env redisNode source = (.ok connected, target) := by
  obtain ⟨entry, found⟩ := Option.isSome_iff_exists.mp present
  rw [ensureContext, bind_of_ok (entryAt_apply found)]
  rcases entry.context with _ | context
  · obtain ⟨context, errinfo, _, ran⟩ := connectRedisNode_run env entry.node false source
    exact ⟨_, _, bind_of_ok ran⟩
  · exact ⟨true, source, rfl⟩

/-- The master of the slot is chosen, connected or not. -/
theorem getRedisNode_run {slot : ℕ} (bound : slot < clusterSlots) {readonly : Bool} {node : Node} {source : World}
    (master : MasterOnly readonly source) (leads : LeadsTo slot node source) :
    ∃ target, getRedisNode env (some slot) readonly none source = (.ok (some (.master node)), target) ∧
      Grows Side source target := by
  obtain ⟨there, owner⟩ := leads
  have present : Present (.master node) source := (Option.isSome_map ..).trans there
  have finds : findMaster env slot none source = (.ok (some node), source) := by
    rw [findMaster, bind_of_ok (get_apply _), Option.getD_none, owner, if_pos there]
    rfl
  obtain ⟨connected, target, ran⟩ := @ensureContext_run env _ _ present
  have grows : Grows Side source target := ((Grows.frame fun _ => id).ensureContext env (.master node)).run ran
  have reads : readNode env readonly node connected target = (.ok (.master node), target) := by
    have only : !readonly ∨ target.client.readPolicy = .onlyMaster := by
      rcases master.later grows.policy with writes | policy
      · exact .inl (by rw [writes, Bool.not_false])
      · exact .inr policy
    rw [readNode, bind_of_ok (get_apply _), if_pos only]
    rfl
  refine ⟨target, ?_, grows⟩
  rw [getRedisNode, clusterNode_found bound (CRedisClient.masters_ne_nil present) finds,
    bind_of_ok ran, bind_of_ok reads]
  rfl

theorem NextOn.of_leadsTo {readonly : Bool} {numRetries : ℤ} {key : CppString} (keyed : key ≠ []) {loopCounter : ℕ}
    {node : Node} {world : World} (cluster : Cluster world) (master : MasterOnly readonly world)
    (leads : LeadsTo (keyHashSlot key) node world) :
    NextOn env readonly numRetries key loopCounter none node world := by
  have slot : getKeySlot (env.random world.log).toNat key = keyHashSlot key := if_pos keyed
  have bound := getKeySlot_lt (env.random world.log).toNat key
  rw [slot] at bound
  obtain ⟨chosen, ran, grows⟩ := @getRedisNode_run env _ bound _ _ _ master leads
  obtain ⟨side, log, sides⟩ := grows.log
  have attempted := later_frame.attempt env (fun _ _ _ _ => .modifyAt _ _) (fun _ _ => .note _ trivial)
    (fun _ _ _ _ => .note _ trivial) numRetries loopCounter none (.master node)
    (chosen.note (.attempt (some (.master node))))
  obtain ⟨rest, logRest, _⟩ := attempted.log
  refine ⟨leads.1, side, rest, ?_, sides⟩
  have mode : world.client.clusterMode = true := cluster
  rw [R3c.round, bind_of_ok (get_apply _), if_pos mode, slot, bind_of_ok ran, bind_of_ok (modify_apply _ _), logRest,
    World.note, log, List.append_assoc]
  rfl

/-- What a reply with `MOVED` to the command leads to, if the loop goes on: the events end with a refresh. -/
theorem attempt_refreshes {numRetries : ℤ} {loopCounter : ℕ} {askNode next : Option Node} {redisNode : NodeRef}
    {source target : World} (cluster : Cluster source)
    (ran : attempt env numRetries loopCounter askNode redisNode source = (.ok (.again next), target))
    {events : List Event} (log : target.log = source.log ++ events) {event : Event} (member : event ∈ events)
    (moved : ¬ Unmoved event) :
    next = none ∧ ∃ before masters refreshed middle, events = before ++ event :: .refresh masters :: refreshed ∧
      event ∉ before ∧ event ∉ .refresh masters :: refreshed ∧
      ∀ nodesInfo, .listed nodesInfo ∈ refreshed → Listing env nodesInfo middle target := by
  obtain ⟨entry, first, ranEntry, rest⟩ := bind_eq_ok_iff.mp ran
  obtain ⟨rfl, _⟩ := entryAt_run ranEntry
  obtain ⟨⟨result, reply⟩, second, ranTransmit, concluded⟩ := bind_eq_ok_iff.mp rest
  have closing := (unmoved_frame.conclude env (fun _ _ _ _ => .modifyAt _ _) (fun _ _ => .note _ nofun) numRetries
    loopCounter redisNode entry.node result reply).run concluded
  cases transmit_transmitted ranTransmit with
  | unmoved quiet =>
    obtain ⟨others, logOthers, unmoved⟩ := (quiet.trans closing).log
    cases List.append_cancel_left (log.symm.trans logOthers)
    exact absurd (unmoved event member) moved
  | moved middle last quiet movedLast logLast same stale laterSecond =>
    subst same
    obtain ⟨masters, refreshed, logTraced, listing⟩ := retry_refreshes stale (cluster.later laterSecond) concluded
    obtain ⟨before, logBefore, unmovedBefore⟩ := quiet.log
    obtain ⟨after, logAfter, unmovedAfter⟩ := closing.log
    have shape : after = .refresh masters :: refreshed := by
      rw [logAfter, World.note, List.append_assoc] at logTraced
      exact List.append_cancel_left logTraced
    have whole : events = before ++ last :: .refresh masters :: refreshed := by
      rw [logAfter, logLast, logBefore, shape, List.append_assoc, List.append_assoc] at log
      exact (List.append_cancel_left log).symm
    have here : event = last := by
      rw [whole, List.mem_append, List.mem_cons, ← shape] at member
      rcases member with early | same | late
      · exact absurd (unmovedBefore event early) moved
      · exact same
      · exact absurd (unmovedAfter event late) moved
    subst here
    have unasked := (retry_again numRetries loopCounter redisNode entry.node .retryUncond _ _ _ concluded _ rfl).2
    refine ⟨unasked, before, masters, refreshed, second.note (.refresh masters), whole, ?_, ?_, listing⟩
    · exact fun early => moved (unmovedBefore event early)
    · exact fun late => moved (unmovedAfter event (shape ▸ late))

/-- The masters are refreshed before the next attempt, and if they are listed, the next attempt is made on the
master that owns the slot of the key. -/
theorem moved_reroutes (env : Env) {readonly : Bool} {numRetries : ℤ} {key : CppString} {loopCounter : ℕ}
    {askNode next : Option Node} {source : World} (cluster : Cluster source) (keyed : key ≠ [])
    (master : MasterOnly readonly source)
    (goesOn : (round env readonly numRetries key loopCounter askNode source).1 = .ok (.again next))
    {redisNode : Option NodeRef} {node : Node} {str : CppString} (coded : Coded (text "MOVED") str)
    {before after : List Event}
    (log : (round env readonly numRetries key loopCounter askNode source).2.log =
      source.log ++ (before ++ .request .command redisNode node (.reply (.error str)) :: after)) :
    ∃ masters refreshed, after = .refresh masters :: refreshed ∧
      ∀ nodesInfo, .listed nodesInfo ∈ refreshed → WellFormed nodesInfo → ∀ nodeinfo ∈ nodesInfo,
        nodeinfo.liveMaster → nodeinfo.Owns (keyHashSlot key) →
          NextOn env readonly numRetries key (loopCounter + 1) next nodeinfo.node
            (round env readonly numRetries key loopCounter askNode source).2 := by
  have later := later_frame.round env (fun _ _ _ _ => .modifyAt _ _) (fun _ _ => .note _ trivial)
    (fun _ _ _ _ => .note _ trivial) (fun _ _ => .note _ trivial) readonly numRetries key loopCounter askNode source
  rcases ran : round env readonly numRetries key loopCounter askNode source with ⟨result, target⟩
  rw [ran] at goesOn log later
  subst goesOn
  rw [R3c.round, bind_of_ok (get_apply source)] at ran
  obtain ⟨found, chosen, ranChoice, ranRest⟩ := bind_eq_ok_iff.mp ran
  obtain ⟨side, logSide, sides⟩ := ((Grows.frame fun _ => id).getRedisNode env _ readonly askNode |>.run ranChoice).log
  have laterChoice := (later_frame.getRedisNode env _ readonly askNode).run ranChoice
  rw [bind_of_ok (modify_apply _ _)] at ranRest
  have laterRest := (later_frame.afterChoice env (fun _ _ _ _ => .modifyAt _ _) (fun _ _ => .note _ trivial)
    (fun _ _ _ _ => .note _ trivial) numRetries loopCounter askNode found).run ranRest
  obtain ⟨rest, logRest, _⟩ := laterRest.log
  generalize same : Event.request .command redisNode node (.reply (.error str)) = event at log
  have moved : ¬ Unmoved event := by
    subst same
    exact fun unmoved => unmoved _ _ _ rfl ⟨str, rfl, coded⟩
  have whole : before ++ event :: after = side ++ .attempt found :: rest := by
    rw [logRest, World.note, logSide, List.append_assoc, List.append_assoc] at log
    exact (List.append_cancel_left log).symm
  have early : event ∉ side := by
    intro early
    subst same
    exact sides _ early
  have other : event ≠ .attempt found := by
    subst same
    nofun
  have member : event ∈ rest := by
    have inside : event ∈ side ++ .attempt found :: rest := whole ▸ List.mem_append_right _ List.mem_cons_self
    rw [List.mem_append, List.mem_cons] at inside
    exact (inside.resolve_left early).resolve_left other
  rcases found with _ | found
  · exact (noAnyNode_yields (fun _ => False) _ _ _ ranRest next rfl).elim
  · have clusterNoted : Cluster (chosen.note (.attempt (some found))) :=
      Cluster.later cluster (laterChoice.trans (.note chosen trivial))
    obtain ⟨rfl, first, masters, refreshed, middle, shape, noneBefore, noneAfter, listing⟩ :=
      attempt_refreshes clusterNoted ranRest logRest member moved
    have split : (side ++ .attempt (some found) :: first) ++ event :: .refresh masters :: refreshed =
        before ++ event :: after := by
      rw [whole, shape, List.append_assoc]
      rfl
    have noneFirst : event ∉ side ++ .attempt (some found) :: first := by
      rw [List.mem_append, List.mem_cons]
      rintro (wrong | wrong | wrong)
      · exact early wrong
      · exact other wrong
      · exact noneBefore wrong
    refine ⟨masters, refreshed, ((List.append_cons_inj_of_notMem noneFirst noneAfter).mp split).2.2.symm, ?_⟩
    intro nodesInfo listed formed nodeinfo memberNode live owns
    exact .of_leadsTo keyed (cluster.later later) (master.later later.policy)
      (leadsTo_of_listing (listing nodesInfo listed) formed memberNode live owns)

/-- A first round in which the new owner is listed after a reply with `MOVED`. -/
def listsOwner : Except R3c.Fault Turn × List Event → Bool
  | (.ok (.again none),
      .attempt _ :: .request .command _ _ (.reply (.error str)) :: .refresh _ :: _ :: .listed nodesInfo :: _) =>
      str = text "MOVED 1 m:1" ∧ nodesInfo = [movedMaster]
  | _ => false

theorem of_listsOwner {turn : Except R3c.Fault Turn} {log : List Event} (lists : listsOwner (turn, log) = true) :
    turn = .ok (.again none) ∧ ∃ attempt redisNode node masters asked rest,
      log = [attempt] ++ .request .command redisNode node (.reply (.error (text "MOVED 1 m:1"))) ::
        .refresh masters :: asked :: .listed [movedMaster] :: rest := by
  unfold listsOwner at lists
  split at lists
  · rename_i same
    obtain ⟨rfl, rfl⟩ := of_decide_eq_true lists
    cases same
    exact ⟨rfl, _, _, _, _, _, _, rfl⟩
  · cases lists

theorem moved_reroutes_owner :
    NextOn clusterEnv false 5 (text "k") 1 none (text "m", 1)
      (round clusterEnv false 5 (text "k") 0 none { client := clusterClient }).2 := by
  have lists : listsOwner ((round clusterEnv false 5 (text "k") 0 none { client := clusterClient }).1,
      (round clusterEnv false 5 (text "k") 0 none { client := clusterClient }).2.log) = true := by
    decide +kernel
  obtain ⟨goesOn, attempt, redisNode, node, masters, asked, rest, log⟩ := of_listsOwner lists
  have coded : Coded (text "MOVED") (text "MOVED 1 m:1") := ⟨by decide, by decide, text "1 m:1", by decide⟩
  have cluster : Cluster { client := clusterClient } := Eq.refl true
  obtain ⟨_, refreshed, same, reroutes⟩ :=
    moved_reroutes clusterEnv cluster (by decide) (.inl rfl) goesOn coded (log.trans (List.nil_append _).symm)
  cases same
  exact reroutes _ (List.mem_cons_of_mem _ List.mem_cons_self) movedMaster_formed movedMaster List.mem_cons_self
    (by decide) (by decide +kernel)

end CppRedis.Soundness.Rerouting
