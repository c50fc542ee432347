import CppRedis.Soundness.Answers
import CppRedis.Soundness.Asking

/-! # Commands that are answered at once

Where all entries of the tables are connected, a read chooses a node of the slot, or the only server, and sends to
it. A reply that ends the command is then the only one, and of the tables nothing but counters is changed.
-/

namespace CppRedis.Soundness.Prompt

open Machine Model Model.R3c Model.RedisCpp Machine.Effect Frames Rounds Refreshing Retries Entries Answers
open Errtypes (Chosen Transmitted modifyClient_run)

/-- What an entry is apart from its counter of errors. -/
def place (entry : CRedisNode) : Node × Option RedisContext := (entry.node, entry.context)

/-- The same tables, but for counters. -/
structure Alike (source target : CRedisClient) : Prop where
  nodes : target.nodes = source.nodes
  slots : target.slot2node = source.slot2node
  entries : ∀ redisNode, (target.at? redisNode).map place = (source.at? redisNode).map place

namespace Alike

variable {source middle target : CRedisClient}

theorem refl (client : CRedisClient) : Alike client client := ⟨rfl, rfl, fun _ => rfl⟩

theorem trans (first : Alike source middle) (second : Alike middle target) : Alike source target where
  nodes := second.nodes.trans first.nodes
  slots := second.slots.trans first.slots
  entries redisNode := (second.entries redisNode).trans (first.entries redisNode)

/-- An update that leaves the entry in its place. -/
theorem modifyAt {update : CRedisNode → CRedisNode} {redisNode : NodeRef}
    (same : ∀ entry, source.at? redisNode = some entry → place (update entry) = place entry) :
    Alike source (source.modifyAt update redisNode) where
  nodes := CRedisClient.modifyAt_nodes ..
  slots := by cases redisNode <;> exact CRedisClient.modifyMaster_slot2node ..
  entries other := by
    rw [CRedisClient.modifyAt_at?]
    split
    · next here =>
      subst here
      rw [Option.map_map]
      exact Option.map_congr fun entry found => same entry found
    · rfl

/-- It is the turn of the next one under a master. -/
theorem index (client : CRedisClient) (node : Node) :
    Alike client (client.modifyMaster node fun master => { master with index := master.index + 1 }) where
  nodes := CRedisClient.modifyMaster_nodes ..
  slots := CRedisClient.modifyMaster_slot2node ..
  entries _ := congrArg _ (CRedisClient.modifyMaster_at? _ _ _ _ fun _ => ⟨rfl, rfl⟩)

theorem lookup (alike : Alike source target) (node : Node) :
    (target.masters.lookup node).isSome = (source.masters.lookup node).isSome := by
  have there := congrArg Option.isSome (alike.entries (.master node))
  simpa only [CRedisClient.at?, Option.isSome_map] using there

end Alike

/-- The tables of the client stay, but for counters. -/
def Stays (source target : World) : Prop := Alike source.client target.client

instance : Std.Refl Stays := ⟨fun world => .refl world.client⟩

instance : IsTrans World Stays := ⟨fun _ _ _ first second => first.trans second⟩

/-- All entries are connected, at addresses that belong where they are. -/
def Linked (belongs : NodeRef → Node → Prop) : CRedisClient → Prop :=
  Everywhere fun redisNode entry => entry.context = some {} ∧ belongs redisNode entry.node

theorem Linked.alike {belongs : NodeRef → Node → Prop} {source target : CRedisClient} (linked : Linked belongs source)
    (alike : Alike source target) : Linked belongs target := by
  intro redisNode entry found
  have same := alike.entries redisNode
  rw [found, Option.map_some] at same
  obtain ⟨before, there, placed⟩ := Option.map_eq_some_iff.mp same.symm
  obtain ⟨node, context⟩ := Prod.mk.inj placed
  rw [← node, ← context]
  exact linked redisNode before there

variable {env : Env}

/-- The master under which an entry is found. -/
def masterOf : NodeRef → Node
  | .master node | .replica node _ => node

theorem ensureContext_linked {redisNode : NodeRef} {entry : CRedisNode} {source : World}
    (found : source.client.at? redisNode = some entry) (connection : entry.context = some {}) :
    ensureContext env redisNode source = (.ok true, source) := by
  rw [ensureContext, bind_of_ok (entryAt_apply found), connection]
  rfl

theorem chooseNode_alike (node : Node) : Keeps Stays (chooseNode env node) := by
  apply Keeps.get_then
  intro world
  rcases world.client.masters.lookup node with _ | master
  · exact .throw _
  · refine .ite (.pure _) ?_
    exact .bind (.update fun world => .index world.client node) fun _ => .ite (.pure _) (.pure _)

/-- The master or one of its replicas is read from. -/
theorem readNode_linked {belongs : NodeRef → Node → Prop} {readonly : Bool} {node : Node} {source : World}
    (linked : Linked belongs source.client) (there : (source.client.masters.lookup node).isSome) :
    ∃ redisNode target entry, readNode env readonly node true source = (.ok redisNode, target) ∧
      Alike source.client target.client ∧ target.client.at? redisNode = some entry ∧ masterOf redisNode = node := by
  obtain ⟨master, found⟩ := Option.isSome_iff_exists.mp there
  have own : source.client.at? (.master node) = some master.toCRedisNode := by
    rw [CRedisClient.at?, found, Option.map_some]
  rw [readNode, bind_of_ok (get_apply _)]
  split
  · exact ⟨_, source, _, rfl, .refl _, own, rfl⟩
  · split
    · exact ⟨_, source, _, rfl, .refl _, own, rfl⟩
    · obtain ⟨redisNode, target, index, ran, _, _, turned, self, other⟩ := Asking.chooseNode_turns env found
      have alike := (chooseNode_alike node).run ran
      have chosen : (target.client.at? redisNode).isSome ∧ masterOf redisNode = node := by
        by_cases turns : Asking.Turns source.client.readPolicy master
        · rw [self turns, CRedisClient.at?, turned]
          exact ⟨rfl, rfl⟩
        · obtain ⟨replicaNode, member, rfl⟩ := other turns
          rw [CRedisClient.at?, turned]
          exact ⟨AList.lookup_isSome.mpr (AList.mem_keys.mpr member), rfl⟩
      obtain ⟨entry, here⟩ := Option.isSome_iff_exists.mp chosen.1
      have connected := (linked.alike alike redisNode entry here).1
      rw [bind_of_ok ran, bind_of_ok (ensureContext_linked here connected)]
      exact ⟨redisNode, target, entry, rfl, alike, here, chosen.2⟩

/-- In a cluster a node of the slot is chosen. -/
theorem clusterNode_linked {belongs : NodeRef → Node → Prop} {readonly : Bool} {slot : ℕ} (bound : slot < clusterSlots)
    {source : World} (linked : Linked belongs source.client)
    (there : (source.client.masters.lookup (source.client.slot2node slot)).isSome) :
    ∃ redisNode target entry, clusterNode env slot readonly none source = (.ok (some redisNode), target) ∧
      Alike source.client target.client ∧ target.client.at? redisNode = some entry ∧
      masterOf redisNode = source.client.slot2node slot := by
  obtain ⟨master, found⟩ := Option.isSome_iff_exists.mp there
  have own : source.client.at? (.master (source.client.slot2node slot)) = some master.toCRedisNode := by
    rw [CRedisClient.at?, found, Option.map_some]
  have finds : findMaster env slot none source = (.ok (some (source.client.slot2node slot)), source) := by
    rw [findMaster, bind_of_ok (get_apply _), Option.getD_none, if_pos there]
    rfl
  have filled := CRedisClient.masters_ne_nil (Option.isSome_of_eq_some own)
  obtain ⟨redisNode, target, entry, ran, alike, here, under⟩ := @readNode_linked env _ readonly _ _ linked there
  refine ⟨redisNode, target, entry, ?_, alike, here, under⟩
  rw [clusterNode_found bound filled finds, bind_of_ok (ensureContext_linked own (linked _ _ own).1), bind_of_ok ran]
  rfl

/-- The only server is chosen. -/
theorem standaloneNode_linked {belongs : NodeRef → Node → Prop} {source : World} (linked : Linked belongs source.client)
    (filled : source.client.masters.keys ≠ []) :
    ∃ redisNode entry, standaloneNode env source = (.ok (some redisNode), source) ∧
      source.client.at? redisNode = some entry := by
  have perm := env.order_perm source.log source.client.masters.keys
  rcases ordered : env.order source.log source.client.masters.keys with _ | ⟨node, nodes⟩ <;> rw [ordered] at perm
  · exact absurd perm.symm.eq_nil filled
  · have there : (source.client.at? (.master node)).isSome := present_master.mpr (perm.mem_iff.mp List.mem_cons_self)
    obtain ⟨entry, found⟩ := Option.isSome_iff_exists.mp there
    refine ⟨.master node, entry, ?_, found⟩
    rw [standaloneNode, bind_of_ok (get_apply _), bind_of_ok (check_apply (decide_eq_true filled) source), ordered]
    dsimp only
    rw [bind_of_ok (ensureContext_linked found (linked _ _ found).1)]
    rfl

theorem connErrors_alike (count : CRedisNode → UInt32) (redisNode : NodeRef) :
    Keeps Stays (modifyClient (CRedisClient.modifyAt
      (fun entry => { entry with connErrors := count entry }) redisNode)) :=
  fun world => @Alike.modifyAt world.client (fun entry => { entry with connErrors := count entry }) redisNode
    fun _ _ => rfl

theorem handleRedisReply_alike (redisNode : NodeRef) (reply : RedisReply) :
    Keeps Stays (handleRedisReply redisNode reply) := by
  refine .bind (connErrors_alike (fun _ => 0) redisNode) fun _ => ?_
  cases reply with
  | error str =>
    refine .get_then fun _ => .bind (.update fun world => .refl world.client) fun _ => .bind ?_ fun _ => .pure _
    exact .ite (connErrors_alike (fun _ => 2019) redisNode) (.pure _)
  | _ => exact .pure _

/-- The command is sent over a connection once, and its reply is handed on. -/
theorem transmit_linked {redisNode : NodeRef} {entry : CRedisNode} {reply : RedisReply} {source : World}
    (found : source.client.at? redisNode = some entry) (connection : entry.context = some {})
    (answers : env.answer source.log .command entry.node = .reply reply) :
    ∃ result target, transmit env false redisNode source = (.ok (result, some reply), target) ∧
      Alike source.client target.client ∧ Answered [.reply reply] source target := by
  have sent := Asking.send_open env .command (some redisNode) entry.node (rfl : ({} : RedisContext).err = none) source
  rw [answers] at sent
  obtain ⟨result, target, handled⟩ := handleRedisReply_returns redisNode reply
    { source.note (.request .command (some redisNode) entry.node (.reply reply)) with
      client := source.client.modifyAt ({ · with context := some {} }) redisNode }
  have stored : Alike source.client (source.client.modifyAt ({ · with context := some {} }) redisNode) := by
    refine .modifyAt fun other there => ?_
    cases found.symm.trans there
    exact congrArg (Prod.mk entry.node) connection.symm
  have asked : Answered [.reply reply] source
      (source.note (.request .command (some redisNode) entry.node (.reply reply))) := ⟨_, rfl, rfl⟩
  have grows := (quiet_frame.handleRedisReply redisNode reply).run handled
  have closing : Answered [] (source.note (.request .command (some redisNode) entry.node (.reply reply))) target :=
    answered_quiet ((Grows.modifyAt _ redisNode).trans grows)
  refine ⟨result, target, ?_, stored.trans ((handleRedisReply_alike redisNode reply).run handled), asked.trans closing⟩
  rw [transmit, bind_of_ok (entryAt_apply found), connection]
  dsimp only
  rw [bind_of_ok (rfl : askFirst env false redisNode entry.node {} source = (.ok {}, source)), bind_of_ok sent]
  dsimp only
  rw [bind_of_ok (modifyClient_run _ _)]
  exact bind_of_ok handled

/-- The command goes to a connected node that answers it so. -/
def Answerable (env : Env) (readonly : Bool) (key : CppString) (reply : RedisReply) (source : World) : Prop :=
  ∃ redisNode chosen entry, Chosen env readonly key none source (some redisNode) chosen ∧
    Alike source.client chosen.client ∧ chosen.client.at? redisNode = some entry ∧ entry.context = some {} ∧
    ∀ log, env.answer log .command entry.node = .reply reply

theorem round_linked {readonly : Bool} {key : CppString} {reply : RedisReply} {source : World} (stops : Stops reply)
    (answerable : Answerable env readonly key reply source) (numRetries : ℤ) (loopCounter : ℕ) :
    ∃ outcome target, R3c.round env readonly numRetries key loopCounter none source = (.ok (.finish outcome), target) ∧
      Ends reply outcome ∧ Alike source.client target.client ∧ Answered [.reply reply] source target := by
  obtain ⟨redisNode, chosen, entry, choice, before, found, connection, answers⟩ := answerable
  obtain ⟨result, target, sent, after, answered⟩ := @transmit_linked env redisNode entry reply
    (chosen.note (.attempt (some redisNode))) found connection (answers _)
  have transmitted : Transmitted env none redisNode chosen result (some reply) target := sent
  obtain ⟨node, ran⟩ := @Errtypes.round_run env readonly numRetries key loopCounter _ _ _ _ _ _ _ choice transmitted
  obtain ⟨outcome, concluded, ends⟩ := conclude_ends numRetries loopCounter node stops transmitted
  have choosing : Answered [] source (chosen.note (.attempt (some redisNode))) := by
    refine answered_quiet (((quiet_frame.getRedisNode env _ readonly none).run choice).trans (.note chosen ?_))
    exact fun _ _ _ => nofun
  exact ⟨outcome, target, ran.trans concluded, ends, before.trans after, choosing.trans answered⟩

/-- A reply that ends the command ends it in the first round, and is its only answer. -/
theorem redisCommand_linked {readonly : Bool} {key : CppString} {reply : RedisReply} {source : World}
    (keyed : source.client.clusterMode → key ≠ []) (stops : Stops reply)
    (answerable : Answerable env readonly key reply { source with errinfo := {} }) (rounds : ℕ) (numRetries : ℤ) :
    ∃ outcome target, redisCommand env (rounds + 1) readonly numRetries key source = (.ok (some outcome), target) ∧
      Ends reply outcome ∧ Alike source.client target.client ∧ Answered [.reply reply] source target := by
  obtain ⟨outcome, target, ran, ends, alike, answered⟩ := round_linked stops answerable numRetries 0
  refine ⟨outcome, target, ?_, ends, alike, answered⟩
  rw [redisCommand, bind_of_ok (set_errinfo _ _), bind_of_ok (get_apply _), if_neg fun wrong => keyed wrong.1 wrong.2,
    commandLoop, bind_of_ok ran]
  rfl

/-- The client of a single server, with the connection to it. -/
structure Single (client : CRedisClient) : Prop where
  mode : client.clusterMode = false
  linked : Linked (fun _ _ => True) client
  masters : client.masters.keys ≠ []

/-- What the server answers. -/
theorem Single.redisCommand {reply : RedisReply} {source : World} (single : Single source.client) (stops : Stops reply)
    (answers : ∀ log node, env.answer log .command node = .reply reply) (rounds : ℕ) (readonly : Bool)
    (numRetries : ℤ) (key : CppString) :
    ∃ outcome target, R3c.redisCommand env (rounds + 1) readonly numRetries key source = (.ok (some outcome), target) ∧
      Ends reply outcome ∧ Alike source.client target.client ∧ Answered [.reply reply] source target := by
  obtain ⟨redisNode, entry, ran, found⟩ :=
    @standaloneNode_linked env _ { source with errinfo := {} } single.linked single.masters
  have single' : ¬ source.client.clusterMode := by
    rw [single.mode]
    exact Bool.false_ne_true
  refine redisCommand_linked (fun cluster => absurd cluster single') stops ?_ rounds numRetries
  refine ⟨redisNode, _, entry, ?_, .refl _, found, (single.linked redisNode entry found).1, fun log => answers log _⟩
  rw [Chosen, if_neg single']
  exact ran

/-- Masters without replicas, each connected at its own address. -/
theorem linked_of_lookup {belongs : NodeRef → Node → Prop} {client : CRedisClient}
    (lookup : ∀ node master, client.masters.lookup node = some master → master = connectedMaster [] node)
    (own : ∀ node, belongs (.master node) node) : Linked belongs client := by
  intro redisNode entry found
  cases redisNode with
  | master node =>
    obtain ⟨master, there, rfl⟩ := Option.map_eq_some_iff.mp found
    rw [lookup node master there]
    exact ⟨rfl, own node⟩
  | replica node replicaNode =>
    obtain ⟨master, there, inside⟩ := Option.bind_eq_some_iff.mp found
    rw [lookup node master there] at inside
    cases inside

theorem lossyClient_single : Single lossyClient where
  mode := rfl
  linked := by
    apply linked_of_lookup _ fun _ => trivial
    intro node master found
    rw [lossyClient] at found
    by_cases same : node = (text "s", 1)
    · subst same
      exact (Option.some.inj ((AList.lookup_insert _).symm.trans found)).symm
    · rw [AList.lookup_insert_ne same] at found
      cases found
  masters := List.cons_ne_nil _ _

end CppRedis.Soundness.Prompt
