import CppRedis.Model.R3c.Client
import CppRedis.Soundness.Entries

/-! # Broken connections in the tables

A connection is lost in a command, in the `ASKING` before it, or in `CLUSTER NODES`. The client closes it only if a
command sees the loss, and it is one of input and output or of the end of the stream. In runs where every loss is of
this kind no call leaves a broken connection in the tables.
-/

namespace CppRedis.Soundness.Contexts

open Machine Model Model.R3c Model.RedisCpp Machine.Effect Frames Masters Rounds Entries

/-- The client closes a connection that a request loses with this error. -/
def Closes (request : Request) (err : RedisErr) : Prop := request ≠ .clusterNodes ∧ (err = .io ∨ err = .eof)

instance (request : Request) (err : RedisErr) : Decidable (Closes request err) := inferInstanceAs (Decidable (_ ∧ _))

/-- A request over a connection of the tables is lost, and the connection is not closed. -/
def Neglected : Event → Prop
  | .request request (some _) _ (.lost err) => ¬ Closes request err
  | _ => False

instance (event : Event) : Decidable (Neglected event) := by
  unfold Neglected
  split
  · infer_instance
  · exact instDecidableFalse

/-- No connection of the tables has been neglected. -/
def Cared (log : List Event) : Prop := ∀ event ∈ log, ¬ Neglected event

theorem Cared.earlier {before after : List Event} (cared : Cared after) (earlier : before <+: after) : Cared before :=
  fun event member => cared event (earlier.subset member)

/-- The fact holds of all entries, unless a connection has been neglected. -/
def Holds (fact : NodeRef → CRedisNode → Prop) (world : World) : Prop := Cared world.log → Everywhere fact world.client

/-- The fact is not lost. -/
def Careful (fact : NodeRef → CRedisNode → Prop) (source target : World) : Prop :=
  source.log <+: target.log ∧ (Holds fact source → Holds fact target)

section

variable {fact : NodeRef → CRedisNode → Prop}

theorem Careful.of_carries {source target : World} (later : Later source target)
    (carries : Carries fact source target) :
    Careful fact source target :=
  ⟨later.log_earlier, fun holds cared => carries (holds (cared.earlier later.log_earlier))⟩

theorem careful_frame (lasting : Lasting fact) : TableFrame (Careful fact) where
  refl := ⟨fun _ => ⟨List.prefix_rfl, id⟩⟩
  trans := ⟨fun _ _ _ first second => ⟨first.1.trans second.1, second.2 ∘ first.2⟩⟩
  errinfo world errinfo := .of_carries (later_frame.errinfo world errinfo) id
  connect world _ _ _ := .of_carries (later_frame.connect world _ _ _) id
  entry world change changes :=
    .of_carries (later_frame.entry world change changes) ((carries_frame lasting).entry world change changes)
  side world event side := .of_carries (later_frame.side world event side) id
  build world event building := .of_carries (later_frame.build world event building) id
  table world change changes :=
    .of_carries (later_frame.table world change changes) ((carries_frame lasting).table world change changes)

/-- What holds after a run that returns. -/
abbrev Gives {α : Type} (before : World → Prop) (program : Action α) (after : α → World → Prop) : Prop :=
  Triple before program after fun _ _ => True

theorem Careful.gives {α : Type} {program : Action α} (keeps : Keeps (Careful fact) program) :
    Gives (Holds fact) program fun _ => Holds fact :=
  keeps.triple (fun _ _ holds careful => careful.2 holds) fun _ _ _ => trivial

end

def Unbroken (_ : NodeRef) (entry : CRedisNode) : Prop := Healthy entry.context

def Elsewhere (redisNode other : NodeRef) (entry : CRedisNode) : Prop := other ≠ redisNode → Healthy entry.context

/-- No entry of the tables has a context with an error. -/
def Usable (client : CRedisClient) : Prop := Everywhere Unbroken client

theorem unbroken_lasting : Lasting Unbroken where
  update _ _ _ _ keeps := keeps _
  master _ _ _ healthy := healthy
  replica _ _ healthy := healthy

theorem elsewhere_lasting (redisNode : NodeRef) : Lasting (Elsewhere redisNode) where
  update _ _ _ _ keeps elsewhere other := keeps _ (elsewhere other)
  master _ _ _ healthy _ := healthy
  replica _ _ healthy _ := healthy

def Sound : World → Prop := Holds Unbroken

/-- All connections are sound, but for that of one entry. -/
def SoundBut (redisNode : NodeRef) : World → Prop := Holds (Elsewhere redisNode)

theorem sound_frame : TableFrame (Careful Unbroken) := careful_frame unbroken_lasting

variable {env : Env} {redisNode : NodeRef} {world : World}

theorem Sound.but (sound : Sound world) : SoundBut redisNode world :=
  fun cared other entry found _ => sound cared other entry found

/-- An error of the context, if there is one, leads to closing it. -/
def Mendable (request : Request) (context : RedisContext) (world : World) : Prop :=
  Cared world.log → ∀ err ∈ context.err, Closes request err

theorem Mendable.of_healthy {request : Request} {context : RedisContext}
    (healthy : Cared world.log → Healthy (some context)) : Mendable request context world := by
  intro cared err broken
  cases (healthy cared context rfl).symm.trans broken

/-- A context that is stored in an entry. -/
theorem Sound.store (sound : Sound world) (context : RedisContext) :
    SoundBut redisNode { world with
      client := world.client.modifyAt ({ · with context := some context }) redisNode } := by
  intro cared other entry found elsewhere
  rw [CRedisClient.modifyAt_at?, if_neg elsewhere] at found
  exact sound cared other entry found

/-- An entry whose context is healthy after an update of it. -/
theorem SoundBut.repair (but : SoundBut redisNode world) {update : CRedisNode → CRedisNode}
    (healthy : Cared world.log → ∀ entry, Healthy (update entry).context) :
    Sound { world with client := world.client.modifyAt update redisNode } := by
  intro cared other entry found
  rw [CRedisClient.modifyAt_at?] at found
  split at found
  · obtain ⟨before, _, rfl⟩ := Option.map_eq_some_iff.mp found
    exact healthy cared before
  · next elsewhere => exact but cared other entry found elsewhere

theorem entryAt_sound (redisNode : NodeRef) :
    Gives Sound (entryAt redisNode) fun entry world => Sound world ∧ (Cared world.log → Healthy entry.context) := by
  apply Triple.get_bind
  intro source sound
  rcases found : source.client.at? redisNode with _ | entry
  · exact .throw fun _ _ => trivial
  · apply Triple.pure
    rintro world rfl
    exact ⟨sound, fun cared => sound cared redisNode entry found⟩

theorem openContext_sound (node : Node) (context : Option RedisContext) :
    Gives (fun world => Sound world ∧ (Cared world.log → Healthy context)) (openContext env node context)
      fun made world => Sound world ∧ (Cared world.log → Healthy made) := by
  rcases context with _ | context
  · have connected := Careful.gives (sound_frame.connectRedisNode env node false)
    apply (connected.yielding (connectRedisNode_healthy env node false)).weaken
    · exact fun _ => And.left
    · exact fun _ _ made => ⟨made.1, fun _ => made.2⟩
    · exact fun _ _ => id
  · exact .pure fun _ => id

/-- A request leaves its context as it was, or with an error that leads to closing it. -/
theorem send_sound (request : Request) (redisNode : NodeRef) (node : Node) (context : RedisContext) :
    Gives (fun world => Sound world ∧ Mendable request context world)
      (send env request (some redisNode) node context)
      fun sent world => (Sound world ∧ Mendable request sent.2 world) ∧ (sent.1.isSome → sent.2.err = none) := by
  apply Triple.ite
  · exact fun _ => .pure fun _ before => ⟨before, nofun⟩
  · intro _
    apply Triple.get_bind
    rintro source ⟨sound, _⟩
    generalize env.answer source.log request node = answer
    apply Triple.bind fun _ world => Sound world ∧ Mendable request answer.context world
    · apply Triple.update
      rintro world rfl
      constructor
      · exact fun cared => sound (cared.earlier (List.prefix_append _ _))
      · intro cared err broken
        have last := cared _ (List.mem_append_right _ List.mem_cons_self)
        cases answer with
        | reply reply => cases broken
        | lost error =>
          cases broken
          exact Decidable.of_not_not last
    · intro _
      apply Triple.pure
      rintro world ⟨later, mendable⟩
      refine ⟨⟨later, mendable⟩, fun replied => ?_⟩
      cases answer with
      | reply reply => rfl
      | lost err => cases replied

theorem listClusterNodes_sound (redisNode : NodeRef) (node : Node) (context : RedisContext) :
    Gives (fun world => Sound world ∧ Mendable .clusterNodes context world)
      (listClusterNodes env (some redisNode) node context)
      fun result world => Sound world ∧ Mendable .clusterNodes result.2 world := by
  apply Triple.bind _ (send_sound .clusterNodes redisNode node context)
  rintro ⟨_ | reply, context⟩
  · exact .bind _ (.update fun _ before => before.1) fun _ => .pure fun _ => id
  · dsimp only
    rcases parseListing reply with fault | ⟨nodesInfo, errinfo⟩
    · exact .throw fun _ _ => trivial
    · refine .bind _ (.update fun _ before => before.1) fun _ => .ite (fun _ => .pure fun _ => id) fun _ => ?_
      apply Triple.bind fun _ world => Sound world ∧ Mendable .clusterNodes context world
      · apply Triple.update
        rintro source ⟨sound, mendable⟩
        have earlier : source.log <+: source.log ++ [.listed nodesInfo] := List.prefix_append _ _
        exact ⟨fun cared => sound (cared.earlier earlier), fun cared => mendable (cared.earlier earlier)⟩
      · exact fun _ => .pure fun _ => id

/-- An answer to `CLUSTER NODES` leaves no error in its context, which is stored. -/
theorem storeListed_sound (redisNode : NodeRef) (context : RedisContext) :
    Gives (fun world => Sound world ∧ Mendable .clusterNodes context world)
      (modifyClient (CRedisClient.modifyAt ({ · with context := some context }) redisNode)) fun _ => Sound := by
  apply Triple.update
  rintro world ⟨sound, mendable⟩
  refine sound.but.repair fun cared entry made stored => ?_
  cases stored
  rcases broken : context.err with _ | err
  · rfl
  · exact absurd rfl (mendable cared err broken).1

theorem refreshLoop_sound (errorNode : Option Node) (nodes : List Node) :
    Gives Sound (refreshLoop env errorNode nodes) fun _ => Sound := by
  induction nodes with
  | nil => exact .pure fun _ => id
  | cons node nodes ih =>
    apply Triple.ite
    · exact fun _ => ih
    · intro _
      apply Triple.bind _ (entryAt_sound _)
      intro entry
      apply Triple.bind _ (openContext_sound node entry.context)
      rintro (_ | context)
      · exact ih.strengthen_pre fun _ => And.left
      · apply Triple.bind fun _ world => Sound world ∧ Mendable .clusterNodes context world
        · apply Triple.update
          rintro world ⟨sound, healthy⟩
          exact ⟨sound.but.repair fun cared _ => healthy cared, .of_healthy healthy⟩
        · intro _
          apply Triple.bind _ (listClusterNodes_sound (.master node) node context)
          rintro ⟨nodesInfo, context⟩
          apply Triple.bind _ (storeListed_sound (.master node) context)
          intro _
          rcases nodesInfo with _ | nodesInfo
          · exact ih
          · exact .bind _ (Careful.gives (sound_frame.clearAndUpdateMasterNodes env nodesInfo)) fun _ =>
              Careful.gives (sound_frame.initReplicas env nodesInfo)

theorem refreshMasterNodeTable_sound (errorNode : Option Node) :
    Gives Sound (refreshMasterNodeTable env errorNode) fun _ => Sound := by
  refine .get_then fun world => .bind (fun _ => Sound) ?_ fun _ => .ite (fun _ => .throw fun _ _ => trivial) fun _ => ?_
  · exact .update fun _ sound cared => sound (cared.earlier (List.prefix_append _ _))
  · exact refreshLoop_sound errorNode _

/-- `ASKING` and a command are lost in the same ways. -/
theorem mendable_command {request : Request} (other : request ≠ .clusterNodes)
    {context : RedisContext} {world : World} :
    Mendable request context world ↔ Mendable .command context world := by
  have same (err : RedisErr) : Closes request err ↔ Closes .command err :=
    and_congr_left' (iff_of_true other (by decide))
  simp only [Mendable, same]

theorem askFirst_sound (asked : Bool) (redisNode : NodeRef) (node : Node) (context : RedisContext) :
    Gives (fun world => Sound world ∧ Mendable .command context world) (askFirst env asked redisNode node context)
      fun made world => Sound world ∧ Mendable .command made world := by
  simp only [← @mendable_command .asking (by decide)]
  apply Triple.ite
  · exact fun _ => .bind _ (send_sound .asking redisNode node context) fun _ => .pure fun _ => And.left
  · exact fun _ => .pure fun _ => id

/-- A connection that is broken after a transmission is closed by what follows. -/
def Closing (redisNode : NodeRef) (result : HandleResult) (world : World) : Prop :=
  if result.isReconn then SoundBut redisNode world else Sound world

theorem Sound.closing (sound : Sound world) (result : HandleResult) : Closing redisNode result world := by
  rw [Closing]
  split
  · exact sound.but
  · exact sound

/-- A context that has been stored: one with an error that leads to closing it is the only one with an error. -/
def Stored (redisNode : NodeRef) (context : RedisContext) (world : World) : Prop :=
  if context.err ≠ some .io ∧ context.err ≠ some .eof then Sound world else SoundBut redisNode world

theorem store_sound (redisNode : NodeRef) (context : RedisContext) :
    Gives (fun world => Sound world ∧ Mendable .command context world)
      (modifyClient (CRedisClient.modifyAt ({ · with context := some context }) redisNode))
      fun _ => Stored redisNode context := by
  apply Triple.update
  rintro world ⟨sound, mendable⟩
  rw [Stored]
  split
  · next other =>
    refine sound.but.repair fun cared entry made stored => ?_
    cases stored
    rcases broken : context.err with _ | err
    · rfl
    · rcases (mendable cared err broken).2 with rfl | rfl
      · exact absurd broken other.1
      · exact absurd broken other.2
  · exact sound.store context

theorem handleRedisCommandError_sound (redisNode : NodeRef) (context : RedisContext) :
    Gives (Stored redisNode context) (handleRedisCommandError env redisNode context.err) (Closing redisNode) := by
  by_cases other : context.err ≠ some .io ∧ context.err ≠ some .eof
  · have kept := Careful.gives (sound_frame.handleRedisCommandError env redisNode context.err)
    exact kept.weaken (fun _ stored => (if_pos other).mp stored)
      (fun result _ sound => Sound.closing sound result) fun _ _ => id
  · have kept := Careful.gives
      ((careful_frame (elsewhere_lasting redisNode)).handleRedisCommandError env redisNode context.err)
    have reconnects : Yields (handleRedisCommandError env redisNode context.err) fun result => result.isReconn = true :=
      .bind fun _ => .bind fun _ => .ite (fun wrong => absurd wrong other) fun _ => .bind fun _ => .pure rfl
    apply (kept.yielding reconnects).weaken (fun _ stored => (if_neg other).mp stored) ?_ fun _ _ => id
    rintro result world ⟨but, reconn⟩
    rw [Closing, if_pos reconn]
    exact but

theorem handleRedisReply_sound (redisNode : NodeRef) {context : RedisContext} (whole : context.err = none)
    (reply : RedisReply) : Gives (Stored redisNode context) (handleRedisReply redisNode reply) (Closing redisNode) := by
  have other : context.err ≠ some .io ∧ context.err ≠ some .eof := by
    rw [whole]
    exact ⟨nofun, nofun⟩
  have kept := Careful.gives (sound_frame.handleRedisReply redisNode reply)
  exact kept.weaken (fun _ stored => (if_pos other).mp stored)
    (fun result _ sound => Sound.closing sound result) fun _ _ => id

theorem transmit_sound (asked : Bool) (redisNode : NodeRef) :
    Gives Sound (transmit env asked redisNode) fun sent => Closing redisNode sent.1 := by
  apply Triple.bind _ (entryAt_sound redisNode)
  intro entry
  rcases entry.context with _ | context
  · exact .pure fun _ before => Sound.closing before.1 _
  · apply Triple.bind fun made world => Sound world ∧ Mendable .command made world
    · apply (askFirst_sound asked redisNode entry.node context).strengthen_pre
      rintro world ⟨sound, healthy⟩
      exact ⟨sound, .of_healthy healthy⟩
    · intro made
      apply Triple.bind _ (send_sound .command redisNode entry.node made)
      rintro ⟨reply, context⟩
      apply Triple.given
      intro whole
      apply Triple.bind _ (store_sound redisNode context)
      intro _
      rcases reply with _ | reply
      · exact .bind _ (handleRedisCommandError_sound redisNode context) fun _ => .pure fun _ => id
      · exact .bind _ (handleRedisReply_sound redisNode (whole rfl) reply) fun _ => .pure fun _ => id

/-- What leaves the loop, or goes on with it, without a step of its own. -/
theorem giveUp_sound : Gives Sound giveUp fun _ => Sound := Careful.gives sound_frame.giveUp

theorem refreshIfNeeded_sound (result : HandleResult) (redisNode : NodeRef) (node : Node) :
    Gives Sound (refreshIfNeeded env result redisNode node) fun _ => Sound := by
  apply Triple.bind fun _ => Sound
  · exact (entryAt_sound redisNode).weaken_post fun _ _ => And.left
  · intro entry
    refine .get_then fun world => .ite (fun _ => refreshMasterNodeTable_sound _) fun _ => .pure fun _ => id

/-- The connection is closed first. -/
theorem retry_sound (numRetries : ℤ) (loopCounter : ℕ) (redisNode : NodeRef) (node : Node) (result : HandleResult) :
    Gives (Closing redisNode result) (retry env numRetries loopCounter redisNode node result) fun _ => Sound := by
  apply Triple.bind fun _ => Sound
  · apply Triple.ite
    · intro reconn
      apply Triple.update
      intro world closing
      rw [Closing, if_pos reconn] at closing
      exact closing.repair fun _ _ => nofun
    · intro stays
      exact .pure fun _ closing => (if_neg stays).mp closing
  · intro _
    apply Triple.ite
    · exact fun _ => .bind _ (refreshIfNeeded_sound result redisNode node) fun _ => .pure fun _ => id
    · exact fun _ => giveUp_sound

theorem conclude_sound (numRetries : ℤ) (loopCounter : ℕ) (redisNode : NodeRef) (node : Node) (result : HandleResult)
    (reply : Option RedisReply) :
    Gives (Closing redisNode result) (conclude env numRetries loopCounter redisNode node result reply)
      fun _ => Sound := by
  cases result with
  | success => exact .pure fun _ => id
  | error => exact giveUp_sound
  | redirect =>
    rw [conclude]
    rcases parseMovedString (errorStr reply) with _ | askNode
    · exact giveUp_sound
    · exact .ite (fun _ => .pure fun _ => id) fun _ => giveUp_sound
  | _ => exact retry_sound numRetries loopCounter redisNode node _

theorem attempt_sound (numRetries : ℤ) (loopCounter : ℕ) (askNode : Option Node) (redisNode : NodeRef) :
    Gives Sound (attempt env numRetries loopCounter askNode redisNode) fun _ => Sound := by
  apply Triple.bind fun _ => Sound
  · exact (entryAt_sound redisNode).weaken_post fun _ _ => And.left
  · intro entry
    apply Triple.bind _ (transmit_sound askNode.isSome redisNode)
    exact fun _ => conclude_sound numRetries loopCounter redisNode entry.node _ _

theorem round_sound (readonly : Bool) (numRetries : ℤ) (key : CppString) (loopCounter : ℕ) (askNode : Option Node) :
    Gives Sound (R3c.round env readonly numRetries key loopCounter askNode) fun _ => Sound := by
  apply Triple.get_then
  intro world
  apply Triple.bind _ (Careful.gives (sound_frame.getRedisNode env _ readonly askNode))
  intro redisNode
  apply Triple.bind fun _ => Sound
  · exact .update fun _ sound cared => sound (cared.earlier (List.prefix_append _ _))
  · intro _
    rcases redisNode with _ | redisNode
    · exact Careful.gives sound_frame.noAnyNode
    · exact attempt_sound numRetries loopCounter askNode redisNode

theorem commandLoop_sound (readonly : Bool) (numRetries : ℤ) (key : CppString) (rounds loopCounter : ℕ)
    (askNode : Option Node) :
    Gives Sound (commandLoop env readonly numRetries key rounds loopCounter askNode) fun _ => Sound := by
  induction rounds generalizing loopCounter askNode with
  | zero => exact .pure fun _ => id
  | succ rounds ih =>
    apply Triple.bind _ (round_sound readonly numRetries key loopCounter askNode)
    rintro (outcome | askNode)
    · exact .pure fun _ => id
    · exact .ite (fun _ => .throw fun _ _ => trivial) fun _ => ih (loopCounter + 1) askNode

theorem redisCommand_sound (rounds : ℕ) (readonly : Bool) (numRetries : ℤ) (key : CppString) :
    Gives Sound (redisCommand env rounds readonly numRetries key) fun _ => Sound := by
  refine .bind _ (Careful.gives (sound_frame.setErrinfo _)) fun _ => .get_then fun _ =>
    .ite (fun _ => .pure fun _ => id) ?_
  exact fun _ => commandLoop_sound readonly numRetries key rounds 0 none

theorem listNodesLoop_sound (nodes : List Node) : Gives Sound (listNodesLoop env nodes) fun _ => Sound := by
  induction nodes with
  | nil => exact .pure fun _ => id
  | cons node nodes ih =>
    apply Triple.bind _ (entryAt_sound _)
    intro entry
    rcases entry.context with _ | context
    · exact ih.strengthen_pre fun _ => And.left
    · apply Triple.bind fun result world => Sound world ∧ Mendable .clusterNodes result.2 world
      · apply (listClusterNodes_sound (.master node) node context).strengthen_pre
        rintro world ⟨sound, healthy⟩
        exact ⟨sound, .of_healthy healthy⟩
      · rintro ⟨nodesInfo, context⟩
        apply Triple.bind _ (storeListed_sound (.master node) context)
        intro _
        rcases nodesInfo with _ | nodesInfo
        · exact ih
        · exact .pure fun _ => id

theorem listNodes_sound : Gives Sound (listNodes env) fun _ => Sound :=
  .bind _ (Careful.gives (sound_frame.setErrinfo _)) fun _ => .get_then fun _ => listNodesLoop_sound _

theorem initStandlone_sound (node : Node) : Gives Sound (initStandlone env node) fun _ => Sound := by
  apply Triple.bind _ (Careful.gives (sound_frame.client (.strings fun client => client.rawNodesString)))
  intro _
  apply Triple.bind _ ((Careful.gives (sound_frame.connectRedisNode env node false)).yielding
    (connectRedisNode_healthy env node false))
  rintro (_ | context)
  · exact .pure fun _ => And.left
  · apply Triple.given
    intro healthy
    apply Triple.get_bind
    intro source sound
    apply Triple.bind fun _ => (· = source)
    · exact .ite (fun _ => .throw fun _ _ => trivial) fun _ => .pure fun _ => id
    · intro _
      refine .bind (fun _ => Sound) (.ite (fun absent => .update ?_) fun _ => .pure ?_) fun _ => .pure fun _ => id
      · rintro _ rfl cared
        exact (sound cared).insert unbroken_lasting (Option.isNone_iff_eq_none.mp absent) healthy
      · rintro _ rfl
        exact sound

theorem init_sound : Gives Sound (init env) fun _ => Sound := by
  apply Triple.bind _ (Careful.gives (sound_frame.client (.seeds fun client => parseNodes client.rawNodesString)))
  intro _
  apply Triple.get_then
  intro world
  split
  · exact .bind _ (Careful.gives (sound_frame.setErrinfo _)) fun _ => .pure fun _ => id
  · exact initStandlone_sound _
  · exact Careful.gives (sound_frame.initCluster env)

theorem reached_sound (reached : Reached env world) : Sound world := by
  induction reached with
  | constructed rawNodesString readPolicy world ran =>
    refine init_sound.run ?_ ran
    rintro _ (node | ⟨node, replicaNode⟩) entry found <;> cases found
  | commanded source target rounds readonly numRetries key outcome _ ran ih =>
    exact (redisCommand_sound rounds readonly numRetries key).run ih ran
  | listed source target nodesInfo _ ran ih => exact listNodes_sound.run ih ran

/-- In a run in which every loss over a connection of the tables leads to closing it, no entry has a broken connection
between two calls, and none is chosen for an attempt. -/
theorem connections_usable (env : Env) {world : World} (reached : Reached env world) (cared : Cared world.log) :
    Usable world.client ∧
      ∀ slot readonly askNode redisNode chosen entry,
        getRedisNode env slot readonly askNode world = (.ok (some redisNode), chosen) →
        chosen.client.at? redisNode = some entry → Healthy entry.context := by
  have usable := reached_sound reached cared
  refine ⟨usable, fun slot readonly askNode redisNode chosen entry ran found => ?_⟩
  have carries := ((carries_frame unbroken_lasting).getRedisNode env slot readonly askNode).run ran
  exact carries usable redisNode entry found

/-- A server that answers each command with a loss. -/
def losingEnv (err : RedisErr) : Env := plainEnv (fun _ => true) fun _ _ _ => .lost err

/-- A client of the server, and the state after a command on it. -/
def losingStart (err : RedisErr) : Except R3c.Fault Bool × World :=
  init (losingEnv err) { client := newClient (text "s:1") .onlyMaster }

def losingEnd (err : RedisErr) : Except R3c.Fault (Option Outcome) × World :=
  redisCommand (losingEnv err) 9 false 0 (text "k") (losingStart err).2

def returns {α : Type} : Except R3c.Fault (Option α) → Bool
  | .ok (some _) => true
  | _ => false

theorem reached_losing {err : RedisErr} (started : (losingStart err).1 = .ok true)
    (returned : returns (losingEnd err).1 = true) : Reached (losingEnv err) (losingEnd err).2 := by
  unfold returns at returned
  split at returned
  · next outcome ended =>
    exact .commanded _ _ 9 false 0 (text "k") outcome (.constructed (text "s:1") .onlyMaster _ (Prod.ext started rfl))
      (Prod.ext ended rfl)
  · cases returned

/-- A connection that is lost with an error of input and output. -/
theorem connections_usable_io : Usable (losingEnd .io).2.client := by
  have reached := @reached_losing .io (by decide +kernel) (by decide +kernel)
  have cared : Cared (losingEnd .io).2.log := by
    unfold Cared
    decide +kernel
  exact (connections_usable (losingEnv .io) reached cared).1

/-- A reply that breaks the protocol leaves its connection in the tables. -/
theorem connections_broken : ∃ world, Reached (losingEnv .protocol) world ∧ ¬ Usable world.client := by
  refine ⟨_, reached_losing (by decide +kernel) (by decide +kernel), fun usable => ?_⟩
  have broken : ((losingEnd .protocol).2.client.at? (.master (text "s", 1))).map (·.context) =
      some (some { err := some .protocol }) := by decide +kernel
  obtain ⟨entry, found, stored⟩ := Option.map_eq_some_iff.mp broken
  cases usable _ entry found _ stored

end CppRedis.Soundness.Contexts
