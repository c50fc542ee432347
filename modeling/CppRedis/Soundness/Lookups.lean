import CppRedis.Model.R3c.Strings
import CppRedis.Soundness.Batches
import CppRedis.Soundness.KeySlots
import CppRedis.Soundness.Prompt

/-! # Reading the values of many keys

On a single server `mget` is one `MGET`, which treats a key of another type like a missing one. In a cluster it is one
`GET` after the other, which fails at such a key. Without keys the server refuses `MGET`, and the loop does nothing. In
all other cases both give the same.
-/

namespace CppRedis.Soundness.Lookups

open Machine Model Model.R3c Model.RedisCpp Machine.Effect Frames Rounds Answers Prompt
open Model.Redis (Entry Value Store Stores Format getReply mgetReply serveNode serveAlone nodeOf)
open FaultFree (halfAt twoNodes)

variable {o : Type}

/-- The string of a key. A key that is missing counts as empty, and so does one of another type. -/
def content : Option (Entry o) → CppString
  | some { value := .string str, .. } => str
  | _ => []

/-- The key is of another type. -/
def Foreign : Option (Entry o) → Prop
  | some { value := .other _, .. } => True
  | _ => False

instance : DecidablePred (@Foreign o)
  | none => .isFalse id
  | some { value := .string _, .. } => .isFalse id
  | some { value := .other _, .. } => .isTrue trivial

/-- What `mget` is documented to give. -/
def promised (store : Store o) (keys : List CppString) : MultiGot where
  values := keys.map fun key => content (store key)
  result := .ok (Int32.ofNat keys.length)

theorem promised_ne_thrown (store : Store o) (keys : List CppString) (errinfo : ErrorInfo) :
    (.ok (some (promised store keys)) : Except R3c.Fault (Option MultiGot)) ≠
      .ok (some { values := [], result := .error errinfo }) := by
  intro same
  have results : Except.ok (Int32.ofNat keys.length) = .error errinfo :=
    congrArg MultiGot.result (Option.some.inj (Except.ok.inj same))
  cases results

/-- The text of the error, with its code in front. -/
theorem wrongType_coded : ∃ str, Redis.wrongType = .error str ∧ Coded (text "WRONGTYPE") str :=
  ⟨_, rfl, by decide, by decide +kernel, _, rfl⟩

theorem wrongType_stops : Stops Redis.wrongType := by
  obtain ⟨str, same, coded⟩ := wrongType_coded
  exact .inr ⟨str, _, same, coded, by decide +kernel⟩

theorem ends_wrongType {outcome : Outcome} (ends : Ends Redis.wrongType outcome) :
    ∃ errinfo, outcome = .thrown errinfo ∧ errinfo.errtype = text "WRONGTYPE" := by
  obtain ⟨str, same, coded⟩ := wrongType_coded
  rw [same] at ends
  cases ends with
  | returned _ clean => exact absurd rfl (clean str)
  | thrown _ code errinfo other errtype =>
    refine ⟨errinfo, rfl, errtype.trans ?_⟩
    rw [← extractErrtype_coded other [], extractErrtype_coded coded]

theorem ends_clean {reply : RedisReply} {outcome : Outcome} (ends : Ends reply outcome)
    (clean : ∀ str, reply ≠ .error str) : outcome = .returned (some reply) := by
  cases ends with
  | returned => rfl
  | thrown str => exact absurd rfl (clean str)

theorem getReply_stops (entry : Option (Entry o)) : Stops (getReply entry) := by
  rcases entry with _ | ⟨str | value, ttl⟩
  · exact .inl nofun
  · exact .inl nofun
  · exact wrongType_stops

/-- A node, as servers name it. -/
def address (node : Node) : CppString × ℤ := (node.1, node.2.toNat)

section

variable {format : Format o} {owner : ℕ → CppString × ℤ} {stores : Stores owner o} {home : Node → CppString × ℤ}

/-- All entries of the tables are connected, to a master or to one of its replicas, and the slots of these keys are in
the table as they are in the cluster. -/
structure Clustered (owner : ℕ → CppString × ℤ) (home : Node → CppString × ℤ) (keys : List CppString)
    (client : CRedisClient) : Prop where
  mode : client.clusterMode = true
  linked : Linked (fun redisNode node => home node = address (masterOf redisNode)) client
  slots : ∀ key ∈ keys, address (client.slot2node (keyHashSlot key)) = nodeOf owner key
  masters : ∀ key ∈ keys, (client.masters.lookup (client.slot2node (keyHashSlot key))).isSome

theorem Clustered.alike {keys : List CppString} {source target : CRedisClient}
    (clustered : Clustered owner home keys source) (alike : Alike source target) :
    Clustered owner home keys target where
  mode := by
    rw [CRedisClient.clusterMode, alike.nodes]
    exact clustered.mode
  linked := clustered.linked.alike alike
  slots key member := by
    rw [alike.slots]
    exact clustered.slots key member
  masters key member := by
    rw [alike.slots, alike.lookup]
    exact clustered.masters key member

/-- A table with the slots of the cluster has those of all keys whose lengths are within the range of `int`. -/
theorem slots_of_owner {client : CRedisClient}
    (slots : ∀ slot < clusterSlots, address (client.slot2node slot) = owner slot) {key : CppString}
    (short : key.length < 2147483648) : address (client.slot2node (keyHashSlot key)) = nodeOf owner key := by
  rw [nodeOf, ← (KeySlots.hash_slots_agree key short).1]
  exact slots _ (RedisClient.hashSlot_lt key)

/-- The nodes answer `GET`, a replica for its master. -/
def Serves (format : Format o) (stores : Stores owner o) (home : Node → CppString × ℤ)
    (surroundings : Surroundings) : Prop :=
  ∀ key log node, (surroundings (getArgs key)).answer log .command node =
    .reply (serveNode format stores (home node) (getArgs key)).1

variable {surroundings : Surroundings} (rounds : ℕ) (numRetries : ℤ)

/-- A `GET` in a cluster is answered by a node that has the key. -/
theorem get_command (serves : Serves format stores home surroundings) {keys : List CppString} {key : CppString}
    (member : key ∈ keys) (filled : key ≠ []) {source : World} (clustered : Clustered owner home keys source.client) :
    ∃ outcome target, redisCommand (surroundings (getArgs key)) (rounds + 1) true numRetries key source =
      (.ok (some outcome), target) ∧ Ends (getReply (stores.union key)) outcome ∧
      Clustered owner home keys target.client := by
  have slot : getKeySlot ((surroundings (getArgs key)).random source.log).toNat key = keyHashSlot key := if_pos filled
  have bound := Retries.getKeySlot_lt ((surroundings (getArgs key)).random source.log).toNat key
  rw [slot] at bound
  obtain ⟨redisNode, chosen, entry, ran, alike, found, under⟩ :=
    @clusterNode_linked (surroundings (getArgs key)) _ true _ bound { source with errinfo := {} } clustered.linked
      (clustered.masters key member)
  obtain ⟨connection, belongs⟩ := clustered.linked.alike alike redisNode entry found
  have owned : home entry.node = nodeOf owner key := by
    rw [belongs, under]
    exact clustered.slots key member
  have answerable : Answerable (surroundings (getArgs key)) true key (getReply (stores.union key))
      { source with errinfo := {} } := by
    refine ⟨redisNode, chosen, entry, ?_, alike, found, connection, fun log => ?_⟩
    · rw [Errtypes.Chosen, if_pos clustered.mode, slot]
      exact ran
    · rw [serves, owned, (Stores.serveNode_on format rfl stores).1]
      rfl
  obtain ⟨outcome, target, commanded, ends, stays, _⟩ :=
    redisCommand_linked (fun _ => filled) (getReply_stops _) answerable rounds numRetries
  exact ⟨outcome, target, commanded, ends, clustered.alike stays⟩

/-- `get` in a cluster gives the string of a key, and throws at a key of another type. -/
theorem get_clustered (serves : Serves format stores home surroundings) {keys : List CppString} {key : CppString}
    (member : key ∈ keys) (filled : key ≠ []) {source : World} (clustered : Clustered owner home keys source.client) :
    ∃ got target, CRedisClient.get surroundings (rounds + 1) numRetries key [] source = (.ok (some got), target) ∧
      Clustered owner home keys target.client ∧
      (Foreign (stores.union key) → ∃ errinfo, got = .thrown errinfo ∧ errinfo.errtype = text "WRONGTYPE") ∧
      (¬ Foreign (stores.union key) → got = .returned (stores.union key).isSome (content (stores.union key))) := by
  obtain ⟨outcome, target, ran, ends, stays⟩ := get_command rounds numRetries serves member filled clustered
  rw [CRedisClient.get, bind_of_ok ran]
  generalize stores.union key = entry at ends ⊢
  rcases entry with _ | ⟨str | value, ttl⟩
  · cases ends_clean ends nofun
    exact ⟨_, target, rfl, stays, False.elim, fun _ => rfl⟩
  · cases ends_clean ends nofun
    exact ⟨_, target, rfl, stays, False.elim, fun _ => rfl⟩
  · obtain ⟨errinfo, rfl, errtype⟩ := ends_wrongType ends
    exact ⟨_, target, rfl, stays, fun _ => ⟨errinfo, rfl, errtype⟩, fun own => absurd trivial own⟩

/-- The loop goes on until it comes to a key of another type. -/
theorem getEach_clustered (serves : Serves format stores home surroundings) {all keys : List CppString}
    (members : ∀ key ∈ keys, key ∈ all) (filled : ∀ key ∈ keys, key ≠ []) {source : World}
    (clustered : Clustered owner home all source.client) :
    ∃ result target, CRedisClient.getEach surroundings (rounds + 1) numRetries keys source =
      (.ok (some result), target) ∧
      ((∃ key ∈ keys, Foreign (stores.union key)) →
        ∃ errinfo, result = .error errinfo ∧ errinfo.errtype = text "WRONGTYPE") ∧
      ((∀ key ∈ keys, ¬ Foreign (stores.union key)) →
        result = .ok (keys.map fun key => content (stores.union key))) := by
  induction keys generalizing source with
  | nil => exact ⟨_, source, rfl, fun ⟨_, absent, _⟩ => absurd absent List.not_mem_nil, fun _ => rfl⟩
  | cons key keys ih =>
    obtain ⟨inside, insideRest⟩ := List.forall_mem_cons.mp members
    obtain ⟨named, namedRest⟩ := List.forall_mem_cons.mp filled
    obtain ⟨got, middle, ran, stays, fails, gives⟩ := get_clustered rounds numRetries serves inside named clustered
    rw [CRedisClient.getEach, bind_of_ok ran]
    by_cases foreign : Foreign (stores.union key)
    · obtain ⟨errinfo, rfl, errtype⟩ := fails foreign
      refine ⟨_, middle, rfl, fun _ => ⟨errinfo, rfl, errtype⟩, fun own => ?_⟩
      exact absurd foreign (own key List.mem_cons_self)
    · obtain ⟨result, target, rest, failsRest, givesRest⟩ := ih insideRest namedRest stays
      rw [gives foreign]
      dsimp only
      rw [bind_of_ok rest]
      refine ⟨result.map (content (stores.union key) :: ·), target, rfl, ?_, fun own => ?_⟩
      · rintro ⟨other, member, wrong⟩
        have later : other ∈ keys := (List.mem_cons.mp member).resolve_left fun same => foreign (same ▸ wrong)
        obtain ⟨errinfo, rfl, errtype⟩ := failsRest ⟨other, later, wrong⟩
        exact ⟨errinfo, rfl, errtype⟩
      · rw [givesRest fun other member => own other (List.mem_cons_of_mem _ member)]
        rfl

/-- `mget` in a cluster. -/
theorem mget_clustered (serves : Serves format stores home surroundings) {keys : List CppString}
    (filled : ∀ key ∈ keys, key ≠ []) {source : World} (clustered : Clustered owner home keys source.client) :
    ((∃ key ∈ keys, Foreign (stores.union key)) → ∃ errinfo,
      (CRedisClient.mget surroundings (rounds + 1) numRetries keys source).1 =
        .ok (some { values := [], result := .error errinfo }) ∧ errinfo.errtype = text "WRONGTYPE") ∧
      ((∀ key ∈ keys, ¬ Foreign (stores.union key)) →
        (CRedisClient.mget surroundings (rounds + 1) numRetries keys source).1 =
          .ok (some (promised stores.union keys))) := by
  obtain ⟨result, target, ran, fails, gives⟩ :=
    getEach_clustered rounds numRetries serves (fun _ => id) filled clustered
  rw [CRedisClient.mget, bind_of_ok (get_apply _), clustered.mode, if_neg (by decide), bind_of_ok ran]
  constructor
  · intro foreign
    obtain ⟨errinfo, rfl, errtype⟩ := fails foreign
    exact ⟨errinfo, rfl, errtype⟩
  · intro own
    rw [gives own]
    dsimp only
    rw [List.length_map]
    rfl

end

/-- The server answers `MGET`. -/
def ServesAlone (format : Format o) (store : Store o) (surroundings : Surroundings) : Prop :=
  ∀ keys log node, (surroundings (mgetArgs keys)).answer log .command node =
    .reply (serveAlone format store (address node) (mgetArgs keys)).1

section

variable {format : Format o} {store : Store o} {surroundings : Surroundings} (rounds : ℕ) (numRetries : ℤ)

theorem serveAlone_mget (store : Store o) (node : CppString × ℤ) {keys : List CppString} (several : keys ≠ []) :
    (serveAlone format store node (mgetArgs keys)).1 = .array (keys.map fun key => mgetReply (store key)) := by
  obtain ⟨key, keys, rfl⟩ := List.exists_cons_of_ne_nil several
  rfl

theorem unknownCommand_stops : Stops Redis.unknownCommand :=
  .inr ⟨_, text "ERR", rfl, ⟨by decide, by decide +kernel, _, rfl⟩, by decide +kernel⟩

/-- What an element of the reply to `MGET` is read as. -/
theorem getStrings_mgetReply (store : Store o) (keys : List CppString) :
    getStrings (keys.map fun key => mgetReply (store key)) = keys.map fun key => content (store key) := by
  rw [getStrings, List.map_map]
  refine List.map_congr_left fun key _ => ?_
  dsimp only [Function.comp_apply]
  rcases store key with _ | ⟨str | value, ttl⟩
  · rfl
  · rfl
  · rfl

/-- `mget` on a single server. -/
theorem mget_single (serves : ServesAlone format store surroundings) (keys : List CppString) {source : World}
    (single : Single source.client) :
    (keys = [] → ∃ errinfo, (CRedisClient.mget surroundings (rounds + 1) numRetries keys source).1 =
      .ok (some { values := [], result := .error errinfo })) ∧
      (keys ≠ [] → (CRedisClient.mget surroundings (rounds + 1) numRetries keys source).1 =
        .ok (some (promised store keys))) := by
  rw [CRedisClient.mget, bind_of_ok (get_apply _), single.mode, if_pos (by decide), CRedisClient.mgetAlone]
  constructor
  · rintro rfl
    obtain ⟨outcome, target, ran, ends, _⟩ :=
      single.redisCommand unknownCommand_stops (serves []) rounds true numRetries []
    rw [bind_of_ok ran]
    cases ends with
    | returned _ clean => exact absurd rfl (clean _)
    | thrown _ _ errinfo => exact ⟨errinfo, rfl⟩
  · intro several
    have answers : ∀ log node, (surroundings (mgetArgs keys)).answer log .command node =
        .reply (.array (keys.map fun key => mgetReply (store key))) := by
      intro log node
      rw [serves, serveAlone_mget store _ several]
    have stops : Stops (.array (keys.map fun key => mgetReply (store key))) := .inl nofun
    obtain ⟨outcome, target, ran, ends, _⟩ := single.redisCommand stops answers rounds true numRetries []
    cases ends_clean ends nofun
    rw [bind_of_ok ran]
    dsimp only
    rw [promised, ← getStrings_mgetReply, List.length_map]
    rfl

end

/-- Both modes give what is documented exactly for lists of keys that are not empty, with no key of another type. -/
theorem mget_alike_iff {format : Format o} {owner : ℕ → CppString × ℤ} {stores : Stores owner o}
    {home : Node → CppString × ℤ} {nodes server : Surroundings} (rounds : ℕ) (numRetries : ℤ) {keys : List CppString}
    {cluster alone : World} (filled : ∀ key ∈ keys, key ≠ []) (clustered : Clustered owner home keys cluster.client)
    (serves : Serves format stores home nodes) (single : Single alone.client)
    (servesAlone : ServesAlone format stores.union server) :
    ((CRedisClient.mget nodes (rounds + 1) numRetries keys cluster).1 = .ok (some (promised stores.union keys)) ∧
      (CRedisClient.mget server (rounds + 1) numRetries keys alone).1 = .ok (some (promised stores.union keys))) ↔
      keys ≠ [] ∧ ∀ key ∈ keys, ¬ Foreign (stores.union key) := by
  obtain ⟨fails, gives⟩ := mget_clustered rounds numRetries serves filled clustered
  obtain ⟨refused, given⟩ := mget_single rounds numRetries servesAlone keys single
  constructor
  · rintro ⟨first, second⟩
    refine ⟨fun empty => ?_, fun key member foreign => ?_⟩
    · obtain ⟨errinfo, threw⟩ := refused empty
      exact promised_ne_thrown _ _ _ (second.symm.trans threw)
    · obtain ⟨errinfo, threw, _⟩ := fails ⟨key, member, foreign⟩
      exact promised_ne_thrown _ _ _ (first.symm.trans threw)
  · rintro ⟨several, own⟩
    exact ⟨gives own, given several⟩

def halfNode (serv : ℕ) : Node := (text "127.0.0.1", UInt16.ofNat (7000 + serv))

theorem halfNode_address : ∀ serv < 2, address (halfNode serv) = halfAt serv := by decide +kernel

/-- A client that is connected to the nodes of both halves. -/
def halves : CRedisClient where
  nodes := [halfNode 0, halfNode 1]
  rawNodesString := text "127.0.0.1:7000,127.0.0.1:7001"
  nodesString := text "127.0.0.1:7000,127.0.0.1:7001"
  readPolicy := .readReplica
  masters := AList.insert (halfNode 0) (connectedMaster [] (halfNode 0))
    (AList.insert (halfNode 1) (connectedMaster [] (halfNode 1)) ∅)
  slot2node slot := halfNode (slot / 8192)

theorem halves_lookup (node : Node) : halves.masters.lookup node =
    if node = halfNode 0 ∨ node = halfNode 1 then some (connectedMaster [] node) else none := by
  by_cases lower : node = halfNode 0
  · subst lower
    rw [if_pos (.inl rfl)]
    exact AList.lookup_insert _
  · rw [halves, AList.lookup_insert_ne lower]
    by_cases upper : node = halfNode 1
    · subst upper
      rw [if_pos (.inr rfl)]
      exact AList.lookup_insert _
    · rw [AList.lookup_insert_ne upper, if_neg (not_or.mpr ⟨lower, upper⟩)]
      rfl

theorem halves_clustered {keys : List CppString} (short : ∀ key ∈ keys, key.length < 2147483648) :
    Clustered twoNodes address keys halves where
  mode := rfl
  linked := by
    apply linked_of_lookup _ fun _ => rfl
    intro node master found
    rw [halves_lookup] at found
    split at found
    · exact (Option.some.inj found).symm
    · cases found
  slots key member := by
    apply slots_of_owner _ (short key member)
    intro slot bound
    have half : slot < 2 * 8192 := bound
    exact halfNode_address _ (by omega)
  masters key member := by
    have bound := RedisClient.hashSlot_lt key
    rw [(KeySlots.hash_slots_agree key (short key member)).1] at bound
    have half : keyHashSlot key / 8192 = 0 ∨ keyHashSlot key / 8192 = 1 := by omega
    have node : halves.slot2node (keyHashSlot key) = halfNode (keyHashSlot key / 8192) := rfl
    rw [halves_lookup, node, if_pos (half.imp (congrArg halfNode) (congrArg halfNode))]
    rfl

/-- Surroundings whose servers answer all commands from one store. -/
def nodesWith (store : Store Unit) : Surroundings := fun words =>
  plainEnv (fun _ => true) fun _ _ node =>
    .reply (serveNode Renaming.plain (Shards.split (nodeOf twoNodes) store) (address node) words).1

def serverWith (store : Store Unit) : Surroundings := fun words =>
  plainEnv (fun _ => true) fun _ _ node => .reply (serveAlone Renaming.plain store (address node) words).1

/-- A string, and a key that is missing. -/
theorem mget_alike_iff_mixed :
    let keys := [text "a", text "c", text "a"]
    (CRedisClient.mget (nodesWith Batches.mixed) 1 0 keys { client := halves }).1 =
        .ok (some (promised Batches.mixed keys)) ∧
      (CRedisClient.mget (serverWith Batches.mixed) 1 0 keys { client := lossyClient }).1 =
        .ok (some (promised Batches.mixed keys)) := by
  intro keys
  have union : (Shards.split (nodeOf twoNodes) Batches.mixed).union = Batches.mixed := Shards.union_split _
  have serves : ServesAlone Renaming.plain (Shards.split (nodeOf twoNodes) Batches.mixed).union
      (serverWith Batches.mixed) := by
    rw [union]
    exact fun _ _ _ => rfl
  have both := (@mget_alike_iff _ Renaming.plain _ (Shards.split (nodeOf twoNodes) Batches.mixed) address
    (nodesWith Batches.mixed) (serverWith Batches.mixed) 0 0 keys { client := halves } { client := lossyClient }
    (by decide) (halves_clustered (by decide)) (fun _ _ _ => rfl) lossyClient_single serves).mpr
      ⟨List.cons_ne_nil _ _, by rw [union]; decide⟩
  rwa [union] at both

/-- A key of another type is empty for the server, and leads to an exception in the cluster. -/
theorem mget_differs_mixed :
    let keys := [text "b"]
    (CRedisClient.mget (serverWith Batches.mixed) 1 0 keys { client := lossyClient }).1 =
        .ok (some { values := [[]], result := .ok 1 }) ∧
      ∃ errinfo, (CRedisClient.mget (nodesWith Batches.mixed) 1 0 keys { client := halves }).1 =
        .ok (some { values := [], result := .error errinfo }) ∧ errinfo.errtype = text "WRONGTYPE" := by
  intro keys
  have union : (Shards.split (nodeOf twoNodes) Batches.mixed).union = Batches.mixed := Shards.union_split _
  have alone := (@mget_single _ Renaming.plain Batches.mixed (serverWith Batches.mixed) 0 0 (fun _ _ _ => rfl) keys
    { client := lossyClient } lossyClient_single).2 (List.cons_ne_nil _ _)
  have fails := (@mget_clustered _ Renaming.plain _ (Shards.split (nodeOf twoNodes) Batches.mixed) address
    (nodesWith Batches.mixed) 0 0 (fun _ _ _ => rfl) keys (by decide) { client := halves }
    (halves_clustered (by decide))).1
  rw [union] at fails
  exact ⟨alone, fails ⟨text "b", List.mem_cons_self, by decide⟩⟩

end CppRedis.Soundness.Lookups
