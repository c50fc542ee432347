import CppRedis.Soundness.NullPointers
import CppRedis.Soundness.Renaming

/-! # Commands for many keys

In cluster mode `Mget` and `Mset` queue a command for each key, and the servers carry these out group by
group; else one server gets all keys in one command. Without faults both return the same and leave the same,
since keys alike are of one group, in which their commands keep their order.
-/

namespace CppRedis.Soundness.Batches

open Machine Machine.Keyspace Machine.Program Model.RedisClient Model.RedisCpp Model.Redis FaultFree Stores Grouping
  NullPointers

section

variable {σ : Type}

/-- Commands with the next addresses. -/
def issueAll (redisCmds : List CRedisCommand) (source : World σ) : World σ :=
  redisCmds.foldl (fun world redisCmd => { world with
    command := Function.update world.command world.commands redisCmd
    commands := world.commands + 1 }) source

/-- Only the commands are new. -/
theorem issueAll_same (redisCmds : List CRedisCommand) (source : World σ) :
    (issueAll redisCmds source).client = source.client ∧ (issueAll redisCmds source).servers = source.servers ∧
      ∀ command < source.commands, (issueAll redisCmds source).command command = source.command command := by
  induction redisCmds generalizing source with
  | nil => exact ⟨rfl, rfl, fun _ _ => rfl⟩
  | cons redisCmd redisCmds ih =>
    obtain ⟨client, servers, command⟩ := ih { source with
      command := Function.update source.command source.commands redisCmd, commands := source.commands + 1 }
    refine ⟨client, servers, fun other bound => (command other (Nat.lt_succ_of_lt bound)).trans ?_⟩
    exact Function.update_of_ne (Nat.ne_of_lt bound) _ _

theorem issueAll_commands (redisCmds : List CRedisCommand) (source : World σ) :
    (issueAll redisCmds source).commands = source.commands + redisCmds.length := by
  induction redisCmds generalizing source with
  | nil => rfl
  | cons redisCmd redisCmds ih =>
    refine (ih _).trans ?_
    rw [List.length_cons, Nat.add_assoc, Nat.add_comm 1]

theorem issueAll_command (redisCmds : List CRedisCommand) (source : World σ) :
    (List.range' source.commands redisCmds.length).map (issueAll redisCmds source).command = redisCmds := by
  induction redisCmds generalizing source with
  | nil => rfl
  | cons redisCmd redisCmds ih =>
    let next : World σ := { source with
      command := Function.update source.command source.commands redisCmd, commands := source.commands + 1 }
    rw [List.length_cons, List.range'_succ, List.map_cons]
    refine List.cons_eq_cons.mpr ⟨?_, ih next⟩
    refine ((issueAll_same redisCmds next).2.2 source.commands (Nat.lt_succ_self _)).trans ?_
    exact Function.update_self _ _ _

theorem map_issueAll {α β : Type} (redisCmd : α → CRedisCommand) (view : CRedisCommand → β) (elements : List α)
    (source : World σ) :
    (List.range' source.commands elements.length).map
        (fun command => view ((issueAll (elements.map redisCmd) source).command command)) =
      elements.map fun element => view (redisCmd element) := by
  have issued := congrArg (List.map view) (issueAll_command (elements.map redisCmd) source)
  rwa [List.map_map, List.map_map, List.length_map] at issued

theorem exists_of_issueAll {α : Type} {redisCmd : α → CRedisCommand} {elements : List α} {source : World σ}
    {command : ℕ} (member : command ∈ List.range' source.commands elements.length) :
    ∃ element ∈ elements, (issueAll (elements.map redisCmd) source).command command = redisCmd element := by
  have issued := map_issueAll redisCmd id elements source
  have inMap := List.mem_map_of_mem
    (f := fun command => id ((issueAll (elements.map redisCmd) source).command command)) member
  rw [issued] at inMap
  obtain ⟨element, inList, same⟩ := List.mem_map.mp inMap
  exact ⟨element, inList, same.symm⟩

def getCommand (strKey : CppString) : CRedisCommand where
  args := [text "get", strKey]
  nSlot := hashSlot strKey

def setCommand (entry : CppString × CppString) : CRedisCommand where
  args := [text "set", entry.1, entry.2]
  nSlot := hashSlot entry.1
  funcConv := .ok

theorem queueGets_ok (vecKey : List CppString) (ppLine : CRedisPipeline) (source : World σ) :
    queueGets ppLine vecKey source =
      .ok ({ ppLine with vecCmd := ppLine.vecCmd ++ List.range' source.commands vecKey.length },
        issueAll (vecKey.map getCommand) source) := by
  induction vecKey generalizing ppLine source with
  | nil =>
    rw [List.length_nil, List.range'_zero, List.append_nil]
    rfl
  | cons strKey vecKey ih =>
    refine (bind_of_ok (show queueImpl [text "get", strKey] (hashSlot strKey) ppLine .default source =
      .ok _ from rfl)).trans ?_
    rw [ih, List.length_cons, List.range'_succ, List.append_assoc]
    rfl

theorem queueSets_ok {vecKey vecVal : List CppString} (lengths : vecKey.length = vecVal.length)
    (ppLine : CRedisPipeline) (source : World σ) :
    queueSets ppLine vecKey vecVal source =
      .ok ({ ppLine with vecCmd := ppLine.vecCmd ++ List.range' source.commands (vecKey.zip vecVal).length },
        issueAll ((vecKey.zip vecVal).map setCommand) source) := by
  induction vecKey generalizing vecVal ppLine source with
  | nil =>
    rw [List.zip_nil_left, List.length_nil, List.range'_zero, List.append_nil]
    rfl
  | cons strKey vecKey ih =>
    cases vecVal with
    | nil => cases lengths
    | cons strVal vecVal =>
      refine (bind_of_ok
        (show queueImpl [text "set", strKey, strVal] (hashSlot strKey) ppLine .ok source = .ok _ from rfl)).trans ?_
      rw [ih (Nat.succ.inj lengths), List.zip_cons_cons, List.length_cons, List.range'_succ, List.append_assoc]
      rfl

end

section

variable {o : Type} {owner : ℕ → CppString × ℤ} {net : Network (Stores owner o)} (format : Format o)
  (serves : net.serve = serveNode format) {place : ℕ → CppString × ℤ} {key : ℕ → CppString}
include serves

/-- A command for one key does to the union what it does to a store. -/
theorem answer_on {command : ℕ} {source : World (Pool (Stores owner o))} {keyCommand : KeyCommand}
    (parsed : parse (source.command command).args = some (.on (key command) keyCommand))
    (placed : place command = nodeOf owner (key command)) :
    (answer net (place command) command source).servers.redis.union =
        Function.update source.servers.redis.union (key command)
          (keyCommand.act format (source.servers.redis.union (key command))).2 ∧
      (answer net (place command) command source).command = Function.update source.command command
        { source.command command with
          pReply := some (keyCommand.act format (source.servers.redis.union (key command))).1 } := by
  obtain ⟨reply, union⟩ := serveNode_on format parsed source.servers.redis
  simp only [answer, placed, serves, reply]
  exact ⟨union, trivial⟩

/-- Each command acts on its key in what those before it left. What every command keeps, and what decides its reply, may
be said of the stores in between. -/
theorem answerAll_on {keyCommand : ℕ → KeyCommand} {reply : ℕ → RedisReply} {kept : Store o → Prop} {cmds : List ℕ}
    (nodup : cmds.Nodup) {source : World (Pool (Stores owner o))} (here : kept source.servers.redis.union)
    (parsed : ∀ command ∈ cmds, parse (source.command command).args = some (.on (key command) (keyCommand command)))
    (placed : ∀ command ∈ cmds, place command = nodeOf owner (key command))
    (acts : ∀ command ∈ cmds, ∀ store : Store o, kept store →
      ((keyCommand command).act format (store (key command))).1 = reply command ∧
        kept (store.atKey (key command) ((keyCommand command).act format)).2) :
    (answerAll net place cmds source).servers.redis.union =
        cmds.foldl (fun store command => (store.atKey (key command) ((keyCommand command).act format)).2)
          source.servers.redis.union ∧
      kept (answerAll net place cmds source).servers.redis.union ∧
      (∀ command ∉ cmds, (answerAll net place cmds source).command command = source.command command) ∧
      ∀ command ∈ cmds, (answerAll net place cmds source).command command = { source.command command with
        pReply := some (reply command) } := by
  induction cmds generalizing source with
  | nil => exact ⟨rfl, here, fun _ _ => rfl, nofun⟩
  | cons first cmds ih =>
    obtain ⟨new, nodup⟩ := List.nodup_cons.mp nodup
    obtain ⟨union, command⟩ :=
      answer_on format serves (parsed first List.mem_cons_self) (placed first List.mem_cons_self)
    obtain ⟨replied, next⟩ := acts first List.mem_cons_self _ here
    have others : ∀ other, other ≠ first →
        (answer net (place first) first source).command other = source.command other := by
      intro other different
      rw [command, Function.update_of_ne different]
    have distinct : ∀ other ∈ cmds, other ≠ first := fun other member same => new (same ▸ member)
    obtain ⟨later, there, outside, inside⟩ := @ih nodup (answer net (place first) first source) (by rwa [union])
      (fun other member => by
        rw [others other (distinct other member)]
        exact parsed other (List.mem_cons_of_mem _ member))
      (fun other member => placed other (List.mem_cons_of_mem _ member))
      (fun other member => acts other (List.mem_cons_of_mem _ member))
    refine ⟨later.trans (by rw [union]; rfl), there, fun other absent => ?_, fun other member => ?_⟩
    · rw [List.mem_cons, not_or] at absent
      exact (outside other absent.2).trans (others other absent.1)
    · rcases List.mem_cons.mp member with rfl | member
      · refine (outside other new).trans ?_
        rw [command, Function.update_self, replied]
      · refine (inside other member).trans ?_
        rw [others other (distinct other member)]

/-- Reading changes nothing, so all replies are of the store at the start. -/
theorem answerAll_gets {cmds : List ℕ} (nodup : cmds.Nodup) {source : World (Pool (Stores owner o))}
    (gets : ∀ command ∈ cmds, (source.command command).args = [text "get", key command])
    (placed : ∀ command ∈ cmds, place command = nodeOf owner (key command)) :
    (answerAll net place cmds source).servers.redis.union = source.servers.redis.union ∧
      ∀ command ∈ cmds, (answerAll net place cmds source).command command = { source.command command with
        pReply := some (getReply (source.servers.redis.union (key command))) } := by
  obtain ⟨-, union, -, replies⟩ := @answerAll_on _ _ _ format serves _ key (fun _ => .get)
    (fun command => getReply (source.servers.redis.union (key command)))
    (fun store => store = source.servers.redis.union) cmds nodup source rfl
    (fun command member => by rw [gets command member]; exact parse_get _) placed
    fun command _ store same => ⟨by rw [same]; rfl, (Function.update_eq_self _ _).trans same⟩
  exact ⟨union, replies⟩

/-- Writing puts the values one after the other. -/
theorem answerAll_sets {cmds : List ℕ} (nodup : cmds.Nodup) {value : ℕ → CppString}
    {source : World (Pool (Stores owner o))}
    (sets : ∀ command ∈ cmds, (source.command command).args = [text "set", key command, value command])
    (placed : ∀ command ∈ cmds, place command = nodeOf owner (key command)) :
    (answerAll net place cmds source).servers.redis.union = source.servers.redis.union.putAll
        (cmds.map fun command => (key command, { value := .string (value command) })) ∧
      ∀ command ∈ cmds, (answerAll net place cmds source).command command = { source.command command with
        pReply := some ok } := by
  obtain ⟨union, -, -, replies⟩ := @answerAll_on _ _ _ format serves _ key (fun command => .set (value command))
    (fun _ => ok) (fun _ => True) cmds nodup source trivial
    (fun command member => by rw [sets command member]; exact parse_set _ _) placed
    fun _ _ _ _ => ⟨rfl, trivial⟩
  refine ⟨union.trans ?_, replies⟩
  rw [Keyspace.putAll, List.foldl_map]
  rfl

end

section

variable {o : Type}

/-- The string that a caller sees for a key. -/
def shown : Option (Entry o) → CppString
  | some { value := .string str, .. } => str
  | _ => []

/-- `FetchString` on a reply to `GET`: an error for a key of another type. -/
theorem fetchString_getReply (entry : Option (Entry o)) :
    fetchResult fetchString .default (some (getReply entry)) = .ok (.success, some (shown entry)) ∨
      fetchResult fetchString .default (some (getReply entry)) = .ok (.replyErr, none) ∧ shown entry = [] := by
  rcases entry with _ | ⟨str | value, ttl⟩
  · exact .inl rfl
  · exact .inl rfl
  · exact .inr ⟨rfl, rfl⟩

theorem fetchGets_ok {ρ : Type} {source : World (Pool ρ)} {entry : ℕ → Option (Entry o)} (vecCmd : List ℕ)
    {ppLine : CRedisPipeline} (rest : ppLine.vecCmd.drop ppLine.nCursor = vecCmd) (strVal : CppString)
    (pvecVal : List CppString) (plain : ∀ command ∈ vecCmd, (source.command command).funcConv = .default)
    (stored : ∀ command ∈ vecCmd, (source.command command).pReply = some (getReply (entry command))) :
    fetchGets ppLine strVal pvecVal (vecCmd.length + 1) source =
      .ok ((.success, pvecVal ++ vecCmd.map fun command => shown (entry command)), source) := by
  induction vecCmd generalizing ppLine strVal pvecVal with
  | nil =>
    rw [List.length_nil, fetchGets, fetchReply_of_end (ρ := ρ) fetchString rest, List.map_nil, List.append_nil]
    rfl
  | cons command vecCmd ih =>
    obtain ⟨same, rest⟩ := fetchReply_of_drop (ρ := ρ) fetchString rest
    have next := fun strVal pvecVal => @ih { ppLine with nCursor := ppLine.nCursor + 1 } rest strVal pvecVal
      (fun other member => plain other (List.mem_cons_of_mem _ member))
      (fun other member => stored other (List.mem_cons_of_mem _ member))
    have fetched {result : ReturnCode × Option CppString}
        (converted : fetchResult fetchString .default (some (getReply (entry command))) = .ok result) :
        fetchCommand fetchString command source = .ok (result, source) := by
      rw [fetchCommand, bind_of_ok (get_apply source), plain command List.mem_cons_self,
        stored command List.mem_cons_self, converted]
      rfl
    have joined : pvecVal ++ (command :: vecCmd).map (fun command => shown (entry command)) =
        pvecVal ++ [shown (entry command)] ++ vecCmd.map fun command => shown (entry command) := by
      rw [List.append_assoc]
      rfl
    rw [List.length_cons, fetchGets, same, joined]
    rcases fetchString_getReply (entry command) with string | ⟨wrong, empty⟩
    · refine (bind_of_ok ((bind_of_ok (fetched string)).trans rfl)).trans ?_
      exact next _ _
    · rw [empty]
      refine (bind_of_ok ((bind_of_ok (fetched wrong)).trans rfl)).trans ?_
      exact next _ _

theorem fetchSets_ok {ρ : Type} {source : World (Pool ρ)} (vecCmd : List ℕ) {ppLine : CRedisPipeline}
    (rest : ppLine.vecCmd.drop ppLine.nCursor = vecCmd) (nRet : ReturnCode)
    (conv : ∀ command ∈ vecCmd, (source.command command).funcConv = .ok)
    (stored : ∀ command ∈ vecCmd, (source.command command).pReply = some ok) :
    fetchSets ppLine nRet (vecCmd.length + 1) source = .ok (nRet, source) := by
  induction vecCmd generalizing ppLine with
  | nil =>
    rw [List.length_nil, fetchSets, fetchReply_of_end (ρ := ρ) fetchString rest]
    rfl
  | cons command vecCmd ih =>
    obtain ⟨same, rest⟩ := fetchReply_of_drop (ρ := ρ) fetchString rest
    have fetched : fetchCommand fetchString command source = .ok ((.success, some (text "OK")), source) := by
      rw [fetchCommand, bind_of_ok (get_apply source), conv command List.mem_cons_self,
        stored command List.mem_cons_self]
      rfl
    rw [List.length_cons, fetchSets, same]
    refine (bind_of_ok ((bind_of_ok fetched).trans rfl)).trans ?_
    exact @ih { ppLine with nCursor := ppLine.nCursor + 1 } rest
      (fun other member => conv other (List.mem_cons_of_mem _ member))
      (fun other member => stored other (List.mem_cons_of_mem _ member))

theorem fetchStrings_mget (entries : List (Option (Entry o))) :
    fetchStrings (entries.map mgetReply) = (.success, entries.map shown) := by
  induction entries with
  | nil => rfl
  | cons entry entries ih =>
    rw [List.map_cons, fetchStrings, ih]
    rcases entry with _ | ⟨str | value, ttl⟩ <;> rfl

theorem fetchStringArray_mget (store : Store o) (vecKey : List CppString) :
    fetchStringArray (.array (vecKey.map fun key => mgetReply (store key))) =
      (.success, some (vecKey.map fun key => shown (store key))) := by
  have strings := fetchStrings_mget (vecKey.map store)
  rw [List.map_map, List.map_map] at strings
  rw [fetchStringArray]
  exact congrArg (fun result : ReturnCode × List CppString => (result.1, some result.2)) strings

end

section

variable {σ : Type} (servers : Servers σ) {source : World σ} {vecKey : List CppString} (nonempty : vecKey ≠ [])
  (cluster : source.client.bCluster = true)
include nonempty cluster

theorem mget_of_cluster (pvecVal : List CppString) :
    mget servers vecKey pvecVal source = (do
      let ppLine ← queueGets {} vecKey
      let _ ← flushPipeline servers (some ppLine)
      fetchGets ppLine [] pvecVal (ppLine.vecCmd.length + 1)) source := by
  cases vecKey with
  | nil => exact absurd rfl nonempty
  | cons strKey vecKey =>
    rw [mget.eq_def]
    refine (bind_of_ok (get_apply source)).trans ?_
    rw [cluster, Bool.not_true, if_neg Bool.false_ne_true]

theorem mset_of_cluster (vecVal : List CppString) :
    mset servers vecKey vecVal source = (do
      let ppLine ← queueSets {} vecKey vecVal
      let _ ← flushPipeline servers (some ppLine)
      fetchSets ppLine .success (ppLine.vecCmd.length + 1)) source := by
  cases vecKey with
  | nil => exact absurd rfl nonempty
  | cons strKey vecKey =>
    rw [mset.eq_def]
    refine (bind_of_ok (get_apply source)).trans ?_
    rw [cluster, Bool.not_true, if_neg Bool.false_ne_true]

end

theorem parsePairs_interleave {vecKey vecVal : List CppString} (lengths : vecKey.length = vecVal.length) :
    parsePairs (interleave vecKey vecVal) = some (vecKey.zip vecVal) := by
  induction vecKey generalizing vecVal with
  | nil => rfl
  | cons strKey vecKey ih =>
    cases vecVal with
    | nil => cases lengths
    | cons strVal vecVal =>
      rw [interleave, parsePairs, ih (Nat.succ.inj lengths)]
      rfl

theorem parse_mset {words : List CppString} (nonempty : words ≠ []) :
    parse (text "mset" :: words) = (parsePairs words).map .mset := by
  cases words with
  | nil => exact absurd rfl nonempty
  | cons first words => rfl

/-- The slots of these keys. -/
def slotsOf (vecKey : List CppString) : Set ℕ := { slot | ∃ strKey ∈ vecKey, hashSlot strKey = slot }

section

variable {o : Type} (format : Format o)

section

variable {net : Network (Store o)} (faultless : Faultless net) (serves : net.serve = serveAlone format)
  (address : ℕ → ℕ) {node : CppString × ℤ} {source : World (Pool (Store o))}
include faultless serves

theorem mget_alone {strKey : CppString} {vecKey : List CppString}
    (steady : Steady (slotsOf (strKey :: vecKey)) (fun _ => node) source) (single : source.client.bCluster = false) :
    ∃ target, mget (net.servers address) (strKey :: vecKey) [] source =
        .ok ((.success, (strKey :: vecKey).map fun key => shown (source.servers.redis key)), target) ∧
      target.servers.redis = source.servers.redis := by
  have served : net.serve source.servers.redis node (text "mget" :: strKey :: vecKey) =
      (.array ((strKey :: vecKey).map fun key => mgetReply (source.servers.redis key)), source.servers.redis) := by
    rw [serves, serveAlone, parse_mget]
    rfl
  have fetched : fetchResult fetchStringArray .default
      (some (net.serve source.servers.redis node (text "mget" :: strKey :: vecKey)).1) =
      .ok (.success, some ((strKey :: vecKey).map fun key => shown (source.servers.redis key))) := by
    rw [served]
    simp only [fetchResult, fetchStringArray_mget]
    rfl
  obtain ⟨target, ran, -, -, redis⟩ := executeImpl_ok faultless address steady (List.cons_ne_nil _ _)
    ⟨strKey, List.mem_cons_self, rfl⟩ fetched
  refine ⟨target, ?_, redis.trans (by rw [served])⟩
  rw [mget.eq_def]
  refine (bind_of_ok (get_apply source)).trans ?_
  rw [single, Bool.not_false, if_pos rfl]
  exact (bind_of_ok (show setArgs (text "mget") (.vec (strKey :: vecKey)) source = .ok _ from rfl)).trans
    ((bind_of_ok ran).trans rfl)

theorem mset_alone {strKey : CppString} {vecKey vecVal : List CppString}
    (steady : Steady (slotsOf (strKey :: vecKey)) (fun _ => node) source) (single : source.client.bCluster = false)
    (lengths : (strKey :: vecKey).length = vecVal.length) :
    ∃ target, mset (net.servers address) (strKey :: vecKey) vecVal source = .ok (.success, target) ∧
      target.servers.redis = source.servers.redis.putAll
        (((strKey :: vecKey).zip vecVal).map fun entry => (entry.1, { value := .string entry.2 })) := by
  have words : interleave (strKey :: vecKey) vecVal ≠ [] := by
    cases vecVal with
    | nil => cases lengths
    | cons strVal vecVal => exact List.cons_ne_nil _ _
  have served : net.serve source.servers.redis node (text "mset" :: interleave (strKey :: vecKey) vecVal) =
      (ok, source.servers.redis.putAll
        (((strKey :: vecKey).zip vecVal).map fun entry => (entry.1, { value := .string entry.2 }))) := by
    rw [serves, serveAlone, parse_mset words, parsePairs_interleave lengths]
    rfl
  have fetched : fetchResult fetchString .ok
      (some (net.serve source.servers.redis node (text "mset" :: interleave (strKey :: vecKey) vecVal)).1) =
      .ok (.success, some (text "OK")) := by
    rw [served]
    rfl
  have args : setArgs (text "mset") (.vecVec (strKey :: vecKey) vecVal) source =
      .ok (text "mset" :: interleave (strKey :: vecKey) vecVal, source) := by
    rw [setArgs, SetArgs.words, if_neg (not_not.mpr lengths)]
    rfl
  obtain ⟨target, ran, -, -, redis⟩ := executeImpl_ok faultless address steady (List.cons_ne_nil _ _)
    ⟨strKey, List.mem_cons_self, rfl⟩ fetched
  refine ⟨target, ?_, redis.trans (by rw [served])⟩
  rw [mset.eq_def]
  refine (bind_of_ok (get_apply source)).trans ?_
  rw [single, Bool.not_false, if_pos rfl]
  exact (bind_of_ok args).trans ((bind_of_ok ran).trans rfl)

end

section

variable {owner : ℕ → CppString × ℤ} {net : Network (Stores owner o)} (faultless : Faultless net)
  (serves : net.serve = serveNode format) (address : ℕ → ℕ) {source : World (Pool (Stores owner o))}

/-- The key of a command. -/
def keyOf {σ : Type} (world : World σ) (command : ℕ) : CppString := (world.command command).args.getD 1 []

/-- The value of a command. -/
def valueOf {σ : Type} (world : World σ) (command : ℕ) : CppString := (world.command command).args.getD 2 []

include faultless

/-- A pipeline of commands for keys with servers is carried out in an order that keeps that of each key. -/
theorem flushKeys_ok {vecKey : List CppString} (steady : Steady (slotsOf vecKey) owner source) {vecCmd : List ℕ}
    (nodup : vecCmd.Nodup)
    (commands : ∀ command ∈ vecCmd, keyOf source command ∈ vecKey ∧ (source.command command).args ≠ [] ∧
      (source.command command).nSlot = (hashSlot (keyOf source command) : ℕ)) :
    ∃ order target, flushPipeline (net.servers address) (some { vecCmd := vecCmd }) source = .ok (.success, target) ∧
      UpToPool (answerAll net (fun command => nodeOf owner (keyOf source command)) order source) target ∧
      order.Nodup ∧ (∀ command, command ∈ order ↔ command ∈ vecCmd) ∧
      ∀ strKey, order.filter (fun command => keyOf source command = strKey) =
        vecCmd.filter fun command => keyOf source command = strKey := by
  obtain ⟨target, ran, same⟩ := @flushPipeline_ok _ net (slotsOf vecKey) owner source faultless address
    (fun command => nodeOf owner (keyOf source command)) steady { vecCmd := vecCmd } fun command member => by
      obtain ⟨known, words, slot⟩ := commands command member
      exact ⟨_, ⟨_, known, rfl⟩, slot, rfl, words⟩
  refine ⟨_, target, ran, same, (groupCmds_perm _ _ _).nodup_iff.mpr nodup, mem_groupCmds _ _ _, fun strKey => ?_⟩
  apply groupCmds_filter
  intro command member other member' isKey isKey'
  rw [matchedServer, matchedServer, (commands command member).2.2, (commands other member').2.2,
    of_decide_eq_true isKey, of_decide_eq_true isKey']

include serves

theorem mget_cluster {vecKey : List CppString} (nonempty : vecKey ≠ [])
    (steady : Steady (slotsOf vecKey) owner source) (cluster : source.client.bCluster = true) :
    ∃ target, mget (net.servers address) vecKey [] source =
        .ok ((.success, vecKey.map fun key => shown (source.servers.redis.union key)), target) ∧
      target.servers.redis.union = source.servers.redis.union := by
  let issued := issueAll (vecKey.map getCommand) source
  let vecCmd := List.range' source.commands vecKey.length
  obtain ⟨client, servers, -⟩ := issueAll_same (vecKey.map getCommand) source
  have isGet : ∀ command ∈ vecCmd, keyOf issued command ∈ vecKey ∧
      issued.command command = getCommand (keyOf issued command) := by
    intro command member
    obtain ⟨key, known, same⟩ := exists_of_issueAll member
    have isKey : keyOf issued command = key := by rw [keyOf, same]; rfl
    rw [isKey]
    exact ⟨known, same⟩
  have distinct : vecCmd.Nodup := List.nodup_range'
  obtain ⟨order, flushed, ranFlush, ⟨server, log, rfl, -⟩, nodup, members, -⟩ := flushKeys_ok faultless address
    (steady.of_same client (by rw [servers])) distinct fun command member => by
      obtain ⟨known, get⟩ := isGet command member
      exact ⟨known, by rw [get]; exact List.cons_ne_nil _ _, by rw [get]; rfl⟩
  obtain ⟨union, replies⟩ := @answerAll_gets _ _ _ format serves (fun command => nodeOf owner (keyOf issued command))
    (keyOf issued) order nodup issued
    (fun command member => by rw [(isGet command ((members command).mp member)).2]; rfl) fun _ _ => rfl
  let carried := answerAll net (fun command => nodeOf owner (keyOf issued command)) order issued
  have stored : ∀ command ∈ vecCmd, carried.command command = { getCommand (keyOf issued command) with
      pReply := some (getReply (source.servers.redis.union (keyOf issued command))) } := by
    intro command member
    rw [replies command ((members command).mpr member), (isGet command member).2, servers]
  have fetched := @fetchGets_ok o _ (repool server log carried)
    (fun command => source.servers.redis.union (keyOf issued command)) vecCmd { vecCmd := vecCmd }
    rfl [] [] (fun command member => congrArg CRedisCommand.funcConv (stored command member))
    fun command member => congrArg CRedisCommand.pReply (stored command member)
  have values := map_issueAll getCommand
    (fun redisCmd => shown (source.servers.redis.union (redisCmd.args.getD 1 []))) vecKey source
  refine ⟨repool server log carried, ?_, union.trans (by rw [servers])⟩
  rw [mget_of_cluster (net.servers address) nonempty cluster [], bind_of_ok (queueGets_ok vecKey {} source)]
  refine (bind_of_ok ranFlush).trans (fetched.trans ?_)
  exact congrArg (fun values => Except.ok ((ReturnCode.success, values), repool server log carried)) values

/-- The values that are put for each key are those of its last command. -/
theorem mset_cluster {vecKey vecVal : List CppString} (nonempty : vecKey ≠ []) (lengths : vecKey.length = vecVal.length)
    (steady : Steady (slotsOf vecKey) owner source) (cluster : source.client.bCluster = true) :
    ∃ target, mset (net.servers address) vecKey vecVal source = .ok (.success, target) ∧
      target.servers.redis.union = source.servers.redis.union.putAll
        ((vecKey.zip vecVal).map fun entry => (entry.1, { value := .string entry.2 })) := by
  let issued := issueAll ((vecKey.zip vecVal).map setCommand) source
  let vecCmd := List.range' source.commands (vecKey.zip vecVal).length
  obtain ⟨client, servers, -⟩ := issueAll_same ((vecKey.zip vecVal).map setCommand) source
  have isSet : ∀ command ∈ vecCmd, keyOf issued command ∈ vecKey ∧
      issued.command command = setCommand (keyOf issued command, valueOf issued command) := by
    intro command member
    obtain ⟨⟨key, value⟩, known, same⟩ := exists_of_issueAll member
    have isKey : keyOf issued command = key := by rw [keyOf, same]; rfl
    have isValue : valueOf issued command = value := by rw [valueOf, same]; rfl
    rw [isKey, isValue]
    exact ⟨(List.of_mem_zip known).1, same⟩
  have distinct : vecCmd.Nodup := List.nodup_range'
  obtain ⟨order, flushed, ranFlush, ⟨server, log, rfl, -⟩, nodup, members, kept⟩ := flushKeys_ok faultless address
    (steady.of_same client (by rw [servers])) distinct fun command member => by
      obtain ⟨known, set⟩ := isSet command member
      exact ⟨known, by rw [set]; exact List.cons_ne_nil _ _, by rw [set]; rfl⟩
  obtain ⟨union, replies⟩ := @answerAll_sets _ _ _ format serves (fun command => nodeOf owner (keyOf issued command))
    (keyOf issued) order nodup (valueOf issued) issued
    (fun command member => by rw [(isSet command ((members command).mp member)).2]; rfl) fun _ _ => rfl
  let carried := answerAll net (fun command => nodeOf owner (keyOf issued command)) order issued
  have stored : ∀ command ∈ vecCmd, carried.command command =
      { setCommand (keyOf issued command, valueOf issued command) with pReply := some ok } := by
    intro command member
    rw [replies command ((members command).mpr member), (isSet command member).2]
  have fetched := @fetchSets_ok _ (repool server log carried) vecCmd { vecCmd := vecCmd } rfl .success
    (fun command member => congrArg CRedisCommand.funcConv (stored command member))
    fun command member => congrArg CRedisCommand.pReply (stored command member)
  have entries := map_issueAll setCommand
    (fun redisCmd => (redisCmd.args.getD 1 [], ({ value := .string (redisCmd.args.getD 2 []) } : Entry o)))
    (vecKey.zip vecVal) source
  refine ⟨repool server log carried, ?_, ?_⟩
  · rw [mset_of_cluster (net.servers address) nonempty cluster, bind_of_ok (queueSets_ok lengths {} source)]
    exact (bind_of_ok ranFlush).trans fetched
  · refine union.trans ?_
    rw [servers, ← show _ = (vecKey.zip vecVal).map (fun entry => (entry.1, ({ value := .string entry.2 } : Entry o)))
      from entries]
    apply putAll_eq_of_filter
    intro key
    rw [List.filter_map, List.filter_map]
    exact congrArg (List.map _) (kept key)

end

/-- What `Mset` puts. -/
def put (vecKey vecVal : List CppString) (store : Store o) : Store o :=
  store.putAll ((vecKey.zip vecVal).map fun entry => (entry.1, { value := .string entry.2 }))

/-- Over a cluster and over one server with the same data, both methods return the same and leave the same: `Mget` the
values and the data as it was, and `Mset` the values put one after the other. -/
theorem mget_mset_agree {owner : ℕ → CppString × ℤ} {net : Network (Stores owner o)} {net' : Network (Store o)}
    (faultless : Faultless net) (faultless' : Faultless net') (serves : net.serve = serveNode format)
    (serves' : net'.serve = serveAlone format) (address address' : ℕ → ℕ) {node : CppString × ℤ}
    {vecKey : List CppString}
    {source : World (Pool (Stores owner o))} {alone : World (Pool (Store o))}
    (steady : Steady (slotsOf vecKey) owner source) (steady' : Steady (slotsOf vecKey) (fun _ => node) alone)
    (cluster : source.client.bCluster = true) (single : alone.client.bCluster = false)
    (same : source.servers.redis.union = alone.servers.redis) :
    (∃ result target target', mget (net.servers address) vecKey [] source = .ok (result, target) ∧
      mget (net'.servers address') vecKey [] alone = .ok (result, target') ∧
      target.servers.redis.union = target'.servers.redis ∧
      result = (.success, vecKey.map fun key => shown (alone.servers.redis key)) ∧
      target'.servers.redis = alone.servers.redis) ∧
    ∀ vecVal, vecKey.length = vecVal.length →
      ∃ nRet target target', mset (net.servers address) vecKey vecVal source = .ok (nRet, target) ∧
        mset (net'.servers address') vecKey vecVal alone = .ok (nRet, target') ∧
        target.servers.redis.union = target'.servers.redis ∧
        nRet = .success ∧ target'.servers.redis = put vecKey vecVal alone.servers.redis := by
  cases vecKey with
  | nil =>
    exact ⟨⟨_, source, alone, rfl, rfl, same, rfl, rfl⟩, fun vecVal _ => ⟨_, source, alone, rfl, rfl, same, rfl, rfl⟩⟩
  | cons strKey vecKey =>
    constructor
    · obtain ⟨target, ran, union⟩ := mget_cluster format faultless serves address (List.cons_ne_nil _ _) steady cluster
      obtain ⟨target', ran', redis⟩ := mget_alone format faultless' serves' address' steady' single
      rw [same] at ran
      exact ⟨_, target, target', ran, ran', union.trans (same.trans redis.symm), rfl, redis⟩
    · intro vecVal lengths
      obtain ⟨target, ran, union⟩ :=
        mset_cluster format faultless serves address (List.cons_ne_nil _ _) lengths steady cluster
      obtain ⟨target', ran', redis⟩ := mset_alone format faultless' serves' address' steady' single lengths
      rw [same] at union
      exact ⟨_, target, target', ran, ran', union.trans redis.symm, rfl, redis⟩

end

/-- A client of one server. -/
def overOne {ρ : Type} (redis : ρ) : World (Pool ρ) where
  client := { vecRedisServ := [0] }
  servers := { server := fun _ => linkedServer (halfAt 0), servers := 1, redis := redis }

theorem overOne_steady {ρ : Type} (redis : ρ) (slots : Set ℕ) : Steady slots (fun _ => halfAt 0) (overOne redis) where
  valid := rfl
  server _ _ := ⟨0, fun _ => rfl, linkedServer_linked (List.cons_ne_nil _ _)⟩

/-- A string, and a list under another key. -/
def mixed : Store Unit := fun key =>
  if key = text "a" then some { value := .string (text "v"), ttl := some 10 }
  else if key = text "b" then some { value := .other () }
  else none

theorem mget_mset_agree_mixed :
    let vecKey := [text "a", text "b", text "c", text "a"]
    let net := reliable (serveNode Renaming.plain)
    let net' := reliable (serveAlone Renaming.plain)
    let source := overTwoNodes (Shards.split (nodeOf twoNodes) mixed)
    (∃ result target target', mget (net.servers id) vecKey [] source = .ok (result, target) ∧
      mget (net'.servers id) vecKey [] (overOne mixed) = .ok (result, target') ∧
      target.servers.redis.union = target'.servers.redis ∧ result = (.success, [text "v", [], [], text "v"]) ∧
      target'.servers.redis = mixed) ∧
    ∀ vecVal, vecKey.length = vecVal.length →
      ∃ nRet target target', mset (net.servers id) vecKey vecVal source = .ok (nRet, target) ∧
        mset (net'.servers id) vecKey vecVal (overOne mixed) = .ok (nRet, target') ∧
        target.servers.redis.union = target'.servers.redis ∧
        nRet = .success ∧ target'.servers.redis = put vecKey vecVal mixed := by
  have steady := overTwoNodes_steady (Shards.split (nodeOf twoNodes) mixed)
  refine mget_mset_agree Renaming.plain (reliable_faultless _) (reliable_faultless _) rfl rfl id id
    ⟨rfl, fun slot covered => steady.server slot ?_⟩ (overOne_steady mixed _) rfl rfl (Shards.union_split mixed)
  obtain ⟨key, -, rfl⟩ := covered
  exact hashSlot_lt key

end CppRedis.Soundness.Batches
