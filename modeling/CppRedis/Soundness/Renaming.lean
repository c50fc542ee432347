import CppRedis.Soundness.FaultFree
import CppRedis.Soundness.Stores
import CppRedis.Model.RedisClient.Commands

/-! # Renaming over a cluster

`Rename` and `Renamenx` without faults, seen on the union of the nodes' stores. Keys of one server go to it
in one command, which the node takes only when they are in one slot; keys of different servers are moved by
`DUMP`, `PTTL`, `RESTORE` and `DEL`.
-/

namespace CppRedis.Soundness.Renaming

open Machine Machine.Keyspace Machine.Program Model.RedisClient Model.RedisCpp Model.Redis FaultFree Stores

variable {o : Type} {owner : ℕ → CppString × ℤ}

/-- The client is ready, and the nodes hold this together. -/
structure Holds (client : CRedisClient) (store : Store o) (world : World (Pool (Stores owner o))) : Prop where
  steady : Steady allSlots owner world
  client : world.client = client
  union : world.servers.redis.union = store

/-- `RENAME` on one server, and the code for it. -/
def renameAlone (format : Format o) (key newKey : CppString) (store : Store o) : ReturnCode × Store o :=
  if (store key).isNone then (.replyErr, store)
  else (.success, (Model.Redis.execute format (.rename key newKey) store).2)

/-- `RENAMENX` on one server, and the code for it. -/
def renamenxAlone (format : Format o) (key newKey : CppString) (store : Store o) : ReturnCode × Store o :=
  if (store key).isNone then (.replyErr, store)
  else if (store newKey).isSome then (.objExist, store)
  else (.success, (Model.Redis.execute format (.renamenx key newKey) store).2)

/-- A method returns a code and leaves a store. -/
def Meets (program : Action (Pool (Stores owner o)) ReturnCode) (source : World (Pool (Stores owner o)))
    (expected : ReturnCode × Store o) : Prop :=
  ∃ target, program source = .ok (expected.1, target) ∧ target.servers.redis.union = expected.2

/-- A time to live that passes a `long` and is not zero, or none. -/
def TtlKept (longBits : ℕ) (ttl : Option ℕ) : Prop :=
  ∀ left, ttl = some left → left ≠ 0 ∧ (left : ℤ).bmod (2 ^ longBits) = left

variable {net : Network (Stores owner o)} (faultless : Faultless net) (format : Format o)
  (serves : net.serve = serveNode format) (address : ℕ → ℕ) (client : CRedisClient) (store : Store o)
include faultless serves

section

variable {α : Type} {args : List CppString} {funcFetch : Fetch α} {funcConv : Convert} {result : ReturnCode × Option α}

/-- A method for one key does on the union what its command does. -/
theorem executeImpl_on {key : CppString} {command : KeyCommand} (parsed : parse args = some (.on key command))
    (fetched : fetchResult funcFetch funcConv (some (command.act format (store key)).1) = .ok result) :
    Simulates (Holds client) (executeImpl (net.servers address) args (hashSlot key) funcFetch funcConv) store result
      (Function.update store key (command.act format (store key)).2) := by
  rintro source ⟨steady, rfl, rfl⟩
  have words : args ≠ [] := by
    rintro rfl
    cases parsed
  obtain ⟨reply, union⟩ := serveNode_on format parsed source.servers.redis
  obtain ⟨target, ran, ready, same, redis⟩ :=
    @executeImpl_ok _ net allSlots owner source faultless address α steady args words key
    (hashSlot_lt key) funcFetch funcConv result
      (by rw [serves]; exact (congrArg (fun reply => fetchResult _ _ (some reply)) reply).trans fetched)
  refine ⟨target, ran, ready, same, ?_⟩
  rw [redis, serves]
  exact union

theorem del_sim (key : CppString) :
    Simulates (Holds client) (del (net.servers address) key) store
      (.success, some (if (store key).isSome then 1 else 0)) (store.erase key) :=
  executeImpl_on faultless format serves address _ _ (parse_del key) rfl

theorem exists_sim (key : CppString) :
    Simulates (Holds client) (exists_ (net.servers address) key) store
      (.success, some (if (store key).isSome then 1 else 0)) store := by
  have sim := @executeImpl_on _ _ _ faultless format serves address client store _ _ fetchInteger .default _ key .exists
    (parse_exists key) rfl
  rwa [KeyCommand.act, Function.update_eq_self] at sim

theorem dump_sim (key : CppString) :
    Simulates (Holds client) (dump (net.servers address) key) store
      (.success, some ((store key).elim [] fun entry => format.dump entry.value)) store := by
  have fetched : fetchResult fetchString .default (some (KeyCommand.dump.act format (store key)).1) =
      .ok (.success, some ((store key).elim [] fun entry => format.dump entry.value)) := by
    cases held : store key <;> rfl
  have sim := executeImpl_on faultless format serves address client store (parse_dump key) fetched
  rwa [KeyCommand.act, Function.update_eq_self] at sim

/-- What `PTTL` replies. -/
def remaining : Option (Entry o) → ℤ
  | none => -2
  | some { ttl := none, .. } => -1
  | some { ttl := some ttl, .. } => ttl

theorem pttl_sim (longBits : ℕ) (key : CppString) :
    Simulates (Holds client) (pttl (net.servers address) longBits key) store
      (.success, some ((remaining (store key)).bmod (2 ^ longBits))) store := by
  have fetched : fetchResult fetchInteger .default (some (KeyCommand.pttl.act format (store key)).1) =
      .ok (.success, some (remaining (store key))) := by
    rcases store key with _ | ⟨value, _ | ttl⟩ <;> rfl
  have sim := executeImpl_on faultless format serves address client store (parse_pttl key) fetched
  rw [KeyCommand.act, Function.update_eq_self] at sim
  exact sim.bind (.pure _ _)

/-- A value is restored under a key that holds nothing. -/
theorem restore_sim {key : CppString} (absent : store key = none) {ttl : ℤ} (low : 0 ≤ ttl)
    (high : ttl < 9223372036854775808) (value : Value o) :
    Simulates (Holds client) (restore (net.servers address) key ttl (format.dump value)) store
      (.success, some (text "OK"))
      (store.put key { value := value, ttl := if ttl = 0 then none else some ttl.toNat }) := by
  have number := parseInteger_convertToString (le_trans (by decide) low) high
  have act : (KeyCommand.restore (convertToString ttl) (format.dump value)).act format (store key) =
      (ok, some { value := value, ttl := if ttl = 0 then none else some ttl.toNat }) := by
    simp only [KeyCommand.act, restoreEntry, absent, number, not_lt.mpr low, ↓reduceIte, format.load_dump]
  have fetched : fetchResult fetchString .ok (some ((KeyCommand.restore (convertToString ttl)
      (format.dump value)).act format (store key)).1) = .ok (.success, some (text "OK")) := by
    rw [act]
    rfl
  have sim := executeImpl_on faultless format serves address client store
    (parse_restore key (convertToString ttl) (format.dump value)) fetched
  rwa [act] at sim

/-- A negative time to live is refused, whatever the payload. -/
theorem restore_negative {key : CppString} (absent : store key = none) {ttl : ℤ} (low : -9223372036854775808 ≤ ttl)
    (negative : ttl < 0) (payload : CppString) :
    Simulates (Holds client) (restore (net.servers address) key ttl payload) store (.replyErr, none) store := by
  have number := parseInteger_convertToString low (lt_trans negative (by decide))
  have act : (KeyCommand.restore (convertToString ttl) payload).act format (store key) =
      (.error (text "ERR Invalid TTL value, must be >= 0"), store key) := by
    simp only [KeyCommand.act, restoreEntry, absent, number, negative, ↓reduceIte]
  have fetched : fetchResult fetchString .ok (some ((KeyCommand.restore (convertToString ttl)
      payload).act format (store key)).1) = .ok (.replyErr, none) := by
    rw [act]
    rfl
  have sim := executeImpl_on faultless format serves address client store
    (parse_restore key (convertToString ttl) payload) fetched
  rwa [act, Function.update_eq_self] at sim

theorem cleanUp_sim (key : CppString) (nRet : ReturnCode) :
    Simulates (Holds client) (cleanUp (net.servers address) key nRet) store
      (if nRet = .success then .replyErr else nRet) (store.erase key) :=
  (del_sim faultless format serves address _ _ key).bind (.pure _ _)

/-- A command for two keys of one slot. -/
theorem executeImpl_pair {key newKey : CppString} {request : Request} (keys : request.keys = [key, newKey])
    (parsed : parse args = some request) (slot : hashSlot newKey = hashSlot key)
    (fetched : fetchResult funcFetch funcConv (some (execute format request store).1) = .ok result) :
    Simulates (Holds client) (executeImpl (net.servers address) args (hashSlot key) funcFetch funcConv) store result
      (execute format request store).2 := by
  rintro source ⟨steady, rfl, rfl⟩
  have words : args ≠ [] := by
    rintro rfl
    cases parsed
  have oneSlot : oneSlot request.keys = true := by
    simp only [oneSlot, keys, List.all_cons, List.all_nil, slot, decide_true, Bool.and_true]
  have owned : ∀ other ∈ request.keys, nodeOf owner other = owner (hashSlot key) := by
    intro other member
    rw [keys, List.mem_cons, List.mem_singleton] at member
    rcases member with rfl | rfl
    · rfl
    · rw [nodeOf, slot]
  obtain ⟨reply, union⟩ := serveNode_of_parse format parsed source.servers.redis oneSlot owned
  obtain ⟨target, ran, ready, same, redis⟩ :=
    @executeImpl_ok _ net allSlots owner source faultless address α steady args words key
    (hashSlot_lt key) funcFetch funcConv result
      (by rw [serves]; exact (congrArg (fun reply => fetchResult _ _ (some reply)) reply).trans fetched)
  refine ⟨target, ran, ready, same, ?_⟩
  rw [redis, serves]
  exact union

/-- A command for two keys of different slots. -/
theorem executeImpl_crossSlot {key newKey : CppString} {request : Request} (keys : request.keys = [key, newKey])
    (parsed : parse args = some request) (slot : hashSlot newKey ≠ hashSlot key)
    (fetched : fetchResult funcFetch funcConv (some crossSlot) = .ok result) :
    Simulates (Holds client) (executeImpl (net.servers address) args (hashSlot key) funcFetch funcConv) store result
      store := by
  rintro source ⟨steady, rfl, rfl⟩
  have words : args ≠ [] := by
    rintro rfl
    cases parsed
  have slots : oneSlot request.keys = false := by
    simp only [oneSlot, keys, List.all_cons, List.all_nil, slot, Ne.symm slot, decide_true, decide_false, Bool.and_true,
      Bool.and_false]
  have refused := serveNode_crossSlot format parsed source.servers.redis (owner (hashSlot key)) slots
  obtain ⟨target, ran, ready, same, redis⟩ :=
    @executeImpl_ok _ net allSlots owner source faultless address α steady args words key
    (hashSlot_lt key) funcFetch funcConv result (by rw [serves, refused]; exact fetched)
  refine ⟨target, ran, ready, same, ?_⟩
  rw [redis, serves, refused]

end

variable {key newKey : CppString} (longBits : ℕ)

theorem rename_together (together : client.inSameNode key newKey = true) (slot : hashSlot newKey = hashSlot key) :
    Simulates (Holds client) (rename (net.servers address) longBits key newKey) store
      (if (store key).isSome then .success else .replyErr) (execute format (.rename key newKey) store).2 := by
  have fetched : ∃ result, result.1 = (if (store key).isSome then ReturnCode.success else .replyErr) ∧
      fetchResult fetchString .ok (some (execute format (.rename key newKey) store).1) = .ok result := by
    simp only [Model.Redis.execute]
    cases store key with
    | none => exact ⟨(.replyErr, none), rfl, rfl⟩
    | some entry => exact ⟨(.success, some (text "OK")), rfl, rfl⟩
  obtain ⟨⟨nRet, value⟩, rfl, fetched⟩ := fetched
  apply Simulates.get_bind
  intro source here
  rw [here.client, if_pos together]
  have sim := executeImpl_pair faultless format serves address client store rfl (parse_rename key newKey) slot fetched
  refine sim.bind ?_ source here
  exact .pure _ _

/-- A method that sends a command for both keys where one node serves them fails when their slots differ. -/
theorem crossSlot_refused (together : client.inSameNode key newKey = true) (slot : hashSlot newKey ≠ hashSlot key)
    {request : Request} (keys : request.keys = [key, newKey]) {args : List CppString}
    (parsed : parse args = some request)
    (apart : Action (Pool (Stores owner o)) ReturnCode) :
    Simulates (Holds client) (do
      if (← get).client.inSameNode key newKey then
        let (nRet, _) ← executeImpl (net.servers address) args (hashSlot key) fetchString .ok
        return nRet
      else apart) store .replyErr store := by
  apply Simulates.get_bind
  intro source here
  rw [here.client, if_pos together]
  have fetched : fetchResult fetchString .ok (some crossSlot) = .ok (.replyErr, none) := rfl
  refine (executeImpl_crossSlot faultless format serves address client store keys parsed slot
    fetched).bind ?_ source here
  exact .pure _ _

/-- `FetchString` takes no integer, so the answer to a `RENAMENX` that goes well is an error too. -/
theorem renamenx_together (together : client.inSameNode key newKey = true) (slot : hashSlot newKey = hashSlot key) :
    Simulates (Holds client) (renamenx (net.servers address) longBits key newKey) store .replyErr
      (execute format (.renamenx key newKey) store).2 := by
  have fetched : fetchResult fetchString .ok (some (execute format (.renamenx key newKey) store).1) =
      .ok (.replyErr, none) := by
    simp only [Model.Redis.execute]
    cases store key with
    | none => rfl
    | some entry => split_ifs <;> rfl
  apply Simulates.get_bind
  intro source here
  rw [here.client, if_pos together]
  have sim := executeImpl_pair faultless format serves address client store rfl (parse_renamenx key newKey) slot fetched
  refine sim.bind ?_ source here
  exact .pure _ _

/-- The time to live that is passed to `RESTORE`. -/
def passedTtl (longBits : ℕ) (entry : Option (Entry o)) : ℤ :=
  let nTtl := (remaining entry).bmod (2 ^ longBits)
  if nTtl = -1 then 0 else nTtl

/-- The entry that `RESTORE` makes. -/
def restored (longBits : ℕ) (entry : Entry o) : Entry o :=
  let ttl := passedTtl longBits (some entry)
  { value := entry.value, ttl := if ttl = 0 then none else some ttl.toNat }

omit faultless serves in
theorem passedTtl_bounds (long : longBits = 32 ∨ longBits = 64) (entry : Option (Entry o)) :
    -9223372036854775808 ≤ passedTtl longBits entry ∧ passedTtl longBits entry < 9223372036854775808 := by
  have low := @Int.le_bmod (remaining entry) (2 ^ longBits) (by positivity)
  have high := @Int.bmod_lt (remaining entry) (2 ^ longBits) (by positivity)
  rcases long with rfl | rfl
  · norm_num at low high
    simp only [passedTtl, Nat.reducePow]
    split_ifs <;> omega
  · norm_num at low high
    simp only [passedTtl, Nat.reducePow]
    split_ifs <;> omega

omit faultless serves in
/-- The code tests the value for the key without a time to live. -/
theorem passedTtl_eq (entry : Option (Entry o)) :
    (if some ((remaining entry).bmod (2 ^ longBits)) = some (-1) then 0
      else (some ((remaining entry).bmod (2 ^ longBits))).getD 0) = passedTtl longBits entry := by
  simp only [passedTtl, Option.some.injEq, Option.getD_some]

omit faultless serves in
theorem remaining_absent (long : longBits = 32 ∨ longBits = 64) :
    (remaining (none : Option (Entry o))).bmod (2 ^ longBits) = -2 := by
  rcases long with rfl | rfl
  · exact (by decide : (-2 : ℤ).bmod (2 ^ 32) = -2)
  · exact (by decide : (-2 : ℤ).bmod (2 ^ 64) = -2)

/-- The last commands of both methods. -/
def moveOn {σ : Type} (servers : Servers σ) (key newKey : CppString) (nTtl : ℤ) (strVal : CppString) :
    Action σ ReturnCode := do
  let (nRet, _) ← restore servers newKey nTtl strVal
  if nRet ≠ .success then cleanUp servers newKey nRet
  else
    let (nRet, _) ← del servers key
    if nRet.value < 0 then cleanUp servers newKey nRet
    else return .success

theorem moveOn_refused (absent : store newKey = none) {nTtl : ℤ} (low : -9223372036854775808 ≤ nTtl)
    (negative : nTtl < 0) (strVal : CppString) :
    Simulates (Holds client) (moveOn (net.servers address) key newKey nTtl strVal) store .replyErr store := by
  refine (restore_negative faultless format serves address _ _ absent low negative strVal).bind ?_
  have cleaned := cleanUp_sim faultless format serves address client store newKey .replyErr
  rwa [erase_of_none absent] at cleaned

theorem moveOn_copies (absent : store newKey = none) {nTtl : ℤ} (low : 0 ≤ nTtl) (high : nTtl < 9223372036854775808)
    (value : Value o) :
    Simulates (Holds client) (moveOn (net.servers address) key newKey nTtl (format.dump value)) store .success
      ((store.put newKey { value := value, ttl := if nTtl = 0 then none else some nTtl.toNat }).erase key) := by
  refine (restore_sim faultless format serves address _ _ absent low high value).bind ?_
  refine (del_sim faultless format serves address _ _ key).bind ?_
  exact .pure _ _

variable (apart : client.inSameNode key newKey = false)
include apart

theorem rename_missing (absent : store key = none) :
    Simulates (Holds client) (rename (net.servers address) longBits key newKey) store .replyErr
      (store.erase newKey) := by
  apply Simulates.get_bind
  intro source here
  rw [here.client, apart, if_neg Bool.false_ne_true]
  have dumped := dump_sim faultless format serves address client store key
  rw [absent] at dumped
  refine dumped.bind ?_ source here
  exact cleanUp_sim faultless format serves address _ _ _ .success

/-- A key that holds something is deleted at its new name, and restored there. -/
theorem rename_present {entry : Entry o} (present : store key = some entry) {nRet : ReturnCode} {after : Store o}
    (gone : (remaining (some entry)).bmod (2 ^ longBits) = -2 → nRet = .replyErr ∧ after = store.erase newKey)
    (moves : Simulates (Holds client) (moveOn (net.servers address) key newKey (passedTtl longBits (some entry))
      (format.dump entry.value)) (store.erase newKey) nRet after) :
    Simulates (Holds client) (rename (net.servers address) longBits key newKey) store nRet after := by
  apply Simulates.get_bind
  intro source here
  rw [here.client, apart, if_neg Bool.false_ne_true]
  have dumped := dump_sim faultless format serves address client store key
  have lives := pttl_sim faultless format serves address client store longBits key
  rw [present] at dumped lives
  refine dumped.bind ?_ source here
  have payload : ¬ (ReturnCode.success ≠ .success ∨ (some (format.dump entry.value)).getD [] = []) := by
    rintro (wrong | empty)
    · exact wrong rfl
    · exact format.dump_ne_nil _ empty
  dsimp only
  rw [Option.elim_some, if_neg payload]
  refine lives.bind ?_
  dsimp only
  by_cases missing : some ((remaining (some entry)).bmod (2 ^ longBits)) = some (-2)
  · rw [if_pos (.inr missing)]
    obtain ⟨rfl, rfl⟩ := gone (Option.some.inj missing)
    exact cleanUp_sim faultless format serves address _ _ _ .success
  · rw [if_neg (by rintro (wrong | wrong); exacts [wrong rfl, missing wrong])]
    refine (del_sim faultless format serves address _ _ newKey).bind ?_
    dsimp only
    rw [if_neg (by decide), passedTtl_eq]
    exact moves

/-- A key that is taken is left alone, with the code of a failed command. -/
theorem renamenx_taken (taken : (store newKey).isSome = true) :
    Simulates (Holds client) (renamenx (net.servers address) longBits key newKey) store .replyErr store := by
  apply Simulates.get_bind
  intro source here
  rw [here.client, apart, if_neg Bool.false_ne_true]
  have exists_ := exists_sim faultless format serves address client store newKey
  rw [taken] at exists_
  refine exists_.bind ?_ source here
  exact .pure _ _

theorem renamenx_free (free : store newKey = none) {nRet : ReturnCode} {after : Store o}
    (moves : Simulates (Holds client) (moveOn (net.servers address) key newKey (passedTtl longBits (store key))
      ((store key).elim [] fun entry => format.dump entry.value)) store nRet after) :
    Simulates (Holds client) (renamenx (net.servers address) longBits key newKey) store nRet after := by
  apply Simulates.get_bind
  intro source here
  rw [here.client, apart, if_neg Bool.false_ne_true]
  have exists_ := exists_sim faultless format serves address client store newKey
  rw [free] at exists_
  refine exists_.bind ?_ source here
  refine (dump_sim faultless format serves address _ _ key).bind ?_
  refine (pttl_sim faultless format serves address _ _ longBits key).bind ?_
  dsimp only
  rw [if_neg (by decide), passedTtl_eq]
  exact moves

omit apart

omit faultless serves in
theorem restored_iff (long : longBits = 32 ∨ longBits = 64) (entry : Entry o) :
    0 ≤ passedTtl longBits (some entry) ∧ restored longBits entry = entry ↔ TtlKept longBits entry.ttl := by
  rcases entry with ⟨value, _ | left⟩
  · have minusOne : (-1 : ℤ).bmod (2 ^ longBits) = -1 := by
      rcases long with rfl | rfl
      · exact (by decide : (-1 : ℤ).bmod (2 ^ 32) = -1)
      · exact (by decide : (-1 : ℤ).bmod (2 ^ 64) = -1)
    have passed : passedTtl longBits (some ({ value := value } : Entry o)) = 0 := by
      simp only [passedTtl, remaining, minusOne, ↓reduceIte]
    refine iff_of_true ⟨passed.ge, ?_⟩ nofun
    simp only [restored, passed, ↓reduceIte]
  · have passed : passedTtl longBits (some ({ value := value, ttl := some left } : Entry o)) =
        if (left : ℤ).bmod (2 ^ longBits) = -1 then 0 else (left : ℤ).bmod (2 ^ longBits) := rfl
    simp only [TtlKept, restored, Entry.mk.injEq, true_and, passed, Option.some.injEq, forall_eq']
    generalize (left : ℤ).bmod (2 ^ longBits) = short
    constructor
    · rintro ⟨low, same⟩
      by_cases lost : short = -1
      · rw [if_pos lost, if_pos rfl] at same
        cases same
      · rw [if_neg lost] at low same
        by_cases zero : short = 0
        · rw [if_pos zero] at same
          cases same
        · rw [if_neg zero] at same
          have kept := Option.some.inj same
          omega
    · rintro ⟨positive, rfl⟩
      have other : ¬ (left : ℤ) = -1 := by omega
      have nonzero : ¬ (left : ℤ) = 0 := by omega
      rw [if_neg other, if_neg nonzero]
      exact ⟨Int.natCast_nonneg left, congrArg some (Int.toNat_natCast left)⟩

omit faultless serves in
/-- What a method does decides whether it does what is expected. -/
theorem meets_iff {program : Action (Pool (Stores owner o)) ReturnCode} {source : World (Pool (Stores owner o))}
    {nRet : ReturnCode} {after : Store o} (sim : Simulates (Holds client) program store nRet after)
    (here : Holds client store source) (expected : ReturnCode × Store o) :
    Meets program source expected ↔ (nRet, after) = expected := by
  obtain ⟨target, ran, there⟩ := sim source here
  constructor
  · rintro ⟨other, does, union⟩
    cases ran.symm.trans does
    exact Prod.ext rfl (there.union.symm.trans union)
  · rintro rfl
    exact ⟨target, ran, there.union⟩

/-- When `Rename` does what one server would. -/
def RenameKeeps (longBits : ℕ) (client : CRedisClient) (key newKey : CppString) (store : Store o) : Prop :=
  if client.inSameNode key newKey then hashSlot newKey = hashSlot key ∨ store key = none
  else
    match store key with
    | none => store newKey = none
    | some entry => TtlKept longBits entry.ttl

/-- When `Renamenx` does what one server would. -/
def RenamenxKeeps (longBits : ℕ) (client : CRedisClient) (key newKey : CppString) (store : Store o) : Prop :=
  match store key with
  | none => True
  | some entry => client.inSameNode key newKey = false ∧ store newKey = none ∧ TtlKept longBits entry.ttl

omit faultless serves in
/-- The moved entry is the old one if and only if the stores are the same. -/
theorem moved_eq_iff (different : key ≠ newKey) {base : Store o} (same : base.erase newKey = store.erase newKey)
    (entry copy : Entry o) : (base.put newKey copy).erase key = renamed key newKey entry store ↔ copy = entry := by
  constructor
  · intro equal
    have there := congrFun equal newKey
    rw [erase_of_ne (Ne.symm different), put_self, renamed, put_self] at there
    exact Option.some.inj there
  · rintro rfl
    funext other
    by_cases new : other = newKey
    · rw [new, erase_of_ne (Ne.symm different), put_self, renamed, put_self]
    · by_cases old : other = key
      · rw [old, erase_self, renamed, put_of_ne _ different, erase_self]
      · have rest := congrFun same other
        rw [erase_of_ne new, erase_of_ne new] at rest
        rw [erase_of_ne old, put_of_ne _ new, renamed, put_of_ne _ new, erase_of_ne old, rest]

theorem rename_meets_iff (long : longBits = 32 ∨ longBits = 64) (different : key ≠ newKey)
    {source : World (Pool (Stores owner o))} (here : Holds client store source) :
    Meets (rename (net.servers address) longBits key newKey) source (renameAlone format key newKey store) ↔
      RenameKeeps longBits client key newKey store := by
  rw [RenameKeeps]
  cases together : client.inSameNode key newKey with
  | true =>
    rw [if_pos rfl]
    by_cases slot : hashSlot newKey = hashSlot key
    · rw [meets_iff _ _ (rename_together faultless format serves address client store longBits together slot) here]
      refine iff_of_true ?_ (.inl slot)
      simp only [renameAlone, Model.Redis.execute]
      cases store key <;> rfl
    · have sim : Simulates (Holds client) (rename (net.servers address) longBits key newKey) store .replyErr store :=
        crossSlot_refused faultless format serves address client store together slot rfl (parse_rename key newKey) _
      rw [meets_iff _ _ sim here]
      simp only [slot, false_or, renameAlone]
      cases store key with
      | none => exact iff_of_true rfl rfl
      | some entry => exact iff_of_false (fun same => by cases congrArg Prod.fst same) (by rintro ⟨⟩)
  | false =>
    rw [if_neg Bool.false_ne_true]
    cases present : store key with
    | none =>
      dsimp only
      rw [meets_iff _ _ (rename_missing faultless format serves address client store longBits together present) here]
      have alone : renameAlone format key newKey store = (.replyErr, store) := by
        simp only [renameAlone, present, Option.isNone_none, ↓reduceIte]
      rw [alone, Prod.mk.injEq, eq_self, true_and]
      constructor
      · intro same
        rw [← same, erase_self]
      · exact erase_of_none
    | some entry =>
      dsimp only
      have alone : renameAlone format key newKey store = (.success, renamed key newKey entry store) := by
        simp only [renameAlone, Model.Redis.execute, present, Option.isNone_some, Bool.false_eq_true, ↓reduceIte]
      obtain ⟨low, high⟩ := passedTtl_bounds longBits long (some entry)
      rw [alone, ← restored_iff longBits long entry]
      by_cases negative : passedTtl longBits (some entry) < 0
      · have sim := rename_present faultless format serves address client store longBits together present
          (fun _ => ⟨rfl, rfl⟩) (moveOn_refused faultless format serves address client _
            (erase_self _ _) low negative _)
        rw [meets_iff _ _ sim here]
        refine iff_of_false (fun same => by cases congrArg Prod.fst same) fun kept => ?_
        exact absurd kept.1 (not_le.mpr negative)
      · have sim := rename_present faultless format serves address client store longBits together present
          (fun gone => absurd (by rw [passedTtl, gone]; decide) negative)
          (moveOn_copies faultless format serves address client _ (erase_self _ _) (not_lt.mp negative) high _)
        rw [meets_iff _ _ sim here, Prod.mk.injEq, moved_eq_iff store different (erase_erase _ _)]
        exact ⟨fun same => ⟨not_lt.mp negative, same.2⟩, fun kept => ⟨rfl, kept.2⟩⟩

theorem renamenx_meets_iff (long : longBits = 32 ∨ longBits = 64) (different : key ≠ newKey)
    {source : World (Pool (Stores owner o))} (here : Holds client store source) :
    Meets (renamenx (net.servers address) longBits key newKey) source (renamenxAlone format key newKey store) ↔
      RenamenxKeeps longBits client key newKey store := by
  rw [RenamenxKeeps]
  cases together : client.inSameNode key newKey with
  | true =>
    by_cases slot : hashSlot newKey = hashSlot key
    · rw [meets_iff _ _ (renamenx_together faultless format serves address client store longBits together slot) here]
      simp only [renamenxAlone, Model.Redis.execute]
      cases store key with
      | none => exact iff_of_true rfl trivial
      | some entry =>
        refine iff_of_false (fun same => ?_) (by rintro ⟨⟨⟩, _⟩)
        simp only [Option.isNone_some, Bool.false_eq_true, ↓reduceIte] at same
        split_ifs at same <;> cases congrArg Prod.fst same
    · have sim : Simulates (Holds client) (renamenx (net.servers address) longBits key newKey) store .replyErr store :=
        crossSlot_refused faultless format serves address client store together slot rfl (parse_renamenx key newKey) _
      rw [meets_iff _ _ sim here]
      simp only [renamenxAlone]
      cases store key with
      | none => exact iff_of_true rfl trivial
      | some entry =>
        refine iff_of_false (fun same => ?_) (by rintro ⟨⟨⟩, _⟩)
        simp only [Option.isNone_some, Bool.false_eq_true, ↓reduceIte] at same
        split_ifs at same <;> cases congrArg Prod.fst same
  | false =>
    cases taken : store newKey with
    | some entry =>
      have isTaken : (store newKey).isSome = true := by rw [taken, Option.isSome_some]
      rw [meets_iff _ _ (renamenx_taken faultless format serves address client store longBits together isTaken) here]
      simp only [renamenxAlone, isTaken, ↓reduceIte]
      cases store key with
      | none => exact iff_of_true rfl trivial
      | some entry => exact iff_of_false (fun same => by cases congrArg Prod.fst same) (by rintro ⟨_, ⟨⟩, _⟩)
    | none =>
      obtain ⟨low, high⟩ := passedTtl_bounds longBits long (store key)
      cases present : store key with
      | none =>
        have negative : passedTtl longBits (none : Option (Entry o)) < 0 := by
          rw [passedTtl, remaining_absent longBits long]
          decide
        rw [present] at low
        have sim := renamenx_free faultless format serves address client store longBits together taken
          (by rw [present]; exact moveOn_refused faultless format serves address client store taken low negative _)
        rw [meets_iff _ _ sim here]
        simp only [renamenxAlone, present, Option.isNone_none, ↓reduceIte]
      | some entry =>
        dsimp only
        rw [present] at low high
        have alone : renamenxAlone format key newKey store = (.success, renamed key newKey entry store) := by
          simp only [renamenxAlone, Model.Redis.execute, present, taken, Option.isNone_some, Option.isSome_none,
            Bool.false_eq_true, ↓reduceIte]
        simp only [true_and]
        rw [alone, ← restored_iff longBits long entry]
        by_cases negative : passedTtl longBits (some entry) < 0
        · have sim := renamenx_free faultless format serves address client store longBits together taken
            (by rw [present]; exact moveOn_refused faultless format serves address client store taken low negative _)
          rw [meets_iff _ _ sim here]
          refine iff_of_false (fun same => by cases congrArg Prod.fst same) fun kept => ?_
          exact absurd kept.1 (not_le.mpr negative)
        · have sim := renamenx_free faultless format serves address client store longBits together taken
            (by
              rw [present]
              exact moveOn_copies faultless format serves address client store taken (not_lt.mp negative) high _)
          rw [meets_iff _ _ sim here, Prod.mk.injEq, moved_eq_iff store different rfl]
          exact ⟨fun same => ⟨not_lt.mp negative, same.2⟩, fun kept => ⟨rfl, kept.2⟩⟩

/-- Both methods do on a cluster what one server would, in these cases and no others. -/
theorem rename_renamenx_iff (long : longBits = 32 ∨ longBits = 64) (different : key ≠ newKey)
    {source : World (Pool (Stores owner o))} (steady : Steady allSlots owner source) :
    (Meets (rename (net.servers address) longBits key newKey) source
        (renameAlone format key newKey source.servers.redis.union) ↔
      RenameKeeps longBits source.client key newKey source.servers.redis.union) ∧
    (Meets (renamenx (net.servers address) longBits key newKey) source
        (renamenxAlone format key newKey source.servers.redis.union) ↔
      RenamenxKeeps longBits source.client key newKey source.servers.redis.union) :=
  ⟨rename_meets_iff faultless format serves address _ _ longBits long different ⟨steady, rfl, rfl⟩,
    renamenx_meets_iff faultless format serves address _ _ longBits long different ⟨steady, rfl, rfl⟩⟩

omit faultless serves

/-- Strings after a zero, and a one for all other values. -/
def plain : Format Unit where
  dump
    | .string str => 0 :: str
    | .other _ => [1]
  load
    | 0 :: str => some (.string str)
    | _ => some (.other ())
  load_dump value := by rcases value with str | value <;> rfl
  dump_ne_nil value := by rcases value with str | value <;> exact nofun

/-- A cluster whose stores together hold this. -/
def clusterWith (store : Store Unit) : World (Pool (Stores twoNodes Unit)) := overTwoNodes (Shards.split _ store)

theorem clusterWith_union (store : Store Unit) : (clusterWith store).servers.redis.union = store :=
  Shards.union_split store

def clusterNet : Network (Stores twoNodes Unit) := reliable (serveNode plain)

theorem clusterNet_faultless : Faultless clusterNet := reliable_faultless _

/-- A string under one key. -/
def onlyA : Store Unit := fun key => if key = text "a" then some { value := .string (text "v") } else none

theorem onlyA_a : onlyA (text "a") = some { value := .string (text "v") } := if_pos rfl

theorem onlyA_b : onlyA (text "b") = none := if_neg (by decide)

theorem rename_renamenx_two_nodes :
    Meets (rename (clusterNet.servers id) 64 (text "a") (text "b")) (clusterWith onlyA)
        (renameAlone plain (text "a") (text "b") (clusterWith onlyA).servers.redis.union) ∧
      Meets (renamenx (clusterNet.servers id) 64 (text "a") (text "b")) (clusterWith onlyA)
        (renamenxAlone plain (text "a") (text "b") (clusterWith onlyA).servers.redis.union) := by
  have different : text "a" ≠ text "b" := by decide
  have both := rename_renamenx_iff clusterNet_faultless plain rfl id 64 (.inr rfl) different
    (overTwoNodes_steady (Shards.split (nodeOf twoNodes) onlyA))
  have apart : (clusterWith onlyA).client.inSameNode (text "a") (text "b") = false := by decide +kernel
  have store : (clusterWith onlyA).servers.redis.union = onlyA := clusterWith_union onlyA
  refine ⟨both.1.mpr ?_, both.2.mpr ?_⟩
  · change RenameKeeps 64 (clusterWith onlyA).client _ _ (clusterWith onlyA).servers.redis.union
    rw [store, RenameKeeps, apart, if_neg Bool.false_ne_true, onlyA_a]
    exact nofun
  · change RenamenxKeeps 64 (clusterWith onlyA).client _ _ (clusterWith onlyA).servers.redis.union
    rw [store, RenamenxKeeps, onlyA_a]
    exact ⟨apart, onlyA_b, nofun⟩

/-- A rename of a missing key deletes the new one, and one that goes well fails for `Renamenx`. -/
theorem rename_renamenx_differ :
    ¬ Meets (rename (clusterNet.servers id) 64 (text "b") (text "a")) (clusterWith onlyA)
        (renameAlone plain (text "b") (text "a") onlyA) ∧
      ¬ Meets (renamenx (clusterNet.servers id) 64 (text "a") (text "{a}")) (clusterWith onlyA)
        (renamenxAlone plain (text "a") (text "{a}") onlyA) := by
  have here : Holds (clusterWith onlyA).client onlyA (clusterWith onlyA) :=
    ⟨overTwoNodes_steady _, rfl, clusterWith_union onlyA⟩
  constructor
  · have different : text "b" ≠ text "a" := by decide
    have apart : (clusterWith onlyA).client.inSameNode (text "b") (text "a") = false := by decide +kernel
    rw [rename_meets_iff clusterNet_faultless plain rfl id _ _ 64 (.inr rfl) different here, RenameKeeps, apart,
      if_neg Bool.false_ne_true, onlyA_b]
    dsimp only
    rw [onlyA_a]
    exact nofun
  · have different : text "a" ≠ text "{a}" := by decide
    have together : (clusterWith onlyA).client.inSameNode (text "a") (text "{a}") = true := by decide +kernel
    rw [renamenx_meets_iff clusterNet_faultless plain rfl id _ _ 64 (.inr rfl) different here, RenamenxKeeps, onlyA_a]
    rintro ⟨apart, -⟩
    exact nomatch together.symm.trans apart

end CppRedis.Soundness.Renaming
