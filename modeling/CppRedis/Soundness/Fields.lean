import CppRedis.Machine.Keyspace
import CppRedis.Model.RedisClient.Collections
import CppRedis.Soundness.Fetches

/-! # Fields of a hash

`Hmget` with a map takes from its reply the fields whose values are not empty: a field with an empty value is left out
like one that is missing.
-/

namespace CppRedis.Soundness.Fields

open Machine Machine.Program Model.RedisClient Model.RedisCpp Attribution Fetches

/-- The reply with the values of these fields. -/
def hmgetReply (hash : ValueMap) (fields : List CppString) : RedisReply :=
  .array (fields.map fun field => (hash field).elim .nil .string)

theorem fetchStringArray_hmgetReply (hash : ValueMap) (fields : List CppString) :
    fetchStringArray (hmgetReply hash fields) = (.success, some (fields.map fun field => (hash field).getD [])) := by
  have strings : fetchStrings (fields.map fun field => (hash field).elim .nil .string) =
      (.success, fields.map fun field => (hash field).getD []) := by
    induction fields with
    | nil => rfl
    | cons field fields ih =>
      rw [List.map_cons, List.map_cons, fetchStrings, ih]
      cases hash field <;> rfl
  rw [hmgetReply, fetchStringArray, strings]

/-- Of the fields those with a value that is not empty are inserted. -/
theorem insertValues_apply (mapVal : ValueMap) (fields : List CppString) (value : CppString → CppString)
    (field : CppString) :
    insertValues mapVal fields (fields.map value) field =
      (mapVal field).or (if field ∈ fields ∧ value field ≠ [] then some (value field) else none) := by
  induction fields generalizing mapVal with
  | nil =>
    rw [if_neg fun here => List.not_mem_nil here.1, Option.or_none]
    rfl
  | cons first fields ih =>
    have next : (if value first ≠ [] then mapVal.insert first (value first) else mapVal) field =
        (mapVal field).or (if first = field ∧ value first ≠ [] then some (value first) else none) := by
      by_cases empty : value first = []
      · rw [if_neg (not_not.mpr empty), if_neg fun here => here.2 empty, Option.or_none]
      · simp only [empty, ne_eq, not_false_eq_true, if_true, and_true]
        exact Keyspace.insert_apply mapVal first (value first) field
    rw [List.map_cons, insertValues, ih, next, Option.or_assoc]
    congr 1
    by_cases same : first = field
    · subst same
      by_cases filled : value first ≠ []
      · have member : first ∈ first :: fields := List.mem_cons_self
        rw [if_pos ⟨rfl, filled⟩, Option.some_or, if_pos ⟨member, filled⟩]
      · rw [if_neg fun here => filled here.2, if_neg fun here => filled here.2, if_neg fun here => filled here.2,
          Option.none_or]
    · rw [if_neg fun here => same here.1, Option.none_or]
      simp only [List.mem_cons, Ne.symm same, false_or]

/-- The fields that are asked for, in a vector or in a set. -/
inductive FieldArg where
  | vector (vecField : List CppString)
  | set (setField : List CppString)
deriving DecidableEq, Repr

def FieldArg.list : FieldArg → List CppString
  | vector vecField => vecField
  | set setField => setField

def hmget {σ : Type} (servers : Servers σ) (strKey : CppString) (pmapVal : ValueMap) :
    FieldArg → Action σ (ReturnCode × ValueMap)
  | .vector vecField => hmgetVec servers strKey vecField pmapVal
  | .set setField => hmgetSet servers strKey setField pmapVal

/-- The map has exactly the fields that were asked for and are in the hash, with their values. -/
def Selects (hash : ValueMap) (fields : List CppString) (mapVal : ValueMap) : Prop :=
  ∀ field value, mapVal field = some value ↔ field ∈ fields ∧ hash field = some value

/-- What is inserted of the values of a hash. -/
def shownFields (hash : ValueMap) (fields : List CppString) : ValueMap :=
  insertValues (fun _ => none) fields (fields.map fun field => (hash field).getD [])

theorem selects_shownFields_iff {hash : ValueMap} {fields : List CppString} :
    Selects hash fields (shownFields hash fields) ↔ ∀ field ∈ fields, hash field ≠ some [] := by
  have shown (field : CppString) : shownFields hash fields field =
      if field ∈ fields ∧ (hash field).getD [] ≠ [] then some ((hash field).getD []) else none := by
    rw [shownFields, insertValues_apply, Option.none_or]
  constructor
  · intro selects field member empty
    have there := (selects field []).mpr ⟨member, empty⟩
    rw [shown, empty, if_neg fun here => here.2 rfl] at there
    cases there
  · intro filled field value
    rw [shown]
    by_cases member : field ∈ fields
    · cases held : hash field with
      | none =>
        rw [if_neg fun here => here.2 rfl]
        exact iff_of_false nofun fun here => nomatch here.2
      | some there =>
        have other : there ≠ [] := fun empty => filled field member (held.trans (congrArg some empty))
        rw [Option.getD_some, if_pos ⟨member, other⟩, and_iff_right member]
    · rw [if_neg fun here => member here.1]
      exact iff_of_false nofun fun here => member here.1

section

variable {ρ : Type} {net : Network ρ} {address : ℕ → ℕ} {strKey : CppString} {hash before after : ValueMap}
  {source target : World (Pool ρ)}

/-- The replies to the command of a method are that of the hash, or errors. -/
def Answers (hash : ValueMap) (fields : List CppString) (command : ℕ) (world : World (Pool ρ)) : Prop :=
  ∀ reply, .reply command reply ∈ world.log → reply = hmgetReply hash fields ∨ ∃ str, reply = .error str

/-- The vector of a request that succeeds. -/
theorem executeImpl_values {args fields : List CppString} {nSlot : ℤ} {value : Option (List CppString)}
    (attributed : Attributed source)
    (ran : executeImpl (net.servers address) args nSlot fetchStringArray .default source =
      .ok ((.success, value), target)) (answers : Answers hash fields source.commands target) :
    value = some (fields.map fun field => (hash field).getD []) := by
  obtain ⟨-, reply, logged, fetched⟩ := executeImpl_fetched net address attributed ran
  rcases answers reply logged with rfl | ⟨str, rfl⟩
  · rw [fetchResult, fetchStringArray_hmgetReply] at fetched
    cases fetched
    rfl
  · cases fetched

theorem hmgetVec_shown {vecField : List CppString} (attributed : Attributed source)
    (ran : hmgetVec (net.servers address) strKey vecField before source = .ok ((.success, after), target))
    (answers : Answers hash vecField source.commands target) : after = shownFields hash vecField := by
  obtain ⟨args, _, ranArgs, ran⟩ := bind_eq_ok_iff.mp ran
  cases ranArgs
  obtain ⟨⟨nRet, value⟩, executed, ranExecute, ran⟩ := bind_eq_ok_iff.mp ran
  by_cases success : nRet = .success
  · subst success
    simp only [if_true] at ran
    by_cases lengths : value.getD [] ≠ [] ∧ vecField.length ≠ (value.getD []).length
    · rw [if_pos lengths] at ran
      cases ran
    · rw [if_neg lengths] at ran
      cases ran
      rw [executeImpl_values attributed ranExecute answers, Option.getD_some]
      split_ifs with filled
      · rfl
      · obtain rfl := List.map_eq_nil_iff.mp (not_not.mp filled)
        rfl
  · simp only [if_neg success] at ran
    cases ran
    exact absurd rfl success

theorem hmgetSet_shown {setField : List CppString} (attributed : Attributed source)
    (ran : hmgetSet (net.servers address) strKey setField before source = .ok ((.success, after), target))
    (answers : Answers hash setField source.commands target) : after = shownFields hash setField := by
  obtain ⟨args, _, ranArgs, ran⟩ := bind_eq_ok_iff.mp ran
  cases ranArgs
  obtain ⟨⟨nRet, value⟩, executed, ranExecute, ran⟩ := bind_eq_ok_iff.mp ran
  by_cases success : nRet = .success
  · subst success
    simp only [if_true] at ran
    by_cases lengths : (value.getD []).length ≠ setField.length
    · rw [if_pos lengths] at ran
      cases ran
    · rw [if_neg lengths] at ran
      cases ran
      rw [executeImpl_values attributed ranExecute answers]
      rfl
  · simp only [if_neg success] at ran
    cases ran
    exact absurd rfl success

/-- Whatever the network does, a `Hmget` that succeeds selects the fields exactly when none of them is empty. -/
theorem hmget_selects_iff {fields : FieldArg} (attributed : Attributed source)
    (ran : hmget (net.servers address) strKey before fields source = .ok ((.success, after), target))
    (answers : Answers hash fields.list source.commands target) :
    Selects hash fields.list after ↔ ∀ field ∈ fields.list, hash field ≠ some [] := by
  have shown : after = shownFields hash fields.list := by
    cases fields with
    | vector vecField => exact hmgetVec_shown attributed ran answers
    | set setField => exact hmgetSet_shown attributed ran answers
  rw [shown]
  exact selects_shownFields_iff

/-- A server that holds a hash, behind a link that works. -/
def hashing (hash : ValueMap) : Network ℕ where
  clock _ := 0
  connect _ _ := true
  append _ := true
  receive _ := none
  rounds _ := 0
  serve count _ args := (hmgetReply hash (args.drop 2), count)

/-- A name, and a note that is empty. -/
def noted : ValueMap := Keyspace.ofList [(text "name", text "n"), (text "note", [])]

theorem hmget_selects_iff_name : ∃ after target,
    hmget ((hashing noted).servers id) (text "k") (fun _ => none) (.vector [text "name", text "none"]) connected.world =
      .ok ((.success, after), target) ∧
    (Selects noted [text "name", text "none"] after ↔ ∀ field ∈ [text "name", text "none"], noted field ≠ some []) := by
  obtain ⟨after, target, ran, log⟩ : ∃ after target,
      hmget ((hashing noted).servers id) (text "k") (fun _ => none)
        (.vector [text "name", text "none"]) connected.world =
        .ok ((.success, after), target) ∧
      target.log = [.time 0, .connect (text "redis") 0 true, .time 0, .append 0 true,
        .reply 0 (hmgetReply noted [text "name", text "none"])] := ⟨_, _, rfl, rfl⟩
  refine ⟨after, target, ran, hmget_selects_iff connected_fresh.settled.toAttributed ran fun reply logged => .inl ?_⟩
  rw [log] at logged
  simp only [List.mem_cons, List.not_mem_nil, or_false, reduceCtorEq, false_or, Event.reply.injEq] at logged
  exact logged.2

/-- The note is not in the map. -/
theorem hmget_empty_value : ∃ after target,
    hmget ((hashing noted).servers id) (text "k") (fun _ => none) (.set [text "name", text "note"]) connected.world =
      .ok ((.success, after), target) ∧ ¬ Selects noted [text "name", text "note"] after := by
  refine ⟨_, _, rfl, fun selects => ?_⟩
  have there := (selects (text "note") []).mpr ⟨by decide +kernel, by decide +kernel⟩
  exact absurd there (by decide +kernel)

end

end CppRedis.Soundness.Fields
