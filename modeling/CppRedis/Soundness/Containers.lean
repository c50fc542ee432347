import CppRedis.Model.RedisCpp.Collections
import CppRedis.Soundness.ReadBack
import CppRedis.Soundness.Stores

/-! # Containers that are filled

`lrange` and `hgetall` append and insert to what is in the container of the caller, and `std::map::insert` keeps the
value of a key that is there. So the container shows the current data only if nothing in it is out of date. Texts are
taken as C strings, up to a zero byte.
-/

namespace CppRedis.Soundness.Containers

open Machine Model.RedisClient Model.RedisCpp

/-- A pair as the link reads it. -/
def cut (pair : CppString × CppString) : CppString × CppString := (cStr pair.1, cStr pair.2)

theorem getArryToMap_pairs (pairs : List (CppString × CppString)) (valueMap : ValueMap) :
    CRedisConn.getArryToMap valueMap (pairsReply pairs).fields.element =
      some (Keyspace.insertAll valueMap (pairs.map cut)) := by
  induction pairs generalizing valueMap with
  | nil => rfl
  | cons pair pairs ih => exact ih (valueMap.insert (cStr pair.1) (cStr pair.2))

theorem getArryToList_strings (elements valueList : List CppString) :
    CRedisConn.getArryToList valueList (RedisReply.array (elements.map .string)).fields.element =
      some (valueList ++ elements.map cStr) := by
  induction elements generalizing valueList with
  | nil => exact congrArg some (List.append_nil valueList).symm
  | cons element elements ih =>
    have whole := ih (valueList ++ [cStr element])
    rw [List.append_assoc] at whole
    exact whole

theorem text_repr (value : ℕ) : text (Nat.repr value) = (Nat.toDigits 10 value).map fun digit =>
    digit.toNat.toUInt8 := by
  rw [text, Nat.repr, String.toList_ofList]

theorem text_toString (value : ℤ) : text (toString value) = convertToString value := by
  cases value with
  | ofNat value =>
    rw [convertToString, if_neg (Int.not_lt.mpr (Int.natCast_nonneg value) : ¬ Int.ofNat value < 0)]
    exact text_repr value
  | negSucc value =>
    rw [convertToString, if_pos (Int.negSucc_lt_zero value)]
    change text ("-" ++ Nat.repr (value + 1)) = text "-" ++ _
    rw [text, String.toList_append, List.map_append]
    exact congrArg (text "-" ++ ·) (text_repr (value + 1))

/-- The server reads the positions that `%d` writes. -/
theorem parseInteger_decimal (value : ℤ) : Model.Redis.parseInteger (decimal value) = some (value.bmod 4294967296) := by
  have low := @Int.le_bmod value 4294967296 (by decide)
  have high := @Int.bmod_lt value 4294967296 (by decide)
  rw [decimal, text_toString]
  exact Stores.parseInteger_convertToString (by omega) (by omega)

section

variable {α : Type} (conn : CRedisConn) (hiredis : Hiredis) (words : Command) (before : α)
  (fill : List HiReply → Option α)

/-- There is a connection to send a command on. -/
def Sends : Prop := conn.connected = true ∧ conn.redCtx = true

instance : Decidable (Sends conn) := inferInstanceAs (Decidable (_ ∧ _))

/-- What a method of a link returns, without the link. -/
def outcomeOf (returned : Returned α) : Option (Bool × α) := returned.map fun (ret, value, _) => (ret, value)

/-- What a method that fills a container returns. -/
def filled : Option HiReply → Option (Bool × α)
  | none => none
  | some reply =>
      if reply.type = .error then reply.str.map fun _ => (false, before)
      else if reply.type = .array ∧ reply.element = [] then some (false, before)
      else (fill reply.element).map fun value => (true, value)

/-- The lines that `lrange` and `hgetall` share. -/
theorem outcomeOf_command (missing : CppString) :
    outcomeOf (conn.command hiredis words before before fun reply conn => reply.bind fun reply =>
      if reply.type = .array ∧ reply.element = [] then some (false, before, { conn with errStr := missing })
      else (fill reply.element).map fun value => (true, value, conn)) =
      if Sends conn then filled before fill (hiredis words) else some (false, before) := by
  rcases conn with ⟨_ | _, _ | _, errStr⟩
  · rfl
  · rfl
  · rfl
  · rw [if_pos ⟨rfl, rfl⟩, CRedisConn.command]
    simp only [Bool.not_true, Bool.or_self, Bool.false_eq_true, if_false]
    rw [CRedisConn.received]
    generalize hiredis words = reply
    cases reply with
    | none => rfl
    | some reply =>
      rw [CRedisConn.replyError.eq_def, filled]
      dsimp only
      by_cases error : reply.type = .error
      · rw [if_pos error, if_pos error, HiReply.assigned]
        cases reply.str <;> rfl
      · rw [if_neg error, if_neg error, Option.bind_some]
        dsimp only [Option.bind_some]
        rw [if_neg Bool.false_ne_true]
        by_cases empty : reply.type = .array ∧ reply.element = []
        · rw [if_pos empty, if_pos empty]
          rfl
        · rw [if_neg empty, if_neg empty]
          cases fill reply.element <;> rfl

end

section

variable (conn : CRedisConn) (delivery : Delivery) (store : Collections) (key : CppString)

/-- The fields of the hash at a key, with their values. -/
def pairsAt : List (CppString × CppString) :=
  match store key with
  | some (.hash pairs _) => pairs
  | _ => []

/-- The part of the list at a key. -/
def elementsAt (start stop : ℤ) : List CppString :=
  match store key with
  | some (.list elements) => range elements start stop
  | _ => []

theorem filled_hgetall (before : ValueMap) :
    filled before (CRedisConn.getArryToMap before) (some (store.hgetall key).fields) =
      if pairsAt store key = [] then some (false, before)
      else some (true, Keyspace.insertAll before ((pairsAt store key).map cut)) := by
  rw [Collections.hgetall, pairsAt]
  rcases store key with _ | (⟨pairs, distinct⟩ | elements | _)
  · rfl
  · dsimp only
    cases pairs with
    | nil => rfl
    | cons pair pairs =>
      rw [if_neg (List.cons_ne_nil _ _)]
      exact congrArg (Option.map fun value => (true, value)) (getArryToMap_pairs (pair :: pairs) before)
  · rfl
  · rfl

theorem filled_lrange (start stop : ℤ) (before : List CppString) :
    filled before (CRedisConn.getArryToList before) (some (store.lrange key start stop).fields) =
      if elementsAt store key start stop = [] then some (false, before)
      else some (true, before ++ (elementsAt store key start stop).map cStr) := by
  rw [Collections.lrange, elementsAt]
  rcases store key with _ | (⟨pairs, distinct⟩ | elements | _)
  · rfl
  · rfl
  · by_cases empty : range elements start stop = []
    · simp only [empty]
      rfl
    · obtain ⟨first, rest, same⟩ := List.exists_cons_of_ne_nil empty
      simp only [same]
      exact congrArg (Option.map fun value => (true, value)) (getArryToList_strings (first :: rest) before)
  · rfl

/-- The positions as the command has them. -/
def sent (position : ℤ) : ℤ := position.bmod 4294967296

/-- The map is the hash that was sent, or empty when the method returns false. -/
def HgetallCurrent (before : ValueMap) : Prop :=
  ∀ ret valueMap, outcomeOf (conn.hgetall (delivery.hiredis store) key before) = some (ret, valueMap) →
    valueMap = if ret then Keyspace.ofList (pairsAt store (cStr key)) else fun _ => none

/-- When the method returns true, the list is the part of the list that was sent. -/
def LrangeCurrent (start stop : ℤ) (before : List CppString) : Prop :=
  ∀ valueList, outcomeOf (conn.lrange (delivery.hiredis store) key start stop before) = some (true, valueList) →
    valueList = elementsAt store (cStr key) (sent start) (sent stop)

/-- All that is in the map is in the hash, and for the other fields a zero byte makes no difference. -/
def Agrees (pairs : List (CppString × CppString)) (before : ValueMap) : Prop :=
  (∀ field value, before field = some value → Keyspace.ofList pairs field = some value) ∧
    ∀ field, before field = none → Keyspace.ofList (pairs.map cut) field = Keyspace.ofList pairs field

def HgetallFits (before : ValueMap) : Prop :=
  if Sends conn then
    match delivery with
    | .lost => True
    | .refused _ => before = fun _ => none
    | .answered =>
        if pairsAt store (cStr key) = [] then before = fun _ => none else Agrees (pairsAt store (cStr key)) before
  else before = fun _ => none

def LrangeFits (start stop : ℤ) (before : List CppString) : Prop :=
  Sends conn → delivery = .answered → elementsAt store (cStr key) (sent start) (sent stop) ≠ [] →
    before = [] ∧ ∀ element ∈ elementsAt store (cStr key) (sent start) (sent stop), 0 ∉ element

end

theorem insertAll_eq_ofList_iff {pairs : List (CppString × CppString)} {before : ValueMap} :
    Keyspace.insertAll before (pairs.map cut) = Keyspace.ofList pairs ↔ Agrees pairs before := by
  constructor
  · intro same
    refine ⟨fun field value there => ?_, fun field absent => ?_⟩
    · rw [← same, Keyspace.insertAll_apply, there, Option.some_or]
    · rw [← same, Keyspace.insertAll_apply, absent, Option.none_or]
  · rintro ⟨old, new⟩
    funext field
    rw [Keyspace.insertAll_apply]
    cases there : before field with
    | some value => rw [Option.some_or, old field value there]
    | none => rw [Option.none_or, new field there]

theorem append_cStr_eq_iff {before elements : List CppString} :
    before ++ elements.map cStr = elements ↔ before = [] ∧ ∀ element ∈ elements, 0 ∉ element := by
  constructor
  · intro same
    have lengths := congrArg List.length same
    rw [List.length_append, List.length_map] at lengths
    obtain rfl : before = [] := List.eq_nil_of_length_eq_zero (by omega)
    refine ⟨rfl, fun element member => ReadBack.cStr_eq_self_iff.mp ?_⟩
    exact List.map_inj_left.mp (same.trans (List.map_id elements).symm) element member
  · rintro ⟨rfl, visible⟩
    exact (List.map_congr_left fun element member => ReadBack.cStr_eq_self_iff.mpr (visible element member)).trans
      (List.map_id elements)

/-- Without zero bytes in the hash, only what is in the map matters. -/
theorem agrees_iff_of_visible {pairs : List (CppString × CppString)} (visible : ∀ pair ∈ pairs, 0 ∉ pair.1 ∧ 0 ∉ pair.2)
    {before : ValueMap} :
    Agrees pairs before ↔ ∀ field value, before field = some value → Keyspace.ofList pairs field = some value := by
  have same : pairs.map cut = pairs := by
    refine (List.map_congr_left fun pair member => ?_).trans (List.map_id pairs)
    exact Prod.ext (ReadBack.cStr_eq_self_iff.mpr (visible pair member).1)
      (ReadBack.cStr_eq_self_iff.mpr (visible pair member).2)
  rw [Agrees, same]
  exact and_iff_left fun _ _ => rfl

section

variable {conn : CRedisConn} {delivery : Delivery} {store : Collections} {key : CppString}

theorem answer_hgetall (store : Collections) (key : CppString) :
    store.answer [text "HGETALL", key] = store.hgetall key := by
  rw [Collections.answer, if_pos rfl]

theorem answer_lrange (store : Collections) (key : CppString) (start stop : ℤ) :
    store.answer [text "LRANGE", key, decimal start, decimal stop] = store.lrange key (sent start) (sent stop) := by
  rw [Collections.answer, if_pos rfl, parseInteger_decimal, parseInteger_decimal]
  rfl

theorem hgetallCurrent_iff {before : ValueMap} :
    HgetallCurrent conn delivery store key before ↔ HgetallFits conn delivery store key before := by
  have returned := outcomeOf_command conn (delivery.hiredis store) [text "HGETALL", cStr key] before
    (CRedisConn.getArryToMap before) ErrorNo.noKey.description
  rw [HgetallCurrent, HgetallFits.eq_def, CRedisConn.hgetall, returned]
  have fails : (∀ ret valueMap, some (false, before) = some (ret, valueMap) →
      valueMap = if ret then Keyspace.ofList (pairsAt store (cStr key)) else fun _ => none) ↔
        before = fun _ => none := by
    constructor
    · exact fun current => current false before rfl
    · rintro empty ret valueMap same
      cases same
      exact empty
  by_cases sends : Sends conn
  · rw [if_pos sends, if_pos sends]
    cases delivery with
    | lost => exact iff_of_true nofun trivial
    | refused error => exact fails
    | answered =>
      rw [Delivery.hiredis, answer_hgetall, filled_hgetall]
      by_cases empty : pairsAt store (cStr key) = []
      · rw [if_pos empty, if_pos empty]
        exact fails
      · rw [if_neg empty, if_neg empty, ← insertAll_eq_ofList_iff]
        constructor
        · exact fun current => current true _ rfl
        · rintro same ret valueMap found
          cases found
          exact same
  · rw [if_neg sends, if_neg sends]
    exact fails

theorem lrangeCurrent_iff {start stop : ℤ} {before : List CppString} :
    LrangeCurrent conn delivery store key start stop before ↔ LrangeFits conn delivery store key start stop before := by
  have returned := outcomeOf_command conn (delivery.hiredis store) [text "LRANGE", cStr key,
    decimal start, decimal stop]
    before (CRedisConn.getArryToList before) (ErrorNo.index.description ++ text " or " ++ ErrorNo.noKey.description)
  rw [LrangeCurrent, LrangeFits, CRedisConn.lrange, returned]
  by_cases sends : Sends conn
  · rw [if_pos sends]
    cases delivery with
    | lost => exact iff_of_true nofun nofun
    | refused error => exact iff_of_true nofun nofun
    | answered =>
      rw [Delivery.hiredis, answer_lrange, filled_lrange]
      by_cases empty : elementsAt store (cStr key) (sent start) (sent stop) = []
      · rw [if_pos empty]
        exact iff_of_true nofun fun _ _ filled => absurd empty filled
      · rw [if_neg empty]
        constructor
        · exact fun current _ _ _ => append_cStr_eq_iff.mp (current _ rfl)
        · rintro fits valueList found
          cases found
          exact append_cStr_eq_iff.mpr (fits sends rfl empty)
  · rw [if_neg sends]
    exact iff_of_true nofun fun here => absurd here sends

end

/-- What exactly has to hold before a call for its container to show the current data afterwards. -/
theorem containers_current_iff (conn : CRedisConn) (delivery : Delivery) (store : Collections) (key : CppString)
    (start stop : ℤ) (valueMap : ValueMap) (valueList : List CppString) :
    (HgetallCurrent conn delivery store key valueMap ↔ HgetallFits conn delivery store key valueMap) ∧
      (LrangeCurrent conn delivery store key start stop valueList ↔
        LrangeFits conn delivery store key start stop valueList) :=
  ⟨hgetallCurrent_iff, lrangeCurrent_iff⟩

/-- A car that has a new colour. -/
def repainted : Collections := fun key =>
  if key = text "car" then some (.hash [(text "color", text "red")] (by decide))
  else if key = text "cars" then some (.list [text "a"])
  else none

/-- The map keeps the old colour, also when the car is not found, and the list shows its element twice. -/
theorem containers_stale :
    let linked : CRedisConn := { redCtx := true, connected := true }
    let old : ValueMap := Keyspace.ofList [(text "color", text "blue")]
    ¬ HgetallCurrent linked .answered repainted (text "car") old ∧
      ¬ HgetallCurrent linked .answered repainted (text "bus") old ∧
      ¬ LrangeCurrent linked .answered repainted (text "cars") 0 (-1) [text "a"] := by
  intro linked old
  have sends : Sends linked := ⟨rfl, rfl⟩
  have color : old (text "color") = some (text "blue") := by decide +kernel
  refine ⟨fun current => ?_, fun current => ?_, fun current => ?_⟩
  · have fits := hgetallCurrent_iff.mp current
    rw [HgetallFits.eq_def, if_pos sends] at fits
    have same := fits.1 _ _ color
    exact absurd same (by decide +kernel)
  · have fits := hgetallCurrent_iff.mp current
    rw [HgetallFits.eq_def, if_pos sends] at fits
    have empty := congrFun fits (text "color")
    rw [color] at empty
    cases empty
  · have fits := lrangeCurrent_iff.mp current sends rfl (by decide +kernel)
    exact List.cons_ne_nil _ _ fits.1

end CppRedis.Soundness.Containers
