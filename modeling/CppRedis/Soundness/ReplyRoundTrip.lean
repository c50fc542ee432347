import CppRedis.Soundness.ReplyStream
import CppRedis.Soundness.Integers

/-! # What a server writes is what a program reads

The reader's parser of numbers is the one of `utils.cpp`, so it takes the decimal texts that a server writes. Values
of the protocol, written one after the other, therefore come out of the reader as the replies that show them, each as
soon as its last byte is there.
-/

namespace CppRedis.Soundness.ReplyRoundTrip

open Machine Model.Hiredis ReplyStream
open Model.RedisCpp (ReplyType)
open Model.RedisClient (convertToString)

theorem readDigits_eq (v : UInt64) (s : CppString) : readDigits v s = Model.R3c.Utils.readDigits v s := by
  induction s generalizing v with
  | nil => rfl
  | cons p rest ih => rw [readDigits, Model.R3c.Utils.readDigits, ih]

theorem readNumber_eq (negative : Bool) (s : CppString) :
    readNumber negative s = (Model.R3c.Utils.readNumber negative s).map Int64.toInt := by
  have opposite (v : UInt64) : (-v).toInt64 = v.toInt64 * -1 := by
    rw [UInt64.toInt64_neg, Int64.mul_neg, Int64.mul_one]
  cases s with
  | nil => rfl
  | cons first rest =>
    rw [readNumber, Model.R3c.Utils.readNumber]
    by_cases digit : 49 ≤ first ∧ first ≤ 57
    · rw [if_pos digit, if_pos digit, readDigits_eq]
      rcases Model.R3c.Utils.readDigits (first - 48).toUInt64 rest with _ | ⟨v, _ | _⟩
      · rfl
      · dsimp only [Model.R3c.Utils.signed]
        rw [opposite]
        split_ifs <;> rfl
      · rfl
    · rw [if_neg digit, if_neg digit]
      rfl

/-- The two copies of `string2ll` agree. -/
theorem string2ll_eq (s : CppString) : string2ll s = (Model.R3c.Utils.string2ll s).map Int64.toInt := by
  rw [string2ll, Model.R3c.Utils.string2ll, readNumber_eq, readNumber_eq]
  split_ifs <;> rfl

theorem string2ll_convertToString {value : ℤ} (low : -9223372036854775808 ≤ value)
    (high : value < 9223372036854775808) :
    string2ll (convertToString value) = some value := by
  rw [string2ll_eq, Integers.string2ll_toInt]
  exact Numerals.string2ll_convertToString low high

theorem newline?_crlf (rest : CppString) : newline? (crlf ++ rest) = some 0 := rfl

theorem newline?_oneLine {str : CppString} (one : OneLine str) (rest : CppString) :
    newline? (str ++ crlf ++ rest) = some str.length := by
  induction str with
  | nil => exact newline?_crlf rest
  | cons first str ih =>
    have tail : OneLine str := fun inside => one (inside.trans (List.suffix_cons first str).isInfix)
    have behind := ih tail
    cases str with
    | nil =>
      have apart : ¬(first = 13 ∧ (13 : UInt8) = 10) := by rintro ⟨-, ⟨⟩⟩
      simp only [crlf, List.cons_append, List.nil_append, newline?, if_neg apart]
      rfl
    | cons second str =>
      have apart : ¬(first = 13 ∧ second = 10) := by
        rintro ⟨rfl, rfl⟩
        exact one (List.prefix_append crlf str).isInfix
      simp only [List.cons_append, newline?, if_neg apart, List.length_cons] at behind ⊢
      rw [behind]
      rfl

theorem line_crlf {str : CppString} (one : OneLine str) (rest : CppString) :
    line (str ++ crlf ++ rest) = .done str rest := by
  have front : (str ++ crlf ++ rest).take str.length = str := by
    rw [List.append_assoc, List.take_left]
  have behind : (str ++ crlf ++ rest).drop (str.length + 2) = rest :=
    List.drop_left' (by rw [List.length_append]; rfl)
  simp only [line, newline?_oneLine one, front, behind]

theorem oneLine_of_forall {str : CppString} (none : ∀ byte ∈ str, byte ≠ 13) : OneLine str := fun inside =>
  none 13 (inside.subset List.mem_cons_self) rfl

theorem oneLine_convertToString (value : ℤ) : OneLine (convertToString value) := by
  refine oneLine_of_forall fun byte member carriage => ?_
  rw [carriage] at member
  have digits : (13 : UInt8) ∈ Decimal.write value.natAbs → Decimal.isDigit 13 = true :=
    Decimal.isDigit_of_mem_write 13
  rw [Integers.convertToString_eq, List.mem_append] at member
  rcases member with sign | digit
  · split_ifs at sign <;> simp at sign
  · exact absurd (digits digit) (by decide)

section

variable {δ : Type} {doubles : Doubles δ} {calloc : ℕ → Bool}

/-- What the elements of a value are read with. -/
def nested (doubles : Doubles δ) (calloc : ℕ → Bool) : ℕ → Option (CppString → Reading (RedisReply δ))
  | 0 => none
  | levels + 1 => some (value doubles calloc levels)

theorem value_eq (levels : ℕ) : value doubles calloc levels =
    valueWith doubles calloc (nested doubles calloc levels) := by
  cases levels <;> rfl

/-- A whole object in its place. -/
theorem value_object (levels : ℕ) {byte : UInt8} {type : ReplyType} (announced : replyTypeOf byte = some type)
    {input rest : CppString} {obj : RedisReply δ}
    (read : piece doubles calloc (nested doubles calloc levels).isNone type input = .done (.object obj) rest) :
    value doubles calloc levels (byte :: input) = .done obj rest := by
  simp only [value_eq, valueWith, announced, read, Parsed.done_bind]

/-- An object with the elements behind its head. -/
theorem value_head (levels : ℕ) {byte : UInt8} {announced type : ReplyType} (known : replyTypeOf byte = some announced)
    {input between rest : CppString} {size : ℕ} {elements : List (RedisReply δ)}
    (read : piece doubles calloc false announced input = .done (.head type size) between)
    (inside : Parsed.many (value doubles calloc levels) size between = .done elements rest) :
    value doubles calloc (levels + 1) (byte :: input) = .done (.mk type 0 none none (elements.map some)) rest := by
  simp only [value, valueWith, known, Option.isNone_some, read, Parsed.done_bind, inside, Parsed.done_map]

variable (doubles calloc) in
theorem piece_line (deep : Bool) {type : ReplyType} {str : CppString} {obj : RedisReply δ} (one : OneLine str)
    (made : lineObject doubles type str = .ok obj) (rest : CppString)
    (single : type = .error ∨ type = .status ∨ type = .integer ∨ type = .double ∨ type = .nil ∨ type = .bool) :
    piece doubles calloc deep type (str ++ crlf ++ rest) = .done (.object obj) rest := by
  have read : (line (str ++ crlf ++ rest)).bind
      (fun p rest => .ofExcept ((lineObject doubles type p).map Piece.object) rest) = .done (.object obj) rest := by
    rw [line_crlf one, Parsed.done_bind, made]
    rfl
  rcases single with rfl | rfl | rfl | rfl | rfl | rfl <;> exact read

theorem decimal_oneLine (value : ℕ) : OneLine (decimal value) := oneLine_convertToString value

theorem string2ll_decimal {value : ℕ} (small : value < 9223372036854775808) :
    string2ll (decimal value) = some (value : ℤ) := string2ll_convertToString (by omega) (by omega)

variable (doubles calloc) in
theorem piece_bulk (deep : Bool) {str : CppString} (small : str.length < 9223372036854775808) (rest : CppString) :
    piece doubles calloc deep .string (decimal str.length ++ crlf ++ (str ++ crlf ++ rest)) =
      .done (.object (.createString .string str)) rest := by
  have enough : ((str.length : ℤ)).toNat + 2 ≤ (str ++ crlf ++ rest).length := by
    simp only [List.length_append, crlf, List.length_cons, List.length_nil]
    omega
  have front : (str ++ crlf ++ rest).take str.length = str := by rw [List.append_assoc, List.take_left]
  have behind : (str ++ crlf ++ rest).drop (str.length + 2) = rest :=
    List.drop_left' (by rw [List.length_append]; rfl)
  rw [piece, bulk, line_crlf (decimal_oneLine _), Parsed.done_bind, string2ll_decimal small]
  dsimp only
  rw [if_neg (by omega), if_neg (by omega), if_pos enough, Int.toNat_natCast, front, behind]

/-- The number that stands in front of an aggregate. -/
def Aggregate.count (kind : Aggregate) (size : ℕ) : ℕ := if kind = .map then size / 2 else size

theorem head_eq (kind : Aggregate) (size : ℕ) :
    ∃ byte, replyTypeOf byte = some kind.type ∧
      kind.head size = byte :: (decimal (Aggregate.count kind size) ++ crlf) := by
  cases kind with
  | array => exact ⟨42, rfl, rfl⟩
  | map => exact ⟨37, rfl, rfl⟩
  | set => exact ⟨126, rfl, rfl⟩

theorem elementCount_count (kind : Aggregate) {size : ℕ} (pairs : kind = .map → Even size) :
    elementCount kind.type (Aggregate.count kind size) = size := by
  cases kind with
  | array => simp [elementCount, Aggregate.count, Aggregate.type]
  | map =>
    have halves := Nat.div_mul_cancel (even_iff_two_dvd.mp (pairs rfl))
    change ((size / 2 : ℕ) : ℤ).toNat * 2 = size
    rw [Int.toNat_natCast]
    exact halves
  | set => simp [elementCount, Aggregate.count, Aggregate.type]

variable (doubles) in
theorem piece_aggregate (kind : Aggregate) (input : CppString) :
    piece doubles calloc false kind.type input = aggregateHead calloc kind.type input := by
  cases kind <;> rfl

theorem aggregateHead_count (kind : Aggregate) {size : ℕ} (pairs : kind = .map → Even size)
    (small : size < 9223372036854775808) (granted : size ≠ 0 → calloc size = true) (rest : CppString) :
    aggregateHead calloc kind.type (decimal (Aggregate.count kind size) ++ crlf ++ rest) =
      .done (if size = 0 then .object (.createArray kind.type 0) else (.head kind.type size : Piece δ)) rest := by
  have count : Aggregate.count kind size < 9223372036854775808 := by
    rw [Aggregate.count]
    split_ifs <;> omega
  rw [aggregateHead, line_crlf (decimal_oneLine _), Parsed.done_bind, string2ll_decimal count]
  dsimp only
  rw [if_neg (by omega), if_neg (by omega), elementCount_count kind pairs]
  by_cases empty : size = 0
  · rw [if_pos empty, if_pos empty]
  · rw [if_neg empty, if_neg empty, if_pos (granted empty)]

/-- How a server writes that there is nothing is read as nothing. -/
theorem value_nothing {form : Nothing} {levels : ℕ} (allowed : form = .array → 0 < levels) (rest : CppString) :
    value doubles calloc levels (form.encode ++ rest) = .done .createNil rest := by
  cases form with
  | bulk =>
    have announced : replyTypeOf 36 = some .string := rfl
    exact value_object levels announced rfl
  | array =>
    obtain ⟨levels, rfl⟩ := Nat.exists_eq_succ_of_ne_zero (allowed rfl).ne'
    rfl
  | null =>
    have empty : OneLine [] := oneLine_of_forall (by simp)
    exact value_object levels rfl (piece_line doubles calloc _ empty rfl rest (by simp))

mutual

/-- A value is read from its bytes, whatever follows them. -/
theorem value_encode : ∀ (v : Value) (levels : ℕ), v.Writable doubles calloc levels → ∀ rest,
    value doubles calloc levels (v.encode ++ rest) = .done (v.object doubles) rest
  | .status str, levels, writable, rest => by
      rw [Value.Writable] at writable
      exact value_object levels rfl (piece_line doubles calloc _ writable rfl rest (by simp))
  | .error str, levels, writable, rest => by
      rw [Value.Writable] at writable
      exact value_object levels rfl (piece_line doubles calloc _ writable rfl rest (by simp))
  | .integer number, levels, writable, rest => by
      rw [Value.Writable] at writable
      have made : lineObject doubles .integer (convertToString number) = .ok (.createInteger number) := by
        rw [lineObject, string2ll_convertToString writable.1 writable.2]
      exact value_object levels rfl (piece_line doubles calloc _ (oneLine_convertToString number) made rest (by simp))
  | .double str, levels, writable, rest => by
      rw [Value.Writable] at writable
      obtain ⟨one, accepted⟩ := writable
      have made : lineObject doubles .double str = .ok ((Value.double str).object doubles) := by
        rw [lineObject, Value.object]
        cases read : doubleObject doubles str with
        | error error =>
          rw [read] at accepted
          cases accepted
        | ok obj => rfl
      exact value_object levels rfl (piece_line doubles calloc _ one made rest (by simp))
  | .nothing form, levels, writable, rest => by
      rw [Value.Writable] at writable
      exact value_nothing writable rest
  | .bool true, levels, _, rest => by
      have letter : OneLine [116] := oneLine_of_forall (by simp)
      have read := piece_line doubles calloc (nested doubles calloc levels).isNone letter
        (rfl : lineObject doubles .bool [116] = .ok (.createBool true)) rest (by simp)
      exact value_object levels rfl read
  | .bool false, levels, _, rest => by
      have letter : OneLine [102] := oneLine_of_forall (by simp)
      have read := piece_line doubles calloc (nested doubles calloc levels).isNone letter
        (rfl : lineObject doubles .bool [102] = .ok (.createBool false)) rest (by simp)
      exact value_object levels rfl read
  | .string str, levels, writable, rest => by
      rw [Value.Writable] at writable
      have read := piece_bulk doubles calloc (nested doubles calloc levels).isNone writable rest
      rw [Value.encode, Value.object]
      simp only [List.append_assoc, List.cons_append] at read ⊢
      exact value_object levels rfl read
  | .aggregate kind elements, 0, writable, rest => by
      rw [Value.Writable] at writable
      exact writable.elim
  | .aggregate kind elements, levels + 1, writable, rest => by
      rw [Value.Writable] at writable
      obtain ⟨granted, small, pairs, inner⟩ := writable
      obtain ⟨byte, announced, head⟩ := head_eq kind elements.length
      have opened := aggregateHead_count (δ := δ) kind pairs small
        (fun some => granted (List.ne_nil_of_length_pos (Nat.pos_of_ne_zero some))) (Value.encodeAll elements ++ rest)
      have inside := many_encode elements levels inner rest
      rw [Value.encode, Value.object, head, List.append_assoc, List.cons_append]
      by_cases empty : elements.length = 0
      · rw [if_pos empty, ← piece_aggregate doubles] at opened
        obtain rfl := List.length_eq_zero_iff.mp empty
        exact value_object (levels + 1) announced opened
      · rw [if_neg empty, ← piece_aggregate doubles] at opened
        exact value_head levels announced opened inside

theorem many_encode : ∀ (vs : List Value) (levels : ℕ), Value.AllWritable doubles calloc levels vs → ∀ rest,
    Parsed.many (value doubles calloc levels) vs.length (Value.encodeAll vs ++ rest) =
      .done (Value.objects doubles vs) rest
  | [], _, _, rest => rfl
  | v :: vs, levels, writable, rest => by
      rw [Value.AllWritable] at writable
      rw [List.length_cons, Parsed.many_succ, Value.encodeAll, List.append_assoc, value_encode v levels writable.1,
        Parsed.done_bind, many_encode vs levels writable.2, Parsed.done_map, Value.objects]

end

variable (doubles calloc) in
theorem valueWith_stable {inside : Option (CppString → Reading (RedisReply δ))}
    (elements : ∀ one, inside = some one → Parsed.Stable one) : Parsed.Stable (valueWith doubles calloc inside) := by
  intro input more goes
  cases input with
  | nil => exact absurd rfl goes
  | cons byte rest =>
    rw [List.cons_append]
    rw [valueWith] at goes ⊢
    rw [valueWith]
    cases announced : replyTypeOf byte with
    | none => rfl
    | some type =>
      rw [announced] at goes
      refine (Descent.piece_stable doubles calloc inside.isNone type).bind (fun piece => ?_) rest more goes
      cases piece with
      | object obj => exact .pure obj
      | head kind size =>
        cases inside with
        | none => exact .wait
        | some one => exact ((elements one rfl).many size).map _

variable (doubles calloc) in
theorem value_stable (levels : ℕ) : Parsed.Stable (value doubles calloc levels) := by
  induction levels with
  | zero => exact valueWith_stable doubles calloc (by rintro one ⟨⟩)
  | succ levels ih =>
    refine valueWith_stable doubles calloc ?_
    rintro one ⟨⟩
    exact ih

/-- A value is not read before its last byte is there. -/
theorem value_front {v : Value} {levels : ℕ} (writable : v.Writable doubles calloc levels) {front missing : CppString}
    (cut : front ++ missing = v.encode) (unfinished : missing ≠ []) : value doubles calloc levels front = .more := by
  have whole := value_encode v levels writable []
  rw [List.append_nil, ← cut] at whole
  cases read : value doubles calloc levels front with
  | more => rfl
  | bad error =>
    rw [(value_stable doubles calloc levels).bad read] at whole
    cases whole
  | done obj rest =>
    rw [(value_stable doubles calloc levels).done read, Parsed.done.injEq] at whole
    exact absurd (List.append_eq_nil_iff.mp whole.2).2 unfinished

theorem encode_pos {v : Value} {levels : ℕ} (writable : v.Writable doubles calloc levels) : 0 < v.encode.length := by
  have read := Descent.value_length doubles calloc (value_encode v levels writable [])
  simpa using read

/-- The replies of a stream that goes on with values are those of the values that are there. -/
theorem repliesUpTo_front {values : List Value} (writable : ∀ v ∈ values, v.Writable doubles calloc 8) {fed : CppString}
    (front : fed <+: Value.encodeAll values) {count : ℕ} (enough : fed.length < count) :
    repliesUpTo doubles calloc count fed = ((arrived values fed.length).map (Value.object doubles), none) := by
  induction values generalizing fed count with
  | nil =>
    obtain rfl := List.prefix_nil.mp front
    obtain ⟨count, rfl⟩ := Nat.exists_eq_add_one_of_ne_zero (Nat.pos_iff_ne_zero.mp enough)
    rfl
  | cons v values ih =>
    obtain ⟨count, rfl⟩ : ∃ less, count = less + 1 := ⟨count - 1, by omega⟩
    have this : v.Writable doubles calloc 8 := writable v List.mem_cons_self
    rw [Value.encodeAll] at front
    rw [repliesUpTo, arrived]
    by_cases whole : v.encode.length ≤ fed.length
    · obtain ⟨rest, rfl⟩ : v.encode <+: fed :=
        List.prefix_of_prefix_length_le (List.prefix_append v.encode _) front whole
      have behind : rest <+: Value.encodeAll values := (List.prefix_append_right_inj v.encode).mp front
      have positive := encode_pos this
      rw [List.length_append] at enough
      have later := ih (fun v member => writable v (List.mem_cons_of_mem _ member)) behind
        (by omega : rest.length < count)
      rw [value_encode v 8 this, if_pos whole]
      simp only [later, List.length_append, Nat.add_sub_cancel_left, List.map_cons]
    · obtain ⟨missing, cut⟩ : fed <+: v.encode :=
        List.prefix_of_prefix_length_le front (List.prefix_append v.encode _) (by omega)
      have unfinished : missing ≠ [] := by
        rintro rfl
        rw [← cut, List.append_nil] at whole
        exact whole (le_refl _)
      rw [value_front this cut unfinished, if_neg whole]
      rfl

theorem arrived_front (values : List Value) (bytes : ℕ) : arrived values bytes <+: values := by
  induction values generalizing bytes with
  | nil => exact List.nil_prefix
  | cons v values ih =>
    rw [arrived]
    split_ifs with whole
    · exact (List.prefix_cons_inj v).mpr (ih _)
    · exact List.nil_prefix

theorem arrived_mono (values : List Value) {bytes more : ℕ} (grows : bytes ≤ more) :
    arrived values bytes <+: arrived values more := by
  induction values generalizing bytes more with
  | nil => exact List.nil_prefix
  | cons v values ih =>
    rw [arrived, arrived]
    split_ifs with whole all
    · exact (List.prefix_cons_inj v).mpr (ih (Nat.sub_le_sub_right grows _))
    · omega
    · exact List.nil_prefix
    · exact List.nil_prefix

/-- All values arrive with their last byte. -/
theorem arrived_whole {values : List Value} {bytes : ℕ} (whole : values.length ≤ (arrived values bytes).length) :
    (Value.encodeAll values).length ≤ bytes := by
  induction values generalizing bytes with
  | nil => exact Nat.zero_le _
  | cons v values ih =>
    rw [arrived] at whole
    split_ifs at whole with first
    · have rest := ih (Nat.le_of_succ_le_succ whole)
      rw [Value.encodeAll, List.length_append]
      omega
    · exact absurd whole (Nat.not_succ_le_zero _)

theorem encodeAll_eq (values : List Value) : Value.encodeAll values = (values.map Value.encode).flatten := by
  induction values with
  | nil => rfl
  | cons v values ih => rw [Value.encodeAll, ih, List.map_cons, List.flatten_cons]

theorem encodeAll_mono {values all : List Value} (front : values <+: all) :
    Value.encodeAll values <+: Value.encodeAll all := by
  obtain ⟨more, rfl⟩ := front
  rw [encodeAll_eq, encodeAll_eq, List.map_append, List.flatten_append]
  exact List.prefix_append _ _

/-- What was returned are replies that show the first values, and the next call returns the next value if
it is there. -/
structure Delivers (doubles : Doubles δ) (calloc : ℕ → Bool) (values : List Value) (session : Session δ) : Prop where
  returned : session.returned <+: (arrived values session.fed.length).map (Value.object doubles)
  next : ∃ reader, reader.err = none ∧
    redisReaderGetReply doubles calloc session.reader =
      some (.ok, ((arrived values session.fed.length).map (Value.object doubles))[session.returned.length]?, reader)

theorem delivers_of_exact {values : List Value} (writable : ∀ v ∈ values, v.Writable doubles calloc 8)
    {session : Session δ} (exact : Exact doubles calloc session) (front : session.fed <+: Value.encodeAll values) :
    Delivers doubles calloc values session := by
  have all : replies doubles calloc session.fed = _ := repliesUpTo_front writable front (Nat.lt_succ_self _)
  obtain ⟨returned, status, reply, reader, answered, next⟩ := exact
  rw [all] at returned
  rw [nextReply, all] at next
  refine ⟨returned, reader, ?_⟩
  cases found : ((arrived values session.fed.length).map (Value.object doubles))[session.returned.length]? with
  | some obj =>
    rw [found, Prod.mk.injEq, Prod.mk.injEq] at next
    obtain ⟨rfl, rfl, fine⟩ := next
    exact ⟨fine, answered⟩
  | none =>
    rw [found, Prod.mk.injEq, Prod.mk.injEq] at next
    obtain ⟨rfl, rfl, fine⟩ := next
    exact ⟨fine, answered⟩

/-- A call for a reply on a stream that goes on with values gives the next one that is whole. -/
theorem getReply_values (modest : Modest calloc) {session : Session δ} (small : session.reader.buf.length < 2147483648)
    (tracks : Tracks doubles calloc session) {values : List Value}
    (writable : ∀ v ∈ values, v.Writable doubles calloc 8)
    (front : session.fed <+: Value.encodeAll values) :
    ∃ reader, redisReaderGetReply doubles calloc session.reader =
        some (.ok, ((arrived values session.fed.length).map (Value.object doubles))[session.returned.length]?, reader) ∧
      reader.buf.length ≤ session.reader.buf.length ∧
      Tracks doubles calloc { session with
        reader := reader
        returned := session.returned ++
          (((arrived values session.fed.length).map (Value.object doubles))[session.returned.length]?).toList } := by
  obtain ⟨status, reply, reader, answered, next, shorter, tracks⟩ := getReply_answers modest small tracks
  have all : replies doubles calloc session.fed = _ := repliesUpTo_front writable front (Nat.lt_succ_self _)
  rw [nextReply, all] at next
  have result : status = .ok ∧
      reply = ((arrived values session.fed.length).map (Value.object doubles))[session.returned.length]? := by
    generalize ((arrived values session.fed.length).map (Value.object doubles))[session.returned.length]? = here at next
    cases here with
    | some obj =>
      rw [Prod.mk.injEq, Prod.mk.injEq] at next
      exact ⟨next.1, next.2.1⟩
    | none =>
      rw [Prod.mk.injEq, Prod.mk.injEq] at next
      exact ⟨next.1, next.2.1⟩
  obtain ⟨rfl, rfl⟩ := result
  exact ⟨reader, answered, shorter, tracks⟩

/-- In any order of calls, a stream of values comes out as the replies that show them, each as soon as it is whole. -/
theorem values_delivered (modest : Modest calloc) {values : List Value}
    (writable : ∀ v ∈ values, v.Writable doubles calloc 8) {calls : List Call}
    (fits : Along (step doubles calloc) Fits (some ({} : Session δ)) calls) :
    Always (step doubles calloc)
      (fun session => ∃ here, session = some here ∧
        (here.fed <+: Value.encodeAll values → Delivers doubles calloc values here)) (some {}) calls := by
  refine (sessions_healthy modest fits).mono fun session healthy => ?_
  obtain ⟨here, rfl, exact⟩ := healthy.exact modest
  exact ⟨here, rfl, delivers_of_exact writable exact⟩

end

/-- A map of a key to nothing, and the least integer behind it. -/
def mapAndNumber : List Value := [.aggregate .map [.string [10], .nothing .bulk], .integer (-9223372036854775808)]

/-- The second cut is in front of the last byte of the map. -/
def mapCalls : List Call :=
  [.getReply, .feed (Model.RedisCpp.text "%1\r\n$1\r\n\n\r\n$-1\r"), .getReply,
    .feed (Model.RedisCpp.text "\n:-9223372036854775808\r\n"), .getReply, .getReply, .getReply]

theorem values_delivered_map :
    Always (step textual (· < 1000))
      (fun session => ∃ here, session = some here ∧
        (here.fed <+: Value.encodeAll mapAndNumber → Delivers textual (· < 1000) mapAndNumber here))
          (some {}) mapCalls := by
  have modest : Modest (· < 1000) := by
    intro size granted
    have small := of_decide_eq_true granted
    omega
  have writable : ∀ v ∈ mapAndNumber, v.Writable textual (· < 1000) 8 := by
    simp [mapAndNumber, Value.Writable, Value.AllWritable]
  exact values_delivered modest writable (fits_of_short modest (by decide))

end CppRedis.Soundness.ReplyRoundTrip
