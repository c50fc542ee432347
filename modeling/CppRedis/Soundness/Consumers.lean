import CppRedis.Soundness.Numerals
import CppRedis.Soundness.Streaming

/-! # Consumers and groups of streams

When the summary of pending messages, the consumers and the groups are read out of the replies that encode them.
-/

namespace CppRedis.Soundness.Consumers

open Machine Model Model.R3c Model.RedisCpp Numerals Streaming

def encodeConsumerPending (consumer : ConsumerPending) : RedisReply :=
  .array [.string consumer.name, .string (RedisClient.convertToString consumer.count.toInt)]

/-- The reply to `XPENDING` without a range. -/
def encodeGroupPending (groups : GroupPending) : RedisReply :=
  .array [.integer groups.count.toInt, .string groups.start, .string groups.end_,
    .array (groups.consumers.map encodeConsumerPending)]

/-- An element of the reply to `XINFO CONSUMERS`. -/
def encodeConsumerInfo (info : ConsumerInfo) : RedisReply :=
  .array [.string (text "name"), .string info.name, .string (text "pending"), .integer info.pendings.toInt,
    .string (text "idle"), .integer info.idletime.toInt]

/-- An element of the reply to `XINFO GROUPS`. -/
def encodeGroupInfo (info : GroupInfo) : RedisReply :=
  .array [.string (text "name"), .string info.name, .string (text "consumers"), .integer info.consumers.toInt,
    .string (text "pending"), .integer info.pendings.toInt, .string (text "last-delivered-id"),
    .string info.lastDeliveredId]

theorem string2int32_convertToString (value : Int32) :
    string2int32 (RedisClient.convertToString value.toInt) = value := by
  have low := value.minValue_le_toInt
  have high := value.toInt_le
  have least : Int32.minValue.toInt = -2147483648 := rfl
  have most : Int32.maxValue.toInt = 2147483647 := rfl
  rw [string2int32, string2int, string2ll_convertToString (by omega) (by omega), Option.getD_some, Int32.ofInt_toInt]

def GroupRead (groups before : GroupPending) : Prop :=
  ∃ out, getGroupPending (encodeGroupPending groups) before = .ok (groups.count, out) ∧ out.count = groups.count ∧
    out.start = groups.start ∧ out.end_ = groups.end_ ∧ groups.consumers <+: out.consumers

/-- The reply has four elements, and so many consumers are read. -/
theorem getGroupPending_encode (groups before : GroupPending) :
    getGroupPending (encodeGroupPending groups) before = (do
      let consumers ← fill (fun i _ => do
        let consumer ← elementAt (.array (groups.consumers.map encodeConsumerPending)) i
        return { name := ← textAt consumer 0, count := string2int32 (← textAt consumer 1) }) 4 0
        (resize 4 {} before.consumers)
      return (groups.count, { groups with consumers := consumers })) := by
  have four : resizeTo (countOf (encodeGroupPending groups)) {} before.consumers =
      .ok (resize 4 {} before.consumers) := resizeTo_natural rfl _ _
  have rounds : (countOf (encodeGroupPending groups)).toInt.toNat = 4 := rfl
  have count : integerAt (encodeGroupPending groups) 0 = .ok groups.count.toInt := rfl
  have start : textAt (encodeGroupPending groups) 1 = .ok groups.start := rfl
  have end_ : textAt (encodeGroupPending groups) 2 = .ok groups.end_ := rfl
  have consumers : elementAt (encodeGroupPending groups) 3 =
      .ok (.array (groups.consumers.map encodeConsumerPending)) := rfl
  rw [getGroupPending, count, Except.bind_ok, start, Except.bind_ok, end_, Except.bind_ok, consumers, Except.bind_ok,
    four, Except.bind_ok, rounds, Int32.ofInt_toInt]

theorem groupRead_iff (groups before : GroupPending) : GroupRead groups before ↔ groups.consumers.length = 4 := by
  constructor
  · rintro ⟨out, ran, -, -, -, ⟨rest, whole⟩⟩
    rw [getGroupPending_encode] at ran
    obtain ⟨consumers, filled, ran⟩ := bind_ok_iff.mp ran
    cases ran
    obtain ⟨long, each⟩ := fill_made filled
    rw [length_resize] at long
    have most : groups.consumers.length ≤ 4 := by
      rw [← long]
      exact (List.IsPrefix.length_le ⟨rest, whole⟩)
    obtain ⟨_, _, -, -, last⟩ := each 3 (by decide)
    obtain ⟨reply, found, -⟩ := bind_ok_iff.mp last
    have least := (List.getElem?_eq_some_iff.mp (elementAt_ok found)).1
    rw [List.length_map] at least
    omega
  · intro four
    have filled : fill (fun i _ => do
        let consumer ← elementAt (.array (groups.consumers.map encodeConsumerPending)) i
        return ({ name := ← textAt consumer 0, count := string2int32 (← textAt consumer 1) } : ConsumerPending)) 4 0
        (resize 4 {} before.consumers) = .ok groups.consumers := by
      rw [← four]
      apply fill_eq 0 (length_resize _ _ _)
      intro i before consumer _ found
      rw [Nat.zero_add, elementAt_map encodeConsumerPending found]
      change Except.ok ({
        name := consumer.name
        count := string2int32 (RedisClient.convertToString consumer.count.toInt) } : ConsumerPending) = _
      rw [string2int32_convertToString]
    refine ⟨groups, ?_, rfl, rfl, rfl, List.prefix_rfl⟩
    rw [getGroupPending_encode, filled]
    rfl

/-- The records are the first of what is read. -/
def ConsumersRead (infos before : List ConsumerInfo) : Prop :=
  ∃ count out, getConsumerInfos (.array (infos.map encodeConsumerInfo)) before = .ok (count, out) ∧ infos <+: out

theorem ofNat_pos {length : ℕ} (filled : 0 < length) (bound : length ≤ intMax) : 0 < Int32.ofNat length := by
  rw [Int32.lt_iff_toInt_lt, Int32.toInt_ofNat_of_lt (Nat.lt_succ_of_le bound)]
  exact Int.natCast_pos.mpr filled

/-- What is read of three arrays, which have no text and no integer. -/
theorem getConsumerInfos_map {infos before : List ConsumerInfo} (bound : infos.length ≤ intMax)
    (long : 3 ≤ infos.length) :
    getConsumerInfos (.array (infos.map encodeConsumerInfo)) before =
      .ok (Int32.ofNat infos.length, List.replicate infos.length {}) := by
  have element (position : ℕ) (inside : position < infos.length) := by
    exact elementAt_map encodeConsumerInfo (List.getElem?_eq_getElem inside)
  have filled : fill (fun _ _ => do
      return ({
        name := ← textAt (.array (infos.map encodeConsumerInfo)) 0
        pendings := Int32.ofInt (← integerAt (.array (infos.map encodeConsumerInfo)) 1)
        idletime := Int64.ofInt (← integerAt (.array (infos.map encodeConsumerInfo)) 2) } : ConsumerInfo))
      infos.length 0 (resize infos.length {} before) = .ok (List.replicate infos.length {}) := by
    have same : (List.replicate infos.length ({} : ConsumerInfo)).length = infos.length := List.length_replicate
    rw [textAt, integerAt, integerAt, element 0 (by omega), element 1 (by omega), element 2 (by omega)]
    have made := @fill_eq _ (fun _ _ => .ok {}) _ (resize infos.length {} before) 0
      ((length_resize _ _ _).trans same.symm) fun i before value _ found =>
        congrArg Except.ok (List.eq_of_mem_replicate (List.mem_of_getElem? found)).symm
    rwa [same] at made
  rw [getConsumerInfos, countOf_map, if_pos (ofNat_pos (by omega) bound), toInt_length bound, Int.toNat_natCast, filled]
  rfl

theorem consumersRead_iff {infos before : List ConsumerInfo} (bound : infos.length ≤ intMax) :
    ConsumersRead infos before ↔ infos = [] ∨ 3 ≤ infos.length ∧ ∀ info ∈ infos, info = {} := by
  constructor
  · rintro ⟨count, out, ran, first⟩
    by_cases none : infos = []
    · exact .inl none
    · right
      have filled := List.length_pos_iff.mpr none
      have long : 3 ≤ infos.length := by
        rw [getConsumerInfos, countOf_map, if_pos (ofNat_pos filled bound), toInt_length bound,
          Int.toNat_natCast] at ran
        obtain ⟨made, ran, -⟩ := bind_ok_iff.mp ran
        obtain ⟨_, _, -, -, each⟩ := (fill_made ran).2 0 filled
        obtain ⟨_, -, each⟩ := bind_ok_iff.mp each
        obtain ⟨_, -, each⟩ := bind_ok_iff.mp each
        obtain ⟨_, third, -⟩ := bind_ok_iff.mp each
        rw [integerAt] at third
        rcases found : elementAt (.array (infos.map encodeConsumerInfo)) 2 with misread | reply
        · rw [found] at third
          cases third
        · have inside := (List.getElem?_eq_some_iff.mp (elementAt_ok found)).1
          rwa [List.length_map] at inside
      rw [getConsumerInfos_map bound long] at ran
      cases ran
      exact ⟨long, fun info member => List.eq_of_mem_replicate (first.subset member)⟩
  · rintro (rfl | ⟨long, blank⟩)
    · exact ⟨0, before, rfl, List.nil_prefix⟩
    · refine ⟨_, _, getConsumerInfos_map bound long, ?_⟩
      rw [← List.eq_replicate_iff.mpr ⟨rfl, blank⟩]

def GroupsRead (infos before : List GroupInfo) : Prop :=
  ∃ count out, getGroupInfos (.array (infos.map encodeGroupInfo)) before = .ok (count, out) ∧ infos <+: out

/-- What the loop makes of a record and a group. -/
def overwrite (before info : GroupInfo) : GroupInfo :=
  { before with name := info.lastDeliveredId, consumers := info.pendings }

theorem overwrite_eq_iff {before info : GroupInfo} :
    overwrite before info = info ↔ info.name = info.lastDeliveredId ∧ info.consumers = info.pendings ∧
      before.pendings = info.pendings ∧ before.lastDeliveredId = info.lastDeliveredId := by
  constructor
  · intro same
    obtain ⟨names, delivered, consumers, pendings⟩ := GroupInfo.mk.inj same
    exact ⟨names.symm, consumers.symm, pendings, delivered⟩
  · rintro ⟨names, consumers, pendings, delivered⟩
    rw [overwrite, ← names, ← consumers, delivered, pendings]

theorem decodeGroupInfo_encodeGroupInfo (info before : GroupInfo) :
    decodeGroupInfo (encodeGroupInfo info) before = .ok (overwrite before info) := by
  change Except.ok
    ({ before with name := info.lastDeliveredId, consumers := Int32.ofInt info.pendings.toInt } : GroupInfo) = _
  rw [Int32.ofInt_toInt]
  rfl

theorem resize_getElem? {α : Type} {size i : ℕ} (inside : i < size) (value : α) (values : List α) :
    (resize size value values)[i]? = some (values[i]?.getD value) := by
  by_cases old : i < values.length
  · rw [resize, List.getElem?_append_left (by rw [List.length_take]; omega), List.getElem?_take_of_lt inside,
      List.getElem?_eq_getElem old]
    rfl
  · have past : (values.take size).length ≤ i := by rw [List.length_take]; omega
    have index : i - (values.take size).length < size - values.length := by rw [List.length_take]; omega
    rw [resize, List.getElem?_append_right past, List.getElem?_replicate_of_lt index,
      List.getElem?_eq_none (not_lt.mp old), Option.getD_none]

theorem getGroupInfos_map {infos before : List GroupInfo} (bound : infos.length ≤ intMax) (filled : 0 < infos.length) :
    getGroupInfos (.array (infos.map encodeGroupInfo)) before =
      .ok (Int32.ofNat infos.length, List.zipWith overwrite (resize infos.length {} before) infos) := by
  have same : (List.zipWith overwrite (resize infos.length {} before) infos).length = infos.length := by
    rw [List.length_zipWith, length_resize, Nat.min_self]
  have made := @fill_eq _ (fun i info => do
      let infoReply ← elementAt (.array (infos.map encodeGroupInfo)) i
      if (elementsOf infoReply).length = 8 then decodeGroupInfo infoReply info else return info) _
    (resize infos.length {} before) 0 ((length_resize _ _ _).trans same.symm) fun i before value held found => by
      obtain ⟨old, info, kept, there, rfl⟩ := List.getElem?_zipWith_eq_some.mp found
      cases held.symm.trans kept
      rw [Nat.zero_add, elementAt_map encodeGroupInfo there]
      exact decodeGroupInfo_encodeGroupInfo info before
  rw [same] at made
  rw [getGroupInfos, countOf_map, if_pos (ofNat_pos filled bound), toInt_length bound, Int.toNat_natCast, made]
  rfl

theorem groupsRead_iff {infos before : List GroupInfo} (bound : infos.length ≤ intMax) :
    GroupsRead infos before ↔ ∀ (i : ℕ) (info : GroupInfo), infos[i]? = some info →
      info.name = info.lastDeliveredId ∧ info.consumers = info.pendings ∧
        (before[i]?.getD {}).pendings = info.pendings ∧
          (before[i]?.getD {}).lastDeliveredId = info.lastDeliveredId := by
  have made (i : ℕ) (info : GroupInfo) (found : infos[i]? = some info) :
      (List.zipWith overwrite (resize infos.length {} before) infos)[i]? =
        some (overwrite (before[i]?.getD {}) info) := by
    have inside := (List.getElem?_eq_some_iff.mp found).1
    exact List.getElem?_zipWith_eq_some.mpr ⟨_, _, resize_getElem? inside {} before, found, rfl⟩
  rcases Nat.eq_zero_or_pos infos.length with none | filled
  · cases List.eq_nil_of_length_eq_zero none
    exact ⟨fun _ => nofun, fun _ => ⟨0, before, rfl, List.nil_prefix⟩⟩
  · constructor
    · rintro ⟨count, out, ran, first⟩ i info found
      rw [getGroupInfos_map bound filled] at ran
      cases ran
      obtain ⟨inside, rfl⟩ := List.getElem?_eq_some_iff.mp found
      have same := (made i _ found).symm.trans (List.prefix_iff_getElem?.mp first i inside)
      exact overwrite_eq_iff.mp (Option.some.inj same)
    · intro each
      refine ⟨_, _, getGroupInfos_map bound filled, List.prefix_iff_getElem?.mpr fun i inside => ?_⟩
      have found := List.getElem?_eq_getElem inside
      rw [made i _ found, overwrite_eq_iff.mpr (each i _ found)]

/-- When the records are filled with what the replies encode: a summary of pending messages has four consumers; there
are no consumers, or three and more that are all blank; and each group has its last delivered ID for a name and as many
consumers as pendings, over a record that has the group's pendings and last delivered ID before. -/
theorem records_filled_iff (groups groupsBefore : GroupPending) (consumers consumersBefore : List ConsumerInfo)
    (infos infosBefore : List GroupInfo) (fewConsumers : consumers.length ≤ intMax) (fewInfos : infos.length ≤ intMax) :
    (GroupRead groups groupsBefore ↔ groups.consumers.length = 4) ∧
    (ConsumersRead consumers consumersBefore ↔
      consumers = [] ∨ 3 ≤ consumers.length ∧ ∀ info ∈ consumers, info = {}) ∧
    (GroupsRead infos infosBefore ↔ ∀ (i : ℕ) (info : GroupInfo), infos[i]? = some info →
      info.name = info.lastDeliveredId ∧ info.consumers = info.pendings ∧
        (infosBefore[i]?.getD {}).pendings = info.pendings ∧
        (infosBefore[i]?.getD {}).lastDeliveredId = info.lastDeliveredId) :=
  ⟨groupRead_iff groups groupsBefore, consumersRead_iff fewConsumers, groupsRead_iff fewInfos⟩

theorem records_filled_iff_one :
    ¬ GroupRead ⟨1, [49], [50], [⟨[99], 1⟩]⟩ {} ∧ ¬ ConsumersRead [⟨[99], 1, 5⟩] [] ∧
      GroupsRead [⟨[103], [103], 2, 2⟩] [⟨[], [103], 0, 2⟩] := by
  obtain ⟨groups, consumers, infos⟩ := records_filled_iff ⟨1, [49], [50], [⟨[99], 1⟩]⟩ {} [⟨[99], 1, 5⟩] []
    [⟨[103], [103], 2, 2⟩] [⟨[], [103], 0, 2⟩] (by decide) (by decide)
  refine ⟨fun read => ?_, fun read => ?_, infos.mpr ?_⟩
  · exact absurd (groups.mp read) (by decide)
  · exact absurd (consumers.mp read) (by decide)
  · rintro (_ | i) info found
    · cases found
      exact ⟨rfl, rfl, rfl, rfl⟩
    · cases found

/-- One consumer of a group is read out of range, as is the only consumer, and the fields of a group are mixed up. -/
theorem records_of_one :
    getGroupPending (encodeGroupPending ⟨1, [49], [50], [⟨[99], 1⟩]⟩) {} = .error .outOfRange ∧
      getConsumerInfos (.array [encodeConsumerInfo ⟨[99], 1, 5⟩]) [] = .error .outOfRange ∧
      getGroupInfos (.array [encodeGroupInfo ⟨[103], [48], 3, 2⟩]) [] = .ok (1, [⟨[48], [], 2, 0⟩]) := by
  decide +kernel

end CppRedis.Soundness.Consumers
