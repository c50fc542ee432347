import CppRedis.Model.R3c.Streams
import CppRedis.Model.R3c.Command

/-! # Records of streams, encoded and decoded

Streams, their entries and detailed pending messages are read back from the replies that encode them, whatever the
output holds before.
-/

namespace CppRedis.Soundness.Streaming

open Machine Model Model.R3c Model.RedisCpp

def encodePairs (fvpairs : List FVPair) : RedisReply :=
  .array (fvpairs.flatMap fun fvpair => [.string fvpair.field, .string fvpair.value])

def encodeEntry (entry : StreamEntry) : RedisReply := .array [.string entry.id, encodePairs entry.fvpairs]

def encodeStream (stream : Stream) : RedisReply :=
  .array [.string stream.key, .array (stream.entries.map encodeEntry)]

def encodePending (pending : DetailedPending) : RedisReply :=
  .array [.string pending.id, .string pending.consumer, .integer pending.elapsed.toInt,
    .integer pending.delivered.toInt]

section

theorem Except.bind_ok {ε α β : Type} (value : α) (next : α → Except ε β) :
    ((.ok value : Except ε α) >>= next) = next value := rfl

variable {α : Type} {decode : ℕ → α → Reading α}

theorem length_resize (size : ℕ) (value : α) (values : List α) : (resize size value values).length = size := by
  rw [resize, List.length_append, List.length_take, List.length_replicate]
  omega

/-- A loop over all positions assigns what is decoded there. -/
theorem fill_eq {made values : List α} (position : ℕ) (long : values.length = made.length)
    (each : ∀ i before value, values[i]? = some before → made[i]? = some value →
      decode (position + i) before = .ok value) :
    fill decode made.length position values = .ok made := by
  induction made generalizing position values with
  | nil => rw [List.eq_nil_of_length_eq_zero long]; rfl
  | cons first made ih =>
    rcases values with _ | ⟨before, values⟩
    · cases long
    · have rest := @ih values (position + 1) (Nat.succ.inj long) fun i before value held found => by
        rw [Nat.add_assoc, Nat.add_comm 1]
        exact each (i + 1) before value held found
      have here : decode position before = .ok first := each 0 before first rfl rfl
      rw [List.length_cons, fill, here, Except.bind_ok, rest]
      rfl

theorem bind_ok_iff {ε α β : Type} {run : Except ε α} {next : α → Except ε β} {result : β} :
    run >>= next = .ok result ↔ ∃ value, run = .ok value ∧ next value = .ok result := by
  cases run with
  | error reason => exact ⟨nofun, nofun⟩
  | ok value => exact ⟨fun ran => ⟨value, rfl, ran⟩, fun ⟨_, same, ran⟩ => Except.ok.inj same ▸ ran⟩

/-- What a loop that ends has decoded at its positions. -/
theorem fill_made {count position : ℕ} {values made : List α} (ran : fill decode count position values = .ok made) :
    made.length = values.length ∧ ∀ i < count, ∃ before value, values[i]? = some before ∧ made[i]? = some value ∧
      decode (position + i) before = .ok value := by
  induction count generalizing position values made with
  | zero =>
    cases ran
    exact ⟨rfl, nofun⟩
  | succ count ih =>
    rcases values with _ | ⟨before, values⟩
    · cases ran
    · obtain ⟨value, here, ran⟩ := bind_ok_iff.mp ran
      obtain ⟨others, rest, ran⟩ := bind_ok_iff.mp ran
      cases ran
      obtain ⟨same, each⟩ := ih rest
      refine ⟨congrArg Nat.succ same, fun i inside => ?_⟩
      cases i with
      | zero => exact ⟨before, value, rfl, rfl, here⟩
      | succ i =>
        have later := each i (Nat.lt_of_succ_lt_succ inside)
        rw [Nat.add_assoc, Nat.add_comm 1] at later
        exact later

end

theorem elementAt_array {element : List RedisReply} {position : ℕ} {reply : RedisReply}
    (found : element[position]? = some reply) : elementAt (.array element) position = .ok reply := by
  rw [elementAt, elementsOf, found]

theorem elementAt_ok {element : List RedisReply} {position : ℕ} {reply : RedisReply}
    (found : elementAt (.array element) position = .ok reply) : element[position]? = some reply := by
  rw [elementAt, elementsOf] at found
  cases there : element[position]? with
  | none =>
    rw [there] at found
    cases found
  | some other =>
    rw [there] at found
    rw [Except.ok.inj found]

theorem elementAt_map {α : Type} (encode : α → RedisReply) {values : List α} {position : ℕ} {value : α}
    (found : values[position]? = some value) : elementAt (.array (values.map encode)) position = .ok (encode value) :=
  elementAt_array (by rw [List.getElem?_map, found]; rfl)

theorem pairs_getElem? (fvpairs : List FVPair) (h : ℕ) (fvpair : FVPair) (found : fvpairs[h]? = some fvpair) :
    (fvpairs.flatMap fun fvpair => [.string fvpair.field, .string fvpair.value])[2 * h]? =
        some (RedisReply.string fvpair.field) ∧
      (fvpairs.flatMap fun fvpair => [.string fvpair.field, .string fvpair.value])[2 * h + 1]? =
        some (RedisReply.string fvpair.value) := by
  induction fvpairs generalizing h with
  | nil => cases found
  | cons first fvpairs ih =>
    cases h with
    | zero =>
      cases found
      exact ⟨rfl, rfl⟩
    | succ h => exact ih h found

theorem length_pairs (fvpairs : List FVPair) :
    (elementsOf (encodePairs fvpairs)).length = 2 * fvpairs.length := by
  rw [encodePairs, elementsOf, List.length_flatMap]
  simp only [List.length_cons, List.length_nil, List.map_const', List.sum_replicate_nat]
  exact Nat.mul_comm _ _

theorem fillPairs_encodePairs {fvpairs before : List FVPair} (long : before.length = fvpairs.length) :
    fillPairs (encodePairs fvpairs) before = .ok fvpairs := by
  have rounds : (2 * fvpairs.length + 1) / 2 = fvpairs.length := by omega
  rw [fillPairs, length_pairs, rounds]
  apply fill_eq 0 long
  intro h before fvpair _ found
  obtain ⟨field, value⟩ := pairs_getElem? fvpairs h fvpair found
  rw [Nat.zero_add, encodePairs, elementAt_array field, Except.bind_ok, elementAt_array value]
  rfl

theorem decodeEntry_encodeEntry (entry before : StreamEntry) : decodeEntry (encodeEntry entry) before = .ok entry := by
  have pairs := fillPairs_encodePairs (length_resize entry.fvpairs.length {} before.fvpairs)
  have half : (elementsOf (encodePairs entry.fvpairs)).length / 2 = entry.fvpairs.length := by
    rw [length_pairs, Nat.mul_div_cancel_left _ (by decide)]
  change (do
    let fvpairs ← fillPairs (encodePairs entry.fvpairs) (resize _ {} before.fvpairs)
    return ({ id := entry.id, fvpairs := fvpairs } : StreamEntry)) = _
  rw [half, pairs]
  rfl

theorem countOf_array {element : List RedisReply} (bound : element.length ≤ intMax) :
    (countOf (.array element)).toInt = element.length :=
  Int32.toInt_ofNat_of_lt (Nat.lt_succ_of_le bound)

theorem resizeTo_natural {α : Type} {size : Int32} {count : ℕ} (same : size.toInt = count) (value : α)
    (values : List α) : resizeTo size value values = .ok (resize count value values) := by
  have natural : 0 ≤ size := by
    rw [Int32.le_iff_toInt_le, same]
    exact Int.natCast_nonneg count
  rw [resizeTo, if_pos natural, same, Int.toNat_natCast]

/-- The `int` that counts the field-value pairs is not negative. -/
theorem getEntry_encodeEntry (entry before : StreamEntry) (bound : 2 * entry.fvpairs.length ≤ intMax) :
    getEntry (encodeEntry entry) before = .ok entry := by
  have pairs := fillPairs_encodePairs (length_resize entry.fvpairs.length {} before.fvpairs)
  have length := length_pairs entry.fvpairs
  have count : (countOf (encodePairs entry.fvpairs) / 2).toInt = entry.fvpairs.length := by
    have whole : (countOf (encodePairs entry.fvpairs)).toInt = (elementsOf (encodePairs entry.fvpairs)).length :=
      countOf_array (length.trans_le bound)
    have two : (2 : Int32).toInt = 2 := rfl
    rw [Int32.toInt_div_of_ne_right _ _ (by decide), whole, length, two]
    push_cast
    exact Int.mul_tdiv_cancel_left _ (by decide)
  change (do
    let fvpairs ← resizeTo (countOf (encodePairs entry.fvpairs) / 2) ({} : FVPair) before.fvpairs
    let fvpairs ← fillPairs (encodePairs entry.fvpairs) fvpairs
    return ({ id := entry.id, fvpairs := fvpairs } : StreamEntry)) = _
  rw [resizeTo_natural count, Except.bind_ok, pairs]
  rfl

theorem fillFrom_map {α : Type} {decode : RedisReply → α → Reading α} {encode : α → RedisReply}
    (reads : ∀ value before, decode (encode value) before = .ok value) (fresh : α) (values before : List α) :
    fillFrom decode fresh (.array (values.map encode)) before = .ok values := by
  have length : (elementsOf (.array (values.map encode))).length = values.length := List.length_map encode
  rw [fillFrom, length]
  apply fill_eq 0 (length_resize _ _ _)
  intro i before value _ found
  rw [Nat.zero_add, elementAt_map encode found]
  exact reads value before

theorem decodeStream_encodeStream (stream before : Stream) :
    decodeStream (encodeStream stream) before = .ok stream := by
  have entries := fillFrom_map decodeEntry_encodeEntry {} stream.entries before.entries
  change (do
    let entries ← fillFrom decodeEntry {} (.array (stream.entries.map encodeEntry)) before.entries
    return ({ key := stream.key, entries := entries } : Stream)) = _
  rw [entries]
  rfl

theorem countOf_map {α : Type} (encode : α → RedisReply) (values : List α) :
    countOf (.array (values.map encode)) = Int32.ofNat values.length := by
  rw [countOf, elementsOf, List.length_map]

theorem toInt_length {α : Type} {values : List α} (bound : values.length ≤ intMax) :
    (Int32.ofNat values.length).toInt = values.length :=
  Int32.toInt_ofNat_of_lt (Nat.lt_succ_of_le bound)

theorem getValues_map {α : Type} {decode : RedisReply → α → Reading α} {encode : α → RedisReply} (asserts : Bool)
    (reads : ∀ value before, decode (encode value) before = .ok value) (fresh : α) (values before : List α) :
    getValues asserts decode fresh (.array (values.map encode)) (some before) =
      .ok (Int32.ofNat values.length, some values) := by
  have passed : (asserts && !isNilOrArray (.array (values.map encode))) = false := Bool.and_false asserts
  rw [getValues, passed, if_neg Bool.false_ne_true]
  · rw [fillFrom_map reads, Except.bind_ok, countOf_map]
    rfl
  · nofun

theorem getDetailedPendings_map (pendings before : List DetailedPending) (bound : pendings.length ≤ intMax) :
    getDetailedPendings (.array (pendings.map encodePending)) before =
      .ok (Int32.ofNat pendings.length, pendings) := by
  have count := toInt_length bound
  rw [getDetailedPendings, countOf_map]
  rw [resizeTo_natural count, Except.bind_ok, count, Int.toNat_natCast, fill_eq 0 (length_resize _ _ _)]
  · rfl
  · intro i before pending _ found
    rw [Nat.zero_add, elementAt_map encodePending found]
    change Except.ok ({
      id := pending.id
      consumer := pending.consumer
      elapsed := Int64.ofInt pending.elapsed.toInt
      delivered := Int64.ofInt pending.delivered.toInt } : DetailedPending) = _
    rw [Int64.ofInt_toInt, Int64.ofInt_toInt]

/-- Streams, entries, detailed pending messages and a single entry are read back from the replies that encode them,
over all outputs; no array of a reply has more elements than an `int` counts. -/
theorem records_read (asserts : Bool) :
    (∀ streams before : List Stream, ∃ count,
      getStreams asserts (.array (streams.map encodeStream)) (some before) = .ok (count, some streams) ∧
        (streams.length ≤ intMax → count.toInt = streams.length)) ∧
    (∀ entries before : List StreamEntry, ∃ count,
      getStreamEntries asserts (.array (entries.map encodeEntry)) (some before) = .ok (count, some entries) ∧
        (entries.length ≤ intMax → count.toInt = entries.length)) ∧
    (∀ pendings before : List DetailedPending, pendings.length ≤ intMax → ∃ count,
      getDetailedPendings (.array (pendings.map encodePending)) before = .ok (count, pendings) ∧
        count.toInt = pendings.length) ∧
    ∀ entry before : StreamEntry, 2 * entry.fvpairs.length ≤ intMax →
      getEntry (encodeEntry entry) before = .ok entry :=
  ⟨fun streams before => ⟨_, getValues_map asserts decodeStream_encodeStream {} streams before, toInt_length⟩,
    fun entries before => ⟨_, getValues_map asserts decodeEntry_encodeEntry {} entries before, toInt_length⟩,
    fun pendings before bound => ⟨_, getDetailedPendings_map pendings before bound, toInt_length bound⟩,
    getEntry_encodeEntry⟩

/-- A stream with two entries, one of them without fields, and an empty stream. -/
def twoStreams : List Stream := [⟨[97], [⟨[49], [⟨[102], [0, 10]⟩]⟩, ⟨[50], []⟩]⟩, ⟨[98], []⟩]

theorem records_read_two :
    getStreams true (.array (twoStreams.map encodeStream)) (some [⟨[1], [⟨[2], []⟩]⟩]) = .ok (2, some twoStreams) ∧
    getStreamEntries true (.array ([⟨[49], [⟨[102], [0, 10]⟩]⟩, ⟨[50], []⟩].map encodeEntry)) (some [⟨[3], []⟩]) =
      .ok (2, some [⟨[49], [⟨[102], [0, 10]⟩]⟩, ⟨[50], []⟩]) ∧
    getDetailedPendings (.array ([⟨[49], [99], 5, 1⟩].map encodePending)) [⟨[1], [2], 3, 4⟩, {}] =
      .ok (1, [⟨[49], [99], 5, 1⟩]) ∧
    getEntry (encodeEntry ⟨[49], [⟨[102], [103]⟩]⟩) {} = .ok ⟨[49], [⟨[102], [103]⟩]⟩ := by
  obtain ⟨streams, entries, pendings, entry⟩ := records_read true
  refine ⟨?_, ?_, ?_, entry _ {} (by decide)⟩
  · obtain ⟨count, read, same⟩ := streams twoStreams [⟨[1], [⟨[2], []⟩]⟩]
    have two : count = 2 := Int32.toInt_inj.mp (same (by decide))
    rw [read, two]
  · obtain ⟨count, read, same⟩ := entries [⟨[49], [⟨[102], [0, 10]⟩]⟩, ⟨[50], []⟩] [⟨[3], []⟩]
    have two : count = 2 := Int32.toInt_inj.mp (same (by decide))
    rw [read, two]
  · obtain ⟨count, read, same⟩ := pendings [⟨[49], [99], 5, 1⟩] [⟨[1], [2], 3, 4⟩, {}] (by decide)
    have one : count = 1 := Int32.toInt_inj.mp same
    rw [read, one]

end CppRedis.Soundness.Streaming
