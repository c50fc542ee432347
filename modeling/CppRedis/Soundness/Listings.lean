import CppRedis.Soundness.Addresses
import CppRedis.Soundness.Rounds

/-! # What `CLUSTER NODES` says

Records of nodes, written one per line as a Redis server writes them, and what `list_cluster_nodes` reads there. It
takes the reply for a string that ends at its first zero byte, and the number of a slot for an `int`.
-/

namespace CppRedis.Soundness.Listings

open Machine Machine.Delimited Machine.Effect Model Model.R3c Model.RedisCpp Numerals Addresses

/-- The flags that `r3c.h` lists; `fail?` is `pfail` here. -/
inductive Flag where
  | myself
  | master
  | slave
  | pfail
  | fail
  | handshake
  | noaddr
  | noflags
deriving DecidableEq

def Flag.token : Flag → CppString
  | .myself => text "myself"
  | .master => text "master"
  | .slave => text "slave"
  | .pfail => text "fail?"
  | .fail => text "fail"
  | .handshake => text "handshake"
  | .noaddr => text "noaddr"
  | .noflags => text "noflags"

/-- A slot, a range of slots, or a slot on its way to another node. -/
inductive SlotToken where
  | one (slot : ℕ)
  | range (start stop : ℕ)
  | migrating (inside : CppString)

namespace SlotToken

def token : SlotToken → CppString
  | one slot => RedisClient.convertToString slot
  | range start stop => RedisClient.convertToString start ++ 0x2D :: RedisClient.convertToString stop
  | migrating inside => 0x5B :: (inside ++ [0x5D])

def segment? : SlotToken → Option (ℤ × ℤ)
  | one slot => some (slot, slot)
  | range start stop => some (start, stop)
  | migrating _ => none

end SlotToken

/-- What a line says of a node. -/
structure NodeRecord where
  id : CppString
  host : CppString
  port : UInt16
  cport : Option ℕ
  flags : List Flag
  masterId : CppString
  pingSent : CppString
  pongRecv : CppString
  epoch : CppString
  connected : Bool
  slots : List SlotToken

namespace NodeRecord

variable (record : NodeRecord)

def node : Node := (record.host, record.port)

def address : CppString :=
  node2string record.node ++ (record.cport.elim [] fun cport => 0x40 :: RedisClient.convertToString cport)

def flagsToken : CppString := [0x2C].intercalate (record.flags.map (·.token))

def tokens : List CppString :=
  [record.id, record.address, record.flagsToken, record.masterId, record.pingSent, record.pongRecv, record.epoch,
    text (if record.connected then "connected" else "disconnected")] ++ record.slots.map (·.token)

def line : CppString := [0x20].intercalate record.tokens

/-- A master that is not failing, for certain or perhaps. -/
def serves : Bool := .master ∈ record.flags ∧ .fail ∉ record.flags ∧ .pfail ∉ record.flags

def segments : List (ℤ × ℤ) := if record.serves then record.slots.filterMap (·.segment?) else []

/-- The tokens are filled and the node can be read. -/
structure Formed : Prop where
  filled : record.id ≠ [] ∧ record.masterId ≠ [] ∧ record.pingSent ≠ [] ∧ record.pongRecv ≠ [] ∧ record.epoch ≠ []
  flagged : record.flags ≠ []
  colonless : (0x3A : UInt8) ∉ record.host
  /-- No token has a blank or a newline. -/
  unbroken : ∀ token ∈ record.tokens, (0x20 : UInt8) ∉ token ∧ (0x0A : UInt8) ∉ token

/-- No token has a zero byte. -/
def Visible : Prop := ∀ token ∈ record.tokens, (0 : UInt8) ∉ token

/-- The slots that are served are of type `int`. -/
def Bounded : Prop := ∀ segment ∈ record.segments, segment.1 ≤ (intMax : ℤ) ∧ segment.2 ≤ (intMax : ℤ)

/-- What is read is what the record says. -/
structure ReadAs (nodeinfo : NodeInfo) : Prop where
  id : nodeinfo.id = record.id
  node : nodeinfo.node = record.node
  flags : nodeinfo.flags = record.flagsToken
  masterId : nodeinfo.masterId = record.masterId
  connected : nodeinfo.connected = record.connected
  slots : nodeinfo.slots = record.segments

end NodeRecord

/-- The listing of some nodes. -/
def render (records : List NodeRecord) : CppString := (records.map (·.line)).flatMap fun line => line ++ [0x0A]

theorem isMaster_token (flag : Flag) : text "master" <:+: flag.token ↔ flag = .master := by
  cases flag <;> decide +kernel

theorem isFail_token (flag : Flag) : text "fail" <:+: flag.token ↔ flag = .fail ∨ flag = .pfail := by
  cases flag <;> decide +kernel

theorem infix_flagsToken {record : NodeRecord} {pattern : CppString} (absent : 0x2C ∉ pattern)
    (filled : pattern ≠ []) : pattern <:+: record.flagsToken ↔ ∃ flag ∈ record.flags, pattern <:+: flag.token := by
  rw [NodeRecord.flagsToken, infix_intercalate absent filled]
  simp only [List.mem_map, exists_exists_and_eq_and]

section

variable {record : NodeRecord} {nodeinfo : NodeInfo}

theorem isMaster_iff (flags : nodeinfo.flags = record.flagsToken) : nodeinfo.isMaster ↔ .master ∈ record.flags := by
  rw [NodeInfo.isMaster, decide_eq_true_iff, flags, infix_flagsToken (by decide) (by decide)]
  constructor
  · rintro ⟨flag, member, inside⟩
    exact (isMaster_token flag).mp inside ▸ member
  · exact fun member => ⟨.master, member, (isMaster_token _).mpr rfl⟩

theorem isFail_iff (flags : nodeinfo.flags = record.flagsToken) :
    nodeinfo.isFail ↔ .fail ∈ record.flags ∨ .pfail ∈ record.flags := by
  rw [NodeInfo.isFail, decide_eq_true_iff, flags, infix_flagsToken (by decide) (by decide)]
  constructor
  · rintro ⟨flag, member, inside⟩
    rcases (isFail_token flag).mp inside with rfl | rfl
    · exact .inl member
    · exact .inr member
  · rintro (member | member)
    · exact ⟨_, member, (isFail_token _).mpr (.inl rfl)⟩
    · exact ⟨_, member, (isFail_token _).mpr (.inr rfl)⟩

theorem liveMaster_eq (flags : nodeinfo.flags = record.flagsToken) : nodeinfo.liveMaster = record.serves := by
  rw [Bool.eq_iff_iff, NodeInfo.liveMaster, Bool.and_eq_true, Bool.not_eq_true', ← Bool.not_eq_true, isMaster_iff flags,
    isFail_iff flags, not_or, NodeRecord.serves, decide_eq_true_iff]

end

theorem head_convertToString (value : ℕ) (rest : CppString) :
    (RedisClient.convertToString value ++ rest).head? ≠ some 0x5B := by
  obtain ⟨_, digits, filled⟩ := digits_convertToString value
  intro bracket
  rcases written : RedisClient.convertToString value with _ | ⟨first, others⟩
  · exact filled written
  · rw [written] at bracket digits
    cases bracket
    exact absurd (digits _ List.mem_cons_self) (by decide)

theorem atoi_slot {slot : ℕ} (small : (slot : ℤ) ≤ (intMax : ℤ)) :
    RedisClient.atoi (RedisClient.convertToString slot) = slot := by
  rw [intMax] at small
  exact atoi_convertToString (by omega)

/-- A token of slots that are served. -/
theorem parseSlotString_token {slot : SlotToken} {segment : ℤ × ℤ} (served : slot.segment? = some segment)
    (bounded : segment.1 ≤ (intMax : ℤ) ∧ segment.2 ≤ (intMax : ℤ)) :
    slot.token.head? ≠ some 0x5B ∧ parseSlotString slot.token = segment := by
  have barless : ∀ value : ℕ, (0x2D : UInt8) ∉ RedisClient.convertToString value := notMem_convertToString (by decide)
  cases slot with
  | one slot =>
    cases served
    have head := head_convertToString slot []
    rw [List.append_nil] at head
    refine ⟨head, ?_⟩
    rw [SlotToken.token, parseSlotString, cut, dropWhile_absent (barless slot)]
    dsimp only
    rw [atoi_slot bounded.1]
  | range start stop =>
    cases served
    refine ⟨head_convertToString start _, ?_⟩
    rw [SlotToken.token, parseSlotString, cut, dropWhile_mark (barless start), takeWhile_mark (barless start)]
    dsimp only
    rw [atoi_slot bounded.1, atoi_slot bounded.2]
  | migrating inside => cases served

theorem parseSlots_tokens {slots : List SlotToken}
    (bounded : ∀ segment ∈ slots.filterMap (·.segment?), segment.1 ≤ (intMax : ℤ) ∧ segment.2 ≤ (intMax : ℤ)) :
    ((slots.map (·.token)).filter fun token => token.head? ≠ some 0x5B).map parseSlotString =
      slots.filterMap (·.segment?) := by
  rw [List.filter_map, List.map_map, ← List.filterMap_eq_map, List.filterMap_filter]
  apply List.filterMap_congr
  intro slot member
  rcases served : slot.segment? with _ | segment
  · cases slot with
    | one slot => cases served
    | range start stop => cases served
    | migrating inside => rfl
  · have fits := bounded segment (List.mem_filterMap.mpr ⟨slot, member, served⟩)
    obtain ⟨head, same⟩ := parseSlotString_token served fits
    simp only [Function.comp_apply, head, same, ne_eq, not_false_eq_true, decide_true, if_true]

section

variable {record : NodeRecord}

theorem parseNodeString_address (formed : record.Formed) : parseNodeString record.address = some record.node := by
  apply parseNodeString_written formed.colonless
  rcases record.cport with _ | cport
  · exact nofun
  · rintro _ ⟨⟩
    decide

theorem parseRow_tokens (formed : record.Formed) (bounded : record.Bounded) :
    ∃ nodeinfo, parseRow record.tokens = some nodeinfo ∧ record.ReadAs nodeinfo := by
  have link : decide (text (if record.connected then "connected" else "disconnected") = text "connected") =
      record.connected := by
    cases record.connected <;> decide +kernel
  rw [NodeRecord.tokens, List.cons_append, List.cons_append, List.cons_append, List.cons_append, List.cons_append,
    List.cons_append, List.cons_append, List.cons_append, List.nil_append, parseRow, parseNodeString_address formed,
    Option.map_some]
  refine ⟨_, rfl, ?_⟩
  dsimp only
  rw [liveMaster_eq rfl]
  rw [NodeRecord.Bounded] at bounded
  cases serving : record.serves
  · exact ⟨rfl, rfl, rfl, rfl, link, by rw [NodeRecord.segments, serving]; rfl⟩
  · have segments : record.segments = record.slots.filterMap (·.segment?) := by rw [NodeRecord.segments, serving]; rfl
    rw [segments] at bounded
    exact ⟨rfl, rfl, rfl, rfl, link, (parseSlots_tokens bounded).trans segments.symm⟩

/-- A line has no bytes but those of its tokens and blanks. -/
theorem notMem_line {byte : UInt8} (other : byte ≠ 0x20) (absent : ∀ token ∈ record.tokens, byte ∉ token) :
    byte ∉ record.line := by
  rw [← List.singleton_infix_iff, NodeRecord.line,
    infix_intercalate (by rwa [List.mem_singleton, eq_comm]) (List.cons_ne_nil _ _)]
  rintro ⟨token, member, inside⟩
  exact absent token member ((List.singleton_infix_iff ..).mp inside)

theorem split_line (formed : record.Formed) : split record.line 0x20 = record.tokens := by
  have parts : record.line.splitOn 0x20 = record.tokens :=
    List.splitOn_intercalate 0x20 (fun token member => (formed.unbroken token member).1) (List.cons_ne_nil _ _)
  have filled : record.line ≠ [] := by
    intro empty
    rw [empty] at parts
    exact absurd (congrArg (·[1]?) parts) nofun
  rw [R3c.split, if_neg filled, parts]

end

/-- The lines are read up to the empty text behind the last newline. -/
theorem parseRows_lines {records : List NodeRecord} (formed : ∀ record ∈ records, record.Formed)
    (bounded : ∀ record ∈ records, record.Bounded) (before : List NodeInfo) :
    ∃ nodesInfo, parseRows before (records.map (·.line) ++ [[]]) = (before ++ nodesInfo, {}) ∧
      List.Forall₂ NodeRecord.ReadAs records nodesInfo := by
  induction records generalizing before with
  | nil => exact ⟨[], by rw [List.append_nil]; rfl, .nil⟩
  | cons record records ih =>
    obtain ⟨nodeinfo, parsed, readAs⟩ :=
      parseRow_tokens (formed record List.mem_cons_self) (bounded record List.mem_cons_self)
    obtain ⟨nodesInfo, ran, rest⟩ := ih (fun other member => formed other (List.mem_cons_of_mem _ member))
      (fun other member => bounded other (List.mem_cons_of_mem _ member)) (before ++ [nodeinfo])
    refine ⟨nodeinfo :: nodesInfo, ?_, .cons readAs rest⟩
    rw [List.map_cons, List.cons_append, parseRows, split_line (formed record List.mem_cons_self),
      if_neg (show record.tokens ≠ [] from List.cons_ne_nil _ _), parsed]
    dsimp only
    rw [ran, List.append_assoc]
    rfl

theorem cStr_render {records : List NodeRecord} (visible : ∀ record ∈ records, record.Visible) :
    cStr (render records) = render records := by
  apply List.takeWhile_eq_self_iff.mpr
  intro byte member
  obtain ⟨line, lines, inside⟩ := List.mem_flatMap.mp member
  obtain ⟨record, recorded, rfl⟩ := List.mem_map.mp lines
  apply decide_eq_true
  rintro rfl
  rcases List.mem_append.mp inside with within | newline
  · exact notMem_line (by decide) (visible record recorded) within
  · cases List.mem_singleton.mp newline

theorem parseListing_render {records : List NodeRecord} (filled : records ≠ [])
    (formed : ∀ record ∈ records, record.Formed) (visible : ∀ record ∈ records, record.Visible)
    (bounded : ∀ record ∈ records, record.Bounded) :
    ∃ nodesInfo, parseListing (.string (render records)) = .ok (nodesInfo, {}) ∧
      List.Forall₂ NodeRecord.ReadAs records nodesInfo := by
  obtain ⟨nodesInfo, ran, readAs⟩ := parseRows_lines formed bounded []
  have ends : ∀ line ∈ records.map (·.line), (0x0A : UInt8) ∉ line := by
    intro line member
    obtain ⟨record, recorded, rfl⟩ := List.mem_map.mp member
    exact notMem_line (by decide) fun token inside => ((formed record recorded).unbroken token inside).2
  have lines := splitOn_flatMap ends
  have there : render records ≠ [] := by
    intro empty
    rw [render] at empty
    rw [empty] at lines
    have length := congrArg List.length lines
    rw [List.length_append, List.length_map] at length
    exact filled (List.eq_nil_of_length_eq_zero (Nat.succ.inj length).symm)
  refine ⟨nodesInfo, ?_, readAs⟩
  have pieces : split (render records) 0x0A = records.map (·.line) ++ [[]] := (if_neg there).trans lines
  have some_pieces : records.map (·.line) ++ [[]] ≠ [] := List.append_ne_nil_of_right_ne_nil _ (List.cons_ne_nil _ _)
  rw [parseListing, cStr_render visible, pieces, if_neg some_pieces, ran, List.nil_append]

/-- The answer to `CLUSTER NODES` is a listing of these records. -/
def Lists (env : Env) (source : World) (node : Node) (records : List NodeRecord) : Prop :=
  env.answer source.log .clusterNodes node = .reply (.string (render records))

/-- `list_cluster_nodes` returns true, and these records. -/
def Reads (env : Env) (redisNode : Option NodeRef) (node : Node) (source : World) (records : List NodeRecord) : Prop :=
  ∃ nodesInfo, (listClusterNodes env redisNode node {} source).1 = .ok (some nodesInfo, {}) ∧
    List.Forall₂ NodeRecord.ReadAs records nodesInfo

/-- The records are read as they were written, if a string can hold them and an `int` every slot. -/
theorem listing_read (env : Env) (redisNode : Option NodeRef) (node : Node) (source : World) {records : List NodeRecord}
    (filled : records ≠ []) (formed : ∀ record ∈ records, record.Formed) (visible : ∀ record ∈ records, record.Visible)
    (bounded : ∀ record ∈ records, record.Bounded) (lists : Lists env source node records) :
    Reads env redisNode node source records := by
  obtain ⟨nodesInfo, parsed, readAs⟩ := parseListing_render filled formed visible bounded
  have listed : nodesInfo ≠ [] := by
    rintro rfl
    exact filled (List.forall₂_nil_right_iff.mp readAs)
  have sent : send env .clusterNodes redisNode node {} source = (.ok (some (.string (render records)), {}),
      source.note (.request .clusterNodes redisNode node (.reply (.string (render records))))) := by
    rw [send, if_neg (by decide), bind_of_ok (get_apply source), lists]
    rfl
  refine ⟨nodesInfo, ?_, readAs⟩
  rw [listClusterNodes, bind_of_ok sent]
  dsimp only
  rw [parsed]
  dsimp only
  rw [bind_of_ok (Rounds.set_errinfo _ _), if_neg listed]
  rfl

/-- A server that answers with a listing. -/
def listingEnv (records : List NodeRecord) : Env :=
  Rounds.plainEnv (fun _ => true) fun _ _ _ => .reply (.string (render records))

def listingWorld : World := { client := Rounds.lossyClient }

/-- A master with an id, of which two slots are served and one is migrating. -/
def masterRecord (id : CppString) : NodeRecord where
  id := id
  host := text "h"
  port := 6379
  cport := some 16379
  flags := [.myself, .master]
  masterId := text "-"
  pingSent := text "0"
  pongRecv := text "1"
  epoch := text "2"
  connected := true
  slots := [.one 5, .migrating (text "7->-b"), .range 8 9]

def replicaRecord : NodeRecord :=
  { masterRecord (text "b") with cport := none, flags := [.slave, .pfail], masterId := text "a", connected := false }

theorem masterRecord_formed : (masterRecord (text "a")).Formed :=
  ⟨by decide +kernel, by decide +kernel, by decide +kernel, by decide +kernel⟩

theorem replicaRecord_formed : replicaRecord.Formed :=
  ⟨by decide +kernel, by decide +kernel, by decide +kernel, by decide +kernel⟩

theorem listing_read_two : Reads (listingEnv [masterRecord (text "a"), replicaRecord]) none (text "h", 6379)
    listingWorld [masterRecord (text "a"), replicaRecord] := by
  refine listing_read _ _ _ _ (List.cons_ne_nil _ _) ?_ ?_ ?_ (by rw [Lists]; rfl)
  · exact List.forall_mem_cons.mpr ⟨masterRecord_formed, List.forall_mem_singleton.mpr replicaRecord_formed⟩
  · exact List.forall_mem_cons.mpr ⟨by unfold NodeRecord.Visible; decide +kernel,
      List.forall_mem_singleton.mpr (by unfold NodeRecord.Visible; decide +kernel)⟩
  · exact List.forall_mem_cons.mpr ⟨by unfold NodeRecord.Bounded; decide +kernel,
      List.forall_mem_singleton.mpr (by unfold NodeRecord.Bounded; decide +kernel)⟩

/-- What a call of `list_cluster_nodes` that returns true lists as slots. -/
def listedSlots : Except R3c.Fault (Option (List NodeInfo) × RedisContext) → List (List (ℤ × ℤ))
  | .ok (some nodesInfo, _) => nodesInfo.map (·.slots)
  | _ => []

theorem Reads.slots {env : Env} {redisNode : Option NodeRef} {node : Node} {source : World} {records : List NodeRecord}
    (reads : Reads env redisNode node source records) :
    listedSlots (listClusterNodes env redisNode node {} source).1 = records.map (·.segments) := by
  obtain ⟨nodesInfo, ran, readAs⟩ := reads
  rw [ran, listedSlots]
  clear ran
  induction readAs with
  | nil => rfl
  | cons here _ ih => rw [List.map_cons, List.map_cons, here.slots, ih]

/-- A master with one slot, whose number no `int` holds. -/
def farRecord : NodeRecord := { masterRecord (text "a") with slots := [.one 4294967301] }

/-- A slot whose number no `int` holds is read as another one, and a zero byte ends the listing. -/
theorem listing_misread :
    (¬ ∀ (env : Env) (redisNode : Option NodeRef) (node : Node) (source : World) (records : List NodeRecord),
      records ≠ [] → (∀ record ∈ records, record.Formed) → (∀ record ∈ records, record.Visible) →
      Lists env source node records → Reads env redisNode node source records) ∧
    ¬ ∀ (env : Env) (redisNode : Option NodeRef) (node : Node) (source : World) (records : List NodeRecord),
      records ≠ [] → (∀ record ∈ records, record.Formed) → (∀ record ∈ records, record.Bounded) →
      Lists env source node records → Reads env redisNode node source records := by
  constructor
  · intro reads
    have formed : farRecord.Formed := ⟨by decide +kernel, by decide +kernel, by decide +kernel, by decide +kernel⟩
    have read := reads (listingEnv [farRecord]) none (text "h", 6379) listingWorld [farRecord] (List.cons_ne_nil _ _)
      (List.forall_mem_singleton.mpr formed)
      (List.forall_mem_singleton.mpr (by unfold NodeRecord.Visible; decide +kernel)) rfl
    exact absurd read.slots (by decide +kernel)
  · intro reads
    have formed : (masterRecord [0x61, 0]).Formed :=
      ⟨by decide +kernel, by decide +kernel, by decide +kernel, by decide +kernel⟩
    have read := reads (listingEnv [masterRecord [0x61, 0]]) none (text "h", 6379) listingWorld
      [masterRecord [0x61, 0]] (List.cons_ne_nil _ _) (List.forall_mem_singleton.mpr formed)
      (List.forall_mem_singleton.mpr (by unfold NodeRecord.Bounded; decide +kernel)) rfl
    exact absurd read.slots (by decide +kernel)

end CppRedis.Soundness.Listings
