import CppRedis.Machine.Delimited
import CppRedis.Model.R3c.Positions
import CppRedis.Model.R3c.Client
import CppRedis.Soundness.Numerals

/-! # The string of nodes

`parse_nodes` reads what `update_nodes_string` has written: the nodes that a client finds its cluster by when all
masters are lost.
-/

namespace CppRedis.Soundness.Addresses

open Machine Machine.Delimited Model Model.R3c Model.RedisCpp Numerals

variable {str : CppString}

theorem toNat_ofNat_of_fits (fits : Fits str) {position : ℕ} (inside : position ≤ str.length) :
    (UInt64.ofNat position).toNat = position :=
  UInt64.toNat_ofNat_of_lt (Nat.lt_of_le_of_lt inside (Nat.lt_trans fits (by decide)))

theorem findFrom_absent (fits : Fits str) {position : ℕ} (inside : position ≤ str.length) {byte : UInt8}
    (absent : byte ∉ str.drop position) : findFrom str byte (UInt64.ofNat position) = npos := by
  rw [findFrom, toNat_ofNat_of_fits fits inside]
  exact if_neg absent

/-- A text is taken apart at the first byte that is looked for. -/
theorem findFrom_mark (fits : Fits str) {position : ℕ} (inside : position ≤ str.length) {byte : UInt8}
    {before after : CppString} (rest : str.drop position = before ++ byte :: after) (absent : byte ∉ before) :
    findFrom str byte (UInt64.ofNat position) = UInt64.ofNat (position + before.length) ∧
      position + before.length < str.length ∧ str.drop (position + before.length + 1) = after := by
  have size := congrArg List.length rest
  rw [List.length_drop, List.length_append, List.length_cons] at size
  refine ⟨?_, by omega, ?_⟩
  · rw [findFrom, toNat_ofNat_of_fits fits inside, rest, takeWhile_mark absent, UInt64.ofNat_add]
    exact if_pos (List.mem_append_right _ List.mem_cons_self)
  · rw [Nat.add_assoc, ← List.drop_drop, rest, ← List.drop_drop, List.drop_left]
    rfl

/-- A piece of the text. -/
theorem substr_piece (fits : Fits str) {position : ℕ} (inside : position ≤ str.length) {before after : CppString}
    (rest : str.drop position = before ++ after) {len : UInt64}
    (long : len.toNat = before.length ∨ after = [] ∧ before.length < len.toNat) :
    substr str (UInt64.ofNat position) len = some before := by
  rw [substr, toNat_ofNat_of_fits fits inside, if_pos inside, rest]
  rcases long with exact | ⟨rfl, longer⟩
  · rw [exact, List.take_left]
  · rw [List.append_nil, List.take_of_length_le (Nat.le_of_lt longer)]

theorem parseNodes_absent (absent : (0x2C : UInt8) ∉ str) : parseNodes str = (parseNodeString str).toList := by
  rw [parseNodes, List.splitOn_eq_singleton absent, List.filterMap_cons, List.filterMap_nil]
  cases parseNodeString str <;> rfl

theorem parseNodes_append {before after : CppString} (absent : (0x2C : UInt8) ∉ before) :
    parseNodes (before ++ 0x2C :: after) = (parseNodeString before).toList ++ parseNodes after := by
  rw [parseNodes, List.splitOn_append_cons_self_of_not_mem absent, List.filterMap_cons]
  cases parseNodeString before <;> rfl

/-- An empty piece is passed, which has no address. -/
theorem readPiece_of_substr {pos len : UInt64} {piece : CppString} (found : substr str pos len = some piece)
    (short : len = 0 → piece = []) (nodes : List Node) :
    readPiece str pos len nodes = some (nodes ++ (parseNodeString piece).toList) := by
  rw [readPiece, found]
  split
  · rfl
  · next empty =>
    rw [short (UInt64.le_zero_iff.mp (UInt64.not_lt.mp empty))]
    exact congrArg some (List.append_nil nodes).symm

/-- The loop reads the addresses that the commas set apart. -/
theorem parseNodesLoop_eq (fits : Fits str) (rounds position : ℕ) (nodes : List Node) (inside : position ≤ str.length)
    (enough : str.length < rounds + position) :
    parseNodesLoop str rounds (UInt64.ofNat position) nodes = some (nodes ++ parseNodes (str.drop position)) := by
  induction rounds generalizing position nodes with
  | zero => omega
  | succ rounds ih =>
    by_cases there : 0x2C ∈ str.drop position
    · obtain ⟨before, after, rest, absent⟩ := List.eq_append_cons_of_mem there
      obtain ⟨found, early, behind⟩ := findFrom_mark fits inside rest absent
      have here : UInt64.ofNat (position + before.length) ≠ npos := by
        intro same
        have value := toNat_ofNat_of_fits fits (Nat.le_of_lt early)
        rw [same] at value
        unfold Fits at fits
        omega
      have span : UInt64.ofNat (position + before.length) - UInt64.ofNat position = UInt64.ofNat before.length := by
        rw [UInt64.ofNat_add, UInt64.add_comm, UInt64.add_sub_cancel]
      have size : (UInt64.ofNat before.length).toNat = before.length := toNat_ofNat_of_fits fits (by omega)
      have piece : substr str (UInt64.ofNat position) (UInt64.ofNat before.length) = some before :=
        substr_piece fits inside rest (.inl size)
      have short : UInt64.ofNat before.length = 0 → before = [] := by
        intro none
        rw [none] at size
        exact List.eq_nil_of_length_eq_zero size.symm
      have next : UInt64.ofNat (position + before.length) + 1 = UInt64.ofNat (position + before.length + 1) :=
        (UInt64.ofNat_add _ _).symm
      rw [parseNodesLoop, found, if_pos here, span, readPiece_of_substr piece short, rest, parseNodes_append absent,
        ← behind, ← List.append_assoc]
      dsimp only
      rw [if_pos here, next]
      exact ih (position + before.length + 1) _ early (by omega)
    · have found := findFrom_absent fits inside there
      have wrapped : (UInt64.ofNat str.length - npos).toNat = str.length + 1 := by
        have largest : npos.toNat = 18446744073709551615 := rfl
        unfold Fits at fits
        rw [UInt64.toNat_sub, toNat_ofNat_of_fits fits le_rfl]
        omega
      have piece : substr str (UInt64.ofNat position) (UInt64.ofNat str.length - npos) = some (str.drop position) := by
        apply substr_piece fits inside (List.append_nil _).symm
        rw [wrapped, List.length_drop]
        exact .inr ⟨rfl, by omega⟩
      have short : UInt64.ofNat str.length - npos = 0 → str.drop position = [] := by
        intro none
        rw [none] at wrapped
        cases wrapped
      rw [parseNodesLoop, found, if_neg (not_not.mpr rfl), readPiece_of_substr piece short, parseNodes_absent there]
      exact if_neg (not_not.mpr rfl)

theorem parseNodesInto_eq (fits : Fits str) (nodes : List Node) :
    parseNodesInto nodes str = some (nodes ++ parseNodes str) :=
  parseNodesLoop_eq fits (str.length + 1) 0 nodes (Nat.zero_le _) (Nat.lt_succ_self _)

/-- A port is read as it is written, whatever follows. -/
theorem toPort_atoi (port : UInt16) {rest : CppString}
    (stops : ∀ byte ∈ rest.head?, RedisClient.isDigit byte = false) :
    toPort (RedisClient.atoi (RedisClient.convertToString port.toNat ++ rest)) = port := by
  have bound := port.toNat_lt
  have small : (port.toNat : ℤ) % 65536 = port.toNat := by omega
  rw [atoi_convertToString_append (by omega) stops, toPort, small, Int.toNat_natCast, UInt16.ofNat_toNat]

/-- A host without a colon, a port, and what does not count any more. -/
theorem parseNodeString_written {node : Node} (colonless : (0x3A : UInt8) ∉ node.1) {rest : CppString}
    (stops : ∀ byte ∈ rest.head?, RedisClient.isDigit byte = false) :
    parseNodeString (node2string node ++ rest) = some node := by
  have behind : node2string node ++ rest = node.1 ++ 0x3A :: (RedisClient.convertToString node.2.toNat ++ rest) :=
    List.append_assoc ..
  rw [parseNodeString, behind, cut, dropWhile_mark colonless, takeWhile_mark colonless, Option.map_some]
  exact congrArg (fun port => some (node.1, port)) (toPort_atoi node.2 stops)

theorem parseNodeString_node2string {node : Node} (colonless : (0x3A : UInt8) ∉ node.1) :
    parseNodeString (node2string node) = some node := by
  have whole := @parseNodeString_written node colonless [] nofun
  rwa [List.append_nil] at whole

theorem comma_notMem_node2string {node : Node} (commaless : (0x2C : UInt8) ∉ node.1) : 0x2C ∉ node2string node := by
  rw [node2string, List.mem_append, List.mem_cons]
  rintro (host | wrong | port)
  · exact commaless host
  · cases wrong
  · exact notMem_convertToString (by decide) _ port

/-- A host that can be told apart from what surrounds it. -/
def Plain (node : Node) : Prop := (0x2C : UInt8) ∉ node.1 ∧ (0x3A : UInt8) ∉ node.1

instance (node : Node) : Decidable (Plain node) := inferInstanceAs (Decidable (_ ∧ _))

/-- What is written for nodes behind others. -/
def more (nodes : List Node) : CppString := nodes.flatMap fun node => 0x2C :: node2string node

theorem parseNodes_written {node : Node} {nodes : List Node} (plain : ∀ other ∈ node :: nodes, Plain other) :
    parseNodes (node2string node ++ more nodes) = node :: nodes := by
  obtain ⟨commaless, colonless⟩ := plain node List.mem_cons_self
  have first := comma_notMem_node2string commaless
  induction nodes generalizing node with
  | nil =>
    rw [more, List.flatMap_nil, List.append_nil, parseNodes_absent first, parseNodeString_node2string colonless]
    rfl
  | cons next nodes ih =>
    have plainRest := fun other member => plain other (List.mem_cons_of_mem node member)
    obtain ⟨commalessNext, colonlessNext⟩ := plainRest next List.mem_cons_self
    rw [more, List.flatMap_cons, List.cons_append, parseNodes_append first, parseNodeString_node2string colonless]
    exact congrArg (node :: ·) (ih plainRest commalessNext colonlessNext (comma_notMem_node2string commalessNext))

/-- The fold of `update_nodes_string` over a listing. -/
def foldNodesString (client : CRedisClient) (nodesInfo : List NodeInfo) : CppString :=
  (nodesInfo.foldl (fun client nodeinfo => client.updateNodesString nodeinfo) client).nodesString

theorem foldNodesString_filled {client : CRedisClient} (filled : client.nodesString ≠ []) (nodesInfo : List NodeInfo) :
    foldNodesString client nodesInfo = client.nodesString ++ more (nodesInfo.map (·.node)) := by
  induction nodesInfo generalizing client with
  | nil => exact (List.append_nil _).symm
  | cons nodeinfo nodesInfo ih =>
    have next : (client.updateNodesString nodeinfo).nodesString =
        client.nodesString ++ 0x2C :: node2string nodeinfo.node :=
      if_neg filled
    have filledNext : (client.updateNodesString nodeinfo).nodesString ≠ [] := by
      rw [next]
      exact List.append_ne_nil_of_right_ne_nil _ (List.cons_ne_nil _ _)
    exact (ih filledNext).trans (by rw [next, List.append_assoc]; rfl)

theorem foldNodesString_eq {client : CRedisClient} (empty : client.nodesString = []) (nodeinfo : NodeInfo)
    (nodesInfo : List NodeInfo) :
    foldNodesString client (nodeinfo :: nodesInfo) = node2string nodeinfo.node ++ more (nodesInfo.map (·.node)) := by
  have first : (client.updateNodesString nodeinfo).nodesString = node2string nodeinfo.node := if_pos empty
  have filled : (client.updateNodesString nodeinfo).nodesString ≠ [] := by
    rw [first]
    exact List.append_ne_nil_of_right_ne_nil _ (List.cons_ne_nil _ _)
  exact (foldNodesString_filled filled nodesInfo).trans (congrArg (· ++ _) first)

/-- The nodes that a listing writes are read back. -/
theorem nodes_read_back {client : CRedisClient} (empty : client.nodesString = []) {nodesInfo : List NodeInfo}
    (filled : nodesInfo ≠ []) (plain : ∀ nodeinfo ∈ nodesInfo, Plain nodeinfo.node)
    (fits : Fits (foldNodesString client nodesInfo)) :
    parseNodesInto [] (foldNodesString client nodesInfo) = some (nodesInfo.map (·.node)) := by
  rcases nodesInfo with _ | ⟨nodeinfo, nodesInfo⟩
  · exact absurd rfl filled
  · rw [parseNodesInto_eq fits, foldNodesString_eq empty, List.nil_append, parseNodes_written]
    · rfl
    · exact List.forall_mem_map.mpr plain

/-- A node of a listing, for its address. -/
def listedNode (host : String) (port : UInt16) : NodeInfo :=
  { node := (text host, port), id := [], flags := [], masterId := [] }

theorem nodes_read_back_two :
    parseNodesInto [] (foldNodesString (newClient (text "a:1") .onlyMaster) [listedNode "a" 0, listedNode "b" 65535]) =
      some [(text "a", 0), (text "b", 65535)] :=
  nodes_read_back rfl (List.cons_ne_nil _ _) (by decide +kernel) (by decide +kernel)

end CppRedis.Soundness.Addresses
