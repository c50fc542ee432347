import CppRedis.Model.R3c.Listing

/-! # The addresses of a text, position by position

The loop of `parse_nodes`, from `utils.cpp`. Its positions are of type `size_t`, whose largest value is what `find`
returns for a byte that is not there. A text is shorter than that.
-/

namespace CppRedis.Model.R3c

open Machine

/-- `std::string::npos`. -/
def npos : UInt64 := 18446744073709551615

/-- A text that a `std::string` holds. -/
def Fits (str : CppString) : Prop := str.length < npos.toNat

instance (str : CppString) : Decidable (Fits str) := inferInstanceAs (Decidable (_ < _))

/-- `find`, from a position. -/
def findFrom (str : CppString) (byte : UInt8) (pos : UInt64) : UInt64 :=
  let rest := str.drop pos.toNat
  if byte ∈ rest then pos + UInt64.ofNat (rest.takeWhile (· ≠ byte)).length else npos

/-- `substr`; `none` when it throws. -/
def substr (str : CppString) (pos len : UInt64) : Option CppString :=
  if pos.toNat ≤ str.length then some ((str.drop pos.toNat).take len.toNat) else none

/-- The address in a piece that is not empty. -/
def readPiece (nodesString : CppString) (pos len : UInt64) (nodes : List Node) : Option (List Node) :=
  if 0 < len then (substr nodesString pos len).map fun str => nodes ++ (parseNodeString str).toList else some nodes

/-- The loop of `parse_nodes`, for some rounds; `none` when they do not suffice. -/
def parseNodesLoop (nodesString : CppString) : ℕ → UInt64 → List Node → Option (List Node)
  | 0, _, _ => none
  | rounds + 1, pos, nodes =>
      let commaPos := findFrom nodesString 0x2C pos
      let len := if commaPos ≠ npos then commaPos - pos else UInt64.ofNat nodesString.length - commaPos
      match readPiece nodesString pos len nodes with
      | none => none
      | some nodes => if commaPos ≠ npos then parseNodesLoop nodesString rounds (commaPos + 1) nodes else some nodes

/-- `parse_nodes`, over the addresses that are there before. No text takes more rounds. -/
def parseNodesInto (nodes : List Node) (nodesString : CppString) : Option (List Node) :=
  parseNodesLoop nodesString (nodesString.length + 1) 0 nodes

end CppRedis.Model.R3c
