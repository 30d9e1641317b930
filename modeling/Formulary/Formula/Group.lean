import Formulary.Formula.Fault
import Formulary.Node.Basic
import Formulary.Token

/-!
# Grouping: one sequence for every pair of brackets

The words of a formula become leaves, and every run of leaves from an opening bracket to the closing
bracket that matches it becomes a sequence that keeps both brackets.  An opening bracket that is
never closed stays a leaf of the row it stands in; a closing bracket that closes nothing is a fault.
-/

namespace Formulary.Formula

/-! ## 1. Leaves -/

def leafKind : Token.Kind → LeafKind
  | .operator => .operator
  | .number => .number
  | .identifier => .identifier

def leafOfToken (t : Token) : Node :=
  .leaf (leafKind t.kind) t.text

def leaves (tokens : List Token) : List Node :=
  tokens.map leafOfToken

/-! ## 2. Groups -/

/-- The position of the node with the given index; without any positions it is not known. -/
def positionAt (positions : List Int) (index : Nat) : Except Fault (Option Int) :=
  if positions.isEmpty then .ok none
  else match positions[index]? with
    | some position => .ok (some position)
    | none => .error .unknownPosition

/-- The fault of a closing bracket, the node with the given index, that closes nothing. -/
def unmatchedAt (positions : List Int) (index : Nat) : Fault :=
  match positionAt positions index with
  | .ok position => .unmatchedClosing position
  | .error fault => fault

/-- The rows that are still open when the list ends: each keeps its place in the row around it. -/
def closeAll (current : List Node) : List (List Node) → List Node
  | [] => current
  | row :: outer => closeAll (row ++ current) outer

/-- Reads the nodes from the given index on, while `current` is the innermost open row so far and
`outer` holds the rows around it, the nearest first. -/
def groupFrom (positions : List Int) (index : Nat) (current : List Node)
    (outer : List (List Node)) : List Node → Except Fault (List Node)
  | [] => .ok (closeAll current outer)
  | n :: rest =>
    if n.isOpening then groupFrom positions (index + 1) [n] (current :: outer) rest
    else if n.isClosing then
      match outer with
      | [] => .error (unmatchedAt positions index)
      | row :: outer =>
        groupFrom positions (index + 1) (row ++ [.sequence (current ++ [n])]) outer rest
    else groupFrom positions (index + 1) (current ++ [n]) outer rest

/-- Every bracketed run of nodes as a sequence.  The positions of the nodes, if there are any, serve
to name the place of a fault. -/
def group (nodes : List Node) (positions : List Int) : Except Fault (List Node) :=
  groupFrom positions 0 [] [] nodes

end Formulary.Formula
