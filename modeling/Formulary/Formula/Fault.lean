/-!
# Faults of a formula

What can be wrong with a formula or with a list of nodes on its way to a tree, and how it is said.
-/

namespace Formulary.Formula

inductive Fault where
  /-- A closing bracket closes nothing; where it stands, if that is known. -/
  | unmatchedClosing (position : Option Int)
  /-- An operator lacks one of its two operands. -/
  | danglingOperator (symbol : String)
  /-- A function name has nothing after it. -/
  | danglingFunction (name : String)
  /-- The list holds something that is not a node. -/
  | notANode
  /-- Positions were given, but not for the node at fault. -/
  | unknownPosition
  deriving DecidableEq, Repr

def Fault.message : Fault → String
  | .unmatchedClosing none => "Unmatched ')'"
  | .unmatchedClosing (some position) => "Unmatched ')' at position " ++ toString position
  | .danglingOperator symbol => "Operator '" ++ symbol ++ "' needs two operands"
  | .danglingFunction name => "Function '" ++ name ++ "' needs an argument"
  | .notANode => "not a node"
  | .unknownPosition => "no position for this node"

end Formulary.Formula
