import Formulary.Formula.Fault
import Formulary.Node.Basic
import Formulary.Symbol

/-!
# Functions: a name and the node after it

The name of a function and the node to its right become a square root.  Only the given row is
looked at: a name inside a bracket stays an identifier.
-/

namespace Formulary.Formula

def functionName? : Node → Option String
  | .leaf .identifier name => if Symbol.isFunction name then some name else none
  | _ => none

/-- Every function name of a row folded with the node after it. -/
def foldFunctions : List Node → Except Fault (List Node)
  | [] => .ok []
  | n :: rest =>
    match functionName? n with
    | some name =>
      match rest with
      | [] => .error (.danglingFunction name)
      | argument :: rest => (foldFunctions rest).map (.unary .squareRoot argument :: ·)
    | none => (foldFunctions rest).map (n :: ·)

end Formulary.Formula
