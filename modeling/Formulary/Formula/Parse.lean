import Formulary.Formula.Function
import Formulary.Formula.Group
import Formulary.Formula.Strip

/-!
# Parsing: from a formula to its tree

The words of the formula become leaves, brackets become sequences, operators and function names are
folded with their neighbours, and brackets that say nothing are dropped.  More than one remaining
node makes one sequence under the root.
-/

namespace Formulary.Formula

/-- What came of a formula: its tree or the fault found, and the passes of the two repeated steps,
for each of them that came to its end. -/
structure Analysis where
  foldPasses : Option Nat
  stripPasses : Option Nat
  result : Except Fault Node

def rootOf (nodes : List Node) : Node :=
  if nodes.length > 1 then .root [.sequence nodes] else .root nodes

def analyse (formula : String) : Analysis :=
  let tokens := Token.scan formula
  match group (leaves tokens) (tokens.map fun t => (t.position : Int)) with
  | .error fault => ⟨none, none, .error fault⟩
  | .ok grouped =>
    match foldOperators grouped with
    | .error fault => ⟨none, none, .error fault⟩
    | .ok folded =>
      match foldFunctions folded.nodes with
      | .error fault => ⟨some folded.passes, none, .error fault⟩
      | .ok applied =>
        match stripBrackets applied with
        | .error fault => ⟨some folded.passes, none, .error fault⟩
        | .ok stripped => ⟨some folded.passes, some stripped.passes, .ok (rootOf stripped.nodes)⟩

def parse (formula : String) : Except Fault Node :=
  (analyse formula).result

end Formulary.Formula
