import Formulary.Node.Basic
import Formulary.Options.Basic

/-!
# Context: what an emission remembers

While code is written for a tree, the context keeps the nodes visited so far, the names of variables
that need a declaration, the running totals that host code asked for, and the denominators that
might be zero.  All lists are in the order in which things happened.
-/

namespace Formulary.Code

/-! ## 1. Running totals -/

/-- A running total, which starts from a literal before the expression. -/
structure Accumulator where
  name : String
  initial : String := "0.0"
  deriving DecidableEq, Repr

/-! ## 2. The context -/

structure Context where
  options : Options := {}
  tokens : List Node := []
  variableNames : List String := []
  accumulators : List Accumulator := []
  divisions : List Node := []

namespace Context

def fresh (options : Options) : Context :=
  { options }

def record (c : Context) (n : Node) : Context :=
  { c with tokens := c.tokens ++ [n] }

/-- Notes that a variable is used; a name is kept once. -/
def addVariable (c : Context) (name : String) : Context :=
  if c.variableNames.contains name then c else { c with variableNames := c.variableNames ++ [name] }

def addAccumulator (c : Context) (total : Accumulator) : Context :=
  { c with accumulators := c.accumulators ++ [total] }

def addDivision (c : Context) (denominator : Node) : Context :=
  { c with divisions := c.divisions ++ [denominator] }

/-- The statement that gives a name a value of the numeric type. -/
def assignment (c : Context) (name literal : String) : String :=
  c.options.numericType.name ++ " " ++ name ++ " = " ++ literal ++ c.options.numberSuffix ++ ";"

def declaration (c : Context) (name : String) : String :=
  c.assignment name "0.0"

/-- The statement that starts a running total. -/
def startOf (c : Context) (total : Accumulator) : String :=
  c.assignment total.name total.initial

/-! ## 3. Looking back -/

/-- Nodes that write nothing of their own around their children. -/
def isTransparent : Node → Bool
  | .row .sequence _ | .row .style _ | .row .root _ => true
  | .leaf .remark _ => true
  | _ => false

/-- Nodes after which a value stands in the code: a name, a number, or a closing bracket. -/
def endsValue : Node → Bool
  | .leaf .identifier _ | .leaf .number _ => true
  | n => n.isClosing

/-- Did a value come right before the node visited last?  Transparent nodes are passed over. -/
def followsValue (c : Context) : Bool :=
  (c.tokens.dropLast.reverse.find? fun n => !isTransparent n).any endsValue

end Context

end Formulary.Code
