import Formulary.Code.Context
import Formulary.Node.Name

/-!
# Emission: code for a tree

Code is written from left to right, one node after the other, while a context keeps what later parts
need.  A node that begins a bracket or a call right after a value gets a `*` in front.  A root adds
the end of the statement and, in front of everything written so far, the lines that the statement
needs: running totals, declarations, and assertions about denominators.

A fault stops the emission, and what was written and recorded before it stays.
-/

namespace Formulary.Code

/-! ## 1. Steps -/

inductive Fault where
  /-- Something that is not a node, by the title of what it is. -/
  | notANode (title : String)
  /-- A node of no particular kind. -/
  | unknownKind (title : String)
  /-- A node, by its title, lacks a child. -/
  | missingChild (title : String)
  deriving DecidableEq, Repr

def Fault.message : Fault → String
  | .notANode title => "Expected a math node, got " ++ title
  | .unknownKind title => "Unknown node type: " ++ title
  | .missingChild title => title ++ " is missing a child"

/-- The code written so far and the context. -/
structure Draft where
  context : Context
  text : String := ""

/-- One step of an emission: the draft after it, and the fault that stopped it, if any. -/
abbrev Step := Draft → Draft × Option Fault

def skip : Step := fun d => (d, none)

def fail (fault : Fault) : Step := fun d => (d, some fault)

/-- Several steps one after the other; none is taken after a fault. -/
def inOrder : List Step → Step
  | [] => skip
  | step :: rest => fun d =>
    match step d with
    | (d, none) => inOrder rest d
    | (d, some fault) => (d, some fault)

def write (s : String) : Step := fun d =>
  ({ d with text := d.text ++ s }, none)

def note (change : Context → Context) : Step := fun d =>
  ({ d with context := change d.context }, none)

def record (n : Node) : Step :=
  note (·.record n)

/-- Writes a sign that belongs to the node around it, and records it as an operator. -/
def punctuate (symbol : String) : Step :=
  inOrder [record (.operator symbol), write symbol]

/-- Writes `*` if the node visited last follows a value. -/
def times : Step := fun d =>
  if d.context.followsValue then write "*" d else skip d

def writeOption (text : Options → String) : Step := fun d =>
  write (text d.context.options) d

/-- Stops if a child is missing. -/
def require (parent child : Node) : Step :=
  match child with
  | .missing => fail (.missingChild parent.title)
  | _ => skip

/-! ## 2. Leaves -/

/-- The symbol in code for an operator of the markup language. -/
def codeSymbol : String → String
  | "\u2212" => "-"
  | "\u00D7" | "\u22C5" | "\u00B7" | "\u2062" => "*"
  | "\u00F7" => "/"
  | symbol => symbol

def visitLeaf (kind : LeafKind) (text : String) : Step :=
  match kind with
  | .identifier => inOrder [note (·.addVariable text), write text]
  | .number => inOrder [write text, writeOption Options.numberSuffix]
  | .operator => inOrder [if text = "(" then times else skip, write (codeSymbol text)]
  | .remark => skip

/-! ## 3. Operands of a division -/

/-- A node that needs no brackets as an operand of a division. -/
def isAtomic : Node → Bool
  | .leaf .identifier _ | .leaf .number _ => true
  | .leaf .operator _ | .leaf .remark _ => false
  | .unary .. => true
  | .binary .power _ _ => true
  | .binary .fraction _ _ => false
  | .row _ [n] => isAtomic n
  | .row .sequence items => Node.hasBracketPair items
  | .row _ _ => false
  | .bare | .missing | .stray _ => false

/-- Writes an operand of a division by the given step, in brackets if it needs them. -/
def visitOperand (n : Node) (step : Step) : Step :=
  if isAtomic n then step else inOrder [punctuate "(", step, punctuate ")"]

/-! ## 4. Roots -/

/-- The assertion that a denominator, given as code, is not zero. -/
def assertion (denominator : String) : String :=
  "Debug.Assert(" ++ denominator ++ " != 0, \"Expression " ++ denominator ++
    " is about to cause division by zero.\");"

/-- The assertions for some denominators, one to a line, or the first fault among them.  `code`
gives the code of a denominator. -/
def assertions (code : Node → Except Fault String) : List Node → Except Fault String
  | [] => .ok ""
  | n :: rest =>
    match code n with
    | .error fault => .error fault
    | .ok text => (assertions code rest).map ((assertion text ++ "\n") ++ ·)

def lines (line : α → String) (items : List α) : String :=
  String.join (items.map fun item => line item ++ "\n")

/-- Ends the statement, if anything was written, and puts the running totals in front. -/
def endStatement : Step := fun d =>
  let statement := if d.text = "" then "" else d.text ++ ";"
  ({ d with text := lines d.context.startOf d.context.accumulators ++ statement }, none)

/-- Puts the declarations and, if the options ask for them, the assertions in front. -/
def addHeader (code : Options → Node → Except Fault String) : Step := fun d =>
  let declarations := lines d.context.declaration d.context.variableNames
  if d.context.options.assertDivisions then
    match assertions (code d.context.options) d.context.divisions with
    | .error fault => (d, some fault)
    | .ok guards => ({ d with text := declarations ++ guards ++ d.text }, none)
  else ({ d with text := declarations ++ d.text }, none)

/-! ## 5. All nodes -/

mutual

/-- Records a node and writes its code.  `code` gives the code of a denominator in an assertion. -/
def visitWith (code : Options → Node → Except Fault String) : Node → Step
  | .leaf kind text => inOrder [record (.leaf kind text), visitLeaf kind text]
  | .row .bare _ => fail (.unknownKind RowKind.bare.title)
  | .row .root items =>
    inOrder [record (.row .root items), visitRowWith code items, endStatement, addHeader code]
  | .row kind items => inOrder [record (.row kind items), visitRowWith code items]
  | .unary .fenced content =>
    inOrder [record (.unary .fenced content), times, write "(",
      require (.unary .fenced content) content, visitWith code content, write ")"]
  | .unary .squareRoot content =>
    inOrder [record (.unary .squareRoot content), require (.unary .squareRoot content) content,
      times, writeOption Options.rootFunction,
      if content.isBracketed then visitWith code content
      else inOrder [write "(", visitWith code content, write ")"]]
  | .binary .power left right =>
    inOrder [record (.binary .power left right), times,
      writeOption fun options => options.powerFunction ++ "(",
      require (.binary .power left right) left, visitWith code left, punctuate ", ",
      require (.binary .power left right) right, visitWith code right, write ")"]
  | .binary .fraction left right =>
    inOrder [record (.binary .fraction left right),
      require (.binary .fraction left right) left, require (.binary .fraction left right) right,
      note (·.addDivision right), times, visitOperand left (visitWith code left), punctuate "/",
      visitOperand right (visitWith code right)]
  | .bare => fail (.unknownKind Node.bare.title)
  | .missing => fail (.notANode Node.missing.title)
  | .stray value => fail (.notANode value.title)

def visitRowWith (code : Options → Node → Except Fault String) : List Node → Step
  | [] => skip
  | n :: rest => inOrder [visitWith code n, visitRowWith code rest]

end

/-! ## 6. Denominators -/

def codeWith (code : Options → Node → Except Fault String) (options : Options) (n : Node) :
    Except Fault String :=
  match visitWith code n { context := .fresh options } with
  | (d, none) => .ok d.text
  | (_, some fault) => .error fault

mutual

def divisionDepth : Node → Nat
  | .row _ items => divisionDepthRow items
  | .unary _ content => divisionDepth content
  | .binary .power left right => max (divisionDepth left) (divisionDepth right)
  | .binary .fraction left right => max (divisionDepth left) (divisionDepth right) + 1
  | .leaf .. | .bare | .missing | .stray _ => 0

def divisionDepthRow : List Node → Nat
  | [] => 0
  | n :: rest => max (divisionDepth n) (divisionDepthRow rest)

end

/-- The code of a node in which divisions are nested at most `depth` deep.  A denominator inside
has them nested less deep. -/
def codeWithin : Nat → Options → Node → Except Fault String
  | 0 => codeWith fun _ _ => .ok ""
  | depth + 1 => codeWith (codeWithin depth)

def denominatorCode (options : Options) (n : Node) : Except Fault String :=
  codeWithin (divisionDepth n) options n

def visit : Node → Step :=
  visitWith denominatorCode

/-! ## 7. The code of a tree -/

/-- The code of a tree, written in the given context but on an empty page; and the context after
it. -/
def emitIn (context : Context) (n : Node) : Context × Except Fault String :=
  match visit n { context } with
  | (d, none) => (d.context, .ok d.text)
  | (d, some fault) => (d.context, .error fault)

def emit (options : Options) (n : Node) : Except Fault String :=
  (emitIn (.fresh options) n).2

end Formulary.Code
