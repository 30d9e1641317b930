import Formulary.Node.Basic

/-!
# Names of nodes

Every kind of node has a *tag*, its name as an element of the markup language, and a *title*, its
name in messages to the user.
-/

namespace Formulary

/-! ## 1. Tags -/

def LeafKind.tag : LeafKind → String
  | .identifier => "mi"
  | .number => "mn"
  | .operator => "mo"
  | .remark => "annotation"

def RowKind.tag : RowKind → String
  | .sequence => "mrow"
  | .style => "mstyle"
  | .root => "math"
  | .bare => ""

def UnaryKind.tag : UnaryKind → String
  | .squareRoot => "msqrt"
  | .fenced => "mfenced"

def BinaryKind.tag : BinaryKind → String
  | .power => "msup"
  | .fraction => "mfrac"

/-- The tag of a node; what is of no particular kind has none. -/
def Node.tag : Node → String
  | .leaf kind _ => kind.tag
  | .row kind _ => kind.tag
  | .unary kind _ => kind.tag
  | .binary kind _ _ => kind.tag
  | .bare | .missing | .stray _ => ""

/-! ## 2. Titles -/

def LeafKind.title : LeafKind → String
  | .identifier => "Identifier"
  | .number => "Number"
  | .operator => "Operator"
  | .remark => "Annotation"

def RowKind.title : RowKind → String
  | .sequence => "Sequence"
  | .style => "Style"
  | .root => "Root"
  | .bare => "ContainerNode"

def UnaryKind.title : UnaryKind → String
  | .squareRoot => "SquareRoot"
  | .fenced => "Fenced"

def BinaryKind.title : BinaryKind → String
  | .power => "Power"
  | .fraction => "Fraction"

def Stray.title : Stray → String
  | .text _ => "str"
  | .integer _ => "int"
  | .truth _ => "bool"

def Node.title : Node → String
  | .leaf kind _ => kind.title
  | .row kind _ => kind.title
  | .unary kind _ => kind.title
  | .binary kind _ _ => kind.title
  | .bare => "MathNode"
  | .missing => "NoneType"
  | .stray value => value.title

/-- A short mark of a node for listings: the tag, for a leaf with its text, or the title of a node
that has no tag. -/
def Node.brief : Node → String
  | .leaf kind text => kind.tag ++ ":" ++ text
  | n => if n.tag = "" then n.title else n.tag

end Formulary
