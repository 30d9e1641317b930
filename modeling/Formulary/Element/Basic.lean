import Formulary.Node.Name
import Formulary.Text.Lowercase

/-!
# Elements: the tagged form of a tree

An element has a tag, attributes, and children with texts between them.  A tag may carry the name of
its namespace in braces; the part after it, in small letters, is its *local name*, and a local name
stands for a kind of node.
-/

namespace Formulary

/-! ## 1. Elements -/

/-- An element of a tagged tree.  Its `text` stands in front of its first child, its `tail` behind its
own end and in front of what follows; the attributes are pairs of a name and a value. -/
structure Element where
  tag : String
  attributes : List (String × String) := []
  text : Option String := none
  children : List Element := []
  tail : Option String := none

namespace Element

/-- The local name of a tag, or `none` if the brace of a namespace is never closed. -/
def localName? (tag : String) : Option String :=
  match tag.toList with
  | '\x7b' :: rest =>
    match rest.dropWhile (· != '\x7d') with
    | [] => none
    | _ :: name => some (Text.lowercase (String.ofList name))
  | _ => some (Text.lowercase tag)

end Element

/-! ## 2. The kinds of node that have a name -/

inductive Kind where
  | leaf (kind : LeafKind)
  | row (kind : RowKind)
  | unary (kind : UnaryKind)
  | binary (kind : BinaryKind)
  deriving DecidableEq, Repr

namespace Kind

def tag : Kind → String
  | .leaf kind => kind.tag
  | .row kind => kind.tag
  | .unary kind => kind.tag
  | .binary kind => kind.tag

def title : Kind → String
  | .leaf kind => kind.title
  | .row kind => kind.title
  | .unary kind => kind.title
  | .binary kind => kind.title

/-- The kinds that elements stand for. -/
def all : List Kind :=
  [ .leaf .remark, .row .root, .unary .fenced, .binary .fraction, .leaf .identifier,
    .leaf .number, .leaf .operator, .row .sequence, .unary .squareRoot, .row .style,
    .binary .power]

def ofName? (name : String) : Option Kind :=
  all.find? fun kind => kind.tag == name

/-- The names of all kinds in alphabetical order. -/
def names : List String :=
  all.map tag

end Kind

end Formulary
