import Formulary.Element.Basic
import Formulary.Text.Space

/-!
# Trees as elements, and back

`Element.ofNode?` writes a tree as an element; `Element.toNode` reads one.  Reading looks an
element's tag up before it reads the children, and counts the children after it has read them, so
the first fault in that order is the one reported.  Of a leaf it keeps the text; attributes, tails
and all other texts are passed over, and none are written.
-/

namespace Formulary

/-! ## 1. Faults -/

inductive Element.Fault where
  /-- The brace of a namespace is never closed. -/
  | openNamespace
  /-- No kind of node has this tag. -/
  | unknownTag (tag : String)
  /-- The element has too many or too few children. -/
  | childCount (tag : String) (expected actual : Nat)
  deriving DecidableEq, Repr

namespace Element

def Fault.message : Fault → String
  | .openNamespace => "the namespace of the tag is not closed"
  | .unknownTag tag => "Unknown tag '" ++ tag ++ "'"
  | .childCount tag expected actual =>
    "Element '" ++ tag ++ "' expects " ++ toString expected ++ " child element(s), got " ++
      toString actual

/-! ## 2. Reading -/

def kindOfTag (tag : String) : Except Fault Kind :=
  match localName? tag with
  | none => .error .openNamespace
  | some name =>
    match Kind.ofName? name with
    | some kind => .ok kind
    | none => .error (.unknownTag tag)

def assemble (kind : Kind) (tag : String) (text : Option String) (nodes : List Node) :
    Except Fault Node :=
  match kind, nodes with
  | .leaf kind, [] => .ok (.leaf kind (Text.stripped (text.getD "")))
  | .leaf _, _ :: _ => .error (.childCount tag 0 nodes.length)
  | .row kind, _ => .ok (.row kind nodes)
  | .unary kind, [content] => .ok (.unary kind content)
  | .unary _, _ => .error (.childCount tag 1 nodes.length)
  | .binary kind, [left, right] => .ok (.binary kind left right)
  | .binary _, _ => .error (.childCount tag 2 nodes.length)

mutual

def toNode : Element → Except Fault Node
  | { tag, text, children, .. } =>
    match kindOfTag tag with
    | .error fault => .error fault
    | .ok kind =>
      match toNodes children with
      | .error fault => .error fault
      | .ok nodes => assemble kind tag text nodes

def toNodes : List Element → Except Fault (List Node)
  | [] => .ok []
  | e :: rest =>
    match toNode e with
    | .error fault => .error fault
    | .ok n =>
      match toNodes rest with
      | .error fault => .error fault
      | .ok nodes => .ok (n :: nodes)

end

/-! ## 3. Writing -/

mutual

/-- The element of a tree; there is none if the tree holds something that is not a node. -/
def ofNode? : Node → Option Element
  | .leaf kind text => some { tag := kind.tag, text := some text }
  | .row kind items => (ofNodes? items).map fun children => { tag := kind.tag, children }
  | .unary kind content => (ofNode? content).map fun e => { tag := kind.tag, children := [e] }
  | .binary kind left right =>
    match ofNode? left, ofNode? right with
    | some l, some r => some { tag := kind.tag, children := [l, r] }
    | _, _ => none
  | .bare => some { tag := "" }
  | .missing | .stray _ => none

def ofNodes? : List Node → Option (List Element)
  | [] => some []
  | n :: rest =>
    match ofNode? n, ofNodes? rest with
    | some e, some es => some (e :: es)
    | _, _ => none

end

end Element

end Formulary
