import Formulary.Element.Codec
import Formulary.Markup.Encoding
import Formulary.Markup.Writer

/-!
# Trees as markup, and back

Markup is read into an element and the element into a tree; a tree is written by way of its element.
-/

namespace Formulary.Markup

inductive TreeFault where
  | markup (fault : Fault)
  | element (fault : Element.Fault)
  deriving DecidableEq, Repr

def TreeFault.message : TreeFault → String
  | .markup fault => fault.message
  | .element fault => fault.message

def treeOf : Except Fault Element → Except TreeFault Node
  | .error fault => .error (.markup fault)
  | .ok e =>
    match e.toNode with
    | .error fault => .error (.element fault)
    | .ok n => .ok n

def treeOfText (s : String) : Except TreeFault Node :=
  treeOf (readText s.toList)

def treeOfBytes (bytes : List UInt8) : Except TreeFault Node :=
  treeOf (readBytes bytes)

/-- The markup of a tree; there is none if the tree holds something that is not a node. -/
def ofTree? (n : Node) : Option String :=
  (Element.ofNode? n).map ofElement

end Formulary.Markup
