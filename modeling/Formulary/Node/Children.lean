import Formulary.Node.Name

/-!
# Replacing, comparing and finding nodes

`withChildren` puts other children under a node of the same kind, `agrees` compares two trees,
`walk` lists a tree, and `descendants` picks the nodes of one family from that list.
-/

namespace Formulary

/-! ## 1. Other children -/

inductive ChildrenFault where
  | notAllowed (title : String)
  | wrongNumber (title : String) (expected actual : Nat)
  deriving DecidableEq, Repr

def ChildrenFault.message : ChildrenFault → String
  | .notAllowed title => title ++ " takes no children"
  | .wrongNumber title expected actual =>
    title ++ " takes " ++ toString expected ++ " children, got " ++ toString actual

namespace Node

/-- A node of the same kind with other children. -/
def withChildren (n : Node) (children : List Node) : Except ChildrenFault Node :=
  match n, children with
  | .leaf .., _ :: _ => .error (.notAllowed n.title)
  | .row kind _, _ => .ok (.row kind children)
  | .unary kind _, [content] => .ok (.unary kind content)
  | .binary kind _ _, [left, right] => .ok (.binary kind left right)
  | _, [] =>
    match n.arity with
    | some (k + 1) => .error (.wrongNumber n.title (k + 1) 0)
    | _ => .ok n
  | _, _ => .error (.wrongNumber n.title (n.arity.getD 0) children.length)

theorem withChildren_children (n : Node) : n.withChildren n.children = .ok n := by
  cases n <;> rfl

/-! ## 2. Agreement -/

/-- The number that a value stands for; a truth value counts as 0 or 1. -/
def strayNumber? : Stray → Option Int
  | .text _ => none
  | .integer n => some n
  | .truth b => some b.toInt

/-- Do two values that are no nodes agree: the same text, or the same number? -/
def strayAgrees (v w : Stray) : Bool :=
  match strayNumber? v, strayNumber? w with
  | some m, some n => m == n
  | _, _ => v == w

mutual

/-- Do two trees agree?  They are equal, except that values that are no nodes are compared by the
numbers they stand for. -/
def agrees : Node → Node → Bool
  | .leaf kind text, .leaf kind' text' => kind == kind' && text == text'
  | .row kind items, .row kind' items' => kind == kind' && agreesRow items items'
  | .unary kind content, .unary kind' content' => kind == kind' && agrees content content'
  | .binary kind left right, .binary kind' left' right' =>
    kind == kind' && agrees left left' && agrees right right'
  | .bare, .bare => true
  | .missing, .missing => true
  | .stray v, .stray w => strayAgrees v w
  | _, _ => false

def agreesRow : List Node → List Node → Bool
  | [], [] => true
  | n :: rest, n' :: rest' => agrees n n' && agreesRow rest rest'
  | _, _ => false

end

/-! ## 3. Descendants -/

def isStray : Node → Bool
  | .stray _ => true
  | _ => false

/-- The tree in preorder.  There is no such list for a tree that holds a value that is no node. -/
def walk (n : Node) : Option (List Node) :=
  if n.preorder.any isStray then none else some n.preorder

/-- A family of nodes: those of one title, or all leaves, all rows, all nodes. -/
inductive Family where
  | all
  | leaves
  | rows
  | titled (title : String)
  deriving DecidableEq, Repr

def Family.named : String → Family
  | "MathNode" => .all
  | "LeafNode" => .leaves
  | "ContainerNode" => .rows
  | title => .titled title

def Family.contains : Family → Node → Bool
  | .all, _ => true
  | .leaves, .leaf .. => true
  | .leaves, _ => false
  | .rows, n => n.isRow
  | .titled title, n => n.title == title

/-- The nodes of a family below the given node, in preorder. -/
def descendants (n : Node) (family : Family) : Option (List Node) :=
  n.walk.map fun nodes => nodes.tail.filter family.contains

end Node

end Formulary
