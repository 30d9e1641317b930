/-!
# Nodes: the tree of a formula

A formula is a tree with four shapes of node: leaves that carry a text, rows of any number of items,
wrappers around one content, and pairs of two operands.  Each shape has a closed set of kinds.

A tree may come from outside, and then a place may hold no node at all (`missing`), a value that is
not a node (`stray`), or a node of no particular kind (`bare`).  Such trees can be looked at and
taken apart; code cannot be written for them.
-/

namespace Formulary

/-! ## 1. Kinds -/

inductive LeafKind where
  | identifier
  | number
  | operator
  | remark
  deriving DecidableEq, Repr

/-- The kinds of row; `bare` is a row of no particular kind. -/
inductive RowKind where
  | sequence
  | style
  | root
  | bare
  deriving DecidableEq, Repr

inductive UnaryKind where
  | squareRoot
  | fenced
  deriving DecidableEq, Repr

/-- The kinds of pair: base and exponent, or numerator and denominator. -/
inductive BinaryKind where
  | power
  | fraction
  deriving DecidableEq, Repr

/-- A value that is not a node. -/
inductive Stray where
  | text (value : String)
  | integer (value : Int)
  | truth (value : Bool)
  deriving DecidableEq, Repr

/-! ## 2. Trees -/

/-- A node of a formula's tree, or what stands in the place of one. -/
inductive Node where
  | leaf (kind : LeafKind) (text : String)
  | row (kind : RowKind) (items : List Node)
  | unary (kind : UnaryKind) (content : Node)
  | binary (kind : BinaryKind) (left right : Node)
  | bare
  | missing
  | stray (value : Stray)

/-- Induction over trees, with a hypothesis for every node of a row. -/
@[elab_as_elim, induction_eliminator]
theorem Node.induction {motive : Node → Prop}
    (leaf : ∀ kind text, motive (.leaf kind text))
    (row : ∀ kind items, (∀ n ∈ items, motive n) → motive (.row kind items))
    (unary : ∀ kind content, motive content → motive (.unary kind content))
    (binary : ∀ kind left right, motive left → motive right → motive (.binary kind left right))
    (bare : motive .bare) (missing : motive .missing) (stray : ∀ value, motive (.stray value))
    (n : Node) : motive n :=
  -- `Node.rec` goes through the rows as a type of their own, so `induction` does not take it
  @Node.rec motive (fun items => ∀ n ∈ items, motive n) leaf row unary binary bare missing stray
    (by simp) (fun _ _ hn hrest => List.forall_mem_cons.2 ⟨hn, hrest⟩) n

namespace Node

abbrev identifier (name : String) : Node := .leaf .identifier name

abbrev number (digits : String) : Node := .leaf .number digits

abbrev operator (symbol : String) : Node := .leaf .operator symbol

abbrev sequence (items : List Node) : Node := .row .sequence items

abbrev root (items : List Node) : Node := .row .root items

/-! ## 3. Equality -/

mutual

def decEq : (a b : Node) → Decidable (a = b)
  | .leaf k s, .leaf k' s' => decidable_of_iff (k = k' ∧ s = s') (by simp)
  | .row k xs, .row k' ys =>
    have := decEqRow xs ys
    decidable_of_iff (k = k' ∧ xs = ys) (by simp)
  | .unary k x, .unary k' y =>
    have := decEq x y
    decidable_of_iff (k = k' ∧ x = y) (by simp)
  | .binary k x y, .binary k' x' y' =>
    have := decEq x x'
    have := decEq y y'
    decidable_of_iff (k = k' ∧ x = x' ∧ y = y') (by simp)
  | .bare, .bare => isTrue rfl
  | .missing, .missing => isTrue rfl
  | .stray v, .stray w => decidable_of_iff (v = w) (by simp)
  | .leaf .., .row .. | .leaf .., .unary .. | .leaf .., .binary .. | .leaf .., .bare
  | .leaf .., .missing | .leaf .., .stray _ | .row .., .leaf .. | .row .., .unary ..
  | .row .., .binary .. | .row .., .bare | .row .., .missing | .row .., .stray _
  | .unary .., .leaf .. | .unary .., .row .. | .unary .., .binary .. | .unary .., .bare
  | .unary .., .missing | .unary .., .stray _ | .binary .., .leaf .. | .binary .., .row ..
  | .binary .., .unary .. | .binary .., .bare | .binary .., .missing | .binary .., .stray _
  | .bare, .leaf .. | .bare, .row .. | .bare, .unary .. | .bare, .binary .. | .bare, .missing
  | .bare, .stray _ | .missing, .leaf .. | .missing, .row .. | .missing, .unary ..
  | .missing, .binary .. | .missing, .bare | .missing, .stray _ | .stray _, .leaf ..
  | .stray _, .row .. | .stray _, .unary .. | .stray _, .binary .. | .stray _, .bare
  | .stray _, .missing => isFalse (by simp)

def decEqRow : (xs ys : List Node) → Decidable (xs = ys)
  | [], [] => isTrue rfl
  | [], _ :: _ | _ :: _, [] => isFalse (by simp)
  | x :: xs, y :: ys =>
    have := decEq x y
    have := decEqRow xs ys
    decidable_of_iff (x = y ∧ xs = ys) (by simp)

end

instance : DecidableEq Node := decEq

/-! ## 4. Brackets -/

def isOpening : Node → Bool
  | .leaf .operator symbol => symbol == "("
  | _ => false

def isClosing : Node → Bool
  | .leaf .operator symbol => symbol == ")"
  | _ => false

/-- Does a row of nodes begin with an opening and end with a closing bracket? -/
def hasBracketPair (items : List Node) : Bool :=
  items.head?.any isOpening && items.getLast?.any isClosing

/-- A sequence that brings its own pair of brackets. -/
def isBracketed : Node → Bool
  | .row .sequence items => hasBracketPair items
  | _ => false

/-! ## 5. Children -/

def isRow : Node → Bool
  | .row .. => true
  | _ => false

/-- The number of children that a node of this kind has, if that number is fixed. -/
def arity : Node → Option Nat
  | .row .. => none
  | .unary .. => some 1
  | .binary .. => some 2
  | .leaf .. | .bare | .missing | .stray _ => some 0

def children : Node → List Node
  | .row _ items => items
  | .unary _ content => [content]
  | .binary _ left right => [left, right]
  | .leaf .. | .bare | .missing | .stray _ => []

mutual

/-- The node and everything below it, each node before its children; a missing child is passed
over. -/
def preorder : Node → List Node
  | .missing => []
  | .row kind items => .row kind items :: preorderRow items
  | .unary kind content => .unary kind content :: preorder content
  | .binary kind left right => .binary kind left right :: (preorder left ++ preorder right)
  | n => [n]

def preorderRow : List Node → List Node
  | [] => []
  | n :: rest => preorder n ++ preorderRow rest

end

end Node

end Formulary
