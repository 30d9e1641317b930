import Formulary.Proofs.Word

/-!
# Reading a tree

The leaves of a tree from left to right, with the signs that folding took out of the row put back in
their places: `^` and `/` between the operands of a pair, the name in front of a square root, and
brackets around a fenced content.  The reading of a parsed formula is compared with its leaves.
-/

namespace Formulary

/-! ## 1. Lists of nodes -/

-- the place of an element among two lists
theorem cut_append {α : Type} {xs ys front back : List α} {x : α}
    (h : xs ++ ys = front ++ x :: back) :
    (∃ between, xs = front ++ x :: between ∧ back = between ++ ys) ∨
      ∃ between, front = xs ++ between ∧ ys = between ++ x :: back := by
  rcases List.append_eq_append_iff.1 h with ⟨between, hfront, hys⟩ | ⟨between, hxs, hback⟩
  · exact .inr ⟨between, hfront, hys⟩
  · cases between with
    | nil => exact .inr ⟨[], by simp [hxs], hback.symm⟩
    | cons y between =>
      obtain ⟨rfl, hys⟩ := List.cons.inj hback
      exact .inl ⟨between, hxs, hys⟩

namespace Formula

theorem mem_preorderRow {x : Node} {items : List Node} :
    x ∈ Node.preorderRow items ↔ ∃ n ∈ items, x ∈ n.preorder := by
  induction items with
  | nil => simp [Node.preorderRow]
  | cons n rest ih => simp [Node.preorderRow, ih]

/-! ## 2. The leaves of a tree -/

mutual

/-- The leaves of a tree in reading order, with the signs that its pairs and wrappers stand for. -/
def reading : Node → List Node
  | .leaf kind text => [.leaf kind text]
  | .row _ items => readingRow items
  | .unary .squareRoot content => .identifier "sqrt" :: reading content
  | .unary .fenced content => .operator "(" :: reading content ++ [.operator ")"]
  | .binary kind left right => reading left ++ .operator (symbolOf kind) :: reading right
  | .bare | .missing | .stray _ => []

/-- The leaves of a row in reading order. -/
def readingRow : List Node → List Node
  | [] => []
  | n :: rest => reading n ++ readingRow rest

end

@[simp]
theorem readingRow_nil : readingRow [] = [] := by
  rw [readingRow]

@[simp]
theorem readingRow_cons (n : Node) (rest : List Node) :
    readingRow (n :: rest) = reading n ++ readingRow rest := by
  rw [readingRow]

@[simp]
theorem reading_leaf (kind : LeafKind) (text : String) :
    reading (.leaf kind text) = [.leaf kind text] := by
  rw [reading]

@[simp]
theorem reading_row (kind : RowKind) (items : List Node) :
    reading (.row kind items) = readingRow items := by
  rw [reading]

@[simp]
theorem reading_binary (kind : BinaryKind) (left right : Node) :
    reading (.binary kind left right) =
      reading left ++ .operator (symbolOf kind) :: reading right := by
  rw [reading]

@[simp]
theorem reading_squareRoot (content : Node) :
    reading (.unary .squareRoot content) = .identifier "sqrt" :: reading content := by
  rw [reading]

@[simp]
theorem readingRow_append (xs ys : List Node) :
    readingRow (xs ++ ys) = readingRow xs ++ readingRow ys := by
  induction xs with
  | nil => rw [List.nil_append, readingRow_nil, List.nil_append]
  | cons x xs ih => rw [List.cons_append, readingRow_cons, readingRow_cons, ih, List.append_assoc]

theorem mem_readingRow {leaf : Node} {row : List Node} :
    leaf ∈ readingRow row ↔ ∃ n ∈ row, leaf ∈ reading n := by
  induction row with
  | nil => simp
  | cons n rest ih => simp [ih]

/-- Is the node a leaf? -/
def IsLeafNode (n : Node) : Prop :=
  ∃ kind text, n = .leaf kind text

theorem isLeafNode_leafOfWord (word : String) : IsLeafNode (leafOfWord word) :=
  ⟨_, _, rfl⟩

-- a row of leaves reads as itself
theorem readingRow_leaves {nodes : List Node} (h : ∀ n ∈ nodes, IsLeafNode n) :
    readingRow nodes = nodes := by
  induction nodes with
  | nil => rfl
  | cons n rest ih =>
    obtain ⟨⟨kind, text, rfl⟩, hrest⟩ := List.forall_mem_cons.1 h
    rw [readingRow_cons, ih hrest, reading_leaf, List.singleton_append]

theorem forall_isLeafNode_words (words : List String) : ∀ n ∈ words.map leafOfWord, IsLeafNode n :=
  List.forall_mem_map.2 fun word _ => isLeafNode_leafOfWord word

theorem readingRow_map_leafOfWord (words : List String) :
    readingRow (words.map leafOfWord) = words.map leafOfWord :=
  readingRow_leaves (forall_isLeafNode_words words)

end Formula

end Formulary
