import Formulary.Formula.Fold

/-!
# Stripping: brackets that say nothing

A sequence that stands directly in another row shows by itself what belongs together, so its pair of
brackets is dropped.  The brackets stay where there is no row around (at the top) and where the
sequence is an operand or a content.  One pass drops at most one pair of each sequence, innermost
sequences first; passes are repeated until one changes nothing.

Main statement here: a pass that drops something leaves a smaller tree (`stripPass_size`), so the
passes come to an end.
-/

namespace Formulary.Formula

/-! ## 1. Size -/

mutual

def size : Node → Nat
  | .row _ items => sizeRow items + 1
  | .unary _ content => size content + 1
  | .binary _ left right => size left + size right + 1
  | .leaf .. | .bare | .missing | .stray _ => 1

def sizeRow : List Node → Nat
  | [] => 0
  | n :: rest => size n + sizeRow rest

end

theorem sizeRow_append (xs ys : List Node) : sizeRow (xs ++ ys) = sizeRow xs + sizeRow ys := by
  induction xs with
  | nil => simp [sizeRow]
  | cons x xs ih => simp [sizeRow, ih, Nat.add_assoc]

theorem size_pos (n : Node) : 0 < size n := by
  cases n <;> simp [size]

/-! ## 2. One pass -/

/-- The nodes between the first and the last. -/
def inner (items : List Node) : List Node :=
  items.tail.dropLast

mutual

/-- One pass over a node, which stands directly in a row or not; and whether it dropped anything. -/
def stripNode (inRow : Bool) : Node → Node × Bool
  | .row kind items =>
    let (items, changed) := stripRow true items
    if kind = .sequence && inRow && Node.hasBracketPair items then (.row kind (inner items), true)
    else (.row kind items, changed)
  | .unary kind content =>
    let (content, changed) := stripNode false content
    (.unary kind content, changed)
  | .binary kind left right =>
    let (left, changed) := stripNode false left
    let (right, changed') := stripNode false right
    (.binary kind left right, changed || changed')
  | .leaf kind text => (.leaf kind text, false)
  | .bare => (.bare, false)
  | .missing => (.missing, false)
  | .stray value => (.stray value, false)

def stripRow (inRow : Bool) : List Node → List Node × Bool
  | [] => ([], false)
  | n :: rest =>
    let (n, changed) := stripNode inRow n
    let (rest, changed') := stripRow inRow rest
    (n :: rest, changed || changed')

end

/-- One pass over nodes that stand in no row. -/
def stripPass (nodes : List Node) : List Node × Bool :=
  stripRow false nodes

/-! ## 3. A pass that drops something leaves less -/

theorem sizeRow_inner_lt {items : List Node} (h : Node.hasBracketPair items = true) :
    sizeRow (inner items) < sizeRow items := by
  cases items with
  | nil => simp [Node.hasBracketPair] at h
  | cons first rest =>
    have hsub : sizeRow rest.dropLast ≤ sizeRow rest := by
      rcases List.eq_nil_or_concat rest with rfl | ⟨xs, x, rfl⟩
      · simp
      · simp [sizeRow_append]
    have := size_pos first
    simp only [inner, List.tail_cons, sizeRow]
    omega

mutual

/-- Stripping a node never makes it larger, and makes it smaller if it changes anything. -/
theorem stripNode_size (inRow : Bool) : ∀ n : Node,
    size (stripNode inRow n).1 + (stripNode inRow n).2.toNat ≤ size n
  | .leaf _ _ | .bare | .missing | .stray _ => by simp [stripNode]
  | .row kind items => by
    have h := stripRow_size true items
    rw [stripNode]
    dsimp only
    split
    · next hb =>
      have hlt : sizeRow (inner (stripRow true items).1) < sizeRow (stripRow true items).1 :=
        sizeRow_inner_lt (by simp_all)
      simp only [size, Bool.toNat_true]
      omega
    · simp only [size]
      omega
  | .unary kind content => by
    have h := stripNode_size false content
    simp only [stripNode, size]
    omega
  | .binary kind left right => by
    have h₁ := stripNode_size false left
    have h₂ := stripNode_size false right
    have h₃ : ((stripNode false left).2 || (stripNode false right).2).toNat ≤
        (stripNode false left).2.toNat + (stripNode false right).2.toNat := by
      cases (stripNode false left).2 <;> cases (stripNode false right).2 <;> simp
    simp only [stripNode, size]
    omega

theorem stripRow_size (inRow : Bool) : ∀ nodes : List Node,
    sizeRow (stripRow inRow nodes).1 + (stripRow inRow nodes).2.toNat ≤ sizeRow nodes
  | [] => by simp [stripRow, sizeRow]
  | n :: rest => by
    have h₁ := stripNode_size inRow n
    have h₂ := stripRow_size inRow rest
    have h₃ : ((stripNode inRow n).2 || (stripRow inRow rest).2).toNat ≤
        (stripNode inRow n).2.toNat + (stripRow inRow rest).2.toNat := by
      cases (stripNode inRow n).2 <;> cases (stripRow inRow rest).2 <;> simp
    simp only [stripRow, sizeRow]
    omega

end

theorem stripPass_size {nodes : List Node} (h : (stripPass nodes).2 = true) :
    sizeRow (stripPass nodes).1 < sizeRow nodes := by
  have := stripRow_size false nodes
  simp only [stripPass] at h ⊢
  simp only [h, Bool.toNat_true] at this
  omega

/-! ## 4. All passes -/

/-- Strips until a pass changes nothing; that pass is counted too. -/
def settle (nodes : List Node) : Settled :=
  if _h : (stripPass nodes).2 = true then
    let s := settle (stripPass nodes).1
    { s with passes := s.passes + 1 }
  else ⟨(stripPass nodes).1, 1⟩
termination_by sizeRow nodes
decreasing_by exact stripPass_size _h

mutual

/-- Does the tree hold something that is not a node? -/
def holdsForeign : Node → Bool
  | .row _ items => holdsForeignRow items
  | .unary _ content => holdsForeign content
  | .binary _ left right => holdsForeign left || holdsForeign right
  | .leaf .. | .bare => false
  | .missing | .stray _ => true

/-- Does the row hold something that is not a node? -/
def holdsForeignRow : List Node → Bool
  | [] => false
  | n :: rest => holdsForeign n || holdsForeignRow rest

end

/-- Drops the brackets of every sequence that stands directly in a row. -/
def stripBrackets (nodes : List Node) : Except Fault Settled :=
  if holdsForeignRow nodes then .error .notANode else .ok (settle nodes)

end Formulary.Formula
