import Formulary.Node.Children
import Formulary.Proofs.Dangling
import Formulary.Proofs.Passes

/-!
# The outcome of folding

For every row of nodes, folding by passes ends as complete folding does: with the same row, in which no
operator to fold is left at any depth, or with an operator that lacks an operand.  Which of the two it
is can be told from the rows of the tree: a row must neither begin nor end with an operator to fold,
nor have two of them side by side, and a child that stands alone in its place is a row by itself
(`rowsIn`).  No other fault is possible; in particular a pass gives every node as many children as it
takes (`foldChildren_fit`).

Main statement: `foldOperators_outcome`.
-/

namespace Formulary.Formula

/-! ## 1. Children that fit -/

/-- One pass over the children of a node, row by row: the items of a row are gone through together, and
every other child by itself. -/
def foldChildren : Node → Except Fault (List Node × Bool)
  | .row _ items => foldPass items
  | .unary _ content => foldPass [content]
  | .binary _ left right =>
    match foldPass [left] with
    | .error fault => .error fault
    | .ok (left, changed) =>
      match foldPass [right] with
      | .error fault => .error fault
      | .ok (right, changed') => .ok (left ++ right, changed || changed')
  | .leaf .. | .bare | .missing | .stray _ => .ok ([], false)

-- a row of one node stays a row of one node
theorem foldPass_singleton (n : Node) :
    foldPass [n] = (standingAlone n (foldInside n)).map fun r => ([r.1], r.2) := by
  rw [foldPass, foldFrom.eq_def, standingAlone]
  dsimp only
  cases hk : binding? n with
  | some kind => rfl
  | none =>
    dsimp only
    cases hn : foldInside n with
    | error fault => rfl
    | ok r =>
      obtain ⟨m, c⟩ := r
      dsimp only
      rw [foldFrom.eq_def]
      simp [Except.map]

/-- What a pass makes of the children of a node can be put under the node, and a fault among the children
is the fault of the pass. -/
theorem foldChildren_fit {n : Node} (hn : holdsForeign n = false) :
    (∃ children changed m, foldChildren n = .ok (children, changed) ∧
      n.withChildren children = .ok m ∧ foldInside n = .ok (m, changed)) ∨
    ∃ fault, foldChildren n = .error fault ∧ foldInside n = .error fault := by
  cases n with
  | leaf kind text => exact .inl ⟨[], false, .leaf kind text, rfl, rfl, by rw [foldInside]⟩
  | bare => exact .inl ⟨[], false, .bare, rfl, rfl, by rw [foldInside]⟩
  | missing => exact absurd hn (by simp [holdsForeign])
  | stray value => exact absurd hn (by simp [holdsForeign])
  | row kind items =>
    rw [foldChildren, foldInside, foldPass]
    cases foldFrom [] items with
    | error fault => exact .inr ⟨fault, rfl, rfl⟩
    | ok r => exact .inl ⟨r.1, r.2, .row kind r.1, rfl, rfl, rfl⟩
  | unary kind content =>
    rw [foldChildren, foldInside, foldPass_singleton]
    cases standingAlone content (foldInside content) with
    | error fault => exact .inr ⟨fault, rfl, rfl⟩
    | ok r => exact .inl ⟨[r.1], r.2, .unary kind r.1, rfl, rfl, rfl⟩
  | binary kind left right =>
    rw [foldChildren, foldInside, foldPass_singleton, foldPass_singleton]
    cases standingAlone left (foldInside left) with
    | error fault => exact .inr ⟨fault, rfl, rfl⟩
    | ok l =>
      cases standingAlone right (foldInside right) with
      | error fault => exact .inr ⟨fault, rfl, rfl⟩
      | ok r => exact .inl ⟨[l.1, r.1], l.2 || r.2, .binary kind l.1 r.1, rfl, rfl, rfl⟩

/-! ## 2. Rows that lack an operand -/

mutual

/-- The rows that are folded inside a node: the items of a row together, every other child by itself. -/
def rowsIn : Node → List (List Node)
  | .row _ items => items :: rowsInRow items
  | .unary _ content => [content] :: rowsIn content
  | .binary _ left right => [left] :: [right] :: (rowsIn left ++ rowsIn right)
  | .leaf .. | .bare | .missing | .stray _ => []

/-- The rows inside the nodes of a row. -/
def rowsInRow : List Node → List (List Node)
  | [] => []
  | n :: rest => rowsIn n ++ rowsInRow rest

end

theorem mem_rowsInRow {row nodes : List Node} :
    row ∈ rowsInRow nodes ↔ ∃ n ∈ nodes, row ∈ rowsIn n := by
  induction nodes with
  | nil => simp [rowsInRow]
  | cons n rest ih => simp [rowsInRow, ih]

theorem fit_singleton_iff {n : Node} : Fit false [n] ↔ binding? n = none :=
  ⟨fun h => h.head rfl n rfl, fun h => ⟨by simpa using h, by simpa using h, .singleton n⟩⟩

theorem complete_iff {preceded : Bool} {row : List Node} : Complete preceded row ↔
    Fit preceded row ∧ ∀ n ∈ row, binding? n = none → ∃ m, folded n = some m :=
  ⟨fun h => ⟨⟨h.head, h.last, h.apart⟩, h.inside⟩,
    fun ⟨h, hinside⟩ => ⟨h.head, h.last, h.apart, hinside⟩⟩

-- an operator has no rows inside, so it makes no difference that it cannot be folded by itself
theorem complete_iff_rows {nodes : List Node}
    (h : ∀ n ∈ nodes, (∃ m, folded n = some m) ↔
      binding? n = none ∧ ∀ row ∈ rowsIn n, Fit false row) :
    Complete false nodes ↔ ∀ row ∈ nodes :: rowsInRow nodes, Fit false row := by
  rw [complete_iff, List.forall_mem_cons]
  apply and_congr_right
  intro _
  constructor
  · intro hinside row hrow
    obtain ⟨n, hn, hrow⟩ := mem_rowsInRow.1 hrow
    cases hk : binding? n with
    | none => exact ((h n hn).1 (hinside n hn hk)).2 row hrow
    | some kind =>
      rw [binding?_eq_some_iff.1 hk] at hrow
      exact absurd hrow (by simp [rowsIn])
  · intro hrows n hn hk
    exact (h n hn).2 ⟨hk, fun row hrow => hrows row (mem_rowsInRow.2 ⟨n, hn, hrow⟩)⟩

theorem folded_iff_rows {n : Node} (hn : holdsForeign n = false) :
    (∃ m, folded n = some m) ↔ binding? n = none ∧ ∀ row ∈ rowsIn n, Fit false row := by
  induction n with
  | leaf kind text =>
    constructor
    · rintro ⟨m, hm⟩
      exact ⟨binding?_of_folded hm, by simp [rowsIn]⟩
    · rintro ⟨hk, -⟩
      exact ⟨_, folded_leaf hk⟩
  | bare => exact ⟨fun _ => ⟨rfl, by simp [rowsIn]⟩, fun _ => ⟨.bare, by rw [folded]⟩⟩
  | missing => exact absurd hn (by simp [holdsForeign])
  | stray value => exact absurd hn (by simp [holdsForeign])
  | row kind items ih =>
    rw [holdsForeign, holdsForeignRow_eq_false_iff] at hn
    rw [folded_row_iff, complete_iff_rows fun n hmem => ih n hmem (hn n hmem), rowsIn]
    exact (and_iff_right rfl).symm
  | unary kind content ih =>
    rw [holdsForeign] at hn
    rw [rowsIn, List.forall_mem_cons, fit_singleton_iff, ← ih hn, folded]
    simp only [Option.map_eq_some_iff]
    constructor
    · rintro ⟨-, x, hx, -⟩
      exact ⟨rfl, x, hx⟩
    · rintro ⟨-, x, hx⟩
      exact ⟨_, x, hx, rfl⟩
  | binary kind left right ihl ihr =>
    rw [holdsForeign, Bool.or_eq_false_iff] at hn
    have hrows : (∀ row ∈ rowsIn (.binary kind left right), Fit false row) ↔
        (∃ l, folded left = some l) ∧ ∃ r, folded right = some r := by
      rw [ihl hn.1, ihr hn.2, rowsIn, List.forall_mem_cons, List.forall_mem_cons,
        List.forall_mem_append, fit_singleton_iff, fit_singleton_iff]
      tauto
    rw [hrows, folded]
    simp only [Option.bind_eq_some_iff, Option.map_eq_some_iff]
    constructor
    · rintro ⟨-, l, hl, r, hr, -⟩
      exact ⟨rfl, ⟨l, hl⟩, r, hr⟩
    · rintro ⟨-, ⟨l, hl⟩, r, hr⟩
      exact ⟨_, l, hl, r, hr, rfl⟩

/-- A row of nodes can be folded exactly if no row of the tree lacks an operand. -/
theorem foldedFrom_iff_rows {nodes : List Node} (h : ∀ n ∈ nodes, holdsForeign n = false) :
    (∃ out, foldedFrom [] nodes = some out) ↔
      ∀ row ∈ nodes :: rowsInRow nodes, Fit false row := by
  rw [← complete_iff_rows fun n hn => folded_iff_rows (h n hn)]
  exact foldedFrom_eq_some_iff

/-! ## 3. What is left -/

-- in a pair nothing is left if nothing is left in its operands
theorem binding?_preorder_binary {kind : BinaryKind} {left right : Node}
    (hl : ∀ x ∈ left.preorder, binding? x = none) (hr : ∀ x ∈ right.preorder, binding? x = none) :
    ∀ x ∈ (Node.binary kind left right).preorder, binding? x = none := by
  rw [Node.preorder]
  exact List.forall_mem_cons.2 ⟨rfl, List.forall_mem_append.2 ⟨hl, hr⟩⟩

theorem binding?_preorder_of_folded {n m : Node} (h : folded n = some m) :
    ∀ x ∈ m.preorder, binding? x = none := by
  induction h using folded_induction with
  | @leaf kind text h =>
    intro x hx
    obtain rfl : x = .leaf kind text := by simpa [Node.preorder] using hx
    exact binding?_of_folded h
  | bare _ => simp [Node.preorder, binding?]
  | row hrow ih _ =>
    have hnodes := hrow.forall_mem binding?_preorder_binary (by simp) ih
    rw [Node.preorder]
    refine List.forall_mem_cons.2 ⟨rfl, fun x hx => ?_⟩
    obtain ⟨m, hm, hx⟩ := mem_preorderRow.1 hx
    exact hnodes m hm x hx
  | unary _ ih _ =>
    rw [Node.preorder]
    exact List.forall_mem_cons.2 ⟨rfl, ih⟩
  | binary _ _ ihl ihr _ => exact binding?_preorder_binary ihl ihr

/-- After folding no operator to fold is left at any depth. -/
theorem not_binding_of_foldedFrom {nodes out : List Node} (h : foldedFrom [] nodes = some out) :
    ∀ x ∈ Node.preorderRow out, x ≠ .operator "^" ∧ x ≠ .operator "/" := by
  have hnodes := foldedFrom_forall h binding?_preorder_binary
    fun _ _ _ => binding?_preorder_of_folded
  intro x hx
  obtain ⟨m, hm, hx⟩ := mem_preorderRow.1 hx
  have hk := hnodes m hm x hx
  refine ⟨?_, ?_⟩
  · rintro rfl
    exact absurd hk (by decide)
  · rintro rfl
    exact absurd hk (by decide)

/-! ## 4. The outcome -/

/-- **The outcome of folding.**  If no row of the tree lacks an operand, folding by passes gives what
complete folding gives, and no operator to fold is left at any depth; otherwise both fail, and the fault
is an operator without an operand.  A pass gives every node as many children as it takes, and has no
fault but those found among the children. -/
theorem foldOperators_outcome {nodes : List Node} (h : ∀ n ∈ nodes, holdsForeign n = false) :
    (((∀ row ∈ nodes :: rowsInRow nodes, Fit false row) ∧
        ∃ s, foldOperators nodes = .ok s ∧ foldedFrom [] nodes = some s.nodes ∧
          ∀ x ∈ Node.preorderRow s.nodes, x ≠ .operator "^" ∧ x ≠ .operator "/") ∨
      ((∃ row ∈ nodes :: rowsInRow nodes, ¬Fit false row) ∧ foldedFrom [] nodes = none ∧
        ∃ kind, foldOperators nodes = .error (.danglingOperator (symbolOf kind)))) ∧
    ∀ n, holdsForeign n = false →
      (∃ children changed m, foldChildren n = .ok (children, changed) ∧
        n.withChildren children = .ok m ∧ foldInside n = .ok (m, changed)) ∨
      ∃ fault, foldChildren n = .error fault ∧ foldInside n = .error fault := by
  refine ⟨?_, fun n => foldChildren_fit⟩
  by_cases hrows : ∀ row ∈ nodes :: rowsInRow nodes, Fit false row
  · obtain ⟨out, hout⟩ := (foldedFrom_iff_rows h).2 hrows
    obtain ⟨s, hs, rfl⟩ := foldOperators_ok_iff.2 hout
    exact .inl ⟨hrows, s, hs, hout, not_binding_of_foldedFrom hout⟩
  · have hnone : foldedFrom [] nodes = none := by
      by_contra hsome
      exact hrows ((foldedFrom_iff_rows h).1 (Option.ne_none_iff_exists'.1 hsome))
    have hrow : ∃ row ∈ nodes :: rowsInRow nodes, ¬Fit false row := by
      by_contra hall
      exact hrows fun row hrow => by_contra fun hfit => hall ⟨row, hrow, hfit⟩
    refine .inr ⟨hrow, hnone, ?_⟩
    cases hf : foldOperators nodes with
    | ok s =>
      rw [foldOperators_ok_iff.1 ⟨s, hf, rfl⟩] at hnone
      exact absurd hnone (by simp)
    | error fault =>
      obtain ⟨kind, rfl⟩ := foldOperators_fault h hf
      exact ⟨kind, rfl⟩

/-- The row of `a/(b^2)c`, with its group as a sequence. -/
def quotientRow : List Node :=
  [.identifier "a", .operator "/",
    .sequence [.operator "(", .identifier "b", .operator "^", .number "2", .operator ")"],
    .identifier "c"]

theorem foldOperators_outcome_quotient : (∀ n ∈ quotientRow, holdsForeign n = false) ∧
    ∃ s, foldOperators quotientRow = .ok s ∧
      s.nodes = [.binary .fraction (.identifier "a") (.sequence [.operator "(",
        .binary .power (.identifier "b") (.number "2"), .operator ")"]), .identifier "c"] ∧
      ∀ x ∈ Node.preorderRow s.nodes, x ≠ .operator "^" ∧ x ≠ .operator "/" := by
  have h : ∀ n ∈ quotientRow, holdsForeign n = false := by
    simp [quotientRow, holdsForeign, holdsForeignRow]
  have hfolded : foldedFrom [] quotientRow = some [.binary .fraction (.identifier "a")
      (.sequence [.operator "(", .binary .power (.identifier "b") (.number "2"), .operator ")"]),
      .identifier "c"] := by decide +kernel
  rcases (foldOperators_outcome h).1 with ⟨-, s, hs, hout, hleft⟩ | ⟨-, hnone, -⟩
  · rw [hfolded] at hout
    exact ⟨h, s, hs, (Option.some.inj hout).symm, hleft⟩
  · rw [hfolded] at hnone
    exact absurd hnone (by simp)

end Formulary.Formula
