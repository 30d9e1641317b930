import Formulary.Proofs.Balance
import Formulary.Proofs.Markup.ElementFaults

/-!
# Trees for which no code can be written

A tree from outside may hold, at any depth, nothing where a child should be, a value that is no node,
or a node of no particular kind.  There is code for a tree exactly if it holds none of these, whatever
the options are; and a tree that comes from a formula or from an element never does
(`emit_fails_iff`).
-/

namespace Formulary

/-! ## 1. Parts of a tree -/

namespace Node

/-- The first node is the second, or stands below it. -/
def IsPart (m n : Node) : Prop :=
  Relation.ReflTransGen (fun child parent => child ∈ parent.children) m n

theorem forall_isPart {P : Node → Prop} {n : Node} : (∀ m, IsPart m n → P m) ↔
    P n ∧ ∀ child ∈ n.children, ∀ m, IsPart m child → P m :=
  forall_reflTransGen

theorem children_induction {motive : Node → Prop}
    (h : ∀ n, (∀ child ∈ n.children, motive child) → motive n) (n : Node) : motive n := by
  induction n with
  | row kind items ih => exact h _ ih
  | unary kind content ih => exact h _ (by simpa [children] using ih)
  | binary kind left right ihl ihr => exact h _ (by simpa [children] using ⟨ihl, ihr⟩)
  | leaf | bare | missing | stray => exact h _ (by simp [children])

end Node

namespace Code

open Node (IsPart)

/-- Nothing, a value that is no node, or a node of no particular kind. -/
def lacksCode : Node → Bool
  | .bare | .missing | .stray _ | .row .bare _ => true
  | .leaf .. | .row .. | .unary .. | .binary .. => false

theorem proper_iff_children {n : Node} :
    Proper n ↔ lacksCode n = false ∧ ∀ child ∈ n.children, Proper child := by
  constructor
  · intro h
    cases h with
    | leaf => exact ⟨rfl, by simp [Node.children]⟩
    | @row kind items hkind hitems =>
      cases kind with
      | bare => exact absurd rfl hkind
      | _ => exact ⟨rfl, hitems⟩
    | unary h => exact ⟨rfl, by simpa [Node.children] using h⟩
    | binary hl hr => exact ⟨rfl, by simpa [Node.children] using ⟨hl, hr⟩⟩
  · rintro ⟨hself, h⟩
    cases n with
    | leaf kind text => exact .leaf kind text
    | row kind items =>
      refine .row ?_ h
      rintro rfl
      exact absurd hself (by simp [lacksCode])
    | unary kind content => exact .unary (h content (by simp [Node.children]))
    | binary kind left right =>
      exact .binary (h left (by simp [Node.children])) (h right (by simp [Node.children]))
    | bare | missing | stray => exact absurd hself (by simp [lacksCode])

/-- A tree is proper if all its parts are of a kind that has code. -/
theorem proper_iff {n : Node} : Proper n ↔ ∀ m, IsPart m n → lacksCode m = false := by
  induction n using Node.children_induction with
  | h n ih => rw [proper_iff_children, Node.forall_isPart, forall₂_congr ih]

/-! ## 2. Steps that end with a fault -/

/-- From every draft the step ends with a fault. -/
def Fails (step : Step) : Prop :=
  ∀ d, (step d).2 ≠ none

theorem fails_fail (fault : Fault) : Fails (fail fault) :=
  fun _ => by simp [fail]

-- whatever the other steps do, none of them can mend a fault
theorem fails_inOrder {steps : List Step} {step : Step} (hmem : step ∈ steps) (h : Fails step) :
    Fails (inOrder steps) := by
  induction steps with
  | nil => exact absurd hmem (by simp)
  | cons first rest ih =>
    intro d
    by_cases hfirst : (first d).2 = none
    · rw [inOrder_cons hfirst]
      rcases List.mem_cons.1 hmem with rfl | hmem
      · exact absurd hfirst (h d)
      · exact ih hmem (first d).1
    · rw [inOrder]
      dsimp only
      split
      · next heq => exact absurd (by rw [heq]) hfirst
      · simp

theorem fails_visitOperand (n : Node) {step : Step} (h : Fails step) :
    Fails (visitOperand n step) := by
  unfold visitOperand
  split
  · exact h
  · exact fails_inOrder (by simp) h

theorem fails_visitRowWith {code : Options → Node → Except Fault String} {items : List Node}
    {n : Node} (hmem : n ∈ items) (h : Fails (visitWith code n)) :
    Fails (visitRowWith code items) := by
  induction items with
  | nil => exact absurd hmem (by simp)
  | cons first rest ih =>
    rw [visitRowWith]
    rcases List.mem_cons.1 hmem with rfl | hmem
    · exact fails_inOrder (by simp) h
    · exact fails_inOrder (by simp) (ih hmem)

/-- A visit cannot end well if the visit of a child cannot. -/
theorem fails_of_child {code : Options → Node → Except Fault String} {n child : Node}
    (hchild : child ∈ n.children) (h : Fails (visitWith code child)) : Fails (visitWith code n) := by
  cases n with
  | leaf | bare | missing | stray => exact absurd hchild (by simp [Node.children])
  | row kind items =>
    have hrow : Fails (visitRowWith code items) := fails_visitRowWith hchild h
    cases kind with
    | bare =>
      rw [visitWith]
      exact fails_fail _
    | root =>
      rw [visitWith]
      exact fails_inOrder (by simp) hrow
    | sequence | style =>
      rw [visitWith]
      · exact fails_inOrder (by simp) hrow
      · simp
      · simp
  | unary kind content =>
    obtain rfl : child = content := by simpa [Node.children] using hchild
    cases kind with
    | fenced =>
      rw [visitWith]
      exact fails_inOrder (by simp) h
    | squareRoot =>
      rw [visitWith]
      refine fails_inOrder (List.mem_of_getLast? rfl) ?_
      split
      · exact h
      · exact fails_inOrder (by simp) h
  | binary kind left right =>
    have hsides : child = left ∨ child = right := by simpa [Node.children] using hchild
    cases kind with
    | power =>
      rw [visitWith]
      rcases hsides with rfl | rfl
      · exact fails_inOrder (by simp) h
      · exact fails_inOrder (by simp) h
    | fraction =>
      rw [visitWith]
      rcases hsides with rfl | rfl
      · exact fails_inOrder (by simp) (fails_visitOperand child h)
      · exact fails_inOrder (by simp) (fails_visitOperand child h)

theorem fails_of_lacksCode {code : Options → Node → Except Fault String} {n : Node}
    (h : lacksCode n = true) : Fails (visitWith code n) := by
  unfold lacksCode at h
  split at h
  · rw [visitWith]; exact fails_fail _
  · rw [visitWith]; exact fails_fail _
  · rw [visitWith]; exact fails_fail _
  · rw [visitWith]; exact fails_fail _
  all_goals exact absurd h (by decide)

/-- What lacks code spoils the visit of every tree that it is a part of. -/
theorem fails_of_part {code : Options → Node → Except Fault String} {m n : Node}
    (hpart : IsPart m n) (h : lacksCode m = true) : Fails (visitWith code n) := by
  induction hpart with
  | refl => exact fails_of_lacksCode h
  | tail _ hchild ih => exact fails_of_child hchild ih

theorem exists_emit_error {n : Node} (h : Fails (visit n)) (o : Options) :
    ∃ fault, emit o n = .error fault := by
  have hfails := h { context := .fresh o }
  unfold emit emitIn
  generalize visit n { context := .fresh o } = result at hfails ⊢
  obtain ⟨d, fault⟩ := result
  cases fault with
  | none => exact absurd rfl hfails
  | some fault => exact ⟨fault, rfl⟩

/-! ## 3. Trees of formulas and of elements -/

theorem proper_of_parse {formula : String} {tree : Node} (h : Formula.parse formula = .ok tree) :
    Proper tree := by
  obtain ⟨nodes, rfl, henclosed, -⟩ := Formula.parse_enclosed h
  rw [rootOf_eq_root]
  refine .row (by decide) fun n hn => ?_
  exact (printable_rootItems (fun n hn => printable_enclosed (henclosed n hn)) n hn).1

theorem proper_of_spelled {P : String → Prop} {n : Node} (h : n.Spelled P) : Proper n := by
  induction h with
  | leaf kind _ => exact .leaf kind _
  | row hkind _ ih => exact .row hkind ih
  | unary _ _ ih => exact .unary ih
  | binary _ _ _ ihl ihr => exact .binary ihl ihr

theorem eachText_true (e : Element) : e.EachText fun _ => True := by
  induction e with
  | mk tag attributes text children tail ih => exact .mk (fun _ _ => trivial) ih

theorem proper_of_toNode {e : Element} {n : Node} (h : e.toNode = .ok n) : Proper n := by
  have hspelled : n.Spelled fun _ => True :=
    Element.toNode_spelled (fun _ _ => trivial) (eachText_true e) h
  exact proper_of_spelled hspelled

/-- **When no code can be written.**  Under all options, a tree has no code exactly if it is, or holds
somewhere below it, nothing, a value that is no node, or a node of no particular kind.  So the tree of
a formula and the tree of an element always have code. -/
theorem emit_fails_iff :
    (∀ (o : Options) (n : Node),
      (∃ fault, emit o n = .error fault) ↔ ∃ m, IsPart m n ∧ lacksCode m = true) ∧
    (∀ (o : Options) (formula : String) (tree : Node), Formula.parse formula = .ok tree →
      ∃ code, emit o tree = .ok code) ∧
    ∀ (o : Options) (e : Element) (tree : Node), e.toNode = .ok tree →
      ∃ code, emit o tree = .ok code := by
  refine ⟨fun o n => ⟨?_, ?_⟩, ?_, ?_⟩
  · rintro ⟨fault, hfault⟩
    by_contra hnone
    have hproper : Proper n := by
      rw [proper_iff]
      intro m hm
      rw [← Bool.not_eq_true]
      exact fun hlacks => hnone ⟨m, hm, hlacks⟩
    obtain ⟨code, hcode⟩ := hproper.emit o
    rw [hcode] at hfault
    cases hfault
  · rintro ⟨m, hpart, hlacks⟩
    exact exists_emit_error (fails_of_part hpart hlacks) o
  · exact fun o formula tree h => (proper_of_parse h).emit o
  · exact fun o e tree h => (proper_of_toNode h).emit o

/-- A quotient whose denominator holds a text where a node should be. -/
def strayQuotient : Node :=
  .binary .fraction (.unary .squareRoot (.identifier "a"))
    (.sequence [.identifier "b", .operator "+", .stray (.text "c")])

theorem emit_fails_iff_quotient :
    (IsPart (.stray (.text "c")) strayQuotient ∧
      ∃ fault, emit { assertDivisions := true } strayQuotient = .error fault) ∧
    (∃ tree, Formula.parse "(a^)+(^(b" = .ok tree ∧ ∃ code, emit {} tree = .ok code) ∧
    ∃ tree, Element.toNode { tag := "MFrac", children := [{ tag := "mo" }, { tag := "math" }] } =
        .ok tree ∧
      ∃ code, emit { assertDivisions := true } tree = .ok code := by
  have hpart : IsPart (.stray (.text "c")) strayQuotient := by
    have hrow : IsPart (.stray (.text "c"))
        (.sequence [.identifier "b", .operator "+", .stray (.text "c")]) :=
      .single (by simp [Node.children])
    exact hrow.tail (by simp [strayQuotient, Node.children])
  have hparse : Formula.parse "(a^)+(^(b" = .ok (.root [.sequence [
      .sequence [.operator "(", .binary .power (.identifier "a") (.operator ")")], .operator "+",
      .binary .power (.operator "(") (.operator "("), .identifier "b"]]) := by
    decide +kernel
  have hread : Element.toNode
      { tag := "MFrac", children := [{ tag := "mo" }, { tag := "math" }] } =
        .ok (.binary .fraction (.operator "") (.root [])) := by
    rfl
  exact ⟨⟨hpart, (emit_fails_iff.1 _ _).2 ⟨_, hpart, rfl⟩⟩,
    ⟨_, hparse, emit_fails_iff.2.1 _ _ _ hparse⟩, ⟨_, hread, emit_fails_iff.2.2 _ _ _ hread⟩⟩

end Code

end Formulary
