import Formulary.Proofs.Arithmetic.Meaning

/-!
# The shape of the tree of a valid formula

The tree of a valid formula is made of few things.  An atom is a name, a number, or a sequence in
brackets; a chain is an atom, or a pair of a chain and an atom, since folding goes from left to right;
and what stands in a row is a sign or a chain.  Inside a bracket no sequence keeps its own brackets,
so the parts of such a row are signs, names, numbers, pairs and rows without brackets (`Shape`); at
the top brackets stay, and there are square roots of chains (`IsTop`).

Main statement: the tree of a valid formula has this shape, and reads as the formula with some pairs
of brackets taken out (`parse_shape`).
-/

namespace Formulary.Formula

open Arithmetic (IsSign)

/-! ## 1. Shapes -/

/-- A name or a number of a valid formula. -/
structure IsOperand (word : String) : Prop where
  nonempty : word.toList ≠ []
  chars : ∀ c ∈ word.toList, Text.isAlphanumeric c = true ∧ Token.isWordChar c = true

/-- What a node is in the tree of a valid formula. -/
inductive Role where
  | atom
  | chain
  | part

/-- The sequence of some nodes between two brackets. -/
abbrev bracketed (items : List Node) : Node :=
  .sequence (.operator "(" :: items ++ [.operator ")"])

/-- The trees that are an atom, a chain, or a part of a row inside a bracket. -/
inductive Shape : Role → Node → Prop
  | word {word : String} (h : IsOperand word) : Shape .atom (leafOfWord word)
  | group {items : List Node} (h : ∀ n ∈ items, Shape .part n) : Shape .atom (bracketed items)
  | ofAtom {n : Node} (h : Shape .atom n) : Shape .chain n
  | pair {kind : BinaryKind} {left right : Node} (hl : Shape .chain left) (hr : Shape .atom right) :
      Shape .chain (.binary kind left right)
  | sign {word : String} (h : IsSign word) : Shape .part (.operator word)
  | term {n : Node} (h : Shape .chain n) (hrow : n.isRow = false) : Shape .part n
  | row {items : List Node} (h : ∀ n ∈ items, Shape .part n) : Shape .part (.sequence items)

/-- A node at the top: a sign, a chain, or the square root of a chain. -/
inductive IsTop : Node → Prop
  | sign {word : String} (h : IsSign word) : IsTop (.operator word)
  | chain {n : Node} (h : Shape .chain n) : IsTop n
  | squareRoot {content : Node} (h : Shape .chain content) : IsTop (.unary .squareRoot content)

theorem IsOperand.not_isOperator {word : String} (h : IsOperand word) :
    Symbol.isOperator word = false := by
  rw [← Bool.not_eq_true]
  intro hop
  obtain ⟨c, hc, hlist⟩ := Symbol.toList_of_isOperator hop
  have hword : Token.isWordChar c = true := (h.chars c (by rw [hlist]; simp)).2
  rw [Token.isWordChar, hc, Bool.not_true, Bool.and_false] at hword
  exact absurd hword (by decide)

theorem IsOperand.ne_opening {word : String} (h : IsOperand word) : word ≠ "(" := by
  rintro rfl
  exact absurd h.not_isOperator (by decide)

theorem IsOperand.leaf {word : String} (h : IsOperand word) :
    leafOfWord word = .identifier word ∨ leafOfWord word = .number word :=
  leafOfWord_of_not_isOperator h.not_isOperator

/-- Chains are built from atoms, one pair after the other. -/
@[elab_as_elim]
theorem Shape.chain_induction {motive : Node → Prop}
    (atom : ∀ n, Shape .atom n → motive n)
    (pair : ∀ kind left right, Shape .chain left → Shape .atom right → motive left →
      motive (.binary kind left right))
    {n : Node} (h : Shape .chain n) : motive n := by
  generalize hrole : Role.chain = role at h
  induction h with
  | ofAtom h => exact atom _ h
  | pair hl hr ihl _ => exact pair _ _ _ hl hr (ihl rfl)
  | word | group | sign | term | row => exact absurd hrole (by simp)

theorem Shape.ofWord {word : String} (h : IsOperand word) : Shape .part (leafOfWord word) :=
  .term (.ofAtom (.word h)) rfl

theorem isSign_of_isOperator {word : String} (hop : Symbol.isOperator word = true)
    (hbinding : Symbol.isBinding word = false) (hopen : word ≠ "(") (hclose : word ≠ ")") :
    IsSign word := by
  rcases Symbol.isOperator_cases hop with rfl | rfl | rfl | rfl | rfl | rfl | rfl
  · exact .inl rfl
  · exact .inr (.inl rfl)
  · exact .inr (.inr rfl)
  · exact absurd hbinding (by decide)
  · exact absurd hbinding (by decide)
  · exact absurd rfl hopen
  · exact absurd rfl hclose

-- the words of a valid formula are operators, or made of letters and numerals
theorem isOperand_of_isValid {formula : String} {inputs : List String}
    (h : isValid formula inputs = true) {word : String} (hword : word ∈ Token.words formula) :
    Symbol.isOperator word = true ∨ IsOperand word := by
  have hclean := ((validWords_of_isValid h).known word hword).2
  rcases isWord_of_mem_words hword with hop | ⟨-, hne, hchars⟩
  · exact .inl hop
  · refine .inr ⟨hne, fun c hc => ⟨?_, hchars c hc⟩⟩
    have hchar := hchars c hc
    have hor := List.all_eq_true.1 hclean c hc
    rw [Token.isWordChar, Bool.and_eq_true_iff, Bool.not_eq_true', Bool.not_eq_true'] at hchar
    rw [hchar.2, Bool.or_false] at hor
    exact hor

/-! ## 2. Rows that fold by themselves -/

/-- A part of a row that neither begins nor ends with an operator to fold is folded by itself,
wherever it stands. -/
theorem foldedFrom_append_of_ends : ∀ xs row : List Node,
    (xs ≠ [] ∨ ∀ n ∈ row.head?, binding? n = none) → (∀ n ∈ row.getLast?, binding? n = none) →
      ∀ done rest : List Node, foldedFrom (xs ++ done) (row ++ rest) =
        (foldedFrom xs row).bind fun out => foldedFrom (out.reverse ++ done) rest
  | xs, [], _, _, done, rest => by
    rw [foldedFrom_nil, Option.bind_some, List.reverse_reverse, List.nil_append]
  | xs, n :: row, hhead, hlast, done, rest => by
    cases hk : binding? n with
    | none =>
      have hlast' : ∀ m ∈ row.getLast?, binding? m = none := by
        intro m hm
        apply hlast m
        rw [List.getLast?_cons, hm]
        rfl
      have ih (m : Node) := foldedFrom_append_of_ends (m :: xs) row (.inl (by simp)) hlast' done rest
      rw [List.cons_append, foldedFrom_other hk, foldedFrom_other hk, Option.bind_assoc]
      exact congrArg _ (funext ih)
    | some kind =>
      match xs, row with
      | [], _ =>
        -- nothing is to the left
        have hnone := (hhead.resolve_left (by simp)) n rfl
        rw [hk] at hnone
        exact absurd hnone (by simp)
      | _ :: _, [] =>
        have hnone := hlast n (by simp)
        rw [hk] at hnone
        exact absurd hnone (by simp)
      | left :: xs, right :: row =>
        have hlast' : ∀ m ∈ row.getLast?, binding? m = none := by
          intro m hm
          apply hlast m
          rw [List.getLast?_cons_cons, List.getLast?_cons, hm]
          rfl
        have ih (m : Node) := foldedFrom_append_of_ends (.binary kind left m :: xs) row
          (.inl (by simp)) hlast' done rest
        rw [List.cons_append, List.cons_append, List.cons_append, foldedFrom_binding hk,
          foldedFrom_binding hk, Option.bind_assoc]
        exact congrArg _ (funext ih)

-- the brackets of a group stay where they are
theorem folded_bracketed {inside : List Node} (hhead : ∀ n ∈ inside.head?, binding? n = none)
    (hlast : ∀ n ∈ inside.getLast?, binding? n = none) :
    folded (bracketed inside) = (foldedFrom [] inside).map bracketed := by
  have hrow : foldedFrom [.operator "("] (inside ++ [.operator ")"]) =
      (foldedFrom [] inside).map fun out => .operator "(" :: out ++ [.operator ")"] := by
    have happend := foldedFrom_append_of_ends [] inside (.inr hhead) hlast [.operator "("]
      [.operator ")"]
    rw [List.nil_append] at happend
    rw [happend, Option.map_eq_bind]
    congr 1
    funext out
    rw [foldedFrom_other (by rfl), folded_leaf (by rfl), Option.bind_some, foldedFrom_nil]
    simp
  rw [folded, List.cons_append, foldedFrom_other (by rfl), folded_leaf (by rfl), Option.bind_some,
    hrow, Option.map_map]
  rfl

/-! ## 3. Folded rows -/

/-- The leaf of a word of a valid formula. -/
def IsLeaf (n : Node) : Prop :=
  ∃ word, n = leafOfWord word ∧ (Symbol.isOperator word = true ∨ IsOperand word)

/-- The same trees before brackets are taken out: what stands in a row is a sign or a chain. -/
inductive Raw : Role → Node → Prop
  | word {word : String} (h : IsOperand word) : Raw .atom (leafOfWord word)
  | group {items : List Node} (h : ∀ n ∈ items, Raw .part n) : Raw .atom (bracketed items)
  | ofAtom {n : Node} (h : Raw .atom n) : Raw .chain n
  | pair {kind : BinaryKind} {left right : Node} (hl : Raw .chain left) (hr : Raw .atom right) :
      Raw .chain (.binary kind left right)
  | sign {word : String} (h : IsSign word) : Raw .part (.operator word)
  | term {n : Node} (h : Raw .chain n) : Raw .part n

/-- A node of a row before its pairs are folded: a sign or an atom. -/
def IsUnfolded (m : Node) : Prop :=
  (∃ word, IsSign word ∧ m = .operator word) ∨ Raw .atom m

theorem IsUnfolded.part {m : Node} (h : IsUnfolded m) : Raw .part m := by
  rcases h with ⟨word, hsign, rfl⟩ | hatom
  · exact .sign hsign
  · exact .term (.ofAtom hatom)

theorem IsUnfolded.atom {m : Node} (h : IsUnfolded m) (hop : isOperatorLeaf m = false) :
    Raw .atom m := by
  rcases h with ⟨word, -, rfl⟩ | hatom
  · exact absurd hop (by simp [isOperatorLeaf])
  · exact hatom

theorem Raw.chain_of_part {m : Node} (h : Raw .part m) (hop : isOperatorLeaf m = false) :
    Raw .chain m := by
  cases h with
  | sign _ => exact absurd hop (by simp [isOperatorLeaf])
  | term h => exact h

theorem foldedFrom_raw {row out : List Node} (h : foldedFrom [] row = some out)
    (hrow : ∀ n ∈ row, ∀ m, folded n = some m → IsUnfolded m) (hchain : row.IsChain Guarded) :
    ∀ n ∈ out, Raw .part n :=
  (rowFold_of_foldedFrom h).forall_mem_of_guarded (fun _ => IsUnfolded.part)
    (fun hl hr hopl hopr => .term (.pair (hl.chain_of_part hopl) (hr.atom hopr))) (by simp) hrow
    (by simp) hchain

-- an operator to fold has an operand on either side, so none stands next to a bracket inside it
theorem binding?_of_guarded_bracket {inside : List Node}
    (h : (Node.operator "(" :: inside ++ [Node.operator ")"]).IsChain Guarded) :
    (∀ n ∈ inside.head?, binding? n = none) ∧ ∀ n ∈ inside.getLast?, binding? n = none := by
  have hnone {n : Node} (hn : isBinding n = false) : binding? n = none := by
    rwa [isBinding, Option.isSome_eq_false_iff, Option.isNone_iff_eq_none] at hn
  obtain ⟨hfront, -, hlast⟩ := List.isChain_append.1 h
  refine ⟨fun n hn => hnone ?_, fun n hn => hnone ?_⟩
  · rw [← Bool.not_eq_true]
    intro hbinding
    exact absurd ((hfront.rel_head? hn).left hbinding) (by simp [isOperatorLeaf])
  · have hmem : n ∈ (Node.operator "(" :: inside).getLast? := by
      rw [List.getLast?_cons, hn]
      rfl
    rw [← Bool.not_eq_true]
    intro hbinding
    exact absurd ((hlast n hmem (.operator ")") rfl).right hbinding) (by simp [isOperatorLeaf])

/-- A piece whose leaves are those of a valid formula folds to a sign or an atom. -/
theorem Piece.unfolded {n m : Node} (h : Piece n) (hleaves : ∀ a ∈ reading n, IsLeaf a)
    (hchain : (reading n).IsChain Follows) (hf : folded n = some m) : IsUnfolded m := by
  induction h generalizing m with
  | @word kind text ho hc =>
    have hk := binding?_of_folded hf
    rw [folded_leaf hk] at hf
    obtain ⟨word, hword, hcases⟩ := hleaves (.leaf kind text) (by rw [reading_leaf]; simp)
    rw [← Option.some.inj hf, hword]
    rw [hword, isOpening_leafOfWord, beq_eq_false_iff_ne] at ho
    rw [hword, isClosing_leafOfWord, beq_eq_false_iff_ne] at hc
    rw [hword, binding?_leafOfWord_eq_none_iff] at hk
    rcases hcases with hop | hoperand
    · exact .inl ⟨word, isSign_of_isOperator hop hk ho hc, leafOfWord_of_isOperator hop⟩
    · exact .inr (.word hoperand)
  | @group inside hinside ih =>
    rw [reading_row] at hchain
    obtain ⟨hguarded, hreadings⟩ := guarded_of_group hinside hchain
    obtain ⟨hhead, hlast⟩ := binding?_of_guarded_bracket hguarded
    rw [folded_bracketed hhead hlast, Option.map_eq_some_iff] at hf
    obtain ⟨out, hout, rfl⟩ := hf
    have hinner : inside.IsChain Guarded := (List.isChain_append.1 hguarded).1.tail
    refine .inr (.group (foldedFrom_raw hout (fun n hn m hm => ?_) hinner))
    refine ih n hn (fun a ha => hleaves a ?_) (hreadings n hn) hm
    rw [reading_group]
    simp only [List.cons_append, List.mem_cons, List.mem_append]
    exact .inr (.inl (mem_readingRow.2 ⟨n, hn, ha⟩))

/-- The folded row of a valid formula holds signs and chains. -/
theorem raw_of_isValid {formula : String} {inputs : List String} {row out applied : List Node}
    (h : isValid formula inputs = true) (hsteps : Steps formula row out applied) :
    ∀ n ∈ out, Raw .part n := by
  obtain ⟨hguarded, hreadings⟩ := guarded_of_row hsteps.pieces hsteps.follows
  refine foldedFrom_raw hsteps.folds (fun n hn m hm => ?_) hguarded
  refine (hsteps.pieces n hn).unfolded (fun a ha => ?_) (hreadings n hn) hm
  have hmem : a ∈ readingRow row := mem_readingRow.2 ⟨n, hn, ha⟩
  rw [hsteps.reading] at hmem
  obtain ⟨word, hword, rfl⟩ := List.mem_map.1 hmem
  exact ⟨word, rfl, isOperand_of_isValid h hword⟩

/-! ## 4. Stripping -/

/-- Stripping a bracketed sequence where it stands in no row, and where it stands in one. -/
theorem stripNode_bracketed (items : List Node) :
    (stripNode false (bracketed items)).1 = bracketed (stripRow true items).1 ∧
      (stripNode true (bracketed items)).1 = .sequence (stripRow true items).1 := by
  have hpair : Node.hasBracketPair
      (.operator "(" :: (stripRow true items).1 ++ [.operator ")"]) = true :=
    hasBracketPair_iff.2 ⟨_, rfl⟩
  constructor
  · rw [stripNode_sequence, Bool.false_and, if_neg (by decide), stripRow_group]
  · rw [stripNode_sequence, stripRow_group, hpair, inner_group]
    rfl

/-- What becomes of a tree of the role where it stands in a row, and for atoms and chains where it
stands in none. -/
def Strips : Role → Node → Prop
  | .part, m => Shape .part (stripNode true m).1
  | role, m => Shape role (stripNode false m).1 ∧ Shape .part (stripNode true m).1

theorem Raw.strips {role : Role} {m : Node} (h : Raw role m) : Strips role m := by
  induction h with
  | @word word h =>
    rw [leafOfWord]
    refine ⟨?_, ?_⟩
    · rw [stripNode_leaf]
      exact .word h
    · rw [stripNode_leaf]
      exact .ofWord h
  | @group items _ ih =>
    have hparts : ∀ n ∈ (stripRow true items).1, Shape .part n := by
      rw [stripRow_fst]
      intro n hn
      obtain ⟨m, hm, rfl⟩ := List.mem_map.1 hn
      exact ih m hm
    obtain ⟨halone, hinRow⟩ := stripNode_bracketed items
    exact ⟨halone ▸ .group hparts, hinRow ▸ .row hparts⟩
  | ofAtom _ ih => exact ⟨.ofAtom ih.1, ih.2⟩
  | @pair kind left right _ _ ihl ihr =>
    -- the operands of a pair stand in no row, wherever the pair itself stands
    have hpair : Shape .chain (.binary kind (stripNode false left).1 (stripNode false right).1) :=
      .pair ihl.1 ihr.1
    refine ⟨?_, ?_⟩
    · rw [stripNode_binary]
      exact hpair
    · rw [stripNode_binary]
      exact .term hpair rfl
  | sign h =>
    rw [Strips, stripNode_leaf]
    exact .sign h
  | term _ ih => exact ih.2

theorem Raw.isTop {m : Node} (h : Raw .part m) : IsTop (stripNode false m).1 := by
  cases h with
  | sign h =>
    rw [stripNode_leaf]
    exact .sign h
  | term h => exact .chain h.strips.1

/-! ## 5. The tree of a valid formula -/

theorem Dropped.subset {xs ys : List Node} (h : Dropped xs ys) : ys ⊆ xs := by
  induction h with
  | nil => exact List.Subset.refl _
  | keep _ ih => exact List.cons_subset_cons _ ih
  | drop _ _ _ ihi ih =>
    intro n hn
    rcases List.mem_append.1 hn with hn | hn
    · simp [ihi hn]
    · simp [ih hn]

section

variable {row out applied : List Node} (h : ∀ n ∈ row, Piece n) (hout : foldedFrom [] row = some out)
  (happlied : foldFunctions out = .ok applied)

include h hout happlied

theorem enclosed_applied : ∀ n ∈ applied, Enclosed n := by
  have hgrouped : IsGrouped row := fun n hn => .inl (h n hn)
  exact hgrouped.enclosed hout happlied

/-- One pass strips the nodes of a formula for good. -/
theorem settle_applied : (settle applied).nodes = applied.map fun n => (stripNode false n).1 := by
  rw [settle_enclosed (enclosed_applied h hout happlied), stripPass, stripRow_fst]

end

/-- The tree of a valid formula has nodes of a known shape under its root, and reads as the leaves of
the formula with some pairs of matching brackets taken out. -/
theorem parse_shape {formula : String} {inputs : List String} (h : isValid formula inputs = true) :
    ∃ nodes, parse formula = .ok (rootOf nodes) ∧ (∀ n ∈ nodes, IsTop n) ∧
      Dropped ((Token.words formula).map leafOfWord) (readingRow nodes) := by
  obtain ⟨row, out, applied, hsteps⟩ := exists_steps h
  have htop : ∀ n ∈ applied, IsTop (stripNode false n).1 := by
    refine forall_mem_foldFunctions_of_guarded (fun n hn => Raw.isTop hn) (fun n hn hop => ?_)
      (raw_of_isValid h hsteps) (guarded_folded hsteps.pieces hsteps.follows hsteps.folds)
      hsteps.applies
    rw [stripNode_unary]
    exact .squareRoot (hn.chain_of_part hop).strips.1
  have henclosed := enclosed_applied hsteps.pieces hsteps.folds hsteps.applies
  have hsettled := settle_applied hsteps.pieces hsteps.folds hsteps.applies
  have happlied : readingRow applied = (Token.words formula).map leafOfWord := by
    rw [readingRow_foldFunctions hsteps.applies, foldedFrom_reading hsteps.folds, hsteps.reading]
  refine ⟨_, hsteps.parses, ?_, ?_⟩
  · rw [hsettled]
    intro n hn
    obtain ⟨m, hm, rfl⟩ := List.mem_map.1 hn
    exact htop m hm
  · rw [hsettled, ← happlied]
    exact dropped_readingRow fun n hn => ((henclosed n hn).stripNode false).2.1

/-! ## 6. Trees that are stripped already -/

theorem Shape.ne_opening {role : Role} {n : Node} (h : Shape role n) : n ≠ .operator "(" := by
  induction h with
  | word h =>
    rcases h.leaf with hleaf | hleaf
    · rw [hleaf]
      simp
    · rw [hleaf]
      simp
  | sign h => rcases h with rfl | rfl | rfl <;> simp
  | ofAtom _ ih => exact ih
  | term _ _ ih => exact ih
  | group | pair | row => simp

/-- Does a node of the role stand directly in a row? -/
def Role.inRow : Role → Bool
  | .atom | .chain => false
  | .part => true

/-- Stripping leaves a tree of a known shape as it is. -/
theorem stripNode_shape {role : Role} {n : Node} (h : Shape role n) :
    stripNode role.inRow n = (n, false) := by
  induction h with
  | word => rfl
  | @group items _ ih =>
    have hrow : stripRow true (.operator "(" :: items ++ [.operator ")"]) =
        (.operator "(" :: items ++ [.operator ")"], false) :=
      stripRow_of_forall (forall_mem_group rfl ih rfl)
    rw [stripNode, hrow]
    rfl
  | ofAtom _ ih => exact ih
  | @pair kind left right _ _ ihl ihr =>
    have hl : stripNode false left = (left, false) := ihl
    have hr : stripNode false right = (right, false) := ihr
    rw [stripNode, hl, hr]
    rfl
  | sign => rfl
  | @term n h hrow ih =>
    -- the place of a node matters only to a sequence
    rw [← ih]
    cases n with
    | row => exact absurd hrow (by simp [Node.isRow])
    | _ => rfl
  | @row items h ih =>
    have hpair : Node.hasBracketPair items = false := by
      rw [← Bool.not_eq_true]
      intro hpair
      obtain ⟨body, rfl⟩ := hasBracketPair_iff.1 hpair
      exact (h _ (by simp)).ne_opening rfl
    have hrow : stripRow true items = (items, false) := stripRow_of_forall ih
    rw [stripNode, hrow]
    simp [hpair]

end Formulary.Formula
