import Formulary.Proofs.Operands

/-!
# The line is a normal form

A rendered line is a formula again.  Its tree need not be the first one: a pair that was printed in
brackets is now a sequence with the pair inside, rows within rows are spliced, and a `*` that was
written is now a sign.  But it is printed alike, node by node (`Alike`, `reparses_shape`), if only no
two operands touch (`parse_line`).  Where operators are explicit they never do
(`not_touching_of_explicit`), and the line renders to itself (`render_normal`).
-/

namespace Formulary.Code

open Formula Arithmetic
open Token (isOperand apart apart_append apart_cons_of_not apart_sign)

/-! ## 1. Explicit operators -/

/-- Does a value begin with the word: is it an operand or an opening bracket? -/
def beginsValue (word : String) : Bool :=
  !Symbol.isOperator word || word == "("

/-- The operators of a formula are explicit: no operand or `)` is directly followed by an operand
or `(`. -/
def Explicit (formula : String) : Prop :=
  (Token.words formula).IsChain fun a b => ¬(endsValue a = true ∧ beginsValue b = true)

instance (formula : String) : Decidable (Explicit formula) :=
  inferInstanceAs (Decidable ((Token.words formula).IsChain _))

/-- One leaf may directly follow the other, if operators are explicit. -/
def Spaced (a b : Node) : Prop :=
  ¬((isOperandLeaf a = true ∨ a.isClosing = true) ∧ (isOperandLeaf b = true ∨ b.isOpening = true))

theorem spaced_leafOfWord_iff {a b : String} :
    Spaced (leafOfWord a) (leafOfWord b) ↔ ¬(endsValue a = true ∧ beginsValue b = true) := by
  rw [Spaced, isOperandLeaf_leafOfWord, isOperandLeaf_leafOfWord, isClosing_leafOfWord,
    isOpening_leafOfWord, endsValue, beginsValue]
  simp [isOperand]

-- taking out a pair of brackets brings no value next to another
theorem spaced_of_dropped {xs ys : List Node} (h : Dropped xs ys) {first : Node}
    (hxs : (first :: xs).IsChain Spaced) : (first :: ys).IsChain Spaced := by
  induction h generalizing first with
  | nil => exact hxs
  | keep _ ih =>
    obtain ⟨hfirst, hrest⟩ := List.isChain_cons_cons.1 hxs
    exact List.isChain_cons_cons.2 ⟨hfirst, ih hrest⟩
  | @drop inner inner' xs ys _ _ _ ihi ih =>
    have hsplit : first :: ((Node.operator "(" :: inner ++ [.operator ")"]) ++ xs) =
        (first :: .operator "(" :: inner) ++ .operator ")" :: xs := by simp
    rw [hsplit] at hxs
    obtain ⟨hfront, hback, -⟩ := List.isChain_append.1 hxs
    obtain ⟨hopening, hinner⟩ := List.isChain_cons_cons.1 hfront
    -- no value ends before the opening bracket, and none begins behind the closing one
    have hbefore (n : Node) : Spaced first n := fun hboth => hopening ⟨hboth.1, .inr rfl⟩
    have hbehind (m n : Node) (hn : n ∈ ys.head?) : Spaced m n := fun hboth =>
      (ih hback).rel_head? hn ⟨.inr rfl, hboth.2⟩
    have hinner' : (first :: inner').IsChain Spaced :=
      List.isChain_cons.2 ⟨fun n _ => hbefore n, (ihi hinner).tail⟩
    exact List.isChain_append.2 ⟨hinner', (ih hback).tail, fun m _ n hn => hbehind m n hn⟩

theorem apart_of_spaced {nodes : List Node} (h : nodes.IsChain Spaced) :
    ∃ last, apart isOperandLeaf false nodes = some last := by
  apply Option.ne_none_iff_exists'.1
  intro hnone
  obtain ⟨hfalse, -⟩ | ⟨front, a, b, back, rfl, ha, hb⟩ := Token.apart_eq_none_iff.1 hnone
  · exact absurd hfalse (by decide)
  · exact (List.isChain_cons_cons.1 (List.isChain_append.1 h).2.1).1 ⟨.inl ha, .inl hb⟩

/-- Operands that are apart in the leaves of a node are apart among the nodes visited, also if less
stands before it. -/
def StaysApart (n : Node) : Prop :=
  ∀ {before last : Bool} (before' : Bool), apart isOperandLeaf before (reading n) = some last →
    (before' = true → before = true) →
      ∃ last', apart isOperandLeaf before' (writing (trail n)) = some last' ∧
        (last' = true → last = true)

theorem staysApart_row {items : List Node} (h : ∀ n ∈ items, StaysApart n)
    {before last : Bool} (before' : Bool)
    (hrow : apart isOperandLeaf before (readingRow items) = some last)
    (hle : before' = true → before = true) :
    ∃ last', apart isOperandLeaf before' (writing (trailRow items)) = some last' ∧
      (last' = true → last = true) := by
  induction items generalizing before before' with
  | nil =>
    rw [readingRow_nil] at hrow
    obtain rfl := Option.some.inj hrow
    exact ⟨before', rfl, hle⟩
  | cons n rest ih =>
    obtain ⟨hn, hrest⟩ := List.forall_mem_cons.1 h
    rw [readingRow_cons, apart_append, Option.bind_eq_some_iff] at hrow
    obtain ⟨middle, hmiddle, hlast⟩ := hrow
    obtain ⟨middle', hmiddle', hle'⟩ := hn before' hmiddle hle
    obtain ⟨last', hlast', hle''⟩ := ih hrest middle' hlast hle'
    refine ⟨last', ?_, hle''⟩
    rw [trailRow, writing_append, apart_append, hmiddle', Option.bind_some, hlast']

theorem staysApart_shape {role : Role} {n : Node} (h : Shape role n) : StaysApart n := by
  induction h with
  | word h =>
    intro before last before' hword hle
    have hleaf := (isOperandLeaf_leafOfWord _).trans (isOperand_word h)
    rw [leafOfWord, reading_leaf, ← leafOfWord, Token.apart_cons, hleaf, Bool.and_true] at hword
    rw [writing_leafOfWord h, Token.apart_cons, hleaf, Bool.and_true]
    cases before with
    | true => exact absurd hword (by simp)
    | false =>
      obtain rfl : before' = false := Bool.eq_false_iff.2 fun htrue => absurd (hle htrue) (by decide)
      exact ⟨last, hword, id⟩
  | @group items _ ih =>
    intro before last before' hgroup _
    rw [reading_group, List.cons_append, apart_cons_of_not rfl, apart_sign rfl,
      Option.bind_eq_some_iff] at hgroup
    obtain ⟨inside, hinside, -⟩ := hgroup
    obtain ⟨inside', hinside', -⟩ := staysApart_row ih false hinside id
    refine ⟨false, ?_, by simp⟩
    rw [apart_trail_bracketed, hinside', Option.bind_some]
  | ofAtom _ ih => exact ih
  | @pair kind left right _ hr ihl ihr =>
    intro before last before' hpair _
    rw [reading_binary, apart_sign rfl, Option.bind_eq_some_iff] at hpair
    obtain ⟨middle, hmiddle, hlast⟩ := hpair
    obtain ⟨middle', hmiddle', -⟩ := ihl false hmiddle (by simp)
    obtain ⟨last', hlast', hle⟩ := ihr false hlast id
    refine ⟨last', ?_, hle⟩
    rw [apart_trail_pair hr, hmiddle', Option.bind_some, hlast']
  | @sign word h =>
    intro before last before' hsign _
    have hfalse : isOperandLeaf (.operator word) = false := rfl
    refine ⟨false, ?_, by simp⟩
    rw [trail, writing_cons rfl, apart_cons_of_not hfalse]
    rfl
  | term _ _ ih => exact ih
  | row _ ih =>
    intro before last before' hrow hle
    rw [reading_row] at hrow
    rw [trail, writing_sequence]
    exact staysApart_row ih before' hrow hle

/-- Operands do not touch where operators are explicit. -/
theorem not_touching_of_explicit {formula : String} {nodes : List Node} (hexplicit : Explicit formula)
    (h : ∀ n ∈ nodes, IsRootless n)
    (hdropped : Dropped ((Token.words formula).map leafOfWord) (readingRow nodes)) :
    ¬Touching (trail (rootOf nodes)) := by
  have hwords : ((Token.words formula).map leafOfWord).IsChain Spaced :=
    (List.isChain_map leafOfWord).2 (hexplicit.imp fun _ _ => spaced_leafOfWord_iff.2)
  -- an opening bracket in front of the formula changes nothing
  have hfirst : (Node.operator "(" :: (Token.words formula).map leafOfWord).IsChain Spaced := by
    refine List.isChain_cons.2 ⟨fun n _ hboth => ?_, hwords⟩
    exact absurd hboth.1 (by decide)
  obtain ⟨last, hlast⟩ := apart_of_spaced (spaced_of_dropped hdropped hfirst).tail
  have hstays (n : Node) (hn : n ∈ nodes) : StaysApart n := by
    obtain ⟨role, hshape⟩ := (h n hn).shape
    exact staysApart_shape hshape
  obtain ⟨last', hlast', -⟩ := staysApart_row hstays false hlast id
  rw [touching_iff, writing_trail_rootOf, hlast']
  simp

/-! ## 2. Nodes that are parsed again -/

/-- A tree of the role that is printed as another one is, and with brackets where that one is. -/
structure Alike (role : Role) (n m : Node) : Prop where
  shape : Shape role m
  shown_eq : ∀ after, shown after m = shown after n
  alone : ∀ kind, standsAlone kind m = standsAlone kind n
  isRow : m.isRow = n.isRow

/-- The words printed for some nodes fold to nodes with a property, which are printed as these are and
leave the same behind. -/
def Reappear (P : Node → Prop) (after : Bool) (nodes : List Node) : Prop :=
  ∃ row out, Folds (shownRow after nodes) row out ∧ (∀ m ∈ out, P m) ∧
    shownRow after out = shownRow after nodes ∧
      Context.seenAll after (trailRow out) = Context.seenAll after (trailRow nodes)

theorem reappear_row {P : Node → Prop} {items : List Node}
    (h : ∀ n ∈ items, ∀ after, Reappear P after [n]) (after : Bool) : Reappear P after items := by
  induction items generalizing after with
  | nil => exact ⟨[], [], folds_nil, by simp, rfl, rfl⟩
  | cons n rest ih =>
    obtain ⟨hn, hrest⟩ := List.forall_mem_cons.1 h
    obtain ⟨row, out, hfolds, hout, hshown, hseen⟩ := hn after
    obtain ⟨row', out', hfolds', hout', hshown', hseen'⟩ :=
      ih hrest (Context.seenAll after (trailRow [n]))
    refine ⟨row ++ row', out ++ out', ?_, List.forall_mem_append.2 ⟨hout, hout'⟩, ?_, ?_⟩
    · rw [← List.singleton_append, shownRow_append]
      exact hfolds.append hfolds'
    · rw [← List.singleton_append, shownRow_append, shownRow_append, hshown, hseen, hshown']
    · rw [← List.singleton_append, trailRow_append, trailRow_append, Context.seenAll_append,
        Context.seenAll_append, hseen, hseen']

theorem reappear_sign {P : Node → Prop} {word : String} (h : IsSign word) (hword : P (.operator word))
    (after : Bool) : Reappear P after [.operator word] := by
  have hleaf : leafOfWord word = .operator word := by
    rcases h with rfl | rfl | rfl <;> exact leafOfWord_of_isOperator (by decide)
  have hfolds := folds_sign h
  rw [hleaf, ← shown_sign h after, ← shownRow_singleton] at hfolds
  exact ⟨_, _, hfolds, by simpa using hword, rfl, rfl⟩

theorem seenAll_atom {n : Node} (h : Shape .atom n) (after : Bool) :
    Context.seenAll after (trail n) = true := by
  cases h with
  | word h =>
    rcases h.leaf with hleaf | hleaf
    · rw [hleaf, trail]
      rfl
    · rw [hleaf, trail]
      rfl
  | group =>
    rw [trail_bracketed, ← List.cons_append, Context.seenAll_append]
    rfl

theorem seenAll_chain {n : Node} (h : Shape .chain n) (after : Bool) :
    Context.seenAll after (trail n) = true := by
  cases h with
  | ofAtom h => exact seenAll_atom h after
  | @pair kind left right _ hr =>
    cases kind with
    | power =>
      rw [trail, ← List.cons_append, Context.seenAll_append, Context.seenAll_cons]
      exact seenAll_atom hr _
    | fraction =>
      rw [trail, operandTrail_atom hr, ← List.cons_append, Context.seenAll_append, Context.seenAll_cons]
      exact seenAll_atom hr _

-- a chain is printed alike after a value, or with a `*` in front
theorem shown_chain_cases {n : Node} (h : Shape .chain n) (after : Bool) :
    shown after n = shown false n ∨ shown after n = "*" :: shown false n := by
  cases after with
  | false => exact .inl rfl
  | true =>
    cases h with
    | ofAtom h =>
      cases h with
      | word h =>
        rw [shown_leafOfWord h.ne_opening, shown_leafOfWord h.ne_opening]
        exact .inl rfl
      | group =>
        rw [shown_bracketed, shown_bracketed]
        exact .inr rfl
    | pair =>
      rw [shown, shown]
      exact .inr rfl

theorem reappear_chain {P : Node → Prop} (hsign : ∀ {word}, IsSign word → P (.operator word))
    {n m : Node} {row : List Node} (h : Shape .chain n) (hfolds : Folds (shown false n) row [m])
    (halike : Alike .chain n m) (hm : P m) (after : Bool) : Reappear P after [n] := by
  have hseen : Context.seenAll after (trail m) = Context.seenAll after (trail n) := by
    rw [seenAll_chain halike.shape, seenAll_chain h]
  rcases shown_chain_cases h after with heq | heq
  · refine ⟨row, [m], ?_, by simpa using hm, ?_, ?_⟩
    · rwa [shownRow_singleton, heq]
    · rw [shownRow_singleton, shownRow_singleton, halike.shown_eq]
    · rw [trailRow_singleton, trailRow_singleton, hseen]
  · -- the `*` that was written is a sign of the row
    have htimes : IsSign "*" := .inr (.inr rfl)
    have hleaf : leafOfWord "*" = .operator "*" := leafOfWord_of_isOperator (by decide)
    have hstar := (folds_sign htimes).append hfolds
    rw [List.singleton_append, ← heq, ← shownRow_singleton, hleaf] at hstar
    refine ⟨_, _, hstar, ?_, ?_, ?_⟩
    · simpa using ⟨hsign htimes, hm⟩
    · rw [shownRow_append, shownRow_singleton, shownRow_singleton, shownRow_singleton,
        shown_sign htimes, heq, trailRow_singleton, trail, halike.shown_eq]
      rfl
    · rw [trailRow_append, trailRow_singleton, trailRow_singleton, trailRow_singleton,
        Context.seenAll_append, seenAll_chain halike.shape, seenAll_chain h]

theorem isRow_of_not_standsAlone {kind : BinaryKind} {n : Node} (h : Shape .chain n)
    (halone : standsAlone kind n = false) : n.isRow = false := by
  cases h with
  | ofAtom h =>
    rw [standsAlone_atom h] at halone
    exact absurd halone (by decide)
  | pair => rfl

/-- A left operand, with the brackets printed around it, becomes one that needs no brackets. -/
theorem exists_enclosed {n m : Node} {row : List Node} (kind : BinaryKind) (h : Shape .chain n)
    (hfolds : Folds (shown false n) row [m]) (halike : Alike .chain n m) :
    ∃ row' m', Folds (encloseIn kind n (shown false n)) row' [m'] ∧ Shape .chain m' ∧
      standsAlone kind m' = true ∧ shown false m' = encloseIn kind n (shown false n) := by
  cases halone : standsAlone kind n with
  | true =>
    rw [encloseIn, if_pos halone]
    exact ⟨row, m, hfolds, halike.shape, (halike.alone kind).trans halone, halike.shown_eq false⟩
  | false =>
    have hpart : Shape .part m :=
      .term halike.shape (halike.isRow.trans (isRow_of_not_standsAlone h halone))
    have hgroup : Shape .atom (bracketed [m]) := .group (by simpa using hpart)
    rw [encloseIn, if_neg (by rw [halone]; decide)]
    refine ⟨_, _, hfolds.group, .ofAtom hgroup, standsAlone_atom hgroup kind, ?_⟩
    rw [shown_bracketed, shownRow_singleton, halike.shown_eq]
    rfl

/-- What the words of a node fold to, as it is an atom, a chain or a part of a row. -/
def Reparses : Role → Node → Prop
  | .atom, n => ∃ x m, folded x = some m ∧ Folds (shown false n) [x] [m] ∧ Alike .atom n m
  | .chain, n => ∃ row m, Folds (shown false n) row [m] ∧ Alike .chain n m
  | .part, n => ∀ after, Reappear (Shape .part) after [n]

theorem reparses_word {word : String} (h : IsOperand word) : Reparses .atom (leafOfWord word) := by
  have hop := h.not_isOperator
  have hcomma : word ≠ "," := by
    rintro rfl
    exact absurd (h.chars ',' (by decide)).1 (Text.not_isAlphanumeric (by decide) (by decide))
  obtain ⟨hfolds, hfolded⟩ := folds_operand hop hcomma
  refine ⟨_, _, hfolded, ?_, .word h, fun _ => rfl, fun _ => rfl, rfl⟩
  rw [shown_leafOfWord h.ne_opening]
  exact hfolds

theorem reparses_pair {kind : BinaryKind} {left right : Node} (hl : Shape .chain left)
    (hr : Shape .atom right) (ihl : Reparses .chain left) (ihr : Reparses .atom right) :
    Reparses .chain (.binary kind left right) := by
  obtain ⟨row, l, hfolds, halike⟩ := ihl
  obtain ⟨x, r, hfolded, hfolds', halike'⟩ := ihr
  obtain ⟨row', l', henclosed, hshape, halone, hshown⟩ := exists_enclosed kind hl hfolds halike
  have hwords : shown false (.binary kind left right) =
      encloseIn kind left (shown false left) ++ symbolOf kind :: shown false right := by
    rw [shown, encloseIn_atom hr]
    rfl
  have hpair := henclosed.pair hfolds' hfolded kind
  rw [← hwords] at hpair
  refine ⟨_, _, hpair, .pair hshape halike'.shape, ?_, ?_, rfl⟩
  · intro after
    rw [shown, shown, encloseIn_atom hr, encloseIn_atom halike'.shape, encloseIn, if_pos halone,
      hshown, halike'.shown_eq]
  · intro kind'
    cases kind <;> cases kind' <;> rfl

/-- The words printed for a node of a known shape fold to nodes that are printed alike. -/
theorem reparses_shape {role : Role} {n : Node} (h : Shape role n) : Reparses role n := by
  induction h with
  | word h => exact reparses_word h
  | group _ ih =>
    obtain ⟨row, out, hfolds, hparts, hshown, -⟩ := reappear_row ih false
    have hgroup : Shape .atom (bracketed out) := .group hparts
    refine ⟨_, _, folded_group hfolds, ?_, hgroup, ?_, ?_, rfl⟩
    · rw [shown_bracketed]
      exact hfolds.group
    · intro after
      rw [shown_bracketed, shown_bracketed, hshown]
    · intro kind
      rw [standsAlone_atom hgroup, standsAlone_atom (.group ‹_›)]
  | ofAtom h ih =>
    obtain ⟨x, m, -, hfolds, halike⟩ := ih
    exact ⟨[x], m, hfolds, .ofAtom halike.shape, halike.shown_eq, halike.alone, halike.isRow⟩
  | pair hl hr ihl ihr => exact reparses_pair hl hr ihl ihr
  | sign h => exact reappear_sign h (.sign h)
  | term h hrow ih =>
    obtain ⟨row, m, hfolds, halike⟩ := ih
    exact reappear_chain .sign h hfolds halike (.term halike.shape (halike.isRow.trans hrow))
  | row _ ih =>
    intro after
    obtain ⟨row, out, hfolds, hparts, hshown, hseen⟩ := reappear_row ih after
    refine ⟨row, out, ?_, hparts, ?_, ?_⟩
    · rw [shownRow_singleton, shown]
      exact hfolds
    · rw [hshown, shownRow_singleton, shown]
    · rw [hseen, trailRow_singleton, trail]
      rfl

/-! ## 3. The line of a formula, parsed again -/

theorem IsRootless.stripNode {n : Node} (h : IsRootless n) :
    Formula.stripNode false n = (n, false) := by
  rcases h with ⟨word, -, rfl⟩ | hchain
  · rfl
  · exact stripNode_shape hchain

theorem IsRootless.reappear {n : Node} (h : IsRootless n) (after : Bool) :
    Reappear IsRootless after [n] := by
  rcases h with ⟨word, hsign, rfl⟩ | hchain
  · exact reappear_sign hsign (.inl ⟨_, hsign, rfl⟩) after
  · obtain ⟨row, m, hfolds, halike⟩ := reparses_shape hchain
    exact reappear_chain (fun hsign => .inl ⟨_, hsign, rfl⟩) hchain hfolds halike (.inr halike.shape)
      after

/-- The line of nodes whose operands do not touch is a formula, and its nodes are printed as these
are. -/
theorem parse_line {nodes : List Node} (h : ∀ n ∈ nodes, IsRootless n)
    (htouching : ¬Touching (trail (rootOf nodes))) (hsqrt : "sqrt" ∉ shownRow false nodes) :
    ∃ again, parse (render {} (rootOf nodes)) = .ok (rootOf again) ∧ (∀ n ∈ again, IsRootless n) ∧
      shownRow false again = shownRow false nodes := by
  obtain ⟨row, out, hfolds, hrootless, hshown, -⟩ :=
    reappear_row (fun n hn => (h n hn).reappear) false
  have hwords := words_render_of_not_touching h htouching
  have hgrouped : groupedRow (render {} (rootOf nodes)) = .ok row := by
    rw [groupedRow, leaves_scan, hwords, ← hfolds.reading]
    exact group_readingRow hfolds.pieces _
  have hfolded : foldedFrom [] row = some out := by
    have hrow := hfolds.folds [] []
    rwa [List.append_nil, List.append_nil, foldedFrom_nil, List.reverse_reverse] at hrow
  have hfunctions : foldFunctions out = .ok out := by
    apply foldFunctions_of_forall
    intro n hn
    rw [Option.eq_none_iff_forall_ne_some]
    intro name hname
    obtain ⟨rfl, -⟩ := functionName?_eq_some_iff.1 hname
    have hmem : Node.identifier "sqrt" ∈ readingRow out := mem_readingRow.2 ⟨_, hn, by simp⟩
    rw [foldedFrom_reading hfolded, hfolds.reading] at hmem
    exact hsqrt (mem_of_function_mem hmem)
  refine ⟨out, ?_, hrootless, hshown⟩
  rw [parse_of_steps hgrouped hfolded hfunctions,
    settle_of_stripPass (stripRow_of_forall fun n hn => (hrootless n hn).stripNode)]

/-- With explicit operators no operand is lost. -/
theorem operandWords_render_of_explicit {formula : String} {inputs : List String}
    (h : isValid formula inputs = true) (hsqrt : "sqrt" ∉ Token.words formula)
    (hexplicit : Explicit formula) :
    ∃ tree, parse formula = .ok tree ∧ operandWords (render {} tree) = operandWords formula := by
  obtain ⟨nodes, hparse, hrootless, hdropped⟩ := parse_rootless h hsqrt
  have htouching := not_touching_of_explicit hexplicit hrootless hdropped
  refine ⟨rootOf nodes, hparse, ?_⟩
  rw [operandWords, words_render_of_not_touching hrootless htouching,
    filter_shown_rootless hrootless hdropped]

/-- **The line is a normal form.**  The line rendered for a valid formula without square roots, whose
operators are explicit, is a formula that renders to itself. -/
theorem render_normal {formula : String} {inputs : List String} (h : isValid formula inputs = true)
    (hsqrt : "sqrt" ∉ Token.words formula) (hexplicit : Explicit formula) :
    ∃ tree again, parse formula = .ok tree ∧ parse (render {} tree) = .ok again ∧
      render {} again = render {} tree := by
  obtain ⟨nodes, hparse, hrootless, hdropped⟩ := parse_rootless h hsqrt
  have hshown : "sqrt" ∉ shownRow false nodes := by
    intro hmem
    have hoperand := List.mem_filter.2 ⟨hmem, (by decide : isOperand "sqrt" = true)⟩
    rw [filter_shown_rootless hrootless hdropped] at hoperand
    exact hsqrt (List.mem_of_mem_filter hoperand)
  obtain ⟨again, hagain, hrootless', heq⟩ :=
    parse_line hrootless (not_touching_of_explicit hexplicit hrootless hdropped) hshown
  refine ⟨rootOf nodes, rootOf again, hparse, hagain, ?_⟩
  rw [render_rootless hrootless', render_rootless hrootless, heq]

theorem render_normal_nested :
    isValid "((a+(b)))/c/2^(a-())*(a^b^c)" ["a", "b", "c"] = true ∧
      "sqrt" ∉ Token.words "((a+(b)))/c/2^(a-())*(a^b^c)" ∧
      Explicit "((a+(b)))/c/2^(a-())*(a^b^c)" ∧
      ∃ tree again, parse "((a+(b)))/c/2^(a-())*(a^b^c)" = .ok tree ∧
        parse (render {} tree) = .ok again ∧ render {} again = render {} tree := by
  have h : isValid "((a+(b)))/c/2^(a-())*(a^b^c)" ["a", "b", "c"] = true := by decide +kernel
  have hsqrt : "sqrt" ∉ Token.words "((a+(b)))/c/2^(a-())*(a^b^c)" := by decide +kernel
  have hexplicit : Explicit "((a+(b)))/c/2^(a-())*(a^b^c)" := by decide +kernel
  exact ⟨h, hsqrt, hexplicit, render_normal h hsqrt hexplicit⟩

example : (parse "((a+(b)))/c/2^(a-())*(a^b^c)").toOption.map (render {}) =
    some "(((a+b)/c)/2)^(a-)*((a^b)^c)" := by decide +kernel

end Formulary.Code
