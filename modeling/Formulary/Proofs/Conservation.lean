import Formulary.Proofs.Parsing

/-!
# What parsing keeps

Parsing drops brackets and nothing else.  Grouping, folding and the folding of function names keep
the reading of a row as it is; a pass of stripping drops the two brackets of a sequence that stands
in a row.  In a tree of a formula those two brackets belong together (`Enclosed`), so the reading of
the tree is the list of leaves of the formula with some pairs of matching brackets taken out
(`reading_parse`).
-/

namespace Formulary.Formula

/-! ## 1. Lists of leaves with brackets dropped -/

/-- The second list is the first with some pairs of matching brackets taken out. -/
inductive Dropped : List Node → List Node → Prop
  | nil : Dropped [] []
  | keep {a : Node} {xs ys : List Node} (h : Dropped xs ys) : Dropped (a :: xs) (a :: ys)
  | drop {inner inner' xs ys : List Node} (hb : Balanced inner) (hi : Dropped inner inner')
      (h : Dropped xs ys) :
      Dropped ((.operator "(" :: inner ++ [.operator ")"]) ++ xs) (inner' ++ ys)

theorem Dropped.refl (xs : List Node) : Dropped xs xs := by
  induction xs with
  | nil => exact .nil
  | cons x rest ih => exact .keep ih

theorem Dropped.append {xs xs' ys ys' : List Node} (hx : Dropped xs xs') (hy : Dropped ys ys') :
    Dropped (xs ++ ys) (xs' ++ ys') := by
  induction hx with
  | nil => exact hy
  | keep _ ih => exact .keep ih
  | @drop inner inner' xs ys hb hi _ _ ih =>
    rw [List.append_assoc _ xs, List.append_assoc inner']
    exact .drop hb hi ih

theorem Dropped.bracket {xs ys : List Node} (h : Dropped xs ys) (hb : Balanced xs) :
    Dropped (.operator "(" :: xs ++ [.operator ")"]) ys := by
  have hdrop := Dropped.drop hb h .nil
  rwa [List.append_nil, List.append_nil] at hdrop

theorem Dropped.depthAfter_eq {xs ys : List Node} (h : Dropped xs ys) (depth : Nat) :
    depthAfter depth ys = depthAfter depth xs := by
  induction h generalizing depth with
  | nil => rfl
  | @keep a xs ys _ ih =>
    show depthAfter depth ([a] ++ ys) = depthAfter depth ([a] ++ xs)
    rw [depthAfter_append, depthAfter_append, funext ih]
  | drop hb _ _ ihi ih =>
    -- what is between the brackets is balanced, with them and without
    rw [depthAfter_append, ihi, hb.depthAfter, depthAfter_append, hb.bracket.depthAfter,
      Option.bind_some, Option.bind_some, ih]

theorem Dropped.balanced {xs ys : List Node} (h : Dropped xs ys) (hb : Balanced xs) :
    Balanced ys := by
  rw [Balanced, h.depthAfter_eq]
  exact hb

/-- Is the leaf one of the two brackets? -/
def isBracket (n : Node) : Bool :=
  n.isOpening || n.isClosing

/-- All that is not a bracket stays, in its order. -/
theorem Dropped.filter_eq {xs ys : List Node} (h : Dropped xs ys) :
    ys.filter (!isBracket ·) = xs.filter (!isBracket ·) := by
  induction h with
  | nil => rfl
  | keep _ ih => rw [List.filter_cons, List.filter_cons, ih]
  | drop _ _ _ ihi ih =>
    rw [List.filter_append, List.filter_append, List.filter_append, List.filter_cons_of_neg (by decide),
      ihi, ih]
    rw [show [Node.operator ")"].filter (!isBracket ·) = [] by rfl, List.append_nil]

/-! ## 2. Sequences and their brackets -/

/-- A tree whose sequences either do not begin and end with a bracket, or do so with two brackets
that match, around a row that brings no such pair of its own. -/
inductive Enclosed : Node → Prop
  | leaf (kind : LeafKind) (text : String) : Enclosed (.leaf kind text)
  | sequence {items : List Node} (h : ∀ n ∈ items, Enclosed n)
      (hpair : Node.hasBracketPair items = true → ∃ body,
        items = .operator "(" :: body ++ [.operator ")"] ∧ Balanced (readingRow body) ∧
          Node.hasBracketPair body = false) : Enclosed (.sequence items)
  | squareRoot {content : Node} (h : Enclosed content) : Enclosed (.unary .squareRoot content)
  | pair {kind : BinaryKind} {left right : Node} (hl : Enclosed left) (hr : Enclosed right) :
      Enclosed (.binary kind left right)

/-! ## 3. One pass of stripping -/

theorem stripRow_fst (inRow : Bool) (nodes : List Node) :
    (stripRow inRow nodes).1 = nodes.map fun n => (stripNode inRow n).1 := by
  induction nodes with
  | nil => rfl
  | cons n rest ih => rw [stripRow, List.map_cons, ← ih]

-- a sequence loses its brackets if it has a pair of them and stands in a row
theorem stripNode_sequence (inRow : Bool) (items : List Node) :
    (stripNode inRow (.sequence items)).1 =
      if inRow && Node.hasBracketPair (stripRow true items).1 then
        .sequence (inner (stripRow true items).1)
      else .sequence (stripRow true items).1 := by
  rw [stripNode]
  dsimp only
  rw [decide_eq_true rfl, Bool.true_and]
  split <;> rfl

theorem stripNode_unary (inRow : Bool) (kind : UnaryKind) (content : Node) :
    (stripNode inRow (.unary kind content)).1 = .unary kind (stripNode false content).1 := by
  rw [stripNode]

theorem stripNode_binary (inRow : Bool) (kind : BinaryKind) (left right : Node) :
    (stripNode inRow (.binary kind left right)).1 =
      .binary kind (stripNode false left).1 (stripNode false right).1 := by
  rw [stripNode]

theorem stripNode_leaf (inRow : Bool) (kind : LeafKind) (text : String) :
    (stripNode inRow (.leaf kind text)).1 = .leaf kind text := by
  rw [stripNode]

-- a pass makes a leaf only of that leaf itself
theorem stripNode_eq_leaf_iff {inRow : Bool} {n : Node} {kind : LeafKind} {text : String} :
    (stripNode inRow n).1 = .leaf kind text ↔ n = .leaf kind text := by
  cases n with
  | row =>
    rw [stripNode]
    dsimp only
    split <;> simp
  | _ => simp [stripNode]

-- brackets are leaves: what neither makes nor loses a leaf keeps them at the ends of a row
theorem hasBracketPair_map {f : Node → Node}
    (hf : ∀ {n kind text}, f n = .leaf kind text ↔ n = .leaf kind text) (items : List Node) :
    Node.hasBracketPair (items.map f) = Node.hasBracketPair items := by
  have hopening (n : Node) : (f n).isOpening = n.isOpening := by
    rw [Bool.eq_iff_iff, isOpening_iff, isOpening_iff, hf]
  have hclosing (n : Node) : (f n).isClosing = n.isClosing := by
    rw [Bool.eq_iff_iff, isClosing_iff, isClosing_iff, hf]
  rw [Node.hasBracketPair, List.head?_map, List.getLast?_map, Option.any_map, Option.any_map,
    Node.hasBracketPair]
  congr 2
  · exact funext hopening
  · exact funext hclosing

/-- A pass neither makes nor loses a pair of brackets at the ends of a row. -/
theorem hasBracketPair_stripRow (inRow : Bool) (items : List Node) :
    Node.hasBracketPair (stripRow inRow items).1 = Node.hasBracketPair items := by
  rw [stripRow_fst]
  exact hasBracketPair_map stripNode_eq_leaf_iff items

theorem stripRow_group (body : List Node) :
    (stripRow true (.operator "(" :: body ++ [.operator ")"])).1 =
      .operator "(" :: (stripRow true body).1 ++ [.operator ")"] := by
  rw [stripRow_fst, stripRow_fst, List.map_append, List.map_cons, List.map_singleton,
    stripNode_leaf, stripNode_leaf]

theorem inner_group (body : List Node) :
    inner (.operator "(" :: body ++ [.operator ")"]) = body := by
  rw [inner, List.cons_append, List.tail_cons, List.dropLast_concat]

theorem dropped_readingRow {items : List Node} {f : Node → Node}
    (h : ∀ n ∈ items, Dropped (reading n) (reading (f n))) :
    Dropped (readingRow items) (readingRow (items.map f)) := by
  induction items with
  | nil => exact .nil
  | cons n rest ih =>
    obtain ⟨hn, hrest⟩ := List.forall_mem_cons.1 h
    rw [List.map_cons, readingRow_cons, readingRow_cons]
    exact hn.append (ih hrest)

theorem stripRow_of_forall {inRow : Bool} {items : List Node}
    (h : ∀ n ∈ items, stripNode inRow n = (n, false)) : stripRow inRow items = (items, false) := by
  induction items with
  | nil => rfl
  | cons n rest ih =>
    obtain ⟨hn, hrest⟩ := List.forall_mem_cons.1 h
    rw [stripRow, hn, ih hrest]
    rfl

-- what one pass does to the row of a sequence, from what it does to each of its nodes
theorem stripRow_enclosed {items : List Node}
    (h : ∀ n ∈ items, Enclosed (stripNode true n).1 ∧
      Dropped (reading n) (reading (stripNode true n).1) ∧
        stripNode true (stripNode true n).1 = ((stripNode true n).1, false)) :
    (∀ n ∈ (stripRow true items).1, Enclosed n) ∧
      Dropped (readingRow items) (readingRow (stripRow true items).1) ∧
        stripRow true (stripRow true items).1 = ((stripRow true items).1, false) := by
  rw [stripRow_fst]
  refine ⟨?_, dropped_readingRow fun n hn => (h n hn).2.1, stripRow_of_forall ?_⟩
  · intro n hn
    obtain ⟨m, hm, rfl⟩ := List.mem_map.1 hn
    exact (h m hm).1
  · intro n hn
    obtain ⟨m, hm, rfl⟩ := List.mem_map.1 hn
    exact (h m hm).2.2

theorem stripNode_of_stripRow {inRow : Bool} {items : List Node}
    (h : stripRow true items = (items, false))
    (hpair : (inRow && Node.hasBracketPair items) = false) :
    stripNode inRow (.sequence items) = (.sequence items, false) := by
  rw [stripNode, h]
  dsimp only
  rw [decide_eq_true rfl, Bool.true_and, if_neg (by rw [hpair]; decide)]

/-- One pass keeps the tree enclosed, drops matching brackets from its reading, and leaves nothing
for a second pass. -/
theorem Enclosed.stripNode {n : Node} (h : Enclosed n) (inRow : Bool) :
    Enclosed (stripNode inRow n).1 ∧ Dropped (reading n) (reading (stripNode inRow n).1) ∧
      Formula.stripNode inRow (stripNode inRow n).1 = ((stripNode inRow n).1, false) := by
  induction h generalizing inRow with
  | leaf kind text =>
    rw [stripNode_leaf, Formula.stripNode]
    exact ⟨.leaf kind text, .refl _, rfl⟩
  | squareRoot _ ih =>
    obtain ⟨henclosed, hdropped, hsettled⟩ := ih false
    rw [stripNode_unary, reading_squareRoot, reading_squareRoot, Formula.stripNode, hsettled]
    exact ⟨.squareRoot henclosed, .keep hdropped, rfl⟩
  | pair _ _ ihl ihr =>
    obtain ⟨henclosed, hdropped, hsettled⟩ := ihl false
    obtain ⟨henclosed', hdropped', hsettled'⟩ := ihr false
    rw [stripNode_binary, reading_binary, reading_binary, Formula.stripNode, hsettled, hsettled']
    exact ⟨.pair henclosed henclosed', hdropped.append (.keep hdropped'), rfl⟩
  | @sequence items _ hpair ih =>
    rw [stripNode_sequence, hasBracketPair_stripRow]
    have hbody {body : List Node} (hitems : items = .operator "(" :: body ++ [.operator ")"]) :=
      stripRow_enclosed fun n (hn : n ∈ body) => ih n (by simp [hitems, hn]) true
    by_cases hdrop : (inRow && Node.hasBracketPair items) = true
    · -- the pair goes, and what it leaves has no pair of its own
      obtain ⟨body, rfl, hbalanced, hnone⟩ := hpair (Bool.and_eq_true_iff.1 hdrop).2
      obtain ⟨hall, hdropped, hsettled⟩ := hbody rfl
      rw [if_pos hdrop, stripRow_group, inner_group, reading_group]
      rw [← hasBracketPair_stripRow true] at hnone
      refine ⟨.sequence hall fun hpair' => ?_, hdropped.bracket hbalanced,
        stripNode_of_stripRow hsettled (by rw [hnone, Bool.and_false])⟩
      rw [hnone] at hpair'
      exact absurd hpair' (by decide)
    · -- nothing goes at this place
      obtain ⟨hall, hdropped, hsettled⟩ := stripRow_enclosed fun n hn => ih n hn true
      rw [if_neg hdrop, reading_row, reading_row]
      refine ⟨.sequence hall fun hpair' => ?_, hdropped, stripNode_of_stripRow hsettled ?_⟩
      · rw [hasBracketPair_stripRow] at hpair'
        obtain ⟨body, rfl, hbalanced, hnone⟩ := hpair hpair'
        refine ⟨_, stripRow_group body, (hbody rfl).2.1.balanced hbalanced, ?_⟩
        rw [hasBracketPair_stripRow, hnone]
      · rw [hasBracketPair_stripRow]
        exact Bool.of_not_eq_true hdrop

theorem settle_of_stripPass {nodes : List Node} (h : stripPass nodes = (nodes, false)) :
    (settle nodes).nodes = nodes := by
  rw [settle, dif_neg (by rw [h]; simp), h]

/-- One pass strips an enclosed row for good. -/
theorem settle_enclosed {nodes : List Node} (h : ∀ n ∈ nodes, Enclosed n) :
    (settle nodes).nodes = (stripPass nodes).1 := by
  have hsettled : stripPass (stripPass nodes).1 = ((stripPass nodes).1, false) := by
    rw [stripPass, stripPass, stripRow_fst]
    apply stripRow_of_forall
    intro n hn
    obtain ⟨m, hm, rfl⟩ := List.mem_map.1 hn
    exact ((h m hm).stripNode false).2.2
  rw [settle]
  split
  · show (settle (stripPass nodes).1).nodes = _
    exact settle_of_stripPass hsettled
  · rfl

/-! ## 4. The tree of a formula -/

-- folding makes an opening bracket only of an opening bracket: if just the first node of a row is
-- one, at most the first of the folded row is
theorem RowFold.tail {done row out : List Node} (h : RowFold done row out) (hne : done ≠ [])
    (hdone : ∀ n ∈ done.dropLast, n.isOpening = false)
    (hrow : ∀ n ∈ row, n.isOpening = false) : ∀ n ∈ out.tail, n.isOpening = false := by
  induction h with
  | nil done =>
    rw [List.tail_reverse]
    exact fun n hn => hdone n (List.mem_reverse.1 hn)
  | @binding done rest out n left right r kind hk hr h ih =>
    refine ih (by simp) ?_ fun n hn => hrow n (by simp [hn])
    cases done with
    | nil => simp
    | cons d ds =>
      rw [List.dropLast_cons_cons] at hdone ⊢
      exact List.forall_mem_cons.2 ⟨rfl, (List.forall_mem_cons.1 hdone).2⟩
  | @other done rest out n m hk hm h ih =>
    obtain ⟨hn, hrest⟩ := List.forall_mem_cons.1 hrow
    refine ih (by simp) ?_ hrest
    -- a folded node that is a bracket was that bracket before
    rw [List.dropLast_cons_of_ne_nil hne]
    refine List.forall_mem_cons.2 ⟨?_, hdone⟩
    rw [← Bool.not_eq_true, isOpening_iff]
    rintro rfl
    rw [folded_eq_leaf hm] at hn
    exact absurd hn (by decide)

theorem hasBracketPair_iff {items : List Node} : Node.hasBracketPair items = true ↔
    ∃ body, items = .operator "(" :: body ++ [.operator ")"] := by
  constructor
  · intro h
    obtain ⟨hhead, hlast⟩ := Bool.and_eq_true_iff.1 h
    obtain ⟨first, hfirst, hopening⟩ := (Option.any_eq_true _ _).1 hhead
    obtain ⟨final, hfinal, hclosing⟩ := (Option.any_eq_true _ _).1 hlast
    obtain ⟨rest, rfl⟩ := List.head?_eq_some_iff.1 hfirst
    rw [isOpening_iff] at hopening
    rw [isClosing_iff] at hclosing
    subst hopening hclosing
    obtain ⟨front, hfront⟩ := List.getLast?_eq_some_iff.1 hfinal
    cases front with
    | nil => exact absurd hfront (by simp)
    | cons n body =>
      obtain ⟨rfl, rfl⟩ := List.cons.inj hfront
      exact ⟨body, rfl⟩
  · rintro ⟨body, rfl⟩
    rw [Node.hasBracketPair, List.getLast?_concat]
    rfl

/-- A piece folds to an enclosed tree: what folding leaves between the brackets of a group reads as
what stood between them. -/
theorem Piece.enclosed {n m : Node} (h : Piece n) (hf : folded n = some m) : Enclosed m := by
  induction h generalizing m with
  | word _ _ =>
    rw [eq_of_folded_leaf hf]
    exact .leaf _ _
  | @group inside hinside ih =>
    rw [folded, Option.map_eq_some_iff] at hf
    obtain ⟨out, hout, rfl⟩ := hf
    have hbracket {text : String} (m : Node) (hm : folded (.operator text) = some m) :
        Enclosed m := by
      rw [eq_of_folded_leaf hm]
      exact .leaf _ _
    refine .sequence (foldedFrom_forall hout .pair
      (forall_mem_group hbracket (fun n hn m hm => ih n hn hm) hbracket)) fun hpair => ?_
    obtain ⟨body, rfl⟩ := hasBracketPair_iff.1 hpair
    refine ⟨body, rfl, ?_, ?_⟩
    · -- with the brackets off, the folded row still reads as the balanced inside of the group
      have hreading := foldedFrom_reading hout
      rw [readingRow_group, readingRow_group] at hreading
      rw [List.append_cancel_right (List.cons.inj hreading).2]
      exact balanced_readingRow_of fun n hn => (hinside n hn).balanced
    · -- a pair in the body would put an opening bracket behind the first node of the row
      rw [List.cons_append, foldedFrom_other (by rfl), folded_leaf (by rfl),
        Option.bind_some] at hout
      have hlater := (rowFold_of_foldedFrom hout).tail (by simp) (by simp) ?_
      · rw [← Bool.not_eq_true, hasBracketPair_iff]
        rintro ⟨inside', rfl⟩
        have := hlater (.operator "(") (by simp)
        exact absurd this (by decide)
      · intro n hn
        rcases List.mem_append.1 hn with hn | hn
        · exact (hinside n hn).not_isOpening
        · rw [List.mem_singleton.1 hn]
          rfl

/-- Function names keep the reading of a row: the name is put back in front of its content. -/
theorem readingRow_foldFunctions {row out : List Node} (h : foldFunctions row = .ok out) :
    readingRow out = readingRow row := by
  replace h := nameFold_of_foldFunctions h
  induction h with
  | nil => rfl
  | name hname _ ih =>
    rw [(functionName?_eq_some_iff.1 hname).1, readingRow_cons, readingRow_cons,
      readingRow_cons, reading_squareRoot, reading_leaf, ih]
    rfl
  | other _ _ ih => rw [readingRow_cons, readingRow_cons, ih]

theorem reading_rootOf (nodes : List Node) : reading (rootOf nodes) = readingRow nodes := by
  unfold rootOf
  split
  · rw [reading_row, readingRow_cons, reading_row, readingRow_nil, List.append_nil]
  · rw [reading_row]

/-- What parsing hands to stripping is enclosed. -/
theorem IsGrouped.enclosed {row out applied : List Node} (h : IsGrouped row)
    (hout : foldedFrom [] row = some out) (happlied : foldFunctions out = .ok applied) :
    ∀ n ∈ applied, Enclosed n := by
  refine forall_mem_foldFunctions (fun _ => .squareRoot) ?_ happlied
  refine foldedFrom_forall hout .pair fun n hn m hm => ?_
  rcases h n hn with hpiece | rfl
  · exact hpiece.enclosed hm
  · rw [eq_of_folded_leaf hm]
    exact .leaf _ _

/-- The tree of a formula is a root over enclosed trees, and they read as the leaves of the formula
with some pairs of matching brackets taken out. -/
theorem parse_enclosed {formula : String} {tree : Node} (h : parse formula = .ok tree) :
    ∃ nodes, tree = rootOf nodes ∧ (∀ n ∈ nodes, Enclosed n) ∧
      Dropped (leaves (Token.scan formula)) (readingRow nodes) := by
  obtain ⟨row, out, applied, hrow, hout, happlied, rfl⟩ := parse_eq_ok_iff.1 h
  obtain ⟨hreading, hgrouped⟩ := groupedRow_spec hrow
  -- up to the stripping nothing is dropped
  have hleaves : readingRow applied = leaves (Token.scan formula) := by
    rw [readingRow_foldFunctions happlied, foldedFrom_reading hout, hreading, leaves_scan]
  have henclosed := hgrouped.enclosed hout happlied
  refine ⟨(settle applied).nodes, rfl, ?_, ?_⟩
  · rw [settle_enclosed henclosed, stripPass, stripRow_fst]
    intro n hn
    obtain ⟨m, hm, rfl⟩ := List.mem_map.1 hn
    exact ((henclosed m hm).stripNode false).1
  · rw [settle_enclosed henclosed, ← hleaves, stripPass, stripRow_fst]
    exact dropped_readingRow fun n hn => ((henclosed n hn).stripNode false).2.1

/-- **Parsing loses, doubles and moves nothing.**  The tree of a formula reads as the leaves of the
formula, each with the kind of its token, with some pairs of matching brackets taken out; without the
brackets the two lists are the same. -/
theorem reading_parse {formula : String} {tree : Node} (h : parse formula = .ok tree) :
    Dropped (leaves (Token.scan formula)) (reading tree) ∧
      (reading tree).filter (!isBracket ·) =
        (leaves (Token.scan formula)).filter (!isBracket ·) := by
  obtain ⟨nodes, rfl, -, hdropped⟩ := parse_enclosed h
  rw [← reading_rootOf] at hdropped
  exact ⟨hdropped, hdropped.filter_eq⟩

/-- The tree of `2^(a+((b-1)))`, in which two of three groups have lost their brackets. -/
def nestedTree : Node :=
  .root [.binary .power (.number "2") (.sequence [.operator "(", .identifier "a", .operator "+",
    .sequence [.sequence [.identifier "b", .operator "-", .number "1"]], .operator ")"])]

theorem reading_parse_nested : parse "2^(a+((b-1)))" = .ok nestedTree ∧
    Dropped (leaves (Token.scan "2^(a+((b-1)))")) (reading nestedTree) ∧
      (reading nestedTree).filter (!isBracket ·) =
        (leaves (Token.scan "2^(a+((b-1)))")).filter (!isBracket ·) := by
  have h : parse "2^(a+((b-1)))" = .ok nestedTree := by decide +kernel
  exact ⟨h, reading_parse h⟩

end Formulary.Formula
