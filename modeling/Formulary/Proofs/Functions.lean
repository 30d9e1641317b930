import Formulary.Proofs.Shape

/-!
# Function names that are applied

A function name is applied if it still stands in the row when the operators have been folded.  It does
not if it stands in a bracket, since only the outermost row is searched, or directly behind `^` or `/`,
since that operator has taken it for its right operand.  The names that are left (`freeNames`) are
counted among the leaves of the formula, and each of them makes one square root of the tree; all others
stay identifiers (`squareRoots_parse`).
-/

namespace Formulary.Formula

/-! ## 1. Free names -/

/-- The number of function names that stand in no bracket and directly behind no operator to fold.
Before the leaves `depth` brackets are open, and `bound` says whether an operator to fold stands right
before them. -/
def freeNames (depth : Nat) (bound : Bool) : List Node → Nat
  | [] => 0
  | n :: rest =>
    if n.isOpening then freeNames (depth + 1) false rest
    else if n.isClosing then freeNames (depth - 1) false rest
    else (isName n && depth == 0 && !bound).toNat + freeNames depth (isBinding n) rest

section

variable {depth : Nat} {bound : Bool} {n : Node}

theorem freeNames_opening (h : n.isOpening = true) (rest : List Node) :
    freeNames depth bound (n :: rest) = freeNames (depth + 1) false rest := by
  rw [freeNames, if_pos h]

theorem freeNames_closing (h : n.isClosing = true) (rest : List Node) :
    freeNames depth bound (n :: rest) = freeNames (depth - 1) false rest := by
  rw [isClosing_iff.1 h]
  rfl

theorem freeNames_other (ho : n.isOpening = false) (hc : n.isClosing = false) (rest : List Node) :
    freeNames depth bound (n :: rest) =
      (isName n && depth == 0 && !bound).toNat + freeNames depth (isBinding n) rest := by
  rw [freeNames, if_neg (by rw [ho]; decide), if_neg (by rw [hc]; decide)]

end

-- no name inside a bracket is free, and behind the bracket nothing is left of what it held
theorem freeNames_inside {depth after : Nat} {inside : List Node}
    (h : depthAfter depth inside = some after) (bound : Bool) (rest : List Node) :
    freeNames (depth + 1) bound (inside ++ .operator ")" :: rest) = freeNames after false rest := by
  induction inside generalizing depth bound with
  | nil =>
    obtain rfl := Option.some.inj h
    exact freeNames_closing rfl rest
  | cons n inside ih =>
    rw [List.cons_append]
    rcases bracket_cases n with hn | hn | ⟨ho, hc⟩
    · rw [depthAfter_opening hn] at h
      rw [freeNames_opening hn, ih h]
    · cases depth with
      | zero =>
        rw [depthAfter_closing_zero hn] at h
        exact absurd h (by simp)
      | succ depth =>
        rw [depthAfter_closing hn] at h
        rw [freeNames_closing hn]
        exact ih h false
    · rw [depthAfter_other ho hc] at h
      rw [freeNames_other ho hc, ih h]
      simp

theorem freeNames_le_countP (leaves : List Node) (depth : Nat) (bound : Bool) :
    freeNames depth bound leaves ≤ leaves.countP isName := by
  induction leaves generalizing depth bound with
  | nil => exact Nat.le_refl _
  | cons n rest ih =>
    rw [List.countP_cons]
    rcases bracket_cases n with hn | hn | ⟨ho, hc⟩
    · rw [freeNames_opening hn]
      exact Nat.le_add_right_of_le (ih _ _)
    · rw [freeNames_closing hn]
      exact Nat.le_add_right_of_le (ih _ _)
    · rw [freeNames_other ho hc, Nat.add_comm]
      refine Nat.add_le_add (ih _ _) ?_
      cases isName n <;> cases depth == 0 <;> cases bound <;> decide

-- a list is cut at its first element, or where the rest of it is cut
theorem forall_cut_cons {α : Type} {P : List α → α → Prop} {a : α} {list : List α} :
    (∀ front x back, a :: list = front ++ x :: back → P front x) ↔
      P [] a ∧ ∀ front x back, list = front ++ x :: back → P (a :: front) x := by
  constructor
  · intro h
    refine ⟨h [] a list rfl, ?_⟩
    rintro front x back rfl
    exact h (a :: front) x back rfl
  · rintro ⟨hhead, hrest⟩ front x back hcut
    cases front with
    | nil =>
      obtain ⟨rfl, -⟩ := List.cons.inj hcut
      exact hhead
    | cons b front =>
      obtain ⟨rfl, hlist⟩ := List.cons.inj hcut
      exact hrest front x back hlist

/-- All names are free exactly if each stands in no bracket and right behind no operator to fold. -/
theorem freeNames_eq_countP_iff {leaves : List Node} {depth after : Nat} {bound : Bool}
    (h : depthAfter depth leaves = some after) :
    freeNames depth bound leaves = leaves.countP isName ↔
      ∀ front n back, leaves = front ++ n :: back → isName n = true →
        depthAfter depth front = some 0 ∧ front.getLast?.elim bound isBinding = false := by
  induction leaves generalizing depth bound with
  | nil => simp [freeNames]
  | cons n rest ih =>
    rw [forall_cut_cons (P := fun front n => isName n = true →
      depthAfter depth front = some 0 ∧ front.getLast?.elim bound isBinding = false), List.countP_cons]
    have hlast (front : List Node) : (n :: front).getLast?.elim bound isBinding =
        front.getLast?.elim (isBinding n) isBinding := by
      rw [List.getLast?_cons]
      cases front.getLast? <;> rfl
    simp only [hlast]
    rcases bracket_cases n with hn | hn | ⟨ho, hc⟩
    · have hname : isName n = false ∧ isBinding n = false := by rw [isOpening_iff.1 hn]; decide
      rw [depthAfter_opening hn] at h
      simpa [freeNames_opening hn, depthAfter_opening hn, hname] using ih h
    · have hname : isName n = false ∧ isBinding n = false := by rw [isClosing_iff.1 hn]; decide
      cases depth with
      | zero =>
        rw [depthAfter_closing_zero hn] at h
        exact absurd h (by simp)
      | succ depth =>
        rw [depthAfter_closing hn] at h
        simpa [freeNames_closing hn, depthAfter_closing hn, hname] using ih h
    · rw [depthAfter_other ho hc] at h
      simp only [freeNames_other ho hc, depthAfter_other ho hc, ← ih h, depthAfter_nil,
        List.getLast?_nil, Option.elim_none]
      -- a name that is not free cannot be made up for by the others
      have hle := freeNames_le_countP rest depth (isBinding n)
      have hdepth : (depth == 0) = decide (depth = 0) := rfl
      by_cases hfree : depth = 0 ∧ bound = false
      · cases hname : isName n
        · simp
        · simp [hfree]
          omega
      · have hnot : (decide (depth = 0) && !bound) = false := by simpa using hfree
        rw [Bool.and_assoc, hdepth, hnot, Bool.and_false]
        cases hname : isName n
        · simp
        · simp [hfree]
          omega

/-! ## 2. Folded rows -/

/-- The number of function names of a row that stand directly behind no operator to fold; `bound` says
whether one stands before the row. -/
def rowNames (bound : Bool) : List Node → Nat
  | [] => 0
  | n :: rest => (isName n && !bound).toNat + rowNames (isBinding n) rest

/-- The free names of a formula are those of its grouped row. -/
theorem freeNames_readingRow {row : List Node} (h : ∀ n ∈ row, Piece n) (bound : Bool) :
    freeNames 0 bound (readingRow row) = rowNames bound row := by
  induction row generalizing bound with
  | nil => rfl
  | cons n rest ih =>
    obtain ⟨hn, hrest⟩ := List.forall_mem_cons.1 h
    rw [readingRow_cons, rowNames, ← ih hrest]
    cases hn with
    | word ho hc =>
      rw [reading_leaf, List.singleton_append, freeNames_other ho hc, beq_self_eq_true,
        Bool.and_true]
    | @group inside hinside =>
      have hbalanced : depthAfter 0 (readingRow inside) = some 0 :=
        balanced_readingRow_of fun m hm => (hinside m hm).balanced
      rw [reading_group, List.append_assoc, List.cons_append, freeNames_opening rfl,
        List.singleton_append, freeNames_inside hbalanced]
      simp [isName, isBinding, functionName?, binding?]

/-- An operator takes no name for its left operand, and every name that it does not take for its right
one stays in the row. -/
theorem RowFold.countP_isName {done row out : List Node} (h : RowFold done row out)
    (hlink : ∀ d ∈ done.head?, ∀ y ∈ row.head?, isBinding y = true → isName d = false)
    (hchain : row.IsChain Guarded) :
    out.countP isName = done.countP isName + rowNames false row := by
  induction h with
  | nil done => rw [List.countP_reverse, rowNames, Nat.add_zero]
  | @binding done rest out n left right r kind hk hr h ih =>
    have hbinding : isBinding n = true := by rw [isBinding, hk]; rfl
    have hright : isBinding right = false := by rw [isBinding, binding?_of_folded hr]; rfl
    have hleft : isName left = false := hlink left rfl n rfl hbinding
    rw [ih (fun d hd _ _ _ => by rw [← Option.some.inj hd]; rfl) hchain.tail.tail, rowNames, rowNames,
      isName_of_isBinding hbinding, hbinding, hright,
      List.countP_cons_of_neg (by simp [isName, functionName?]),
      List.countP_cons_of_neg (by simp [hleft])]
    simp
  | @other done rest out n m hk hm h ih =>
    have hn : isBinding n = false := by rw [isBinding, hk]; rfl
    have hname : isName m = isName n := isName_of_folded hm
    rw [ih ?_ hchain.tail, List.countP_cons, hname, rowNames, hn]
    · cases isName n
      · simp
      · simp
        omega
    · -- behind a name there is no operator
      intro d hd y hy hbinding
      rw [← Option.some.inj hd, hname, ← Bool.not_eq_true]
      intro hisName
      have hoperator := (hchain.rel_head? hy).name hisName
      obtain ⟨kind, hkind⟩ := Option.isSome_iff_exists.1 hbinding
      rw [binding?_eq_some_iff.1 hkind] at hoperator
      exact absurd hoperator (by simp [isOperatorLeaf])

/-! ## 3. Square roots -/

/-- Is the node a square root? -/
def isSquareRoot : Node → Bool
  | .unary .squareRoot _ => true
  | _ => false

section

variable {p : Node → Bool}

theorem countP_preorderRow_append (xs ys : List Node) :
    (Node.preorderRow (xs ++ ys)).countP p =
      (Node.preorderRow xs).countP p + (Node.preorderRow ys).countP p := by
  induction xs with
  | nil => rw [List.nil_append, Node.preorderRow, List.countP_nil, Nat.zero_add]
  | cons n rest ih =>
    rw [List.cons_append, Node.preorderRow, Node.preorderRow, List.countP_append, List.countP_append,
      ih, Nat.add_assoc]

theorem countP_preorderRow_map {f : Node → Node} {items : List Node}
    (h : ∀ n ∈ items, (f n).preorder.countP p = n.preorder.countP p) :
    (Node.preorderRow (items.map f)).countP p = (Node.preorderRow items).countP p := by
  induction items with
  | nil => rfl
  | cons n rest ih =>
    obtain ⟨hn, hrest⟩ := List.forall_mem_cons.1 h
    rw [List.map_cons, Node.preorderRow, Node.preorderRow, List.countP_append, List.countP_append,
      hn, ih hrest]

theorem countP_preorderRow_eq_zero {items : List Node} (h : ∀ n ∈ items, n.preorder.countP p = 0) :
    (Node.preorderRow items).countP p = 0 := by
  induction items with
  | nil => rfl
  | cons n rest ih =>
    obtain ⟨hn, hrest⟩ := List.forall_mem_cons.1 h
    rw [Node.preorderRow, List.countP_append, hn, ih hrest]

theorem countP_preorder_leaf (kind : LeafKind) (text : String) :
    (Node.leaf kind text).preorder.countP p = (p (.leaf kind text)).toNat := by
  rw [Node.preorder, List.countP_singleton]
  · cases p (.leaf kind text) <;> rfl
  all_goals simp

theorem countP_preorder_row {kind : RowKind} {items : List Node}
    (h : p (.row kind items) = false) :
    (Node.row kind items).preorder.countP p = (Node.preorderRow items).countP p := by
  rw [Node.preorder, List.countP_cons_of_neg (by simp [h])]

theorem countP_preorder_unary (kind : UnaryKind) (content : Node) :
    (Node.unary kind content).preorder.countP p =
      (p (.unary kind content)).toNat + content.preorder.countP p := by
  rw [Node.preorder, List.countP_cons, Nat.add_comm]
  cases p (.unary kind content) <;> rfl

theorem countP_preorder_binary {kind : BinaryKind} {left right : Node}
    (h : p (.binary kind left right) = false) :
    (Node.binary kind left right).preorder.countP p =
      left.preorder.countP p + right.preorder.countP p := by
  rw [Node.preorder, List.countP_cons_of_neg (by simp [h]), List.countP_append]

end

/-- A tree reads with a function name for every such identifier and for every square root in it. -/
theorem countP_reading (n : Node) : (reading n).countP isName =
    n.preorder.countP isName + n.preorder.countP isSquareRoot := by
  induction n with
  | leaf kind text =>
    rw [reading_leaf, countP_preorder_leaf, countP_preorder_leaf, List.countP_singleton]
    cases isName (.leaf kind text) <;> rfl
  | row kind items ih =>
    rw [reading_row, countP_preorder_row rfl, countP_preorder_row rfl]
    induction items with
    | nil => rfl
    | cons n rest ihrest =>
      obtain ⟨hn, hrest⟩ := List.forall_mem_cons.1 ih
      rw [readingRow_cons, Node.preorderRow, List.countP_append, List.countP_append,
        List.countP_append, hn, ihrest hrest]
      omega
  | unary kind content ih =>
    rw [countP_preorder_unary, countP_preorder_unary]
    cases kind with
    | squareRoot =>
      rw [reading_squareRoot, List.countP_cons_of_pos (by decide), ih]
      simp [isName, functionName?, isSquareRoot]
      omega
    | fenced =>
      rw [reading, List.countP_append, List.countP_cons_of_neg (by decide), ih,
        List.countP_cons_of_neg (by decide)]
      simp [isName, functionName?, isSquareRoot]
  | binary kind left right ihl ihr =>
    have hsign : isName (.operator (symbolOf kind)) = false := by cases kind <;> rfl
    rw [reading_binary, List.countP_append, List.countP_cons_of_neg (by simp [hsign]), ihl, ihr,
      countP_preorder_binary rfl, countP_preorder_binary rfl]
    omega
  | bare | missing | stray => rfl

-- function names are no brackets
theorem Dropped.countP_isName {xs ys : List Node} (h : Dropped xs ys) :
    ys.countP isName = xs.countP isName := by
  induction h with
  | nil => rfl
  | keep _ ih => rw [List.countP_cons, List.countP_cons, ih]
  | drop _ _ _ ihi ih =>
    rw [List.countP_append, List.countP_append, List.countP_append,
      List.countP_cons_of_neg (by decide), List.countP_singleton, ihi, ih]
    rfl

theorem countP_preorder_pair {kind : BinaryKind} {left right : Node}
    (hl : left.preorder.countP isSquareRoot = 0) (hr : right.preorder.countP isSquareRoot = 0) :
    (Node.binary kind left right).preorder.countP isSquareRoot = 0 := by
  rw [countP_preorder_binary rfl, hl, hr]

/-- Folding makes no square roots. -/
theorem Piece.countP_isSquareRoot {n m : Node} (h : Piece n) (hf : folded n = some m) :
    m.preorder.countP isSquareRoot = 0 := by
  have hleaf {kind : LeafKind} {text : String} (m : Node) (hm : folded (.leaf kind text) = some m) :
      m.preorder.countP isSquareRoot = 0 := by
    rw [eq_of_folded_leaf hm, countP_preorder_leaf]
    rfl
  induction h generalizing m with
  | word _ _ => exact hleaf m hf
  | group _ ih =>
    rw [folded, Option.map_eq_some_iff] at hf
    obtain ⟨out, hout, rfl⟩ := hf
    rw [countP_preorder_row rfl]
    refine countP_preorderRow_eq_zero (foldedFrom_forall hout countP_preorder_pair ?_)
    exact forall_mem_group hleaf (fun n hn m hm => ih n hn hm) hleaf

/-- Every name of a row in which no name follows another makes a square root. -/
theorem countP_foldFunctions {row out : List Node}
    (hrow : ∀ n ∈ row, n.preorder.countP isSquareRoot = 0)
    (hchain : row.IsChain fun x y => isName x = true → isName y = false)
    (h : foldFunctions row = .ok out) :
    (Node.preorderRow out).countP isSquareRoot = row.countP isName := by
  replace h := nameFold_of_foldFunctions h
  induction h with
  | nil => rfl
  | name hname _ ih =>
    obtain ⟨-, hrow⟩ := List.forall_mem_cons.1 hrow
    obtain ⟨hargument, hrest⟩ := List.forall_mem_cons.1 hrow
    obtain ⟨hlink, hchain⟩ := List.isChain_cons_cons.1 hchain
    have hisName := isName_of_some hname
    rw [Node.preorderRow, List.countP_append, countP_preorder_unary, hargument, ih hrest hchain.tail,
      List.countP_cons_of_pos hisName, List.countP_cons_of_neg (by simp [hlink hisName])]
    simp [isSquareRoot]
    omega
  | other hname _ ih =>
    obtain ⟨hn, hrest⟩ := List.forall_mem_cons.1 hrow
    rw [Node.preorderRow, List.countP_append, hn, ih hrest hchain.tail,
      List.countP_cons_of_neg (by simp [isName_of_none hname]), Nat.zero_add]

/-! ## 4. Stripping -/

theorem countP_preorderRow_inner {items : List Node} (h : Node.hasBracketPair items = true) :
    (Node.preorderRow (inner items)).countP isSquareRoot =
      (Node.preorderRow items).countP isSquareRoot := by
  obtain ⟨body, rfl⟩ := hasBracketPair_iff.1 h
  rw [inner_group, countP_preorderRow_append, Node.preorderRow, List.countP_append,
    countP_preorder_leaf, Node.preorderRow, List.countP_append, countP_preorder_leaf]
  simp [isSquareRoot, Node.preorderRow]

/-- Stripping neither makes nor loses a square root. -/
theorem countP_preorder_stripNode (inRow : Bool) (n : Node) :
    (stripNode inRow n).1.preorder.countP isSquareRoot = n.preorder.countP isSquareRoot := by
  induction n generalizing inRow with
  | leaf => rw [stripNode_leaf]
  | row kind items ih =>
    have hitems : (Node.preorderRow (stripRow true items).1).countP isSquareRoot =
        (Node.preorderRow items).countP isSquareRoot := by
      rw [stripRow_fst]
      exact countP_preorderRow_map fun n hn => ih n hn true
    rw [stripNode]
    dsimp only
    split
    · next hdrop =>
      rw [countP_preorder_row rfl, countP_preorder_row rfl,
        countP_preorderRow_inner (Bool.and_eq_true_iff.1 hdrop).2, hitems]
    · rw [countP_preorder_row rfl, countP_preorder_row rfl, hitems]
  | unary kind content ih =>
    rw [stripNode_unary, countP_preorder_unary, countP_preorder_unary, ih]
    cases kind <;> rfl
  | binary kind left right ihl ihr =>
    rw [stripNode_binary, countP_preorder_binary rfl, countP_preorder_binary rfl, ihl, ihr]
  | bare | missing | stray => rw [stripNode]

theorem countP_preorderRow_settle (nodes : List Node) :
    (Node.preorderRow (settle nodes).nodes).countP isSquareRoot =
      (Node.preorderRow nodes).countP isSquareRoot := by
  have hpass (nodes : List Node) : (Node.preorderRow (stripPass nodes).1).countP isSquareRoot =
      (Node.preorderRow nodes).countP isSquareRoot := by
    rw [stripPass, stripRow_fst]
    exact countP_preorderRow_map fun n _ => countP_preorder_stripNode false n
  induction nodes using settle.induct with
  | case1 nodes hchanged ih =>
    rw [settle, dif_pos hchanged]
    exact ih.trans (hpass nodes)
  | case2 nodes hunchanged =>
    rw [settle, dif_neg hunchanged]
    exact hpass nodes

theorem countP_preorder_rootOf (nodes : List Node) :
    (rootOf nodes).preorder.countP isSquareRoot = (Node.preorderRow nodes).countP isSquareRoot := by
  unfold rootOf
  split
  · rw [countP_preorder_row rfl, Node.preorderRow, List.countP_append, countP_preorder_row rfl]
    rfl
  · rw [countP_preorder_row rfl]

/-! ## 5. The tree of a formula -/

theorem isName_iff {n : Node} : isName n = true ↔ n = .identifier "sqrt" := by
  rw [isName, Option.isSome_iff_exists]
  constructor
  · rintro ⟨name, h⟩
    exact (functionName?_eq_some_iff.1 h).1
  · rintro rfl
    exact ⟨"sqrt", rfl⟩

theorem countP_isName_eq_count (nodes : List Node) :
    nodes.countP isName = nodes.count (.identifier "sqrt") := by
  refine List.countP_congr fun n _ => ?_
  rw [isName_iff, beq_iff_eq]

theorem countP_isName_leaves (words : List String) :
    (words.map leafOfWord).countP isName = words.count "sqrt" := by
  rw [List.countP_map, List.count]
  refine List.countP_congr fun word _ => ?_
  rw [Function.comp_apply, isName, isSome_functionName?_leafOfWord, Symbol.isFunction_iff, beq_iff_eq]

/-- In the folded row of a valid formula no name follows another: its content begins with a bracket. -/
theorem isChain_names {row out : List Node} (h : ∀ n ∈ row, Piece n)
    (hchain : (readingRow row).IsChain Follows) (hout : foldedFrom [] row = some out) :
    out.IsChain fun x y => isName x = true → isName y = false := by
  refine (touch_folded h hchain hout).1.imp fun x y htouch hname => ?_
  rw [← Bool.not_eq_true]
  intro hname'
  rw [isName_iff] at hname hname'
  subst hname hname'
  obtain ⟨previous, word, hprevious, hword, hfollow⟩ :=
    htouch (.identifier "sqrt") (by simp) (.identifier "sqrt") (by simp)
  rw [leafOfWord_eq_function_iff.1 hprevious.symm, leafOfWord_eq_function_iff.1 hword.symm] at hfollow
  exact absurd hfollow (by decide)

theorem countP_isSquareRoot_parse {formula : String} {inputs : List String}
    (h : isValid formula inputs = true) : ∃ tree, parse formula = .ok tree ∧
      tree.preorder.countP isSquareRoot =
        freeNames 0 false ((Token.words formula).map leafOfWord) := by
  obtain ⟨row, out, applied, hsteps⟩ := exists_steps h
  obtain ⟨hguarded, -⟩ := guarded_of_row hsteps.pieces hsteps.follows
  have hnone : ∀ n ∈ out, n.preorder.countP isSquareRoot = 0 :=
    foldedFrom_forall hsteps.folds countP_preorder_pair fun n hn m hm =>
      (hsteps.pieces n hn).countP_isSquareRoot hm
  have hnames := (rowFold_of_foldedFrom hsteps.folds).countP_isName (by simp) hguarded
  rw [List.countP_nil, Nat.zero_add] at hnames
  refine ⟨_, hsteps.parses, ?_⟩
  rw [countP_preorder_rootOf, countP_preorderRow_settle, ← hsteps.reading,
    freeNames_readingRow hsteps.pieces, ← hnames]
  exact countP_foldFunctions hnone (isChain_names hsteps.pieces hsteps.follows hsteps.folds)
    hsteps.applies

-- the condition on the leaves of a formula, said of its words
theorem freeNames_words_iff {words : List String} (hbalanced : Balanced (words.map leafOfWord))
    (hdepth : ∀ front back, words = front ++ "sqrt" :: back → Balanced (front.map leafOfWord)) :
    freeNames 0 false (words.map leafOfWord) = words.count "sqrt" ↔
      ∀ front word back, words = front ++ word :: "sqrt" :: back → Symbol.isBinding word = false := by
  rw [← countP_isName_leaves, freeNames_eq_countP_iff hbalanced]
  constructor
  · rintro h front word back rfl
    have hfree := h ((front ++ [word]).map leafOfWord) (leafOfWord "sqrt") (back.map leafOfWord)
      (by simp) (by decide)
    simpa [isBinding] using hfree.2
  · intro h front n back hcut hname
    obtain ⟨first, rest, hwords, rfl, hrest⟩ := List.map_eq_append_iff.1 hcut
    obtain ⟨word, second, rfl, hword, rfl⟩ := List.map_eq_cons_iff.1 hrest
    obtain rfl : word = "sqrt" := by
      rw [← hword, isName_iff] at hname
      exact leafOfWord_eq_function_iff.1 hname
    refine ⟨hdepth first second hwords, ?_⟩
    rcases List.eq_nil_or_concat first with rfl | ⟨before, last, rfl⟩
    · rfl
    · have hlast := h before last second (by simpa using hwords)
      simpa [isBinding] using hlast

/-- **Which function names are applied.**  The tree of a valid formula has a square root for every name
that stands in no bracket and directly behind no operator to fold, and an identifier for every other.
So where all names stand in no bracket, all of them are applied exactly if none stands directly behind
`^` or `/`. -/
theorem squareRoots_parse {formula : String} {inputs : List String}
    (h : isValid formula inputs = true) : ∃ tree, parse formula = .ok tree ∧
      tree.preorder.countP isSquareRoot =
        freeNames 0 false ((Token.words formula).map leafOfWord) ∧
      tree.preorder.count (.identifier "sqrt") + tree.preorder.countP isSquareRoot =
        (Token.words formula).count "sqrt" ∧
      ((∀ front back, Token.words formula = front ++ "sqrt" :: back →
          Balanced (front.map leafOfWord)) →
        ((.identifier "sqrt" ∉ tree.preorder ∧
            tree.preorder.countP isSquareRoot = (Token.words formula).count "sqrt") ↔
          ∀ front word back, Token.words formula = front ++ word :: "sqrt" :: back →
            Symbol.isBinding word = false)) := by
  obtain ⟨tree, hparse, hroots⟩ := countP_isSquareRoot_parse h
  have htotal : tree.preorder.count (.identifier "sqrt") + tree.preorder.countP isSquareRoot =
      (Token.words formula).count "sqrt" := by
    rw [← countP_isName_leaves, ← leaves_scan, ← (reading_parse hparse).1.countP_isName,
      countP_reading, countP_isName_eq_count]
  refine ⟨tree, hparse, hroots, htotal, fun hdepth => ?_⟩
  rw [← freeNames_words_iff (validWords_of_isValid h).balanced hdepth, ← hroots,
    ← List.count_eq_zero]
  omega

theorem squareRoots_parse_difference : isValid "2-sqrt(a)" ["a"] = true ∧
    (∀ front back, Token.words "2-sqrt(a)" = front ++ "sqrt" :: back →
      Balanced (front.map leafOfWord)) ∧
    ∃ tree, parse "2-sqrt(a)" = .ok tree ∧
      tree.preorder.countP isSquareRoot =
        freeNames 0 false ((Token.words "2-sqrt(a)").map leafOfWord) ∧
      tree.preorder.count (.identifier "sqrt") + tree.preorder.countP isSquareRoot =
        (Token.words "2-sqrt(a)").count "sqrt" ∧
      ((.identifier "sqrt" ∉ tree.preorder ∧
          tree.preorder.countP isSquareRoot = (Token.words "2-sqrt(a)").count "sqrt") ↔
        ∀ front word back, Token.words "2-sqrt(a)" = front ++ word :: "sqrt" :: back →
          Symbol.isBinding word = false) := by
  have h : isValid "2-sqrt(a)" ["a"] = true := by decide +kernel
  have hwords : Token.words "2-sqrt(a)" =
      ["2", "-", "sqrt", "(", "a", ")"] := by
    decide +kernel
  have hdepth : ∀ front back, Token.words "2-sqrt(a)" = front ++ "sqrt" :: back →
      Balanced (front.map leafOfWord) := by
    have hcuts : ∀ front word back, Token.words "2-sqrt(a)" = front ++ word :: back →
        word = "sqrt" → Balanced (front.map leafOfWord) := by
      rw [hwords]
      simp only [forall_cut_cons]
      simp [Balanced]
      decide
    exact fun front back hcut => hcuts front "sqrt" back hcut rfl
  obtain ⟨tree, hparse, hroots, htotal, hiff⟩ := squareRoots_parse h
  exact ⟨h, hdepth, tree, hparse, hroots, htotal, hiff hdepth⟩

/-- A name that stands in no bracket stays an identifier where it is divided by. -/
theorem not_squareRoots_complete :
    ¬∀ formula inputs tree, isValid formula inputs = true →
      (∀ front back, Token.words formula = front ++ "sqrt" :: back →
        Balanced (front.map leafOfWord)) → parse formula = .ok tree →
      .identifier "sqrt" ∉ tree.preorder ∧
        tree.preorder.countP isSquareRoot = (Token.words formula).count "sqrt" := by
  intro hall
  have hwords : Token.words "a/sqrt(b)" = ["a", "/", "sqrt", "(", "b", ")"] := by decide +kernel
  have hparse : parse "a/sqrt(b)" = .ok (.root [.sequence [.binary .fraction (.identifier "a")
      (.identifier "sqrt"), bracketed [.identifier "b"]]]) := by
    decide +kernel
  have hcuts : ∀ front word back, Token.words "a/sqrt(b)" = front ++ word :: back →
      word = "sqrt" → Balanced (front.map leafOfWord) := by
    rw [hwords]
    simp only [forall_cut_cons]
    simp [Balanced]
    decide
  have hlost := hall "a/sqrt(b)" ["a", "b"] _ (by decide +kernel)
    (fun front back hcut => hcuts front "sqrt" back hcut rfl) hparse
  exact absurd hlost (by decide +kernel)

end Formulary.Formula
