import Formulary.Proofs.Balance
import Formulary.Proofs.Rescan

/-!
# Products written out

A product with a bracket may leave out its `*`.  Here every such `*` is written: in the text of a
formula (`explicit`) and in a tree (`multiplied`), where a `*` is put between two nodes of a row if the
first ends with a factor and the second begins with a bracket.

Main statement: the tree of the formula with its products written out is the tree of the formula with
its products written out (`parse_explicit`).  Each step of parsing commutes with writing them out,
since no step changes what a node begins or ends with.
-/

namespace Formulary.Formula

/-! ## 1. Formulas -/

/-- The text with a `*` in front of every opening bracket right behind a closing bracket or behind an
operand that is no function name; `after` says whether such a word stands before the text. -/
def explicitFrom (after : Bool) : List Char → List Char
  | [] => []
  | c :: rest =>
    if Text.isSpace c then c :: explicitFrom after rest
    else if Symbol.isOperatorChar c then
      if after && c == '(' then '*' :: c :: explicitFrom false rest
      else c :: explicitFrom (c == ')') rest
    else
      let word := c :: rest.takeWhile Token.isWordChar
      word ++ explicitFrom (!Symbol.isFunction (String.ofList word))
        (rest.dropWhile Token.isWordChar)
termination_by cs => cs.length
decreasing_by
  · simp
  · simp
  · simp
  · exact Nat.lt_succ_of_le (List.dropWhile_sublist Token.isWordChar).length_le

/-- The formula with its products written out. -/
def explicit (formula : String) : String :=
  String.ofList (explicitFrom false formula.toList)

/-! ## 2. Trees -/

/-- Does the node end with a factor: a name or number, or a closing bracket? -/
def endsFactor : Node → Bool
  | .leaf .identifier name => !Symbol.isFunction name
  | .leaf .number _ => true
  | .leaf .operator symbol => symbol == ")"
  | .row .. => true
  | .unary _ content => endsFactor content
  | .binary _ _ right => endsFactor right
  | .leaf .remark _ | .bare | .missing | .stray _ => false

/-- Does the node begin with an opening bracket? -/
def beginsBracket : Node → Bool
  | .leaf .operator symbol => symbol == "("
  | .row .. => true
  | .binary _ left _ => beginsBracket left
  | .leaf _ _ | .unary .. | .bare | .missing | .stray _ => false

/-- The `*` between two neighbours, of which either may be missing. -/
def timesBetween (left right : Option Node) : List Node :=
  if left.any endsFactor && right.any beginsBracket then [.operator "*"] else []

mutual

/-- The tree with its products written out. -/
def multiplied : Node → Node
  | .row kind items => .row kind (multipliedRow items)
  | .unary kind content => .unary kind (multiplied content)
  | .binary kind left right => .binary kind (multiplied left) (multiplied right)
  | .leaf kind text => .leaf kind text
  | .bare => .bare
  | .missing => .missing
  | .stray value => .stray value

/-- The row with its products written out. -/
def multipliedRow : List Node → List Node
  | [] => []
  | n :: rest => multiplied n :: (timesBetween (some n) rest.head? ++ multipliedRow rest)

end

section

variable {n : Node} {row xs ys : List Node}

@[simp]
theorem timesBetween_none_left (right : Option Node) : timesBetween none right = [] := rfl

@[simp]
theorem timesBetween_none_right (left : Option Node) : timesBetween left none = [] := by
  rw [timesBetween, Option.any_none, Bool.and_false, if_neg (by decide)]

theorem timesBetween_of_not_left (h : endsFactor n = false) (right : Option Node) :
    timesBetween (some n) right = [] := by
  rw [timesBetween, Option.any_some, h, Bool.false_and, if_neg (by decide)]

theorem timesBetween_of_not_right (h : beginsBracket n = false) (left : Option Node) :
    timesBetween left (some n) = [] := by
  rw [timesBetween, Option.any_some, h, Bool.and_false, if_neg (by decide)]

theorem multipliedRow_nil : multipliedRow [] = [] := by
  rw [multipliedRow]

theorem multipliedRow_cons (n : Node) (rest : List Node) :
    multipliedRow (n :: rest) =
      multiplied n :: (timesBetween (some n) rest.head? ++ multipliedRow rest) := by
  rw [multipliedRow]

theorem multipliedRow_singleton (n : Node) : multipliedRow [n] = [multiplied n] := by
  rw [multipliedRow_cons, List.head?_nil, timesBetween_none_right, multipliedRow_nil]
  rfl

theorem multipliedRow_append (xs ys : List Node) : multipliedRow (xs ++ ys) =
    multipliedRow xs ++ (timesBetween xs.getLast? ys.head? ++ multipliedRow ys) := by
  induction xs with
  | nil => rw [List.nil_append, List.getLast?_nil, timesBetween_none_left, multipliedRow_nil]; rfl
  | cons x rest ih =>
    cases rest with
    | nil => rw [List.singleton_append, multipliedRow_cons, multipliedRow_singleton]; rfl
    | cons y more =>
      rw [List.cons_append, multipliedRow_cons x, ih, multipliedRow_cons x, List.getLast?_cons_cons]
      simp only [List.cons_append, List.head?_cons, List.append_assoc]

-- inside a bracket nothing changes at the ends
theorem multipliedRow_group (inside : List Node) :
    multipliedRow (.operator "(" :: inside ++ [.operator ")"]) =
      .operator "(" :: multipliedRow inside ++ [.operator ")"] := by
  rw [List.cons_append, multipliedRow_cons, timesBetween_of_not_left (by decide),
    multipliedRow_append, multipliedRow_singleton, List.head?_cons,
    timesBetween_of_not_right (by decide)]
  rfl

theorem isOpening_multiplied (n : Node) : (multiplied n).isOpening = n.isOpening := by
  cases n <;> simp [multiplied, Node.isOpening]

theorem isClosing_multiplied (n : Node) : (multiplied n).isClosing = n.isClosing := by
  cases n <;> simp [multiplied, Node.isClosing]

theorem binding?_multiplied (n : Node) : binding? (multiplied n) = binding? n := by
  cases n <;> simp [multiplied, binding?]

theorem functionName?_multiplied (n : Node) : functionName? (multiplied n) = functionName? n := by
  cases n <;> simp [multiplied, functionName?]

end

/-! ## 3. Words -/

/-- The leaves of the words of a text. -/
def wordLeaves (cs : List Char) : List Node :=
  (Token.wordsOf cs).map leafOfWord

section

variable {c : Char} {rest : List Char}

theorem wordLeaves_space (hc : Text.isSpace c = true) :
    wordLeaves (c :: rest) = wordLeaves rest := by
  rw [wordLeaves, Token.wordsOf, Token.scanFrom, if_pos hc, Token.map_text_scanFrom, wordLeaves]

theorem wordLeaves_operator (hc : Symbol.isOperatorChar c = true) :
    wordLeaves (c :: rest) = .operator (String.singleton c) :: wordLeaves rest := by
  rw [wordLeaves, Token.wordsOf_operator hc, List.map_cons,
    leafOfWord_of_isOperator (Symbol.isOperator_singleton hc), wordLeaves]

-- a word ends where the text goes on with another character
theorem wordLeaves_word {word : List Char} (hne : word ≠ [])
    (hword : ∀ c ∈ word, Token.isWordChar c = true)
    (hrest : ∀ c ∈ rest.head?, Token.isWordChar c = false) :
    wordLeaves (word ++ rest) = leafOfWord (String.ofList word) :: wordLeaves rest := by
  have hend : rest.takeWhile Token.isWordChar = [] ∧ rest.dropWhile Token.isWordChar = rest := by
    cases rest with
    | nil => exact ⟨rfl, rfl⟩
    | cons c rest =>
      have hc := hrest c rfl
      exact ⟨List.takeWhile_cons_of_neg (by rw [hc]; decide),
        List.dropWhile_cons_of_neg (by rw [hc]; decide)⟩
  rw [wordLeaves, Token.wordsOf_run hne hword, hend.1, hend.2, List.append_nil, List.map_cons,
    wordLeaves]

theorem endsFactor_leafOfWord {word : String} (h : Symbol.isOperator word = false) :
    endsFactor (leafOfWord word) = !Symbol.isFunction word := by
  rcases leafOfWord_of_not_isOperator h with hleaf | hleaf
  · rw [hleaf, endsFactor]
  · -- the function name begins with a letter, so no number is one
    rw [hleaf, endsFactor, eq_comm, Bool.not_eq_true', ← Bool.not_eq_true, Symbol.isFunction_iff]
    rintro rfl
    exact absurd hleaf (by decide)

theorem beginsBracket_leafOfWord {word : String} (h : Symbol.isOperator word = false) :
    beginsBracket (leafOfWord word) = false := by
  rcases leafOfWord_of_not_isOperator h with hleaf | hleaf
  · rw [hleaf, beginsBracket]
    simp
  · rw [hleaf, beginsBracket]
    simp

end

-- what is put in is no part of a word
theorem head?_explicitFrom {after : Bool} {cs : List Char}
    (h : ∀ c ∈ cs.head?, Token.isWordChar c = false) :
    ∀ c ∈ (explicitFrom after cs).head?, Token.isWordChar c = false := by
  cases cs with
  | nil =>
    rw [explicitFrom]
    simp
  | cons d rest =>
    have hd : Token.isWordChar d = false := h d rfl
    rw [explicitFrom]
    split
    · simpa using hd
    · split
      · split
        · simpa using (by decide : Token.isWordChar '*' = false)
        · simpa using hd
      · next hspace hop =>
        -- the first character would begin a word
        rw [Token.isWordChar, Bool.of_not_eq_true hspace, Bool.of_not_eq_true hop] at hd
        exact absurd hd (by decide)

/-- The leaves of the text with its products written out, when the given leaf stands before it. -/
theorem wordLeaves_explicitFrom (after : Bool) (cs : List Char) (previous : Option Node)
    (h : previous.any endsFactor = after) : wordLeaves (explicitFrom after cs) =
      timesBetween previous (wordLeaves cs).head? ++ multipliedRow (wordLeaves cs) := by
  induction after, cs using explicitFrom.induct generalizing previous with
  | case1 after =>
    rw [explicitFrom]
    simp [wordLeaves, Token.wordsOf_nil, multipliedRow_nil]
  | case2 after c rest hspace ih =>
    rw [explicitFrom, if_pos hspace, wordLeaves_space hspace, wordLeaves_space hspace, ih previous h]
  | case3 after c rest hspace hop hinsert ih =>
    obtain ⟨rfl, hc⟩ := Bool.and_eq_true_iff.1 hinsert
    obtain rfl := eq_of_beq hc
    have hrest := ih (some (.operator "(")) rfl
    rw [timesBetween_of_not_left (by decide), List.nil_append] at hrest
    rw [explicitFrom, if_neg hspace, if_pos hop, if_pos hinsert, wordLeaves_operator (by decide),
      wordLeaves_operator hop, wordLeaves_operator hop, hrest, List.head?_cons, multipliedRow_cons,
      timesBetween_of_not_left (by decide), timesBetween, h]
    rfl
  | case4 after c rest hspace hop hinsert ih =>
    have hends : (some (Node.operator (String.singleton c))).any endsFactor = (c == ')') :=
      isClosing_charLeaf c
    have hbegins : (some (Node.operator (String.singleton c))).any beginsBracket = (c == '(') :=
      isOpening_charLeaf c
    have hno : timesBetween previous (some (.operator (String.singleton c))) = [] := by
      rw [timesBetween, h, hbegins, if_neg hinsert]
    rw [explicitFrom, if_neg hspace, if_pos hop, if_neg hinsert, wordLeaves_operator hop,
      wordLeaves_operator hop, ih _ hends, List.head?_cons, multipliedRow_cons, hno]
    rfl
  | case5 after c rest hspace hop word ih =>
    have hno : Symbol.isOperator (String.ofList word) = false :=
      Symbol.isOperator_ofList_cons (Bool.of_not_eq_true hop)
    have hword : ∀ d ∈ word, Token.isWordChar d = true := Token.isWordChar_of_mem_word hspace hop
    have hhead : ∀ d ∈ (rest.dropWhile Token.isWordChar).head?, Token.isWordChar d = false :=
      Token.isWordChar_head?_dropWhile
    have hrest := ih (some (leafOfWord (String.ofList word))) (endsFactor_leafOfWord hno)
    rw [explicitFrom, if_neg hspace, if_neg hop]
    dsimp only
    rw [wordLeaves_word (List.cons_ne_nil _ _) hword (head?_explicitFrom hhead), hrest,
      Token.cons_eq_word_append c rest,
      wordLeaves_word (List.cons_ne_nil _ _) hword hhead, List.head?_cons, multipliedRow_cons,
      timesBetween_of_not_right (beginsBracket_leafOfWord hno), List.nil_append, leafOfWord, multiplied]

theorem leaves_scan_explicit (formula : String) :
    leaves (Token.scan (explicit formula)) = multipliedRow (leaves (Token.scan formula)) := by
  have h := wordLeaves_explicitFrom false formula.toList none rfl
  rw [timesBetween_none_left, List.nil_append] at h
  rw [leaves_scan, leaves_scan, Token.words_eq, Token.words_eq, explicit, String.toList_ofList]
  exact h

/-! ## 4. Grouping -/

-- the ends of a piece are the ends of its leaves
theorem Piece.ends {n : Node} (h : Piece n) : reading n ≠ [] ∧
    (reading n).head?.any beginsBracket = beginsBracket n ∧
      (reading n).getLast?.any endsFactor = endsFactor n := by
  cases h with
  | word _ _ =>
    rw [reading_leaf]
    exact ⟨by simp, rfl, rfl⟩
  | group _ =>
    rw [reading_group, List.getLast?_concat]
    exact ⟨by simp, rfl, rfl⟩

theorem head?_readingRow_any {row : List Node} (h : ∀ n ∈ row, Piece n) :
    (readingRow row).head?.any beginsBracket = row.head?.any beginsBracket := by
  rw [head?_readingRow fun n hn => (h n hn).ends.1]
  cases row with
  | nil => rfl
  | cons n rest => exact (h n List.mem_cons_self).ends.2.1

/-- The `*` that is put between two neighbours depends on their ends only. -/
theorem timesBetween_congr {left left' right right' : Option Node}
    (hl : left.any endsFactor = left'.any endsFactor)
    (hr : right.any beginsBracket = right'.any beginsBracket) :
    timesBetween left right = timesBetween left' right' := by
  rw [timesBetween, timesBetween, hl, hr]

theorem readingRow_timesBetween (left right : Option Node) :
    readingRow (timesBetween left right) = timesBetween left right := by
  unfold timesBetween
  split <;> simp

theorem readingRow_multipliedRow {row : List Node} (h : ∀ n ∈ row, Piece n)
    (hitems : ∀ n ∈ row, reading (multiplied n) = multipliedRow (reading n)) :
    readingRow (multipliedRow row) = multipliedRow (readingRow row) := by
  induction row with
  | nil => rw [multipliedRow_nil, readingRow_nil, multipliedRow_nil]
  | cons n rest ih =>
    obtain ⟨hn, hrest⟩ := List.forall_mem_cons.1 h
    obtain ⟨hitem, hitems'⟩ := List.forall_mem_cons.1 hitems
    have htimes : timesBetween (some n) rest.head? =
        timesBetween (reading n).getLast? (readingRow rest).head? :=
      timesBetween_congr hn.ends.2.2.symm (head?_readingRow_any hrest).symm
    rw [multipliedRow_cons, readingRow_cons, readingRow_append, readingRow_timesBetween, hitem,
      ih hrest hitems', readingRow_cons, multipliedRow_append, htimes]

theorem Piece.reading_multiplied {n : Node} (h : Piece n) :
    reading (multiplied n) = multipliedRow (reading n) := by
  induction h with
  | word _ _ => rw [multiplied, reading_leaf, multipliedRow_singleton, multiplied]
  | group h ih =>
    rw [multiplied, reading_row, multipliedRow_group, readingRow_group, readingRow_multipliedRow h ih,
      reading_group, multipliedRow_group]

-- the `*` are pieces too
theorem mem_timesBetween {n : Node} {left right : Option Node} (h : n ∈ timesBetween left right) :
    n = .operator "*" := by
  unfold timesBetween at h
  split at h
  · exact List.mem_singleton.1 h
  · exact absurd h List.not_mem_nil

theorem forall_mem_multipliedRow {P : Node → Prop} {row : List Node} (htimes : P (.operator "*"))
    (h : ∀ n ∈ row, P (multiplied n)) : ∀ n ∈ multipliedRow row, P n := by
  induction row with
  | nil =>
    rw [multipliedRow_nil]
    simp
  | cons n rest ih =>
    obtain ⟨hn, hrest⟩ := List.forall_mem_cons.1 h
    rw [multipliedRow_cons, List.forall_mem_cons, List.forall_mem_append]
    refine ⟨hn, fun m hm => ?_, ih hrest⟩
    rw [mem_timesBetween hm]
    exact htimes

theorem Piece.multiplied {n : Node} (h : Piece n) : Piece (multiplied n) := by
  induction h with
  | word ho hc =>
    rw [Formula.multiplied]
    exact .word ho hc
  | group _ ih =>
    rw [Formula.multiplied, multipliedRow_group]
    exact .group (forall_mem_multipliedRow (.word rfl rfl) ih)

theorem groupedRow_explicit {formula : String} {row : List Node} (h : ∀ n ∈ row, Piece n)
    (hreading : readingRow row = leaves (Token.scan formula)) :
    groupedRow (explicit formula) = .ok (multipliedRow row) := by
  rw [groupedRow, leaves_scan_explicit, ← hreading,
    ← readingRow_multipliedRow h fun n hn => (h n hn).reading_multiplied]
  exact group_readingRow (forall_mem_multipliedRow (.word rfl rfl) fun n hn => (h n hn).multiplied) _

/-! ## 5. Folding -/

theorem ends_of_folded {n m : Node} (h : folded n = some m) :
    beginsBracket m = beginsBracket n ∧ endsFactor m = endsFactor n := by
  induction h using folded_induction with
  | leaf | bare | row => exact ⟨rfl, rfl⟩
  | unary _ ih _ => exact ⟨rfl, ih.2⟩
  | binary _ _ ihl ihr _ => exact ⟨ihl.1, ihr.2⟩

-- what is done so far, with its products written out, last node first
theorem reverse_multipliedRow (n : Node) (done : List Node) :
    (multipliedRow (n :: done).reverse).reverse = multiplied n ::
      (timesBetween done.head? (some n) ++ (multipliedRow done.reverse).reverse) := by
  have htimes (left right : Option Node) :
      (timesBetween left right).reverse = timesBetween left right := by
    unfold timesBetween
    split <;> rfl
  rw [List.reverse_cons, multipliedRow_append, multipliedRow_singleton, List.getLast?_reverse,
    List.head?_cons, List.reverse_append, List.reverse_append, htimes]
  rfl

-- a `*` is no operator to fold
theorem foldedFrom_timesBetween (done : List Node) (left right : Option Node) (rest : List Node) :
    foldedFrom done (timesBetween left right ++ rest) =
      foldedFrom (timesBetween left right ++ done) rest := by
  unfold timesBetween
  split
  · rw [List.singleton_append, foldedFrom_other (by rfl), folded_leaf (by rfl), Option.bind_some]
    rfl
  · rfl

/-- A row folds with its products written out as it does without, if its nodes do. -/
theorem RowFold.multiplied {done row out : List Node} (h : RowFold done row out)
    (hrow : ∀ n ∈ row, ∀ m, folded n = some m → folded (multiplied n) = some (multiplied m)) :
    foldedFrom (multipliedRow done.reverse).reverse
      (timesBetween done.head? row.head? ++ multipliedRow row) = some (multipliedRow out) := by
  induction h with
  | nil done =>
    rw [List.head?_nil, timesBetween_none_right, multipliedRow_nil, List.append_nil, foldedFrom_nil,
      List.reverse_reverse]
  | @binding done rest out n left right r kind hk hr h ih =>
    obtain ⟨-, hrest⟩ := List.forall_mem_cons.1 hrow
    obtain ⟨hright, hrest'⟩ := List.forall_mem_cons.1 hrest
    have hn : n = .operator (symbolOf kind) := binding?_eq_some_iff.1 hk
    have hends : beginsBracket n = false ∧ endsFactor n = false := by
      rw [hn]
      cases kind <;> decide
    -- the pair begins as its left operand does, and ends as its right one does
    have htimes : timesBetween (some right) rest.head? =
        timesBetween (some (Node.binary kind left r)) rest.head? :=
      timesBetween_congr (ends_of_folded hr).2.symm rfl
    have hleft : timesBetween done.head? (some left) =
        timesBetween done.head? (some (Node.binary kind left r)) :=
      timesBetween_congr rfl rfl
    have hpair := ih hrest'
    rw [reverse_multipliedRow, List.head?_cons, Formula.multiplied, ← htimes, ← hleft] at hpair
    rw [List.head?_cons, List.head?_cons, timesBetween_of_not_right hends.1, List.nil_append,
      multipliedRow_cons, timesBetween_of_not_left hends.2, List.nil_append, multipliedRow_cons,
      reverse_multipliedRow, foldedFrom_binding (by rw [binding?_multiplied, hk]), hright r hr,
      Option.bind_some]
    exact hpair
  | @other done rest out n m hk hm h ih =>
    obtain ⟨hn, hrest⟩ := List.forall_mem_cons.1 hrow
    have htimes : timesBetween (some n) rest.head? = timesBetween (some m) rest.head? :=
      timesBetween_congr (ends_of_folded hm).2.symm rfl
    have hbefore : timesBetween done.head? (some n) = timesBetween done.head? (some m) :=
      timesBetween_congr rfl (ends_of_folded hm).1.symm
    have hmore := ih hrest
    rw [reverse_multipliedRow, List.head?_cons] at hmore
    rw [List.head?_cons, foldedFrom_timesBetween, multipliedRow_cons,
      foldedFrom_other (by rw [binding?_multiplied, hk]), hn m hm, Option.bind_some, htimes, hbefore]
    exact hmore

-- a whole row has nothing done to its left
theorem RowFold.multiplied_row {row out : List Node} (h : RowFold [] row out)
    (hrow : ∀ n ∈ row, ∀ m, folded n = some m →
      folded (Formula.multiplied n) = some (Formula.multiplied m)) :
    foldedFrom [] (multipliedRow row) = some (multipliedRow out) := by
  have hrest := h.multiplied hrow
  rwa [List.reverse_nil, multipliedRow_nil, List.head?_nil, timesBetween_none_left] at hrest

theorem folded_multiplied {n m : Node} (h : folded n = some m) :
    folded (multiplied n) = some (multiplied m) := by
  induction h using folded_induction with
  | leaf h => rw [multiplied, h]
  | bare _ => rw [multiplied, folded]
  | row hrow ih _ =>
    rw [multiplied, multiplied, folded, hrow.multiplied_row ih]
    rfl
  | unary _ ih _ =>
    rw [multiplied, multiplied, folded, ih]
    rfl
  | binary _ _ ihl ihr _ =>
    rw [multiplied, multiplied, folded, ihl, ihr]
    rfl

theorem foldedFrom_multipliedRow {row out : List Node} (h : foldedFrom [] row = some out) :
    foldedFrom [] (multipliedRow row) = some (multipliedRow out) :=
  (rowFold_of_foldedFrom h).multiplied_row fun _ _ _ => folded_multiplied

/-! ## 6. Function names -/

-- neither a function name nor its square root begins with a bracket
theorem NameFold.head? {row out : List Node} (h : NameFold row out) :
    out.head?.any beginsBracket = row.head?.any beginsBracket := by
  cases h with
  | nil => rfl
  | name hname _ =>
    obtain ⟨rfl, -⟩ := functionName?_eq_some_iff.1 hname
    rfl
  | other _ _ => rfl

theorem foldFunctions_timesBetween (left right : Option Node) (row : List Node) :
    foldFunctions (timesBetween left right ++ row) =
      (foldFunctions row).map (timesBetween left right ++ ·) := by
  unfold timesBetween
  split
  · rw [List.singleton_append, foldFunctions_other rfl]
    rfl
  · rw [List.nil_append]
    cases foldFunctions row <;> rfl

theorem foldFunctions_multipliedRow {row out : List Node} (h : foldFunctions row = .ok out) :
    foldFunctions (multipliedRow row) = .ok (multipliedRow out) := by
  replace h := nameFold_of_foldFunctions h
  induction h with
  | nil =>
    rw [multipliedRow_nil]
    rfl
  | @name n argument rest more _ hname hmore ih =>
    have hends : endsFactor n = false := by
      rw [(functionName?_eq_some_iff.1 hname).1]
      decide
    have htimes : timesBetween (some argument) rest.head? =
        timesBetween (some (.unary .squareRoot argument)) more.head? :=
      timesBetween_congr rfl hmore.head?.symm
    rw [multipliedRow_cons, timesBetween_of_not_left hends, List.nil_append, multipliedRow_cons,
      foldFunctions_name (by rw [functionName?_multiplied, hname]), foldFunctions_timesBetween,
      ih, htimes, multipliedRow_cons, multiplied]
    rfl
  | @other n rest more hname hmore ih =>
    have htimes : timesBetween (some n) rest.head? = timesBetween (some n) more.head? :=
      timesBetween_congr rfl hmore.head?.symm
    rw [multipliedRow_cons, foldFunctions_other (by rw [functionName?_multiplied, hname]),
      foldFunctions_timesBetween, ih, htimes, multipliedRow_cons]
    rfl

/-! ## 7. Stripping -/

theorem ends_stripNode (inRow : Bool) (n : Node) :
    beginsBracket (stripNode inRow n).1 = beginsBracket n ∧
      endsFactor (stripNode inRow n).1 = endsFactor n := by
  induction n generalizing inRow with
  | leaf => rw [stripNode_leaf]; exact ⟨rfl, rfl⟩
  | row kind items _ =>
    rw [stripNode]
    dsimp only
    split <;> exact ⟨rfl, rfl⟩
  | unary kind content ih =>
    rw [stripNode_unary]
    exact ⟨rfl, (ih false).2⟩
  | binary kind left right ihl ihr =>
    rw [stripNode_binary]
    exact ⟨(ihl false).1, (ihr false).2⟩
  | bare | missing | stray => rw [stripNode]; exact ⟨rfl, rfl⟩

-- what keeps the ends of nodes can be done before or after the products are written out
theorem map_multipliedRow {f : Node → Node} {items : List Node}
    (htimes : f (.operator "*") = .operator "*")
    (hends : ∀ n, beginsBracket (f n) = beginsBracket n ∧ endsFactor (f n) = endsFactor n)
    (h : ∀ n ∈ items, f (multiplied n) = multiplied (f n)) :
    (multipliedRow items).map f = multipliedRow (items.map f) := by
  induction items with
  | nil => rw [multipliedRow_nil, List.map_nil, multipliedRow_nil]
  | cons n rest ih =>
    obtain ⟨hn, hrest⟩ := List.forall_mem_cons.1 h
    have hbetween : (timesBetween (some n) rest.head?).map f =
        timesBetween (some (f n)) (rest.map f).head? := by
      have hcongr : timesBetween (some n) rest.head? =
          timesBetween (some (f n)) (rest.map f).head? := by
        refine timesBetween_congr (hends n).2.symm ?_
        cases rest with
        | nil => rfl
        | cons m more => exact (hends m).1.symm
      rw [← hcongr, timesBetween]
      split
      · rw [List.map_singleton, htimes]
      · rfl
    rw [multipliedRow_cons, List.map_cons, List.map_append, hbetween, hn, ih hrest, List.map_cons,
      multipliedRow_cons]

theorem hasBracketPair_multipliedRow (items : List Node) :
    Node.hasBracketPair (multipliedRow items) = Node.hasBracketPair items := by
  have hhead : (multipliedRow items).head? = items.head?.map multiplied := by
    cases items with
    | nil => rw [multipliedRow_nil]; rfl
    | cons n rest => rw [multipliedRow_cons]; rfl
  have hlast : (multipliedRow items).getLast? = items.getLast?.map multiplied := by
    rcases List.eq_nil_or_concat items with rfl | ⟨front, n, rfl⟩
    · rw [multipliedRow_nil]; rfl
    · rw [List.concat_eq_append, multipliedRow_append, multipliedRow_singleton,
        List.getLast?_concat, ← List.append_assoc, List.getLast?_concat]
      rfl
  rw [Node.hasBracketPair, hhead, hlast, Option.any_map, Option.any_map, Node.hasBracketPair]
  congr 2
  · exact funext isOpening_multiplied
  · exact funext isClosing_multiplied

/-- Stripping a tree with its products written out. -/
theorem stripNode_multiplied (inRow : Bool) (n : Node) :
    (stripNode inRow (multiplied n)).1 = multiplied (stripNode inRow n).1 := by
  induction n generalizing inRow with
  | leaf => rw [multiplied, stripNode_leaf, multiplied]
  | row kind items ih =>
    have hitems : (stripRow true (multipliedRow items)).1 =
        multipliedRow (stripRow true items).1 := by
      rw [stripRow_fst, stripRow_fst]
      exact map_multipliedRow rfl (ends_stripNode true) fun n hn => ih n hn true
    rw [multiplied, stripNode, stripNode]
    dsimp only
    rw [hitems, hasBracketPair_multipliedRow]
    split
    · next hdrop =>
      obtain ⟨body, hbody⟩ := hasBracketPair_iff.1 (Bool.and_eq_true_iff.1 hdrop).2
      rw [hbody, multipliedRow_group, inner_group, inner_group, multiplied]
    · rw [multiplied]
  | unary kind content ih =>
    rw [multiplied, stripNode_unary, stripNode_unary, multiplied, ih]
  | binary kind left right ihl ihr =>
    rw [multiplied, stripNode_binary, stripNode_binary, multiplied, ihl, ihr]
  | bare | missing | stray => rw [multiplied, stripNode, multiplied]

/-! ## 8. Parsing -/

theorem rootOf_multipliedRow (nodes : List Node) :
    rootOf (multipliedRow nodes) = multiplied (rootOf nodes) := by
  match nodes with
  | [] => rw [multipliedRow_nil, rootOf, if_neg (by decide), multiplied, multipliedRow_nil]
  | [n] =>
    rw [multipliedRow_singleton, rootOf, if_neg (by simp), rootOf, if_neg (by simp), multiplied,
      multipliedRow_singleton]
  | m :: n :: rest =>
    have hlength : (multipliedRow (m :: n :: rest)).length > 1 := by
      rw [multipliedRow_cons, multipliedRow_cons, List.length_cons, List.length_append,
        List.length_cons]
      omega
    rw [rootOf, if_pos hlength, rootOf, if_pos (by simp), multiplied, multipliedRow_singleton,
      multiplied]

/-- **Parsing keeps products written out.**  A valid formula with its products written out is parsed,
and its tree is the tree of the formula with its products written out. -/
theorem parse_explicit {formula : String} {inputs : List String}
    (h : isValid formula inputs = true) :
    ∃ tree, parse formula = .ok tree ∧ parse (explicit formula) = .ok (multiplied tree) := by
  obtain ⟨row, out, applied, hsteps⟩ := exists_steps h
  have hpieces : ∀ n ∈ multipliedRow row, Piece n :=
    forall_mem_multipliedRow (.word rfl rfl) fun n hn => (hsteps.pieces n hn).multiplied
  have hrow : groupedRow (explicit formula) = .ok (multipliedRow row) :=
    groupedRow_explicit hsteps.pieces (by rw [hsteps.reading, leaves_scan])
  have hout := foldedFrom_multipliedRow hsteps.folds
  have happlied := foldFunctions_multipliedRow hsteps.applies
  refine ⟨_, hsteps.parses, ?_⟩
  rw [parse_of_steps hrow hout happlied, settle_applied hpieces hout happlied,
    settle_applied hsteps.pieces hsteps.folds hsteps.applies, ← rootOf_multipliedRow,
    map_multipliedRow rfl (ends_stripNode false) fun n _ => stripNode_multiplied false n]

end Formulary.Formula
