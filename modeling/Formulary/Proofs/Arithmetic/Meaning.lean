import Formulary.Proofs.Arithmetic.Formula
import Formulary.Proofs.Spelling
import Formulary.Proofs.Validity

/-!
# Code means what the formula means

A formula that is an expression has a value, by the rules for formulas.  Its folded row is written as
code that has the same value, by the rules for code.  The two rules differ: in code, `/` is on the
level of `*` and takes what stands to its left as a whole, while in a formula it binds as tightly as
`^`.  That they agree is shown level by level, along the expression (`Meaning`): an atom and a power
become an atom of code, a fraction becomes a quotient of two atoms, and such a quotient may be
multiplied from the left, or given a sign, without brackets (`Factor`).
-/

namespace Formulary.Arithmetic

open Formula Code

/-! ## 1. Rows -/

/-- The words are those of a row of complete pieces, which folds to plain trees wherever it
stands. -/
structure Folds (words : List String) (row out : List Node) : Prop where
  pieces : ∀ n ∈ row, Piece n
  reading : readingRow row = words.map leafOfWord
  folds : ∀ done rest, foldedFrom done (row ++ rest) = foldedFrom (out.reverse ++ done) rest
  plain : ∀ n ∈ out, Plain n

/-- A value stands after the row, whatever stands before it. -/
def Ends (out : List Node) : Prop :=
  ∀ after, endsAfterRow after out = true

theorem folds_nil : Folds [] [] [] where
  pieces := by simp
  reading := rfl
  folds _ _ := rfl
  plain := by simp

theorem Folds.append {xs ys : List String} {row row' out out' : List Node}
    (h : Folds xs row out) (h' : Folds ys row' out') :
    Folds (xs ++ ys) (row ++ row') (out ++ out') where
  pieces n hn := (List.mem_append.1 hn).elim (h.pieces n) (h'.pieces n)
  reading := by rw [readingRow_append, h.reading, h'.reading, List.map_append]
  folds done rest := by
    rw [List.append_assoc, h.folds, h'.folds, List.reverse_append, List.append_assoc]
  plain n hn := (List.mem_append.1 hn).elim (h.plain n) (h'.plain n)

theorem piece_leafOfWord {word : String} (ho : word ≠ "(") (hc : word ≠ ")") :
    Piece (leafOfWord word) := by
  apply Piece.word
  · exact (isOpening_leafOfWord word).trans (beq_eq_false_iff_ne.2 ho)
  · exact (isClosing_leafOfWord word).trans (beq_eq_false_iff_ne.2 hc)

-- a word that is neither a bracket nor an operator to fold stays as it is
theorem folds_word {word : String} (ho : word ≠ "(") (hc : word ≠ ")") (hcomma : word ≠ ",")
    (hbinding : Symbol.isBinding word = false) :
    Folds [word] [leafOfWord word] [leafOfWord word] where
  pieces := by simpa using piece_leafOfWord ho hc
  reading := readingRow_map_leafOfWord [word]
  folds done rest := by
    have hnone := binding?_leafOfWord_eq_none_iff.2 hbinding
    show foldedFrom done (leafOfWord word :: rest) = foldedFrom (leafOfWord word :: done) rest
    rw [foldedFrom_other hnone, leafOfWord, folded_leaf hnone, Option.bind_some]
  plain := by simpa using Plain.word hcomma

-- an operand is a complete piece, and folds to itself
theorem folds_operand {word : String} (hop : Symbol.isOperator word = false) (hcomma : word ≠ ",") :
    Folds [word] [leafOfWord word] [leafOfWord word] ∧
      folded (leafOfWord word) = some (leafOfWord word) := by
  have hbinding := Symbol.isBinding_of_not_isOperator hop
  exact ⟨folds_word (Symbol.ne_of_not_isOperator hop (by decide))
    (Symbol.ne_of_not_isOperator hop (by decide)) hcomma hbinding,
    folded_leaf (binding?_leafOfWord_eq_none_iff.2 hbinding)⟩

theorem endsAfterRow_append (after : Bool) (xs ys : List Node) :
    endsAfterRow after (xs ++ ys) = endsAfterRow (endsAfterRow after xs) ys := by
  induction xs generalizing after with
  | nil => rfl
  | cons x xs ih => rw [List.cons_append, endsAfterRow, endsAfterRow, ih]

theorem spellRow_append (o : Options) (after : Bool) (xs ys : List Node) :
    spellRow o after (xs ++ ys) =
      spellRow o after xs ++ spellRow o (endsAfterRow after xs) ys := by
  induction xs generalizing after with
  | nil => rfl
  | cons x xs ih =>
    rw [List.cons_append, spellRow, spellRow, endsAfterRow, ih, List.append_assoc]

theorem Ends.append {xs ys : List Node} (h : Ends ys) : Ends (xs ++ ys) := by
  intro after
  rw [endsAfterRow_append]
  exact h _

-- after a leaf a value stands exactly if one ends with its word
theorem endsAfter_leafOfWord (after : Bool) (word : String) :
    endsAfter after (leafOfWord word) = endsValue word := by
  by_cases hop : Symbol.isOperator word = true
  · rw [leafOfWord_of_isOperator hop, endsAfter, endsValue, hop]
    rfl
  · rw [endsValue, Bool.of_not_eq_true hop]
    rcases leafOfWord_of_not_isOperator (Bool.of_not_eq_true hop) with hleaf | hleaf
    · rw [hleaf, endsAfter]
      rfl
    · rw [hleaf, endsAfter]
      rfl

theorem spell_leafOfWord (o : Options) (after : Bool) (word : String) :
    spell o after (leafOfWord word) = timesIf (after && word == "(") ++ [word] := by
  rw [leafOfWord, spell]

-- a word is written as it is, unless it is a bracket after a value
theorem spellRow_word {o : Options} {after : Bool} {word : String} {rest : List Node}
    (h : (after && word == "(") = false) :
    spellRow o after (leafOfWord word :: rest) = word :: spellRow o (endsValue word) rest := by
  rw [spellRow, spell_leafOfWord, endsAfter_leafOfWord, h]
  rfl

/-! ## 2. Factors of code -/

/-- What a factor of code can be: a signed atom, or the quotient of one by an atom. -/
inductive Factor (R : Rules) : List String → ℚ → Prop
  | signed {words : List String} {v : ℚ} (h : Reads R .signed words v) : Factor R words v
  | quotient {us qs : List String} {p q : ℚ} (hp : Reads R .signed us p)
      (hq : Reads R .atom qs q) : Factor R (us ++ "/" :: qs) (p / q)

section

variable {R : Rules} {words xs : List String} {v x : ℚ}

theorem Factor.plus (h : Factor R words v) : Factor R ("+" :: words) v := by
  cases h with
  | signed h => exact .signed (.plus h)
  | quotient hp hq => exact .quotient (.plus hp) hq

theorem Factor.minus (h : Factor R words v) : Factor R ("-" :: words) (-v) := by
  cases h with
  | signed h => exact .signed (.minus h)
  | quotient hp hq =>
    -- the sign goes to the numerator
    rw [← neg_div]
    exact .quotient (.minus hp) hq

theorem Factor.product (hover : R.product "/" = some (· / ·)) (h : Factor R words v) :
    Reads R .product words v := by
  cases h with
  | signed h => exact .ofSigned h
  | quotient hp hq => exact .product hover (.ofSigned hp) (.ofChain (.ofAtom hq))

/-- A product with a quotient is the quotient of a product. -/
theorem Factor.times (htimes : R.product "*" = some (· * ·)) (hover : R.product "/" = some (· / ·))
    (hx : Reads R .product xs x) (h : Factor R words v) :
    Reads R .product (xs ++ "*" :: words) (x * v) := by
  cases h with
  | signed h => exact .product htimes hx h
  | @quotient us qs p q hp hq =>
    -- code reads `x * p / q` from the left, which is `x * (p / q)`
    have hproduct : Reads R .product ((xs ++ "*" :: us) ++ "/" :: qs) (x * p / q) :=
      .product hover (.product htimes hx hp) (.ofChain (.ofAtom hq))
    rwa [List.append_assoc, mul_div_assoc] at hproduct

end

/-! ## 3. Nodes -/

/-- A value stands after the node, and if the formula begins with a bracket, the node is multiplied
with a value before it. -/
structure IsTerm (o : Options) (words : List String) (m : Node) : Prop where
  ends : ∀ after, endsAfter after m = true
  times : words.head? = some "(" → spell o true m = "*" :: spell o false m

/-- The words of a node are an atom of code, if it needs no brackets, or a quotient of atoms. -/
def Written (o : Options) (R : Rules) (m : Node) (v : ℚ) : Prop :=
  (isAtomic m = true ∧ Reads R .atom (spell o false m) v) ∨
    (isAtomic m = false ∧ ∃ us qs p q, spell o false m = us ++ "/" :: qs ∧ Reads R .atom us p ∧
      Reads R .atom qs q ∧ v = p / q)

section

variable {o : Options} {R : Rules} {m : Node} {v : ℚ}

theorem Written.factor (h : Written o R m v) : Factor R (spell o false m) v := by
  rcases h with ⟨-, hatom⟩ | ⟨-, us, qs, p, q, hspell, hp, hq, rfl⟩
  · exact .signed (.ofChain (.ofAtom hatom))
  · rw [hspell]
    exact .quotient (.ofChain (.ofAtom hp)) hq

theorem Written.sum (hover : R.product "/" = some (· / ·)) (h : Written o R m v) :
    Reads R .sum (spell o false m) v :=
  .ofProduct (h.factor.product hover)

-- as an operand of a division, every node is an atom
theorem Written.enclose (hover : R.product "/" = some (· / ·)) (h : Written o R m v) :
    Reads R .atom (enclose m (spell o false m)) v := by
  unfold Code.enclose
  rcases h with ⟨hatomic, hatom⟩ | ⟨hatomic, hquotient⟩
  · rw [if_pos hatomic]
    exact hatom
  · rw [if_neg (by rw [hatomic]; decide)]
    exact .bracket (Written.sum hover (.inr ⟨hatomic, hquotient⟩))

end

/-! ## 4. Meanings, level by level -/

/-- The words of a formula, as an expression of the level, fold to nodes whose code has the value. -/
def Meaning (o : Options) (R : Rules) : Level → List String → ℚ → Prop
  | .atom, words, v => ∃ n m, folded n = some m ∧ Folds words [n] [m] ∧ IsTerm o words m ∧
      isAtomic m = true ∧ Reads R .atom (spell o false m) v
  | .chain, words, v => ∃ row m, Folds words row [m] ∧ IsTerm o words m ∧ Written o R m v
  | .signed, words, v => ∃ row out, Folds words row out ∧ Ends out ∧
      (words.head? = some "(" → spellRow o true out = "*" :: spellRow o false out) ∧
        Factor R (spellRow o false out) v
  | .product, words, v => ∃ row out, Folds words row out ∧ Ends out ∧
      Reads R .product (spellRow o false out) v
  | .sum, words, v => ∃ row out, Folds words row out ∧ Ends out ∧
      Reads R .sum (spellRow o false out) v

section

variable {o : Options} {R : Rules} {words xs ys : List String} {word : String} {v x y : ℚ}

theorem Meaning.operand (hop : Symbol.isOperator word = false) (hcomma : word ≠ ",")
    (h : R.operand word = some v) : Meaning o R .atom [word] v := by
  obtain ⟨hfolds, hfolded⟩ := folds_operand hop hcomma
  have hspell : spell o false (leafOfWord word) = [word] := spell_leafOfWord o false word
  refine ⟨leafOfWord word, leafOfWord word, hfolded, hfolds, ⟨?_, ?_⟩, ?_, ?_⟩
  · intro after
    rw [endsAfter_leafOfWord, endsValue, hop]
    rfl
  · intro hhead
    exact absurd (Option.some.inj hhead) (Symbol.ne_of_not_isOperator hop (by decide))
  · rcases leafOfWord_of_not_isOperator hop with hleaf | hleaf
    · rw [hleaf]
      rfl
    · rw [hleaf]
      rfl
  · rw [hspell]
    exact .operand h

theorem spell_group (out : List Node) (after : Bool) :
    spell o after (.sequence (.operator "(" :: out ++ [.operator ")"])) =
      timesIf after ++ ("(" :: spellRow o false out ++ [")"]) := by
  have hopening : spell o after (.operator "(") = timesIf after ++ ["("] := by
    rw [spell, beq_self_eq_true, Bool.and_true]
  have hclosing (ends : Bool) : spellRow o ends [.operator ")"] = [")"] := by
    rw [spellRow, spell, spellRow, show (")" == "(") = false from rfl, Bool.and_false]
    rfl
  have hinside : endsAfter after (.operator "(") = false := by
    rw [endsAfter]
    rfl
  rw [spell, List.cons_append, spellRow, hopening, hinside, spellRow_append, hclosing,
    List.append_assoc]
  rfl

theorem endsAfter_group (out : List Node) (after : Bool) :
    endsAfter after (.sequence (.operator "(" :: out ++ [.operator ")"])) = true := by
  rw [endsAfter, endsAfterRow_append, endsAfterRow, endsAfterRow, endsAfter]
  rfl

theorem isAtomic_group (out : List Node) :
    isAtomic (.sequence (.operator "(" :: out ++ [.operator ")"])) = true := by
  have hpair := hasBracketPair_iff.2 ⟨out, rfl⟩
  cases out with
  | nil =>
    rw [isAtomic.eq_def]
    exact hpair
  | cons n rest =>
    rw [isAtomic.eq_def]
    exact hpair

theorem folded_group {words : List String} {row out : List Node} (h : Folds words row out) :
    folded (.sequence (.operator "(" :: row ++ [.operator ")"])) =
      some (.sequence (.operator "(" :: out ++ [.operator ")"])) := by
  have hrow : foldedFrom [] (.operator "(" :: row ++ [.operator ")"]) =
      some (.operator "(" :: out ++ [.operator ")"]) := by
    rw [List.cons_append, foldedFrom_other (by rfl), folded_leaf (by rfl), Option.bind_some,
      h.folds, foldedFrom_other (by rfl), folded_leaf (by rfl), Option.bind_some, foldedFrom_nil]
    simp
  rw [folded, hrow]
  rfl

/-- A row in brackets is one piece, which folds to the folded row in brackets. -/
theorem Folds.group {row out : List Node} (h : Folds words row out) :
    Folds ("(" :: words ++ [")"]) [.sequence (.operator "(" :: row ++ [.operator ")"])]
      [.sequence (.operator "(" :: out ++ [.operator ")"])] := by
  have hopening : leafOfWord "(" = .operator "(" := leafOfWord_of_isOperator (by decide)
  have hclosing : leafOfWord ")" = .operator ")" := leafOfWord_of_isOperator (by decide)
  refine ⟨?_, ?_, ?_, ?_⟩
  · simpa using Piece.group h.pieces
  · rw [readingRow_cons, readingRow_nil, List.append_nil, reading_group, h.reading,
      List.map_append, List.map_cons, List.map_singleton, hopening, hclosing]
  · intro done rest
    show foldedFrom done (_ :: rest) = _
    rw [foldedFrom_other (by rfl), folded_group h, Option.bind_some]
    rfl
  · have hplain : Plain (.sequence (.operator "(" :: out ++ [.operator ")"])) := by
      refine .sequence (forall_mem_group ?_ h.plain ?_)
      · rw [← hopening]
        exact .word (by decide)
      · rw [← hclosing]
        exact .word (by decide)
    simpa using hplain

theorem Meaning.bracket (h : Meaning o R .sum words v) :
    Meaning o R .atom ("(" :: words ++ [")"]) v := by
  obtain ⟨row, out, hfolds, -, hreads⟩ := h
  refine ⟨_, _, folded_group hfolds, hfolds.group, ⟨endsAfter_group out, ?_⟩, ?_, ?_⟩
  · intro _
    rw [spell_group, spell_group]
    rfl
  · exact isAtomic_group out
  · rw [spell_group]
    exact .bracket hreads

/-- An operator to fold and its two operands become a pair. -/
theorem Folds.pair {row : List Node} {n l r : Node} (h : Folds xs row [l])
    (h' : Folds ys [n] [r]) (hn : folded n = some r) (kind : BinaryKind) :
    Folds (xs ++ symbolOf kind :: ys) (row ++ [leafOfWord (symbolOf kind), n])
      [.binary kind l r] := by
  have hop : leafOfWord (symbolOf kind) = .operator (symbolOf kind) :=
    leafOfWord_of_isOperator (by cases kind <;> decide)
  refine ⟨?_, ?_, ?_, ?_⟩
  · intro m hm
    rcases List.mem_append.1 hm with hm | hm
    · exact h.pieces m hm
    · rcases List.mem_cons.1 hm with rfl | hm
      · exact piece_leafOfWord (by cases kind <;> decide) (by cases kind <;> decide)
      · exact h'.pieces m hm
  · rw [readingRow_append, readingRow_cons, h.reading, h'.reading, List.map_append, List.map_cons,
      hop, reading_leaf]
    rfl
  · intro done rest
    rw [List.append_assoc, h.folds, hop]
    show foldedFrom (l :: done) (.operator (symbolOf kind) :: n :: rest) = _
    rw [foldedFrom_binding (binding?_eq_some_iff.2 rfl), hn, Option.bind_some]
    rfl
  · simpa using Plain.pair (h.plain l (by simp)) (h'.plain r (by simp))

-- a pair is multiplied with a value before it, whatever the formula begins with
theorem spell_pair (kind : BinaryKind) (l r : Node) :
    spell o true (.binary kind l r) = "*" :: spell o false (.binary kind l r) := by
  cases kind <;> rw [spell, spell] <;> rfl

theorem Meaning.power {f : ℚ → ℚ → ℚ} (hover : R.product "/" = some (· / ·))
    (hcall : R.call o.powerFunction = some f) (hx : Meaning o R .chain xs x)
    (hy : Meaning o R .atom ys y) : Meaning o R .chain (xs ++ "^" :: ys) (f x y) := by
  obtain ⟨row, l, hfolds, hterm, hwritten⟩ := hx
  obtain ⟨n, r, hfolded, hfolds', hterm', hatomic, hreads⟩ := hy
  refine ⟨_, _, hfolds.pair hfolds' hfolded .power, ⟨?_, fun _ => spell_pair _ _ _⟩, .inl ⟨rfl, ?_⟩⟩
  · intro after
    rw [endsAfter]
    exact hterm'.ends false
  · rw [spell]
    exact .call hcall (hwritten.sum hover) (.ofProduct (.ofSigned (.ofChain (.ofAtom hreads))))

theorem Meaning.fraction (hover : R.product "/" = some (· / ·)) (hx : Meaning o R .chain xs x)
    (hy : Meaning o R .atom ys y) : Meaning o R .chain (xs ++ "/" :: ys) (x / y) := by
  obtain ⟨row, l, hfolds, hterm, hwritten⟩ := hx
  obtain ⟨n, r, hfolded, hfolds', hterm', hatomic, hreads⟩ := hy
  have hright : Reads R .atom (enclose r (spell o false r)) y :=
    Written.enclose hover (.inl ⟨hatomic, hreads⟩)
  -- the pair needs brackets as an operand, but is a quotient of two atoms by itself
  refine ⟨_, _, hfolds.pair hfolds' hfolded .fraction, ⟨?_, fun _ => spell_pair _ _ _⟩,
    .inr ⟨rfl, _, _, x, y, ?_, hwritten.enclose hover, hright, rfl⟩⟩
  · intro after
    rw [endsAfter, hterm'.ends, Bool.or_true]
  · rw [spell]
    rfl

theorem Meaning.ofAtom (h : Meaning o R .atom words v) : Meaning o R .chain words v := by
  obtain ⟨n, m, -, hfolds, hterm, hatomic, hreads⟩ := h
  exact ⟨[n], m, hfolds, hterm, .inl ⟨hatomic, hreads⟩⟩

theorem Meaning.ofChain (h : Meaning o R .chain words v) : Meaning o R .signed words v := by
  obtain ⟨row, m, hfolds, hterm, hwritten⟩ := h
  have hspell (after : Bool) : spellRow o after [m] = spell o after m := by
    rw [spellRow, spellRow, List.append_nil]
  refine ⟨row, [m], hfolds, ?_, ?_, ?_⟩
  · intro after
    rw [endsAfterRow, endsAfterRow]
    exact hterm.ends after
  · rw [hspell, hspell]
    exact hterm.times
  · rw [hspell]
    exact hwritten.factor

/-- The operators that stay in a row: neither folded nor a bracket. -/
def IsSign (word : String) : Prop :=
  word = "+" ∨ word = "-" ∨ word = "*"

theorem folds_sign (h : IsSign word) : Folds [word] [leafOfWord word] [leafOfWord word] := by
  rcases h with rfl | rfl | rfl <;> exact folds_word (by decide) (by decide) (by decide) (by decide)

theorem spellRow_sign (h : IsSign word) (after : Bool) (rest : List Node) :
    spellRow o after (leafOfWord word :: rest) = word :: spellRow o false rest := by
  rcases h with rfl | rfl | rfl <;> exact spellRow_word (Bool.and_false after)

theorem Meaning.sign (hword : IsSign word) {f : ℚ → ℚ}
    (hf : ∀ {words v}, Factor R words v → Factor R (word :: words) (f v))
    (h : Meaning o R .signed words v) : Meaning o R .signed (word :: words) (f v) := by
  obtain ⟨row, out, hfolds, hends, -, hfactor⟩ := h
  refine ⟨_, _, (folds_sign hword).append hfolds, hends.append, ?_, ?_⟩
  · intro hhead
    rw [show word = "(" from Option.some.inj hhead] at hword
    exact absurd hword (by simp [IsSign])
  · rw [List.singleton_append, spellRow_sign hword]
    exact hf hfactor

theorem Meaning.ofSigned (hover : R.product "/" = some (· / ·)) (h : Meaning o R .signed words v) :
    Meaning o R .product words v := by
  obtain ⟨row, out, hfolds, hends, -, hfactor⟩ := h
  exact ⟨row, out, hfolds, hends, hfactor.product hover⟩

/-- A product, with or without its `*`: if it is left out, it comes back before the bracket. -/
theorem Meaning.times (htimes : R.product "*" = some (· * ·))
    (hover : R.product "/" = some (· / ·)) (hx : Meaning o R .product xs x)
    (hy : Meaning o R .signed ys y) : Meaning o R .product (xs ++ "*" :: ys) (x * y) ∧
      (ys.head? = some "(" → Meaning o R .product (xs ++ ys) (x * y)) := by
  obtain ⟨row, out, hfolds, hends, hreads⟩ := hx
  obtain ⟨row', out', hfolds', hends', hbracket, hfactor⟩ := hy
  have hproduct := hfactor.times htimes hover hreads
  have hsign : IsSign "*" := .inr (.inr rfl)
  constructor
  · refine ⟨_, _, hfolds.append ((folds_sign hsign).append hfolds'), hends'.append.append, ?_⟩
    rw [spellRow_append, List.singleton_append, spellRow_sign hsign]
    exact hproduct
  · -- a value stands before the bracket, so its code begins with the `*`
    intro hhead
    refine ⟨_, _, hfolds.append hfolds', hends'.append, ?_⟩
    rw [spellRow_append, hends, hbracket hhead]
    exact hproduct

theorem Meaning.ofProduct (h : Meaning o R .product words v) : Meaning o R .sum words v := by
  obtain ⟨row, out, hfolds, hends, hreads⟩ := h
  exact ⟨row, out, hfolds, hends, .ofProduct hreads⟩

theorem Meaning.sum (hword : IsSign word) {f : ℚ → ℚ → ℚ}
    (hf : ∀ {xs ys}, Reads R .sum xs x → Reads R .product ys y →
      Reads R .sum (xs ++ word :: ys) (f x y))
    (hx : Meaning o R .sum xs x) (hy : Meaning o R .product ys y) :
    Meaning o R .sum (xs ++ word :: ys) (f x y) := by
  obtain ⟨row, out, hfolds, hends, hreads⟩ := hx
  obtain ⟨row', out', hfolds', hends', hreads'⟩ := hy
  refine ⟨_, _, hfolds.append ((folds_sign hword).append hfolds'), hends'.append.append, ?_⟩
  rw [spellRow_append, List.singleton_append, spellRow_sign hword]
  exact hf hreads hreads'

end

/-! ## 5. The meaning of a formula -/

/-- A word of a formula that code can hold too. -/
def IsCommon (word : String) : Prop :=
  Symbol.isOperator word = true ∨ isCodeName word = true

section

variable {o : Options} {value : String → ℚ} {power : ℚ → ℚ → ℚ} {word : String} {v : ℚ}
  {f : ℚ → ℚ → ℚ}

theorem formulaRules_operand (h : (formulaRules value power).operand word = some v) :
    Symbol.isOperator word = false ∧ v = value word := by
  unfold formulaRules at h
  dsimp only at h
  split at h
  · exact absurd h (by simp)
  · next hop => exact ⟨Bool.of_not_eq_true hop, (Option.some.inj h).symm⟩

theorem formulaRules_tight (h : (formulaRules value power).tight word = some f) :
    (word = "^" ∧ f = power) ∨ (word = "/" ∧ f = (· / ·)) := by
  unfold formulaRules at h
  dsimp only at h
  split at h
  · next hword => exact .inl ⟨hword, (Option.some.inj h).symm⟩
  · split at h
    · next hword => exact .inr ⟨hword, (Option.some.inj h).symm⟩
    · exact absurd h (by simp)

theorem formulaRules_product (h : (formulaRules value power).product word = some f) :
    word = "*" ∧ f = (· * ·) := by
  unfold formulaRules at h
  dsimp only at h
  split at h
  · next hword => exact ⟨hword, (Option.some.inj h).symm⟩
  · exact absurd h (by simp)

theorem isCommon_cut {front back : List String}
    (h : ∀ w ∈ front ++ word :: back, IsCommon w) :
    (∀ w ∈ front, IsCommon w) ∧ ∀ w ∈ back, IsCommon w := by
  obtain ⟨hfront, hrest⟩ := List.forall_mem_append.1 h
  exact ⟨hfront, (List.forall_mem_cons.1 hrest).2⟩

-- a cut at an operator that is not `*` is a cut of the formula itself
theorem cut_of_withTimes {words xs ys : List String} (hopen : word ≠ "(") (htimes : word ≠ "*")
    (h : xs ++ word :: ys = withTimes false words) (hcommon : ∀ w ∈ words, IsCommon w) :
    ∃ front back, words = front ++ word :: back ∧
      (xs = withTimes false front ∧ ∀ w ∈ front, IsCommon w) ∧
        ys = withTimes (endsValue word) back ∧ ∀ w ∈ back, IsCommon w := by
  rcases withTimes_split hopen h.symm with ⟨front, back, rfl, hfront, hback⟩ | ⟨hword, -⟩
  · obtain ⟨hcommon, hcommon'⟩ := isCommon_cut hcommon
    exact ⟨front, back, rfl, ⟨hfront, hcommon⟩, hback, hcommon'⟩
  · exact absurd hword htimes

/-- The words of a formula that is an expression have a meaning in code, at every level. -/
theorem Reads.meaning {level : Level} {expression : List String}
    (h : Reads (formulaRules value power) level expression v) : ∀ {words : List String},
      expression = withTimes false words → (∀ word ∈ words, IsCommon word) →
        Meaning o (codeRules o.powerFunction value power) level words v := by
  have htimes : (codeRules o.powerFunction value power).product "*" = some (· * ·) := rfl
  have hover : (codeRules o.powerFunction value power).product "/" = some (· / ·) := rfl
  have hcall : (codeRules o.powerFunction value power).call o.powerFunction = some power :=
    if_pos rfl
  induction h with
  | @operand word v h =>
    intro words hwords hcommon
    obtain ⟨hop, rfl⟩ := formulaRules_operand h
    obtain ⟨back, rfl, hback⟩ := eq_cons_of_withTimes hwords.symm
    obtain rfl := eq_nil_of_withTimes hback.symm
    have hname : isCodeName word = true :=
      (hcommon word List.mem_cons_self).resolve_left (by rw [hop]; decide)
    exact Meaning.operand hop (ne_comma_of_isCodeName hname) (if_pos hname)
  | bracket _ ih =>
    intro words hwords hcommon
    obtain ⟨back, rfl, hback⟩ := eq_cons_of_withTimes hwords.symm
    obtain ⟨front, back, rfl, ⟨hinner, hcommon'⟩, hnil, -⟩ :=
      cut_of_withTimes (by decide) (by decide) hback (List.forall_mem_cons.1 hcommon).2
    obtain rfl := eq_nil_of_withTimes hnil.symm
    exact (ih hinner hcommon').bracket
  | call h => exact absurd h (by simp [formulaRules])
  | ofAtom _ ih => exact fun hwords hcommon => (ih hwords hcommon).ofAtom
  | tight h _ _ ihx ihy =>
    intro words hwords hcommon
    rcases formulaRules_tight h with ⟨rfl, rfl⟩ | ⟨rfl, rfl⟩
    · obtain ⟨front, back, rfl, hfront, hback⟩ :=
        cut_of_withTimes (by decide) (by decide) hwords hcommon
      exact Meaning.power hover hcall (ihx hfront.1 hfront.2) (ihy hback.1 hback.2)
    · obtain ⟨front, back, rfl, hfront, hback⟩ :=
        cut_of_withTimes (by decide) (by decide) hwords hcommon
      exact Meaning.fraction hover (ihx hfront.1 hfront.2) (ihy hback.1 hback.2)
  | ofChain _ ih => exact fun hwords hcommon => (ih hwords hcommon).ofChain
  | plus _ ih =>
    intro words hwords hcommon
    obtain ⟨back, rfl, hback⟩ := eq_cons_of_withTimes hwords.symm
    exact Meaning.sign (f := id) (.inl rfl) Factor.plus
      (ih hback (List.forall_mem_cons.1 hcommon).2)
  | minus _ ih =>
    intro words hwords hcommon
    obtain ⟨back, rfl, hback⟩ := eq_cons_of_withTimes hwords.symm
    exact Meaning.sign (.inr (.inl rfl)) Factor.minus
      (ih hback (List.forall_mem_cons.1 hcommon).2)
  | ofSigned _ ih => exact fun hwords hcommon => (ih hwords hcommon).ofSigned hover
  | product h _ _ ihx ihy =>
    intro words hwords hcommon
    obtain ⟨rfl, rfl⟩ := formulaRules_product h
    -- the `*` stands in the formula, or was left out before a bracket
    rcases withTimes_split (by decide) hwords.symm with
      ⟨front, back, rfl, hfront, hback⟩ | ⟨-, front, back, rfl, hfront, hback⟩
    · obtain ⟨hcommon, hcommon'⟩ := isCommon_cut hcommon
      exact (Meaning.times htimes hover (ihx hfront hcommon) (ihy hback hcommon')).1
    · obtain ⟨hcommon, hcommon'⟩ := List.forall_mem_append.1 hcommon
      exact (Meaning.times htimes hover (ihx hfront hcommon) (ihy hback hcommon')).2 rfl
  | ofProduct _ ih => exact fun hwords hcommon => (ih hwords hcommon).ofProduct
  | add _ _ ihx ihy =>
    intro words hwords hcommon
    obtain ⟨front, back, rfl, hfront, hback⟩ :=
      cut_of_withTimes (by decide) (by decide) hwords hcommon
    exact Meaning.sum (.inl rfl) .add (ihx hfront.1 hfront.2) (ihy hback.1 hback.2)
  | sub _ _ ihx ihy =>
    intro words hwords hcommon
    obtain ⟨front, back, rfl, hfront, hback⟩ :=
      cut_of_withTimes (by decide) (by decide) hwords hcommon
    exact Meaning.sum (.inr (.inl rfl)) .sub (ihx hfront.1 hfront.2) (ihy hback.1 hback.2)

end

theorem isCommon_of_isValid {formula : String} {inputs : List String}
    (h : isValid formula inputs = true) : ∀ word ∈ Token.words formula, IsCommon word := by
  intro word hword
  have hclean := ((validWords_of_isValid h).known word hword).2
  rcases isWord_of_mem_words hword with hop | ⟨-, hne, hchars⟩
  · exact .inl hop
  · refine .inr (Bool.and_eq_true_iff.2 ⟨?_, List.all_eq_true.2 fun c hc => ?_⟩)
    · rw [Bool.not_eq_true', List.isEmpty_eq_false_iff]
      exact hne
    · have hchar := hchars c hc
      rw [Token.isWordChar, Bool.and_eq_true_iff] at hchar
      -- the comma is the one character that is a sign in code and not in a formula
      have hcomma : c ≠ ',' := by
        rintro rfl
        exact absurd (List.all_eq_true.1 hclean ',' hc) (by decide +kernel)
      rw [isWordChar, isSymbolChar, hchar.1, beq_eq_false_iff_ne.2 hcomma, Bool.or_false]
      exact hchar.2

/-- **Code means what the formula means.**  If a valid formula is an expression, its folded row has
code, and that code is an expression with the value of the formula and no other.  Code is read with
calls of the power function, so this function must have a name that can be read. -/
theorem emit_meaning {formula : String} {inputs : List String} {options : Options}
    (hvalid : isValid formula inputs = true) (hsuffix : options.suffixNumbers = false)
    (hpower : isCodeName options.powerFunction = true) (positions : List Int)
    {value : String → ℚ} {power : ℚ → ℚ → ℚ} {v : ℚ}
    (h : Reads (formulaRules value power) .sum (withTimes false (Token.words formula)) v) :
    ∃ row settled code, group (leaves (Token.scan formula)) positions = .ok row ∧
      foldOperators row = .ok settled ∧ emit options (.sequence settled.nodes) = .ok code ∧
        ∀ w, Reads (codeRules options.powerFunction value power) .sum (lexemes code.toList) w ↔
          w = v := by
  obtain ⟨row, out, hfolds, -, hreads⟩ := h.meaning rfl (isCommon_of_isValid hvalid)
  have hgroup : group (leaves (Token.scan formula)) positions = .ok row := by
    rw [leaves_scan, ← hfolds.reading]
    exact group_readingRow hfolds.pieces positions
  have hfolded : foldedFrom [] row = some out := by
    have hrow := hfolds.folds [] []
    rw [List.append_nil, List.append_nil, foldedFrom_nil, List.reverse_reverse] at hrow
    exact hrow
  obtain ⟨settled, hsettled, rfl⟩ := foldOperators_ok_iff.2 hfolded
  have hcomma : options.powerFunction ≠ "," := by
    intro hname
    rw [hname] at hpower
    exact absurd hpower (by decide)
  refine ⟨row, settled, _, hgroup, hsettled, emit_plain hsuffix hcomma hfolds.plain, fun w => ?_⟩
  rw [lexemes_textOf (hreads.separate hpower)]
  constructor
  · intro hw
    exact hw.unique (codeRules_clear hpower value power) hreads
  · rintro rfl
    exact hreads

/-- A value for each operand of `-a/b(c+2)^2`. -/
def quotientValue (word : String) : ℚ :=
  if word = "a" then 6 else if word = "b" then 3 else if word = "c" then 1 else 2

/-- Powers with the whole part of the exponent. -/
def wholePower (x y : ℚ) : ℚ :=
  x ^ y.floor.toNat

theorem emit_meaning_quotient :
    isValid "-a/b(c+2)^2" ["a", "b", "c"] = true ∧ isCodeName "Math.Pow" = true ∧
      Reads (formulaRules quotientValue wholePower) .sum
        (withTimes false (Token.words "-a/b(c+2)^2"))
        (-(quotientValue "a" / quotientValue "b") *
          wholePower (quotientValue "c" + quotientValue "2") (quotientValue "2")) ∧
      ∃ row settled code, group (leaves (Token.scan "-a/b(c+2)^2")) [] = .ok row ∧
        foldOperators row = .ok settled ∧ emit {} (.sequence settled.nodes) = .ok code ∧
          ∀ w, Reads (codeRules "Math.Pow" quotientValue wholePower) .sum (lexemes code.toList) w ↔
            w = -(quotientValue "a" / quotientValue "b") *
              wholePower (quotientValue "c" + quotientValue "2") (quotientValue "2") := by
  have hvalid : isValid "-a/b(c+2)^2" ["a", "b", "c"] = true := by decide +kernel
  have hname : isCodeName ({} : Options).powerFunction = true := by decide
  have hwords : withTimes false (Token.words "-a/b(c+2)^2") =
      ["-", "a", "/", "b"] ++ "*" :: (("(" :: (["c"] ++ "+" :: ["2"]) ++ [")"]) ++ "^" :: ["2"]) := by
    decide +kernel
  have hword {word : String} (h : Symbol.isOperator word = false) :
      Reads (formulaRules quotientValue wholePower) .atom [word] (quotientValue word) := by
    apply Reads.operand
    simp [formulaRules, h]
  have hquotient : Reads (formulaRules quotientValue wholePower) .signed ["-", "a", "/", "b"]
      (-(quotientValue "a" / quotientValue "b")) :=
    .minus (.ofChain (.tight rfl (.ofAtom (hword (by decide))) (hword (by decide))))
  have hsum : Reads (formulaRules quotientValue wholePower) .sum (["c"] ++ "+" :: ["2"])
      (quotientValue "c" + quotientValue "2") :=
    .add (.ofProduct (.ofSigned (.ofChain (.ofAtom (hword (by decide))))))
      (.ofSigned (.ofChain (.ofAtom (hword (by decide)))))
  have hpower : Reads (formulaRules quotientValue wholePower) .chain
      (("(" :: (["c"] ++ "+" :: ["2"]) ++ [")"]) ++ "^" :: ["2"])
      (wholePower (quotientValue "c" + quotientValue "2") (quotientValue "2")) :=
    .tight rfl (.ofAtom (.bracket hsum)) (hword (by decide))
  have hreads : Reads (formulaRules quotientValue wholePower) .sum
      (withTimes false (Token.words "-a/b(c+2)^2"))
      (-(quotientValue "a" / quotientValue "b") *
        wholePower (quotientValue "c" + quotientValue "2") (quotientValue "2")) := by
    rw [hwords]
    exact .ofProduct (.product rfl (.ofSigned hquotient) (.ofChain hpower))
  exact ⟨hvalid, hname, hreads, emit_meaning hvalid rfl hname [] hreads⟩

end Formulary.Arithmetic
