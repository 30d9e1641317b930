import Formulary.Proofs.Neighbours

/-!
# What makes a formula valid

The rules for a valid formula, each one by itself: what the words may be, what must follow a function
name, which words may stand side by side, how the brackets match, and how the formula begins and ends
(`IsAdmissible`).  The scan checks all of them in one go, with the word before and the bracket depth in
hand, and stops at the first that is broken; it accepts exactly the formulas that obey them all
(`isValid_iff_isAdmissible`).
-/

namespace Formulary.Formula

/-! ## 1. The rules -/

/-- Two words that may stand side by side: an operator to fold neither begins nor ends a bracket, and
of two operators one is a bracket or both are signs. -/
structure Beside (previous word : String) : Prop where
  opening : previous = "(" → word ≠ "^" ∧ word ≠ "/"
  closing : word = ")" → previous ≠ "^" ∧ previous ≠ "/"
  operators : Symbol.isOperator previous = true → Symbol.isOperator word = true →
    Symbol.isBracket previous = false → Symbol.isBracket word = false →
      previous ∈ ["+", "-"] ∧ word ∈ ["+", "-"]

/-- The words obey all rules for a valid formula. -/
structure IsAdmissible (inputs words : List String) : Prop where
  known : ∀ word ∈ words, word ∈ inputs ∨ Symbol.isOperator word = true ∨ word = "sqrt" ∨
    Numeral.isNumeral word = true
  clean : ∀ word ∈ words, ∀ c ∈ word.toList,
    Text.isAlphanumeric c = true ∨ Symbol.isOperatorChar c = true
  argument : ∀ front back, words = front ++ "sqrt" :: back → back.head? = some "("
  first : ∀ word ∈ words.head?, word ≠ "^" ∧ word ≠ "/"
  beside : words.IsChain Beside
  opened : ∀ front, front <+: words → front.count ")" ≤ front.count "("
  closed : words.count ")" = words.count "("
  last : ∀ word ∈ words.getLast?, Symbol.isOperator word = true → word = ")"

theorem isBinding_eq_false_iff {word : String} :
    Symbol.isBinding word = false ↔ word ≠ "^" ∧ word ≠ "/" := by
  simp [Symbol.isBinding]

theorem isKnown_iff {inputs : List String} {word : String} :
    isKnown inputs word = true ↔ word ∈ inputs ∨ Symbol.isOperator word = true ∨ word = "sqrt" ∨
      Numeral.isNumeral word = true := by
  simp only [isKnown, Bool.or_eq_true_iff, List.contains_iff_mem, Symbol.isFunction_iff, or_assoc]

theorem isClean_iff {word : String} : isClean word = true ↔ ∀ c ∈ word.toList,
    Text.isAlphanumeric c = true ∨ Symbol.isOperatorChar c = true := by
  simp only [isClean, List.all_eq_true, Bool.or_eq_true_iff]

/-! ## 2. Two neighbours -/

section

variable {previous word : String}

theorem lacksOperand_some_iff : lacksOperand (some previous) word = false ↔
    (previous = "(" → word ≠ "^" ∧ word ≠ "/") ∧ (word = ")" → previous ≠ "^" ∧ previous ≠ "/") := by
  rw [← isBinding_eq_false_iff, ← isBinding_eq_false_iff, lacksOperand, Bool.or_eq_false_iff]
  apply and_congr
  · cases Symbol.isBinding word <;> simp
  · by_cases hclose : word = ")" <;> simp [hclose]

/-- What the scan asks of a word, given the word before it. -/
theorem mayFollow_some_iff : mayFollow (some previous) word = true ↔
    (previous = "sqrt" → word = "(") ∧ Beside previous word := by
  have hname : (!(Symbol.isFunction previous && word != "(")) = true ↔
      (previous = "sqrt" → word = "(") := by
    rw [← Symbol.isFunction_iff]
    cases Symbol.isFunction previous <;> simp
  simp only [mayFollow, Option.any_some, Bool.and_eq_true_iff, hname, Bool.not_eq_true',
    lacksOperand_some_iff, clash_eq_false_iff, isAdditive_iff]
  constructor
  · rintro ⟨⟨hname, hopen, hclose⟩, hoperators⟩
    exact ⟨hname, hopen, hclose, hoperators⟩
  · rintro ⟨hname, hopen, hclose, hoperators⟩
    exact ⟨⟨hname, hopen, hclose⟩, hoperators⟩

theorem mayFollow_none_iff : mayFollow none word = true ↔ word ≠ "^" ∧ word ≠ "/" := by
  rw [← isBinding_eq_false_iff]
  simp [mayFollow, lacksOperand]

theorem mayEnd_some_iff : mayEnd (some word) = true ↔
    word ≠ "sqrt" ∧ (Symbol.isOperator word = true → word = ")") := by
  rw [mayEnd, Bool.and_eq_true_iff, Bool.not_eq_true', ← Bool.not_eq_true, Symbol.isFunction_iff]
  apply and_congr_right
  intro _
  cases Symbol.isOperator word <;> simp

end

/-! ## 3. The scan -/

/-- The scan goes through if each of its checks does. -/
theorem validFrom_of_checks {inputs words : List String} {previous : Option String} {depth : Nat}
    (hdepth : depthAfter depth (words.map leafOfWord) = some 0)
    (hhead : ∀ word ∈ words.head?, mayFollow previous word = true)
    (hchain : words.IsChain fun previous word => mayFollow (some previous) word = true)
    (hend : mayEnd (words.getLast?.or previous) = true)
    (hall : ∀ word ∈ words, isKnown inputs word = true ∧ isClean word = true) :
    validFrom inputs previous depth words = true := by
  induction words generalizing previous depth with
  | nil =>
    obtain rfl : depth = 0 := Option.some.inj hdepth
    simpa [validFrom] using hend
  | cons word rest ih =>
    obtain ⟨⟨hknown, hclean⟩, hrest⟩ := List.forall_mem_cons.1 hall
    have hend' : mayEnd (rest.getLast?.or (some word)) = true := by
      rw [List.getLast?_cons] at hend
      cases hlast : rest.getLast? with
      | none => simpa [hlast] using hend
      | some last => simpa [hlast] using hend
    -- from the next word on, the scan goes through at whatever depth the brackets leave
    have hnext {after : Nat} (hafter : depthAfter after (rest.map leafOfWord) = some 0) :
        validFrom inputs (some word) after rest = true :=
      ih hafter (fun next hword => hchain.rel_head? hword) hchain.tail hend' hrest
    rw [List.map_cons] at hdepth
    rw [validFrom, hhead word rfl, hknown, hclean]
    by_cases hopen : word = "("
    · rw [depthAfter_opening (by simp [hopen])] at hdepth
      rw [if_pos hopen]
      exact hnext hdepth
    · rw [if_neg hopen]
      by_cases hclose : word = ")"
      · rw [if_pos hclose]
        cases depth with
        | zero =>
          rw [depthAfter_closing_zero (by simp [hclose])] at hdepth
          exact absurd hdepth (by simp)
        | succ depth =>
          rw [depthAfter_closing (by simp [hclose])] at hdepth
          exact hnext hdepth
      · rw [depthAfter_other (by simpa using hopen) (by simpa using hclose)] at hdepth
        rw [if_neg hclose]
        exact hnext hdepth

theorem isValid_iff_validWords {formula : String} {inputs : List String} :
    isValid formula inputs = true ↔ ValidWords inputs (Token.words formula) := by
  refine ⟨validWords_of_isValid, fun h => ?_⟩
  apply validFrom_of_checks h.balanced h.head h.neighbours _ h.known
  rw [Option.or_none]
  exact h.last

/-! ## 4. The rules and the scan -/

section

variable {inputs words : List String}

theorem balanced_words_iff : Balanced (words.map leafOfWord) ↔
    (∀ front, front <+: words → front.count ")" ≤ front.count "(") ∧
      words.count ")" = words.count "(" := by
  have hopened : (∀ front, front <+: words → front.count ")" ≤ front.count "(") ↔
      ¬Overclosed words := by
    simp only [Overclosed, not_exists, not_and, Nat.not_lt]
  rw [hopened, ← depthAfter_eq_none_iff_overclosed]
  constructor
  · intro h
    have hcount := depthAfter_words h
    refine ⟨?_, by omega⟩
    rw [show depthAfter 0 _ = some 0 from h]
    simp
  · rintro ⟨hsome, hclosed⟩
    obtain ⟨depth, hdepth⟩ := Option.ne_none_iff_exists'.1 hsome
    have hcount := depthAfter_words hdepth
    obtain rfl : depth = 0 := by omega
    exact hdepth

-- a function name has a bracket after it where a word follows, and does not end the formula
theorem argument_iff : (∀ front back, words = front ++ "sqrt" :: back → back.head? = some "(") ↔
    (words.IsChain fun previous word => previous = "sqrt" → word = "(") ∧
      ∀ word ∈ words.getLast?, word ≠ "sqrt" := by
  constructor
  · intro h
    refine ⟨?_, ?_⟩
    · rw [List.isChain_iff_forall_rel_of_append_cons_cons]
      rintro previous word front back rfl rfl
      simpa using h front (word :: back) rfl
    · rintro word hword rfl
      obtain ⟨front, rfl⟩ := List.getLast?_eq_some_iff.1 hword
      exact absurd (h front [] rfl) (by simp)
  · rintro ⟨hchain, hlast⟩ front back rfl
    cases back with
    | nil => exact absurd rfl (hlast "sqrt" (by simp))
    | cons word back =>
      have hword := List.isChain_iff_forall_rel_of_append_cons_cons.1 hchain rfl rfl
      simp [hword]

theorem validWords_iff_isAdmissible : ValidWords inputs words ↔ IsAdmissible inputs words := by
  have hchain : (words.IsChain fun previous word => mayFollow (some previous) word = true) ↔
      (words.IsChain fun previous word => previous = "sqrt" → word = "(") ∧
        words.IsChain Beside := by
    simp only [List.isChain_iff_forall_rel_of_append_cons_cons, mayFollow_some_iff]
    exact ⟨fun h => ⟨fun _ _ _ _ hw => (h hw).1, fun _ _ _ _ hw => (h hw).2⟩,
      fun h _ _ _ _ hw => ⟨h.1 hw, h.2 hw⟩⟩
  have hend : mayEnd words.getLast? = true ↔ (∀ word ∈ words.getLast?, word ≠ "sqrt") ∧
      ∀ word ∈ words.getLast?, Symbol.isOperator word = true → word = ")" := by
    cases words.getLast? with
    | none => simp [mayEnd]
    | some last => simp [mayEnd_some_iff]
  constructor
  · intro h
    obtain ⟨hopened, hclosed⟩ := balanced_words_iff.1 h.balanced
    obtain ⟨hnames, hbeside⟩ := hchain.1 h.neighbours
    obtain ⟨hname, hlast⟩ := hend.1 h.last
    exact {
      known := fun word hword => isKnown_iff.1 (h.known word hword).1
      clean := fun word hword => isClean_iff.1 (h.known word hword).2
      argument := argument_iff.2 ⟨hnames, hname⟩
      first := fun word hword => mayFollow_none_iff.1 (h.head word hword)
      beside := hbeside
      opened := hopened
      closed := hclosed
      last := hlast }
  · intro h
    obtain ⟨hnames, hname⟩ := argument_iff.1 h.argument
    exact {
      balanced := balanced_words_iff.2 ⟨h.opened, h.closed⟩
      head := fun word hword => mayFollow_none_iff.2 (h.first word hword)
      neighbours := hchain.2 ⟨hnames, h.beside⟩
      last := hend.2 ⟨hname, h.last⟩
      known := fun word hword => ⟨isKnown_iff.2 (h.known word hword), isClean_iff.2 (h.clean word hword)⟩ }

end

/-- **The scan decides the rules.**  A formula is valid for the given inputs exactly if its words obey
all rules. -/
theorem isValid_iff_isAdmissible (formula : String) (inputs : List String) :
    isValid formula inputs = true ↔ IsAdmissible inputs (Token.words formula) := by
  rw [isValid_iff_validWords, validWords_iff_isAdmissible]

end Formulary.Formula
