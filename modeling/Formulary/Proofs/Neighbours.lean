import Formulary.Proofs.Validity

/-!
# What stands beside an operator

In a valid formula `^` and `/` have an operand on both sides.  The scan asks less of the other
operators: a `*` may begin the formula or a bracket, a sign or a `*` may end a bracket, and a bracket
may hold nothing.  Apart from that every operator stands where an expression has one
(`neighbours_of_isValid`), and the formula `*(a+)()` uses all three exceptions at once
(`not_complete_of_isValid`).
-/

namespace Formulary.Formula

/-! ## 1. Words at the ends of an operand -/

/-- A name or a number: an input or a numeral that is no operator and no function name. -/
def isOperandOf (inputs : List String) (word : String) : Bool :=
  !Symbol.isOperator word && !Symbol.isFunction word
    && (inputs.contains word || Numeral.isNumeral word)

def endsOperand (inputs : List String) (word : String) : Bool :=
  isOperandOf inputs word || word == ")"

def beginsOperand (inputs : List String) (word : String) : Bool :=
  isOperandOf inputs word || Symbol.isFunction word || word == "("

def isAdditive (word : String) : Bool :=
  word == "+" || word == "-"

section

variable {inputs : List String} {previous word : String}

theorem isKnown_cases (h : isKnown inputs word = true) : Symbol.isOperator word = true ∨
    Symbol.isFunction word = true ∨ isOperandOf inputs word = true := by
  cases hop : Symbol.isOperator word with
  | true => exact .inl rfl
  | false =>
    cases hname : Symbol.isFunction word with
    | true => exact .inr (.inl rfl)
    | false =>
      unfold isKnown at h
      rw [hop, hname, Bool.or_false, Bool.or_false] at h
      unfold isOperandOf
      rw [hop, hname, h]
      exact .inr (.inr rfl)

theorem isBracket_cases (h : Symbol.isBracket word = true) : word = "(" ∨ word = ")" := by
  simpa [Symbol.isBracket] using h

theorem isAdditive_of_isStackable (h : Symbol.isStackable word = true)
    (hbracket : Symbol.isBracket word = false) : isAdditive word = true := by
  simp only [Symbol.isStackable, List.contains_eq_mem, decide_eq_true_eq, List.mem_cons,
    List.not_mem_nil, or_false] at h
  rcases h with rfl | rfl | rfl | rfl
  · rfl
  · rfl
  · exact absurd hbracket (by decide)
  · exact absurd hbracket (by decide)

theorem isAdditive_iff : isAdditive word = true ↔ word ∈ ["+", "-"] := by
  simp [isAdditive]

/-! ## 2. Two neighbours -/

-- two operators of which neither is a bracket get along exactly if both are signs
theorem clash_eq_false_iff : clash previous word = false ↔
    (Symbol.isOperator previous = true → Symbol.isOperator word = true →
      Symbol.isBracket previous = false → Symbol.isBracket word = false →
        isAdditive previous = true ∧ isAdditive word = true) := by
  constructor
  · intro h hprevious hword hbp hbw
    have hstackable : Symbol.isStackable previous = true ∧ Symbol.isStackable word = true := by
      simpa [clash, hprevious, hword, hbp, hbw] using h
    exact ⟨isAdditive_of_isStackable hstackable.1 hbp, isAdditive_of_isStackable hstackable.2 hbw⟩
  · intro h
    by_contra hclash
    have hparts := Bool.of_not_eq_false hclash
    simp only [clash, Bool.and_eq_true_iff, Bool.not_eq_true', Bool.or_eq_false_iff] at hparts
    obtain ⟨⟨⟨hprevious, hword⟩, hstackable⟩, hbp, hbw⟩ := hparts
    obtain ⟨hp, hw⟩ := h hprevious hword hbp hbw
    -- both are signs, so they do not clash
    rw [isAdditive_iff] at hp hw
    simp only [List.mem_cons, List.not_mem_nil, or_false] at hp hw
    rcases hp with rfl | rfl <;> rcases hw with rfl | rfl <;> exact absurd hstackable (by decide)

theorem isAdditive_of_mayFollow (h : mayFollow (some previous) word = true)
    (hprevious : Symbol.isOperator previous = true) (hword : Symbol.isOperator word = true)
    (hbp : Symbol.isBracket previous = false) (hbw : Symbol.isBracket word = false) :
    isAdditive previous = true ∧ isAdditive word = true := by
  have hclash : clash previous word = false := by
    unfold mayFollow at h
    simpa using (Bool.and_eq_true_iff.1 h).2
  exact clash_eq_false_iff.1 hclash hprevious hword hbp hbw

-- an operator to fold has something to take on both sides
theorem lacksOperand_of_mayFollow {before : Option String} (h : mayFollow before word = true) :
    lacksOperand before word = false := by
  unfold mayFollow at h
  rw [Bool.and_eq_true_iff, Bool.and_eq_true_iff] at h
  simpa using h.1.2

/-- What stands before `*`, `/` or `^`. -/
theorem left_of_mayFollow (h : mayFollow (some previous) word = true)
    (hknown : isKnown inputs previous = true) (hword : word = "*" ∨ Symbol.isBinding word = true) :
    endsOperand inputs previous = true ∨ (word = "*" ∧ previous = "(") := by
  have hop : Symbol.isOperator word = true ∧ Symbol.isBracket word = false ∧
      isAdditive word = false := by
    rcases hword with rfl | hword
    · decide
    · rcases Symbol.isBinding_cases hword with rfl | rfl <;> decide
  obtain ⟨hoperator, hbracket, hadditive⟩ := hop
  rcases isKnown_cases hknown with hprevious | hname | hoperand
  · cases hbp : Symbol.isBracket previous with
    | false =>
      -- neither is a bracket, so the word would be a sign
      have hboth := isAdditive_of_mayFollow h hprevious hoperator hbp hbracket
      rw [hadditive] at hboth
      exact absurd hboth.2 (by decide)
    | true =>
      rcases isBracket_cases hbp with rfl | rfl
      · have hlacks := lacksOperand_of_mayFollow h
        refine .inr ⟨hword.resolve_right fun hbinding => ?_, rfl⟩
        simp [lacksOperand, hbinding] at hlacks
      · exact .inl (by simp [endsOperand])
  · -- a function name is followed by a bracket
    rw [eq_opening_of_isFunction h hname] at hbracket
    exact absurd hbracket (by decide)
  · exact .inl (by simp [endsOperand, hoperand])

/-- What stands after an operator that is no bracket. -/
theorem right_of_mayFollow (h : mayFollow (some previous) word = true)
    (hknown : isKnown inputs word = true) (hoperator : Symbol.isOperator previous = true)
    (hbracket : Symbol.isBracket previous = false) :
    beginsOperand inputs word = true ∨ (Symbol.isBinding previous = false ∧ word = ")") ∨
      (isAdditive previous = true ∧ isAdditive word = true) := by
  rcases isKnown_cases hknown with hword | hname | hoperand
  · cases hbw : Symbol.isBracket word with
    | false => exact .inr (.inr (isAdditive_of_mayFollow h hoperator hword hbracket hbw))
    | true =>
      rcases isBracket_cases hbw with rfl | rfl
      · exact .inl (by simp [beginsOperand])
      · have hlacks := lacksOperand_of_mayFollow h
        refine .inr (.inl ⟨?_, rfl⟩)
        simpa [lacksOperand, Symbol.isBinding] using hlacks
  · exact .inl (by simp [beginsOperand, hname])
  · exact .inl (by simp [beginsOperand, hoperand])

end

/-! ## 3. The words of a valid formula -/

/-- **What stands beside the operators of a valid formula.**  Before `^` and `/` there is an operand
or a closing bracket, and so there is before a `*` that does not begin the formula or a bracket.  After
every operator there is an operand, a function name or an opening bracket; or a sign after a sign, or a
closing bracket after a sign or a `*`. -/
theorem neighbours_of_isValid {formula : String} {inputs : List String}
    (h : isValid formula inputs = true) {front back : List String} {word : String}
    (hsplit : Token.words formula = front ++ word :: back) :
    (Symbol.isBinding word = true →
      ∃ previous ∈ front.getLast?, endsOperand inputs previous = true) ∧
    (word = "*" →
      ∀ previous ∈ front.getLast?, endsOperand inputs previous = true ∨ previous = "(") ∧
    (Symbol.isOperator word = true → Symbol.isBracket word = false →
      ∃ next ∈ back.head?, beginsOperand inputs next = true ∨
        (Symbol.isBinding word = false ∧ next = ")") ∨
        (isAdditive word = true ∧ isAdditive next = true)) := by
  have hwords := validWords_of_isValid h
  rw [hsplit] at hwords
  obtain ⟨-, hback, hlink⟩ := List.isChain_append.1 hwords.neighbours
  have hleft (previous : String) (hprevious : previous ∈ front.getLast?)
      (hword : word = "*" ∨ Symbol.isBinding word = true) :
      endsOperand inputs previous = true ∨ (word = "*" ∧ previous = "(") := by
    have hmem : previous ∈ front ++ word :: back :=
      List.mem_append_left _ (List.mem_of_getLast? hprevious)
    exact left_of_mayFollow (hlink previous hprevious word rfl) (hwords.known previous hmem).1 hword
  refine ⟨fun hbinding => ?_, fun htimes previous hprevious => ?_, fun hoperator hbracket => ?_⟩
  · cases hlast : front.getLast? with
    | none =>
      -- the word begins the formula, where nothing could be its left operand
      obtain rfl := List.getLast?_eq_none_iff.1 hlast
      have hlacks := lacksOperand_of_mayFollow (hwords.head word rfl)
      simp [lacksOperand, hbinding] at hlacks
    | some previous =>
      refine ⟨previous, rfl, (hleft previous hlast (.inr hbinding)).resolve_right ?_⟩
      rintro ⟨rfl, -⟩
      exact absurd hbinding (by decide)
  · exact (hleft previous hprevious (.inl htimes)).imp_right And.right
  · cases hnext : back.head? with
    | none =>
      -- no operator ends the formula but a closing bracket
      obtain rfl := List.head?_eq_none_iff.1 hnext
      have hend := hwords.last
      rw [List.getLast?_concat] at hend
      simp only [mayEnd, hoperator, Bool.and_eq_true_iff] at hend
      have hclose : word = ")" := by simpa using hend.2
      rw [hclose] at hbracket
      exact absurd hbracket (by decide)
    | some next =>
      have hmem : next ∈ front ++ word :: back :=
        List.mem_append_right _ (List.mem_cons_of_mem _ (List.mem_of_head? hnext))
      exact ⟨next, rfl, right_of_mayFollow (hback.rel_head? hnext) (hwords.known next hmem).1
        hoperator hbracket⟩

theorem neighbours_of_isValid_power : isValid "(*a+)^2" ["a"] = true ∧
    Token.words "(*a+)^2" = ["(", "*", "a", "+", ")"] ++ "^" :: ["2"] ∧
    (∃ previous ∈ ["(", "*", "a", "+", ")"].getLast?, endsOperand ["a"] previous = true) ∧
    ∃ next ∈ ["2"].head?, beginsOperand ["a"] next = true ∨
      (Symbol.isBinding "^" = false ∧ next = ")") ∨
      (isAdditive "^" = true ∧ isAdditive next = true) := by
  have h : isValid "(*a+)^2" ["a"] = true := by decide +kernel
  have hsplit : Token.words "(*a+)^2" = ["(", "*", "a", "+", ")"] ++ "^" :: ["2"] := by
    decide +kernel
  obtain ⟨hleft, -, hright⟩ := neighbours_of_isValid h hsplit
  exact ⟨h, hsplit, hleft (by decide), hright (by decide) (by decide)⟩

/-! ## 4. Expressions that are not complete -/

/-- Every `*`, `/` and `^` stands right behind an operand. -/
def LeftComplete (inputs words : List String) : Prop :=
  ∀ front word back, words = front ++ word :: back → word ∈ ["*", "/", "^"] →
    ∃ previous ∈ front.getLast?, endsOperand inputs previous = true

/-- Every operator stands right before an operand, or is one sign before another. -/
def RightComplete (inputs words : List String) : Prop :=
  ∀ front word back, words = front ++ word :: back → word ∈ ["+", "-", "*", "/", "^"] →
    ∃ next ∈ back.head?, beginsOperand inputs next = true ∨
      (isAdditive word = true ∧ isAdditive next = true)

/-- No bracket is closed right after it is opened. -/
def Filled (words : List String) : Prop :=
  ∀ front back, words ≠ front ++ "(" :: ")" :: back

/-- A valid formula need not be complete, in any of the three ways. -/
theorem not_complete_of_isValid : isValid "*(a+)()" ["a"] = true ∧
    ¬LeftComplete ["a"] (Token.words "*(a+)()") ∧ ¬RightComplete ["a"] (Token.words "*(a+)()") ∧
    ¬Filled (Token.words "*(a+)()") := by
  have hwords : Token.words "*(a+)()" = ["*", "(", "a", "+", ")", "(", ")"] := by decide +kernel
  rw [hwords]
  refine ⟨by decide +kernel, fun hleft => ?_, fun hright => ?_, fun hfilled => ?_⟩
  · obtain ⟨previous, hprevious, -⟩ := hleft [] "*" _ rfl (by simp)
    cases hprevious
  · obtain ⟨next, hnext, hcases⟩ := hright ["*", "(", "a"] "+" _ rfl (by simp)
    cases hnext
    exact absurd hcases (by decide)
  · exact hfilled ["*", "(", "a", "+", ")"] [] rfl

end Formulary.Formula
