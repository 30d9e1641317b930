import Formulary.Formula.Fold
import Formulary.Formula.Function
import Formulary.Formula.Group
import Mathlib.Data.List.TakeWhile
import Mathlib.Tactic.ByContra

/-!
# Words and their leaves

The text of a word decides what the word is: the seven operators are operators, a word that begins
with a digit is a number, and every other word is an identifier.  So the leaves of a formula are a
function of its words (`leaves_scan`), and what a pass asks of a leaf it asks of a word.
-/

namespace Formulary

/-! ## 1. The characters of a word -/

namespace Symbol

theorem isOperator_cases {word : String} (h : isOperator word = true) : word = "+" ∨ word = "-" ∨
    word = "*" ∨ word = "/" ∨ word = "^" ∨ word = "(" ∨ word = ")" := by
  simpa [isOperator] using h

theorem isBinding_cases {word : String} (h : isBinding word = true) : word = "^" ∨ word = "/" := by
  simpa [isBinding] using h

theorem isOperator_singleton {c : Char} (hc : isOperatorChar c = true) :
    isOperator (String.singleton c) = true := by
  simp only [isOperatorChar, operatorChars, List.contains_eq_mem, decide_eq_true_eq,
    List.mem_cons, List.not_mem_nil, or_false] at hc
  rcases hc with rfl | rfl | rfl | rfl | rfl | rfl | rfl <;> decide

-- an operator is one operator character
theorem toList_of_isOperator {word : String} (h : isOperator word = true) :
    ∃ c, isOperatorChar c = true ∧ word.toList = [c] := by
  rcases isOperator_cases h with rfl | rfl | rfl | rfl | rfl | rfl | rfl
  all_goals exact ⟨_, by decide, rfl⟩

-- a word that begins with another character is no operator
theorem isOperator_ofList_cons {c : Char} {rest : List Char} (hc : isOperatorChar c = false) :
    isOperator (String.ofList (c :: rest)) = false := by
  -- an operator is a single operator character, which `c` is not
  by_contra h
  obtain ⟨d, hd, hlist⟩ := toList_of_isOperator (Bool.of_not_eq_false h)
  rw [String.toList_ofList] at hlist
  obtain ⟨rfl, -⟩ := List.cons.inj hlist
  rw [hc] at hd
  exact absurd hd (by decide)

theorem isOperator_of_isBinding {word : String} (h : isBinding word = true) :
    isOperator word = true := by
  rcases isBinding_cases h with rfl | rfl <;> decide

theorem ne_of_not_isOperator {word symbol : String} (h : isOperator word = false)
    (hs : isOperator symbol = true) : word ≠ symbol := by
  rintro rfl
  rw [h] at hs
  exact absurd hs (by decide)

theorem isBinding_of_not_isOperator {word : String} (h : isOperator word = false) :
    isBinding word = false := by
  rw [← Bool.not_eq_true]
  intro hb
  rw [isOperator_of_isBinding hb] at h
  exact absurd h (by decide)

theorem isFunction_iff {word : String} : isFunction word = true ↔ word = "sqrt" := by
  simp [isFunction]

end Symbol

namespace Token

/-- A word that a scan can give: an operator, or a run of word characters. -/
def IsWord (word : String) : Prop :=
  Symbol.isOperator word = true ∨
    (Symbol.isOperator word = false ∧ word.toList ≠ [] ∧ ∀ c ∈ word.toList, isWordChar c = true)

-- the word that a text begins with, and what stands behind it
theorem cons_eq_word_append (c : Char) (rest : List Char) :
    c :: rest = (c :: rest.takeWhile isWordChar) ++ rest.dropWhile isWordChar := by
  rw [List.cons_append, List.takeWhile_append_dropWhile]

theorem isWordChar_of_not {c : Char} (hspace : ¬Text.isSpace c = true)
    (hop : ¬Symbol.isOperatorChar c = true) : isWordChar c = true := by
  rw [isWordChar, Bool.of_not_eq_true hspace, Bool.of_not_eq_true hop]
  rfl

theorem isWordChar_of_mem_word {c : Char} {rest : List Char} (hspace : ¬Text.isSpace c = true)
    (hop : ¬Symbol.isOperatorChar c = true) :
    ∀ d ∈ c :: rest.takeWhile isWordChar, isWordChar d = true :=
  List.forall_mem_cons.2 ⟨isWordChar_of_not hspace hop, fun _ hd => List.mem_takeWhile_imp hd⟩

theorem isWordChar_head?_dropWhile {cs : List Char} :
    ∀ c ∈ (cs.dropWhile isWordChar).head?, isWordChar c = false := by
  intro c hc
  have hnot := List.head?_dropWhile_not isWordChar cs
  rw [Option.mem_def.1 hc] at hnot
  exact hnot

end Token

/-! ## 2. Leaves -/

namespace Formula

/-- The kind of leaf that a word makes. -/
def kindOfText (word : String) : LeafKind :=
  if Symbol.isOperator word then .operator else leafKind (Token.kindOfWord word.toList)

/-- The leaf that a word makes. -/
def leafOfWord (word : String) : Node :=
  .leaf (kindOfText word) word

/-- Every token of a scan is a word, and its kind is the kind of its text. -/
theorem scanFrom_spec {position : Nat} {cs : List Char} {t : Token}
    (ht : t ∈ Token.scanFrom position cs) :
    Token.IsWord t.text ∧ leafKind t.kind = kindOfText t.text := by
  induction position, cs using Token.scanFrom.induct with
  | case1 position => simp [Token.scanFrom] at ht
  | case2 position c rest hspace ih =>
    rw [Token.scanFrom, if_pos hspace] at ht
    exact ih ht
  | case3 position c rest hspace hop ih =>
    rw [Token.scanFrom, if_neg hspace, if_pos hop] at ht
    rcases List.mem_cons.1 ht with rfl | ht
    · have h := Symbol.isOperator_singleton hop
      exact ⟨.inl h, by simp [kindOfText, h, leafKind]⟩
    · exact ih ht
  | case4 position c rest hspace hop word ih =>
    rw [Token.scanFrom, if_neg hspace, if_neg hop] at ht
    rcases List.mem_cons.1 ht with rfl | ht
    · -- the word goes on up to the next space or operator, so all its characters are like the first
      have hno : Symbol.isOperator (String.ofList word) = false :=
        Symbol.isOperator_ofList_cons (Bool.of_not_eq_true hop)
      refine ⟨.inr ⟨hno, ?_, ?_⟩, ?_⟩
      · rw [String.toList_ofList]
        exact List.cons_ne_nil _ _
      · rw [String.toList_ofList]
        exact Token.isWordChar_of_mem_word hspace hop
      · show leafKind (Token.kindOfWord word) = kindOfText (String.ofList word)
        rw [kindOfText, if_neg (by rw [hno]; decide), String.toList_ofList]
    · exact ih ht

theorem isWord_of_mem_words {formula word : String} (h : word ∈ Token.words formula) :
    Token.IsWord word := by
  obtain ⟨t, ht, rfl⟩ := List.mem_map.1 h
  exact (scanFrom_spec ht).1

/-- The leaves of a formula are those of its words. -/
theorem leaves_scan (formula : String) :
    leaves (Token.scan formula) = (Token.words formula).map leafOfWord := by
  rw [leaves, Token.words, List.map_map]
  apply List.map_congr_left
  intro t ht
  rw [Function.comp_apply, leafOfToken, leafOfWord, (scanFrom_spec ht).2]

/-! ## 3. What a pass asks of a leaf -/

/-- Only operators make operator leaves: a run of word characters is a number or an identifier. -/
theorem kindOfText_eq_operator_iff {word : String} :
    kindOfText word = .operator ↔ Symbol.isOperator word = true := by
  by_cases h : Symbol.isOperator word = true
  · rw [kindOfText, if_pos h]
    exact ⟨fun _ => h, fun _ => rfl⟩
  · rw [kindOfText, if_neg h]
    refine ⟨fun hk => ?_, fun hop => absurd hop h⟩
    -- the first character decides between number and identifier; neither is an operator
    unfold Token.kindOfWord at hk
    split at hk
    · split at hk <;> exact absurd hk (by decide)
    · exact absurd hk (by decide)

theorem leafOfWord_of_isOperator {word : String} (h : Symbol.isOperator word = true) :
    leafOfWord word = .operator word := by
  rw [leafOfWord, kindOfText_eq_operator_iff.2 h]

theorem leafOfWord_of_not_isOperator {word : String} (h : Symbol.isOperator word = false) :
    leafOfWord word = .identifier word ∨ leafOfWord word = .number word := by
  rw [leafOfWord, kindOfText, if_neg (by rw [h]; decide)]
  unfold Token.kindOfWord
  split
  · split
    · exact .inr rfl
    · exact .inl rfl
  · exact .inl rfl

theorem leafOfWord_eq_operator_iff {word symbol : String} (hs : Symbol.isOperator symbol = true) :
    leafOfWord word = .operator symbol ↔ word = symbol := by
  constructor
  · intro h
    exact (Node.leaf.inj h).2
  · rintro rfl
    exact leafOfWord_of_isOperator hs

theorem leafOfWord_eq_function_iff {word : String} :
    leafOfWord word = .identifier "sqrt" ↔ word = "sqrt" := by
  constructor
  · intro h
    exact (Node.leaf.inj h).2
  · rintro rfl
    decide

/-! ## 4. Special leaves -/

theorem isOpening_iff {n : Node} : n.isOpening = true ↔ n = .operator "(" := by
  constructor
  · intro h
    unfold Node.isOpening at h
    split at h
    · rw [eq_of_beq h]
    · exact absurd h (by decide)
  · rintro rfl
    rfl

theorem isClosing_iff {n : Node} : n.isClosing = true ↔ n = .operator ")" := by
  constructor
  · intro h
    unfold Node.isClosing at h
    split at h
    · rw [eq_of_beq h]
    · exact absurd h (by decide)
  · rintro rfl
    rfl

theorem binding?_eq_some_iff {n : Node} {kind : BinaryKind} :
    binding? n = some kind ↔ n = .operator (symbolOf kind) := by
  constructor
  · intro h
    unfold binding? at h
    split at h
    · obtain rfl := Option.some.inj h
      rfl
    · obtain rfl := Option.some.inj h
      rfl
    · exact absurd h (by simp)
  · rintro rfl
    cases kind <;> rfl

theorem functionName?_eq_some_iff {n : Node} {name : String} :
    functionName? n = some name ↔ n = .identifier "sqrt" ∧ name = "sqrt" := by
  constructor
  · intro h
    unfold functionName? at h
    split at h
    · split at h
      · next hf =>
        obtain rfl := Option.some.inj h
        rw [Symbol.isFunction_iff.1 hf]
        exact ⟨rfl, rfl⟩
      · exact absurd h (by simp)
    · exact absurd h (by simp)
  · rintro ⟨rfl, rfl⟩
    decide

@[simp]
theorem isOpening_leafOfWord (word : String) : (leafOfWord word).isOpening = (word == "(") := by
  rw [Bool.eq_iff_iff, isOpening_iff, leafOfWord_eq_operator_iff (by decide), beq_iff_eq]

@[simp]
theorem isClosing_leafOfWord (word : String) : (leafOfWord word).isClosing = (word == ")") := by
  rw [Bool.eq_iff_iff, isClosing_iff, leafOfWord_eq_operator_iff (by decide), beq_iff_eq]

@[simp]
theorem isSome_binding?_leafOfWord (word : String) :
    (binding? (leafOfWord word)).isSome = Symbol.isBinding word := by
  rw [Bool.eq_iff_iff, Option.isSome_iff_exists]
  constructor
  · rintro ⟨kind, h⟩
    rw [binding?_eq_some_iff] at h
    obtain rfl := (leafOfWord_eq_operator_iff (by cases kind <;> decide)).1 h
    cases kind <;> decide
  · intro h
    rcases Symbol.isBinding_cases h with rfl | rfl
    · exact ⟨.power, by decide⟩
    · exact ⟨.fraction, by decide⟩

@[simp]
theorem isSome_functionName?_leafOfWord (word : String) :
    (functionName? (leafOfWord word)).isSome = Symbol.isFunction word := by
  rw [Bool.eq_iff_iff, Option.isSome_iff_exists, Symbol.isFunction_iff]
  constructor
  · rintro ⟨name, h⟩
    exact leafOfWord_eq_function_iff.1 (functionName?_eq_some_iff.1 h).1
  · rintro rfl
    exact ⟨"sqrt", by decide⟩

end Formula

end Formulary
