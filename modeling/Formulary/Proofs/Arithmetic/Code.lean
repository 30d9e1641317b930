import Formulary.Proofs.Arithmetic.Grammar
import Formulary.Proofs.Word
import Mathlib.Data.List.Chain

/-!
# Code as expressions

Code is a text.  It is cut into words like a formula, but a comma is a word by itself too
(`lexemes`); and it is read with calls of the power function, with signs that bind most tightly, and
with `*` and `/` on one level, from left to right.

An expression is found again in the text that is made of its words (`lexemes_textOf`): two words that
are no signs never stand side by side in it.
-/

namespace Formulary.Arithmetic

/-! ## 1. Words of code -/

/-- Is the character a word of code by itself? -/
def isSymbolChar (c : Char) : Bool :=
  Symbol.isOperatorChar c || c == ','

/-- Can the character be part of a longer word? -/
def isWordChar (c : Char) : Bool :=
  !Text.isSpace c && !isSymbolChar c

/-- The words of code. -/
def lexemes : List Char → List String
  | [] => []
  | c :: rest =>
    if Text.isSpace c then lexemes rest
    else if isSymbolChar c then String.singleton c :: lexemes rest
    else String.ofList (c :: rest.takeWhile isWordChar) :: lexemes (rest.dropWhile isWordChar)
termination_by cs => cs.length
decreasing_by
  · simp
  · simp
  · exact Nat.lt_succ_of_le (List.dropWhile_sublist isWordChar).length_le

/-- Is the word a sign of code? -/
def isSymbol (word : String) : Bool :=
  Symbol.isOperator word || word == ","

/-- Is the word a name or a number of code: a run of other characters? -/
def isCodeName (word : String) : Bool :=
  !word.toList.isEmpty && word.toList.all isWordChar

theorem ne_comma_of_isCodeName {word : String} (h : isCodeName word = true) : word ≠ "," := by
  rintro rfl
  exact absurd h (by decide)

theorem isCodeName_extend {name text : String} (h : isCodeName name = true)
    (htext : text.toList.all isWordChar = true) : isCodeName (name ++ text) = true := by
  obtain ⟨hne, hall⟩ := Bool.and_eq_true_iff.1 h
  have hne' : (name.toList ++ text.toList).isEmpty = false := by
    rw [Bool.not_eq_true', List.isEmpty_eq_false_iff] at hne
    rw [List.isEmpty_eq_false_iff]
    exact List.append_ne_nil_of_left_ne_nil hne _
  rw [isCodeName, String.toList_append, List.all_append, hall, htext, hne']
  rfl

/-- The roles of the words of code, in which the power function has the given name. -/
def codeRules (powerFunction : String) (value : String → ℚ) (power : ℚ → ℚ → ℚ) : Rules where
  operand word := if isCodeName word then some (value word) else none
  tight _ := none
  product word := if word = "*" then some (· * ·) else if word = "/" then some (· / ·) else none
  call word := if word = powerFunction then some power else none

theorem codeRules_clear {powerFunction : String} (h : isCodeName powerFunction = true)
    (value : String → ℚ) (power : ℚ → ℚ → ℚ) :
    (codeRules powerFunction value power).Clear where
  operand := by
    intro word x hx
    have hname : isCodeName word = true := by
      by_contra hnot
      simp [codeRules, hnot] at hx
    refine ⟨?_, ?_, ?_⟩ <;> rintro rfl <;> exact absurd hname (by decide)
  product _ := rfl
  mark := by
    simp [codeRules]
  call := by
    intro word f hf
    by_cases hword : word = powerFunction
    · exact ⟨value word, by simp [codeRules, hword, h]⟩
    · simp [codeRules, hword] at hf

/-! ## 2. Words that stay apart -/

/-- Words of code of which no two side by side would run together in a text. -/
structure Separate (words : List String) : Prop where
  each : ∀ word ∈ words, isSymbol word = true ∨ isCodeName word = true
  apart : words.IsChain fun a b => isSymbol a = true ∨ isSymbol b = true

theorem Separate.nil : Separate [] :=
  ⟨by simp, .nil⟩

theorem Separate.singleton {word : String} (h : isCodeName word = true) : Separate [word] :=
  ⟨by simpa using .inr h, .singleton _⟩

-- a sign keeps the words on its two sides apart
theorem Separate.join {xs ys : List String} {sign : String} (hx : Separate xs)
    (hsign : isSymbol sign = true) (hy : Separate ys) : Separate (xs ++ sign :: ys) := by
  refine ⟨?_, ?_⟩
  · intro word hword
    rcases List.mem_append.1 hword with hword | hword
    · exact hx.each word hword
    · rcases List.mem_cons.1 hword with rfl | hword
      · exact .inl hsign
      · exact hy.each word hword
  · refine hx.apart.append (hy.apart.cons fun _ _ => .inl hsign) ?_
    intro a _ b hb
    rw [← Option.some.inj hb]
    exact .inr hsign

theorem Reads.separate {powerFunction : String} (hpower : isCodeName powerFunction = true)
    {value : String → ℚ} {power : ℚ → ℚ → ℚ} {level : Level} {words : List String} {v : ℚ}
    (h : Reads (codeRules powerFunction value power) level words v) : Separate words := by
  induction h with
  | @operand word v h =>
    apply Separate.singleton
    by_contra hnot
    simp [codeRules, hnot] at h
  | bracket _ ih =>
    exact (Separate.nil.join (by decide) ih).join (by decide) .nil
  | @call name f xs ys x y h _ _ ihx ihy =>
    have hname : name = powerFunction := by
      by_contra hnot
      simp [codeRules, hnot] at h
    -- the name, the brackets and the comma take turns with the two arguments
    rw [hname]
    exact ((((Separate.singleton hpower).join (by decide) ihx).join (by decide) ihy).join
      (by decide) .nil)
  | tight h => exact absurd h (by simp [codeRules])
  | @product op f xs ys x y h _ _ ihx ihy =>
    have hop : isSymbol op = true := by
      by_cases htimes : op = "*"
      · rw [htimes]
        decide
      · by_cases hover : op = "/"
        · rw [hover]
          decide
        · simp [codeRules, htimes, hover] at h
    exact ihx.join hop ihy
  | plus _ ih | minus _ ih => exact Separate.nil.join (by decide) ih
  | add _ _ ihx ihy | sub _ _ ihx ihy => exact ihx.join (by decide) ihy
  | ofAtom _ ih | ofChain _ ih | ofSigned _ ih | ofProduct _ ih => exact ih

/-! ## 3. The text of an expression -/

/-- The word as it is written: a comma is followed by a space. -/
def spaced (word : String) : String :=
  if word = "," then ", " else word

/-- The text of some words. -/
def textOf (words : List String) : String :=
  String.join (words.map spaced)

theorem textOf_nil : textOf [] = "" := rfl

theorem textOf_append (xs ys : List String) : textOf (xs ++ ys) = textOf xs ++ textOf ys := by
  rw [textOf, textOf, textOf, List.map_append, String.join_append]

theorem textOf_cons (word : String) (rest : List String) :
    textOf (word :: rest) = spaced word ++ textOf rest := by
  rw [textOf, textOf, List.map_cons, String.join_cons]

theorem spaced_of_ne {word : String} (h : word ≠ ",") : spaced word = word :=
  if_neg h

theorem textOf_singleton {word : String} (h : word ≠ ",") : textOf [word] = word := by
  rw [textOf, List.map_singleton, spaced_of_ne h]
  simp

theorem toList_textOf_cons (word : String) (rest : List String) :
    (textOf (word :: rest)).toList = (spaced word).toList ++ (textOf rest).toList := by
  rw [textOf_cons, String.toList_append]

theorem isSpace_of_isOperatorChar {c : Char} (h : Symbol.isOperatorChar c = true) :
    Text.isSpace c = false := by
  simp only [Symbol.isOperatorChar, Symbol.operatorChars, List.contains_eq_mem,
    decide_eq_true_eq, List.mem_cons, List.not_mem_nil, or_false] at h
  rcases h with rfl | rfl | rfl | rfl | rfl | rfl | rfl <;> decide

-- what a sign of code is written as begins with a character that ends a word
theorem head?_spaced_symbol {word : String} (h : isSymbol word = true) :
    ∃ c, (spaced word).toList.head? = some c ∧ isWordChar c = false := by
  by_cases hcomma : word = ","
  · rw [hcomma]
    exact ⟨',', rfl, by decide⟩
  · have hoperator : Symbol.isOperator word = true := by simpa [isSymbol, hcomma] using h
    obtain ⟨c, hc, hlist⟩ := Symbol.toList_of_isOperator hoperator
    rw [spaced, if_neg hcomma, hlist]
    exact ⟨c, rfl, by rw [isWordChar, isSymbolChar, hc, Bool.true_or, Bool.not_true, Bool.and_false]⟩

theorem lexemes_symbol {word : String} (h : isSymbol word = true) (rest : List Char) :
    lexemes ((spaced word).toList ++ rest) = word :: lexemes rest := by
  by_cases hcomma : word = ","
  · rw [hcomma]
    -- the space after a comma is skipped
    show lexemes (',' :: ' ' :: rest) = "," :: lexemes rest
    rw [lexemes, if_neg (by decide), if_pos (by decide), lexemes, if_pos (by decide)]
    rfl
  · have hoperator : Symbol.isOperator word = true := by simpa [isSymbol, hcomma] using h
    obtain ⟨c, hc, hlist⟩ := Symbol.toList_of_isOperator hoperator
    have hsingle : String.singleton c = word := by
      rw [← String.toList_inj, hlist, String.toList_singleton]
    rw [spaced, if_neg hcomma, hlist, List.singleton_append, lexemes,
      if_neg (by rw [isSpace_of_isOperatorChar hc]; decide), if_pos (by simp [isSymbolChar, hc]),
      hsingle]

-- a word ends where a character comes that cannot be part of it
theorem span_isWordChar {cs rest : List Char} (hcs : ∀ c ∈ cs, isWordChar c = true)
    (hrest : ∀ c ∈ rest.head?, isWordChar c = false) :
    (cs ++ rest).takeWhile isWordChar = cs ∧ (cs ++ rest).dropWhile isWordChar = rest := by
  rw [List.takeWhile_append_of_pos hcs, List.dropWhile_append_of_pos hcs]
  cases rest with
  | nil => exact ⟨by simp, rfl⟩
  | cons c rest =>
    have hc := hrest c rfl
    rw [List.takeWhile_cons_of_neg (by rw [hc]; decide), List.append_nil,
      List.dropWhile_cons_of_neg (by rw [hc]; decide)]
    exact ⟨rfl, rfl⟩

theorem lexemes_name {word : String} (h : isCodeName word = true) {rest : List Char}
    (hrest : ∀ c ∈ rest.head?, isWordChar c = false) :
    lexemes ((spaced word).toList ++ rest) = word :: lexemes rest := by
  obtain ⟨hne, hall⟩ := Bool.and_eq_true_iff.1 h
  have hcomma : word ≠ "," := ne_comma_of_isCodeName h
  rw [spaced, if_neg hcomma]
  cases hlist : word.toList with
  | nil => simp [hlist] at hne
  | cons c cs =>
    rw [hlist, List.all_cons, Bool.and_eq_true_iff] at hall
    obtain ⟨hc, hcs⟩ := hall
    rw [isWordChar, Bool.and_eq_true_iff] at hc
    obtain ⟨htake, hdrop⟩ := span_isWordChar (List.all_eq_true.1 hcs) hrest
    rw [List.cons_append, lexemes, if_neg (by simpa using hc.1), if_neg (by simpa using hc.2),
      htake, hdrop, ← hlist, String.ofList_toList]

/-- Words that stay apart are found again in their text. -/
theorem lexemes_textOf {words : List String} (h : Separate words) :
    lexemes (textOf words).toList = words := by
  induction words with
  | nil => rw [show (textOf []).toList = [] from rfl, lexemes]
  | cons word rest ih =>
    have hrest : Separate rest :=
      ⟨fun w hw => h.each w (List.mem_cons_of_mem _ hw), h.apart.tail⟩
    rw [toList_textOf_cons]
    by_cases hword : isSymbol word = true
    · rw [lexemes_symbol hword, ih hrest]
    · have hname : isCodeName word = true := (h.each word List.mem_cons_self).resolve_left hword
      rw [lexemes_name hname, ih hrest]
      -- the next word is a sign, or there is none
      cases rest with
      | nil => simp [textOf]
      | cons next more =>
        have hnext : isSymbol next = true :=
          (List.isChain_cons_cons.1 h.apart).1.resolve_left hword
        obtain ⟨c, hhead, hc⟩ := head?_spaced_symbol hnext
        rw [toList_textOf_cons, List.head?_append, hhead]
        intro d hd
        rw [← Option.some.inj hd]
        exact hc

end Formulary.Arithmetic
