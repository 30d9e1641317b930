import Formulary.Proofs.Arithmetic.Code
import Formulary.Proofs.Word

/-!
# The words of a text made of words

When words are written one after the other and the text is cut into words again, operators come back
as they were, but operands with nothing between them come back as one word (`joined`).  So the words
come back unchanged exactly if no operand stands directly behind another; otherwise there are fewer
operands than before (`operands_joined_iff`).
-/

namespace Formulary.Token

/-! ## 1. Cutting a text -/

/-- The words of a text. -/
def wordsOf (cs : List Char) : List String :=
  (scanFrom 0 cs).map text

-- where the text stands makes no difference to its words
theorem map_text_scanFrom (position : Nat) (cs : List Char) :
    (scanFrom position cs).map text = wordsOf cs := by
  suffices h : ∀ q, (scanFrom position cs).map text = (scanFrom q cs).map text from h 0
  induction position, cs using scanFrom.induct with
  | case1 position =>
    intro q
    rw [scanFrom, scanFrom]
  | case2 position c rest hspace ih =>
    intro q
    rw [scanFrom, if_pos hspace, scanFrom, if_pos hspace]
    exact ih (q + 1)
  | case3 position c rest hspace hop ih =>
    intro q
    rw [scanFrom, if_neg hspace, if_pos hop, scanFrom, if_neg hspace, if_pos hop, List.map_cons,
      List.map_cons, ih (q + 1)]
  | case4 position c rest hspace hop word ih =>
    intro q
    rw [scanFrom, if_neg hspace, if_neg hop, scanFrom, if_neg hspace, if_neg hop, List.map_cons,
      List.map_cons, ih (q + word.length)]

theorem words_eq (source : String) : words source = wordsOf source.toList := rfl

theorem wordsOf_nil : wordsOf [] = [] := by
  rw [wordsOf, scanFrom, List.map_nil]

theorem wordsOf_operator {c : Char} (hc : Symbol.isOperatorChar c = true) (rest : List Char) :
    wordsOf (c :: rest) = String.singleton c :: wordsOf rest := by
  have hspace := Arithmetic.isSpace_of_isOperatorChar hc
  rw [wordsOf, scanFrom, if_neg (by rw [hspace]; decide), if_pos hc, List.map_cons,
    map_text_scanFrom]

-- a run of word characters goes on as far as the text has them
theorem wordsOf_run {run : List Char} (hne : run ≠ []) (hrun : ∀ c ∈ run, isWordChar c = true)
    (rest : List Char) :
    wordsOf (run ++ rest) = String.ofList (run ++ rest.takeWhile isWordChar) ::
      wordsOf (rest.dropWhile isWordChar) := by
  cases run with
  | nil => exact absurd rfl hne
  | cons c run =>
    obtain ⟨hc, hrun⟩ := List.forall_mem_cons.1 hrun
    rw [isWordChar, Bool.and_eq_true_iff, Bool.not_eq_true', Bool.not_eq_true'] at hc
    rw [wordsOf, List.cons_append, scanFrom, if_neg (by rw [hc.1]; decide),
      if_neg (by rw [hc.2]; decide), List.map_cons, map_text_scanFrom,
      List.takeWhile_append_of_pos hrun, List.dropWhile_append_of_pos hrun]
    rfl

theorem wordsOf_ne_nil {cs : List Char} {c : Char} (hc : c ∈ cs) (hspace : Text.isSpace c = false) :
    wordsOf cs ≠ [] := by
  induction cs with
  | nil => exact absurd hc List.not_mem_nil
  | cons d rest ih =>
    rw [wordsOf, scanFrom]
    split
    · next hd =>
      -- the character is not the first one, which is skipped
      rw [map_text_scanFrom]
      apply ih
      rcases List.mem_cons.1 hc with rfl | hc
      · rw [hspace] at hd
        exact absurd hd (by decide)
      · exact hc
    · split <;> simp

/-! ## 2. Words that come back -/

/-- The words that are read back from a text of some words: operands with nothing between them have
become one. -/
def joined : List String → List String
  | [] => []
  | word :: rest =>
    if Symbol.isOperator word then word :: joined rest
    else match joined rest with
      | [] => [word]
      | next :: more =>
        if Symbol.isOperator next then word :: next :: more else (word ++ next) :: more

theorem isWordChar_of_isOperatorChar {c : Char} (h : Symbol.isOperatorChar c = true) :
    isWordChar c = false := by
  rw [isWordChar, h, Bool.not_true, Bool.and_false]

-- behind an operand the next word is an operator, or goes on with the operand
theorem wordsOf_operand {word : String} (hne : word.toList ≠ [])
    (hword : ∀ c ∈ word.toList, isWordChar c = true) {rest : List Char}
    (hrest : ∀ c ∈ rest.head?, Text.isSpace c = false) :
    wordsOf (word.toList ++ rest) = match wordsOf rest with
      | [] => [word]
      | next :: more =>
        if Symbol.isOperator next then word :: next :: more else (word ++ next) :: more := by
  rw [wordsOf_run hne hword]
  cases rest with
  | nil => simp [wordsOf_nil]
  | cons c rest =>
    by_cases hop : Symbol.isOperatorChar c = true
    · have hc := isWordChar_of_isOperatorChar hop
      rw [List.takeWhile_cons_of_neg (by rw [hc]; decide),
        List.dropWhile_cons_of_neg (by rw [hc]; decide), wordsOf_operator hop]
      dsimp only
      rw [if_pos (Symbol.isOperator_singleton hop), List.append_nil, String.ofList_toList]
    · have hc : isWordChar c = true := by
        rw [isWordChar, hrest c rfl, Bool.of_not_eq_true hop]
        rfl
      have hrun := wordsOf_run (List.cons_ne_nil c []) (by simpa using hc) rest
      rw [List.singleton_append, List.singleton_append] at hrun
      rw [hrun]
      dsimp only
      rw [if_neg (by rw [Symbol.isOperator_ofList_cons (Bool.of_not_eq_true hop)]; decide),
        List.takeWhile_cons_of_pos hc, List.dropWhile_cons_of_pos hc]
      simp

theorem IsWord.isSpace {word : String} (h : IsWord word) :
    ∀ c ∈ word.toList, Text.isSpace c = false := by
  intro c hc
  rcases h with hop | ⟨-, -, hchars⟩
  · obtain ⟨d, hd, hlist⟩ := Symbol.toList_of_isOperator hop
    rw [hlist] at hc
    rw [List.mem_singleton.1 hc]
    exact Arithmetic.isSpace_of_isOperatorChar hd
  · have hchar := hchars c hc
    rw [isWordChar, Bool.and_eq_true_iff, Bool.not_eq_true'] at hchar
    exact hchar.1

theorem isSpace_of_mem_join {list : List String} (h : ∀ word ∈ list, IsWord word) :
    ∀ c ∈ (String.join list).toList, Text.isSpace c = false := by
  induction list with
  | nil => simp
  | cons word rest ih =>
    obtain ⟨hword, hrest⟩ := List.forall_mem_cons.1 h
    intro c hc
    rw [String.join_cons, String.toList_append] at hc
    exact (List.mem_append.1 hc).elim (hword.isSpace c) (ih hrest c)

/-- Words written one after the other come back joined. -/
theorem words_join {list : List String} (h : ∀ word ∈ list, IsWord word) :
    words (String.join list) = joined list := by
  rw [words_eq]
  induction list with
  | nil => rw [String.join_nil, joined, String.toList_empty, wordsOf_nil]
  | cons word rest ih =>
    obtain ⟨hword, hrest⟩ := List.forall_mem_cons.1 h
    rw [String.join_cons, String.toList_append, joined]
    rcases hword with hop | ⟨hop, hne, hchars⟩
    · obtain ⟨c, hc, hlist⟩ := Symbol.toList_of_isOperator hop
      have hsingle : String.singleton c = word := by
        rw [← String.ofList_toList (s := word), hlist]
        rfl
      rw [if_pos hop, hlist, List.singleton_append, wordsOf_operator hc, ih hrest, hsingle]
    · rw [if_neg (by rw [hop]; decide), ← ih hrest]
      exact wordsOf_operand hne hchars fun c hc =>
        isSpace_of_mem_join hrest c (List.mem_of_mem_head? hc)

/-! ## 3. Operands that stay apart -/

/-- Is the word an operand: no operator? -/
def isOperand (word : String) : Bool :=
  !Symbol.isOperator word

/-- Goes through a list of which some elements are operands, and stops at an operand directly behind
another.  The flag says whether an operand stands before the list, and the result whether one stands
at its end. -/
def apart {α : Type} (operand : α → Bool) (before : Bool) : List α → Option Bool
  | [] => some before
  | a :: rest => if before && operand a then none else apart operand (operand a) rest

theorem apart_cons {α : Type} (operand : α → Bool) (before : Bool) (a : α) (rest : List α) :
    apart operand before (a :: rest) =
      if before && operand a then none else apart operand (operand a) rest := rfl

theorem apart_append {α : Type} (operand : α → Bool) (before : Bool) (xs ys : List α) :
    apart operand before (xs ++ ys) =
      (apart operand before xs).bind fun after => apart operand after ys := by
  induction xs generalizing before with
  | nil => rfl
  | cons a rest ih =>
    rw [List.cons_append, apart, apart]
    split
    · rfl
    · exact ih _

-- an element that is no operand forgets what stands before it
theorem apart_cons_of_not {α : Type} {operand : α → Bool} {a : α} (h : operand a = false)
    (before : Bool) (rest : List α) : apart operand before (a :: rest) = apart operand false rest := by
  rw [apart, h, Bool.and_false, if_neg (by decide)]

-- behind a sign nothing is left of what stood before it
theorem apart_sign {α : Type} {operand : α → Bool} {sign : α} (h : operand sign = false)
    (before : Bool) (xs ys : List α) : apart operand before (xs ++ sign :: ys) =
      (apart operand before xs).bind fun _ => apart operand false ys := by
  rw [apart_append]
  congr 1
  funext last
  exact apart_cons_of_not h last ys

theorem apart_enclosed {α : Type} {operand : α → Bool} {opening closing : α}
    (ho : operand opening = false) (hc : operand closing = false) (xs : List α) :
    apart operand false (opening :: xs ++ [closing]) =
      (apart operand false xs).bind fun _ => some false := by
  rw [List.cons_append, apart_cons_of_not ho, apart_sign hc]
  rfl

-- brackets around an operand make no difference in front of a sign
theorem bind_apart_enclosed {α : Type} {operand : α → Bool} {opening closing : α}
    (ho : operand opening = false) (hc : operand closing = false) (xs : List α) (k : Option Bool) :
    (apart operand false (opening :: xs ++ [closing])).bind (fun _ => k) =
      (apart operand false xs).bind fun _ => k := by
  rw [apart_enclosed ho hc, Option.bind_assoc]
  rfl

theorem apart_eq_none_iff {α : Type} {operand : α → Bool} {before : Bool} {list : List α} :
    apart operand before list = none ↔
      (before = true ∧ ∃ a ∈ list.head?, operand a = true) ∨
        ∃ front a b back, list = front ++ a :: b :: back ∧ operand a = true ∧ operand b = true := by
  induction list generalizing before with
  | nil => simp [apart]
  | cons a rest ih =>
    rw [apart]
    by_cases hfirst : (before && operand a) = true
    · rw [if_pos hfirst]
      exact iff_of_true rfl (.inl ⟨(Bool.and_eq_true_iff.1 hfirst).1, a, rfl,
        (Bool.and_eq_true_iff.1 hfirst).2⟩)
    · rw [if_neg hfirst, ih]
      constructor
      · rintro (⟨ha, b, hb, hb'⟩ | ⟨front, b, c, back, rfl, hb, hc⟩)
        · obtain ⟨back, rfl⟩ := List.head?_eq_some_iff.1 hb
          exact .inr ⟨[], a, b, back, rfl, ha, hb'⟩
        · exact .inr ⟨a :: front, b, c, back, rfl, hb, hc⟩
      · rintro (⟨hbefore, b, hb, hb'⟩ | ⟨front, b, c, back, hsplit, hb, hc⟩)
        · obtain rfl := Option.some.inj hb
          exact absurd (by rw [hbefore, hb']; rfl) hfirst
        · cases front with
          | nil =>
            obtain ⟨rfl, rfl⟩ := List.cons.inj hsplit
            exact .inl ⟨hb, c, rfl, hc⟩
          | cons _ front =>
            obtain ⟨-, rfl⟩ := List.cons.inj hsplit
            exact .inr ⟨front, b, c, back, rfl, hb, hc⟩

/-- Operands that stay apart come back as they were. -/
theorem joined_of_apart {list : List String} {before after : Bool}
    (h : apart isOperand before list = some after) : joined list = list := by
  induction list generalizing before with
  | nil => rfl
  | cons word rest ih =>
    rw [apart] at h
    split at h
    · exact absurd h (by simp)
    · rw [joined, ih h]
      split
      · rfl
      · next hop =>
        -- the operand is not followed by another
        cases rest with
        | nil => rfl
        | cons next more =>
          dsimp only
          rw [isOperand, Bool.of_not_eq_true hop, apart] at h
          cases hnext : Symbol.isOperator next with
          | true => rfl
          | false => simp [isOperand, hnext] at h

theorem isOperator_append {word : String} (h : IsWord word) (hop : Symbol.isOperator word = false)
    (more : String) : Symbol.isOperator (word ++ more) = false := by
  rcases h with hop' | ⟨-, hne, hchars⟩
  · rw [hop] at hop'
    exact absurd hop' (by decide)
  · obtain ⟨c, rest, hlist⟩ := List.exists_cons_of_ne_nil hne
    have hc := hchars c (by rw [hlist]; exact List.mem_cons_self)
    rw [isWordChar, Bool.and_eq_true_iff, Bool.not_eq_true', Bool.not_eq_true'] at hc
    rw [← String.ofList_toList (s := word ++ more), String.toList_append, hlist]
    exact Symbol.isOperator_ofList_cons hc.2

theorem head?_joined {word : String} (h : IsWord word) (hop : Symbol.isOperator word = false)
    (rest : List String) : ∃ first more, joined (word :: rest) = first :: more ∧
      Symbol.isOperator first = false := by
  rw [joined, if_neg (by rw [hop]; decide)]
  split
  · exact ⟨word, [], rfl, hop⟩
  · split
    · exact ⟨word, _, rfl, hop⟩
    · exact ⟨_, _, rfl, isOperator_append h hop _⟩

/-- No operands are gained, and some are lost if two of them touch. -/
theorem countP_joined {list : List String} (h : ∀ word ∈ list, IsWord word) :
    (joined list).countP isOperand ≤ list.countP isOperand ∧
      (apart isOperand false list = none →
        (joined list).countP isOperand < list.countP isOperand) := by
  induction list with
  | nil => exact ⟨Nat.le_refl _, fun hnone => absurd hnone (by simp [apart])⟩
  | cons word rest ih =>
    obtain ⟨hword, hrest⟩ := List.forall_mem_cons.1 h
    obtain ⟨hle, hlt⟩ := ih hrest
    cases hop : Symbol.isOperator word with
    | true =>
      have hno : isOperand word = false := by rw [isOperand, hop]; rfl
      rw [joined, if_pos hop, apart_cons_of_not hno, List.countP_cons_of_neg (by simp [hno]),
        List.countP_cons_of_neg (by simp [hno])]
      exact ⟨hle, hlt⟩
    | false =>
      have hyes : isOperand word = true := by rw [isOperand, hop]; rfl
      have hstep : apart isOperand false (word :: rest) = apart isOperand true rest := by
        rw [apart, hyes, Bool.false_and, if_neg (by decide)]
      rw [hstep, List.countP_cons_of_pos hyes, joined, if_neg (by rw [hop]; decide)]
      cases rest with
      | nil => exact ⟨by simp [joined, hyes], fun hnone => absurd hnone (by simp [apart])⟩
      | cons next more =>
        cases hnext : Symbol.isOperator next with
        | true =>
          -- the operand stays by itself
          have hno : isOperand next = false := by rw [isOperand, hnext]; rfl
          rw [apart_cons_of_not hno] at hlt
          rw [joined, if_pos hnext] at hle hlt ⊢
          dsimp only
          rw [if_pos hnext, List.countP_cons_of_pos hyes, apart_cons_of_not hno]
          exact ⟨by omega, fun hnone => by have := hlt hnone; omega⟩
        | false =>
          -- the operand and what comes back behind it are one word
          obtain ⟨first, tail, hfirst, hop'⟩ :=
            head?_joined (hrest next List.mem_cons_self) hnext more
          have hyes' : isOperand first = true := by rw [isOperand, hop']; rfl
          have hboth : isOperand (word ++ first) = true := by
            rw [isOperand, isOperator_append hword hop]
            rfl
          rw [hfirst, List.countP_cons_of_pos hyes'] at hle
          rw [hfirst]
          dsimp only
          rw [if_neg (by rw [hop']; decide), List.countP_cons_of_pos hboth]
          exact ⟨by omega, fun _ => by omega⟩

/-- **Exactly the operands that stay apart come back.** -/
theorem operands_joined_iff {list : List String} (h : ∀ word ∈ list, IsWord word) :
    (joined list).filter isOperand = list.filter isOperand ↔ apart isOperand false list ≠ none := by
  constructor
  · intro heq hnone
    have hlt := (countP_joined h).2 hnone
    rw [List.countP_eq_length_filter, List.countP_eq_length_filter, heq] at hlt
    exact absurd hlt (Nat.lt_irrefl _)
  · intro hsome
    obtain ⟨after, hafter⟩ := Option.ne_none_iff_exists'.1 hsome
    rw [joined_of_apart hafter]

end Formulary.Token
