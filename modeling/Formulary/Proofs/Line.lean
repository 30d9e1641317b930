import Formulary.Proofs.Rendering
import Formulary.Proofs.Rescan

/-!
# The words of a rendered line

The line rendered for a formula without square roots is made of words: those of the formula, and
the `*` and brackets that printing adds (`shown`).  An operand of `^` is put in brackets if it is a
pair, an operand of `/` if it is a fraction (`standsAlone`).  Cutting the line gives these words back,
except that operands with nothing between them become one (`words_render`).
-/

namespace Formulary.Code

open Formula
open Token (wordsOf)

/-! ## 1. The words of a line -/

/-- Is the node a pair? -/
def isPair : Node → Bool
  | .binary .. => true
  | _ => false

/-- Does a node stand in a pair of the kind without brackets? -/
def standsAlone : BinaryKind → Node → Bool
  | .power, n => !isPair n
  | .fraction, n => isAtomic n

theorem standsAlone_atom {n : Node} (h : Shape .atom n) (kind : BinaryKind) :
    standsAlone kind n = true := by
  cases h with
  | @word word h =>
    rcases h.leaf with hleaf | hleaf
    · rw [hleaf]
      cases kind <;> rfl
    · rw [hleaf]
      cases kind <;> rfl
  | group =>
    cases kind with
    | power => rfl
    | fraction => exact Arithmetic.isAtomic_group _

/-- The words of an operand of a pair, given those of the node. -/
def encloseIn (kind : BinaryKind) (n : Node) (words : List String) : List String :=
  if standsAlone kind n then words else "(" :: words ++ [")"]

theorem encloseIn_atom {n : Node} (h : Shape .atom n) (kind : BinaryKind) (words : List String) :
    encloseIn kind n words = words :=
  if_pos (standsAlone_atom h kind)

mutual

/-- The words printed for a node, after a value or not. -/
def shown (after : Bool) : Node → List String
  | .leaf _ text => timesIf (after && text == "(") ++ [text]
  | .row _ items => shownRow after items
  | .binary kind left right =>
    timesIf after ++ (encloseIn kind left (shown false left) ++ symbolOf kind ::
      encloseIn kind right (shown false right))
  | .unary .. | .bare | .missing | .stray _ => []

/-- The words printed for a row. -/
def shownRow (after : Bool) : List Node → List String
  | [] => []
  | n :: rest => shown after n ++ shownRow (Context.seenAll after (trail n)) rest

end

theorem shownRow_singleton (after : Bool) (n : Node) : shownRow after [n] = shown after n := by
  rw [shownRow, shownRow, List.append_nil]

theorem shownRow_append (after : Bool) (xs ys : List Node) :
    shownRow after (xs ++ ys) =
      shownRow after xs ++ shownRow (Context.seenAll after (trailRow xs)) ys := by
  induction xs generalizing after with
  | nil => rw [List.nil_append, shownRow, trailRow, Context.seenAll_nil, List.nil_append]
  | cons n rest ih =>
    rw [List.cons_append, shownRow, shownRow, ih, trailRow, Context.seenAll_append,
      List.append_assoc]

theorem shown_bracketed (after : Bool) (items : List Node) :
    shown after (bracketed items) = timesIf after ++ ("(" :: shownRow false items ++ [")"]) := by
  have hopening : shown after (.operator "(") = timesIf after ++ ["("] := by
    rw [shown, beq_self_eq_true, Bool.and_true]
  have hclosing (flag : Bool) : shownRow flag [.operator ")"] = [")"] := by
    rw [shownRow, shown, shownRow, show (")" == "(") = false from rfl, Bool.and_false]
    rfl
  have hflag : Context.seenAll after (trail (.operator "(")) = false := by
    rw [trail]
    rfl
  rw [shown, List.cons_append, shownRow, hopening, hflag, shownRow_append, hclosing,
    List.append_assoc]
  rfl

theorem shown_leafOfWord {word : String} (h : word ≠ "(") (after : Bool) :
    shown after (leafOfWord word) = [word] := by
  rw [leafOfWord, shown, beq_eq_false_iff_ne.2 h, Bool.and_false]
  rfl

theorem shown_sign {word : String} (h : Arithmetic.IsSign word) (after : Bool) :
    shown after (.operator word) = [word] := by
  rw [shown]
  rcases h with rfl | rfl | rfl <;> simp [timesIf]

/-! ## 2. Operands of a power -/

/-- The text of an atom: an operand, or a whole text in brackets. -/
def AtomText (text : List Char) : Prop :=
  (∃ word, IsOperand word ∧ text = word.toList) ∨
    ∃ inside, Whole 0 inside ∧ text = '(' :: inside ++ [')']

/-- The text of a pair: an atom, the sign of a pair, and more. -/
def PairText (text : List Char) : Prop :=
  ∃ first kind more, AtomText first ∧ text = first ++ (symbolOf kind).toList ++ more

theorem closesAtEnd_bracket {inside : List Char} (h : Whole 0 inside) (rest : List Char) :
    closesAtEnd ('(' :: inside ++ ')' :: rest) = rest.isEmpty := by
  have hbreak : breakOn ['('] ('(' :: inside ++ ')' :: rest) = some ([], inside ++ ')' :: rest) := by
    rw [List.cons_append, breakOn, if_pos (by simp [List.isPrefixOf])]
    rfl
  have hclosing : breakOnClosing 0 (inside ++ ')' :: rest) = some (inside, rest) := by
    rw [h.closing 0 (Nat.le_refl 0), breakOnClosing_zero]
    simp
  rw [closesAtEnd, hbreak]
  dsimp only
  rw [hclosing]
  cases rest <;> rfl

theorem powerOperand_of_words {text : List Char} {first second : String} {more : List String}
    (h : wordsOf text = first :: second :: more) : powerOperand text =
      if beginsGroup first second && closesAtEnd text then text else '(' :: text ++ [')'] := by
  rw [wordsOf] at h
  rw [powerOperand, h]

theorem wordsOf_opening (rest : List Char) : wordsOf ('(' :: rest) = "(" :: wordsOf rest :=
  Token.wordsOf_operator (by decide) rest

theorem powerOperand_atom {text : List Char} (h : AtomText text) : powerOperand text = text := by
  rcases h with ⟨word, hword, rfl⟩ | ⟨inside, hinside, rfl⟩
  · have hwords : wordsOf word.toList = [word] := by
      have hrun := Token.wordsOf_run hword.nonempty (fun c hc => (hword.chars c hc).2) []
      simpa [Token.wordsOf_nil] using hrun
    rw [wordsOf] at hwords
    rw [powerOperand, hwords]
  · cases hwords : wordsOf (inside ++ [')']) with
    | nil => exact absurd hwords (Token.wordsOf_ne_nil (by simp) (by decide : Text.isSpace ')' = false))
    | cons second more =>
      have hall : wordsOf ('(' :: inside ++ [')']) = "(" :: second :: more := by
        rw [List.cons_append, wordsOf_opening, hwords]
      rw [powerOperand_of_words hall, closesAtEnd_bracket hinside]
      rfl

theorem powerOperand_pair {text : List Char} (h : PairText text) :
    powerOperand text = '(' :: text ++ [')'] := by
  obtain ⟨first, kind, more, hfirst, rfl⟩ := h
  obtain ⟨c, hc, hsign, hopen⟩ : ∃ c, Symbol.isOperatorChar c = true ∧
      (symbolOf kind).toList = [c] ∧ String.singleton c ≠ "(" := by
    cases kind
    · exact ⟨'^', by decide, rfl, by decide⟩
    · exact ⟨'/', by decide, rfl, by decide⟩
  rw [hsign, List.append_assoc, List.singleton_append]
  rcases hfirst with ⟨word, hword, rfl⟩ | ⟨inside, hinside, rfl⟩
  · -- an operand and a sign begin neither a bracket nor a call
    have hwords : wordsOf (word.toList ++ c :: more) = word :: String.singleton c :: wordsOf more := by
      have hnot : ¬Token.isWordChar c = true := by
        rw [Token.isWordChar_of_isOperatorChar hc]
        decide
      rw [Token.wordsOf_run hword.nonempty fun c hc => (hword.chars c hc).2,
        List.takeWhile_cons_of_neg hnot, List.dropWhile_cons_of_neg hnot,
        Token.wordsOf_operator hc, List.append_nil, String.ofList_toList]
    have hbegins : beginsGroup word (String.singleton c) = false := by
      rw [beginsGroup, beq_eq_false_iff_ne.2 hword.ne_opening, beq_eq_false_iff_ne.2 hopen,
        Bool.and_false]
      rfl
    rw [powerOperand_of_words hwords, hbegins, Bool.false_and, if_neg (by decide)]
  · -- the first bracket is closed before the sign
    have htext : ('(' :: inside ++ [')']) ++ c :: more = '(' :: inside ++ ')' :: c :: more := by simp
    rw [htext]
    cases hwords : wordsOf (inside ++ ')' :: c :: more) with
    | nil => exact absurd hwords (Token.wordsOf_ne_nil (by simp) (by decide : Text.isSpace ')' = false))
    | cons second rest =>
      have hall : wordsOf ('(' :: inside ++ ')' :: c :: more) = "(" :: second :: rest := by
        rw [List.cons_append, wordsOf_opening, hwords]
      rw [powerOperand_of_words hall, closesAtEnd_bracket hinside, List.isEmpty_cons, Bool.and_false,
        if_neg (by decide)]

/-! ## 3. The text of a line -/

theorem whole_printed {role : Role} {n : Node} (h : Shape role n) :
    Whole 0 (printed {} asPower false n).toList :=
  (nodeTurns_shape (o := {}) rfl h false).tidy.whole

theorem atomText_printed {n : Node} (h : Shape .atom n) :
    isPair n = false ∧ AtomText (printed {} asPower false n).toList := by
  cases h with
  | @word word h =>
    refine ⟨rfl, .inl ⟨word, h, ?_⟩⟩
    rcases h.leaf with hleaf | hleaf
    · rw [hleaf, printed]
    · rw [hleaf, printed]
      simp [Options.numberSuffix]
  | @group items h =>
    have hrow := turns_printedRow (fun n hn => nodeTurns_shape (o := {}) rfl (h n hn)) false
    refine ⟨rfl, .inr ⟨_, hrow.tidy.whole, ?_⟩⟩
    rw [printed_bracketed]
    simp [star]

/-- The text of a chain is that of an atom or of a pair, as the chain is one or the other. -/
def ChainText (n : Node) : Prop :=
  (isPair n = false ∧ AtomText (printed {} asPower false n).toList) ∨
    (isPair n = true ∧ PairText (printed {} asPower false n).toList)

-- either way an operand of `^` is an atom
theorem ChainText.powerOperand {n : Node} (h : ChainText n)
    (hwhole : Whole 0 (printed {} asPower false n).toList) :
    AtomText (powerOperand (printed {} asPower false n).toList) := by
  rcases h with ⟨-, hatom⟩ | ⟨-, hpair⟩
  · rw [powerOperand_atom hatom]
    exact hatom
  · rw [powerOperand_pair hpair]
    exact .inr ⟨_, hwhole, rfl⟩

theorem chainText_printed {n : Node} (h : Shape .chain n) : ChainText n := by
  refine Shape.chain_induction (fun n h => .inl (atomText_printed h))
    (fun kind left right hl hr ih => .inr ⟨rfl, ?_⟩) h
  cases kind with
  | power =>
    have htext : (printed {} asPower false (.binary .power left right)).toList =
        powerOperand (printed {} asPower false left).toList ++ (symbolOf .power).toList ++
          powerOperand (printed {} asPower false right).toList := by
      rw [printed, star_false_append, asPower, String.toList_ofList, ← List.singleton_append,
        ← List.append_assoc]
      rfl
    rw [htext]
    exact ⟨_, .power, _, ih.powerOperand (whole_printed hl), rfl⟩
  | fraction =>
    have htext : (printed {} asPower false (.binary .fraction left right)).toList =
        (operandText left (printed {} asPower false left)).toList ++ (symbolOf .fraction).toList ++
          (operandText right (printed {} asPower false right)).toList := by
      rw [printed, star_false_append, String.toList_append, String.toList_append]
      rfl
    rw [htext]
    by_cases hatomic : isAtomic left = true
    · rw [operandText, if_pos hatomic]
      rcases ih with ⟨-, hatom⟩ | ⟨-, first, kind, more, hfirst, hleft⟩
      · exact ⟨_, .fraction, _, hatom, rfl⟩
      · -- the first atom of the left operand is that of the pair
        rw [hleft, List.append_assoc, List.append_assoc]
        exact ⟨first, kind, _, hfirst, rfl⟩
    · have hbracket : AtomText (operandText left (printed {} asPower false left)).toList := by
        refine .inr ⟨_, whole_printed hl, ?_⟩
        rw [operandText, if_neg hatomic]
        simp
      exact ⟨_, .fraction, _, hbracket, rfl⟩

theorem join_star (after : Bool) (words : List String) :
    String.join (timesIf after ++ words) = star after ++ String.join words := by
  cases after <;> simp [timesIf, star]

theorem join_brackets (words : List String) :
    String.join ("(" :: words ++ [")"]) = "(" ++ String.join words ++ ")" := by
  simp [String.append_assoc]

theorem ofList_powerOperand {n : Node} (h : Shape .chain n) {words : List String}
    (hwords : printed {} asPower false n = String.join words) :
    String.ofList (powerOperand (printed {} asPower false n).toList) =
      String.join (encloseIn .power n words) := by
  rcases chainText_printed h with ⟨hpair, htext⟩ | ⟨hpair, htext⟩
  · rw [powerOperand_atom htext, encloseIn, standsAlone, hpair, Bool.not_false, if_pos rfl, ← hwords,
      String.ofList_toList]
  · have hbrackets (text : String) :
        String.ofList ('(' :: text.toList ++ [')']) = "(" ++ text ++ ")" := by
      apply String.toList_inj.1
      simp
    rw [powerOperand_pair htext, encloseIn, standsAlone, hpair, Bool.not_true, if_neg (by decide),
      hbrackets, hwords, join_brackets]

theorem printedRow_eq_join {items : List Node}
    (h : ∀ n ∈ items, ∀ after, printed {} asPower after n = String.join (shown after n))
    (after : Bool) : printedRow {} asPower after items = String.join (shownRow after items) := by
  induction items generalizing after with
  | nil => rw [printedRow, shownRow, String.join_nil]
  | cons n rest ih =>
    obtain ⟨hn, hrest⟩ := List.forall_mem_cons.1 h
    rw [printedRow, shownRow, String.join_append, hn, ih hrest]

/-- The text printed for a node is that of its words. -/
theorem printed_eq_join {role : Role} {n : Node} (h : Shape role n) (after : Bool) :
    printed {} asPower after n = String.join (shown after n) := by
  induction h generalizing after with
  | @word word h =>
    rw [shown_leafOfWord h.ne_opening]
    rcases h.leaf with hleaf | hleaf
    · rw [hleaf, printed]
      simp
    · rw [hleaf, printed]
      simp [Options.numberSuffix]
  | group _ ih =>
    rw [printed_bracketed, shown_bracketed, join_star, join_brackets, printedRow_eq_join ih]
  | ofAtom _ ih => exact ih after
  | @pair kind left right hl hr ihl ihr =>
    cases kind with
    | power =>
      have hleft := ofList_powerOperand hl (ihl false)
      have hright := ofList_powerOperand (.ofAtom hr) (ihr false)
      rw [printed, shown, join_star, String.join_append, String.join_cons, ← hleft, ← hright, asPower]
      simp [symbolOf]
    | fraction =>
      have hoperand (n : Node) (hn : printed {} asPower false n = String.join (shown false n)) :
          operandText n (printed {} asPower false n) =
            String.join (encloseIn .fraction n (shown false n)) := by
        rw [operandText, encloseIn, standsAlone, hn]
        split
        · rfl
        · rw [join_brackets]
      rw [printed, shown, join_star, String.join_append, String.join_cons, hoperand _ (ihl false),
        hoperand _ (ihr false), String.append_assoc]
      rfl
  | sign h =>
    rw [printed_sign h, shown_sign h]
    simp
  | term _ _ ih => exact ih after
  | row _ ih =>
    rw [printed, shown]
    exact printedRow_eq_join ih after

/-! ## 4. The line of a formula -/

/-- A node at the top of a tree without square roots: a sign or a chain. -/
def IsRootless (n : Node) : Prop :=
  (∃ word, Arithmetic.IsSign word ∧ n = .operator word) ∨ Shape .chain n

theorem IsRootless.isTop {n : Node} (h : IsRootless n) : IsTop n := by
  rcases h with ⟨word, hsign, rfl⟩ | hchain
  · exact .sign hsign
  · exact .chain hchain

theorem IsRootless.shape {n : Node} (h : IsRootless n) : ∃ role, Shape role n := by
  rcases h with ⟨word, hsign, rfl⟩ | hchain
  · exact ⟨_, .sign hsign⟩
  · exact ⟨_, hchain⟩

theorem mem_of_function_mem {words : List String}
    (h : Node.identifier "sqrt" ∈ words.map leafOfWord) : "sqrt" ∈ words := by
  obtain ⟨word, hword, hleaf⟩ := List.mem_map.1 h
  rwa [leafOfWord_eq_function_iff.1 hleaf] at hword

/-- The nodes of a valid formula without square roots. -/
theorem parse_rootless {formula : String} {inputs : List String} (h : isValid formula inputs = true)
    (hsqrt : "sqrt" ∉ Token.words formula) : ∃ nodes, parse formula = .ok (rootOf nodes) ∧
      (∀ n ∈ nodes, IsRootless n) ∧
      Dropped ((Token.words formula).map leafOfWord) (readingRow nodes) := by
  obtain ⟨nodes, hparse, htop, hdropped⟩ := parse_shape h
  have hname : Node.identifier "sqrt" ∉ readingRow nodes := fun hmem =>
    hsqrt (mem_of_function_mem (hdropped.subset hmem))
  refine ⟨nodes, hparse, fun n hn => ?_, hdropped⟩
  cases htop n hn with
  | sign h => exact .inl ⟨_, h, rfl⟩
  | chain h => exact .inr h
  | squareRoot h => exact absurd (mem_readingRow.2 ⟨_, hn, by simp⟩) hname

theorem render_rootless {nodes : List Node} (h : ∀ n ∈ nodes, IsRootless n) :
    render {} (rootOf nodes) = String.join (shownRow false nodes) := by
  rw [render_rootOf rfl rfl fun n hn => (h n hn).isTop]
  apply printedRow_eq_join
  intro n hn
  obtain ⟨role, hshape⟩ := (h n hn).shape
  exact printed_eq_join hshape

/-- An operator, or a name or number of a valid formula. -/
def IsFormulaWord (word : String) : Prop :=
  Symbol.isOperator word = true ∨ IsOperand word

theorem IsFormulaWord.isWord {word : String} (h : IsFormulaWord word) : Token.IsWord word :=
  h.imp_right fun hoperand =>
    ⟨hoperand.not_isOperator, hoperand.nonempty, fun c hc => (hoperand.chars c hc).2⟩

theorem isFormulaWord_shownRow {items : List Node}
    (h : ∀ n ∈ items, ∀ after, ∀ word ∈ shown after n, IsFormulaWord word) (after : Bool) :
    ∀ word ∈ shownRow after items, IsFormulaWord word := by
  induction items generalizing after with
  | nil => simp [shownRow]
  | cons n rest ih =>
    obtain ⟨hn, hrest⟩ := List.forall_mem_cons.1 h
    rw [shownRow, List.forall_mem_append]
    exact ⟨hn after, ih hrest _⟩

theorem isFormulaWord_timesIf (after : Bool) : ∀ word ∈ timesIf after, IsFormulaWord word := by
  cases after with
  | true => exact List.forall_mem_singleton.2 (.inl (by decide))
  | false => simp [timesIf]

theorem isFormulaWord_brackets {words : List String} (h : ∀ word ∈ words, IsFormulaWord word) :
    ∀ word ∈ "(" :: words ++ [")"], IsFormulaWord word := by
  rw [List.forall_mem_append, List.forall_mem_cons, List.forall_mem_singleton]
  exact ⟨⟨.inl (by decide), h⟩, .inl (by decide)⟩

theorem isFormulaWord_shown {role : Role} {n : Node} (h : Shape role n) (after : Bool) :
    ∀ word ∈ shown after n, IsFormulaWord word := by
  induction h generalizing after with
  | word h =>
    rw [shown_leafOfWord h.ne_opening, List.forall_mem_singleton]
    exact .inr h
  | group _ ih =>
    rw [shown_bracketed, List.forall_mem_append]
    exact ⟨isFormulaWord_timesIf after, isFormulaWord_brackets (isFormulaWord_shownRow ih false)⟩
  | ofAtom _ ih => exact ih after
  | @pair kind left right _ _ ihl ihr =>
    have henclosed {n : Node} (h : ∀ word ∈ shown false n, IsFormulaWord word) :
        ∀ word ∈ encloseIn kind n (shown false n), IsFormulaWord word := by
      rw [encloseIn]
      split
      · exact h
      · exact isFormulaWord_brackets h
    rw [shown, List.forall_mem_append, List.forall_mem_append, List.forall_mem_cons]
    refine ⟨isFormulaWord_timesIf after, henclosed (ihl false), .inl ?_, henclosed (ihr false)⟩
    cases kind <;> decide
  | sign h =>
    rw [shown_sign h, List.forall_mem_singleton]
    rcases h with rfl | rfl | rfl <;> exact .inl (by decide)
  | term _ _ ih => exact ih after
  | row _ ih =>
    rw [shown]
    exact isFormulaWord_shownRow ih after

theorem isWord_shownRow {nodes : List Node} (h : ∀ n ∈ nodes, IsRootless n) :
    ∀ word ∈ shownRow false nodes, Token.IsWord word := by
  intro word hword
  refine (isFormulaWord_shownRow (fun n hn => ?_) false word hword).isWord
  obtain ⟨role, hshape⟩ := (h n hn).shape
  exact isFormulaWord_shown hshape

theorem words_render {nodes : List Node} (h : ∀ n ∈ nodes, IsRootless n) :
    Token.words (render {} (rootOf nodes)) = Token.joined (shownRow false nodes) := by
  rw [render_rootless h]
  exact Token.words_join (isWord_shownRow h)

end Formulary.Code
