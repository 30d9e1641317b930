import Formulary.Proofs.Rendering

/-!
# Brackets from a formula to its code

The brackets of a text have a depth as those of a list of leaves have one: each character counts as
an operator of its own (`textDepth`).  A formula has the depth of its leaves, parsing takes out pairs
of matching brackets only, and writing adds pairs around the text of a whole node only.  So the depth
is carried through, for formulas that are not valid and for brackets that are never closed too
(`surplus_emit`).
-/

namespace Formulary.Formula

/-! ## 1. The depth of a text -/

/-- The characters of a text as leaves. -/
def charLeaves (cs : List Char) : List Node :=
  cs.map fun c => .operator (String.singleton c)

/-- The number of brackets open after a text, when `depth` are open before.  There is none if a
closing bracket finds no bracket open. -/
def textDepth (depth : Nat) (cs : List Char) : Option Nat :=
  depthAfter depth (charLeaves cs)

theorem beq_singleton (c d : Char) : (String.singleton c == String.singleton d) = (c == d) := by
  rw [Bool.eq_iff_iff, beq_iff_eq, beq_iff_eq]
  constructor
  · intro h
    have hlist := congrArg String.toList h
    simpa using hlist
  · rintro rfl
    rfl

theorem isOpening_charLeaf (c : Char) :
    (Node.operator (String.singleton c)).isOpening = (c == '(') :=
  beq_singleton c '('

theorem isClosing_charLeaf (c : Char) :
    (Node.operator (String.singleton c)).isClosing = (c == ')') :=
  beq_singleton c ')'

theorem textDepth_append (depth : Nat) (xs ys : List Char) :
    textDepth depth (xs ++ ys) = (textDepth depth xs).bind (textDepth · ys) := by
  unfold textDepth charLeaves
  rw [List.map_append, depthAfter_append]

theorem textDepth_opening (depth : Nat) (rest : List Char) :
    textDepth depth ('(' :: rest) = textDepth (depth + 1) rest :=
  depthAfter_opening rfl _ _

theorem textDepth_closing (depth : Nat) (rest : List Char) :
    textDepth (depth + 1) (')' :: rest) = textDepth depth rest :=
  depthAfter_closing rfl _ _

theorem textDepth_closing_zero (rest : List Char) : textDepth 0 (')' :: rest) = none :=
  depthAfter_closing_zero rfl _

theorem textDepth_other {c : Char} (hopen : c ≠ '(') (hclose : c ≠ ')') (depth : Nat)
    (rest : List Char) : textDepth depth (c :: rest) = textDepth depth rest :=
  depthAfter_other (by rw [isOpening_charLeaf]; simpa using hopen)
    (by rw [isClosing_charLeaf]; simpa using hclose) _ _

/-- A text without brackets. -/
def Bracketless (cs : List Char) : Prop :=
  '(' ∉ cs ∧ ')' ∉ cs

theorem textDepth_bracketless {cs : List Char} (h : Bracketless cs) (depth : Nat) :
    textDepth depth cs = some depth := by
  induction cs with
  | nil => rfl
  | cons c rest ih =>
    obtain ⟨hopen, hclose⟩ := h
    rw [List.mem_cons, not_or] at hopen hclose
    rw [textDepth_other (Ne.symm hopen.1) (Ne.symm hclose.1)]
    exact ih ⟨hopen.2, hclose.2⟩

-- a pair of brackets around a text leaves its depth as it is
theorem textDepth_bracket {cs : List Char} {depth after : Nat}
    (h : textDepth depth cs = some after) : textDepth depth ('(' :: cs ++ [')']) = some after := by
  have hinside : textDepth (depth + 1) cs = some (after + 1) := depthAfter_add h 1
  rw [textDepth_append, textDepth_opening, hinside, Option.bind_some, textDepth_closing]
  rfl

/-! ## 2. Surplus -/

/-- How many more brackets a text opens than it closes. -/
def surplus (cs : List Char) : Int :=
  (cs.count '(' : Int) - cs.count ')'

theorem countP_isOpening_charLeaves (cs : List Char) :
    (charLeaves cs).countP Node.isOpening = cs.count '(' := by
  rw [charLeaves, List.countP_map, List.count]
  exact List.countP_congr fun c _ => by rw [Function.comp_apply, isOpening_charLeaf]

theorem countP_isClosing_charLeaves (cs : List Char) :
    (charLeaves cs).countP Node.isClosing = cs.count ')' := by
  rw [charLeaves, List.countP_map, List.count]
  exact List.countP_congr fun c _ => by rw [Function.comp_apply, isClosing_charLeaf]

theorem surplus_eq_sub {cs : List Char} {depth after : Nat} (h : textDepth depth cs = some after) :
    surplus cs = (after : Int) - depth := by
  have hcount := depthAfter_count h
  rw [countP_isOpening_charLeaves, countP_isClosing_charLeaves] at hcount
  unfold surplus
  omega

theorem surplus_of_textDepth {cs : List Char} {depth : Nat} (h : textDepth 0 cs = some depth) :
    surplus cs = depth := by
  rw [surplus_eq_sub h]
  omega

/-- A text has a depth exactly if no first part of it closes more brackets than are open before or
opened by it. -/
theorem exists_textDepth_iff {depth : Nat} {cs : List Char} :
    (∃ after, textDepth depth cs = some after) ↔
      ∀ front, front <+: cs → 0 ≤ depth + surplus front := by
  unfold textDepth
  rw [exists_depthAfter_iff]
  constructor
  · intro h front hfront
    have hle := h (charLeaves front) (hfront.map _)
    rw [countP_isOpening_charLeaves, countP_isClosing_charLeaves] at hle
    unfold surplus
    omega
  · intro h front hfront
    obtain ⟨first, hfirst, rfl⟩ := List.prefix_map_iff.1 hfront
    have hle := h first hfirst
    change (charLeaves first).countP Node.isClosing ≤ depth + (charLeaves first).countP Node.isOpening
    rw [countP_isOpening_charLeaves, countP_isClosing_charLeaves]
    unfold surplus at hle
    omega

-- a text with a depth has one at every place, so nowhere more is closed than opened
theorem surplus_nonneg_of_prefix {front cs : List Char} {depth : Nat} (hfront : front <+: cs)
    (h : textDepth 0 cs = some depth) : 0 ≤ surplus front := by
  have hle := exists_textDepth_iff.1 ⟨depth, h⟩ front hfront
  omega

/-! ## 3. The depth of a formula -/

-- words other than the two brackets have no bracket in them
theorem bracketless_word {word : List Char} (h : ∀ c ∈ word, Token.isWordChar c = true) :
    Bracketless word :=
  ⟨fun hmem => absurd (h _ hmem) (by decide), fun hmem => absurd (h _ hmem) (by decide)⟩

-- a token that is no operator is no bracket
theorem depthAfter_word (word : List Char) (position depth : Nat) (rest : List Token) :
    depthAfter depth (leaves (⟨Token.kindOfWord word, String.ofList word, position⟩ :: rest)) =
      depthAfter depth (leaves rest) := by
  have hkind : leafKind (Token.kindOfWord word) = .number ∨
      leafKind (Token.kindOfWord word) = .identifier := by
    unfold Token.kindOfWord
    split
    · split
      · exact .inl rfl
      · exact .inr rfl
    · exact .inr rfl
  show depthAfter depth (.leaf (leafKind (Token.kindOfWord word)) _ :: leaves rest) = _
  rcases hkind with hkind | hkind
  · rw [hkind, depthAfter_other rfl rfl]
  · rw [hkind, depthAfter_other rfl rfl]

/-- A formula has the depth of its leaves. -/
theorem depthAfter_leaves (position : Nat) (cs : List Char) (depth : Nat) :
    depthAfter depth (leaves (Token.scanFrom position cs)) = textDepth depth cs := by
  induction position, cs using Token.scanFrom.induct generalizing depth with
  | case1 position =>
    rw [Token.scanFrom]
    rfl
  | case2 position c rest hspace ih =>
    have hchar : Bracketless [c] := by
      constructor
      · intro h
        rw [← List.mem_singleton.1 h] at hspace
        exact absurd hspace (by decide)
      · intro h
        rw [← List.mem_singleton.1 h] at hspace
        exact absurd hspace (by decide)
    rw [Token.scanFrom, if_pos hspace, ih, ← List.singleton_append, textDepth_append,
      textDepth_bracketless hchar, Option.bind_some]
  | case3 position c rest hspace hop ih =>
    rw [Token.scanFrom, if_neg hspace, if_pos hop]
    show depthAfter depth ([.operator (String.singleton c)] ++ leaves _) =
      depthAfter depth ([.operator (String.singleton c)] ++ charLeaves rest)
    rw [depthAfter_append, depthAfter_append]
    exact congrArg _ (funext ih)
  | case4 position c rest hspace hop word ih =>
    -- the word is a run without brackets, and the scan goes on behind it
    have hword : Bracketless word := bracketless_word (Token.isWordChar_of_mem_word hspace hop)
    rw [Token.scanFrom, if_neg hspace, if_neg hop, depthAfter_word, ih,
      Token.cons_eq_word_append c rest, textDepth_append, textDepth_bracketless hword,
      Option.bind_some]

/-- A formula that is parsed closes no bracket that is not open. -/
theorem exists_textDepth {formula : String} {tree : Node} (h : parse formula = .ok tree) :
    ∃ depth, textDepth 0 formula.toList = some depth := by
  obtain ⟨row, out, applied, hrow, -, -, -⟩ := parse_eq_ok_iff.1 h
  obtain ⟨hreading, hgrouped⟩ := groupedRow_spec hrow
  rw [← depthAfter_leaves 0]
  show ∃ depth, depthAfter 0 (leaves (Token.scan formula)) = some depth
  rw [leaves_scan, ← hreading]
  exact ⟨_, depthAfter_readingRow hgrouped 0⟩

end Formulary.Formula

namespace Formulary.Code

open Formula

/-! ## 4. The depth of a node's text -/

/-- Where the leaves have a depth, the text has the same. -/
def Carries (text : String) (leaves : List Node) : Prop :=
  ∀ depth after, depthAfter depth leaves = some after → textDepth depth text.toList = some after

theorem Carries.append {s t : String} {xs ys : List Node} (hs : Carries s xs) (ht : Carries t ys) :
    Carries (s ++ t) (xs ++ ys) := by
  intro depth after h
  rw [depthAfter_append, Option.bind_eq_some_iff] at h
  obtain ⟨between, hbetween, hafter⟩ := h
  rw [String.toList_append, textDepth_append, hs depth between hbetween, Option.bind_some,
    ht between after hafter]

theorem carries_bracketless {s : String} (h : Bracketless s.toList) : Carries s [] := by
  intro depth after hdepth
  rw [textDepth_bracketless h, ← hdepth, depthAfter_nil]

theorem Carries.after {s t : String} {xs : List Node} (ht : Carries t xs)
    (hs : Bracketless s.toList) : Carries (s ++ t) xs :=
  (carries_bracketless hs).append ht

theorem Carries.before {s t : String} {xs : List Node} (hs : Carries s xs)
    (ht : Bracketless t.toList) : Carries (s ++ t) xs := by
  have h := hs.append (carries_bracketless ht)
  rwa [List.append_nil] at h

theorem Carries.bracket {s : String} {xs : List Node} (hs : Carries s xs) :
    Carries ("(" ++ s ++ ")") xs := by
  intro depth after h
  have hlist : ("(" ++ s ++ ")").toList = '(' :: s.toList ++ [')'] := by
    rw [String.toList_append, String.toList_append]
    rfl
  rw [hlist]
  exact textDepth_bracket (hs depth after h)

-- a leaf that is no bracket and leaves no trace in the text
theorem Carries.dropLeaf {s : String} {xs : List Node} {n : Node} (hs : Carries s xs)
    (ho : n.isOpening = false) (hc : n.isClosing = false) : Carries s (n :: xs) := by
  intro depth after h
  rw [depthAfter_other ho hc] at h
  exact hs depth after h

theorem bracketless_star (after : Bool) : Bracketless (star after).toList := by
  cases after <;> exact ⟨by decide, by decide⟩

theorem bracketless_numberSuffix (o : Options) : Bracketless o.numberSuffix.toList := by
  unfold Options.numberSuffix
  split
  · cases o.numericType <;> exact ⟨by decide, by decide⟩
  · exact ⟨by decide, by decide⟩

section

variable {o : Options}

theorem carries_word {word : String} (h : Token.IsWord word) (after : Bool) :
    Carries (printed o (asCall o) after (leafOfWord word)) [leafOfWord word] := by
  rcases h with hop | ⟨hop, -, hchars⟩
  · rw [leafOfWord_of_isOperator hop, printed]
    refine Carries.after ?_ (bracketless_star _)
    -- an operator is a character, written as it is
    rcases Symbol.isOperator_cases hop with rfl | rfl | rfl | rfl | rfl | rfl | rfl
    all_goals exact fun _ _ h => h
  · have hword := bracketless_word hchars
    rcases leafOfWord_of_not_isOperator hop with hleaf | hleaf
    · rw [hleaf, printed]
      exact (carries_bracketless hword).dropLeaf rfl rfl
    · rw [hleaf, printed]
      exact ((carries_bracketless hword).before (bracketless_numberSuffix o)).dropLeaf rfl rfl

theorem carries_printedRow {items : List Node}
    (h : ∀ n ∈ items, ∀ after, Carries (printed o (asCall o) after n) (reading n)) (after : Bool) :
    Carries (printedRow o (asCall o) after items) (readingRow items) := by
  induction items generalizing after with
  | nil =>
    rw [printedRow]
    exact fun _ _ h => h
  | cons n rest ih =>
    obtain ⟨hn, hrest⟩ := List.forall_mem_cons.1 h
    rw [printedRow, readingRow_cons]
    exact (hn after).append (ih hrest _)

theorem carries_operandText {n : Node} {s : String} {xs : List Node} (h : Carries s xs) :
    Carries (operandText n s) xs := by
  unfold operandText
  split
  · exact h
  · exact h.bracket

theorem carries_contentText {n : Node} {s : String} {xs : List Node} (h : Carries s xs) :
    Carries (contentText n s) xs := by
  unfold contentText
  split
  · exact h
  · exact h.bracket

/-- The leaf of a word. -/
def IsWordLeaf (a : Node) : Prop :=
  ∃ word, Token.IsWord word ∧ a = leafOfWord word

/-- A node whose leaves are words is written with the brackets of its leaves, and pairs of others. -/
theorem carries_printed (hpower : Bracketless o.powerFunction.toList)
    (hroot : Bracketless o.rootFunction.toList) {n : Node} (h : ∀ a ∈ reading n, IsWordLeaf a)
    (after : Bool) : Carries (printed o (asCall o) after n) (reading n) := by
  induction n generalizing after with
  | leaf kind text =>
    obtain ⟨word, hword, hleaf⟩ := h (.leaf kind text) (by rw [reading_leaf]; simp)
    rw [reading_leaf, hleaf]
    exact carries_word hword after
  | row kind items ih =>
    rw [printed, reading_row]
    rw [reading_row] at h
    exact carries_printedRow (fun n hn => ih n hn fun a ha => h a (mem_readingRow.2 ⟨n, hn, ha⟩))
      after
  | unary kind content ih =>
    cases kind with
    | squareRoot =>
      rw [reading_squareRoot] at h ⊢
      have hcontent := ih (List.forall_mem_cons.1 h).2 false
      rw [printed]
      exact ((carries_contentText hcontent).after hroot).after (bracketless_star after)
        |>.dropLeaf rfl rfl
    | fenced =>
      rw [reading] at h ⊢
      have hcontent := ih (fun a ha => h a (by simp [ha])) false
      have hopen : Carries "(" [.operator "("] := fun _ _ h => h
      have hclose : Carries ")" [.operator ")"] := fun _ _ h => h
      rw [printed]
      exact ((hopen.append hcontent).append hclose).after (bracketless_star after)
  | binary kind left right ihl ihr =>
    rw [reading_binary] at h ⊢
    have hleft := ihl (fun a ha => h a (by simp [ha])) false
    have hright := ihr (fun a ha => h a (by simp [ha])) false
    cases kind with
    | power =>
      -- the name of the call and the comma bring no brackets, and the call brings a pair
      have hcomma := hleft.before (t := ", ") ⟨by decide, by decide⟩
      have hcall := ((hcomma.append
        (hright.dropLeaf (n := .operator (symbolOf .power)) rfl rfl)).bracket).after hpower
      rw [printed, asCall]
      simpa only [String.append_assoc] using hcall.after (bracketless_star after)
    | fraction =>
      have hslash := (carries_operandText (n := left) hleft).before (t := "/") ⟨by decide, by decide⟩
      have hquotient := hslash.append
        ((carries_operandText (n := right) hright).dropLeaf (n := .operator (symbolOf .fraction))
          rfl rfl)
      rw [printed]
      exact hquotient.after (bracketless_star after)
  | bare | missing | stray =>
    rw [printed, reading]
    exact fun _ _ h => h

end

/-! ## 5. The code of a formula -/

theorem printable_enclosed {n : Node} (h : Enclosed n) : Printable n := by
  induction h with
  | leaf kind text => exact printable_leaf kind text
  | sequence _ _ ih => exact printable_sequence ih
  | squareRoot _ ih => exact ⟨.unary ih.1, rootless_unary ih.2⟩
  | pair _ _ ihl ihr => exact ⟨.binary ihl.1 ihr.1, rootless_binary ihl.2 ihr.2⟩

/-- **Brackets are carried from a formula to its code.**  If a formula has a tree, valid or not, the
code of the nodes under its root opens as many brackets more than it closes as the formula does, and
no first part of it closes more than it opens; so balanced formulas have balanced code.  The names of
the functions must have no brackets. -/
theorem surplus_emit {formula : String} {tree : Node} {o : Options} (h : parse formula = .ok tree)
    (hpower : Bracketless o.powerFunction.toList) (hroot : Bracketless o.rootFunction.toList) :
    ∃ items code, tree = .root items ∧ emit o (.sequence items) = .ok code ∧
      surplus code.toList = surplus formula.toList ∧
      ∀ front, front <+: code.toList → 0 ≤ surplus front := by
  obtain ⟨nodes, rfl, henclosed, hdropped⟩ := parse_enclosed h
  obtain ⟨depth, hdepth⟩ := exists_textDepth h
  have hprintable := printable_sequence (printable_rootItems fun n hn => printable_enclosed (henclosed n hn))
  -- the nodes read as leaves of the formula, and with its depth
  have hleaves : ∀ a ∈ readingRow nodes, IsWordLeaf a := by
    intro a ha
    have hmem := hdropped.subset ha
    rw [leaves_scan] at hmem
    obtain ⟨word, hword, rfl⟩ := List.mem_map.1 hmem
    exact ⟨word, isWord_of_mem_words hword, rfl⟩
  have hreading : depthAfter 0 (readingRow nodes) = some depth := by
    rw [hdropped.depthAfter_eq, ← hdepth]
    exact depthAfter_leaves 0 formula.toList 0
  have hcode : textDepth 0 (printedRow o (asCall o) false nodes).toList = some depth := by
    refine carries_printedRow (fun n hn => ?_) false 0 depth hreading
    exact carries_printed hpower hroot fun a ha => hleaves a (mem_readingRow.2 ⟨n, hn, ha⟩)
  refine ⟨rootItems nodes, printedRow o (asCall o) false nodes, rootOf_eq_root nodes, ?_, ?_, ?_⟩
  · rw [emit, emitIn_fresh hprintable.1 hprintable.2, printed, printedRow_rootItems]
  · rw [surplus_of_textDepth hcode, surplus_of_textDepth hdepth]
  · exact fun front hfront => surplus_nonneg_of_prefix hfront hcode

theorem surplus_emit_unclosed : ∃ tree, parse "(a^)+(^(b" = .ok tree ∧
    Bracketless ({} : Options).powerFunction.toList ∧
    Bracketless ({} : Options).rootFunction.toList ∧
    ∃ items code, tree = .root items ∧ emit {} (.sequence items) = .ok code ∧
      surplus code.toList = surplus "(a^)+(^(b".toList ∧
      ∀ front, front <+: code.toList → 0 ≤ surplus front := by
  have hpower : Bracketless ({} : Options).powerFunction.toList := ⟨by decide, by decide⟩
  have hroot : Bracketless ({} : Options).rootFunction.toList := ⟨by decide, by decide⟩
  have h : parse "(a^)+(^(b" = .ok (.root [.sequence [
      .sequence [.operator "(", .binary .power (.identifier "a") (.operator ")")], .operator "+",
      .binary .power (.operator "(") (.operator "("), .identifier "b"]]) := by
    decide +kernel
  exact ⟨_, h, hpower, hroot, surplus_emit h hpower hroot⟩

end Formulary.Code
