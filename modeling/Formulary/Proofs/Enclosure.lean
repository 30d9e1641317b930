import Formulary.Proofs.Balance

/-!
# Operands in one pair of brackets

Whether the content of a square root or an operand of a division is put in brackets depends on its
first and last node: a sequence that begins with `(` and ends with `)` brings its own.  The two may
belong to different pairs, as in `(a)+(b)`, and then the sequence is written as it stands all the same
(`IsSplit`).  In a tree whose rows are balanced this is the only way in which a content or an operand
can miss its pair of brackets (`operands_enclosed_iff`).
-/

namespace Formulary.Code

open Formula

/-! ## 1. Texts whose brackets match -/

/-- A text whose brackets match each other. -/
def Matched (text : String) : Prop :=
  textDepth 0 text.toList = some 0

section

variable {s t : String}

theorem Matched.depth (h : Matched s) (depth : Nat) : textDepth depth s.toList = some depth := by
  have hadd := depthAfter_add h depth
  rwa [Nat.zero_add] at hadd

theorem matched_of_bracketless (h : Bracketless s.toList) : Matched s :=
  textDepth_bracketless h 0

theorem Matched.append (hs : Matched s) (ht : Matched t) : Matched (s ++ t) := by
  rw [Matched, String.toList_append, textDepth_append, hs, Option.bind_some, ht]

theorem toList_bracket (s : String) : ("(" ++ s ++ ")").toList = '(' :: s.toList ++ [')'] := by
  rw [String.toList_append, String.toList_append]
  rfl

theorem Matched.bracket (h : Matched s) : Matched ("(" ++ s ++ ")") := by
  rw [Matched, toList_bracket]
  exact textDepth_bracket h

end

/-- One pair of brackets around a text: the first character is matched by the last. -/
def IsGroup (text : String) : Prop :=
  ∃ inside, text = "(" ++ inside ++ ")" ∧ Matched inside

theorem isGroup_bracket_iff {s : String} : IsGroup ("(" ++ s ++ ")") ↔ Matched s := by
  constructor
  · rintro ⟨inside, heq, hinside⟩
    have hlist := congrArg String.toList heq
    rw [toList_bracket, toList_bracket] at hlist
    rw [String.toList_inj.1 (List.append_cancel_right (List.cons.inj hlist).2)]
    exact hinside
  · exact fun h => ⟨s, rfl, h⟩

/-- A name or a number of letters and numerals. -/
def IsPlainWord (text : String) : Prop :=
  text.toList ≠ [] ∧ ∀ c ∈ text.toList, Text.isAlphanumeric c = true

theorem IsPlainWord.bracketless {text : String} (h : IsPlainWord text) : Bracketless text.toList :=
  ⟨fun hc => absurd (h.2 _ hc) (Text.not_isAlphanumeric (by decide) (by decide)),
    fun hc => absurd (h.2 _ hc) (Text.not_isAlphanumeric (by decide) (by decide))⟩

theorem IsPlainWord.numberSuffix {text : String} (h : IsPlainWord text) (o : Options) :
    IsPlainWord (text ++ o.numberSuffix) := by
  have hsuffix : o.numberSuffix.toList.all Text.isAlphanumeric = true := by
    unfold Options.numberSuffix
    split
    · cases o.numericType <;> decide
    · rfl
  rw [IsPlainWord, String.toList_append]
  exact ⟨by simp [h.1], List.forall_mem_append.2 ⟨h.2, List.all_eq_true.1 hsuffix⟩⟩

/-! ## 2. Trees with balanced rows -/

/-- A tree without roots whose brackets stand in rows only and are balanced in each row; an operator
that is no bracket may have brackets in its text if they match.

Left out are trees with a bracket that has no partner in its own row: in a row of kind `style` that is
not balanced, alone below a wrapper or a pair, or inside the text of another operator.  There an
operand is no group because of what it holds and not because of how it is enclosed, and two such
brackets may also match each other across rows, which no row by itself can show. -/
inductive Orderly : Node → Prop
  | operand {kind : LeafKind} {text : String} (hkind : kind = .identifier ∨ kind = .number)
      (h : IsPlainWord text) : Orderly (.leaf kind text)
  | operator {symbol : String} (h : Matched (codeSymbol symbol)) : Orderly (.operator symbol)
  | remark (text : String) : Orderly (.leaf .remark text)
  | row {kind : RowKind} {items : List Node} (hkind : kind = .sequence ∨ kind = .style)
      (hb : Balanced items) (h : ∀ n ∈ items, isBracket n = false → Orderly n) : Orderly (.row kind items)
  | unary {kind : UnaryKind} {content : Node} (h : Orderly content) : Orderly (.unary kind content)
  | binary {kind : BinaryKind} {left right : Node} (hl : Orderly left) (hr : Orderly right) :
      Orderly (.binary kind left right)

theorem eq_of_isBracket {n : Node} (h : isBracket n = true) :
    n = .operator "(" ∨ n = .operator ")" := by
  rw [isBracket, Bool.or_eq_true_iff, isOpening_iff, isClosing_iff] at h
  exact h

theorem printable_bracket {n : Node} (h : isBracket n = true) : Printable n := by
  rcases eq_of_isBracket h with rfl | rfl <;> exact printable_leaf _ _

theorem Orderly.printable {n : Node} (h : Orderly n) : Printable n := by
  induction h with
  | operand _ _ | operator _ | remark _ => exact printable_leaf _ _
  | @row kind items hkind _ _ ih =>
    have hitems : ∀ n ∈ items, Printable n := by
      intro n hn
      cases hbracket : isBracket n with
      | false => exact ih n hn hbracket
      | true => exact printable_bracket hbracket
    have hkinds : kind ≠ .bare ∧ kind ≠ .root := by
      rcases hkind with rfl | rfl <;> decide
    exact ⟨.row hkinds.1 fun n hn => (hitems n hn).1,
      rootless_row hkinds.2 fun n hn => (hitems n hn).2⟩
  | unary _ ih => exact ⟨.unary ih.1, rootless_unary ih.2⟩
  | binary _ _ ihl ihr => exact ⟨.binary ihl.1 ihr.1, rootless_binary ihl.2 ihr.2⟩

-- a call is a name and one pair of brackets
theorem asCall_eq (o : Options) (base exponent : String) :
    asCall o base exponent = o.powerFunction ++ ("(" ++ (base ++ ", " ++ exponent) ++ ")") := by
  rw [asCall]
  simp only [String.append_assoc]

theorem Matched.operandText {text : String} (h : Matched text) (n : Node) :
    Matched (operandText n text) := by
  unfold Code.operandText
  split
  · exact h
  · exact h.bracket

theorem Matched.contentText {text : String} (h : Matched text) (n : Node) :
    Matched (contentText n text) := by
  unfold Code.contentText
  split
  · exact h
  · exact h.bracket

section

variable {o : Options}

/-- The text of a row goes to the depth to which its brackets go, if all else in it is matched. -/
theorem textDepth_printedRow {items : List Node}
    (h : ∀ n ∈ items, isBracket n = false → ∀ after, Matched (printed o (asCall o) after n))
    (after : Bool) (depth : Nat) :
    textDepth depth (printedRow o (asCall o) after items).toList = depthAfter depth items := by
  induction items generalizing after depth with
  | nil => rw [printedRow]; rfl
  | cons n rest ih =>
    obtain ⟨hn, hrest⟩ := List.forall_mem_cons.1 h
    rw [printedRow, String.toList_append, textDepth_append, ← List.singleton_append,
      depthAfter_append, funext (ih hrest _)]
    congr 1
    cases hbracket : isBracket n with
    | false =>
      obtain ⟨ho, hc⟩ := Bool.or_eq_false_iff.1 hbracket
      rw [(hn hbracket after).depth, depthAfter_other ho hc, depthAfter_nil]
    | true =>
      have hstar (flag : Bool) := textDepth_bracketless (bracketless_star flag)
      rcases eq_of_isBracket hbracket with rfl | rfl
      · rw [printed, String.toList_append, textDepth_append, hstar, Option.bind_some]
        rfl
      · rw [printed, String.toList_append, textDepth_append, hstar, Option.bind_some]
        rfl

variable (hpower : Bracketless o.powerFunction.toList) (hroot : Bracketless o.rootFunction.toList)

include hpower hroot

theorem Orderly.matched {n : Node} (h : Orderly n) (after : Bool) :
    Matched (printed o (asCall o) after n) := by
  have hstar (flag : Bool) := matched_of_bracketless (bracketless_star flag)
  induction h generalizing after with
  | @operand kind text hkind h =>
    rcases hkind with rfl | rfl
    · rw [printed]
      exact matched_of_bracketless h.bracketless
    · rw [printed]
      exact matched_of_bracketless (h.numberSuffix o).bracketless
  | operator h =>
    rw [printed]
    exact (hstar _).append h
  | remark => rw [printed]; rfl
  | row _ hb _ ih =>
    rw [printed, Matched, textDepth_printedRow ih]
    exact hb
  | @unary kind content _ ih =>
    cases kind with
    | fenced =>
      rw [printed]
      exact (hstar _).append (ih false).bracket
    | squareRoot =>
      rw [printed]
      exact (hstar _).append ((matched_of_bracketless hroot).append ((ih false).contentText content))
  | @binary kind left right _ _ ihl ihr =>
    cases kind with
    | power =>
      have hcomma : Matched ", " := rfl
      rw [printed, asCall_eq]
      exact (hstar _).append ((matched_of_bracketless hpower).append
        (((ihl false).append hcomma).append (ihr false)).bracket)
    | fraction =>
      have hslash : Matched "/" := rfl
      rw [printed]
      exact (hstar _).append
        ((((ihl false).operandText left).append hslash).append ((ihr false).operandText right))

/-! ## 3. The content of a square root -/

omit hpower hroot in
theorem printed_bracketed_false (body : List Node) :
    printed o (asCall o) false (bracketed body) =
      "(" ++ printedRow o (asCall o) false body ++ ")" := by
  rw [printed_bracketed, star_false_append]

end

/-- A sequence that begins and ends with brackets that do not match each other: the first is closed
before the end. -/
def IsSplit (n : Node) : Prop :=
  ∃ body, n = bracketed body ∧ ¬Balanced body

section

variable {o : Options} (hpower : Bracketless o.powerFunction.toList)
  (hroot : Bracketless o.rootFunction.toList)

include hpower hroot

-- between its brackets a sequence is matched where its rows of nodes is balanced
theorem isGroup_bracketed_iff {body : List Node} (h : Orderly (bracketed body)) :
    IsGroup (printed o (asCall o) false (bracketed body)) ↔ ¬IsSplit (bracketed body) := by
  have hbody : Matched (printedRow o (asCall o) false body) ↔ Balanced body := by
    cases h with
    | row _ _ h =>
      rw [Matched, textDepth_printedRow]
      · rfl
      · exact fun n hn hbracket => (h n (by simp [hn]) hbracket).matched hpower hroot
  rw [printed_bracketed_false, isGroup_bracket_iff, hbody, IsSplit]
  constructor
  · rintro hbalanced ⟨body', heq, hnot⟩
    obtain rfl : body = body' := by simpa [bracketed] using heq
    exact hnot hbalanced
  · intro hsplit
    by_contra hnot
    exact hsplit ⟨body, rfl, hnot⟩

omit hpower hroot in
theorem isBracketed_iff {n : Node} : n.isBracketed = true ↔ ∃ body, n = bracketed body := by
  unfold Node.isBracketed
  split
  · next items =>
    rw [hasBracketPair_iff]
    simp
  · next hne =>
    refine iff_of_false (by decide) ?_
    rintro ⟨body, rfl⟩
    exact hne _ rfl

/-- The content of a square root is written as one group unless it is split. -/
theorem isGroup_contentText_iff {content : Node} (h : Orderly content) :
    IsGroup (contentText content (printed o (asCall o) false content)) ↔ ¬IsSplit content := by
  unfold contentText
  split
  · next hbracketed =>
    obtain ⟨body, rfl⟩ := isBracketed_iff.1 hbracketed
    exact isGroup_bracketed_iff hpower hroot h
  · next hbracketed =>
    refine iff_of_true (isGroup_bracket_iff.2 (h.matched hpower hroot false)) ?_
    rintro ⟨body, rfl, -⟩
    exact hbracketed (isBracketed_iff.2 ⟨body, rfl⟩)

end

-- either way it begins with a bracket
theorem toList_contentText {o : Options} (n : Node) : ∃ rest,
    (contentText n (printed o (asCall o) false n)).toList = '(' :: rest := by
  unfold contentText
  split
  · next h =>
    obtain ⟨body, rfl⟩ := isBracketed_iff.1 h
    rw [printed_bracketed_false, toList_bracket]
    exact ⟨_, rfl⟩
  · rw [toList_bracket]
    exact ⟨_, rfl⟩

/-! ## 4. The operands of a division -/

/-- A name, a number, one call of a function, or one group. -/
def IsTerm (o : Options) (text : String) : Prop :=
  IsPlainWord text ∨ ∃ name ∈ ["", o.powerFunction, o.rootFunction], ∃ group,
    text = name ++ group ∧ IsGroup group

theorem IsGroup.head? {text : String} (h : IsGroup text) : ∃ rest, text.toList = '(' :: rest := by
  obtain ⟨inside, rfl, -⟩ := h
  rw [toList_bracket]
  exact ⟨_, rfl⟩

-- the first bracket of a text tells where the name before it ends
theorem name_inj {xs xs' ys ys' : List Char} (hx : '(' ∉ xs) (hx' : '(' ∉ xs')
    (h : xs ++ '(' :: ys = xs' ++ '(' :: ys') : xs = xs' ∧ ys = ys' := by
  have htake {zs ws : List Char} (hz : '(' ∉ zs) :
      (zs ++ '(' :: ws).takeWhile (· != '(') = zs := by
    have hpos : ∀ c ∈ zs, (c != '(') = true := by
      intro c hc
      rw [bne_iff_ne]
      rintro rfl
      exact hz hc
    rw [List.takeWhile_append_of_pos hpos, List.takeWhile_cons_of_neg (by decide), List.append_nil]
  have hname : xs = xs' := by rw [← htake hx, h, htake hx']
  subst hname
  exact ⟨rfl, (List.cons.inj (List.append_cancel_left h)).2⟩

section

variable {o : Options} (hpower : Bracketless o.powerFunction.toList)
  (hroot : Bracketless o.rootFunction.toList)

include hpower hroot

/-- Behind a name, only a group makes a term of a text that begins with a bracket. -/
theorem isTerm_append_iff {name text : String} (hname : name ∈ ["", o.powerFunction, o.rootFunction])
    {rest : List Char} (htext : text.toList = '(' :: rest) :
    IsTerm o (name ++ text) ↔ IsGroup text := by
  have hnames : ∀ name ∈ ["", o.powerFunction, o.rootFunction], '(' ∉ name.toList := by
    simpa using ⟨hpower.1, hroot.1⟩
  constructor
  · rintro (hword | ⟨name', hname', group, heq, hgroup⟩)
    · have hmem : '(' ∈ (name ++ text).toList := by
        rw [String.toList_append, htext]
        simp
      exact absurd hmem hword.bracketless.1
    · obtain ⟨rest', hrest'⟩ := hgroup.head?
      have hlist := congrArg String.toList heq
      rw [String.toList_append, String.toList_append, htext, hrest'] at hlist
      obtain ⟨-, rfl⟩ := name_inj (hnames name hname) (hnames name' hname') hlist
      rw [String.toList_inj.1 (htext.trans hrest'.symm)]
      exact hgroup
  · exact fun hgroup => .inr ⟨name, hname, text, rfl, hgroup⟩

end

/-- What a row of one node stands for, down to a node that is no such row. -/
def core : Node → Node
  | .row _ [n] => core n
  | n => n

theorem core_single (kind : RowKind) (n : Node) : core (.row kind [n]) = core n := by
  rw [core]

theorem core_other {n : Node} (h : ∀ kind m, n = .row kind [m] → False) : core n = n := by
  rw [core]
  exact h

theorem core_ne_single (n : Node) (kind : RowKind) (m : Node) : core n ≠ .row kind [m] := by
  induction n using core.induct with
  | case1 kind' n ih =>
    rw [core_single]
    exact ih
  | case2 n h =>
    rw [core_other h]
    exact fun heq => h kind m heq

theorem isAtomic_core (n : Node) : isAtomic (core n) = isAtomic n := by
  induction n using core.induct with
  | case1 kind n ih => rw [core_single, ih, isAtomic]
  | case2 n h => rw [core_other h]

theorem printed_core {o : Options} (n : Node) :
    printed o (asCall o) false (core n) = printed o (asCall o) false n := by
  induction n using core.induct with
  | case1 kind n ih => rw [core_single, ih, printed, printedRow, printedRow, String.append_empty]
  | case2 n h => rw [core_other h]

theorem not_isBracket_of_balanced {n : Node} (h : Balanced [n]) : isBracket n = false := by
  rw [← Bool.not_eq_true]
  intro hbracket
  rcases eq_of_isBracket hbracket with rfl | rfl <;>
    exact absurd h (by unfold Formula.Balanced; decide)

theorem Orderly.core {n : Node} (h : Orderly n) : Orderly (core n) := by
  induction n using core.induct with
  | case1 kind n ih =>
    rw [core_single]
    cases h with
    | row _ hb h => exact ih (h n List.mem_cons_self (not_isBracket_of_balanced hb))
  | case2 n hne => rwa [core_other hne]

/-- A node that is written as no term although it is taken for one: a split sequence, or the square
root of one. -/
def IsBroken (n : Node) : Prop :=
  IsSplit n ∨ ∃ content, n = .unary .squareRoot content ∧ IsSplit content

theorem isAtomic_bracketed (body : List Node) : isAtomic (bracketed body) = true := by
  have hpair : Node.hasBracketPair (.operator "(" :: body ++ [.operator ")"]) = true :=
    hasBracketPair_iff.2 ⟨body, rfl⟩
  rw [isAtomic]
  · exact hpair
  · simp

-- a row of more than one node needs no brackets only as a sequence in brackets
theorem eq_bracketed_of_isAtomic {kind : RowKind} {items : List Node}
    (hkind : kind = .sequence ∨ kind = .style) (hatomic : isAtomic (.row kind items) = true)
    (hsingle : ∀ m, items ≠ [m]) : ∃ body, Node.row kind items = bracketed body := by
  rcases hkind with rfl | rfl
  · rw [isAtomic] at hatomic
    · obtain ⟨body, rfl⟩ := hasBracketPair_iff.1 hatomic
      exact ⟨body, rfl⟩
    · exact hsingle
  · rw [isAtomic] at hatomic
    · exact absurd hatomic (by decide)
    · exact hsingle
    · simp

theorem isAtomic_of_isBroken {n : Node} (h : IsBroken n) : isAtomic n = true := by
  rcases h with ⟨body, rfl, -⟩ | ⟨content, rfl, -⟩
  · exact isAtomic_bracketed body
  · rfl

theorem isBroken_bracketed_iff {body : List Node} :
    IsBroken (bracketed body) ↔ IsSplit (bracketed body) := by
  simp [IsBroken]

theorem isBroken_squareRoot_iff {content : Node} :
    IsBroken (.unary .squareRoot content) ↔ IsSplit content := by
  simp [IsBroken, IsSplit]

theorem not_isBroken {n : Node} (hseq : ∀ body, n ≠ bracketed body)
    (hroot : ∀ content, n ≠ .unary .squareRoot content) : ¬IsBroken n := by
  rintro (⟨body, h, -⟩ | ⟨content, h, -⟩)
  · exact hseq body h
  · exact hroot content h

section

variable {o : Options} (hpower : Bracketless o.powerFunction.toList)
  (hroot : Bracketless o.rootFunction.toList)

include hpower hroot

theorem isTerm_group {text : String} {rest : List Char} (htext : text.toList = '(' :: rest) :
    IsTerm o text ↔ IsGroup text := by
  have hempty : "" ∈ ["", o.powerFunction, o.rootFunction] := by simp
  have h := isTerm_append_iff hpower hroot hempty htext
  rwa [String.empty_append] at h

/-- A node that needs no brackets is written as one term unless it is broken. -/
theorem isTerm_printed_iff {n : Node} (h : Orderly n) (hatomic : isAtomic n = true)
    (hsingle : ∀ kind m, n ≠ .row kind [m]) :
    IsTerm o (printed o (asCall o) false n) ↔ ¬IsBroken n := by
  cases h with
  | @operand kind text hkind h =>
    refine iff_of_true (.inl ?_) (not_isBroken (by simp) (by simp))
    rcases hkind with rfl | rfl
    · rw [printed]
      exact h
    · rw [printed]
      exact h.numberSuffix o
  | operator | remark => exact absurd hatomic (by simp [isAtomic])
  | @row kind items hkind hb h =>
    have hmany : ∀ m, items ≠ [m] := by
      rintro m rfl
      exact hsingle kind m rfl
    obtain ⟨body, hbody⟩ := eq_bracketed_of_isAtomic hkind hatomic hmany
    rw [hbody, isBroken_bracketed_iff, ← isGroup_bracketed_iff hpower hroot (hbody ▸ .row hkind hb h)]
    apply isTerm_group hpower hroot
    rw [printed_bracketed_false, toList_bracket]
    rfl
  | @unary kind content h =>
    cases kind with
    | fenced =>
      rw [printed, star_false_append]
      refine iff_of_true (.inr ⟨"", by simp, _, String.empty_append.symm, ?_⟩)
        (not_isBroken (by simp) (by simp))
      exact isGroup_bracket_iff.2 (h.matched hpower hroot false)
    | squareRoot =>
      obtain ⟨rest, hrest⟩ := toList_contentText (o := o) content
      rw [printed, star_false_append, isTerm_append_iff hpower hroot (by simp) hrest,
        isGroup_contentText_iff hpower hroot h, isBroken_squareRoot_iff]
  | @binary kind left right hl hr =>
    cases kind with
    | power =>
      rw [printed, star_false_append, asCall_eq]
      refine iff_of_true (.inr ⟨_, by simp, _, rfl, isGroup_bracket_iff.2 ?_⟩)
        (not_isBroken (by simp) (by simp))
      have hcomma : Matched ", " := rfl
      exact ((hl.matched hpower hroot false).append hcomma).append (hr.matched hpower hroot false)
    | fraction => exact absurd hatomic (by simp [isAtomic])

/-- An operand of a division is written as one term unless it stands for a broken node. -/
theorem isTerm_operandText_iff {n : Node} (h : Orderly n) :
    IsTerm o (operandText n (printed o (asCall o) false n)) ↔ ¬IsBroken (core n) := by
  unfold operandText
  split
  · next hatomic =>
    rw [← printed_core]
    exact isTerm_printed_iff hpower hroot h.core (by rw [isAtomic_core, hatomic]) (core_ne_single n)
  · next hatomic =>
    refine iff_of_true (.inr ⟨"", by simp, _, String.empty_append.symm, ?_⟩) fun hbroken => ?_
    · exact isGroup_bracket_iff.2 (h.matched hpower hroot false)
    · have := isAtomic_of_isBroken hbroken
      rw [isAtomic_core] at this
      exact hatomic this

end

/-! ## 5. Trees -/

/-- With the given options the step writes a text behind what is there, without a fault.  The text
depends on whether a value stands before it. -/
def AddsText (o : Options) (step : Step) (text : Bool → String) : Prop :=
  ∀ d : Draft, d.context.options = o →
    (step d).2 = none ∧ (step d).1.text = d.text ++ text d.context.valueBefore

theorem AddsText.congr {o : Options} {step : Step} {text text' : Bool → String}
    (h : AddsText o step text) (heq : ∀ after, text after = text' after) : AddsText o step text' := by
  intro d hd
  rw [← heq]
  exact h d hd

theorem addsText_visit {n : Node} (h : Printable n) (o : Options) :
    AddsText o (visit n) fun after => printed o (asCall o) after n := by
  rintro d rfl
  have hvisit : visit n d = (d.add (effect d.context.options d.context.valueBefore n), none) :=
    h.1.visits h.2 d
  rw [hvisit]
  exact ⟨rfl, rfl⟩

theorem Orderly.of_mem_preorder {tree n : Node} (h : Orderly tree) (hn : n ∈ tree.preorder)
    (hbracket : isBracket n = false) : Orderly n := by
  induction h with
  | @operand kind text hkind h =>
    obtain rfl : n = .leaf kind text := by simpa [Node.preorder] using hn
    exact .operand hkind h
  | @operator symbol h =>
    obtain rfl : n = .operator symbol := by simpa [Node.preorder] using hn
    exact .operator h
  | remark text =>
    obtain rfl : n = .leaf .remark text := by simpa [Node.preorder] using hn
    exact .remark text
  | @row kind items hkind hb h ih =>
    rw [Node.preorder] at hn
    rcases List.mem_cons.1 hn with rfl | hn
    · exact .row hkind hb h
    · obtain ⟨m, hm, hn⟩ := mem_preorderRow.1 hn
      cases hmb : isBracket m with
      | false => exact ih m hm hmb hn
      | true =>
        -- a bracket has nothing below it
        obtain rfl : n = m := by
          rcases eq_of_isBracket hmb with rfl | rfl <;> simpa [Node.preorder] using hn
        rw [hbracket] at hmb
        exact absurd hmb (by decide)
  | unary h ih =>
    rw [Node.preorder] at hn
    rcases List.mem_cons.1 hn with rfl | hn
    · exact .unary h
    · exact ih hn
  | binary hl hr ihl ihr =>
    rw [Node.preorder] at hn
    rcases List.mem_cons.1 hn with rfl | hn
    · exact .binary hl hr
    · exact (List.mem_append.1 hn).elim ihl ihr

theorem emit_printable {n : Node} (h : Printable n) (o : Options) :
    emit o n = .ok (printed o (asCall o) false n) := by
  rw [emit, emitIn_fresh h.1 h.2]

/-- **Contents and operands in one pair of brackets.**  In a tree whose brackets stand in rows and are
balanced there, the code of a square root is the name of the function and one group exactly if the
content is not split; and a side of a division is one name, number, call or group exactly if it does
not stand for a broken node. -/
theorem operands_enclosed_iff {tree : Node} {o : Options} (h : Orderly tree)
    (hpower : Bracketless o.powerFunction.toList) (hroot : Bracketless o.rootFunction.toList) :
    (∀ content, .unary .squareRoot content ∈ tree.preorder → ∃ argument,
      AddsText o (visit (.unary .squareRoot content))
        (fun after => star after ++ (o.rootFunction ++ argument)) ∧
      (IsGroup argument ↔ ¬IsSplit content)) ∧
    ∀ left right, .binary .fraction left right ∈ tree.preorder → ∃ l r,
      emit o left = .ok l ∧ emit o right = .ok r ∧
      AddsText o (visit (.binary .fraction left right))
        (fun after => star after ++ (operandText left l ++ "/" ++ operandText right r)) ∧
      (IsTerm o (operandText left l) ↔ ¬IsBroken (core left)) ∧
      (IsTerm o (operandText right r) ↔ ¬IsBroken (core right)) := by
  refine ⟨fun content hmem => ?_, fun left right hmem => ?_⟩
  · have hnode := h.of_mem_preorder hmem rfl
    cases hnode with
    | unary hcontent =>
      refine ⟨contentText content (printed o (asCall o) false content), ?_,
        isGroup_contentText_iff hpower hroot hcontent⟩
      refine (addsText_visit (Orderly.unary hcontent).printable o).congr fun after => ?_
      rw [printed]
  · have hnode := h.of_mem_preorder hmem rfl
    cases hnode with
    | binary hl hr =>
      refine ⟨_, _, emit_printable hl.printable o, emit_printable hr.printable o, ?_,
        isTerm_operandText_iff hpower hroot hl, isTerm_operandText_iff hpower hroot hr⟩
      refine (addsText_visit (Orderly.binary hl hr).printable o).congr fun after => ?_
      rw [printed]

/-- The sum of two names, each in brackets of its own. -/
def twoGroups : Node :=
  .sequence [.operator "(", .identifier "a", .operator ")", .operator "+", .operator "(",
    .identifier "b", .operator ")"]

theorem orderly_twoGroups : Orderly twoGroups := by
  have hword {text : String} (h : text.toList ≠ [] ∧ text.toList.all Text.isAlphanumeric = true) :
      Orderly (.identifier text) :=
    .operand (.inl rfl) ⟨h.1, List.all_eq_true.1 h.2⟩
  refine .row (.inl rfl) (by unfold Formula.Balanced; decide) ?_
  simp only [List.forall_mem_cons]
  have hbracket {n : Node} (h : isBracket n = true) (hnot : isBracket n = false) : Orderly n := by
    rw [h] at hnot
    exact absurd hnot (by decide)
  exact ⟨hbracket rfl, fun _ => hword (by decide), hbracket rfl,
    fun _ => .operator (by unfold Matched; decide), hbracket rfl,
    fun _ => hword (by decide), hbracket rfl, by simp⟩

theorem operands_enclosed_iff_quotient :
    Orderly (.binary .fraction (.sequence [twoGroups]) (.unary .squareRoot twoGroups)) ∧
      (∀ content, .unary .squareRoot content ∈
          (Node.binary .fraction (.sequence [twoGroups]) (.unary .squareRoot twoGroups)).preorder →
        ∃ argument, AddsText {} (visit (.unary .squareRoot content))
            (fun after => star after ++ ("Math.Sqrt" ++ argument)) ∧
          (IsGroup argument ↔ ¬IsSplit content)) ∧
      ∀ left right, .binary .fraction left right ∈
          (Node.binary .fraction (.sequence [twoGroups]) (.unary .squareRoot twoGroups)).preorder →
        ∃ l r, emit {} left = .ok l ∧ emit {} right = .ok r ∧
          AddsText {} (visit (.binary .fraction left right))
            (fun after => star after ++ (operandText left l ++ "/" ++ operandText right r)) ∧
          (IsTerm {} (operandText left l) ↔ ¬IsBroken (core left)) ∧
          (IsTerm {} (operandText right r) ↔ ¬IsBroken (core right)) := by
  have h : Orderly (.binary .fraction (.sequence [twoGroups]) (.unary .squareRoot twoGroups)) :=
    .binary (.row (.inl rfl) (by unfold Formula.Balanced; decide)
      (by simpa using fun _ => orderly_twoGroups)) (.unary orderly_twoGroups)
  exact ⟨h, operands_enclosed_iff h ⟨by decide, by decide⟩ ⟨by decide, by decide⟩⟩

/-- The brackets of a split content are no pair around the argument of the square root. -/
theorem not_operands_enclosed : ¬∀ content code, Orderly (.unary .squareRoot content) →
    emit {} (.unary .squareRoot content) = .ok code →
      ∃ argument, code = "Math.Sqrt" ++ argument ∧ IsGroup argument := by
  intro hall
  have hcode : emit {} (.unary .squareRoot twoGroups) = .ok "Math.Sqrt(a)+(b)" := by decide +kernel
  obtain ⟨argument, heq, inside, rfl, hinside⟩ := hall _ _ (.unary orderly_twoGroups) hcode
  have hinner : inside = "a)+(b" := by
    have hcut : "Math.Sqrt(a)+(b)".toList =
        "Math.Sqrt".toList ++ ('(' :: "a)+(b".toList ++ [')']) := by decide
    have hlist := congrArg String.toList heq
    rw [String.toList_append, toList_bracket, hcut] at hlist
    have hbody := (List.cons.inj (List.append_cancel_left hlist)).2
    exact (String.toList_inj.1 (List.append_cancel_right hbody)).symm
  rw [hinner] at hinside
  exact absurd hinside (by unfold Matched; decide)

end Formulary.Code
