import Formulary.Proofs.Line

/-!
# What becomes of the operands

Printing neither adds nor drops a name or a number (`filter_shown`), but it puts a `*` in front of
brackets and pairs only: two operands of which one is visited right after the other are written with
nothing between them, and read back as one.  That is the only way in which operands are lost: those
of the line are those of the formula exactly if no two of them touch (`operands_render_iff`).
-/

namespace Formulary.Code

open Formula
open Token (isOperand apart apart_append apart_cons_of_not apart_sign apart_enclosed
  bind_apart_enclosed)

/-! ## 1. The operands of a line -/

theorem isOperand_word {word : String} (h : IsOperand word) : isOperand word = true := by
  rw [Token.isOperand, h.not_isOperator]
  rfl

/-- The name or the digits of an operand. -/
def operand? : Node → Option String
  | .leaf .identifier text | .leaf .number text => some text
  | _ => none

theorem operand?_leafOfWord (word : String) :
    operand? (leafOfWord word) = if isOperand word then some word else none := by
  cases hop : Symbol.isOperator word with
  | true =>
    rw [leafOfWord_of_isOperator hop, isOperand, hop]
    rfl
  | false =>
    rw [isOperand, hop]
    rcases leafOfWord_of_not_isOperator hop with hleaf | hleaf
    · rw [hleaf]
      rfl
    · rw [hleaf]
      rfl

theorem filterMap_operand?_leaves (words : List String) :
    (words.map leafOfWord).filterMap operand? = words.filter isOperand := by
  induction words with
  | nil => rfl
  | cons word rest ih =>
    rw [List.map_cons, List.filterMap_cons, ih, operand?_leafOfWord]
    cases hword : isOperand word with
    | true => rw [List.filter_cons_of_pos hword, if_pos rfl]
    | false => rw [List.filter_cons_of_neg (by simp [hword]), if_neg (by decide)]

-- the brackets that parsing drops are no operands
theorem filterMap_operand?_dropped {xs ys : List Node} (h : Dropped xs ys) :
    ys.filterMap operand? = xs.filterMap operand? := by
  induction h with
  | nil => rfl
  | keep _ ih => rw [List.filterMap_cons, List.filterMap_cons, ih]
  | drop _ _ _ ihi ih =>
    rw [List.filterMap_append, List.filterMap_append, List.filterMap_append,
      List.filterMap_cons_none (by rfl), List.filterMap_cons_none (by rfl), List.filterMap_nil,
      List.append_nil, ihi, ih]

theorem filter_timesIf (after : Bool) : (timesIf after).filter isOperand = [] := by
  cases after <;> rfl

theorem filter_brackets (words : List String) :
    ("(" :: words ++ [")"]).filter isOperand = words.filter isOperand := by
  rw [List.filter_append, List.filter_cons_of_neg (by decide), List.filter_cons_of_neg (by decide),
    List.filter_nil, List.append_nil]

theorem isOperand_symbolOf (kind : BinaryKind) : isOperand (symbolOf kind) = false := by
  cases kind <;> decide

theorem filter_shownRow {items : List Node}
    (h : ∀ n ∈ items, ∀ after, (shown after n).filter isOperand = (reading n).filterMap operand?)
    (after : Bool) :
    (shownRow after items).filter isOperand = (readingRow items).filterMap operand? := by
  induction items generalizing after with
  | nil => rw [shownRow, readingRow_nil, List.filter_nil, List.filterMap_nil]
  | cons n rest ih =>
    obtain ⟨hn, hrest⟩ := List.forall_mem_cons.1 h
    rw [shownRow, readingRow_cons, List.filter_append, List.filterMap_append, hn, ih hrest]

/-- Printing adds no operands and drops none. -/
theorem filter_shown {role : Role} {n : Node} (h : Shape role n) (after : Bool) :
    (shown after n).filter isOperand = (reading n).filterMap operand? := by
  induction h generalizing after with
  | @word word h =>
    have hleaf := filterMap_operand?_leaves [word]
    rw [shown_leafOfWord h.ne_opening, ← hleaf, leafOfWord, reading_leaf]
    rfl
  | group _ ih =>
    rw [shown_bracketed, List.filter_append, filter_timesIf, filter_brackets, filter_shownRow ih,
      reading_group, List.filterMap_append, List.filterMap_cons_none (by rfl),
      List.filterMap_cons_none (by rfl), List.filterMap_nil, List.append_nil, List.nil_append]
  | ofAtom _ ih => exact ih after
  | @pair kind left right _ _ ihl ihr =>
    have henclosed (n : Node) (words : List String) :
        (encloseIn kind n words).filter isOperand = words.filter isOperand := by
      rw [encloseIn]
      split
      · rfl
      · exact filter_brackets words
    rw [shown, List.filter_append, filter_timesIf, List.nil_append, List.filter_append,
      List.filter_cons_of_neg (by rw [isOperand_symbolOf]; decide), henclosed, henclosed,
      reading_binary, List.filterMap_append, List.filterMap_cons_none (by rfl), ← ihl false,
      ← ihr false]
  | @sign word h =>
    rw [shown_sign h, reading_leaf]
    rcases h with rfl | rfl | rfl <;> rfl
  | term _ _ ih => exact ih after
  | row _ ih =>
    rw [shown, reading_row]
    exact filter_shownRow ih after

/-! ## 2. Operands that touch -/

/-- Is the node an operand: a name or a number? -/
def isOperandLeaf (n : Node) : Bool :=
  (operand? n).isSome

/-- The nodes of a trail that write something of their own. -/
def writing (nodes : List Node) : List Node :=
  nodes.filter fun n => !Context.isTransparent n

/-- Among the nodes that are visited and write something, two operands stand next to each other. -/
def Touching (nodes : List Node) : Prop :=
  ∃ front a b back, writing nodes = front ++ a :: b :: back ∧ isOperandLeaf a = true ∧
    isOperandLeaf b = true

theorem touching_iff {nodes : List Node} :
    Touching nodes ↔ apart isOperandLeaf false (writing nodes) = none := by
  rw [Token.apart_eq_none_iff, Touching]
  simp

theorem trailRow_singleton (n : Node) : trailRow [n] = trail n := by
  rw [trailRow, trailRow, List.append_nil]

theorem trailRow_append (xs ys : List Node) : trailRow (xs ++ ys) = trailRow xs ++ trailRow ys := by
  induction xs with
  | nil => rw [List.nil_append, trailRow, List.nil_append]
  | cons n rest ih => rw [List.cons_append, trailRow, trailRow, ih, List.append_assoc]

theorem trail_bracketed (items : List Node) : trail (bracketed items) =
    bracketed items :: (.operator "(" :: trailRow items ++ [.operator ")"]) := by
  rw [trail, List.cons_append, trailRow, trailRow_append, trail, trailRow, trail, trailRow,
    List.append_nil]
  rfl

theorem writing_append (xs ys : List Node) : writing (xs ++ ys) = writing xs ++ writing ys :=
  List.filter_append xs ys

theorem writing_cons {n : Node} (h : Context.isTransparent n = false) (rest : List Node) :
    writing (n :: rest) = n :: writing rest :=
  List.filter_cons_of_pos (by simp [h])

theorem writing_sequence (items rest : List Node) :
    writing (.sequence items :: rest) = writing rest := rfl

-- behind an operand there is a value
theorem seenAll_of_apart {tokens : List Node} {before last after : Bool}
    (h : apart isOperandLeaf before (writing tokens) = some last) (hbefore : before = true → after = true)
    (hlast : last = true) : Context.seenAll after tokens = true := by
  induction tokens generalizing before after with
  | nil =>
    obtain rfl := Option.some.inj h
    exact hbefore hlast
  | cons n rest ih =>
    rw [Context.seenAll_cons]
    cases htransparent : Context.isTransparent n with
    | true =>
      rw [writing, List.filter_cons_of_neg (by simp [htransparent])] at h
      apply ih h
      rw [Context.seen, if_pos htransparent]
      exact hbefore
    | false =>
      rw [writing_cons htransparent, apart] at h
      split at h
      · exact absurd h (by simp)
      · apply ih h
        intro hoperand
        rw [Context.seen, if_neg (by rw [htransparent]; decide)]
        unfold isOperandLeaf operand? at hoperand
        split at hoperand
        · rfl
        · rfl
        · exact absurd hoperand (by decide)

/-- Operands touch in the words of the node where they do among the nodes visited, whatever stands
before it. -/
def TouchesAlike (n : Node) : Prop :=
  ∀ before after : Bool, (before = true → after = true) →
    apart isOperand before (shown after n) = apart isOperandLeaf before (writing (trail n))

theorem apart_shownRow {items : List Node} (h : ∀ n ∈ items, TouchesAlike n) {before after : Bool}
    (hbefore : before = true → after = true) : apart isOperand before (shownRow after items) =
      apart isOperandLeaf before (writing (trailRow items)) := by
  induction items generalizing before after with
  | nil => rfl
  | cons n rest ih =>
    obtain ⟨hn, hrest⟩ := List.forall_mem_cons.1 h
    rw [shownRow, trailRow, writing_append, apart_append, apart_append, hn before after hbefore]
    cases hlast : apart isOperandLeaf before (writing (trail n)) with
    | none => rfl
    | some last => exact ih hrest (seenAll_of_apart hlast hbefore)

theorem apart_timesIf {before after : Bool} (hbefore : before = true → after = true)
    (words : List String) :
    apart isOperand before (timesIf after ++ words) = apart isOperand false words := by
  cases after with
  | true => exact apart_cons_of_not (by decide) before words
  | false =>
    obtain rfl : before = false := by
      cases before with
      | false => rfl
      | true => exact absurd (hbefore rfl) (by decide)
    rfl

theorem operandTrail_atom {n : Node} (h : Shape .atom n) (tokens : List Node) :
    operandTrail n tokens = tokens :=
  if_pos (standsAlone_atom h .fraction)

-- the sign of a pair keeps its two sides apart, and the pair itself what stands before it
theorem apart_trail_pair {kind : BinaryKind} {left right : Node} (hr : Shape .atom right)
    (before : Bool) : apart isOperandLeaf before (writing (trail (.binary kind left right))) =
      (apart isOperandLeaf false (writing (trail left))).bind fun _ =>
        apart isOperandLeaf false (writing (trail right)) := by
  cases kind with
  | power =>
    rw [trail, writing_cons rfl, apart_cons_of_not rfl, writing_append, writing_cons rfl,
      apart_sign rfl]
  | fraction =>
    rw [trail, writing_cons rfl, apart_cons_of_not rfl, writing_append, writing_cons rfl,
      apart_sign rfl, operandTrail_atom hr, operandTrail]
    split
    · rfl
    · rw [writing_append, writing_cons rfl]
      exact bind_apart_enclosed rfl rfl _ _

theorem touchesAlike_pair {kind : BinaryKind} {left right : Node} (hr : Shape .atom right)
    (ihl : TouchesAlike left) (ihr : TouchesAlike right) : TouchesAlike (.binary kind left right) := by
  intro before after hbefore
  rw [apart_trail_pair hr, ← ihl false false (by decide), ← ihr false false (by decide), shown,
    apart_timesIf hbefore, apart_sign (isOperand_symbolOf kind), encloseIn_atom hr, encloseIn]
  split
  · rfl
  · exact bind_apart_enclosed (by decide) (by decide) _ _

theorem apart_trail_bracketed (items : List Node) (before : Bool) :
    apart isOperandLeaf before (writing (trail (bracketed items))) =
      (apart isOperandLeaf false (writing (trailRow items))).bind fun _ => some false := by
  have hwriting : writing (trail (bracketed items)) =
      .operator "(" :: (writing (trailRow items) ++ [.operator ")"]) := by
    rw [trail_bracketed, writing_sequence, List.cons_append, writing_cons rfl, writing_append]
    rfl
  rw [hwriting, apart_cons_of_not rfl, apart_sign rfl]
  rfl

theorem isOperandLeaf_leafOfWord (word : String) :
    isOperandLeaf (leafOfWord word) = isOperand word := by
  rw [isOperandLeaf, operand?_leafOfWord]
  cases isOperand word <;> rfl

theorem writing_leafOfWord {word : String} (h : IsOperand word) :
    writing (trail (leafOfWord word)) = [leafOfWord word] := by
  rcases h.leaf with hleaf | hleaf
  · rw [hleaf, trail]
    rfl
  · rw [hleaf, trail]
    rfl

theorem touchesAlike_shape {role : Role} {n : Node} (h : Shape role n) : TouchesAlike n := by
  induction h with
  | @word word h =>
    intro before after _
    have hword := isOperand_word h
    rw [shown_leafOfWord h.ne_opening, writing_leafOfWord h, Token.apart_cons,
      Token.apart_cons, hword, isOperandLeaf_leafOfWord, hword]
    rfl
  | @group items _ ih =>
    intro before after hbefore
    rw [shown_bracketed, apart_timesIf hbefore, apart_enclosed (by decide) (by decide),
      apart_shownRow ih (by decide), apart_trail_bracketed]
  | ofAtom _ ih => exact ih
  | pair _ hr ihl ihr => exact touchesAlike_pair hr ihl ihr
  | @sign word h =>
    intro before after _
    rw [shown_sign h, trail, writing_cons rfl]
    rcases h with rfl | rfl | rfl <;>
      rw [apart_cons_of_not (by decide), apart_cons_of_not (by rfl)] <;> rfl
  | term _ _ ih => exact ih
  | row _ ih =>
    intro before after hbefore
    rw [shown, trail, writing_sequence]
    exact apart_shownRow ih hbefore

/-! ## 3. The operands of a formula -/

/-- The names and numbers of a text. -/
def operandWords (text : String) : List String :=
  (Token.words text).filter isOperand

theorem writing_trail_rootOf (nodes : List Node) :
    writing (trail (rootOf nodes)) = writing (trailRow nodes) := by
  rw [rootOf]
  split
  · rw [trail, trailRow, trailRow, trail, List.append_nil]
    rfl
  · rw [trail]
    rfl

section

variable {nodes : List Node} (h : ∀ n ∈ nodes, IsRootless n)

include h in
/-- Operands touch in the words of a line where they do among the nodes visited. -/
theorem touching_rootOf_iff : Touching (trail (rootOf nodes)) ↔
    apart isOperand false (shownRow false nodes) = none := by
  rw [touching_iff, writing_trail_rootOf, apart_shownRow (fun n hn => ?_) (by decide)]
  obtain ⟨role, hshape⟩ := (h n hn).shape
  exact touchesAlike_shape hshape

include h in
theorem words_render_of_not_touching (htouching : ¬Touching (trail (rootOf nodes))) :
    Token.words (render {} (rootOf nodes)) = shownRow false nodes := by
  rw [touching_rootOf_iff h] at htouching
  obtain ⟨last, hlast⟩ := Option.ne_none_iff_exists'.1 htouching
  rw [words_render h, Token.joined_of_apart hlast]

include h in
theorem filter_shown_rootless {formula : String}
    (hdropped : Dropped ((Token.words formula).map leafOfWord) (readingRow nodes)) :
    (shownRow false nodes).filter isOperand = operandWords formula := by
  rw [filter_shownRow (fun n hn => ?_), filterMap_operand?_dropped hdropped,
    filterMap_operand?_leaves, operandWords]
  obtain ⟨role, hshape⟩ := (h n hn).shape
  exact filter_shown hshape

end

/-- **Operands are lost exactly where two of them touch.**  The names and numbers of the line rendered
for a valid formula without square roots are, in order, those of the formula if and only if no two of
them are visited next to each other. -/
theorem operands_render_iff {formula : String} {inputs : List String}
    (h : isValid formula inputs = true) (hsqrt : "sqrt" ∉ Token.words formula) :
    ∃ tree, parse formula = .ok tree ∧
      (operandWords (render {} tree) = operandWords formula ↔ ¬Touching (trail tree)) := by
  obtain ⟨nodes, hparse, hrootless, hdropped⟩ := parse_rootless h hsqrt
  refine ⟨rootOf nodes, hparse, ?_⟩
  rw [touching_rootOf_iff hrootless, ← filter_shown_rootless hrootless hdropped, operandWords,
    words_render hrootless]
  exact Token.operands_joined_iff (isWord_shownRow hrootless)

theorem operands_render_iff_quotient :
    isValid "2(a+1)^(b/2)-a/b/(2)" ["a", "b"] = true ∧ "sqrt" ∉ Token.words "2(a+1)^(b/2)-a/b/(2)" ∧
      ∃ tree, parse "2(a+1)^(b/2)-a/b/(2)" = .ok tree ∧
        (operandWords (render {} tree) = operandWords "2(a+1)^(b/2)-a/b/(2)" ↔
          ¬Touching (trail tree)) := by
  have h : isValid "2(a+1)^(b/2)-a/b/(2)" ["a", "b"] = true := by decide +kernel
  have hsqrt : "sqrt" ∉ Token.words "2(a+1)^(b/2)-a/b/(2)" := by decide +kernel
  exact ⟨h, hsqrt, operands_render_iff h hsqrt⟩

/-- Two operands are made one when the brackets between them are taken out. -/
theorem not_operands_render :
    ¬∀ formula inputs tree, isValid formula inputs = true → "sqrt" ∉ Token.words formula →
      parse formula = .ok tree → operandWords (render {} tree) = operandWords formula := by
  intro hall
  have hparse : parse "(2(3))" = .ok (.root [bracketed [.number "2", .sequence [.number "3"]]]) := by
    decide +kernel
  have hlost := hall "(2(3))" [] _ (by decide +kernel) (by decide +kernel) hparse
  exact absurd hlost (by decide +kernel)

end Formulary.Code
