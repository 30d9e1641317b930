import Formulary.Proofs.Arithmetic.Code
import Formulary.Proofs.Composition

/-!
# The words of the code of a tree

What an emission writes for a tree that comes from a formula, word by word (`emit_plain`).  The words of
a node depend on whether a value stands before it (`spell`), and of the nodes visited before it on
nothing else; so does whether a value stands after it (`endsAfter`).  The words make the text that is
printed for the node, and the flag is the one after the trail of the node.
-/

namespace Formulary.Code

open Arithmetic (textOf spaced textOf_nil textOf_cons textOf_append textOf_singleton spaced_of_ne)
open Formula (leafOfWord)

/-! ## 1. The words of a tree -/

/-- The `*` that stands for a product with what comes before. -/
def timesIf (after : Bool) : List String :=
  if after then ["*"] else []

/-- The words of an operand of a division, from its own words. -/
def enclose (n : Node) (words : List String) : List String :=
  if isAtomic n then words else "(" :: words ++ [")"]

mutual

/-- Does a value stand after the node, if one stands before it or not? -/
def endsAfter (after : Bool) : Node → Bool
  | .leaf kind text => Context.seen after (.leaf kind text)
  | .row _ items => endsAfterRow after items
  | .binary .power _ right => endsAfter false right
  | .binary .fraction _ right => !isAtomic right || endsAfter false right
  | .unary .. | .bare | .missing | .stray _ => after

/-- The same for a row. -/
def endsAfterRow (after : Bool) : List Node → Bool
  | [] => after
  | n :: rest => endsAfterRow (endsAfter after n) rest

end

mutual

/-- The words of a node, after a value or not. -/
def spell (o : Options) (after : Bool) : Node → List String
  | .leaf _ text => timesIf (after && text == "(") ++ [text]
  | .row _ items => spellRow o after items
  | .binary .power left right =>
    timesIf after ++ (o.powerFunction :: "(" :: spell o false left ++ "," :: spell o false right ++
      [")"])
  | .binary .fraction left right =>
    timesIf after ++ (enclose left (spell o false left) ++ "/" ::
      enclose right (spell o false right))
  | .unary .. | .bare | .missing | .stray _ => []

/-- The words of a row. -/
def spellRow (o : Options) (after : Bool) : List Node → List String
  | [] => []
  | n :: rest => spell o after n ++ spellRow o (endsAfter after n) rest

end

/-- A tree of the words of a formula, with pairs but without square roots. -/
inductive Plain : Node → Prop
  | word {word : String} (h : word ≠ ",") : Plain (leafOfWord word)
  | sequence {items : List Node} (h : ∀ n ∈ items, Plain n) : Plain (.sequence items)
  | pair {kind : BinaryKind} {left right : Node} (hl : Plain left) (hr : Plain right) :
      Plain (.binary kind left right)

/-! ## 2. Trails -/

theorem Plain.printable {n : Node} (h : Plain n) : Printable n := by
  induction h with
  | word _ => exact printable_leaf _ _
  | sequence _ ih => exact printable_sequence ih
  | pair _ _ ihl ihr => exact printable_binary ihl ihr

theorem seenAll_trailRow {items : List Node}
    (h : ∀ n ∈ items, ∀ after, Context.seenAll after (trail n) = endsAfter after n) (after : Bool) :
    Context.seenAll after (trailRow items) = endsAfterRow after items := by
  induction items generalizing after with
  | nil => rw [trailRow, endsAfterRow, Context.seenAll_nil]
  | cons n rest ih =>
    obtain ⟨hn, hrest⟩ := List.forall_mem_cons.1 h
    rw [trailRow, endsAfterRow, Context.seenAll_append, hn, ih hrest]

theorem Plain.seenAll_trail {n : Node} (h : Plain n) (after : Bool) :
    Context.seenAll after (trail n) = endsAfter after n := by
  induction h generalizing after with
  | @word word _ =>
    rw [leafOfWord, trail, endsAfter]
    rfl
  | @sequence items _ ih =>
    rw [trail, endsAfter, Context.seenAll_cons, Context.seen_row after (by decide)]
    exact seenAll_trailRow ih after
  | @pair kind left right _ _ _ ihr =>
    cases kind with
    | power =>
      have hcomma : ((", " : String) == ")") = false := by decide
      simp [trail, endsAfter, ihr, hcomma]
    | fraction =>
      have hover : (("/" : String) == ")") = false := by decide
      simp [trail, endsAfter, Context.seenAll_operandTrail, ihr, hover]

/-! ## 3. Texts -/

section

variable {o : Options}

theorem textOf_timesIf (after : Bool) : textOf (timesIf after) = star after := by
  cases after <;> rfl

theorem textOf_enclose (n : Node) (words : List String) :
    textOf (enclose n words) = operandText n (textOf words) := by
  unfold enclose operandText
  split
  · rfl
  · rw [List.cons_append, textOf_cons, textOf_append, ← String.append_assoc]
    rfl

theorem printed_leafOfWord (hsuffix : o.suffixNumbers = false) {word : String} (h : word ≠ ",")
    (after : Bool) :
    printed o (asCall o) after (leafOfWord word) = textOf (spell o after (leafOfWord word)) := by
  have hspell : textOf (spell o after (leafOfWord word)) = star (after && word == "(") ++ word := by
    rw [leafOfWord, spell, textOf_append, textOf_timesIf, textOf_singleton h]
  rw [hspell]
  by_cases hop : Symbol.isOperator word = true
  · have hsymbol : codeSymbol word = word := by
      rcases Symbol.isOperator_cases hop with rfl | rfl | rfl | rfl | rfl | rfl | rfl <;> rfl
    rw [Formula.leafOfWord_of_isOperator hop, printed, hsymbol]
  · have hopen : word ≠ "(" := by
      rintro rfl
      exact hop (by decide)
    rw [beq_eq_false_iff_ne.2 hopen, Bool.and_false, star_false_append]
    rcases Formula.leafOfWord_of_not_isOperator (Bool.of_not_eq_true hop) with hleaf | hleaf
    · rw [hleaf, printed]
    · rw [hleaf, printed, Options.numberSuffix, hsuffix]
      exact String.append_empty

theorem printedRow_eq_textOf {items : List Node} (hitems : ∀ n ∈ items, Plain n)
    (h : ∀ n ∈ items, ∀ after, printed o (asCall o) after n = textOf (spell o after n))
    (after : Bool) :
    printedRow o (asCall o) after items = textOf (spellRow o after items) := by
  induction items generalizing after with
  | nil => rw [printedRow, spellRow, textOf_nil]
  | cons n rest ih =>
    obtain ⟨hplain, hplains⟩ := List.forall_mem_cons.1 hitems
    obtain ⟨hn, hrest⟩ := List.forall_mem_cons.1 h
    rw [printedRow, spellRow, textOf_append, hn, hplain.seenAll_trail, ih hplains hrest]

/-- **What is written for a plain tree.** -/
theorem Plain.printed_eq_textOf (hsuffix : o.suffixNumbers = false) (hpower : o.powerFunction ≠ ",")
    {n : Node} (h : Plain n) (after : Bool) :
    printed o (asCall o) after n = textOf (spell o after n) := by
  induction h generalizing after with
  | word h => exact printed_leafOfWord hsuffix h after
  | sequence hitems ih =>
    rw [printed, spell]
    exact printedRow_eq_textOf hitems ih after
  | @pair kind left right _ _ ihl ihr =>
    cases kind with
    | power =>
      have hcomma : spaced "," = ", " := rfl
      rw [printed, spell, ihl, ihr, asCall]
      simp [textOf_append, textOf_cons, textOf_nil, textOf_timesIf, spaced_of_ne, hpower, hcomma,
        String.append_assoc]
    | fraction =>
      rw [printed, spell, ihl, ihr]
      simp [textOf_append, textOf_cons, textOf_timesIf, textOf_enclose, spaced_of_ne,
        String.append_assoc]

theorem emit_plain (hsuffix : o.suffixNumbers = false) (hpower : o.powerFunction ≠ ",")
    {items : List Node} (h : ∀ n ∈ items, Plain n) :
    emit o (.sequence items) = .ok (textOf (spellRow o false items)) := by
  have hplain := Plain.sequence h
  rw [emit, emitIn_fresh hplain.printable.1 hplain.printable.2,
    hplain.printed_eq_textOf hsuffix hpower, spell]

end

end Formulary.Code
