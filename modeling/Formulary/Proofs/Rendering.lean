import Formulary.Code.Render
import Formulary.Proofs.PowerText
import Formulary.Proofs.Program
import Formulary.Proofs.Shape

/-!
# Rendering prints powers with `^`

The line that is rendered for a formula is what the printer prints when it writes a power as its two
operands with `^` between them (`asPower`).  Rendering gets there by a detour: it takes the code of
the tree, with its header and its power calls, cuts out the last statement, and rewrites the calls in
the text.  That the detour leads to the same line is shown in three steps: the code of a root is a
header and one statement (`emit_root`), the last statement of such a code is that one
(`lastStatement?_statement`), and in the text of a node the calls become powers (`Shape.turns`).
-/

namespace Formulary.Code

open Formula

/-- A power written with `^` between its operands, each of them in brackets if it needs them. -/
def asPower (base exponent : String) : String :=
  String.ofList (powerOperand base.toList ++ '^' :: powerOperand exponent.toList)

/-! ## 1. Proper trees -/

theorem printable_shape {role : Role} {n : Node} (h : Shape role n) : Printable n := by
  induction h with
  | word _ => exact printable_leaf _ _
  | group _ ih => exact printable_sequence (forall_mem_group (printable_leaf _ _) ih (printable_leaf _ _))
  | ofAtom _ ih => exact ih
  | pair _ _ ihl ihr => exact printable_binary ihl ihr
  | sign _ => exact printable_leaf _ _
  | term _ _ ih => exact ih
  | row _ ih => exact printable_sequence ih

theorem printable_top {n : Node} (h : IsTop n) : Printable n := by
  cases h with
  | sign _ => exact printable_leaf _ _
  | chain h => exact printable_shape h
  | squareRoot h => exact ⟨.unary (printable_shape h).1, rootless_unary (printable_shape h).2⟩

/-! ## 2. The texts of nodes -/

section

variable {o : Options} {power : String → String → String}

theorem printedRow_append (after : Bool) (xs ys : List Node) :
    printedRow o power after (xs ++ ys) =
      printedRow o power after xs ++ printedRow o power (Context.seenAll after (trailRow xs)) ys := by
  induction xs generalizing after with
  | nil => rw [List.nil_append, printedRow, trailRow, Context.seenAll_nil, String.empty_append]
  | cons n rest ih =>
    rw [List.cons_append, printedRow, printedRow, ih, trailRow, Context.seenAll_append,
      String.append_assoc]

theorem printedRow_congr {o o' : Options} {items : List Node}
    (h : ∀ n ∈ items, ∀ after, printed o power after n = printed o' power after n) (after : Bool) :
    printedRow o power after items = printedRow o' power after items := by
  induction items generalizing after with
  | nil => rw [printedRow, printedRow]
  | cons n rest ih =>
    obtain ⟨hn, hrest⟩ := List.forall_mem_cons.1 h
    rw [printedRow, printedRow, hn, ih hrest]

-- of the options, the printer looks at the suffix of numbers and the name of the root function
theorem printed_congr {o o' : Options} (hsuffix : o.numberSuffix = o'.numberSuffix)
    (hroot : o.rootFunction = o'.rootFunction) (n : Node) (after : Bool) :
    printed o power after n = printed o' power after n := by
  induction n generalizing after with
  | leaf kind text => cases kind <;> simp only [printed, hsuffix]
  | row kind items ih =>
    rw [printed, printed]
    exact printedRow_congr ih after
  | unary kind content ih => cases kind <;> simp only [printed, hroot, ih]
  | binary kind left right ihl ihr => cases kind <;> simp only [printed, ihl, ihr]
  | bare => rw [printed, printed]
  | missing => rw [printed, printed]
  | stray value => rw [printed, printed]

theorem printed_bracketed (after : Bool) (items : List Node) :
    printed o power after (bracketed items) =
      star after ++ ("(" ++ printedRow o power false items ++ ")") := by
  have hopening : printed o power after (.operator "(") = star after ++ "(" := by
    rw [printed, beq_self_eq_true, Bool.and_true]
    rfl
  have hclosing (flag : Bool) : printedRow o power flag [.operator ")"] = ")" := by
    rw [printedRow, printed, printedRow, show (")" == "(") = false from rfl, Bool.and_false]
    rfl
  rw [printed, List.cons_append, printedRow, hopening, printedRow_append, hclosing]
  simp only [trail, Context.seenAll_cons, Context.seenAll_nil, Context.seen_operator,
    String.append_assoc]
  rfl

theorem printed_sign {word : String} (h : Arithmetic.IsSign word) (after : Bool) :
    printed o power after (.operator word) = word := by
  rw [printed]
  rcases h with rfl | rfl | rfl <;> simp [star, codeSymbol]

end

/-! ## 3. Calls become powers -/

theorem isPlain_of_isSign {word : String} (h : Arithmetic.IsSign word) :
    ∀ c ∈ word.toList, IsPlain c := by
  rcases h with rfl | rfl | rfl <;>
    exact fun c hc => by
      obtain rfl := List.mem_singleton.1 hc
      exact ⟨by decide, by decide, by decide, by decide, by decide, by decide⟩

theorem isPlain_of_isOperand {word : String} (h : IsOperand word) :
    ∀ c ∈ word.toList, IsPlain c := by
  intro c hc
  obtain ⟨halnum, hword⟩ := h.chars c hc
  have hspace : Text.isSpace c = false := by
    rw [Token.isWordChar, Bool.and_eq_true_iff, Bool.not_eq_true'] at hword
    exact hword.1
  refine ⟨hspace, ?_, ?_, ?_, ?_, ?_⟩ <;> rintro rfl
  · exact absurd hword (by decide)
  · exact absurd hword (by decide)
  · exact absurd halnum (Text.not_isAlphanumeric (by decide) (by decide))
  · exact absurd halnum (Text.not_isAlphanumeric (by decide) (by decide))
  · exact absurd halnum (Text.not_isAlphanumeric (by decide) (by decide))

theorem isPlain_numberSuffix (o : Options) : ∀ c ∈ o.numberSuffix.toList, IsPlain c := by
  unfold Options.numberSuffix
  split
  · intro c hc
    cases hkind : o.numericType <;> rw [hkind] at hc <;> obtain rfl := List.mem_singleton.1 hc <;>
      exact ⟨by decide, by decide, by decide, by decide, by decide, by decide⟩
  · simp

section

variable {o : Options} (hpower : o.powerFunction = "Math.Pow") (hroot : o.rootFunction = "Math.Sqrt")

/-- The text of the node with power calls, which turns into the text with powers. -/
def NodeTurns (o : Options) (n : Node) : Prop :=
  ∀ after, Turns (printed o (asCall o) after n).toList (printed o asPower after n).toList

theorem turns_append {text result text' result' : String} (h : Turns text.toList result.toList)
    (h' : Turns text'.toList result'.toList) :
    Turns (text ++ text').toList (result ++ result').toList := by
  rw [String.toList_append, String.toList_append]
  exact h.append h'

theorem turns_star (after : Bool) : Turns (star after).toList (star after).toList := by
  cases after with
  | false => exact .nil
  | true => exact turns_of_forall (isPlain_of_isSign (.inr (.inr rfl)))

theorem turns_printedRow {items : List Node} (h : ∀ n ∈ items, NodeTurns o n) (after : Bool) :
    Turns (printedRow o (asCall o) after items).toList (printedRow o asPower after items).toList := by
  induction items generalizing after with
  | nil => exact .nil
  | cons n rest ih =>
    obtain ⟨hn, hrest⟩ := List.forall_mem_cons.1 h
    rw [printedRow, printedRow]
    exact turns_append (hn after) (ih hrest _)

theorem turns_brackets {text result : String} (h : Turns text.toList result.toList) :
    Turns ("(" ++ text ++ ")").toList ("(" ++ result ++ ")").toList := by
  simpa using h.bracket

-- with brackets or without
theorem turns_ite_brackets (bare : Bool) {text result : String}
    (h : Turns text.toList result.toList) :
    Turns (if bare then text else "(" ++ text ++ ")").toList
      (if bare then result else "(" ++ result ++ ")").toList := by
  cases bare with
  | false => exact turns_brackets h
  | true => exact h

theorem atom_printed_ne_nil {n : Node} (h : Shape .atom n) (after : Bool) :
    (printed o (asCall o) after n).toList ≠ [] := by
  cases h with
  | word h =>
    rcases h.leaf with hleaf | hleaf
    · rw [hleaf, printed]
      exact h.nonempty
    · rw [hleaf, printed, String.toList_append]
      exact List.append_ne_nil_of_left_ne_nil h.nonempty _
  | group =>
    rw [printed_bracketed]
    simp

theorem chain_printed_ne_nil {n : Node} (h : Shape .chain n) (after : Bool) :
    (printed o (asCall o) after n).toList ≠ [] := by
  cases h with
  | ofAtom h => exact atom_printed_ne_nil h after
  | @pair kind =>
    cases kind with
    | power =>
      rw [printed, asCall]
      simp
    | fraction =>
      rw [printed]
      simp

include hpower in
theorem nodeTurns_shape {role : Role} {n : Node} (h : Shape role n) : NodeTurns o n := by
  induction h with
  | @word word h =>
    intro after
    have hword : Turns word.toList word.toList := turns_of_forall (isPlain_of_isOperand h)
    rcases h.leaf with hleaf | hleaf
    · rw [hleaf, printed, printed]
      exact hword
    · rw [hleaf, printed, printed]
      exact turns_append hword (turns_of_forall (isPlain_numberSuffix o))
  | group _ ih =>
    intro after
    rw [printed_bracketed, printed_bracketed]
    exact turns_append (turns_star after) (turns_brackets (turns_printedRow ih false))
  | ofAtom _ ih => exact ih
  | @pair kind left right hl hr ihl ihr =>
    intro after
    rw [printed.eq_def, printed.eq_def]
    cases kind with
    | power =>
      have hcall := (ihl false).call (ihr false) (chain_printed_ne_nil hl false)
        (atom_printed_ne_nil hr false)
      refine turns_append (turns_star after) ?_
      rw [asCall, hpower, asPower]
      simpa [powerName] using hcall
    | fraction =>
      have hsign : Turns "/".toList "/".toList := by
        refine turns_of_forall fun c hc => ?_
        obtain rfl := List.mem_singleton.1 hc
        exact ⟨by decide, by decide, by decide, by decide, by decide, by decide⟩
      exact turns_append (turns_star after) (turns_append
        (turns_append (turns_ite_brackets (isAtomic left) (ihl false)) hsign)
        (turns_ite_brackets (isAtomic right) (ihr false)))
  | sign h =>
    intro after
    rw [printed_sign h, printed_sign h]
    exact turns_of_forall (isPlain_of_isSign h)
  | term _ _ ih => exact ih
  | row _ ih =>
    intro after
    rw [printed, printed]
    exact turns_printedRow ih after

include hpower hroot in
theorem nodeTurns_top {n : Node} (h : IsTop n) : NodeTurns o n := by
  cases h with
  | sign h => exact nodeTurns_shape hpower (.sign h)
  | chain h => exact nodeTurns_shape hpower h
  | @squareRoot content h =>
    intro after
    have hname : Turns o.rootFunction.toList o.rootFunction.toList := by
      rw [hroot]
      exact turns_rootName
    rw [printed, printed]
    exact turns_append (turns_star after) (turns_append hname
      (turns_ite_brackets content.isBracketed (nodeTurns_shape hpower h false)))

end

/-! ## 4. The code of a root -/

/-- A piece of code in front of a statement: nothing, or lines that are ended. -/
def IsHeader (header : String) : Prop :=
  header = "" ∨ ∃ front, header = front ++ ";\n"

theorem IsHeader.append {header header' : String} (h : IsHeader header) (h' : IsHeader header') :
    IsHeader (header ++ header') := by
  rcases h' with rfl | ⟨front, rfl⟩
  · rw [String.append_empty]
    exact h
  · exact .inr ⟨header ++ front, by rw [String.append_assoc]⟩

theorem isHeader_lines {α : Type} {line : α → String} (h : ∀ item, ∃ front, line item = front ++ ";")
    (items : List α) : IsHeader (lines line items) := by
  induction items with
  | nil => exact .inl rfl
  | cons item rest ih =>
    obtain ⟨front, hfront⟩ := h item
    have hline : IsHeader (line item ++ "\n") := by
      refine .inr ⟨front, ?_⟩
      rw [hfront, String.append_assoc]
      rfl
    have hcons : lines line (item :: rest) = line item ++ "\n" ++ lines line rest := by
      rw [lines, List.map_cons, String.join_cons, lines]
    rw [hcons]
    exact hline.append ih

theorem isHeader_guardLines (o : Options) (nodes : List Node) : IsHeader (guardLines o nodes) := by
  unfold guardLines
  split
  · refine isHeader_lines (fun n => ?_) nodes
    refine ⟨"Debug.Assert(" ++ printed o (asCall o) false n ++ " != 0, \"Expression " ++
      printed o (asCall o) false n ++ " is about to cause division by zero.\")", ?_⟩
    have hend : " is about to cause division by zero.\");" =
        " is about to cause division by zero.\")" ++ ";" := by decide
    -- rewriting by its equation is slow, the texts being long
    delta assertion
    rw [hend, ← String.append_assoc]
  · exact .inl rfl

/-- The code of a root is a header and the statement of what its nodes print. -/
theorem emit_root {items : List Node} (h : ∀ n ∈ items, Printable n) (o : Options) :
    ∃ header, IsHeader header ∧
      emit o (.root items) = .ok (header ++ statementOf (printedRow o (asCall o) false items)) := by
  have hdeclarations : IsHeader
      (lines (Context.fresh o).declaration (items.flatMap usedNames).eraseDups) :=
    isHeader_lines (fun _ => ⟨_, rfl⟩) _
  exact ⟨_, hdeclarations.append (isHeader_guardLines o (items.flatMap denominators)),
    emit_root_lines h o⟩

/-! ## 5. The last statement -/

theorem statements_ne_nil (code : List Char) : statements code ≠ [] := by
  cases code with
  | nil => simp [statements]
  | cons c rest =>
    rw [statements]
    split
    · simp
    · split <;> simp

theorem statements_append (front code : List Char) :
    statements (front ++ ';' :: code) = statements front ++ statements code := by
  induction front with
  | nil => rfl
  | cons c rest ih =>
    rw [List.cons_append, statements, statements]
    split
    · rw [ih, List.cons_append]
    · rw [ih]
      cases hrest : statements rest with
      | nil => exact absurd hrest (statements_ne_nil rest)
      | cons first more => rfl

theorem statements_of_not_mem {code : List Char} (h : ';' ∉ code) : statements code = [code] := by
  induction code with
  | nil => rw [statements]
  | cons c rest ih =>
    rw [List.mem_cons, not_or] at h
    rw [statements, if_neg (Ne.symm h.1), ih h.2]

-- what is said last before the last semicolon is the last statement, whatever was said before
theorem getLast?_statements (before : List (List Char)) {body : List Char} (hbody : ';' ∉ body)
    (hblank : Text.isBlank body = false) :
    ((before ++ statements (body ++ [';'])).filter fun s => !Text.isBlank s).getLast? = some body := by
  have hend : statements (body ++ [';']) = [body, []] := by
    rw [statements_append, statements_of_not_mem hbody]
    rfl
  have hlast : [body, []].filter (fun s => !Text.isBlank s) = [body] := by
    rw [List.filter_cons_of_pos (by simp [hblank]), List.filter_cons_of_neg (by decide),
      List.filter_nil]
  rw [hend, List.filter_append, hlast, List.getLast?_concat]

/-- The last statement of a piece of code is the one behind the header, on a line of its own. -/
theorem lastStatement?_statement {header : String} (hheader : IsHeader header) {body : List Char}
    (hbody : ';' ∉ body) (hblank : Text.isBlank body = false) :
    lastStatement? (header.toList ++ (body ++ [';'])) = some body ∨
      lastStatement? (header.toList ++ (body ++ [';'])) = some ('\n' :: body) := by
  rcases hheader with rfl | ⟨front, rfl⟩
  · exact .inl (getLast?_statements [] hbody hblank)
  · have hcode : (front ++ ";\n").toList ++ (body ++ [';']) =
        front.toList ++ ';' :: (('\n' :: body) ++ [';']) := by simp
    have hnot : Text.isBlank ('\n' :: body) = false := by
      rw [Text.isBlank, List.all_cons, ← Text.isBlank, hblank, Bool.and_false]
    right
    rw [lastStatement?, hcode, statements_append]
    exact getLast?_statements _ (by simpa using hbody) hnot

/-! ## 6. Rendering -/

-- a text that does not begin with white space is not blank
theorem isBlank_of_trimmed {text : List Char} (h : Trimmed text) (hne : text ≠ []) :
    Text.isBlank text = false := by
  cases text with
  | nil => exact absurd rfl hne
  | cons c rest => rw [Text.isBlank, List.all_cons, h.head c rfl, Bool.false_and]

/-- Rendering a text finds the statement behind the header and prints its powers. -/
theorem expressionLine_eq {header text result : String} (hheader : IsHeader header)
    (h : Turns text.toList result.toList) (hne : text ≠ "") :
    expressionLine "Math.Pow" (header ++ statementOf text) = result := by
  have hfilter : result.toList.filter (fun c => c != '\r' && c != '\n') = result.toList :=
    List.filter_eq_self.2 fun c hc => by simpa using h.tidy.line c hc
  have hcode : (header ++ statementOf text).toList = header.toList ++ (text.toList ++ [';']) := by
    rw [statementOf, if_neg hne]
    simp
  have hblank : Text.isBlank text.toList = false :=
    isBlank_of_trimmed h.trimmed fun hnil => hne (String.toList_eq_nil_iff.1 hnil)
  have hname : "Math.Pow".toList = powerName := by decide
  rw [expressionLine, hcode, hname]
  rcases lastStatement?_statement hheader h.single hblank with hlast | hlast
  · rw [hlast]
    dsimp only
    rw [h.callsAsPowers_eq, hfilter, String.ofList_toList]
  · -- the statement begins on a new line, which is dropped
    have hcalls : callsAsPowers powerName ('\n' :: text.toList) = '\n' :: result.toList := by
      rw [callsAsPowers_cons (by simp [powerName, List.isPrefixOf]), h.callsAsPowers_eq]
    rw [hlast]
    dsimp only
    rw [hcalls, List.filter_cons_of_neg (by decide), hfilter, String.ofList_toList]

/-- The nodes of the root over some nodes. -/
def rootItems (nodes : List Node) : List Node :=
  if nodes.length > 1 then [.sequence nodes] else nodes

theorem rootOf_eq_root (nodes : List Node) : rootOf nodes = .root (rootItems nodes) := by
  unfold rootOf rootItems
  split <;> rfl

theorem printedRow_rootItems (o : Options) (power : String → String → String)
    (nodes : List Node) : printedRow o power false (rootItems nodes) = printedRow o power false nodes := by
  unfold rootItems
  split
  · rw [printedRow, printed, printedRow, String.append_empty]
  · rfl

theorem printable_rootItems {nodes : List Node} (h : ∀ n ∈ nodes, Printable n) :
    ∀ n ∈ rootItems nodes, Printable n := by
  unfold rootItems
  split
  · simpa using printable_sequence h
  · exact h

section

variable {o : Options} (hpower : o.powerFunction = "Math.Pow") (hroot : o.rootFunction = "Math.Sqrt")
  {nodes : List Node} (h : ∀ n ∈ nodes, IsTop n)

include hroot in
theorem top_printed_ne_nil {n : Node} (h : IsTop n) (after : Bool) :
    (printed o (asCall o) after n).toList ≠ [] := by
  cases h with
  | sign h =>
    rw [printed_sign h]
    rcases h with rfl | rfl | rfl <;> decide
  | chain h => exact chain_printed_ne_nil h after
  | squareRoot h =>
    rw [printed, hroot]
    simp

include hpower hroot h in
/-- The line of a root over nodes of a known shape is what they print, with powers. -/
theorem render_rootOf : render o (rootOf nodes) = printedRow o asPower false nodes := by
  have hturns := turns_printedRow (fun n hn => nodeTurns_top hpower hroot (h n hn)) false
  cases nodes with
  | nil =>
    have hemit : emit o (.root []) = .ok "" := by
      obtain ⟨_, _, _, _, guarded⟩ := o
      cases guarded <;> rfl
    have hitems : rootItems [] = [] := rfl
    rw [render, rootOf_eq_root, hitems, hemit]
    rfl
  | cons n rest =>
    have hne : printedRow o (asCall o) false (n :: rest) ≠ "" := by
      intro hempty
      obtain ⟨hn, -⟩ : printed o (asCall o) false n = "" ∧
          printedRow o (asCall o) (Context.seenAll false (trail n)) rest = "" := by
        simpa [printedRow] using hempty
      exact top_printed_ne_nil hroot (h n List.mem_cons_self) false (by rw [hn]; rfl)
    obtain ⟨header, hheader, hemit⟩ :=
      emit_root (printable_rootItems fun m hm => printable_top (h m hm)) o
    rw [render, rootOf_eq_root, hemit, printedRow_rootItems, hpower]
    exact expressionLine_eq hheader hturns hne

end

/-- **Rendering prints powers with `^`.**  With the names of the two functions as they are by
default, the line for a valid formula is what the printer prints for the nodes of its tree when it
writes powers with `^`; with calls in their place, the same printer gives the code of these nodes.
No call of the power function is left, and guards against division by zero make no difference. -/
theorem render_infix {formula : String} {inputs : List String} {o : Options}
    (h : isValid formula inputs = true) (hpower : o.powerFunction = "Math.Pow")
    (hroot : o.rootFunction = "Math.Sqrt") :
    ∃ items, parse formula = .ok (.root items) ∧
      emit o (.sequence items) = .ok (printedRow o (asCall o) false items) ∧
      render o (.root items) = printedRow o asPower false items ∧
      ¬"Math.Pow(".toList <:+: (render o (.root items)).toList ∧
      ∀ guarded, render { o with assertDivisions := guarded } (.root items) =
        render o (.root items) := by
  obtain ⟨nodes, hparse, htop, -⟩ := parse_shape h
  have hprintable := printable_sequence (printable_rootItems fun n hn => printable_top (htop n hn))
  have hrender := render_rootOf hpower hroot htop
  rw [rootOf_eq_root, ← printedRow_rootItems] at hrender
  refine ⟨rootItems nodes, by rw [hparse, rootOf_eq_root], ?_, hrender, ?_, ?_⟩
  · rw [emit, emitIn_fresh hprintable.1 hprintable.2, printed]
  · have hturns := turns_printedRow (fun n hn => nodeTurns_top hpower hroot (htop n hn)) false
    have hname : "Math.Pow(".toList = powerName ++ ['('] := by decide
    rw [hrender, printedRow_rootItems, hname]
    exact hturns.tidy.not_call
  · intro guarded
    have hguarded := render_rootOf (o := { o with assertDivisions := guarded }) hpower hroot htop
    rw [rootOf_eq_root] at hguarded
    rw [hguarded, hrender, printedRow_rootItems]
    apply printedRow_congr
    intro n _
    apply printed_congr
    · rfl
    · rfl

theorem render_infix_nested :
    isValid "2(a+1)^(b/2)^2-sqrt(a^2)/b" ["a", "b"] = true ∧
      ∃ items, parse "2(a+1)^(b/2)^2-sqrt(a^2)/b" = .ok (.root items) ∧
        emit { suffixNumbers := true } (.sequence items) =
          .ok (printedRow { suffixNumbers := true } (asCall { suffixNumbers := true }) false items) ∧
        render { suffixNumbers := true } (.root items) =
          printedRow { suffixNumbers := true } asPower false items ∧
        ¬"Math.Pow(".toList <:+: (render { suffixNumbers := true } (.root items)).toList ∧
        ∀ guarded, render { suffixNumbers := true, assertDivisions := guarded } (.root items) =
          render { suffixNumbers := true } (.root items) := by
  have h : isValid "2(a+1)^(b/2)^2-sqrt(a^2)/b" ["a", "b"] = true := by decide +kernel
  exact ⟨h, render_infix h rfl rfl⟩

example : (parse "2(a+1)^(b/2)^2-sqrt(a^2)/b").toOption.map (render {}) =
    some "2*((a+1)^(b/2))^2-Math.Sqrt((a^2)/b)" := by decide +kernel

end Formulary.Code
