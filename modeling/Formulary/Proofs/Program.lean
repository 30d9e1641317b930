import Formulary.Proofs.Composition

/-!
# The code of a root

A root collects what it needs while its nodes are written, and puts it in front of them afterwards.
What it collects is told by the tree alone: the names in the order of their first use, and the
denominators of the fractions in preorder.  So the code of a root is a list of declarations, of
assertions, of running totals, and one statement (`emitIn_root_parts`).
-/

namespace Formulary.Code

/-! ## 1. What is collected -/

-- a name is kept where it is used first
theorem foldl_withName_nil (names : List String) : names.foldl withName [] = names.eraseDups := by
  induction names using List.reverseRecOn with
  | nil => rfl
  | append_singleton front name ih =>
    rw [List.foldl_append, ih, List.foldl_cons, List.foldl_nil, withName, List.eraseDups_append]
    by_cases h : name ∈ front
    · simp [h, List.removeAll]
    · simp [h, List.removeAll, List.eraseDups_cons]

theorem printable_of_mem_preorder {n : Node} (h : Proper n) (hroot : Rootless n) :
    ∀ m ∈ n.preorder, Proper m ∧ Rootless m := by
  have hself : Proper n ∧ Rootless n := ⟨h, hroot⟩
  induction h with
  | leaf kind text =>
    rw [Node.preorder]
    · exact List.forall_mem_singleton.2 hself
    all_goals simp
  | row _ hitems ih =>
    rw [Node.preorder]
    refine List.forall_mem_cons.2 ⟨hself, fun m hm => ?_⟩
    obtain ⟨n, hn, hm⟩ := Formula.mem_preorderRow.1 hm
    have hfree := hroot.of_mem hn
    exact ih n hn hfree ⟨hitems n hn, hfree⟩ m hm
  | unary h ih =>
    rw [Node.preorder]
    exact List.forall_mem_cons.2 ⟨hself, ih hroot.content ⟨h, hroot.content⟩⟩
  | binary hl hr ihl ihr =>
    obtain ⟨hrootl, hrootr⟩ := hroot.operands
    rw [Node.preorder]
    exact List.forall_mem_cons.2 ⟨hself, List.forall_mem_append.2
      ⟨ihl hrootl ⟨hl, hrootl⟩, ihr hrootr ⟨hr, hrootr⟩⟩⟩

theorem operands_printable {kind : BinaryKind} {left right : Node}
    (h : Proper (.binary kind left right) ∧ Rootless (.binary kind left right)) :
    (Proper left ∧ Rootless left) ∧ (Proper right ∧ Rootless right) := by
  obtain ⟨h, hroot⟩ := h
  obtain ⟨hrootl, hrootr⟩ := hroot.operands
  cases h with
  | binary hl hr => exact ⟨⟨hl, hrootl⟩, hr, hrootr⟩

theorem denominators_printable {n : Node} (h : Proper n) (hroot : Rootless n) :
    ∀ m ∈ denominators n, Proper m ∧ Rootless m := by
  intro m hm
  obtain ⟨fraction, hmem, hsome⟩ := List.mem_filterMap.1 hm
  have hprintable := printable_of_mem_preorder h hroot fraction hmem
  unfold denominator? at hsome
  split at hsome
  · cases hsome
    exact (operands_printable hprintable).2
  · cases hsome

/-! ## 2. Assertions -/

-- without roots inside, it makes no difference how denominators of denominators are written
theorem denominatorCode_eq {n : Node} (h : Proper n) (hroot : Rootless n) (o : Options) :
    denominatorCode o n = .ok (printed o (asCall o) false n) := by
  have hcode (code : Options → Node → Except Fault String) :
      codeWith code o n = .ok (printed o (asCall o) false n) := by
    have hvisit : visitWith code n { context := .fresh o } =
        (Draft.add { context := .fresh o } (effect o false n), none) :=
      h.visits hroot { context := .fresh o }
    rw [codeWith, hvisit]
    show Except.ok ("" ++ printed o (asCall o) false n) = _
    rw [String.empty_append]
  unfold denominatorCode
  cases divisionDepth n with
  | zero => exact hcode _
  | succ depth => exact hcode _

theorem assertions_eq_lines {code : Node → Except Fault String} {text : Node → String}
    {nodes : List Node} (h : ∀ n ∈ nodes, code n = .ok (text n)) :
    assertions code nodes = .ok (lines (fun n => assertion (text n)) nodes) := by
  induction nodes with
  | nil => rfl
  | cons n rest ih =>
    obtain ⟨hn, hrest⟩ := List.forall_mem_cons.1 h
    rw [assertions, hn]
    dsimp only
    rw [ih hrest, lines, lines, List.map_cons, String.join_cons]
    rfl

/-- The assertions about some denominators, if the options ask for them. -/
def guardLines (o : Options) (nodes : List Node) : String :=
  if o.assertDivisions then lines (fun n => assertion (printed o (asCall o) false n)) nodes else ""

/-- What the header is, once the nodes have been written. -/
theorem addHeader_eq {d : Draft} (h : ∀ n ∈ d.context.divisions, Proper n ∧ Rootless n) :
    addHeader denominatorCode d = ({ d with
      text := lines d.context.declaration d.context.variableNames ++
        guardLines d.context.options d.context.divisions ++ d.text }, none) := by
  have hguards : assertions (denominatorCode d.context.options) d.context.divisions = .ok
      (lines (fun n => assertion (printed d.context.options (asCall d.context.options) false n))
        d.context.divisions) :=
    assertions_eq_lines fun n hn => denominatorCode_eq (h n hn).1 (h n hn).2 d.context.options
  unfold addHeader guardLines
  dsimp only
  by_cases hassert : d.context.options.assertDivisions = true
  · rw [if_pos hassert, if_pos hassert, hguards]
  · rw [if_neg hassert, if_neg hassert, String.append_empty]

/-! ## 3. Roots -/

/-- The statement of an expression; there is none if the expression is empty. -/
def statementOf (text : String) : String :=
  if text = "" then "" else text ++ ";"

theorem statementOf_eq (text : String) :
    statementOf text = text ++ if text = "" then "" else ";" := by
  unfold statementOf
  split
  · next h => rw [h, String.append_empty]
  · rfl

/-- A context in which only running totals have been noted. -/
def startingWith (o : Options) (totals : List Accumulator) : Context :=
  { Context.fresh o with accumulators := totals }

theorem foldl_addAccumulator (o : Options) (totals : List Accumulator) :
    totals.foldl Context.addAccumulator (.fresh o) = startingWith o totals := by
  have key (old : List Accumulator) :
      totals.foldl Context.addAccumulator (startingWith o old) = startingWith o (old ++ totals) := by
    induction totals generalizing old with
    | nil => rw [List.foldl_nil, List.append_nil]
    | cons total rest ih =>
      show rest.foldl Context.addAccumulator (startingWith o (old ++ [total])) = _
      rw [ih, List.append_assoc, List.singleton_append]
  exact key []

/-- The draft after a root: the context has what was visited, and the text is the header and the
statement. -/
theorem visit_root {items : List Node} (h : ∀ n ∈ items, Proper n ∧ Rootless n) (o : Options)
    (totals : List Accumulator) :
    visit (.root items) { context := startingWith o totals } = ({
      context := { startingWith o totals with
        tokens := .root items :: trailRow items
        variableNames := (items.flatMap usedNames).eraseDups
        divisions := items.flatMap denominators }
      text := lines (Context.fresh o).declaration (items.flatMap usedNames).eraseDups ++
        guardLines o (items.flatMap denominators) ++
        (lines (Context.fresh o).startOf totals ++
          statementOf (printedRow o (asCall o) false items)) }, none) := by
  let start : Draft := { context := (startingWith o totals).record (.root items) }
  have hrow : visitRowWith denominatorCode items start =
      (start.add (rowEffect o false items), none) :=
    adds_visitRowWith (fun n hn => (h n hn).1.visits (h n hn).2) start
  have hdraft : start.add (rowEffect o false items) =
      { context := { startingWith o totals with
          tokens := .root items :: trailRow items
          variableNames := (items.flatMap usedNames).eraseDups
          divisions := items.flatMap denominators }
        text := printedRow o (asCall o) false items } := by
    simp [start, Draft.add, rowEffect, Context.record, startingWith, Context.fresh,
      foldl_withName_nil]
  have hdivisions : ∀ m ∈ items.flatMap denominators, Proper m ∧ Rootless m := by
    intro m hm
    obtain ⟨n, hn, hm⟩ := List.mem_flatMap.1 hm
    exact denominators_printable (h n hn).1 (h n hn).2 m hm
  have hadd := addHeader_eq
    (d := (endStatement (start.add (rowEffect o false items))).1) (by rw [hdraft]; exact hdivisions)
  have hvisit : visit (.root items) { context := startingWith o totals } =
      addHeader denominatorCode (endStatement (start.add (rowEffect o false items))).1 := by
    rw [visit, visitWith, inOrder_cons (by rfl)]
    show inOrder _ start = _
    rw [inOrder_cons (by rw [hrow]), hrow, inOrder_cons (by rfl), inOrder_cons (by rw [hadd]), hadd]
    rfl
  rw [hvisit, hadd, hdraft]
  rfl

/-- The code of a root, from what its nodes print. -/
theorem emitIn_root {items : List Node} (h : ∀ n ∈ items, Proper n ∧ Rootless n) (o : Options)
    (totals : List Accumulator) :
    (emitIn (startingWith o totals) (.root items)).2 = .ok (
      lines (Context.fresh o).declaration (items.flatMap usedNames).eraseDups ++
      guardLines o (items.flatMap denominators) ++
      (lines (Context.fresh o).startOf totals ++
        statementOf (printedRow o (asCall o) false items))) := by
  rw [emitIn, visit_root h]

/-- In a fresh context there are no running totals. -/
theorem emit_root_lines {items : List Node} (h : ∀ n ∈ items, Proper n ∧ Rootless n) (o : Options) :
    emit o (.root items) = .ok (
      lines (Context.fresh o).declaration (items.flatMap usedNames).eraseDups ++
      guardLines o (items.flatMap denominators) ++
      statementOf (printedRow o (asCall o) false items)) := by
  have hcode := emitIn_root h o []
  rwa [show lines (Context.fresh o).startOf [] = "" from rfl, String.empty_append] at hcode

/-- The names that are known after a root. -/
theorem variableNames_emitIn_root {items : List Node} (h : ∀ n ∈ items, Proper n ∧ Rootless n)
    (o : Options) : (emitIn (.fresh o) (.root items)).1.variableNames =
      (usedNames (.root items)).eraseDups := by
  show (emitIn (startingWith o []) (.root items)).1.variableNames = _
  rw [emitIn, visit_root h, usedNames_row]

/-- **The shape of the code of a root.**  One declaration for every name, in the order in which the
names are used first; if the options ask for them, one assertion for every fraction in preorder,
about the code of its denominator; the start of every running total; and the code of the nodes in a
row, as a statement unless it is empty. -/
theorem emitIn_root_parts {items : List Node} (h : Proper (.root items))
    (hroot : ∀ n ∈ items, Rootless n) (o : Options) (totals : List Accumulator) :
    ∃ (body : String) (code : Node → String), emit o (.sequence items) = .ok body ∧
      (∀ n ∈ denominators (.root items), emit o n = .ok (code n)) ∧
      (emitIn (totals.foldl Context.addAccumulator (.fresh o)) (.root items)).2 = .ok (
        lines (Context.fresh o).declaration (usedNames (.root items)).eraseDups ++
        (if o.assertDivisions then
          lines (fun n => assertion (code n)) (denominators (.root items)) else "") ++
        lines (Context.fresh o).startOf totals ++
        body ++ (if body = "" then "" else ";")) := by
  have hitems : ∀ n ∈ items, Proper n := by
    cases h with
    | row _ hitems => exact hitems
  have hprintable : ∀ n ∈ items, Proper n ∧ Rootless n := fun n hn => ⟨hitems n hn, hroot n hn⟩
  have hnames : usedNames (.root items) = items.flatMap usedNames := usedNames_row .root items
  have hdivisions : denominators (.root items) = items.flatMap denominators :=
    denominators_row .root items
  refine ⟨printedRow o (asCall o) false items, printed o (asCall o) false, ?_, ?_, ?_⟩
  · have hsequence : Rootless (.sequence items) := rootless_row (by decide) hroot
    rw [emit, emitIn_fresh (.row (by decide) hitems) hsequence, printed]
  · rw [hdivisions]
    intro m hm
    obtain ⟨n, hn, hm⟩ := List.mem_flatMap.1 hm
    obtain ⟨hproper, hfree⟩ := denominators_printable (hitems n hn) (hroot n hn) m hm
    rw [emit, emitIn_fresh hproper hfree]
  · rw [foldl_addAccumulator, emitIn_root hprintable, hnames, hdivisions, guardLines,
      statementOf_eq, ← String.append_assoc, ← String.append_assoc]

/-- The nodes of `b/(a/b)+a`. -/
def nestedQuotient : List Node :=
  [.binary .fraction (.identifier "b") (.binary .fraction (.identifier "a") (.identifier "b")),
    .operator "+", .identifier "a"]

theorem emitIn_root_parts_quotient : Proper (.root nestedQuotient) ∧
    (∀ n ∈ nestedQuotient, Rootless n) ∧
    ∃ (body : String) (code : Node → String),
      emit { assertDivisions := true } (.sequence nestedQuotient) = .ok body ∧
      (∀ n ∈ denominators (.root nestedQuotient),
        emit { assertDivisions := true } n = .ok (code n)) ∧
      (emitIn ([⟨"total", "0.0"⟩, ⟨"count", "1.0"⟩].foldl Context.addAccumulator
          (.fresh { assertDivisions := true })) (.root nestedQuotient)).2 = .ok (
        lines (Context.fresh { assertDivisions := true }).declaration
          (usedNames (.root nestedQuotient)).eraseDups ++
        (if ({ assertDivisions := true } : Options).assertDivisions then
          lines (fun n => assertion (code n)) (denominators (.root nestedQuotient)) else "") ++
        lines (Context.fresh { assertDivisions := true }).startOf
          [⟨"total", "0.0"⟩, ⟨"count", "1.0"⟩] ++
        body ++ (if body = "" then "" else ";")) := by
  have hproper : Proper (.root nestedQuotient) := by
    refine .row (by decide) ?_
    simp [nestedQuotient, Proper.leaf, Proper.binary]
  have hroot : ∀ n ∈ nestedQuotient, Rootless n := by
    simp [nestedQuotient, Rootless, Node.preorder]
  exact ⟨hproper, hroot, emitIn_root_parts hproper hroot _ _⟩

example : (emitIn ((Context.fresh { assertDivisions := true }).addAccumulator ⟨"total", "1.0"⟩)
    (.root nestedQuotient)).2 = .ok
      ("double b = 0.0;\ndouble a = 0.0;\n" ++ assertion "a/b" ++ "\n" ++ assertion "b" ++ "\n" ++
        "double total = 1.0;\n" ++ "b/(a/b)+a;") := by
  decide +kernel

end Formulary.Code
