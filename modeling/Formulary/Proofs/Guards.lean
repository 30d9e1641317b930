import Formulary.Proofs.Program
import Formulary.Proofs.Session

/-!
# What the assertions of a root test

A root writes each denominator twice: in its body, after everything that stands before, and alone in
the assertion that guards the division.  The two agree.  To say which text of the body belongs to
which fraction, the emission is followed to the step that writes the denominator (`Takes`): every
node of the tree is visited at some point of the run, and the denominators noted by then are those of
the fractions before it in preorder (`Proper.meets`).  At that point the page ends with a `/`, the
step adds what the assertion tests, in brackets if it needs them, and nothing is written in front of
it later (`emit_root_guards`).
-/

namespace Formulary.Code

/-! ## 1. Steps inside steps -/

theorem inOrder_append {before : List Step} {d d' : Draft} (h : inOrder before d = (d', none))
    (after : List Step) : inOrder (before ++ after) d = inOrder after d' := by
  induction before generalizing d with
  | nil =>
    obtain rfl : d = d' := congrArg Prod.fst h
    rfl
  | cons step rest ih =>
    rw [List.cons_append, inOrder]
    rw [inOrder] at h
    dsimp only at h ⊢
    split at h
    · exact ih h
    · simp at h

theorem inOrder_singleton (step : Step) : inOrder [step] = step := by
  funext d
  rw [inOrder]
  dsimp only
  split
  · next heq => exact heq.symm
  · next heq => exact heq.symm

-- steps in order are one step, and may be taken apart again
theorem inOrder_flatten (before steps after : List Step) :
    inOrder (before ++ inOrder steps :: after) = inOrder (before ++ (steps ++ after)) := by
  have hcongr {xs ys : List Step} (h : inOrder xs = inOrder ys) (step : Step) :
      inOrder (step :: xs) = inOrder (step :: ys) := by
    rw [inOrder, inOrder, h]
  induction before with
  | cons step rest ih => exact hcongr ih step
  | nil =>
    rw [List.nil_append, List.nil_append]
    induction steps with
    | nil => rfl
    | cons step rest ih =>
      rw [List.cons_append, ← hcongr ih step]
      funext d
      rw [inOrder, inOrder, inOrder]
      dsimp only
      cases hstep : step d with
      | mk d' fault =>
        cases fault with
        | none => rfl
        | some fault => rfl

/-- From the draft `d`, the step takes the step `inner` at the draft `d'`, and the steps `after`
when that is done. -/
def Takes (step : Step) (d : Draft) (inner : Step) (d' : Draft) (after : List Step) : Prop :=
  ∃ before, step = inOrder (before ++ inner :: after) ∧ inOrder before d = (d', none)

section

variable {step mid inner : Step} {d d' d'' : Draft} {before after after' : List Step}

theorem takes_self (step : Step) (d : Draft) : Takes step d step d [] :=
  ⟨[], (inOrder_singleton step).symm, rfl⟩

theorem takes_inOrder (h : inOrder before d = (d', none)) :
    Takes (inOrder (before ++ inner :: after)) d inner d' after :=
  ⟨before, rfl, h⟩

theorem Takes.trans (h : Takes step d mid d' after) (h' : Takes mid d' inner d'' after') :
    Takes step d inner d'' (after' ++ after) := by
  obtain ⟨before, rfl, hbefore⟩ := h
  obtain ⟨before', rfl, hbefore'⟩ := h'
  refine ⟨before ++ before', ?_, ?_⟩
  · rw [inOrder_flatten]
    simp only [List.append_assoc, List.cons_append]
  · rw [inOrder_append hbefore, hbefore']

/-- The rest of the run, once the inner step is taken. -/
theorem Takes.run (h : Takes step d inner d' after) : step d = inOrder (inner :: after) d' := by
  obtain ⟨before, rfl, hbefore⟩ := h
  exact inOrder_append hbefore _

end

/-! ## 2. The denominators noted by a step -/

/-- From every draft the step only adds to it, and the denominators it notes are these. -/
def Notes (step : Step) (nodes : List Node) : Prop :=
  ∀ d, ∃ e, Adds step d e ∧ e.divisions = nodes

section

variable {code : Options → Node → Except Fault String}

/-- What steps one after the other note, from what each of them notes. -/
theorem notes_inOrder {steps : List Step} (noted : List (List Node))
    (h : List.Forall₂ Notes steps noted) : Notes (inOrder steps) noted.flatten := by
  induction h with
  | nil => exact fun d => ⟨_, adds_skip d, rfl⟩
  | cons hstep _ ih =>
    intro d
    obtain ⟨e, he, rfl⟩ := hstep d
    obtain ⟨e', he', hdivisions⟩ := ih (d.add e)
    exact ⟨_, he.inOrder_cons he', by rw [List.flatten_cons, ← hdivisions]; rfl⟩

theorem notes_write (text : String) : Notes (write text) [] :=
  fun d => ⟨_, adds_write text d, rfl⟩

theorem notes_writeOption (text : Options → String) : Notes (writeOption text) [] :=
  fun d => ⟨_, adds_writeOption text d, rfl⟩

theorem notes_record (n : Node) : Notes (record n) [] :=
  fun d => ⟨_, adds_record n d, rfl⟩

theorem notes_punctuate (symbol : String) : Notes (punctuate symbol) [] :=
  fun d => ⟨_, adds_punctuate symbol d, rfl⟩

theorem notes_times : Notes times [] :=
  fun _ => ⟨_, adds_times rfl, rfl⟩

theorem notes_require {parent child : Node} (h : Proper child) : Notes (require parent child) [] :=
  fun d => ⟨_, adds_require h d, rfl⟩

theorem notes_addDivision (n : Node) : Notes (note (·.addDivision n)) [n] :=
  fun d => ⟨_, adds_addDivision n d, rfl⟩

theorem Visits.notes {n : Node} (h : Visits code n) : Notes (visitWith code n) (denominators n) :=
  fun d => ⟨_, h d, rfl⟩

theorem notes_visitOperand {n : Node} {step : Step} {nodes : List Node} (h : Notes step nodes) :
    Notes (visitOperand n step) nodes := by
  unfold visitOperand
  split
  · exact h
  · have hinner : Notes (inOrder [punctuate "(", step, punctuate ")"]) ([] ++ (nodes ++ ([] ++ []))) :=
      notes_inOrder [[], nodes, []] (by simp [notes_punctuate, h])
    simpa using hinner

end

/-! ## 3. Coming to a node -/

/-- From every draft the step comes to the visit of the node.  Until then it has noted the given
denominators, and from then on it writes behind the text only. -/
def Meets (code : Options → Node → Except Fault String) (n : Node) (step : Step)
    (nodes : List Node) : Prop :=
  ∀ d : Draft, ∃ d' after, Takes step d (visitWith code n) d' after ∧
    (∀ later ∈ after, Extends true later) ∧ d'.context.options = d.context.options ∧
    d'.context.divisions = d.context.divisions ++ nodes

section

variable {code : Options → Node → Except Fault String} {n : Node}

theorem meets_visitWith : Meets code n (visitWith code n) [] :=
  fun d => ⟨d, [], takes_self _ d, by simp, rfl, by simp⟩

theorem Meets.within {inner : Step} {more : List Node} (h : Meets code n inner more)
    (before after : List Step) (noted : List (List Node)) (hbefore : List.Forall₂ Notes before noted)
    (hafter : ∀ step ∈ after, Extends true step) :
    Meets code n (inOrder (before ++ inner :: after)) (noted.flatten ++ more) := by
  intro d
  obtain ⟨e, he, hnoted⟩ := notes_inOrder noted hbefore d
  obtain ⟨d', later, htakes, hlater, hoptions, hdivisions⟩ := h (d.add e)
  refine ⟨d', later ++ after, (takes_inOrder he).trans htakes, ?_, hoptions, ?_⟩
  · exact List.forall_mem_append.2 ⟨hlater, hafter⟩
  · rw [hdivisions, ← hnoted, ← List.append_assoc]
    rfl

theorem Meets.of_eq {step : Step} {nodes more : List Node} (h : Meets code n step nodes)
    (heq : nodes = more) : Meets code n step more := heq ▸ h

theorem Meets.visitOperand {m : Node} {nodes : List Node}
    (h : Meets code n (visitWith code m) nodes) :
    Meets code n (visitOperand m (visitWith code m)) nodes := by
  unfold Code.visitOperand
  split
  · exact h
  · exact h.within [punctuate "("] [punctuate ")"] [[]] (by simp [notes_punctuate])
      (by simp [closed_extends.punctuate])

/-- The visit of the tree comes to its node `n`, wherever that stands, when it has noted the
denominators of the fractions before it. -/
def Reached (code : Options → Node → Except Fault String) (n tree : Node) : Prop :=
  ∀ front back, tree.preorder = front ++ n :: back →
    Meets code n (visitWith code tree) (front.filterMap denominator?)

theorem meets_visitRowWith {items : List Node} (hvisits : ∀ m ∈ items, Visits code m)
    (hroot : ∀ m ∈ items, Rootless m) (h : ∀ m ∈ items, Reached code n m) {front back : List Node}
    (hcut : Node.preorderRow items = front ++ n :: back) :
    Meets code n (visitRowWith code items) (front.filterMap denominator?) := by
  induction items generalizing front with
  | nil => simp [Node.preorderRow] at hcut
  | cons m rest ih =>
    obtain ⟨hm, hrest⟩ := List.forall_mem_cons.1 h
    obtain ⟨hvisit, hvisits⟩ := List.forall_mem_cons.1 hvisits
    obtain ⟨-, hroot⟩ := List.forall_mem_cons.1 hroot
    have hlater : Extends true (visitRowWith code rest) :=
      closed_extends.visitRowWith fun m hm => extends_visitWith fun _ => hroot m hm
    rw [Node.preorderRow] at hcut
    rw [visitRowWith]
    obtain ⟨between, hm', -⟩ | ⟨between, rfl, hcut'⟩ := cut_append hcut
    · exact (hm front between hm').within [] [visitRowWith code rest] [] .nil
        (by simp [hlater])
    · rw [List.filterMap_append]
      exact .of_eq ((ih hvisits hroot hrest hcut').within [visitWith code m] [] [denominators m]
        (by simp [hvisit.notes]) (by simp)) (by simp [denominators])

theorem meets_visitWith_row {kind : RowKind} {items nodes : List Node} (hkind : kind ≠ .bare)
    (hroot : kind ≠ .root) (h : Meets code n (visitRowWith code items) nodes) :
    Meets code n (visitWith code (.row kind items)) nodes := by
  have hwithin := h.within [record (.row kind items)] [] [[]] (by simp [notes_record]) (by simp)
  cases kind with
  | bare => exact absurd rfl hkind
  | root => exact absurd rfl hroot
  | sequence | style =>
    rw [visitWith]
    · exact hwithin
    · simp
    · simp

theorem meets_visitWith_unary {kind : UnaryKind} {content : Node} {nodes : List Node}
    (hproper : Proper content) (h : Meets code n (visitWith code content) nodes) :
    Meets code n (visitWith code (.unary kind content)) nodes := by
  cases kind with
  | fenced =>
    rw [visitWith]
    exact h.within [record _, times, write "(", require _ content] [write ")"] [[], [], [], []]
      (by simp [notes_record, notes_times, notes_write, notes_require hproper])
      (by simp [extends_write])
  | squareRoot =>
    have hbrackets : Meets code n (if content.isBracketed then visitWith code content
        else inOrder [write "(", visitWith code content, write ")"]) nodes := by
      split
      · exact h
      · exact h.within [write "("] [write ")"] [[]] (by simp [notes_write]) (by simp [extends_write])
    rw [visitWith]
    exact hbrackets.within [record _, require _ content, times, writeOption _] [] [[], [], [], []]
      (by simp [notes_record, notes_times, notes_writeOption, notes_require hproper]) (by simp)

section

variable {kind : BinaryKind} {left right : Node} {nodes : List Node}

theorem meets_visitWith_left (hl : Proper left) (hr : Proper right) (hrootr : Rootless right)
    (h : Meets code n (visitWith code left) nodes) : Meets code n
      (visitWith code (.binary kind left right))
      ((denominator? (.binary kind left right)).toList ++ nodes) := by
  have hlater : Extends true (visitWith code right) := extends_visitWith fun _ => hrootr
  cases kind with
  | power =>
    rw [visitWith]
    exact h.within [record _, times, writeOption _, require _ left]
      [punctuate ", ", require _ right, visitWith code right, write ")"] [[], [], [], []]
      (by simp [notes_record, notes_times, notes_writeOption, notes_require hl])
      (by simp [closed_extends.punctuate, extends_require, extends_write, hlater])
  | fraction =>
    rw [visitWith]
    exact h.visitOperand.within
      [record _, require _ left, require _ right, note (·.addDivision right), times]
      [punctuate "/", visitOperand right (visitWith code right)] [[], [], [], [right], []]
      (by simp [notes_record, notes_times, notes_addDivision, notes_require hl, notes_require hr])
      (by simp [closed_extends.punctuate, closed_extends.visitOperand hlater])

theorem meets_visitWith_right (hl : Proper left) (hr : Proper right) (hrootl : Rootless left)
    (h : Meets code n (visitWith code right) nodes) : Meets code n
      (visitWith code (.binary kind left right))
      ((denominator? (.binary kind left right)).toList ++ (denominators left ++ nodes)) := by
  have hleft : Notes (visitWith code left) (denominators left) := (hl.visits hrootl).notes
  cases kind with
  | power =>
    rw [visitWith]
    exact .of_eq (h.within
      [record _, times, writeOption _, require _ left, visitWith code left, punctuate ", ",
        require _ right] [write ")"] [[], [], [], [], denominators left, [], []]
      (by simp [notes_record, notes_times, notes_writeOption, notes_require hl, hleft,
        notes_punctuate, notes_require hr])
      (by simp [extends_write])) (by simp [denominator?])
  | fraction =>
    rw [visitWith]
    exact .of_eq (h.visitOperand.within
      [record _, require _ left, require _ right, note (·.addDivision right), times,
        visitOperand left (visitWith code left), punctuate "/"] []
      [[], [], [], [right], [], denominators left, []]
      (by simp [notes_record, notes_times, notes_addDivision, notes_require hl, notes_require hr,
        notes_visitOperand hleft, notes_punctuate])
      (by simp)) (by simp [denominator?])

end

-- a node of a tree is the tree itself, or a node of one of its children
theorem Proper.cut_preorder {tree : Node} (h : Proper tree) {front back : List Node}
    (hcut : tree.preorder = front ++ n :: back) : (n = tree ∧ front = []) ∨
      ∃ rest, front = tree :: rest ∧ Node.preorderRow tree.children = rest ++ n :: back := by
  have hself : tree.preorder = tree :: Node.preorderRow tree.children := by
    cases h with
    | leaf kind text => rw [Node.preorder] <;> simp [Node.children, Node.preorderRow]
    | row => rw [Node.preorder, Node.children]
    | unary => simp [Node.preorder, Node.children, Node.preorderRow]
    | binary => simp [Node.preorder, Node.children, Node.preorderRow]
  rw [hself] at hcut
  cases front with
  | nil => exact .inl ⟨(List.cons.inj hcut).1.symm, rfl⟩
  | cons first rest =>
    obtain ⟨rfl, hrest⟩ := List.cons.inj hcut
    exact .inr ⟨rest, rfl, hrest⟩

/-- **Every node of a tree is visited**, and the fractions before it have been noted then. -/
theorem Proper.reached {tree : Node} (h : Proper tree) (hroot : Rootless tree) :
    Reached code n tree := by
  have hproper := h
  induction h with
  | leaf kind text =>
    intro front back hcut
    obtain ⟨rfl, rfl⟩ | ⟨rest, -, hrest⟩ := hproper.cut_preorder hcut
    · exact meets_visitWith
    · simp [Node.children, Node.preorderRow] at hrest
  | @row kind items hkind hitems ih =>
    intro front back hcut
    obtain ⟨rfl, rfl⟩ | ⟨rest, rfl, hrest⟩ := hproper.cut_preorder hcut
    · exact meets_visitWith
    · have hitem : ∀ m ∈ items, Rootless m := fun m hm => hroot.of_mem hm
      have hkind' : kind ≠ .root := by
        rintro rfl
        exact hroot items (by simp [Node.preorder])
      rw [List.filterMap_cons_none (by rfl)]
      exact meets_visitWith_row hkind hkind' (meets_visitRowWith
        (fun m hm => (hitems m hm).visits (hitem m hm)) hitem
        (fun m hm => ih m hm (hitem m hm) (hitems m hm)) hrest)
  | @unary kind content h ih =>
    intro front back hcut
    obtain ⟨rfl, rfl⟩ | ⟨rest, rfl, hrest⟩ := hproper.cut_preorder hcut
    · exact meets_visitWith
    · rw [Node.children, Node.preorderRow, Node.preorderRow, List.append_nil] at hrest
      exact meets_visitWith_unary h (ih hroot.content h rest back hrest)
  | @binary kind left right hl hr ihl ihr =>
    intro front back hcut
    obtain ⟨rfl, rfl⟩ | ⟨rest, rfl, hrest⟩ := hproper.cut_preorder hcut
    · exact meets_visitWith
    obtain ⟨hrootl, hrootr⟩ := hroot.operands
    rw [Node.children, Node.preorderRow, Node.preorderRow, Node.preorderRow, List.append_nil] at hrest
    have hself (rest : List Node) : (Node.binary kind left right :: rest).filterMap denominator? =
        (denominator? (.binary kind left right)).toList ++ rest.filterMap denominator? := by
      cases kind <;> rfl
    rw [hself]
    obtain ⟨between, hleft, -⟩ | ⟨between, rfl, hright⟩ := cut_append hrest
    · exact meets_visitWith_left hl hr hrootr (ihl hrootl hl rest between hleft)
    · rw [List.filterMap_append]
      exact meets_visitWith_right hl hr hrootl (ihr hrootr hr between back hright)

end

/-! ## 4. Assertions and bodies -/

section

variable {code : Options → Node → Except Fault String} {left right : Node}

/-- The last step of a fraction writes the denominator, behind the sign. -/
theorem takes_denominator (hl : Proper left) (hr : Proper right) (hrootl : Rootless left)
    (d : Draft) : ∃ d' written,
      Takes (visitWith code (.binary .fraction left right)) d
        (visitOperand right (visitWith code right)) d' [] ∧
      d'.context.options = d.context.options ∧ d'.context.valueBefore = false ∧
      d'.context.divisions = d.context.divisions ++ right :: denominators left ∧
      d'.text = written ++ "/" := by
  have hleft : Notes (visitWith code left) (denominators left) := (hl.visits hrootl).notes
  let before : List Step := [record (.binary .fraction left right),
    require (.binary .fraction left right) left, require (.binary .fraction left right) right,
    note (·.addDivision right), times, visitOperand left (visitWith code left)]
  have hbefore : List.Forall₂ Notes before [[], [], [], [right], [], denominators left] := by
    simp [before, notes_record, notes_times, notes_addDivision, notes_require hl, notes_require hr,
      notes_visitOperand hleft]
  obtain ⟨e, he, hdivisions⟩ := notes_inOrder _ hbefore d
  have hsign : inOrder (before ++ [punctuate "/"]) d =
      ((d.add e).add { text := "/", tokens := [.operator "/"] }, none) := by
    rw [inOrder_append he]
    exact (adds_punctuate "/" (d.add e)).inOrder_single
  refine ⟨(d.add e).add { text := "/", tokens := [.operator "/"] }, d.text ++ e.text, ?_, rfl,
    by simp, ?_, rfl⟩
  · rw [visitWith]
    exact takes_inOrder hsign
  · simp [Draft.add, hdivisions]

theorem operands_printable_of_row {kind : BinaryKind} {items front back : List Node}
    (h : ∀ n ∈ items, Proper n ∧ Rootless n)
    (hcut : Node.preorderRow items = front ++ .binary kind left right :: back) :
    (Proper left ∧ Rootless left) ∧ (Proper right ∧ Rootless right) := by
  have hmem : Node.binary kind left right ∈ Node.preorderRow items := by simp [hcut]
  obtain ⟨item, hitem, hmem⟩ := Formula.mem_preorderRow.1 hmem
  exact operands_printable (printable_of_mem_preorder (h item hitem).1 (h item hitem).2 _ hmem)

/-- The nodes of a row come to every denominator, and what they write from then on stands behind
it. -/
theorem takes_denominator_of_row (code : Options → Node → Except Fault String)
    {items front back : List Node} (h : ∀ n ∈ items, Proper n ∧ Rootless n)
    (hcut : Node.preorderRow items = front ++ .binary .fraction left right :: back) (start : Draft) :
    let o := start.context.options
    let denominator := operandText right (printed o (asCall o) false right)
    ∃ d after written more,
      Takes (visitRowWith code items) start (visitOperand right (visitWith code right)) d after ∧
      d.context.divisions =
        start.context.divisions ++ (front.filterMap denominator? ++ right :: denominators left) ∧
      d.text = written ++ "/" ∧
      (visitOperand right (visitWith code right) d).1.text = d.text ++ denominator ∧
      (visitRowWith code items start).1.text = d.text ++ denominator ++ more := by
  intro o denominator
  obtain ⟨⟨hl, hrootl⟩, hr, hrootr⟩ := operands_printable_of_row h hcut
  have hvisits (n : Node) (hn : n ∈ items) : Visits code n := (h n hn).1.visits (h n hn).2
  -- the row comes to the fraction, and the fraction to its denominator
  obtain ⟨d, after, hfraction, hafter, hoptions, hdivisions⟩ := meets_visitRowWith hvisits
    (fun n hn => (h n hn).2) (fun n hn => (h n hn).1.reached (h n hn).2) hcut start
  obtain ⟨d', written, hright, hoptions', hvalue, hdivisions', htext⟩ :=
    takes_denominator hl hr hrootl d
  have htakes := hfraction.trans hright
  have hstep : visitOperand right (visitWith code right) d' = (d'.add (operandEffect o right), none) := by
    have hvisit : Visits code right := hr.visits hrootr
    rw [show o = d'.context.options from (hoptions'.trans hoptions).symm]
    exact hvisit.operand hvalue
  obtain ⟨front', more, hmore, hfront'⟩ :=
    (extends_inOrder hafter (d'.add (operandEffect o right))).text
  refine ⟨d', after, written, more, htakes, ?_, htext, ?_, ?_⟩
  · rw [hdivisions', hdivisions, List.append_assoc]
  · rw [hstep]
    rfl
  · rw [htakes.run, inOrder_cons (by rw [hstep]), hstep]
    rw [hfront' rfl, String.empty_append] at hmore
    exact hmore

end

theorem getElem?_denominators {n left right : Node} {front back : List Node}
    (h : n.preorder = front ++ .binary .fraction left right :: back) :
    (denominators n)[(front.filterMap denominator?).length]? = some right := by
  rw [denominators, h, List.filterMap_append, List.getElem?_append_right (Nat.le_refl _), Nat.sub_self]
  rfl

theorem lines_map {α β : Type} (line : β → String) (f : α → β) (items : List α) :
    lines line (items.map f) = lines (fun item => line (f item)) items := by
  rw [lines, List.map_map, lines]
  rfl

/-- **An assertion tests what is divided by.**  The code of a root has as many assertions as the tree
has fractions.  For every fraction, wherever it stands, the emission comes to the step that writes its
denominator, when the fraction and those before it have been noted.  The page ends with a `/` then, and
the step adds the code that the assertion of the fraction tests, which is the code of the denominator by
itself, in brackets if it needs them.  This stays a part of the statement. -/
theorem emit_root_guards {items : List Node} (h : Proper (.root items))
    (hroot : ∀ n ∈ items, Rootless n) {o : Options} (ho : o.assertDivisions = true) :
    ∃ (tests : List String) (body : String),
      emit o (.root items) = .ok (
        lines (Context.fresh o).declaration (usedNames (.root items)).eraseDups ++
        lines assertion tests ++ statementOf body) ∧
      tests.length = (denominators (.root items)).length ∧
      ∀ front left right back,
        (Node.root items).preorder = front ++ .binary .fraction left right :: back →
        ∃ test d after written more,
          tests[(front.filterMap denominator?).length]? = some test ∧ emit o right = .ok test ∧
          Takes (visit (.root items)) { context := .fresh o } (visitOperand right (visit right)) d
            (after ++ [endStatement, addHeader denominatorCode]) ∧
          d.context.divisions = front.filterMap denominator? ++ right :: denominators left ∧
          d.text = written ++ "/" ∧
          (visitOperand right (visit right) d).1.text =
            written ++ "/" ++ operandText right test ∧
          body = written ++ "/" ++ operandText right test ++ more := by
  have hitems : ∀ n ∈ items, Proper n ∧ Rootless n := by
    cases h with
    | row _ hitems => exact fun n hn => ⟨hitems n hn, hroot n hn⟩
  refine ⟨(denominators (.root items)).map (printed o (asCall o) false),
    printedRow o (asCall o) false items, ?_, by simp, ?_⟩
  · rw [emit_root_lines hitems, usedNames_row, denominators_row, guardLines, if_pos ho, lines_map]
  intro front left right back hcut
  obtain ⟨habsurd, -⟩ | ⟨rest, rfl, hrest⟩ := h.cut_preorder hcut
  · cases habsurd
  let start : Draft := { context := (Context.fresh o).record (.root items) }
  obtain ⟨d, after, written, more, htakes, hdivisions, htext, hstep, hbody⟩ :=
    takes_denominator_of_row denominatorCode hitems hrest start
  obtain ⟨-, hr, hrootr⟩ := operands_printable_of_row hitems hrest
  refine ⟨printed o (asCall o) false right, d, after, written, more, ?_, ?_, ?_, hdivisions, htext,
    ?_, ?_⟩
  · rw [List.getElem?_map, getElem?_denominators hcut]
    rfl
  · rw [emit, emitIn_fresh hr hrootr]
  · have hrecord : inOrder [record (.root items)] { context := .fresh o } = (start, none) := rfl
    rw [visit, visitWith]
    exact (takes_inOrder hrecord).trans htakes
  · rw [← htext]
    exact hstep
  · have hrow : visitRowWith denominatorCode items start = (start.add (rowEffect o false items), none) :=
      adds_visitRowWith (fun n hn => (hitems n hn).1.visits (hitems n hn).2) start
    rw [hrow, htext] at hbody
    rw [← String.empty_append (s := printedRow o (asCall o) false items)]
    exact hbody

/-- The product `y*(z)`. -/
def productNode : Node :=
  .sequence [.identifier "y", .unary .fenced (.identifier "z")]

/-- The nodes of `x*2/(y*(z))`: a value stands before the fraction, and its denominator is a product. -/
def guardedQuotient : List Node :=
  [.identifier "x", .binary .fraction (.number "2") productNode]

theorem emit_root_guards_product : ∃ (tests : List String) (body : String),
    emit { assertDivisions := true } (.root guardedQuotient) = .ok (
      lines (Context.fresh { assertDivisions := true }).declaration
        (usedNames (.root guardedQuotient)).eraseDups ++
      lines assertion tests ++ statementOf body) ∧
    tests.length = 1 ∧
    ∃ test d after written more,
      tests[0]? = some test ∧ emit { assertDivisions := true } productNode = .ok test ∧
      Takes (visit (.root guardedQuotient)) { context := .fresh { assertDivisions := true } }
        (visitOperand productNode (visit productNode)) d
        (after ++ [endStatement, addHeader denominatorCode]) ∧
      d.context.divisions = [productNode] ∧ d.text = written ++ "/" ∧
      (visitOperand productNode (visit productNode) d).1.text =
        written ++ "/" ++ ("(" ++ test ++ ")") ∧
      body = written ++ "/" ++ ("(" ++ test ++ ")") ++ more := by
  have hproduct : Proper productNode := .row (by decide) (by simp [Proper.leaf, Proper.unary])
  have hproper : Proper (.root guardedQuotient) := by
    refine .row (by decide) ?_
    simp [guardedQuotient, Proper.leaf, Proper.binary, hproduct]
  have hroot : ∀ n ∈ guardedQuotient, Rootless n := by
    simp [guardedQuotient, productNode, Rootless, Node.preorder, Node.preorderRow]
  obtain ⟨tests, body, hcode, hlength, hall⟩ :=
    emit_root_guards hproper hroot (o := { assertDivisions := true }) rfl
  exact ⟨tests, body, hcode, hlength.trans (by decide), hall [.root guardedQuotient, .identifier "x"]
    (.number "2") productNode (.number "2" :: productNode.preorder) (by decide)⟩

example : emit { assertDivisions := true } (.root guardedQuotient) = .ok
    ("double x = 0.0;\ndouble y = 0.0;\ndouble z = 0.0;\n" ++ assertion "y*(z)" ++ "\n" ++
      "x*2/(y*(z));") := by
  decide +kernel

end Formulary.Code
