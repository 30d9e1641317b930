import Formulary.Code.Emission

/-!
# Trees for which code can be written

What a step of an emission keeps, a visit keeps, if it is kept by the steps of the visit and by steps one
after the other (`Closed`).  A step is safe if it ends without a fault and asks later for no other
denominators than trees for which code can be written.  Safe steps one after the other are a safe step,
so every proper tree has code, whatever the options are (`Proper.emit`).
-/

namespace Formulary.Code

/-! ## 1. Proper trees -/

/-- A tree all of whose nodes are of a kind that code can be written for. -/
inductive Proper : Node → Prop
  | leaf (kind : LeafKind) (text : String) : Proper (.leaf kind text)
  | row {kind : RowKind} {items : List Node} (hkind : kind ≠ .bare) (h : ∀ n ∈ items, Proper n) :
      Proper (.row kind items)
  | unary {kind : UnaryKind} {content : Node} (h : Proper content) : Proper (.unary kind content)
  | binary {kind : BinaryKind} {left right : Node} (hl : Proper left) (hr : Proper right) :
      Proper (.binary kind left right)

/-- Code that can be given for every proper tree. -/
def Covers (code : Options → Node → Except Fault String) : Prop :=
  ∀ options n, Proper n → ∃ text, code options n = .ok text

/-! ## 2. Properties that the steps of a visit keep -/

/-- The property holds of every step that does not depend on the tree, and of steps one after the other
if it holds of each of them. -/
structure Closed (P : Step → Prop) : Prop where
  write (text : String) : P (write text)
  writeOption (text : Options → String) : P (writeOption text)
  times : P times
  record (n : Node) : P (record n)
  addVariable (name : String) : P (note (·.addVariable name))
  inOrder {steps : List Step} (h : ∀ step ∈ steps, P step) : P (inOrder steps)

section

variable {P : Step → Prop} {code : Options → Node → Except Fault String}

theorem Closed.skip (hP : Closed P) : P Code.skip := by
  have hnone : P (Code.inOrder []) := hP.inOrder (by simp)
  exact hnone

theorem Closed.punctuate (hP : Closed P) (symbol : String) : P (Code.punctuate symbol) := by
  apply hP.inOrder
  simp [hP.record, hP.write]

theorem Closed.visitLeaf (hP : Closed P) (kind : LeafKind) (text : String) :
    P (Code.visitLeaf kind text) := by
  cases kind with
  | identifier =>
    apply hP.inOrder
    simp [hP.addVariable, hP.write]
  | number =>
    apply hP.inOrder
    simp [hP.write, hP.writeOption]
  | operator =>
    apply hP.inOrder
    by_cases h : text = "("
    · -- an opening bracket after a value is a product
      simp [h, hP.times, hP.write]
    · simp [h, hP.skip, hP.write]
  | remark => exact hP.skip

theorem Closed.visitOperand (hP : Closed P) {n : Node} {step : Step} (h : P step) :
    P (Code.visitOperand n step) := by
  unfold Code.visitOperand
  split
  · exact h
  · apply hP.inOrder
    simp [hP.punctuate, h]

theorem Closed.visitRowWith (hP : Closed P) {items : List Node}
    (h : ∀ n ∈ items, P (visitWith code n)) : P (Code.visitRowWith code items) := by
  induction items with
  | nil => exact hP.skip
  | cons n rest ih =>
    obtain ⟨hn, hrest⟩ := List.forall_mem_cons.1 h
    rw [Code.visitRowWith]
    apply hP.inOrder
    simp [hn, ih hrest]

/-! The visit of a node has the property if the visits of its children have it, and those of its own
steps that depend on the tree. -/

theorem Closed.visit_leaf (hP : Closed P) (kind : LeafKind) (text : String) :
    P (visitWith code (.leaf kind text)) := by
  rw [visitWith]
  apply hP.inOrder
  simp [hP.record, hP.visitLeaf]

theorem Closed.visit_row (hP : Closed P) {kind : RowKind} {items : List Node} (hbare : kind ≠ .bare)
    (hroot : kind ≠ .root) (h : ∀ n ∈ items, P (visitWith code n)) :
    P (visitWith code (.row kind items)) := by
  rw [visitWith]
  · apply hP.inOrder
    simp [hP.record, hP.visitRowWith h]
  · exact hbare
  · exact hroot

theorem Closed.visit_root (hP : Closed P) {items : List Node} (hend : P endStatement)
    (hheader : P (addHeader code)) (h : ∀ n ∈ items, P (visitWith code n)) :
    P (visitWith code (.root items)) := by
  rw [visitWith]
  apply hP.inOrder
  simp [hP.record, hP.visitRowWith h, hend, hheader]

theorem Closed.visit_unary (hP : Closed P) {kind : UnaryKind} {content : Node}
    (hrequire : ∀ parent, P (require parent content)) (h : P (visitWith code content)) :
    P (visitWith code (.unary kind content)) := by
  cases kind with
  | fenced =>
    rw [visitWith]
    apply hP.inOrder
    simp [hP.record, hP.times, hP.write, hrequire, h]
  | squareRoot =>
    have hbrackets : P (Code.inOrder [Code.write "(", visitWith code content, Code.write ")"]) := by
      apply hP.inOrder
      simp [hP.write, h]
    rw [visitWith]
    apply hP.inOrder
    by_cases hb : content.isBracketed = true
    · simp [hP.record, hP.times, hP.writeOption, hrequire, h, hb]
    · simp [hP.record, hP.times, hP.writeOption, hrequire, hbrackets, hb]

theorem Closed.visit_binary (hP : Closed P) {kind : BinaryKind} {left right : Node}
    (hrequirel : ∀ parent, P (require parent left)) (hrequirer : ∀ parent, P (require parent right))
    (hdivision : P (note (·.addDivision right))) (hl : P (visitWith code left))
    (hr : P (visitWith code right)) : P (visitWith code (.binary kind left right)) := by
  cases kind with
  | power =>
    rw [visitWith]
    apply hP.inOrder
    simp [hP.record, hP.times, hP.writeOption, hrequirel, hrequirer, hP.punctuate, hP.write, hl, hr]
  | fraction =>
    rw [visitWith]
    apply hP.inOrder
    simp [hP.record, hP.times, hrequirel, hrequirer, hP.punctuate, hdivision, hP.visitOperand hl,
      hP.visitOperand hr]

end

/-! ## 3. Safe steps -/

/-- All denominators noted so far are proper. -/
def Draft.Sound (d : Draft) : Prop :=
  ∀ n ∈ d.context.divisions, Proper n

/-- From a sound draft, the step leads to a sound draft, without a fault. -/
def Safe (step : Step) : Prop :=
  ∀ d : Draft, d.Sound → (step d).2 = none ∧ (step d).1.Sound

theorem safe_skip : Safe skip :=
  fun _ hd => ⟨rfl, hd⟩

theorem safe_write (s : String) : Safe (write s) :=
  fun _ hd => ⟨rfl, hd⟩

theorem safe_endStatement : Safe endStatement :=
  fun _ hd => ⟨rfl, hd⟩

theorem safe_note {change : Context → Context} (h : ∀ c, (change c).divisions = c.divisions) :
    Safe (note change) := by
  intro d hd
  refine ⟨rfl, ?_⟩
  show ∀ n ∈ (change d.context).divisions, Proper n
  rw [h]
  exact hd

theorem safe_times : Safe times := by
  intro d hd
  unfold times
  split
  · exact safe_write "*" d hd
  · exact safe_skip d hd

theorem safe_addVariable (name : String) : Safe (note (·.addVariable name)) := by
  apply safe_note
  intro c
  unfold Context.addVariable
  split <;> rfl

-- after a step without a fault the rest goes on
theorem inOrder_cons {step : Step} {rest : List Step} {d : Draft} (h : (step d).2 = none) :
    inOrder (step :: rest) d = inOrder rest (step d).1 := by
  rw [inOrder]
  dsimp only
  generalize step d = result at h ⊢
  obtain ⟨d', fault⟩ := result
  obtain rfl : fault = none := h
  rfl

theorem safe_inOrder {steps : List Step} (h : ∀ step ∈ steps, Safe step) :
    Safe (inOrder steps) := by
  induction steps with
  | nil => exact safe_skip
  | cons step rest ih =>
    obtain ⟨hstep, hrest⟩ := List.forall_mem_cons.1 h
    intro d hd
    obtain ⟨hnone, hsound⟩ := hstep d hd
    rw [inOrder_cons hnone]
    exact ih hrest (step d).1 hsound

theorem closed_safe : Closed Safe where
  write := safe_write
  writeOption _ _ hd := ⟨rfl, hd⟩
  times := safe_times
  record _ := safe_note fun _ => rfl
  addVariable := safe_addVariable
  inOrder := safe_inOrder

theorem safe_addDivision {n : Node} (h : Proper n) : Safe (note (·.addDivision n)) := by
  intro d hd
  refine ⟨rfl, fun m hm => ?_⟩
  rcases List.mem_append.1 hm with hm | hm
  · exact hd m hm
  · rw [List.mem_singleton.1 hm]
    exact h

theorem safe_require {child : Node} (h : Proper child) (parent : Node) :
    Safe (require parent child) := by
  cases h <;> exact safe_skip

/-! ## 4. Roots and all nodes -/

theorem exists_assertions {code : Node → Except Fault String} {nodes : List Node}
    (h : ∀ n ∈ nodes, ∃ text, code n = .ok text) : ∃ text, assertions code nodes = .ok text := by
  induction nodes with
  | nil => exact ⟨"", rfl⟩
  | cons n rest ih =>
    obtain ⟨⟨text, hn⟩, hrest⟩ := List.forall_mem_cons.1 h
    obtain ⟨more, hmore⟩ := ih hrest
    refine ⟨assertion text ++ "\n" ++ more, ?_⟩
    rw [assertions, hn]
    dsimp only
    rw [hmore]
    rfl

theorem safe_addHeader {code : Options → Node → Except Fault String} (h : Covers code) :
    Safe (addHeader code) := by
  intro d hd
  unfold addHeader
  dsimp only
  split
  · -- the guards are the only place where another tree is written
    obtain ⟨guards, hguards⟩ :=
      exists_assertions fun n hn => h d.context.options n (hd n hn)
    rw [hguards]
    exact ⟨rfl, hd⟩
  · exact ⟨rfl, hd⟩

theorem Proper.safe {code : Options → Node → Except Fault String} (hcode : Covers code)
    {n : Node} (h : Proper n) : Safe (visitWith code n) := by
  induction h with
  | leaf kind text => exact closed_safe.visit_leaf kind text
  | @row kind items hkind _ ih =>
    cases kind with
    -- a row of no particular kind is the one row that has no code
    | bare => exact absurd rfl hkind
    | root => exact closed_safe.visit_root safe_endStatement (safe_addHeader hcode) ih
    | sequence | style => exact closed_safe.visit_row (by simp) (by simp) ih
  | unary h ih => exact closed_safe.visit_unary (safe_require h) ih
  | binary hl hr ihl ihr =>
    exact closed_safe.visit_binary (safe_require hl) (safe_require hr) (safe_addDivision hr) ihl ihr

/-! ## 5. Denominators and trees -/

theorem Draft.sound_fresh (options : Options) :
    Draft.Sound { context := .fresh options } := by
  simp [Draft.Sound, Context.fresh]

theorem covers_codeWith {code : Options → Node → Except Fault String} (hcode : Covers code) :
    Covers (codeWith code) := by
  intro options n h
  obtain ⟨hnone, -⟩ := h.safe hcode _ (Draft.sound_fresh options)
  unfold codeWith
  generalize visitWith code n { context := .fresh options } = result at hnone ⊢
  obtain ⟨d, fault⟩ := result
  obtain rfl : fault = none := hnone
  exact ⟨d.text, rfl⟩

theorem covers_codeWithin (depth : Nat) : Covers (codeWithin depth) := by
  -- with no depth left, denominators of denominators are written as nothing
  induction depth with
  | zero => exact covers_codeWith fun _ _ _ => ⟨"", rfl⟩
  | succ depth ih => exact covers_codeWith ih

theorem covers_denominatorCode : Covers denominatorCode :=
  fun options n h => covers_codeWithin (divisionDepth n) options n h

theorem emit_eq_codeWith (options : Options) (n : Node) :
    emit options n = codeWith denominatorCode options n := by
  unfold emit emitIn visit codeWith
  generalize visitWith denominatorCode n { context := .fresh options } = result
  obtain ⟨d, fault⟩ := result
  cases fault <;> rfl

/-- **Every proper tree has code, under all options.** -/
theorem Proper.emit {n : Node} (h : Proper n) (options : Options) :
    ∃ code, emit options n = .ok code := by
  rw [emit_eq_codeWith]
  exact covers_codeWith covers_denominatorCode options n h

end Formulary.Code
