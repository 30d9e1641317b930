import Formulary.Proofs.Emission
import Formulary.Proofs.Validity

/-!
# What a visit adds to a draft

A visit of a proper tree without roots only adds to the draft: a text, the nodes it records, the
names it uses, and the denominators it divides by (`Effect`).  The text is that of a printer
(`printed`), which is told whether a value stands before the node and how a power is written from the
texts of its operands; emission writes powers as calls (`asCall`).  The nodes recorded are the trail
of the node, and the names and denominators are those of the tree in preorder.

The two main results are `Proper.visits` for a node and `adds_visitRowWith` for the nodes of a row.
-/

namespace Formulary.Code

/-! ## 1. The trail of a node -/

/-- Does a value stand before the node that is visited next? -/
def Context.valueBefore (c : Context) : Bool :=
  (c.tokens.reverse.find? fun n => !isTransparent n).any endsValue

/-- The flag after a node is recorded. -/
def Context.seen (after : Bool) (n : Node) : Bool :=
  if Context.isTransparent n then after else Context.endsValue n

theorem Context.followsValue_record (c : Context) (n : Node) :
    (c.record n).followsValue = c.valueBefore := by
  rw [followsValue, record, List.dropLast_concat, valueBefore]

/-- What is recorded for an operand of a division, from its own trail. -/
def operandTrail (n : Node) (tokens : List Node) : List Node :=
  if isAtomic n then tokens else .operator "(" :: tokens ++ [.operator ")"]

mutual

/-- The nodes that a visit records: the node and all below it, and the signs between its operands. -/
def trail : Node → List Node
  | .row kind items => .row kind items :: trailRow items
  | .unary kind content => .unary kind content :: trail content
  | .binary .power left right =>
    .binary .power left right :: (trail left ++ .operator ", " :: trail right)
  | .binary .fraction left right =>
    .binary .fraction left right ::
      (operandTrail left (trail left) ++ .operator "/" :: operandTrail right (trail right))
  | .leaf kind text => [.leaf kind text]
  | .bare | .missing | .stray _ => []

/-- The nodes that the visit of a row records. -/
def trailRow : List Node → List Node
  | [] => []
  | n :: rest => trail n ++ trailRow rest

end

/-- Does a value stand after some recorded nodes, if one stands before them or not? -/
def Context.seenAll (after : Bool) (tokens : List Node) : Bool :=
  tokens.foldl seen after

section

variable (after : Bool)

@[simp]
theorem Context.seenAll_nil : seenAll after [] = after := rfl

@[simp]
theorem Context.seenAll_cons (n : Node) (rest : List Node) :
    seenAll after (n :: rest) = seenAll (seen after n) rest := rfl

@[simp]
theorem Context.seen_unary (kind : UnaryKind) (content : Node) :
    seen after (.unary kind content) = false := rfl

@[simp]
theorem Context.seen_binary (kind : BinaryKind) (left right : Node) :
    seen after (.binary kind left right) = false := rfl

@[simp]
theorem Context.seen_operator (symbol : String) :
    seen after (.operator symbol) = (symbol == ")") := rfl

theorem Context.seen_row {kind : RowKind} (h : kind ≠ .bare) (items : List Node) :
    seen after (.row kind items) = after := by
  cases kind with
  | bare => exact absurd rfl h
  | _ => rfl

end

@[simp]
theorem Context.seenAll_append (after : Bool) (xs ys : List Node) :
    seenAll after (xs ++ ys) = seenAll (seenAll after xs) ys := by
  rw [seenAll, seenAll, seenAll, List.foldl_append]

-- an operand in brackets is a value, whatever it ends with
theorem Context.seenAll_operandTrail (n : Node) (tokens : List Node) :
    seenAll false (operandTrail n tokens) =
      (!isAtomic n || seenAll false tokens) := by
  unfold operandTrail
  cases isAtomic n <;> simp

theorem Context.valueBefore_eq_seenAll (c : Context) : c.valueBefore = seenAll false c.tokens := by
  -- the last node that counts decides, and that is the last one the fold does not pass over
  have key (tokens : List Node) (after : Bool) : seenAll after tokens =
      ((tokens.reverse.find? fun n => !isTransparent n).map endsValue).getD after := by
    induction tokens generalizing after with
    | nil => rfl
    | cons n rest ih =>
      rw [seenAll_cons, ih, seen, List.reverse_cons, List.find?_append, List.find?_cons, List.find?_nil]
      cases rest.reverse.find? fun n => !isTransparent n with
      | some m => rfl
      | none => cases isTransparent n <;> rfl
  rw [key, valueBefore]
  cases c.tokens.reverse.find? fun n => !isTransparent n <;> rfl

/-! ## 2. The printer -/

/-- The `*` that stands for a product with the value before. -/
def star (after : Bool) : String :=
  if after then "*" else ""

/-- The text of an operand of a division, from its own text. -/
def operandText (n : Node) (text : String) : String :=
  if isAtomic n then text else "(" ++ text ++ ")"

/-- The text after the name of the root function: the content brings its own brackets, or gets
them. -/
def contentText (n : Node) (text : String) : String :=
  if n.isBracketed then text else "(" ++ text ++ ")"

mutual

/-- The text of a node, after a value or not.  `power` gives the text of a power from the texts of
its base and its exponent. -/
def printed (o : Options) (power : String → String → String) (after : Bool) : Node → String
  | .leaf .identifier name => name
  | .leaf .number digits => digits ++ o.numberSuffix
  | .leaf .operator symbol => star (after && symbol == "(") ++ codeSymbol symbol
  | .leaf .remark _ => ""
  | .row _ items => printedRow o power after items
  | .unary .fenced content => star after ++ ("(" ++ printed o power false content ++ ")")
  | .unary .squareRoot content =>
    star after ++ (o.rootFunction ++ contentText content (printed o power false content))
  | .binary .power left right =>
    star after ++ power (printed o power false left) (printed o power false right)
  | .binary .fraction left right =>
    star after ++ (operandText left (printed o power false left) ++ "/" ++
      operandText right (printed o power false right))
  | .bare | .missing | .stray _ => ""

/-- The text of a row. -/
def printedRow (o : Options) (power : String → String → String) (after : Bool) :
    List Node → String
  | [] => ""
  | n :: rest => printed o power after n ++
      printedRow o power (Context.seenAll after (trail n)) rest

end

/-- A power written as a call of the power function. -/
def asCall (o : Options) (base exponent : String) : String :=
  o.powerFunction ++ "(" ++ base ++ ", " ++ exponent ++ ")"

/-! ## 3. Names and denominators -/

/-- The name of an identifier. -/
def name? : Node → Option String
  | .leaf .identifier name => some name
  | _ => none

/-- The denominator of a fraction. -/
def denominator? : Node → Option Node
  | .binary .fraction _ right => some right
  | _ => none

/-- The names in a tree, each time they are used. -/
def usedNames (n : Node) : List String :=
  n.preorder.filterMap name?

/-- The denominators in a tree. -/
def denominators (n : Node) : List Node :=
  n.preorder.filterMap denominator?

-- what is picked from the preorder of a row is picked from each node in turn
theorem filterMap_preorderRow {α : Type} (f : Node → Option α) (items : List Node) :
    (Node.preorderRow items).filterMap f = items.flatMap fun n => n.preorder.filterMap f := by
  induction items with
  | nil => rw [Node.preorderRow, List.filterMap_nil, List.flatMap_nil]
  | cons n rest ih => rw [Node.preorderRow, List.filterMap_append, ih, List.flatMap_cons]

section

variable (kind : BinaryKind) (left right content : Node)

@[simp]
theorem usedNames_row (kind : RowKind) (items : List Node) :
    usedNames (.row kind items) = items.flatMap usedNames := by
  rw [usedNames, Node.preorder, List.filterMap_cons_none (by rfl), filterMap_preorderRow]
  rfl

@[simp]
theorem usedNames_unary (kind : UnaryKind) :
    usedNames (.unary kind content) = usedNames content := by
  rw [usedNames, Node.preorder, List.filterMap_cons_none (by rfl), usedNames]

@[simp]
theorem usedNames_binary :
    usedNames (.binary kind left right) = usedNames left ++ usedNames right := by
  rw [usedNames, Node.preorder, List.filterMap_cons_none (by rfl), List.filterMap_append,
    usedNames, usedNames]

@[simp]
theorem denominators_leaf (kind : LeafKind) (text : String) :
    denominators (.leaf kind text) = [] := by
  rw [denominators, Node.preorder]
  · rfl
  all_goals simp

@[simp]
theorem denominators_row (kind : RowKind) (items : List Node) :
    denominators (.row kind items) = items.flatMap denominators := by
  rw [denominators, Node.preorder, List.filterMap_cons_none (by rfl), filterMap_preorderRow]
  rfl

@[simp]
theorem denominators_unary (kind : UnaryKind) :
    denominators (.unary kind content) = denominators content := by
  rw [denominators, Node.preorder, List.filterMap_cons_none (by rfl), denominators]

@[simp]
theorem denominators_power :
    denominators (.binary .power left right) = denominators left ++ denominators right := by
  rw [denominators, Node.preorder, List.filterMap_cons_none (by rfl), List.filterMap_append,
    denominators, denominators]

@[simp]
theorem denominators_fraction : denominators (.binary .fraction left right) =
    right :: (denominators left ++ denominators right) := by
  rw [denominators, Node.preorder, List.filterMap_cons_some (b := right) (by rfl),
    List.filterMap_append, denominators, denominators]

end

/-- The names with one more, unless it is there already. -/
def withName (names : List String) (name : String) : List String :=
  if names.contains name then names else names ++ [name]

/-- Names are added to a list as if they had been collected apart, less those that it holds. -/
theorem foldl_withName (old names : List String) :
    names.foldl withName old =
      old ++ (names.foldl withName []).filter fun name => !old.contains name := by
  induction names using List.reverseRecOn with
  | nil => simp
  | append_singleton front name ih =>
    rw [List.foldl_append, List.foldl_append, ih]
    show withName _ name = old ++ (withName _ name).filter _
    by_cases hnew : name ∈ front.foldl withName []
    · -- the name has been collected before
      have hold : name ∈ old ++ (front.foldl withName []).filter fun n => !old.contains n := by
        by_cases hold : name ∈ old <;> simp [hold, hnew]
      rw [withName, if_pos (by simpa using hold), withName, if_pos (by simpa using hnew)]
    · have hkeep : withName (front.foldl withName []) name = front.foldl withName [] ++ [name] := by
        rw [withName, if_neg (by simpa using hnew)]
      rw [hkeep, List.filter_append, ← List.append_assoc]
      by_cases hold : name ∈ old
      · simp [withName, hold]
      · simp [withName, hold, hnew]

/-! ## 4. Effects -/

/-- What a step adds to a draft. -/
@[ext]
structure Effect where
  text : String := ""
  tokens : List Node := []
  names : List String := []
  divisions : List Node := []

/-- The draft after a step with the given effect. -/
def Draft.add (d : Draft) (e : Effect) : Draft where
  context := { d.context with
    tokens := d.context.tokens ++ e.tokens
    variableNames := e.names.foldl withName d.context.variableNames
    divisions := d.context.divisions ++ e.divisions }
  text := d.text ++ e.text

/-- One effect after the other. -/
def Effect.andThen (e e' : Effect) : Effect where
  text := e.text ++ e'.text
  tokens := e.tokens ++ e'.tokens
  names := e.names ++ e'.names
  divisions := e.divisions ++ e'.divisions

/-- From the draft, the step has the effect, and no fault. -/
def Adds (step : Step) (d : Draft) (e : Effect) : Prop :=
  step d = (d.add e, none)

section

variable {step : Step} {rest : List Step} {d : Draft} {e e' : Effect}

theorem Draft.add_andThen (d : Draft) (e e' : Effect) :
    d.add (e.andThen e') = (d.add e).add e' := by
  simp only [Draft.add, Effect.andThen, List.append_assoc, String.append_assoc, List.foldl_append]

theorem Draft.add_nothing (d : Draft) : d.add {} = d := by
  simp [Draft.add]

@[simp]
theorem Draft.options_add (d : Draft) (e : Effect) :
    (d.add e).context.options = d.context.options := rfl

@[simp]
theorem Draft.valueBefore_add (d : Draft) (e : Effect) :
    (d.add e).context.valueBefore = Context.seenAll d.context.valueBefore e.tokens := by
  rw [Context.valueBefore_eq_seenAll, Context.valueBefore_eq_seenAll, ← Context.seenAll_append]
  rfl

-- what is added besides nodes does not change what the node visited last looks back on
theorem Draft.followsValue_add_of_nil (h : e.tokens = []) :
    (d.add e).context.followsValue = d.context.followsValue := by
  show Context.followsValue { d.context with tokens := d.context.tokens ++ e.tokens, .. } = _
  rw [h, Context.followsValue, List.append_nil, Context.followsValue]

theorem Draft.followsValue_add_singleton {n : Node} (h : e.tokens = [n]) :
    (d.add e).context.followsValue = d.context.valueBefore := by
  rw [← Context.followsValue_record d.context n]
  show Context.followsValue { d.context with tokens := d.context.tokens ++ e.tokens, .. } = _
  rw [h, Context.followsValue, Context.followsValue]
  rfl

theorem adds_skip (d : Draft) : Adds skip d {} := by
  rw [Adds, Draft.add_nothing]
  rfl

theorem Adds.inOrder_cons (h : Adds step d e) (hrest : Adds (inOrder rest) (d.add e) e') :
    Adds (inOrder (step :: rest)) d (e.andThen e') := by
  have hstep : step d = (d.add e, none) := h
  rw [Adds, Code.inOrder_cons (by rw [hstep]), hstep, Draft.add_andThen]
  exact hrest

theorem Adds.inOrder_single (h : Adds step d e) : Adds (inOrder [step]) d e := by
  have hstep : step d = (d.add e, none) := h
  rw [Adds, Code.inOrder_cons (by rw [hstep]), hstep]
  rfl

theorem Adds.of_eq (h : Adds step d e) (heq : e = e') : Adds step d e' := heq ▸ h

theorem adds_write (text : String) (d : Draft) : Adds (write text) d { text } := by
  simp [Adds, write, Draft.add]

theorem adds_writeOption (text : Options → String) (d : Draft) :
    Adds (writeOption text) d { text := text d.context.options } :=
  adds_write _ d

theorem adds_record (n : Node) (d : Draft) : Adds (record n) d { tokens := [n] } := by
  simp [Adds, record, note, Draft.add, Context.record]

theorem adds_punctuate (symbol : String) (d : Draft) :
    Adds (punctuate symbol) d { text := symbol, tokens := [.operator symbol] } :=
  ((adds_record _ d).inOrder_cons (adds_write symbol _).inOrder_single).of_eq
    (by simp [Effect.andThen])

theorem adds_addVariable (name : String) (d : Draft) :
    Adds (note (·.addVariable name)) d { names := [name] } := by
  unfold Adds note Draft.add Context.addVariable
  by_cases h : name ∈ d.context.variableNames
  · simp [withName, h]
  · simp [withName, h]

theorem adds_addDivision (n : Node) (d : Draft) :
    Adds (note (·.addDivision n)) d { divisions := [n] } := by
  simp [Adds, note, Draft.add, Context.addDivision]

theorem adds_times {after : Bool} (h : d.context.followsValue = after) :
    Adds times d { text := star after } := by
  unfold Adds times
  rw [h]
  cases after
  · exact adds_skip d
  · exact adds_write "*" d

theorem adds_require {parent child : Node} (h : Proper child) (d : Draft) :
    Adds (require parent child) d {} := by
  cases h <;> exact adds_skip d

end

/-! ## 5. Nodes -/

/-- A tree in which no node is a root. -/
def Rootless (n : Node) : Prop :=
  ∀ items, Node.root items ∉ n.preorder

/-- The effect of a visit. -/
def effect (o : Options) (after : Bool) (n : Node) : Effect where
  text := printed o (asCall o) after n
  tokens := trail n
  names := usedNames n
  divisions := denominators n

/-- The effect of the visit of a row. -/
def rowEffect (o : Options) (after : Bool) (items : List Node) : Effect where
  text := printedRow o (asCall o) after items
  tokens := trailRow items
  names := items.flatMap usedNames
  divisions := items.flatMap denominators

theorem Rootless.of_mem {kind : RowKind} {items : List Node} (h : Rootless (.row kind items))
    {n : Node} (hn : n ∈ items) : Rootless n := by
  intro inside hinside
  apply h inside
  rw [Node.preorder]
  exact List.mem_cons_of_mem _ (Formula.mem_preorderRow.2 ⟨n, hn, hinside⟩)

theorem Rootless.content {kind : UnaryKind} {content : Node} (h : Rootless (.unary kind content)) :
    Rootless content := by
  intro inside hinside
  apply h inside
  rw [Node.preorder]
  exact List.mem_cons_of_mem _ hinside

theorem Rootless.operands {kind : BinaryKind} {left right : Node}
    (h : Rootless (.binary kind left right)) : Rootless left ∧ Rootless right := by
  constructor
  · intro inside hinside
    apply h inside
    rw [Node.preorder]
    exact List.mem_cons_of_mem _ (List.mem_append_left _ hinside)
  · intro inside hinside
    apply h inside
    rw [Node.preorder]
    exact List.mem_cons_of_mem _ (List.mem_append_right _ hinside)

theorem rootless_leaf (kind : LeafKind) (text : String) : Rootless (.leaf kind text) := by
  intro others
  simp [Node.preorder]

theorem rootless_unary {kind : UnaryKind} {content : Node} (h : Rootless content) :
    Rootless (.unary kind content) := by
  intro others
  simpa [Node.preorder] using h others

theorem rootless_binary {kind : BinaryKind} {left right : Node} (hl : Rootless left)
    (hr : Rootless right) : Rootless (.binary kind left right) := by
  intro others
  simpa [Node.preorder] using ⟨hl others, hr others⟩

theorem rootless_row {kind : RowKind} {items : List Node} (hkind : kind ≠ .root)
    (h : ∀ n ∈ items, Rootless n) : Rootless (.row kind items) := by
  intro others hmem
  rw [Node.preorder] at hmem
  rcases List.mem_cons.1 hmem with heq | hmem
  · exact hkind (Node.row.inj heq).1.symm
  · obtain ⟨n, hn, hmem⟩ := Formula.mem_preorderRow.1 hmem
    exact h n hn others hmem

/-- A tree for which code can be written, without a root inside. -/
def Printable (n : Node) : Prop :=
  Proper n ∧ Rootless n

theorem printable_leaf (kind : LeafKind) (text : String) : Printable (.leaf kind text) :=
  ⟨.leaf kind text, rootless_leaf kind text⟩

theorem printable_sequence {items : List Node} (h : ∀ n ∈ items, Printable n) :
    Printable (.sequence items) :=
  ⟨.row (by decide) fun n hn => (h n hn).1, rootless_row (by decide) fun n hn => (h n hn).2⟩

theorem printable_binary {kind : BinaryKind} {left right : Node} (hl : Printable left)
    (hr : Printable right) : Printable (.binary kind left right) :=
  ⟨.binary hl.1 hr.1, rootless_binary hl.2 hr.2⟩

section

variable {code : Options → Node → Except Fault String} {d : Draft}

theorem adds_visitLeaf {kind : LeafKind} {text : String} {after : Bool}
    (h : d.context.followsValue = after) : Adds (visitLeaf kind text) d
      { text := printed d.context.options (asCall d.context.options) after (.leaf kind text)
        names := usedNames (.leaf kind text) } := by
  cases kind with
  | identifier =>
    exact ((adds_addVariable text d).inOrder_cons (adds_write text _).inOrder_single).of_eq
      (by simp [Effect.andThen, printed, usedNames, Node.preorder, name?])
  | number =>
    exact ((adds_write text d).inOrder_cons (adds_writeOption _ _).inOrder_single).of_eq
      (by simp [Effect.andThen, printed, usedNames, Node.preorder, name?])
  | remark =>
    exact (adds_skip d).of_eq (by simp [printed, usedNames, Node.preorder, name?])
  | operator =>
    have hwrite (d' : Draft) := (adds_write (codeSymbol text) d').inOrder_single
    -- only an opening bracket looks back
    by_cases hopen : text = "("
    · subst hopen
      exact ((adds_times h).inOrder_cons (hwrite _)).of_eq
        (by simp [Effect.andThen, printed, usedNames, Node.preorder, name?])
    · show Adds (inOrder [if text = "(" then times else skip, write (codeSymbol text)]) d _
      rw [if_neg hopen]
      exact ((adds_skip d).inOrder_cons (hwrite _)).of_eq
        (by simp [Effect.andThen, printed, usedNames, Node.preorder, name?, hopen, star])

/-- Visiting the node has its effect, from every draft. -/
def Visits (code : Options → Node → Except Fault String) (n : Node) : Prop :=
  ∀ d : Draft, Adds (visitWith code n) d (effect d.context.options d.context.valueBefore n)

theorem Visits.after_sign {n : Node} (h : Visits code n) (hd : d.context.valueBefore = false) :
    Adds (visitWith code n) d (effect d.context.options false n) := by
  rw [← hd]
  exact h d

theorem adds_visitRowWith {items : List Node} (h : ∀ n ∈ items, Visits code n) (d : Draft) :
    Adds (visitRowWith code items) d
      (rowEffect d.context.options d.context.valueBefore items) := by
  induction items generalizing d with
  | nil => exact (adds_skip d).of_eq (by simp [rowEffect, printedRow, trailRow])
  | cons n rest ih =>
    obtain ⟨hn, hrest⟩ := List.forall_mem_cons.1 h
    rw [visitRowWith]
    refine ((hn d).inOrder_cons (ih hrest _).inOrder_single).of_eq ?_
    simp [Effect.andThen, effect, rowEffect, printedRow, trailRow]

/-- The effect of the visit of an operand of a division. -/
def operandEffect (o : Options) (n : Node) : Effect where
  text := operandText n (printed o (asCall o) false n)
  tokens := operandTrail n (trail n)
  names := usedNames n
  divisions := denominators n

/-- An operand of a division is visited between two brackets, if it needs them. -/
theorem Visits.operand {n : Node} (h : Visits code n) (hd : d.context.valueBefore = false) :
    Adds (visitOperand n (visitWith code n)) d (operandEffect d.context.options n) := by
  unfold visitOperand operandEffect operandText operandTrail
  by_cases hatomic : isAtomic n = true
  · rw [if_pos hatomic, if_pos hatomic, if_pos hatomic]
    exact h.after_sign hd
  · rw [if_neg hatomic, if_neg hatomic, if_neg hatomic]
    refine ((adds_punctuate "(" d).inOrder_cons ((h.after_sign ?_).inOrder_cons
      (adds_punctuate ")" _).inOrder_single)).of_eq ?_
    · simp
    · simp [Effect.andThen, effect, String.append_assoc]

/-- The content of a square root is visited between two brackets, unless it brings its own. -/
theorem Visits.content {n : Node} (h : Visits code n) (hd : d.context.valueBefore = false) :
    Adds (if n.isBracketed then visitWith code n else inOrder [write "(", visitWith code n, write ")"])
      d { effect d.context.options false n with
        text := contentText n (printed d.context.options (asCall d.context.options) false n) } := by
  unfold contentText
  by_cases hb : n.isBracketed = true
  · rw [if_pos hb, if_pos hb]
    exact h.after_sign hd
  · rw [if_neg hb, if_neg hb]
    refine ((adds_write "(" d).inOrder_cons ((h.after_sign ?_).inOrder_cons
      (adds_write ")" _).inOrder_single)).of_eq ?_
    · simpa using hd
    · simp [Effect.andThen, effect, String.append_assoc]

theorem visits_leaf (kind : LeafKind) (text : String) : Visits code (.leaf kind text) := by
  intro d
  rw [visitWith]
  refine ((adds_record _ d).inOrder_cons
    (adds_visitLeaf (Draft.followsValue_add_singleton rfl)).inOrder_single).of_eq ?_
  simp [Effect.andThen, effect, trail]

theorem visits_row {kind : RowKind} {items : List Node} (hbare : kind ≠ .bare) (hroot : kind ≠ .root)
    (h : ∀ n ∈ items, Visits code n) : Visits code (.row kind items) := by
  intro d
  have hsteps :=
    (adds_record (.row kind items) d).inOrder_cons (adds_visitRowWith h _).inOrder_single
  have heffect : effect d.context.options d.context.valueBefore (.row kind items) =
      Effect.andThen { tokens := [.row kind items] }
        (rowEffect d.context.options d.context.valueBefore items) := by
    simp [Effect.andThen, effect, rowEffect, printed, trail]
  rw [Draft.options_add, Draft.valueBefore_add, Context.seenAll_cons, Context.seenAll_nil,
    Context.seen_row _ hbare] at hsteps
  rw [heffect, visitWith]
  · exact hsteps
  · exact hbare
  · exact hroot

/-! A wrapper and a pair are no values, so what is in them is visited as if nothing stood before. -/

theorem Visits.fenced {content : Node} (hproper : Proper content) (h : Visits code content) :
    Visits code (.unary .fenced content) := by
  intro d
  rw [visitWith]
  refine ((adds_record _ d).inOrder_cons ((adds_times
    (Draft.followsValue_add_singleton rfl)).inOrder_cons ((adds_write "(" _).inOrder_cons
      ((adds_require hproper _).inOrder_cons ((h.after_sign ?_).inOrder_cons
        (adds_write ")" _).inOrder_single))))).of_eq ?_
  · simp
  · simp [Effect.andThen, effect, printed, trail, String.append_assoc]

theorem Visits.squareRoot {content : Node} (hproper : Proper content) (h : Visits code content) :
    Visits code (.unary .squareRoot content) := by
  intro d
  rw [visitWith]
  refine ((adds_record _ d).inOrder_cons ((adds_require hproper _).inOrder_cons
    ((adds_times ((Draft.followsValue_add_of_nil rfl).trans
      (Draft.followsValue_add_singleton rfl))).inOrder_cons
        ((adds_writeOption _ _).inOrder_cons (h.content ?_).inOrder_single)))).of_eq ?_
  · simp
  · simp [Effect.andThen, effect, printed, trail]

section

variable {left right : Node} (hl : Proper left) (hr : Proper right) (hleft : Visits code left)
  (hright : Visits code right)

include hl hr hleft hright

theorem visits_power : Visits code (.binary .power left right) := by
  intro d
  rw [visitWith]
  refine ((adds_record _ d).inOrder_cons ((adds_times
    (Draft.followsValue_add_singleton rfl)).inOrder_cons ((adds_writeOption _ _).inOrder_cons
      ((adds_require hl _).inOrder_cons ((hleft.after_sign ?_).inOrder_cons
        ((adds_punctuate ", " _).inOrder_cons ((adds_require hr _).inOrder_cons
          ((hright.after_sign ?_).inOrder_cons
            (adds_write ")" _).inOrder_single)))))))).of_eq ?_
  · simp
  · simp
  · simp [Effect.andThen, effect, printed, asCall, trail, String.append_assoc]

theorem visits_fraction : Visits code (.binary .fraction left right) := by
  intro d
  rw [visitWith]
  refine ((adds_record _ d).inOrder_cons ((adds_require hl _).inOrder_cons
    ((adds_require hr _).inOrder_cons ((adds_addDivision right _).inOrder_cons
      ((adds_times (((Draft.followsValue_add_of_nil rfl).trans
        (Draft.followsValue_add_of_nil rfl)).trans ((Draft.followsValue_add_of_nil rfl).trans
          (Draft.followsValue_add_singleton rfl)))).inOrder_cons
            ((hleft.operand ?_).inOrder_cons ((adds_punctuate "/" _).inOrder_cons
              (hright.operand ?_).inOrder_single))))))).of_eq ?_
  · simp
  · simp
  · simp [Effect.andThen, effect, operandEffect, printed, trail, String.append_assoc]

end

/-- **What a visit adds.** -/
theorem Proper.visits {n : Node} (h : Proper n) (hroot : Rootless n) : Visits code n := by
  induction h with
  | leaf kind text => exact visits_leaf kind text
  | @row kind items hkind _ ih =>
    refine visits_row hkind ?_ fun n hn => ih n hn (hroot.of_mem hn)
    rintro rfl
    exact absurd (by simp [Node.preorder]) (hroot items)
  | @unary kind content h ih =>
    have hcontent := ih hroot.content
    cases kind with
    | fenced => exact hcontent.fenced h
    | squareRoot => exact hcontent.squareRoot h
  | @binary kind left right hl hr ihl ihr =>
    have hleft := ihl hroot.operands.1
    have hright := ihr hroot.operands.2
    cases kind with
    | power => exact visits_power hl hr hleft hright
    | fraction => exact visits_fraction hl hr hleft hright

end

end Formulary.Code
