import Formulary.Code.Session
import Formulary.Proofs.Printing

/-!
# What a session never loses

The actions of a session only add to what the draft holds, also those that a fault stops on their way.
The lists of the context grow at their ends, the options stay, and no name is listed twice
(`Context.Grows`).  A step of an emission moreover leaves the running totals alone and writes around
the text it finds; it writes in front of it only for a root (`Extends`).  Both are closed under steps
one after the other, so they hold of every visit and of every action of every session
(`performAll_step`).
-/

namespace Formulary.Code

/-! ## 1. Contexts that grow -/

/-- The context may become the other one: what it has noted stays where it is. -/
structure Context.Grows (c c' : Context) : Prop where
  options : c'.options = c.options
  tokens : c.tokens <+: c'.tokens
  variableNames : c.variableNames <+: c'.variableNames
  accumulators : c.accumulators <+: c'.accumulators
  divisions : c.divisions <+: c'.divisions
  distinct : c.variableNames.Nodup → c'.variableNames.Nodup

section

variable {c c' c'' : Context}

theorem Context.Grows.refl (c : Context) : c.Grows c :=
  ⟨rfl, List.prefix_rfl, List.prefix_rfl, List.prefix_rfl, List.prefix_rfl, id⟩

theorem Context.Grows.trans (h : c.Grows c') (h' : c'.Grows c'') : c.Grows c'' where
  options := h'.options.trans h.options
  tokens := h.tokens.trans h'.tokens
  variableNames := h.variableNames.trans h'.variableNames
  accumulators := h.accumulators.trans h'.accumulators
  divisions := h.divisions.trans h'.divisions
  distinct := h'.distinct ∘ h.distinct

theorem Context.grows_record (c : Context) (n : Node) : c.Grows (c.record n) :=
  { Grows.refl c with tokens := List.prefix_append c.tokens [n] }

theorem Context.grows_addAccumulator (c : Context) (total : Accumulator) :
    c.Grows (c.addAccumulator total) :=
  { Grows.refl c with accumulators := List.prefix_append c.accumulators [total] }

theorem Context.grows_addDivision (c : Context) (n : Node) : c.Grows (c.addDivision n) :=
  { Grows.refl c with divisions := List.prefix_append c.divisions [n] }

theorem Context.grows_addVariable (c : Context) (name : String) : c.Grows (c.addVariable name) := by
  unfold addVariable
  by_cases h : c.variableNames.contains name = true
  · rw [if_pos h]
    exact .refl c
  · -- only a name that is not listed yet is added
    rw [if_neg h]
    refine { Grows.refl c with
      variableNames := List.prefix_append c.variableNames [name], distinct := fun hc => ?_ }
    refine List.nodup_append.2 ⟨hc, by simp, fun old hold new hnew => ?_⟩
    rintro rfl
    obtain rfl := List.mem_singleton.1 hnew
    exact h (by simpa using hold)

end

/-! ## 2. Texts that stay -/

/-- The old text is a part of the new one, and begins it if `atFront` is set. -/
def Keeps (atFront : Bool) (old new : String) : Prop :=
  ∃ front back, new = front ++ old ++ back ∧ (atFront = true → front = "")

theorem Keeps.append (atFront : Bool) (old more : String) : Keeps atFront old (old ++ more) :=
  ⟨"", more, by rw [String.empty_append], fun _ => rfl⟩

theorem Keeps.refl (atFront : Bool) (text : String) : Keeps atFront text text :=
  ⟨"", "", by rw [String.empty_append, String.append_empty], fun _ => rfl⟩

theorem Keeps.trans {atFront : Bool} {old new newer : String} (h : Keeps atFront old new)
    (h' : Keeps atFront new newer) : Keeps atFront old newer := by
  obtain ⟨front, back, rfl, hfront⟩ := h
  obtain ⟨front', back', rfl, hfront'⟩ := h'
  refine ⟨front' ++ front, back ++ back', by simp only [String.append_assoc], fun hset => ?_⟩
  rw [hfront hset, hfront' hset, String.empty_append]

/-! ## 3. Steps -/

/-- What a step of an emission may make of a draft. -/
structure Draft.Extends (atFront : Bool) (d d' : Draft) : Prop where
  context : d.context.Grows d'.context
  accumulators : d'.context.accumulators = d.context.accumulators
  text : Keeps atFront d.text d'.text

/-- From every draft, and with or without a fault, the step only extends the draft. -/
def Extends (atFront : Bool) (step : Step) : Prop :=
  ∀ d : Draft, d.Extends atFront (step d).1

section

variable {atFront : Bool}

theorem Draft.Extends.refl (atFront : Bool) (d : Draft) : d.Extends atFront d :=
  ⟨.refl _, rfl, .refl _ _⟩

theorem Draft.Extends.trans {d d' d'' : Draft} (h : d.Extends atFront d')
    (h' : d'.Extends atFront d'') : d.Extends atFront d'' :=
  ⟨h.context.trans h'.context, h'.accumulators.trans h.accumulators, h.text.trans h'.text⟩

theorem extends_skip : Extends atFront skip :=
  fun d => .refl atFront d

theorem extends_fail (fault : Fault) : Extends atFront (fail fault) :=
  fun d => .refl atFront d

theorem extends_write (text : String) : Extends atFront (write text) :=
  fun d => { Draft.Extends.refl atFront d with text := .append atFront d.text text }

theorem extends_note {change : Context → Context} (h : ∀ c : Context, c.Grows (change c))
    (htotals : ∀ c, (change c).accumulators = c.accumulators) : Extends atFront (note change) :=
  fun d => ⟨h d.context, htotals d.context, .refl _ _⟩

theorem extends_addDivision (n : Node) : Extends atFront (note (·.addDivision n)) :=
  extends_note (fun c => c.grows_addDivision n) fun _ => rfl

theorem extends_addVariable (name : String) : Extends atFront (note (·.addVariable name)) := by
  apply extends_note
  · exact fun c => c.grows_addVariable name
  · intro c
    unfold Context.addVariable
    split <;> rfl

theorem extends_times : Extends atFront times := by
  intro d
  unfold times
  split
  · exact extends_write "*" d
  · exact extends_skip d

theorem extends_require (parent child : Node) : Extends atFront (require parent child) := by
  unfold require
  split
  · exact extends_fail _
  · exact extends_skip

/-- Steps one after the other extend a draft if each of them does; where one of them stops with a
fault, the draft is as that step left it. -/
theorem extends_inOrder {steps : List Step} (h : ∀ step ∈ steps, Extends atFront step) :
    Extends atFront (inOrder steps) := by
  induction steps with
  | nil => exact extends_skip
  | cons step rest ih =>
    obtain ⟨hstep, hrest⟩ := List.forall_mem_cons.1 h
    intro d
    have hfirst := hstep d
    rw [inOrder]
    dsimp only
    split
    · next d' heq =>
      rw [heq] at hfirst
      exact hfirst.trans (ih hrest d')
    · next d' fault heq =>
      rw [heq] at hfirst
      exact hfirst

theorem closed_extends : Closed (Extends atFront) where
  write := extends_write
  writeOption text d := extends_write (text d.context.options) d
  times := extends_times
  record n := extends_note (fun c => c.grows_record n) fun _ => rfl
  addVariable := extends_addVariable
  inOrder := extends_inOrder

end

-- the two steps of a root are the only ones that write in front
theorem extends_endStatement : Extends false endStatement := by
  intro d
  refine { Draft.Extends.refl false d with text := ?_ }
  unfold endStatement
  dsimp only
  by_cases h : d.text = ""
  · refine ⟨lines d.context.startOf d.context.accumulators, "", ?_, by simp⟩
    rw [if_pos h, h, String.append_empty, String.append_empty]
  · refine ⟨lines d.context.startOf d.context.accumulators, ";", ?_, by simp⟩
    rw [if_neg h, String.append_assoc]

theorem extends_addHeader (code : Options → Node → Except Fault String) :
    Extends false (addHeader code) := by
  have hfront (d : Draft) (front : String) :
      d.Extends false { d with text := front ++ d.text } :=
    { Draft.Extends.refl false d with text := ⟨front, "", by rw [String.append_empty], by simp⟩ }
  intro d
  unfold addHeader
  dsimp only
  split
  · split
    · exact .refl false d
    · exact hfront d _
  · exact hfront d _

/-! ## 4. Visits -/

section

variable {atFront : Bool} {code : Options → Node → Except Fault String}

/-- Every visit extends the draft, at its end only if there is no root in the tree.  The tree need not
be one that code can be written for. -/
theorem extends_visitWith {n : Node} (h : atFront = true → Rootless n) :
    Extends atFront (visitWith code n) := by
  induction n with
  | leaf kind text => exact closed_extends.visit_leaf kind text
  | row kind items ih =>
    have hitems : ∀ n ∈ items, Extends atFront (visitWith code n) :=
      fun n hn => ih n hn fun hset => (h hset).of_mem hn
    cases kind with
    | bare =>
      rw [visitWith]
      exact extends_fail _
    | root =>
      cases atFront with
      | true => exact absurd (by simp [Node.preorder]) (h rfl items)
      | false => exact closed_extends.visit_root extends_endStatement (extends_addHeader code) hitems
    | sequence | style => exact closed_extends.visit_row (by simp) (by simp) hitems
  | unary kind content ih =>
    exact closed_extends.visit_unary (extends_require · content) (ih fun hset => (h hset).content)
  | binary kind left right ihl ihr =>
    exact closed_extends.visit_binary (extends_require · left) (extends_require · right)
      (extends_addDivision right) (ihl fun hset => (h hset).operands.1)
      (ihr fun hset => (h hset).operands.2)
  | bare | missing | stray =>
    rw [visitWith]
    exact extends_fail _

end

/-! ## 5. Sessions -/

namespace Action

/-- The draft after some actions. -/
def performAll (d : Draft) (actions : List Action) : Draft :=
  actions.foldl (fun d action => (action.perform d).1) d

section

variable (n : Node) (d : Draft)

-- the draft does not depend on whether the action ended with a fault
theorem draft_visit : (perform d (.visit n)).1 = (Code.visit n d).1 := by
  rw [perform]
  split
  · next heq => rw [heq]
  · next heq => rw [heq]

theorem draft_emit : (perform d (.emit n)).1 =
    { d with context := (Code.visit n { context := d.context }).1.context } := by
  rw [perform, emitIn]
  generalize Code.visit n { context := d.context } = result
  obtain ⟨d', fault⟩ := result
  cases fault with
  | none => rfl
  | some fault => rfl

end

theorem extends_visit (n : Node) : Extends false (Code.visit n) :=
  extends_visitWith fun h => absurd h (by decide)

theorem grows_perform (action : Action) (d : Draft) :
    d.context.Grows (action.perform d).1.context := by
  cases action with
  | record n => exact d.context.grows_record n
  | addVariable name => exact d.context.grows_addVariable name
  | addAccumulator total => exact d.context.grows_addAccumulator total
  | declaration name => exact .refl _
  | visit n =>
    rw [draft_visit]
    exact (extends_visit n d).context
  | emit n =>
    rw [draft_emit]
    exact (extends_visit n { context := d.context }).context

theorem grows_performAll (d : Draft) (actions : List Action) :
    d.context.Grows (performAll d actions).context := by
  induction actions generalizing d with
  | nil => exact .refl _
  | cons action rest ih => exact (grows_perform action d).trans (ih _)

theorem accumulators_perform {action : Action} (h : ∀ total, action ≠ .addAccumulator total)
    (d : Draft) : (action.perform d).1.context.accumulators = d.context.accumulators := by
  cases action with
  | record n => rfl
  | addVariable name => exact (extends_addVariable name d : d.Extends false _).accumulators
  | addAccumulator total => exact absurd rfl (h total)
  | declaration name => rfl
  | visit n =>
    rw [draft_visit]
    exact (extends_visit n d).accumulators
  | emit n =>
    rw [draft_emit]
    exact (extends_visit n { context := d.context }).accumulators

theorem text_perform {action : Action} (h : ∀ n, action ≠ .visit n) (d : Draft) :
    (action.perform d).1.text = d.text := by
  cases action with
  | visit n => exact absurd rfl (h n)
  | emit n => rw [draft_emit]
  | _ => rfl

theorem text_visit (n : Node) (d : Draft) :
    ∃ front back, (perform d (.visit n)).1.text = front ++ d.text ++ back := by
  obtain ⟨front, back, htext, -⟩ := (extends_visit n d).text
  rw [draft_visit]
  exact ⟨front, back, htext⟩

theorem text_visit_rootless {n : Node} (h : Rootless n) (d : Draft) :
    ∃ more, (perform d (.visit n)).1.text = d.text ++ more := by
  have hextends : Extends true (Code.visit n) := extends_visitWith fun _ => h
  obtain ⟨front, more, htext, hfront⟩ := (hextends d).text
  rw [hfront rfl, String.empty_append] at htext
  rw [draft_visit]
  exact ⟨more, htext⟩

/-- **What every action of a session leaves as it was.**  However many actions came before on the
page, and whether this one ends with a fault or not: no name is listed twice before it or after it, the
options are those of the start, and the lists of the context are longer at most.  Only a new running
total changes the running totals, and only a visit changes the page; the visit writes around what
stands there, and behind it if the tree has no root. -/
theorem performAll_step (o : Options) (page : String) (before : List Action) (action : Action) :
    let d := performAll { context := .fresh o, text := page } before
    let d' := (action.perform d).1
    d.context.variableNames.Nodup ∧ d'.context.variableNames.Nodup ∧
      d'.context.options = o ∧ d.context.Grows d'.context ∧
      ((∀ total, action ≠ .addAccumulator total) →
        d'.context.accumulators = d.context.accumulators) ∧
      ((∀ n, action ≠ .visit n) → d'.text = d.text) ∧
      ∀ n, action = .visit n → (∃ front back, d'.text = front ++ d.text ++ back) ∧
        (Rootless n → ∃ more, d'.text = d.text ++ more) := by
  intro d d'
  have hbefore : Context.Grows (.fresh o) d.context :=
    grows_performAll { context := .fresh o, text := page } before
  have hstep : d.context.Grows d'.context := grows_perform action d
  have hdistinct : d.context.variableNames.Nodup := hbefore.distinct List.nodup_nil
  refine ⟨hdistinct, hstep.distinct hdistinct, hstep.options.trans hbefore.options, hstep, ?_, ?_, ?_⟩
  · exact fun h => accumulators_perform h d
  · exact fun h => text_perform h d
  · intro n hn
    subst hn
    exact ⟨text_visit n d, fun h => text_visit_rootless h d⟩

-- the first visit stops at the exponent, and the root writes around what it left
example : (performAll { context := .fresh {}, text := "x" }
    [.visit (.binary .power (.identifier "a") .missing), .visit (.root [.identifier "b"])]).text =
      "double a = 0.0;\ndouble b = 0.0;\nxMath.Pow(a, b;" := by
  decide +kernel

end Action

end Formulary.Code
