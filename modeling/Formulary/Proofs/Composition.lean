import Formulary.Proofs.Printing

/-!
# Emission is compositional

What is written for a tree without roots depends on what was visited before in one place only: if a
value stands before it and it begins a bracket, a call or a fraction, one `*` is put in front
(`printed_eq_star`).  All else that a visit adds is what the tree adds to a fresh context, less the
names that are known already (`visit_composes`).
-/

namespace Formulary.Code

/-! ## 1. What a tree begins with -/

/-- The first node of a list that writes something of its own. -/
def firstWriting? (nodes : List Node) : Option Node :=
  nodes.find? fun n => !Context.isTransparent n

/-- Nodes that are multiplied with a value before them. -/
def beginsFactor : Node → Bool
  | .unary .. | .binary .. => true
  | n => n.isOpening

/-- Does the tree begin with a bracket, a call or a fraction? -/
def opensFactor (n : Node) : Bool :=
  (firstWriting? n.preorder).any beginsFactor

theorem isTransparent_row {kind : RowKind} (h : kind ≠ .bare) (items : List Node) :
    Context.isTransparent (.row kind items) = true := by
  cases kind with
  | bare => exact absurd rfl h
  | _ => rfl

theorem firstWriting?_append (xs ys : List Node) :
    firstWriting? (xs ++ ys) = (firstWriting? xs).or (firstWriting? ys) := by
  rw [firstWriting?, firstWriting?, firstWriting?, List.find?_append]

theorem firstWriting?_row {kind : RowKind} (h : kind ≠ .bare) (items rest : List Node) :
    firstWriting? (.row kind items :: rest) = firstWriting? rest :=
  List.find?_cons_of_neg (by simp [isTransparent_row h])

theorem firstWriting?_preorder_leaf (kind : LeafKind) (text : String) :
    firstWriting? (Node.preorder (.leaf kind text)) = firstWriting? [.leaf kind text] := by
  rw [Node.preorder]
  all_goals simp

theorem firstWriting?_trailRow {items : List Node}
    (h : ∀ n ∈ items, firstWriting? (trail n) = firstWriting? n.preorder) :
    firstWriting? (trailRow items) = firstWriting? (Node.preorderRow items) := by
  induction items with
  | nil => rw [trailRow, Node.preorderRow]
  | cons n rest ih =>
    obtain ⟨hn, hrest⟩ := List.forall_mem_cons.1 h
    rw [trailRow, Node.preorderRow, firstWriting?_append, firstWriting?_append, hn, ih hrest]

-- the trail has signs that the preorder has not, but only behind a node that writes
theorem firstWriting?_trail {n : Node} (h : Proper n) :
    firstWriting? (trail n) = firstWriting? n.preorder := by
  induction h with
  | leaf kind text => rw [trail, firstWriting?_preorder_leaf]
  | row hkind _ ih =>
    rw [trail, Node.preorder, firstWriting?_row hkind, firstWriting?_row hkind,
      firstWriting?_trailRow ih]
  | unary =>
    rw [trail, Node.preorder]
    rfl
  | @binary kind =>
    rw [Node.preorder]
    cases kind with
    | power =>
      rw [trail]
      rfl
    | fraction =>
      rw [trail]
      rfl

/-! ## 2. The flag after a tree -/

-- nodes that write nothing leave the flag as it is
theorem seenAll_of_firstWriting?_none {tokens : List Node} (h : firstWriting? tokens = none)
    (after : Bool) : Context.seenAll after tokens = after := by
  induction tokens with
  | nil => rfl
  | cons n rest ih =>
    obtain ⟨hn, hrest⟩ := List.forall_mem_cons.1 (List.find?_eq_none.1 h)
    have hseen : Context.seen after n = after := by
      rw [Context.seen, if_pos (by simpa using hn)]
    rw [Context.seenAll_cons, hseen, ih (List.find?_eq_none.2 hrest)]

-- and any other set it by themselves
theorem seenAll_of_firstWriting?_some {tokens : List Node} {m : Node}
    (h : firstWriting? tokens = some m) (after : Bool) :
    Context.seenAll after tokens = Context.seenAll false tokens := by
  induction tokens generalizing after with
  | nil => exact absurd h (by simp [firstWriting?])
  | cons n rest ih =>
    rw [Context.seenAll_cons, Context.seenAll_cons]
    by_cases hn : Context.isTransparent n = true
    · have hrest : firstWriting? rest = some m := by
        rw [firstWriting?, List.find?_cons_of_neg (by simp [hn])] at h
        exact h
      rw [ih hrest, ih hrest (Context.seen false n)]
    · rw [Context.seen, Context.seen, if_neg hn, if_neg hn]

/-! ## 3. The `*` in front -/

section

variable {o : Options} {power : String → String → String}

theorem star_false_append (text : String) : star false ++ text = text :=
  String.empty_append

theorem printedRow_of_forall {items : List Node}
    (h : ∀ n ∈ items, ∀ after, printed o power after n = "") (after : Bool) :
    printedRow o power after items = "" := by
  induction items generalizing after with
  | nil => rw [printedRow]
  | cons n rest ih =>
    obtain ⟨hn, hrest⟩ := List.forall_mem_cons.1 h
    rw [printedRow, hn, ih hrest, String.empty_append]

-- nodes that are all passed over print nothing
theorem printed_of_firstWriting?_none {n : Node} (h : Proper n)
    (hnone : firstWriting? n.preorder = none) (after : Bool) : printed o power after n = "" := by
  induction h generalizing after with
  | leaf kind text =>
    rw [firstWriting?_preorder_leaf] at hnone
    cases kind with
    | remark => rw [printed]
    | _ => exact absurd hnone (by simp [firstWriting?, Context.isTransparent])
  | @row kind items hkind _ ih =>
    rw [Node.preorder, firstWriting?_row hkind, firstWriting?, List.find?_eq_none] at hnone
    rw [printed]
    apply printedRow_of_forall
    intro n hn
    refine ih n hn (List.find?_eq_none.2 fun m hm => hnone m ?_)
    exact Formula.mem_preorderRow.2 ⟨n, hn, hm⟩
  | unary => exact absurd hnone (by simp [firstWriting?, Node.preorder, Context.isTransparent])
  | binary => exact absurd hnone (by simp [firstWriting?, Node.preorder, Context.isTransparent])

theorem printedRow_eq_star {items : List Node} (hproper : ∀ n ∈ items, Proper n)
    (h : ∀ n ∈ items, ∀ after,
      printed o power after n = star (after && opensFactor n) ++ printed o power false n)
    (after : Bool) : printedRow o power after items =
      star (after && (firstWriting? (Node.preorderRow items)).any beginsFactor) ++
        printedRow o power false items := by
  induction items generalizing after with
  | nil => simp [printedRow, Node.preorderRow, firstWriting?, star]
  | cons n rest ih =>
    obtain ⟨hn, hrest⟩ := List.forall_mem_cons.1 h
    obtain ⟨hpn, hprest⟩ := List.forall_mem_cons.1 hproper
    rw [printedRow, printedRow, Node.preorderRow, firstWriting?_append]
    have htrail := firstWriting?_trail hpn
    cases hfirst : firstWriting? n.preorder with
    | none =>
      -- the node says nothing, so what stands before it stands before the rest
      rw [hfirst] at htrail
      rw [printed_of_firstWriting?_none hpn hfirst, printed_of_firstWriting?_none hpn hfirst,
        seenAll_of_firstWriting?_none htrail, seenAll_of_firstWriting?_none htrail,
        String.empty_append, String.empty_append, Option.none_or]
      exact ih hprest hrest after
    | some m =>
      rw [hfirst] at htrail
      rw [hn after, seenAll_of_firstWriting?_some htrail after, String.append_assoc, opensFactor,
        hfirst, Option.some_or]

/-- Only a `*` in front depends on what stands before. -/
theorem printed_eq_star {n : Node} (h : Proper n) (after : Bool) :
    printed o power after n = star (after && opensFactor n) ++ printed o power false n := by
  induction h generalizing after with
  | leaf kind text =>
    rw [opensFactor, firstWriting?_preorder_leaf]
    cases kind with
    | operator =>
      rw [printed, printed, Bool.false_and, star_false_append]
      rfl
    | _ =>
      rw [show (firstWriting? _).any beginsFactor = false by rfl, Bool.and_false,
        star_false_append, printed, printed]
  | @row kind items hkind hitems ih =>
    rw [printed, printed, opensFactor, Node.preorder, firstWriting?_row hkind]
    exact printedRow_eq_star hitems ih after
  | @unary kind content =>
    have hopens : opensFactor (.unary kind content) = true := by
      rw [opensFactor, Node.preorder]
      rfl
    rw [hopens, Bool.and_true]
    cases kind <;> rw [printed, printed, star_false_append]
  | @binary kind left right =>
    have hopens : opensFactor (.binary kind left right) = true := by
      rw [opensFactor, Node.preorder]
      rfl
    rw [hopens, Bool.and_true]
    cases kind <;> rw [printed, printed, star_false_append]

end

/-! ## 4. Visits -/

theorem emitIn_fresh {n : Node} (h : Proper n) (hroot : Rootless n) (o : Options) :
    emitIn (.fresh o) n = ((Draft.add { context := .fresh o } (effect o false n)).context,
      .ok (printed o (asCall o) false n)) := by
  have hvisit : visit n { context := .fresh o } =
      (Draft.add { context := .fresh o } (effect o false n), none) :=
    h.visits hroot { context := .fresh o }
  rw [emitIn, hvisit]
  show (_, Except.ok ("" ++ printed o (asCall o) false n)) = _
  rw [String.empty_append]

/-- **Emission is compositional.**  From any draft, the visit of a tree without roots adds the text
that the tree has by itself, with a `*` in front exactly if a value stands before it and it begins
with a bracket, a call or a fraction.  The nodes recorded and the denominators are those of a fresh
context, and so are the names, less those known before. -/
theorem visit_composes {n : Node} (h : Proper n) (hroot : Rootless n) (d : Draft) :
    ∃ fresh text, emitIn (.fresh d.context.options) n = (fresh, .ok text) ∧
      emit d.context.options n = .ok text ∧
      visit n d = ({
        context := { d.context with
          tokens := d.context.tokens ++ fresh.tokens
          variableNames := d.context.variableNames ++
            fresh.variableNames.filter fun name => !d.context.variableNames.contains name
          divisions := d.context.divisions ++ fresh.divisions }
        text := d.text ++
          (if (firstWriting? d.context.tokens.reverse).any Context.endsValue = true ∧
            (firstWriting? n.preorder).any beginsFactor = true then "*" ++ text else text) }, none) := by
  have hfresh := emitIn_fresh h hroot d.context.options
  refine ⟨_, _, hfresh, ?_, ?_⟩
  · rw [emit, hfresh]
  · have hvisit : visit n d =
        (d.add (effect d.context.options d.context.valueBefore n), none) := h.visits hroot d
    -- the names of a fresh context are those of the tree, each once
    have hnames := foldl_withName d.context.variableNames (usedNames n)
    have hstar : printed d.context.options (asCall d.context.options) d.context.valueBefore n =
        if (firstWriting? d.context.tokens.reverse).any Context.endsValue = true ∧
            (firstWriting? n.preorder).any beginsFactor = true then
          "*" ++ printed d.context.options (asCall d.context.options) false n
        else printed d.context.options (asCall d.context.options) false n := by
      rw [printed_eq_star h, star, ite_and]
      show (if (d.context.valueBefore && opensFactor n) = true then _ else _) ++ _ = _
      unfold Context.valueBefore opensFactor firstWriting?
      cases (d.context.tokens.reverse.find? _).any Context.endsValue <;>
        cases (n.preorder.find? _).any beginsFactor <;> simp
    rw [hvisit]
    unfold Draft.add effect
    dsimp only
    rw [hnames, hstar]
    simp [Context.fresh]

/-- A quotient, `x/(y+1)`, behind a remark. -/
def remarkedQuotient : Node :=
  .sequence [.leaf .remark "mean", .binary .fraction (.identifier "x")
    (.sequence [.identifier "y", .operator "+", .number "1"])]

/-- A draft on which a `2` and an empty row have been visited, and `x` is known. -/
def startedDraft : Draft where
  context := { tokens := [.number "2", .sequence []], variableNames := ["x"] }
  text := "2"

theorem visit_composes_quotient : Proper remarkedQuotient ∧ Rootless remarkedQuotient ∧
    ∃ fresh text, emitIn (.fresh startedDraft.context.options) remarkedQuotient = (fresh, .ok text) ∧
      emit startedDraft.context.options remarkedQuotient = .ok text ∧
      visit remarkedQuotient startedDraft = ({
        context := { startedDraft.context with
          tokens := startedDraft.context.tokens ++ fresh.tokens
          variableNames := startedDraft.context.variableNames ++
            fresh.variableNames.filter fun name =>
              !startedDraft.context.variableNames.contains name
          divisions := startedDraft.context.divisions ++ fresh.divisions }
        text := startedDraft.text ++
          (if (firstWriting? startedDraft.context.tokens.reverse).any Context.endsValue = true ∧
            (firstWriting? remarkedQuotient.preorder).any beginsFactor = true then "*" ++ text
          else text) }, none) := by
  have hproper : Proper remarkedQuotient := by
    have hsum : Proper (.sequence [.identifier "y", .operator "+", .number "1"]) :=
      .row (by decide) (by simp [Proper.leaf])
    exact .row (by decide) (by simp [Proper.leaf, Proper.binary (.leaf _ _) hsum])
  have hroot : Rootless remarkedQuotient := by
    intro items
    simp [remarkedQuotient, Node.preorder, Node.preorderRow]
  exact ⟨hproper, hroot, visit_composes hproper hroot startedDraft⟩

example : (visit remarkedQuotient startedDraft).1.text = "2*x/(y+1)" := by decide +kernel

end Formulary.Code
