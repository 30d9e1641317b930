import Formulary.Formula.Strip
import Formulary.Proofs.Reading

/-!
# Complete folding

Every node of a row folded completely, once, from the inside out (`folded`).  A row folds along its
nodes from left to right, and what holds of a folded row is shown along the way it was folded
(`RowFold`): folding keeps the reading (`foldedFrom_reading`), and it leaves nothing in the tree that
is not a node (`foldedFrom_native`).
-/

namespace Formulary.Formula

/-! ## 1. Folding every node completely -/

mutual

/-- The completely folded node; there is none if an operator lacks an operand. -/
def folded : Node → Option Node
  | .leaf kind text =>
    if (binding? (.leaf kind text)).isSome then none else some (.leaf kind text)
  | .row kind items => (foldedFrom [] items).map (.row kind)
  | .unary kind content => (folded content).map (.unary kind)
  | .binary kind left right =>
    (folded left).bind fun left => (folded right).map (.binary kind left)
  | .bare => some .bare
  | .missing | .stray _ => none

/-- The rest of a row, completely folded, when `done` holds the part to the left, last node
first. -/
def foldedFrom (done : List Node) : List Node → Option (List Node)
  | [] => some done.reverse
  | n :: rest =>
    match binding? n with
    | some kind =>
      match done, rest with
      | left :: done, right :: rest =>
        (folded right).bind fun right => foldedFrom (.binary kind left right :: done) rest
      | _, _ => none
    | none => (folded n).bind fun n => foldedFrom (n :: done) rest

end

section

variable {done rest : List Node} {n left right : Node} {kind : BinaryKind}

@[simp]
theorem foldedFrom_nil (done : List Node) : foldedFrom done [] = some done.reverse := by
  rw [foldedFrom]

theorem foldedFrom_binding (h : binding? n = some kind) :
    foldedFrom (left :: done) (n :: right :: rest) =
      (folded right).bind fun right => foldedFrom (.binary kind left right :: done) rest := by
  rw [foldedFrom.eq_def]
  dsimp only
  rw [h]

theorem foldedFrom_binding_first (h : binding? n = some kind) :
    foldedFrom [] (n :: rest) = none := by
  rw [foldedFrom.eq_def]
  dsimp only
  rw [h]

theorem foldedFrom_binding_last (h : binding? n = some kind) : foldedFrom done [n] = none := by
  rw [foldedFrom.eq_def]
  dsimp only
  rw [h]
  cases done <;> rfl

theorem foldedFrom_other (h : binding? n = none) :
    foldedFrom done (n :: rest) = (folded n).bind fun n => foldedFrom (n :: done) rest := by
  rw [foldedFrom.eq_def]
  dsimp only
  rw [h]

end

theorem folded_leaf {kind : LeafKind} {text : String} (h : binding? (.leaf kind text) = none) :
    folded (.leaf kind text) = some (.leaf kind text) := by
  rw [folded, h]
  rfl

-- an operator by itself cannot be folded
theorem folded_binding {n : Node} {kind : BinaryKind} (h : binding? n = some kind) :
    folded n = none := by
  rw [binding?_eq_some_iff.1 h]
  cases kind <;> rfl

theorem binding?_of_folded {n m : Node} (h : folded n = some m) : binding? n = none := by
  cases hk : binding? n with
  | none => rfl
  | some kind =>
    rw [folded_binding hk] at h
    exact absurd h (by simp)

theorem eq_of_folded_leaf {kind : LeafKind} {text : String} {m : Node}
    (h : folded (.leaf kind text) = some m) : m = .leaf kind text := by
  rw [folded_leaf (binding?_of_folded h)] at h
  exact (Option.some.inj h).symm

theorem folded_eq_leaf {n : Node} {kind : LeafKind} {text : String}
    (h : folded n = some (.leaf kind text)) : n = .leaf kind text := by
  cases n with
  | leaf kind' text' => exact (eq_of_folded_leaf h).symm
  -- every other node keeps its shape
  | binary =>
    rw [folded, Option.bind_eq_some_iff] at h
    obtain ⟨l, -, h⟩ := h
    obtain ⟨r, -, h⟩ := Option.map_eq_some_iff.1 h
    exact absurd h (by simp)
  | _ => simp [folded] at h

/-! ## 2. The way a row folds -/

/-- How the rest of a row folds: an operator takes the node to its left and the folded node to its
right, and any other node is folded by itself. -/
inductive RowFold : List Node → List Node → List Node → Prop
  | nil (done : List Node) : RowFold done [] done.reverse
  | binding {done rest out : List Node} {n left right r : Node} {kind : BinaryKind}
      (hk : binding? n = some kind) (hr : folded right = some r)
      (h : RowFold (.binary kind left r :: done) rest out) :
      RowFold (left :: done) (n :: right :: rest) out
  | other {done rest out : List Node} {n m : Node} (hk : binding? n = none)
      (hm : folded n = some m) (h : RowFold (m :: done) rest out) : RowFold done (n :: rest) out

theorem rowFold_of_foldedFrom : ∀ {done row out : List Node}, foldedFrom done row = some out →
    RowFold done row out
  | done, [], out, h => by
    rw [foldedFrom_nil] at h
    rw [← Option.some.inj h]
    exact .nil done
  | done, n :: rest, out, h => by
    cases hk : binding? n with
    | none =>
      rw [foldedFrom_other hk, Option.bind_eq_some_iff] at h
      obtain ⟨m, hm, h⟩ := h
      exact .other hk hm (rowFold_of_foldedFrom h)
    | some kind =>
      -- an operator needs a node on either side
      match done, rest, h with
      | [], _, h =>
        rw [foldedFrom_binding_first hk] at h
        exact absurd h (by simp)
      | _ :: _, [], h =>
        rw [foldedFrom_binding_last hk] at h
        exact absurd h (by simp)
      | left :: done, right :: rest, h =>
        rw [foldedFrom_binding hk, Option.bind_eq_some_iff] at h
        obtain ⟨r, hr, h⟩ := h
        exact .binding hk hr (rowFold_of_foldedFrom h)

/-- Induction along complete folding: every node keeps its shape, with its parts folded, and a row folds
along its nodes. -/
@[elab_as_elim]
theorem folded_induction {motive : ∀ n m : Node, folded n = some m → Prop}
    (leaf : ∀ {kind : LeafKind} {text : String} (h : folded (.leaf kind text) = some (.leaf kind text)),
      motive (.leaf kind text) (.leaf kind text) h)
    (bare : ∀ h : folded .bare = some .bare, motive .bare .bare h)
    (row : ∀ {kind : RowKind} {items out : List Node} (_ : RowFold [] items out)
      (_ : ∀ n ∈ items, ∀ m (hm : folded n = some m), motive n m hm)
      (h : folded (.row kind items) = some (.row kind out)),
      motive (.row kind items) (.row kind out) h)
    (unary : ∀ {kind : UnaryKind} {content x : Node} (hx : folded content = some x)
      (_ : motive content x hx) (h : folded (.unary kind content) = some (.unary kind x)),
      motive (.unary kind content) (.unary kind x) h)
    (binary : ∀ {kind : BinaryKind} {left right l r : Node} (hl : folded left = some l)
      (hr : folded right = some r) (_ : motive left l hl) (_ : motive right r hr)
      (h : folded (.binary kind left right) = some (.binary kind l r)),
      motive (.binary kind left right) (.binary kind l r) h)
    {n m : Node} (h : folded n = some m) : motive n m h := by
  induction n generalizing m with
  | leaf kind text =>
    obtain rfl := eq_of_folded_leaf h
    exact leaf h
  | bare =>
    obtain rfl : Node.bare = m := by simpa [folded] using h
    exact bare h
  | missing => exact absurd h (by simp [folded])
  | stray value => exact absurd h (by simp [folded])
  | row kind items ih =>
    have hfolded := h
    rw [folded, Option.map_eq_some_iff] at hfolded
    obtain ⟨out, hout, rfl⟩ := hfolded
    exact row (rowFold_of_foldedFrom hout) (fun n hn m hm => ih n hn hm) h
  | unary kind content ih =>
    have hfolded := h
    rw [folded, Option.map_eq_some_iff] at hfolded
    obtain ⟨x, hx, rfl⟩ := hfolded
    exact unary hx (ih hx) h
  | binary kind left right ihl ihr =>
    have hfolded := h
    rw [folded, Option.bind_eq_some_iff] at hfolded
    obtain ⟨l, hl, hfolded⟩ := hfolded
    obtain ⟨r, hr, rfl⟩ := Option.map_eq_some_iff.1 hfolded
    exact binary hl hr (ihl hl) (ihr hr) h

-- the part of a row that holds no operator to fold is folded node by node
theorem foldedFrom_append {front : List Node} (hfree : ∀ n ∈ front, binding? n = none)
    (done rest : List Node) :
    foldedFrom done (front ++ rest) =
      (front.mapM folded).bind fun front => foldedFrom (front.reverse ++ done) rest := by
  induction front generalizing done with
  | nil => rfl
  | cons n front ih =>
    rw [List.cons_append, foldedFrom_other (hfree n List.mem_cons_self)]
    simp only [ih fun m hm => hfree m (List.mem_cons_of_mem _ hm), List.mapM_cons,
      Option.bind_eq_bind, Option.bind_assoc, Option.pure_def, Option.bind_some,
      List.reverse_cons, List.append_assoc, List.singleton_append]

/-! ## 3. What folding keeps -/

/-- What holds of the folded nodes of a row, and of a pair whose operands have it, holds of all nodes
of the folded row. -/
theorem RowFold.forall_mem {P : Node → Prop} {done row out : List Node} (h : RowFold done row out)
    (hpair : ∀ {kind left right}, P left → P right → P (.binary kind left right))
    (hdone : ∀ n ∈ done, P n) (hrow : ∀ n ∈ row, ∀ m, folded n = some m → P m) :
    ∀ n ∈ out, P n := by
  induction h with
  | nil done => exact fun n hn => hdone n (List.mem_reverse.1 hn)
  | binding hk hr h ih =>
    obtain ⟨-, hrest⟩ := List.forall_mem_cons.1 hrow
    obtain ⟨hright, hrest'⟩ := List.forall_mem_cons.1 hrest
    obtain ⟨hleft, hdone'⟩ := List.forall_mem_cons.1 hdone
    exact ih (List.forall_mem_cons.2 ⟨hpair hleft (hright _ hr), hdone'⟩) hrest'
  | other hk hm h ih =>
    obtain ⟨hn, hrest⟩ := List.forall_mem_cons.1 hrow
    exact ih (List.forall_mem_cons.2 ⟨hn _ hm, hdone⟩) hrest

theorem foldedFrom_forall {P : Node → Prop} {row out : List Node}
    (h : foldedFrom [] row = some out)
    (hpair : ∀ {kind left right}, P left → P right → P (.binary kind left right))
    (hrow : ∀ n ∈ row, ∀ m, folded n = some m → P m) : ∀ n ∈ out, P n :=
  (rowFold_of_foldedFrom h).forall_mem hpair (by simp) hrow

/-- Folding puts every sign of a row where the row has it, if it does so inside every node. -/
theorem RowFold.reading {done row out : List Node} (h : RowFold done row out)
    (hrow : ∀ n ∈ row, ∀ m, folded n = some m → reading m = reading n) :
    readingRow out = readingRow done.reverse ++ readingRow row := by
  induction h with
  | nil done => rw [readingRow_nil, List.append_nil]
  | binding hk hr h ih =>
    obtain ⟨-, hrest⟩ := List.forall_mem_cons.1 hrow
    obtain ⟨hright, hrest'⟩ := List.forall_mem_cons.1 hrest
    -- the pair reads as its left operand, the operator and its right operand
    rw [ih hrest', binding?_eq_some_iff.1 hk]
    simp only [List.reverse_cons, readingRow_append, readingRow_cons, readingRow_nil,
      reading_binary, reading_leaf, hright _ hr, List.append_nil, List.append_assoc,
      List.cons_append, List.nil_append]
  | other hk hm h ih =>
    obtain ⟨hn, hrest⟩ := List.forall_mem_cons.1 hrow
    rw [ih hrest, List.reverse_cons, readingRow_append, readingRow_cons, readingRow_cons,
      readingRow_nil, hn _ hm, List.append_nil, List.append_assoc]

theorem folded_reading {n m : Node} (h : folded n = some m) : reading m = reading n := by
  induction h using folded_induction with
  | leaf _ => rfl
  | bare _ => rfl
  | row hrow ih _ =>
    rw [reading_row, reading_row, hrow.reading ih]
    rfl
  | @unary kind _ _ _ ih _ =>
    cases kind with
    | squareRoot => rw [reading, reading, ih]
    | fenced => rw [reading, reading, ih]
  | binary _ _ ihl ihr _ => rw [reading_binary, reading_binary, ihl, ihr]

theorem foldedFrom_reading {row out : List Node} (h : foldedFrom [] row = some out) :
    readingRow out = readingRow row :=
  (rowFold_of_foldedFrom h).reading fun _ _ _ => folded_reading

theorem holdsForeignRow_eq_false_iff {items : List Node} :
    holdsForeignRow items = false ↔ ∀ n ∈ items, holdsForeign n = false := by
  induction items with
  | nil => simp [holdsForeignRow]
  | cons n rest ih => simp [holdsForeignRow, ih]

theorem holdsForeign_binary {kind : BinaryKind} {left right : Node}
    (hl : holdsForeign left = false) (hr : holdsForeign right = false) :
    holdsForeign (.binary kind left right) = false := by
  rw [holdsForeign, hl, hr]
  rfl

theorem folded_native {n m : Node} (h : folded n = some m) : holdsForeign m = false := by
  induction h using folded_induction with
  | leaf _ => rw [holdsForeign]
  | bare _ => rw [holdsForeign]
  | row hrow ih _ =>
    rw [holdsForeign, holdsForeignRow_eq_false_iff]
    exact hrow.forall_mem holdsForeign_binary (by simp) ih
  | unary _ ih _ => rw [holdsForeign, ih]
  | binary _ _ ihl ihr _ => exact holdsForeign_binary ihl ihr

theorem foldedFrom_native {row out : List Node} (h : foldedFrom [] row = some out) :
    ∀ n ∈ out, holdsForeign n = false :=
  foldedFrom_forall h holdsForeign_binary fun _ _ _ => folded_native

end Formulary.Formula
