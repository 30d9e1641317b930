import Formulary.Formula.Fault
import Formulary.Node.Basic

/-!
# Folding: operators that bind their neighbours

In a row, `x ^ y` becomes a power and `x / y` a fraction.  One pass goes through a row from left to
right and folds an operator with whatever already stands to its left, so both operators bind equally
and to the left.  The node to the right is taken as it is; its inside is folded by the next pass.
Passes are repeated until one changes nothing.

What a pass makes of a row is shown along the way it takes (`RowPass`), and inside a node by induction
along the pass (`foldInside_induction`).  Main statement here: a pass that folds something leaves fewer operators to fold
(`foldPass_pending`), so the passes come to an end.
-/

namespace Formulary.Formula

/-! ## 1. Binding operators -/

/-- The pair that an operator makes of its neighbours. -/
def binding? : Node → Option BinaryKind
  | .leaf .operator "^" => some .power
  | .leaf .operator "/" => some .fraction
  | _ => none

def symbolOf : BinaryKind → String
  | .power => "^"
  | .fraction => "/"

mutual

/-- The number of operators in a tree that are not folded yet. -/
def pending : Node → Nat
  | .leaf kind text => if (binding? (.leaf kind text)).isSome then 1 else 0
  | .row _ items => pendingRow items
  | .unary _ content => pending content
  | .binary _ left right => pending left + pending right
  | .bare | .missing | .stray _ => 0

def pendingRow : List Node → Nat
  | [] => 0
  | n :: rest => pending n + pendingRow rest

end

theorem pendingRow_append (xs ys : List Node) :
    pendingRow (xs ++ ys) = pendingRow xs + pendingRow ys := by
  induction xs with
  | nil => simp [pendingRow]
  | cons x xs ih => simp [pendingRow, ih, Nat.add_assoc]

theorem pendingRow_reverse (xs : List Node) : pendingRow xs.reverse = pendingRow xs := by
  induction xs with
  | nil => rfl
  | cons x xs ih => simp [pendingRow_append, pendingRow, ih, Nat.add_comm]

theorem pending_of_binding? {n : Node} {kind : BinaryKind} (h : binding? n = some kind) :
    pending n = 1 := by
  cases n with
  | leaf k s => simp [pending, h]
  | _ => simp [binding?] at h

/-! ## 2. One pass -/

/-- A child that stands alone in its place has no neighbours: it must not be a binding operator. -/
def standingAlone (child : Node) (folded : Except Fault (Node × Bool)) :
    Except Fault (Node × Bool) :=
  match binding? child with
  | some kind => .error (.danglingOperator (symbolOf kind))
  | none => folded

mutual

/-- One pass over the inside of a node, and whether it folded anything. -/
def foldInside : Node → Except Fault (Node × Bool)
  | .leaf kind text => .ok (.leaf kind text, false)
  | .bare => .ok (.bare, false)
  | .row kind items =>
    match foldFrom [] items with
    | .ok (items, changed) => .ok (.row kind items, changed)
    | .error fault => .error fault
  | .unary kind content =>
    match standingAlone content (foldInside content) with
    | .ok (content, changed) => .ok (.unary kind content, changed)
    | .error fault => .error fault
  | .binary kind left right =>
    match standingAlone left (foldInside left) with
    | .ok (left, changed) =>
      match standingAlone right (foldInside right) with
      | .ok (right, changed') => .ok (.binary kind left right, changed || changed')
      | .error fault => .error fault
    | .error fault => .error fault
  | .missing | .stray _ => .error .notANode

/-- One pass over the rest of a row, when `done` holds the part to the left, last node first. -/
def foldFrom (done : List Node) : List Node → Except Fault (List Node × Bool)
  | [] => .ok (done.reverse, false)
  | n :: rest =>
    match binding? n with
    | some kind =>
      match done, rest with
      | left :: done, right :: rest =>
        match foldFrom (.binary kind left right :: done) rest with
        | .ok (out, _) => .ok (out, true)
        | .error fault => .error fault
      | _, _ => .error (.danglingOperator (symbolOf kind))
    | none =>
      match foldInside n with
      | .ok (n, changed) =>
        match foldFrom (n :: done) rest with
        | .ok (out, changed') => .ok (out, changed || changed')
        | .error fault => .error fault
      | .error fault => .error fault

end

/-- One pass over a row: the new row, and whether anything was folded. -/
def foldPass (nodes : List Node) : Except Fault (List Node × Bool) :=
  foldFrom [] nodes

/-! ## 3. The way of a pass -/

/-- How a pass goes through the rest of a row and what it gives: an operator takes the nodes on its
two sides as they are, and any other node is gone through inside. -/
inductive RowPass : List Node → List Node → List Node → Bool → Prop
  | nil (done : List Node) : RowPass done [] done.reverse false
  | binding {done rest out : List Node} {n left right : Node} {kind : BinaryKind} {changed : Bool}
      (hk : binding? n = some kind) (h : RowPass (.binary kind left right :: done) rest out changed) :
      RowPass (left :: done) (n :: right :: rest) out true
  | other {done rest out : List Node} {n m : Node} {c c' : Bool} (hk : binding? n = none)
      (hm : foldInside n = .ok (m, c)) (h : RowPass (m :: done) rest out c') :
      RowPass done (n :: rest) out (c || c')

theorem rowPass_of_foldFrom {done nodes out : List Node} {changed : Bool}
    (h : foldFrom done nodes = .ok (out, changed)) : RowPass done nodes out changed := by
  cases nodes with
  | nil =>
    obtain ⟨rfl, rfl⟩ : done.reverse = out ∧ false = changed := by simpa [foldFrom] using h
    exact .nil done
  | cons n rest =>
    rw [foldFrom.eq_def] at h
    dsimp only at h
    split at h
    · next kind hk =>
      split at h
      · next left done' right rest' =>
        split at h
        · next out' changed' hf =>
          obtain ⟨rfl, rfl⟩ : out' = out ∧ true = changed := by simpa using h
          exact .binding hk (rowPass_of_foldFrom hf)
        · exact absurd h (by simp)
      · exact absurd h (by simp)
    · next hk =>
      split at h
      · next m c hm =>
        split at h
        · next out' c' hf =>
          obtain ⟨rfl, rfl⟩ : out' = out ∧ (c || c') = changed := by simpa using h
          exact .other hk hm (rowPass_of_foldFrom hf)
        · exact absurd h (by simp)
      · exact absurd h (by simp)
termination_by nodes.length

theorem standingAlone_eq_ok_iff {child : Node} {pass : Except Fault (Node × Bool)}
    {r : Node × Bool} :
    standingAlone child pass = .ok r ↔ binding? child = none ∧ pass = .ok r := by
  unfold standingAlone
  split <;> simp [*]

section

variable {changed : Bool}

theorem foldInside_row_ok {kind : RowKind} {items : List Node} {m : Node}
    (h : foldInside (.row kind items) = .ok (m, changed)) :
    ∃ out, foldFrom [] items = .ok (out, changed) ∧ m = .row kind out := by
  rw [foldInside] at h
  split at h
  · next out c hf =>
    obtain ⟨rfl, rfl⟩ : Node.row kind out = m ∧ c = changed := by simpa using h
    exact ⟨out, hf, rfl⟩
  · exact absurd h (by simp)

theorem foldInside_unary_ok {kind : UnaryKind} {content m : Node}
    (h : foldInside (.unary kind content) = .ok (m, changed)) :
    ∃ x, binding? content = none ∧ foldInside content = .ok (x, changed) ∧ m = .unary kind x := by
  rw [foldInside] at h
  split at h
  · next x c hf =>
    obtain ⟨rfl, rfl⟩ : Node.unary kind x = m ∧ c = changed := by simpa using h
    obtain ⟨hb, hx⟩ := standingAlone_eq_ok_iff.1 hf
    exact ⟨x, hb, hx, rfl⟩
  · exact absurd h (by simp)

theorem foldInside_binary_ok {kind : BinaryKind} {left right m : Node}
    (h : foldInside (.binary kind left right) = .ok (m, changed)) :
    ∃ l c r c', binding? left = none ∧ foldInside left = .ok (l, c) ∧
      binding? right = none ∧ foldInside right = .ok (r, c') ∧
      m = .binary kind l r ∧ changed = (c || c') := by
  rw [foldInside] at h
  split at h
  · next l c hl =>
    split at h
    · next r c' hr =>
      obtain ⟨rfl, rfl⟩ : Node.binary kind l r = m ∧ (c || c') = changed := by simpa using h
      obtain ⟨hbl, hl⟩ := standingAlone_eq_ok_iff.1 hl
      obtain ⟨hbr, hr⟩ := standingAlone_eq_ok_iff.1 hr
      exact ⟨l, c, r, c', hbl, hl, hbr, hr, rfl, rfl⟩
    · exact absurd h (by simp)
  · exact absurd h (by simp)

end

/-- Induction along a pass inside a node that comes to no fault: every node keeps its shape, and a row is
gone through from left to right. -/
@[elab_as_elim]
theorem foldInside_induction
    {motive : ∀ (n m : Node) (changed : Bool), foldInside n = .ok (m, changed) → Prop}
    (leaf : ∀ {kind : LeafKind} {text : String}
      (h : foldInside (.leaf kind text) = .ok (.leaf kind text, false)),
      motive (.leaf kind text) (.leaf kind text) false h)
    (bare : ∀ h : foldInside .bare = .ok (.bare, false), motive .bare .bare false h)
    (row : ∀ {kind : RowKind} {items out : List Node} {changed : Bool}
      (_ : RowPass [] items out changed)
      (_ : ∀ n ∈ items, ∀ m c (hm : foldInside n = .ok (m, c)), motive n m c hm)
      (h : foldInside (.row kind items) = .ok (.row kind out, changed)),
      motive (.row kind items) (.row kind out) changed h)
    (unary : ∀ {kind : UnaryKind} {content x : Node} {changed : Bool} (_ : binding? content = none)
      (hx : foldInside content = .ok (x, changed)) (_ : motive content x changed hx)
      (h : foldInside (.unary kind content) = .ok (.unary kind x, changed)),
      motive (.unary kind content) (.unary kind x) changed h)
    (binary : ∀ {kind : BinaryKind} {left right l r : Node} {c c' : Bool}
      (_ : binding? left = none) (_ : binding? right = none)
      (hl : foldInside left = .ok (l, c)) (hr : foldInside right = .ok (r, c'))
      (_ : motive left l c hl) (_ : motive right r c' hr)
      (h : foldInside (.binary kind left right) = .ok (.binary kind l r, c || c')),
      motive (.binary kind left right) (.binary kind l r) (c || c') h)
    {n m : Node} {changed : Bool} (h : foldInside n = .ok (m, changed)) : motive n m changed h := by
  induction n generalizing m changed with
  | leaf kind text =>
    obtain ⟨rfl, rfl⟩ : Node.leaf kind text = m ∧ false = changed := by simpa [foldInside] using h
    exact leaf h
  | bare =>
    obtain ⟨rfl, rfl⟩ : Node.bare = m ∧ false = changed := by simpa [foldInside] using h
    exact bare h
  | missing => exact absurd h (by simp [foldInside])
  | stray value => exact absurd h (by simp [foldInside])
  | row kind items ih =>
    obtain ⟨out, hf, rfl⟩ := foldInside_row_ok h
    exact row (rowPass_of_foldFrom hf) (fun n hn m c hm => ih n hn hm) h
  | unary kind content ih =>
    obtain ⟨x, hk, hx, rfl⟩ := foldInside_unary_ok h
    exact unary hk hx (ih hx) h
  | binary kind left right ihl ihr =>
    obtain ⟨l, c, r, c', hkl, hl, hkr, hr, rfl, rfl⟩ := foldInside_binary_ok h
    exact binary hkl hkr hl hr (ihl hl) (ihr hr) h

/-! ## 4. A pass that folds leaves less to fold -/

theorem toNat_or_le (c c' : Bool) : (c || c').toNat ≤ c.toNat + c'.toNat := by
  cases c <;> cases c' <;> decide

/-- A pass along a row never adds an operator, and removes one if it changes anything, if that is so
inside the nodes of the row. -/
theorem RowPass.pending_le {done nodes out : List Node} {changed : Bool}
    (h : RowPass done nodes out changed)
    (hnodes : ∀ n ∈ nodes, ∀ m c, foldInside n = .ok (m, c) → pending m + c.toNat ≤ pending n) :
    pendingRow out + changed.toNat ≤ pendingRow done + pendingRow nodes := by
  induction h with
  | nil done => simp [pendingRow_reverse, pendingRow]
  | binding hk h ih =>
    have hrest := ih fun n hn => hnodes n (by simp [hn])
    have hone := pending_of_binding? hk
    simp only [pendingRow, pending, Bool.toNat_true] at hrest ⊢
    omega
  | @other _ _ _ _ _ c c' hk hm h ih =>
    obtain ⟨hn, hmore⟩ := List.forall_mem_cons.1 hnodes
    have hnode := hn _ _ hm
    have hrest := ih hmore
    have hor := toNat_or_le c c'
    simp only [pendingRow] at hrest ⊢
    omega

theorem foldInside_pending {n m : Node} {changed : Bool} (h : foldInside n = .ok (m, changed)) :
    pending m + changed.toNat ≤ pending n := by
  induction h using foldInside_induction with
  | leaf _ => simp
  | bare _ => simp
  | row hrow ih _ => simpa [pending, pendingRow] using hrow.pending_le ih
  | unary _ _ ih _ => simpa [pending] using ih
  | @binary _ _ _ _ _ c c' _ _ _ _ ihl ihr _ =>
    have hor := toNat_or_le c c'
    simp only [pending]
    omega

/-- A pass that folds something leaves fewer operators to fold. -/
theorem foldPass_pending {nodes out : List Node} (h : foldPass nodes = .ok (out, true)) :
    pendingRow out < pendingRow nodes := by
  have hle := (rowPass_of_foldFrom h).pending_le fun _ _ _ _ => foldInside_pending
  simp only [pendingRow, Bool.toNat_true] at hle
  omega

/-! ## 5. All passes -/

/-- A row that no further pass changes, and how many passes it took to find that out. -/
structure Settled where
  nodes : List Node
  passes : Nat
  deriving DecidableEq

/-- Folds until a pass changes nothing; that pass is counted too. -/
def foldOperators (nodes : List Node) : Except Fault Settled :=
  match _h : foldPass nodes with
  | .error fault => .error fault
  | .ok (out, false) => .ok ⟨out, 1⟩
  | .ok (out, true) => (foldOperators out).map fun s => { s with passes := s.passes + 1 }
termination_by pendingRow nodes
decreasing_by exact foldPass_pending _h

end Formulary.Formula
