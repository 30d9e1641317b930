import Formulary.Proofs.Folding

/-!
# Folding by passes

Folding by repeated passes comes to the same as complete folding (`foldOperators_nodes`): a pass that
folds something does not change what complete folding makes of the row, a pass that changes nothing
leaves a row that is completely folded, and a pass fails only where complete folding fails.

A pass goes along a row from left to right; what it does is shown along the way it takes (`RowPass`),
or along the way to the place where it fails (`RowFault`).
-/

namespace Formulary.Formula

/-! ## 1. The way to a fault -/

/-- How a pass comes to a fault in the rest of a row: an operator that is the first or the last of
the row, or a node with a fault inside. -/
inductive RowFault : List Node → List Node → Fault → Prop
  | first {rest : List Node} {n : Node} {kind : BinaryKind} (hk : binding? n = some kind) :
      RowFault [] (n :: rest) (.danglingOperator (symbolOf kind))
  | last {done : List Node} {n : Node} {kind : BinaryKind} (hk : binding? n = some kind) :
      RowFault done [n] (.danglingOperator (symbolOf kind))
  | inside {done rest : List Node} {n : Node} {fault : Fault} (hk : binding? n = none)
      (hn : foldInside n = .error fault) : RowFault done (n :: rest) fault
  | binding {done rest : List Node} {n left right : Node} {kind : BinaryKind} {fault : Fault}
      (hk : binding? n = some kind) (h : RowFault (.binary kind left right :: done) rest fault) :
      RowFault (left :: done) (n :: right :: rest) fault
  | other {done rest : List Node} {n m : Node} {c : Bool} {fault : Fault} (hk : binding? n = none)
      (hm : foldInside n = .ok (m, c)) (h : RowFault (m :: done) rest fault) :
      RowFault done (n :: rest) fault

theorem rowFault_of_foldFrom : ∀ {done nodes : List Node} {fault : Fault},
    foldFrom done nodes = .error fault → RowFault done nodes fault
  | done, [], fault, h => absurd h (by simp [foldFrom])
  | done, n :: rest, fault, h => by
    rw [foldFrom.eq_def] at h
    dsimp only at h
    cases hk : binding? n with
    | some kind =>
      rw [hk] at h
      cases done with
      | nil =>
        obtain rfl := Except.error.inj h
        exact .first hk
      | cons left done =>
        cases rest with
        | nil =>
          obtain rfl := Except.error.inj h
          exact .last hk
        | cons right rest =>
          dsimp only at h
          split at h
          · exact absurd h (by simp)
          · next fault' hf =>
            obtain rfl := Except.error.inj h
            exact .binding hk (rowFault_of_foldFrom hf)
    | none =>
      rw [hk] at h
      dsimp only at h
      split at h
      · next m c hm =>
        split at h
        · exact absurd h (by simp)
        · next fault' hf =>
          obtain rfl := Except.error.inj h
          exact .other hk hm (rowFault_of_foldFrom hf)
      · next fault' hf =>
        obtain rfl := Except.error.inj h
        exact .inside hk hf

/-! ## 2. Faults inside a node -/

theorem standingAlone_eq_error {child : Node} {pass : Except Fault (Node × Bool)} {fault : Fault}
    (h : standingAlone child pass = .error fault) :
    (∃ kind, binding? child = some kind ∧ fault = .danglingOperator (symbolOf kind)) ∨
      (binding? child = none ∧ pass = .error fault) := by
  unfold standingAlone at h
  split at h
  · next kind hk => exact .inl ⟨kind, hk, (Except.error.inj h).symm⟩
  · next hk => exact .inr ⟨hk, h⟩

section

variable {fault : Fault} {kind : BinaryKind}

theorem foldInside_row_error {kind : RowKind} {items : List Node}
    (h : foldInside (.row kind items) = .error fault) : foldFrom [] items = .error fault := by
  rw [foldInside] at h
  split at h
  · exact absurd h (by simp)
  · next fault' hf => rw [hf, Except.error.inj h]

theorem foldInside_unary_error {kind : UnaryKind} {content : Node}
    (h : foldInside (.unary kind content) = .error fault) :
    standingAlone content (foldInside content) = .error fault := by
  rw [foldInside] at h
  split at h
  · exact absurd h (by simp)
  · next fault' hf => rw [hf, Except.error.inj h]

theorem foldInside_binary_error {left right : Node}
    (h : foldInside (.binary kind left right) = .error fault) :
    standingAlone left (foldInside left) = .error fault ∨
      standingAlone right (foldInside right) = .error fault := by
  rw [foldInside] at h
  split at h
  · split at h
    · exact absurd h (by simp)
    · next fault' hf => exact .inr (by rw [hf, Except.error.inj h])
  · next fault' hf => exact .inl (by rw [hf, Except.error.inj h])

end

/-! ## 3. Passes and complete folding -/

theorem binding?_of_foldInside {n m : Node} {changed : Bool} (hn : binding? n = none)
    (h : foldInside n = .ok (m, changed)) : binding? m = none := by
  cases h using foldInside_induction with
  | leaf => exact hn
  | bare | row | unary | binary => rfl

-- a node that is folded by the operator after it may as well be folded before
theorem foldedFrom_pair {done rest : List Node} {n left right : Node} {kind : BinaryKind}
    (hk : binding? n = some kind) (hleft : binding? left = none) :
    foldedFrom done (left :: n :: right :: rest) =
      foldedFrom done (.binary kind left right :: rest) := by
  -- either way the left node is folded first, then the right one, and the two make a pair
  rw [foldedFrom_other hleft, foldedFrom_other (by rfl), folded, Option.bind_assoc]
  congr 1
  funext l
  rw [foldedFrom_binding hk, Option.bind_map]
  rfl

/-- A pass does not change what complete folding makes of a row, if it does not change it for the
nodes of the row. -/
theorem RowPass.foldedFrom_eq {done nodes out : List Node} {changed : Bool}
    (h : RowPass done nodes out changed)
    (hnodes : ∀ n ∈ nodes, ∀ m c, foldInside n = .ok (m, c) → folded m = folded n)
    (hfree : ∀ d ∈ done, binding? d = none) :
    foldedFrom [] out = foldedFrom [] (done.reverse ++ nodes) := by
  induction h with
  | nil done => rw [List.append_nil]
  | @binding done rest out n left right kind changed hk h ih =>
    obtain ⟨hleft, hfree'⟩ := List.forall_mem_cons.1 hfree
    have hrest : ∀ n ∈ rest, ∀ m c, foldInside n = .ok (m, c) → folded m = folded n :=
      fun n hn => hnodes n (by simp [hn])
    have hrev : ∀ d ∈ done.reverse, binding? d = none :=
      fun d hd => hfree' d (List.mem_reverse.1 hd)
    -- what is done holds no operator, so it folds by itself in front of the new pair
    rw [ih hrest (List.forall_mem_cons.2 ⟨rfl, hfree'⟩), List.reverse_cons, List.reverse_cons,
      List.append_assoc, List.append_assoc, List.singleton_append, List.singleton_append,
      foldedFrom_append hrev, foldedFrom_append hrev]
    congr 1
    funext front
    rw [foldedFrom_pair hk hleft]
  | @other done rest out n m c c' hk hm h ih =>
    obtain ⟨hn, hrest⟩ := List.forall_mem_cons.1 hnodes
    have hkm := binding?_of_foldInside hk hm
    have hrev : ∀ d ∈ done.reverse, binding? d = none :=
      fun d hd => hfree d (List.mem_reverse.1 hd)
    rw [ih hrest (List.forall_mem_cons.2 ⟨hkm, hfree⟩), List.reverse_cons, List.append_assoc,
      List.singleton_append, foldedFrom_append hrev, foldedFrom_append hrev]
    congr 1
    funext front
    rw [foldedFrom_other hkm, foldedFrom_other hk, hn m c hm]

theorem foldInside_folded {n m : Node} {changed : Bool} (h : foldInside n = .ok (m, changed)) :
    folded m = folded n := by
  induction h using foldInside_induction with
  | leaf _ => rfl
  | bare _ => rfl
  | row hrow ih _ =>
    rw [folded, folded, hrow.foldedFrom_eq ih (by simp)]
    rfl
  | unary _ _ ih _ => rw [folded, folded, ih]
  | binary _ _ _ _ ihl ihr _ => rw [folded, folded, ihl, ihr]

theorem foldPass_folded {nodes out : List Node} {changed : Bool}
    (h : foldPass nodes = .ok (out, changed)) : foldedFrom [] out = foldedFrom [] nodes :=
  (rowPass_of_foldFrom h).foldedFrom_eq (fun _ _ _ _ => foldInside_folded) (by simp)

/-- A row that a pass does not change is completely folded, if its nodes are when the pass does not
change them. -/
theorem RowPass.unchanged {done nodes out : List Node} {changed : Bool}
    (h : RowPass done nodes out changed) (hchanged : changed = false)
    (hnodes : ∀ n ∈ nodes, ∀ m, binding? n = none → foldInside n = .ok (m, false) →
      m = n ∧ folded n = some n) :
    out = done.reverse ++ nodes ∧
      ∀ done, foldedFrom done nodes = some (done.reverse ++ nodes) := by
  induction h with
  | nil done =>
    rw [List.append_nil]
    exact ⟨rfl, fun done => by rw [foldedFrom_nil, List.append_nil]⟩
  -- an operator would have been folded, and the pass would have changed something
  | binding hk h ih => exact absurd hchanged (by decide)
  | @other done rest out n m c c' hk hm h ih =>
    obtain ⟨rfl, rfl⟩ : c = false ∧ c' = false := by simpa using hchanged
    obtain ⟨hn, hrest⟩ := List.forall_mem_cons.1 hnodes
    obtain ⟨rfl, hn⟩ := hn m hk hm
    obtain ⟨rfl, hfolded⟩ := ih rfl hrest
    refine ⟨by rw [List.reverse_cons, List.append_assoc, List.singleton_append], fun done => ?_⟩
    rw [foldedFrom_other hk, hn, Option.bind_some, hfolded, List.reverse_cons, List.append_assoc,
      List.singleton_append]

theorem foldInside_unchanged {n m : Node} {changed : Bool} (hchanged : changed = false)
    (hk : binding? n = none) (h : foldInside n = .ok (m, changed)) :
    m = n ∧ folded n = some n := by
  induction h using foldInside_induction with
  | leaf _ => exact ⟨rfl, folded_leaf hk⟩
  | bare _ => exact ⟨rfl, rfl⟩
  | row hrow ih _ =>
    obtain ⟨rfl, hitems⟩ := hrow.unchanged hchanged fun n hn m hk hm => ih n hn m false hm rfl hk
    refine ⟨rfl, ?_⟩
    rw [folded, hitems []]
    rfl
  | unary hfree _ ih _ =>
    obtain ⟨rfl, hcontent⟩ := ih hchanged hfree
    refine ⟨rfl, ?_⟩
    rw [folded, hcontent]
    rfl
  | binary hkl hkr _ _ ihl ihr _ =>
    obtain ⟨hc, hc'⟩ := Bool.or_eq_false_iff.1 hchanged
    obtain ⟨rfl, hleft⟩ := ihl hc hkl
    obtain ⟨rfl, hright⟩ := ihr hc' hkr
    refine ⟨rfl, ?_⟩
    rw [folded, hleft, hright]
    rfl

theorem foldPass_unchanged {nodes out : List Node} (h : foldPass nodes = .ok (out, false)) :
    out = nodes ∧ foldedFrom [] nodes = some nodes := by
  obtain ⟨hout, hfolded⟩ :=
    (rowPass_of_foldFrom h).unchanged rfl fun _ _ _ => foldInside_unchanged rfl
  exact ⟨hout, hfolded []⟩

/-- Where a pass fails, complete folding fails, if it does so inside the nodes of the row. -/
theorem RowFault.failed {done nodes : List Node} {fault : Fault} (h : RowFault done nodes fault)
    (hnodes : ∀ n ∈ nodes, ∀ fault, foldInside n = .error fault → folded n = none)
    (hfree : ∀ d ∈ done, binding? d = none) : foldedFrom [] (done.reverse ++ nodes) = none := by
  have hrev : ∀ d ∈ done.reverse, binding? d = none :=
    fun d hd => hfree d (List.mem_reverse.1 hd)
  induction h with
  | first hk => exact foldedFrom_binding_first hk
  | last hk =>
    rw [foldedFrom_append hrev]
    simp only [foldedFrom_binding_last hk]
    exact Option.bind_fun_none _
  | inside hk hn =>
    rw [foldedFrom_append hrev]
    simp only [foldedFrom_other hk, hnodes _ List.mem_cons_self _ hn]
    exact Option.bind_fun_none _
  | @binding done rest n left right kind fault hk h ih =>
    obtain ⟨hleft, hfree'⟩ := List.forall_mem_cons.1 hfree
    have hrev' : ∀ d ∈ done.reverse, binding? d = none :=
      fun d hd => hfree' d (List.mem_reverse.1 hd)
    have hpair : ∀ d ∈ Node.binary kind left right :: done, binding? d = none :=
      List.forall_mem_cons.2 ⟨rfl, hfree'⟩
    -- a pair folds like its operator between the two operands
    have hnone := ih (fun n hn => hnodes n (by simp [hn])) hpair
      fun d hd => hpair d (List.mem_reverse.1 hd)
    rw [List.reverse_cons, List.append_assoc, List.singleton_append,
      foldedFrom_append hrev'] at hnone ⊢
    simp only [foldedFrom_pair hk hleft]
    exact hnone
  | @other done rest n m c fault hk hm h ih =>
    have hkm := binding?_of_foldInside hk hm
    have hfree' : ∀ d ∈ m :: done, binding? d = none := List.forall_mem_cons.2 ⟨hkm, hfree⟩
    have hnone := ih (List.forall_mem_cons.1 hnodes).2 hfree'
      fun d hd => hfree' d (List.mem_reverse.1 hd)
    rw [List.reverse_cons, List.append_assoc, List.singleton_append,
      foldedFrom_append hrev] at hnone
    rw [foldedFrom_append hrev]
    simp only [foldedFrom_other hk, foldedFrom_other hkm, foldInside_folded hm] at hnone ⊢
    exact hnone

theorem folded_of_standingAlone_error {child : Node} {fault : Fault}
    (hchild : ∀ fault, foldInside child = .error fault → folded child = none)
    (h : standingAlone child (foldInside child) = .error fault) : folded child = none := by
  rcases standingAlone_eq_error h with ⟨kind, hk, -⟩ | ⟨-, hx⟩
  · exact folded_binding hk
  · exact hchild fault hx

theorem foldInside_failed {n : Node} {fault : Fault} (h : foldInside n = .error fault) :
    folded n = none := by
  induction n generalizing fault with
  | leaf kind text => exact absurd h (by simp [foldInside])
  | bare => exact absurd h (by simp [foldInside])
  | missing => rfl
  | stray value => rfl
  | row kind items ih =>
    have hitems := (rowFault_of_foldFrom (foldInside_row_error h)).failed
      (fun n hn fault => ih n hn) (by simp)
    rw [List.reverse_nil, List.nil_append] at hitems
    rw [folded, hitems]
    rfl
  | unary kind content ih =>
    rw [folded, folded_of_standingAlone_error (fun fault => ih) (foldInside_unary_error h)]
    rfl
  | binary kind left right ihl ihr =>
    rw [folded]
    rcases foldInside_binary_error h with hl | hr
    · rw [folded_of_standingAlone_error (fun fault => ihl) hl]
      rfl
    · rw [folded_of_standingAlone_error (fun fault => ihr) hr]
      exact Option.bind_fun_none _

theorem foldPass_failed {nodes : List Node} {fault : Fault} (h : foldPass nodes = .error fault) :
    foldedFrom [] nodes = none :=
  (rowFault_of_foldFrom h).failed (fun _ _ _ => foldInside_failed) (by simp)

theorem foldOperators_error {nodes : List Node} {fault : Fault}
    (h : foldPass nodes = .error fault) : foldOperators nodes = .error fault := by
  rw [foldOperators]
  split <;> simp_all

theorem foldOperators_unchanged {nodes out : List Node} (h : foldPass nodes = .ok (out, false)) :
    foldOperators nodes = .ok ⟨out, 1⟩ := by
  rw [foldOperators]
  split <;> simp_all

theorem foldOperators_changed {nodes out : List Node} (h : foldPass nodes = .ok (out, true)) :
    foldOperators nodes =
      (foldOperators out).map fun s => { s with passes := s.passes + 1 } := by
  rw [foldOperators]
  split <;> simp_all

/-- **Folding by passes is complete folding.** -/
theorem foldOperators_nodes (nodes : List Node) :
    (foldOperators nodes).toOption.map Settled.nodes = foldedFrom [] nodes := by
  induction nodes using foldOperators.induct with
  | case1 nodes fault h =>
    rw [foldOperators_error h]
    exact (foldPass_failed h).symm
  | case2 nodes out h =>
    obtain ⟨rfl, hnodes⟩ := foldPass_unchanged h
    rw [foldOperators_unchanged h, hnodes]
    rfl
  | case3 nodes out h ih =>
    -- the passes that follow fold `out`, which folds like `nodes`
    rw [foldOperators_changed h, ← foldPass_folded h, ← ih]
    cases foldOperators out <;> rfl

theorem foldOperators_ok_iff {nodes out : List Node} :
    (∃ s, foldOperators nodes = .ok s ∧ s.nodes = out) ↔ foldedFrom [] nodes = some out := by
  rw [← foldOperators_nodes]
  cases h : foldOperators nodes with
  | error fault => simp [Except.toOption]
  | ok s => simp [Except.toOption]

/-! ## 4. Faults -/

-- a pass puts nothing into a row that is not a node
theorem RowPass.native {done nodes out : List Node} {changed : Bool}
    (h : RowPass done nodes out changed)
    (hinside : ∀ n ∈ nodes, ∀ m c, foldInside n = .ok (m, c) → holdsForeign m = false)
    (hdone : ∀ n ∈ done, holdsForeign n = false) (hnodes : ∀ n ∈ nodes, holdsForeign n = false) :
    ∀ n ∈ out, holdsForeign n = false := by
  induction h with
  | nil done => exact fun n hn => hdone n (List.mem_reverse.1 hn)
  | binding hk h ih =>
    obtain ⟨hleft, hdone'⟩ := List.forall_mem_cons.1 hdone
    obtain ⟨hright, hrest⟩ := List.forall_mem_cons.1 (List.forall_mem_cons.1 hnodes).2
    exact ih (fun n hn => hinside n (by simp [hn]))
      (List.forall_mem_cons.2 ⟨holdsForeign_binary hleft hright, hdone'⟩) hrest
  | other hk hm h ih =>
    obtain ⟨hn, hinside'⟩ := List.forall_mem_cons.1 hinside
    exact ih hinside' (List.forall_mem_cons.2 ⟨hn _ _ hm, hdone⟩) (List.forall_mem_cons.1 hnodes).2

theorem foldInside_native {n m : Node} {changed : Bool} (hn : holdsForeign n = false)
    (h : foldInside n = .ok (m, changed)) : holdsForeign m = false := by
  induction h using foldInside_induction with
  | leaf _ => exact hn
  | bare _ => exact hn
  | row hrow ih _ =>
    rw [holdsForeign, holdsForeignRow_eq_false_iff] at hn ⊢
    exact hrow.native (fun n hmem m c hm => ih n hmem m c hm (hn n hmem)) (by simp) hn
  | unary _ _ ih _ =>
    rw [holdsForeign] at hn ⊢
    exact ih hn
  | binary _ _ _ _ ihl ihr _ =>
    rw [holdsForeign, Bool.or_eq_false_iff] at hn
    exact holdsForeign_binary (ihl hn.1) (ihr hn.2)

/-- In a row of nodes, the only fault that a pass can come to is an operator without an operand. -/
theorem RowFault.dangling {done nodes : List Node} {fault : Fault} (h : RowFault done nodes fault)
    (hinside : ∀ n ∈ nodes, ∀ fault, foldInside n = .error fault →
      ∃ kind, fault = .danglingOperator (symbolOf kind)) :
    ∃ kind, fault = .danglingOperator (symbolOf kind) := by
  induction h with
  | @first _ _ kind hk => exact ⟨kind, rfl⟩
  | @last _ _ kind hk => exact ⟨kind, rfl⟩
  | inside hk hn => exact hinside _ List.mem_cons_self _ hn
  | binding hk h ih => exact ih fun n hn => hinside n (by simp [hn])
  | other hk hm h ih => exact ih fun n hn => hinside n (by simp [hn])

theorem dangling_of_standingAlone_error {child : Node} {fault : Fault}
    (hchild : foldInside child = .error fault → ∃ kind, fault = .danglingOperator (symbolOf kind))
    (h : standingAlone child (foldInside child) = .error fault) :
    ∃ kind, fault = .danglingOperator (symbolOf kind) := by
  rcases standingAlone_eq_error h with ⟨kind, -, hfault⟩ | ⟨-, hx⟩
  · exact ⟨kind, hfault⟩
  · exact hchild hx

theorem foldInside_fault {n : Node} {fault : Fault} (hn : holdsForeign n = false)
    (h : foldInside n = .error fault) : ∃ kind, fault = .danglingOperator (symbolOf kind) := by
  induction n generalizing fault with
  | leaf kind text => exact absurd h (by simp [foldInside])
  | bare => exact absurd h (by simp [foldInside])
  | missing => exact absurd hn (by simp [holdsForeign])
  | stray value => exact absurd hn (by simp [holdsForeign])
  | row kind items ih =>
    rw [holdsForeign, holdsForeignRow_eq_false_iff] at hn
    exact (rowFault_of_foldFrom (foldInside_row_error h)).dangling
      fun n hmem fault => ih n hmem (hn n hmem)
  | unary kind content ih =>
    rw [holdsForeign] at hn
    exact dangling_of_standingAlone_error (ih hn) (foldInside_unary_error h)
  | binary kind left right ihl ihr =>
    rw [holdsForeign, Bool.or_eq_false_iff] at hn
    rcases foldInside_binary_error h with hl | hr
    · exact dangling_of_standingAlone_error (ihl hn.1) hl
    · exact dangling_of_standingAlone_error (ihr hn.2) hr

/-- The only fault of folding a row of nodes is an operator without an operand. -/
theorem foldOperators_fault {nodes : List Node} {fault : Fault}
    (hn : ∀ n ∈ nodes, holdsForeign n = false) (h : foldOperators nodes = .error fault) :
    ∃ kind, fault = .danglingOperator (symbolOf kind) := by
  induction nodes using foldOperators.induct with
  | case1 nodes fault' hpass =>
    rw [foldOperators_error hpass] at h
    obtain rfl := Except.error.inj h
    exact (rowFault_of_foldFrom hpass).dangling fun n hmem _ => foldInside_fault (hn n hmem)
  | case2 nodes out hpass =>
    rw [foldOperators_unchanged hpass] at h
    exact absurd h (by simp)
  | case3 nodes out hpass ih =>
    rw [foldOperators_changed hpass] at h
    have hout := (rowPass_of_foldFrom hpass).native
      (fun n hmem _ _ => foldInside_native (hn n hmem)) (by simp) hn
    cases hf : foldOperators out with
    | error fault' =>
      rw [hf] at h
      obtain rfl : fault' = fault := Except.error.inj h
      exact ih hout hf
    | ok s =>
      rw [hf] at h
      exact absurd h (by simp [Except.map])

end Formulary.Formula
