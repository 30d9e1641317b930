import Formulary.Proofs.Dangling
import Formulary.Proofs.Passes
import Mathlib.Data.Nat.Find
import Mathlib.Order.Bounds.Defs
import Mathlib.Order.MinMax

/-!
# The number of passes

A pass folds every operator of the rows it goes along, but it does not go into the node to the right of
an operator; that is left to the next pass.  So a node is completely folded after as many passes as there
are right operands inside each other on the way down (`delay`), and the number of passes is known
exactly (`foldOperators_passes`): what is left after a pass is one less, and a pass changes something
exactly if there was something left.

Main statement: folding a formula takes at least one pass, at most as many as the formula has words, and
at most two more than groups are nested in each other (`foldOperators_passes_le`).
-/

namespace Formulary.Formula

/-! ## 1. Passes to come -/

mutual

/-- The number of passes that change something in a node, counted from the first that goes into it. -/
def delay : Node → Nat
  | .row _ items => delayRow items
  | .unary _ content => delay content
  | .binary _ left right => max (delay left) (delay right)
  | .leaf .. | .bare | .missing | .stray _ => 0

/-- The number of passes that change something in a row; the node to the right of an operator waits for
one pass. -/
def delayRow : List Node → Nat
  | [] => 0
  | n :: rest =>
    match binding? n with
    | some _ =>
      match rest with
      | right :: rest => max (delay right + 1) (delayRow rest)
      | [] => 0
    | none => max (delay n) (delayRow rest)

end

section

variable {rest : List Node} {n right : Node} {kind : BinaryKind}

theorem delayRow_binding (h : binding? n = some kind) :
    delayRow (n :: right :: rest) = max (delay right + 1) (delayRow rest) := by
  rw [delayRow.eq_def]
  dsimp only
  rw [h]

theorem delayRow_last (h : binding? n = some kind) : delayRow [n] = 0 := by
  rw [delayRow.eq_def]
  dsimp only
  rw [h]

theorem delayRow_other (h : binding? n = none) :
    delayRow (n :: rest) = max (delay n) (delayRow rest) := by
  rw [delayRow.eq_def]
  dsimp only
  rw [h]

end

/-- A row is gone along from left to right, an operator together with the node after it. -/
@[elab_as_elim]
theorem row_induction {motive : List Node → Prop} (nil : motive [])
    (last : ∀ n kind, binding? n = some kind → motive [n])
    (binding : ∀ n kind right rest, binding? n = some kind → motive rest →
      motive (n :: right :: rest))
    (other : ∀ n rest, binding? n = none → motive rest → motive (n :: rest)) (row : List Node) :
    motive row := by
  induction row using List.twoStepInduction with
  | nil => exact nil
  | singleton n =>
    cases hk : binding? n with
    | none => exact other n [] hk nil
    | some kind => exact last n kind hk
  | cons_cons n right rest ih ihright =>
    cases hk : binding? n with
    | none => exact other n (right :: rest) hk (ihright right)
    | some kind => exact binding n kind right rest hk ih

theorem delayRow_append {xs : List Node} (h : ∀ n ∈ xs, binding? n = none) (ys : List Node) :
    delayRow (xs ++ ys) = max (delayRow xs) (delayRow ys) := by
  induction xs with
  | nil =>
    rw [List.nil_append, delayRow]
    omega
  | cons x xs ih =>
    obtain ⟨hx, hxs⟩ := List.forall_mem_cons.1 h
    rw [List.cons_append, delayRow_other hx, delayRow_other hx, ih hxs]
    omega

theorem delayRow_reverse {xs : List Node} (h : ∀ n ∈ xs, binding? n = none) :
    delayRow xs.reverse = delayRow xs := by
  induction xs with
  | nil => rfl
  | cons x xs ih =>
    obtain ⟨hx, hxs⟩ := List.forall_mem_cons.1 h
    have hrev : ∀ n ∈ xs.reverse, binding? n = none := fun n hn => hxs n (List.mem_reverse.1 hn)
    rw [List.reverse_cons, delayRow_append hrev, ih hxs, delayRow_other hx, delayRow_other hx,
      delayRow]
    omega

/-! ## 2. One pass -/

/-- A pass along a row leaves one less than there was to come, and changes something exactly if there was
anything, if that is so inside the nodes of the row. -/
theorem RowPass.delay {done nodes out : List Node} {changed : Bool}
    (h : RowPass done nodes out changed)
    (hnodes : ∀ n ∈ nodes, ∀ m c, foldInside n = .ok (m, c) →
      delay m = delay n - 1 ∧ (c = true ↔ 0 < delay n))
    (hfree : ∀ d ∈ done, binding? d = none) :
    delayRow out = max (delayRow done) (delayRow nodes - 1) ∧
      (changed = true ↔ 0 < delayRow nodes) := by
  induction h with
  | nil done =>
    rw [delayRow_reverse hfree, delayRow]
    exact ⟨by omega, by simp⟩
  | @binding done rest out n left right kind changed hk h ih =>
    obtain ⟨hleft, hfree'⟩ := List.forall_mem_cons.1 hfree
    obtain ⟨hout, -⟩ := ih (fun n hn => hnodes n (by simp [hn]))
      (List.forall_mem_cons.2 ⟨rfl, hfree'⟩)
    -- the right operand has not been gone into, so what it has to come it still has
    rw [delayRow_other (by rfl), Formula.delay] at hout
    rw [hout, delayRow_other hleft, delayRow_binding hk]
    exact ⟨by omega, by simp⟩
  | @other done rest out n m c c' hk hm h ih =>
    obtain ⟨hn, hrest⟩ := List.forall_mem_cons.1 hnodes
    obtain ⟨hdelay, hc⟩ := hn m c hm
    have hkm := binding?_of_foldInside hk hm
    obtain ⟨hout, hc'⟩ := ih hrest (List.forall_mem_cons.2 ⟨hkm, hfree⟩)
    rw [delayRow_other hkm, hdelay] at hout
    rw [hout, delayRow_other hk, Bool.or_eq_true_iff, hc, hc', lt_max_iff]
    exact ⟨by omega, Iff.rfl⟩

theorem foldInside_delay {n m : Node} {changed : Bool} (h : foldInside n = .ok (m, changed)) :
    delay m = delay n - 1 ∧ (changed = true ↔ 0 < delay n) := by
  induction h using foldInside_induction with
  | leaf _ => simp [delay]
  | bare _ => simp [delay]
  | row hrow ih _ =>
    obtain ⟨hout, hc⟩ := hrow.delay ih (by simp)
    rw [delay, delay, hout, delayRow]
    exact ⟨by omega, hc⟩
  | unary _ _ ih _ =>
    rw [delay, delay]
    exact ih
  | binary _ _ _ _ ihl ihr _ =>
    obtain ⟨hdelay, hc⟩ := ihl
    obtain ⟨hdelay', hc'⟩ := ihr
    rw [delay, delay, hdelay, hdelay', Bool.or_eq_true_iff, hc, hc', lt_max_iff]
    exact ⟨by omega, Iff.rfl⟩

theorem foldPass_delay {nodes out : List Node} {changed : Bool}
    (h : foldPass nodes = .ok (out, changed)) :
    delayRow out = delayRow nodes - 1 ∧ (changed = true ↔ 0 < delayRow nodes) := by
  obtain ⟨hout, hc⟩ :=
    (rowPass_of_foldFrom h).delay (fun _ _ _ _ => foldInside_delay) (by simp)
  rw [delayRow] at hout
  exact ⟨by omega, hc⟩

/-! ## 3. All passes -/

/-- **The number of passes.**  Folding takes the passes that change something, and one more. -/
theorem foldOperators_passes {nodes : List Node} {s : Settled} (h : foldOperators nodes = .ok s) :
    s.passes = delayRow nodes + 1 := by
  induction nodes using foldOperators.induct generalizing s with
  | case1 nodes fault hpass =>
    rw [foldOperators_error hpass] at h
    exact absurd h (by simp)
  | case2 nodes out hpass =>
    obtain ⟨-, hchanged⟩ := foldPass_delay hpass
    rw [foldOperators_unchanged hpass] at h
    obtain rfl := Except.ok.inj h
    have hzero : ¬0 < delayRow nodes := fun hpos => absurd (hchanged.2 hpos) (by decide)
    show 1 = delayRow nodes + 1
    omega
  | case3 nodes out hpass ih =>
    obtain ⟨hout, hchanged⟩ := foldPass_delay hpass
    have hpos := hchanged.1 rfl
    rw [foldOperators_changed hpass] at h
    obtain ⟨t, ht, rfl⟩ := map_eq_ok_iff.1 h
    show t.passes + 1 = delayRow nodes + 1
    rw [ih ht, hout]
    omega

/-! ## 4. Passes and operators -/

-- every pass but the last folds an operator
theorem delayRow_le_pendingRow {nodes : List Node} (h : ∀ n ∈ nodes, delay n ≤ pending n) :
    delayRow nodes ≤ pendingRow nodes := by
  induction nodes using row_induction with
  | nil => exact Nat.le_refl 0
  | last n kind hk =>
    rw [delayRow_last hk]
    exact Nat.zero_le _
  | binding n kind right rest hk ih =>
    have hright : delay right ≤ pending right := h right (by simp)
    have hrest := ih fun m hm => h m (by simp [hm])
    rw [delayRow_binding hk, pendingRow, pendingRow, pending_of_binding? hk]
    omega
  | other n rest hk ih =>
    obtain ⟨hn, hmore⟩ := List.forall_mem_cons.1 h
    have hrest := ih hmore
    rw [delayRow_other hk, pendingRow]
    omega

theorem delay_le_pending (n : Node) : delay n ≤ pending n := by
  induction n with
  | row kind items ih =>
    rw [delay, pending]
    exact delayRow_le_pendingRow ih
  | unary kind content ih => rwa [delay, pending]
  | binary kind left right ihl ihr =>
    rw [delay, pending]
    omega
  | leaf | bare | missing | stray =>
    rw [delay]
    exact Nat.zero_le _

theorem pendingRow_le_countP {nodes : List Node}
    (h : ∀ n ∈ nodes, pending n ≤ (reading n).countP isBinding) :
    pendingRow nodes ≤ (readingRow nodes).countP isBinding := by
  induction nodes with
  | nil => exact Nat.le_refl 0
  | cons n rest ih =>
    obtain ⟨hn, hmore⟩ := List.forall_mem_cons.1 h
    have hrest := ih hmore
    rw [pendingRow, readingRow_cons, List.countP_append]
    omega

-- the operators that are still to fold stand in the reading, beside those that are folded
theorem pending_le_countP (n : Node) : pending n ≤ (reading n).countP isBinding := by
  induction n with
  | leaf kind text =>
    rw [pending, reading_leaf, List.countP_cons, List.countP_nil, Nat.zero_add]
    exact Nat.le_refl _
  | row kind items ih =>
    rw [pending, reading_row]
    exact pendingRow_le_countP ih
  | unary kind content ih =>
    rw [pending]
    cases kind with
    | squareRoot =>
      rw [reading_squareRoot, List.countP_cons]
      omega
    | fenced =>
      rw [reading, List.countP_append, List.countP_cons]
      omega
  | binary kind left right ihl ihr =>
    rw [pending, reading_binary, List.countP_append, List.countP_cons]
    omega
  | bare | missing | stray => simp [pending]

/-- The passes are at most as many as the leaves of a row that folds, or one: the first leaf is no
operator. -/
theorem delayRow_lt_length {row : List Node} (hfit : Fit false (readingRow row)) :
    delayRow row + 1 ≤ max 1 (readingRow row).length := by
  have hpending := delayRow_le_pendingRow fun n (_ : n ∈ row) => delay_le_pending n
  have hcount := pendingRow_le_countP fun n (_ : n ∈ row) => pending_le_countP n
  generalize readingRow row = leaves at hfit hcount ⊢
  cases leaves with
  | nil =>
    rw [List.countP_nil] at hcount
    omega
  | cons first rest =>
    have hfirst : isBinding first = false := by
      rw [isBinding, hfit.head rfl first rfl]
      rfl
    have hrest : rest.countP isBinding ≤ rest.length := List.countP_le_length
    rw [List.countP_cons, hfirst, if_neg (by decide)] at hcount
    rw [List.length_cons]
    omega

/-! ## 5. Passes and nested groups -/

/-- So many groups stand inside each other among the leaves: each is an opening bracket, the closing
bracket that matches it, and what is between them. -/
inductive NestedGroups : Nat → List Node → Prop
  | none (leaves : List Node) : NestedGroups 0 leaves
  | group {depth : Nat} {inside : List Node} (front back : List Node) (hinside : Balanced inside)
      (h : NestedGroups depth inside) :
      NestedGroups (depth + 1) (front ++ .operator "(" :: inside ++ .operator ")" :: back)

theorem NestedGroups.mono {depth less : Nat} {leaves : List Node} (h : NestedGroups depth leaves)
    (hle : less ≤ depth) : NestedGroups less leaves := by
  induction h generalizing less with
  | none leaves =>
    obtain rfl : less = 0 := by omega
    exact .none leaves
  | group front back hinside h ih =>
    cases less with
    | zero => exact .none _
    | succ less => exact .group front back hinside (ih (by omega))

theorem NestedGroups.within {depth : Nat} {leaves : List Node} (h : NestedGroups depth leaves)
    (before after : List Node) : NestedGroups depth (before ++ leaves ++ after) := by
  cases h with
  | none => exact .none _
  | group front back hinside h =>
    have hgroup := NestedGroups.group (before ++ front) (back ++ after) hinside h
    simpa only [List.append_assoc, List.cons_append] using hgroup

theorem NestedGroups.le_length {depth : Nat} {leaves : List Node} (h : NestedGroups depth leaves) :
    depth ≤ leaves.length := by
  induction h with
  | none leaves => exact Nat.zero_le _
  | group front back hinside h ih =>
    simp only [List.length_append, List.length_cons]
    omega

theorem exists_isGreatest_nestedGroups (leaves : List Node) :
    ∃ depth, IsGreatest {d | NestedGroups d leaves} depth := by
  classical
  refine ⟨Nat.findGreatest (NestedGroups · leaves) leaves.length, ?_, ?_⟩
  · exact Nat.findGreatest_spec (P := (NestedGroups · leaves)) (Nat.zero_le _) (.none leaves)
  · intro depth h
    exact Nat.le_findGreatest h.le_length h

theorem NestedGroups.readingRow {depth : Nat} {row : List Node} {n : Node} (hn : n ∈ row)
    (h : NestedGroups depth (reading n)) : NestedGroups depth (readingRow row) := by
  obtain ⟨front, back, rfl⟩ := List.append_of_mem hn
  rw [readingRow_append, readingRow_cons, ← List.append_assoc]
  exact h.within _ _

-- beyond the first pass a row waits for one of its nodes
theorem exists_le_delay {row : List Node} {more : Nat} (h : delayRow row = more + 1) :
    more = 0 ∨ ∃ n ∈ row, more ≤ delay n := by
  induction row using row_induction with
  | nil =>
    rw [delayRow] at h
    omega
  | last n kind hk =>
    rw [delayRow_last hk] at h
    omega
  | binding n kind right rest hk ih =>
    rw [delayRow_binding hk] at h
    by_cases hright : more ≤ delay right
    · exact .inr ⟨right, by simp, hright⟩
    · refine (ih (by omega)).imp_right ?_
      rintro ⟨m, hm, hle⟩
      exact ⟨m, by simp [hm], hle⟩
  | other n rest hk ih =>
    rw [delayRow_other hk] at h
    by_cases hn : more ≤ delay n
    · exact .inr ⟨n, List.mem_cons_self, hn⟩
    · refine (ih (by omega)).imp_right ?_
      rintro ⟨m, hm, hle⟩
      exact ⟨m, List.mem_cons_of_mem _ hm, hle⟩

/-- A group has to wait only for groups inside it. -/
theorem Piece.nestedGroups {n : Node} (h : Piece n) : NestedGroups (delay n) (reading n) := by
  induction h with
  | word _ _ =>
    rw [delay]
    exact .none _
  | @group inside hinside ih =>
    rw [delay, reading_group]
    cases hdelay : delayRow (.operator "(" :: inside ++ [.operator ")"]) with
    | zero => exact .none _
    | succ more =>
      have hnested : NestedGroups more (readingRow inside) := by
        rcases exists_le_delay hdelay with rfl | ⟨m, hm, hle⟩
        · exact .none _
        · have hmore : more = 0 ∨ m ∈ inside := by
            have hbracket (text : String) : more ≤ delay (.operator text) → more = 0 := by
              rw [delay]
              omega
            refine forall_mem_group (P := fun m => more ≤ delay m → more = 0 ∨ m ∈ inside)
              (fun hle => .inl (hbracket _ hle)) (fun m hm _ => .inr hm)
              (fun hle => .inl (hbracket _ hle)) m hm hle
          rcases hmore with rfl | hm
          · exact .none _
          · exact .readingRow hm ((ih m hm).mono hle)
      exact .group [] [] (balanced_readingRow_of fun m hm => (hinside m hm).balanced) hnested

theorem IsGrouped.nestedGroups {row : List Node} (h : IsGrouped row) :
    NestedGroups (delayRow row - 1) (readingRow row) := by
  cases hdelay : delayRow row with
  | zero => exact .none _
  | succ more =>
    rcases exists_le_delay hdelay with rfl | ⟨n, hn, hle⟩
    · exact .none _
    · refine .readingRow hn (NestedGroups.mono ?_ hle)
      rcases h n hn with hpiece | rfl
      · exact hpiece.nestedGroups
      · rw [delay]
        exact .none _

/-! ## 6. Formulas -/

/-- **Bounds on the number of passes.**  A formula whose brackets group and whose operators fold takes at
least one pass, at most as many as it has words (or one), and at most two more than groups are nested in
each other. -/
theorem foldOperators_passes_le {formula : String} {positions : List Int} {row : List Node}
    {s : Settled} (hrow : group (leaves (Token.scan formula)) positions = .ok row)
    (hs : foldOperators row = .ok s) :
    1 ≤ s.passes ∧ s.passes ≤ max 1 (Token.scan formula).length ∧
      ∃ depth, IsGreatest {d | NestedGroups d (leaves (Token.scan formula))} depth ∧
        s.passes ≤ 2 + depth := by
  have hpasses := foldOperators_passes hs
  have hwords := hrow
  rw [leaves_scan] at hwords
  obtain ⟨hreading, hgrouped⟩ := group_spec hwords
  rw [← leaves_scan] at hreading
  refine ⟨by omega, ?_, ?_⟩
  · have hfit := hgrouped.folded_iff.1 ⟨_, foldOperators_ok_iff.1 ⟨s, hs, rfl⟩⟩
    have hlength := delayRow_lt_length hfit
    rwa [← hpasses, hreading, leaves, List.length_map] at hlength
  · obtain ⟨depth, hdepth⟩ := exists_isGreatest_nestedGroups (leaves (Token.scan formula))
    have hnested := hgrouped.nestedGroups
    rw [hreading] at hnested
    have hle := hdepth.2 hnested
    exact ⟨depth, hdepth, by omega⟩

theorem foldOperators_passes_le_tower :
    ∃ row s, group (leaves (Token.scan "a^(b^c)")) [] = .ok row ∧ foldOperators row = .ok s ∧
      s.passes = 3 ∧ ∃ depth, IsGreatest {d | NestedGroups d (leaves (Token.scan "a^(b^c)"))} depth ∧
        3 ≤ 2 + depth := by
  have hrow : group (leaves (Token.scan "a^(b^c)")) [] = .ok [.identifier "a", .operator "^",
      .sequence [.operator "(", .identifier "b", .operator "^", .identifier "c", .operator ")"]] := by
    decide +kernel
  have hs : foldOperators [.identifier "a", .operator "^",
      .sequence [.operator "(", .identifier "b", .operator "^", .identifier "c", .operator ")"]] =
      .ok ⟨[.binary .power (.identifier "a") (.sequence [.operator "(",
        .binary .power (.identifier "b") (.identifier "c"), .operator ")"])], 3⟩ := by
    decide +kernel
  obtain ⟨-, -, hdepth⟩ := foldOperators_passes_le hrow hs
  exact ⟨_, _, hrow, hs, rfl, hdepth⟩

end Formulary.Formula
