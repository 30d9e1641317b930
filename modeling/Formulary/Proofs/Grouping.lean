import Formulary.Proofs.Reading
import Mathlib.Data.List.Basic

/-!
# Grouping and bracket depth

How far brackets are open after a list of leaves (`depthAfter`) decides what grouping does with it.
Grouping fails at the first closing bracket that finds no bracket open (`groupFrom_eq_error`).
Where it succeeds, it keeps every leaf in its place (`groupFrom_reading`), and the row it gives is
made of complete pieces and of opening brackets that are never closed (`groupFrom_isGrouped`).  A
row of complete pieces is in turn what grouping makes of its reading (`group_readingRow`).
-/

namespace Formulary.Formula

/-! ## 1. Bracket depth -/

/-- The number of brackets open after some leaves, when `depth` are open before.  There is none if
a closing bracket finds no bracket open. -/
def depthAfter (depth : Nat) : List Node → Option Nat
  | [] => some depth
  | n :: rest =>
    if n.isOpening then depthAfter (depth + 1) rest
    else if n.isClosing then
      if depth = 0 then none else depthAfter (depth - 1) rest
    else depthAfter depth rest

/-- Leaves whose brackets match each other. -/
def Balanced (leaves : List Node) : Prop :=
  depthAfter 0 leaves = some 0

theorem not_isClosing_of_isOpening {n : Node} (h : n.isOpening = true) : n.isClosing = false := by
  rw [isOpening_iff.1 h]
  rfl

@[simp]
theorem depthAfter_nil (depth : Nat) : depthAfter depth [] = some depth := rfl

theorem depthAfter_opening {n : Node} (h : n.isOpening = true) (depth : Nat) (rest : List Node) :
    depthAfter depth (n :: rest) = depthAfter (depth + 1) rest := by
  rw [depthAfter, if_pos h]

theorem depthAfter_closing_zero {n : Node} (h : n.isClosing = true) (rest : List Node) :
    depthAfter 0 (n :: rest) = none := by
  rw [isClosing_iff.1 h]
  rfl

theorem depthAfter_closing {n : Node} (h : n.isClosing = true) (depth : Nat) (rest : List Node) :
    depthAfter (depth + 1) (n :: rest) = depthAfter depth rest := by
  rw [isClosing_iff.1 h]
  rfl

theorem depthAfter_other {n : Node} (ho : n.isOpening = false) (hc : n.isClosing = false)
    (depth : Nat) (rest : List Node) : depthAfter depth (n :: rest) = depthAfter depth rest := by
  rw [depthAfter, if_neg (by rw [ho]; decide), if_neg (by rw [hc]; decide)]

-- the three ways in which a leaf can act on the depth
theorem bracket_cases (n : Node) :
    n.isOpening = true ∨ n.isClosing = true ∨ (n.isOpening = false ∧ n.isClosing = false) := by
  cases n.isOpening <;> cases n.isClosing <;> simp

theorem depthAfter_append (depth : Nat) (xs ys : List Node) :
    depthAfter depth (xs ++ ys) = (depthAfter depth xs).bind (depthAfter · ys) := by
  induction xs generalizing depth with
  | nil => rfl
  | cons n rest ih =>
    rw [List.cons_append]
    rcases bracket_cases n with h | h | ⟨ho, hc⟩
    · rw [depthAfter_opening h, depthAfter_opening h, ih]
    · cases depth with
      | zero => rw [depthAfter_closing_zero h, depthAfter_closing_zero h, Option.bind_none]
      | succ depth => rw [depthAfter_closing h, depthAfter_closing h, ih]
    · rw [depthAfter_other ho hc, depthAfter_other ho hc, ih]

-- more brackets open before are as many more open after
theorem depthAfter_add {depth after : Nat} {leaves : List Node}
    (h : depthAfter depth leaves = some after) (more : Nat) :
    depthAfter (depth + more) leaves = some (after + more) := by
  induction leaves generalizing depth with
  | nil =>
    obtain rfl := Option.some.inj h
    rfl
  | cons n rest ih =>
    rcases bracket_cases n with hn | hn | ⟨ho, hc⟩
    · rw [depthAfter_opening hn] at h ⊢
      rw [show depth + more + 1 = depth + 1 + more by omega]
      exact ih h
    · cases depth with
      | zero =>
        rw [depthAfter_closing_zero hn] at h
        exact absurd h (by simp)
      | succ depth =>
        rw [depthAfter_closing hn] at h
        rw [show depth + 1 + more = depth + more + 1 by omega, depthAfter_closing hn]
        exact ih h
    · rw [depthAfter_other ho hc] at h ⊢
      exact ih h

theorem Balanced.depthAfter {leaves : List Node} (h : Balanced leaves) (depth : Nat) :
    depthAfter depth leaves = some depth := by
  simpa using depthAfter_add h depth

theorem balanced_nil : Balanced [] := rfl

theorem Balanced.append {xs ys : List Node} (hx : Balanced xs) (hy : Balanced ys) :
    Balanced (xs ++ ys) := by
  rw [Balanced, depthAfter_append, hx, Option.bind_some, hy]

theorem Balanced.bracket {xs : List Node} (hx : Balanced xs) :
    Balanced (.operator "(" :: xs ++ [.operator ")"]) := by
  rw [Balanced, List.cons_append, depthAfter_opening (by rfl), depthAfter_append, hx.depthAfter,
    Option.bind_some, depthAfter_closing (by rfl), depthAfter_nil]

/-! ## 2. Depth and numbers of brackets -/

/-- The depth is the surplus of opening over closing brackets. -/
theorem depthAfter_count {depth after : Nat} {leaves : List Node}
    (h : depthAfter depth leaves = some after) :
    depth + leaves.countP Node.isOpening = after + leaves.countP Node.isClosing := by
  induction leaves generalizing depth with
  | nil =>
    obtain rfl := Option.some.inj h
    rfl
  | cons n rest ih =>
    rw [List.countP_cons, List.countP_cons]
    rcases bracket_cases n with hn | hn | ⟨ho, hc⟩
    · rw [depthAfter_opening hn] at h
      have := ih h
      rw [if_pos hn, not_isClosing_of_isOpening hn, if_neg (by decide)]
      omega
    · have ho : n.isOpening = false := by
        rw [isClosing_iff.1 hn]
        rfl
      cases depth with
      | zero =>
        rw [depthAfter_closing_zero hn] at h
        exact absurd h (by simp)
      | succ depth =>
        rw [depthAfter_closing hn] at h
        have := ih h
        rw [ho, if_neg (by decide), if_pos hn]
        omega
    · rw [depthAfter_other ho hc] at h
      have := ih h
      rw [ho, hc, if_neg (by decide)]
      omega

/-- There is no depth exactly if some closing bracket finds no bracket open. -/
theorem depthAfter_eq_none_iff {depth : Nat} {leaves : List Node} :
    depthAfter depth leaves = none ↔ ∃ before closing after,
      leaves = before ++ closing :: after ∧ closing.isClosing = true ∧
        depthAfter depth before = some 0 := by
  constructor
  · intro h
    induction leaves generalizing depth with
    | nil => exact absurd h (by simp)
    | cons n rest ih =>
      rcases bracket_cases n with hn | hn | ⟨ho, hc⟩
      · rw [depthAfter_opening hn] at h
        obtain ⟨before, closing, after, rfl, hclose, hzero⟩ := ih h
        exact ⟨n :: before, closing, after, rfl, hclose, by rw [depthAfter_opening hn, hzero]⟩
      · -- at depth zero this very bracket is the one
        cases depth with
        | zero => exact ⟨[], n, rest, rfl, hn, rfl⟩
        | succ depth =>
          rw [depthAfter_closing hn] at h
          obtain ⟨before, closing, after, rfl, hclose, hzero⟩ := ih h
          exact ⟨n :: before, closing, after, rfl, hclose, by rw [depthAfter_closing hn, hzero]⟩
      · rw [depthAfter_other ho hc] at h
        obtain ⟨before, closing, after, rfl, hclose, hzero⟩ := ih h
        exact ⟨n :: before, closing, after, rfl, hclose, by rw [depthAfter_other ho hc, hzero]⟩
  · rintro ⟨before, closing, after, rfl, hclose, hzero⟩
    rw [depthAfter_append, hzero, Option.bind_some, depthAfter_closing_zero hclose]

/-- There is a depth exactly if no first part closes more brackets than it finds open or opens. -/
theorem exists_depthAfter_iff {depth : Nat} {leaves : List Node} :
    (∃ after, depthAfter depth leaves = some after) ↔ ∀ front, front <+: leaves →
      front.countP Node.isClosing ≤ depth + front.countP Node.isOpening := by
  constructor
  · rintro ⟨after, h⟩ front ⟨rest, rfl⟩
    rw [depthAfter_append, Option.bind_eq_some_iff] at h
    obtain ⟨between, hbetween, -⟩ := h
    have hcount := depthAfter_count hbetween
    omega
  · intro h
    rw [← Option.ne_none_iff_exists', ne_eq, depthAfter_eq_none_iff]
    rintro ⟨before, closing, after, rfl, hclose, hzero⟩
    -- with this bracket more are closed than opened
    have hcount := depthAfter_count hzero
    have hle := h (before ++ [closing]) ⟨after, by simp⟩
    have ho : closing.isOpening = false := by
      rw [isClosing_iff.1 hclose]
      rfl
    rw [List.countP_append, List.countP_append, List.countP_singleton, List.countP_singleton,
      if_pos hclose, if_neg (by rw [ho]; decide)] at hle
    omega

/-! ## 3. Complete pieces -/

/-- A complete piece of a grouped row: a leaf that is no bracket, or a sequence of complete pieces
between the two brackets of a group. -/
inductive Piece : Node → Prop
  | word {kind : LeafKind} {text : String} (ho : (Node.leaf kind text).isOpening = false)
      (hc : (Node.leaf kind text).isClosing = false) : Piece (.leaf kind text)
  | group {inner : List Node} (h : ∀ n ∈ inner, Piece n) :
      Piece (.sequence (.operator "(" :: inner ++ [.operator ")"]))

/-- A row of a grouped formula: complete pieces, and opening brackets that are never closed. -/
def IsGrouped (row : List Node) : Prop :=
  ∀ n ∈ row, Piece n ∨ n = .operator "("

theorem forall_mem_group {P : Node → Prop} {inner : List Node} (ho : P (.operator "("))
    (hinner : ∀ n ∈ inner, P n) (hc : P (.operator ")")) :
    ∀ n ∈ Node.operator "(" :: inner ++ [.operator ")"], P n := by
  intro n hn
  rcases List.mem_append.1 hn with hn | hn
  · exact List.forall_mem_cons.2 ⟨ho, hinner⟩ n hn
  · rw [List.mem_singleton.1 hn]
    exact hc

theorem readingRow_group (inner : List Node) :
    readingRow (.operator "(" :: inner ++ [.operator ")"]) =
      .operator "(" :: readingRow inner ++ [.operator ")"] := by
  rw [readingRow_append, readingRow_cons, readingRow_cons, readingRow_nil]
  rfl

theorem reading_group (inner : List Node) :
    reading (.sequence (.operator "(" :: inner ++ [.operator ")"])) =
      .operator "(" :: readingRow inner ++ [.operator ")"] := by
  rw [reading_row, readingRow_group]

theorem balanced_readingRow_of {row : List Node} (h : ∀ n ∈ row, Balanced (reading n)) :
    Balanced (readingRow row) := by
  induction row with
  | nil => exact balanced_nil
  | cons n rest ih =>
    rw [readingRow_cons]
    exact (h n List.mem_cons_self).append (ih fun m hm => h m (List.mem_cons_of_mem _ hm))

theorem Piece.balanced {n : Node} (h : Piece n) : Balanced (reading n) := by
  induction h with
  | word ho hc => rw [reading_leaf, Balanced, depthAfter_other ho hc, depthAfter_nil]
  | group _ ih =>
    rw [reading_group]
    exact (balanced_readingRow_of ih).bracket

theorem Piece.not_isOpening {n : Node} (h : Piece n) : n.isOpening = false := by
  cases h with
  | word ho _ => exact ho
  | group _ => rfl

theorem Piece.not_isClosing {n : Node} (h : Piece n) : n.isClosing = false := by
  cases h with
  | word _ hc => exact hc
  | group _ => rfl

/-- In the reading of a grouped row, exactly the brackets that stand in the row itself stay open. -/
theorem depthAfter_readingRow {row : List Node} (h : IsGrouped row) (depth : Nat) :
    depthAfter depth (readingRow row) = some (depth + row.countP Node.isOpening) := by
  induction row generalizing depth with
  | nil => rfl
  | cons n rest ih =>
    have hrest : IsGrouped rest := fun m hm => h m (List.mem_cons_of_mem _ hm)
    rw [readingRow_cons, depthAfter_append, List.countP_cons]
    rcases h n List.mem_cons_self with hn | rfl
    · rw [hn.balanced.depthAfter, Option.bind_some, ih hrest, hn.not_isOpening,
        if_neg (by decide), Nat.add_zero]
    · rw [reading_leaf, depthAfter_opening (by rfl), depthAfter_nil, Option.bind_some, ih hrest,
        if_pos (by rfl)]
      congr 1
      omega

theorem IsGrouped.pieces {row : List Node} (h : IsGrouped row) (hb : Balanced (readingRow row)) :
    ∀ n ∈ row, Piece n := by
  intro n hn
  -- a bracket left in the row would be open after its reading
  have hcount : some 0 = some (0 + row.countP Node.isOpening) := by
    rw [← depthAfter_readingRow h 0]
    exact hb.symm
  have hzero : row.countP Node.isOpening = 0 := by
    have := Option.some.inj hcount
    omega
  rcases h n hn with hp | rfl
  · exact hp
  · exact absurd rfl (List.countP_eq_zero.1 hzero _ hn)

/-! ## 4. What grouping keeps -/

theorem closeAll_append (current more : List Node) (outer : List (List Node)) :
    closeAll (current ++ more) outer = closeAll current outer ++ more := by
  induction outer generalizing current with
  | nil => rfl
  | cons row outer ih =>
    show closeAll (row ++ (current ++ more)) outer = closeAll (row ++ current) outer ++ more
    rw [← List.append_assoc, ih]

theorem closeAll_nested (current row : List Node) (outer : List (List Node)) :
    closeAll current (row :: outer) = closeAll row outer ++ current := by
  rw [closeAll, closeAll_append]

section

variable {positions : List Int} {index : Nat} {current : List Node} {outer : List (List Node)}

theorem groupFrom_opening {n : Node} (h : n.isOpening = true) (rest : List Node) :
    groupFrom positions index current outer (n :: rest) =
      groupFrom positions (index + 1) [n] (current :: outer) rest := by
  rw [groupFrom.eq_def]
  exact if_pos h

theorem groupFrom_closing_nil {n : Node} (h : n.isClosing = true) (rest : List Node) :
    groupFrom positions index current [] (n :: rest) = .error (unmatchedAt positions index) := by
  rw [isClosing_iff.1 h]
  rfl

theorem groupFrom_closing {n : Node} (h : n.isClosing = true) (row : List Node)
    (rest : List Node) :
    groupFrom positions index current (row :: outer) (n :: rest) =
      groupFrom positions (index + 1) (row ++ [.sequence (current ++ [n])]) outer rest := by
  rw [isClosing_iff.1 h]
  rfl

theorem groupFrom_other {n : Node} (ho : n.isOpening = false) (hc : n.isClosing = false)
    (rest : List Node) :
    groupFrom positions index current outer (n :: rest) =
      groupFrom positions (index + 1) (current ++ [n]) outer rest := by
  rw [groupFrom.eq_def]
  dsimp only
  rw [if_neg (by rw [ho]; decide), if_neg (by rw [hc]; decide)]

end

/-- Grouping keeps every leaf in its place. -/
theorem groupFrom_reading {positions : List Int} {index : Nat} {current : List Node}
    {outer : List (List Node)} {nodes row : List Node}
    (h : groupFrom positions index current outer nodes = .ok row) :
    readingRow row = readingRow (closeAll current outer) ++ readingRow nodes := by
  -- the invariant: the open rows, one after the other, read as all leaves gone through so far
  induction nodes generalizing index current outer with
  | nil =>
    obtain rfl := Except.ok.inj h
    rw [readingRow_nil, List.append_nil]
  | cons n rest ih =>
    rw [readingRow_cons]
    rcases bracket_cases n with hn | hn | ⟨ho, hc⟩
    · rw [groupFrom_opening hn] at h
      rw [ih h, closeAll_nested, readingRow_append, readingRow_cons, readingRow_nil,
        List.append_nil, List.append_assoc]
    · cases outer with
      | nil =>
        rw [groupFrom_closing_nil hn] at h
        exact absurd h (by simp)
      | cons row' outer =>
        rw [groupFrom_closing hn] at h
        rw [ih h, closeAll_append, closeAll_nested]
        simp only [readingRow_append, readingRow_cons, readingRow_nil, reading_row,
          List.append_nil, List.append_assoc]
    · rw [groupFrom_other ho hc] at h
      rw [ih h, closeAll_append, readingRow_append, readingRow_cons, readingRow_nil,
        List.append_nil, List.append_assoc]

/-- The rows that are open while grouping: each but the outermost begins with its opening bracket,
and all else in them is complete. -/
inductive OpenRows : List Node → List (List Node) → Prop
  | outermost {current : List Node} (h : ∀ n ∈ current, Piece n) : OpenRows current []
  | nested {inner row : List Node} {outer : List (List Node)} (h : ∀ n ∈ inner, Piece n)
      (hrow : OpenRows row outer) : OpenRows (.operator "(" :: inner) (row :: outer)

theorem OpenRows.push {current : List Node} {outer : List (List Node)}
    (h : OpenRows current outer) {n : Node} (hn : Piece n) : OpenRows (current ++ [n]) outer := by
  have snoc : ∀ {xs : List Node}, (∀ m ∈ xs, Piece m) → ∀ m ∈ xs ++ [n], Piece m := by
    intro xs hxs m hm
    rcases List.mem_append.1 hm with hm | hm
    · exact hxs m hm
    · rw [List.mem_singleton.1 hm]
      exact hn
  cases h with
  | outermost h => exact .outermost (snoc h)
  | nested h hrow => exact .nested (snoc h) hrow

theorem OpenRows.closeAll {current : List Node} {outer : List (List Node)}
    (h : OpenRows current outer) : IsGrouped (closeAll current outer) := by
  induction h with
  | outermost h => exact fun n hn => .inl (h n hn)
  | nested h _ ih =>
    rw [closeAll_nested]
    intro n hn
    rcases List.mem_append.1 hn with hn | hn
    · exact ih n hn
    · rcases List.mem_cons.1 hn with rfl | hn
      · exact .inr rfl
      · exact .inl (h n hn)

/-- The row that grouping makes of leaves is grouped. -/
theorem groupFrom_isGrouped {positions : List Int} {index : Nat} {current : List Node}
    {outer : List (List Node)} {nodes row : List Node} (hleaf : ∀ n ∈ nodes, IsLeafNode n)
    (hopen : OpenRows current outer)
    (h : groupFrom positions index current outer nodes = .ok row) : IsGrouped row := by
  induction nodes generalizing index current outer with
  | nil =>
    obtain rfl := Except.ok.inj h
    exact hopen.closeAll
  | cons n rest ih =>
    obtain ⟨⟨kind, text, rfl⟩, hrest⟩ := List.forall_mem_cons.1 hleaf
    rcases bracket_cases (.leaf kind text) with hn | hn | ⟨ho, hc⟩
    · rw [groupFrom_opening hn, isOpening_iff.1 hn] at h
      exact ih hrest (.nested (by simp) hopen) h
    · cases hopen with
      | outermost _ =>
        rw [groupFrom_closing_nil hn] at h
        exact absurd h (by simp)
      | nested hinner hrow =>
        -- the innermost row is closed, and is one complete piece of the row around it
        rw [groupFrom_closing hn, isClosing_iff.1 hn] at h
        exact ih hrest (hrow.push (.group hinner)) h
    · rw [groupFrom_other ho hc] at h
      exact ih hrest (hopen.push (.word ho hc)) h

theorem group_leaves {nodes row : List Node} {positions : List Int}
    (hleaf : ∀ n ∈ nodes, IsLeafNode n) (h : group nodes positions = .ok row) :
    readingRow row = nodes ∧ IsGrouped row := by
  refine ⟨?_, groupFrom_isGrouped hleaf (.outermost (by simp)) h⟩
  rw [groupFrom_reading h, readingRow_leaves hleaf]
  rfl

theorem group_spec {words : List String} {positions : List Int} {row : List Node}
    (h : group (words.map leafOfWord) positions = .ok row) :
    readingRow row = words.map leafOfWord ∧ IsGrouped row :=
  group_leaves (forall_isLeafNode_words words) h

/-! ## 5. What grouping finds -/

/-- Grouping adds `row` to the innermost open row when it has gone through `leaves`, and changes
nothing else. -/
def Regroups (positions : List Int) (leaves row : List Node) : Prop :=
  ∀ (index : Nat) (current : List Node) (outer : List (List Node)) (rest : List Node),
    groupFrom positions index current outer (leaves ++ rest) =
      groupFrom positions (index + leaves.length) (current ++ row) outer rest

theorem Regroups.nil (positions : List Int) : Regroups positions [] [] := by
  intro index current outer rest
  rw [List.nil_append, List.append_nil, List.length_nil, Nat.add_zero]

theorem Regroups.append {positions : List Int} {xs ys row more : List Node}
    (hx : Regroups positions xs row) (hy : Regroups positions ys more) :
    Regroups positions (xs ++ ys) (row ++ more) := by
  intro index current outer rest
  rw [List.append_assoc, hx, hy, List.append_assoc, List.length_append, Nat.add_assoc]

theorem Regroups.bracket {positions : List Int} {xs row : List Node}
    (hx : Regroups positions xs row) :
    Regroups positions (.operator "(" :: xs ++ [.operator ")"])
      [.sequence (.operator "(" :: row ++ [.operator ")"])] := by
  intro index current outer rest
  rw [List.append_assoc, List.cons_append, groupFrom_opening (by rfl), hx,
    List.singleton_append, List.singleton_append, groupFrom_closing (by rfl)]
  congr 1
  rw [List.length_append, List.length_cons, List.length_singleton]
  omega

theorem regroups_readingRow_of {positions : List Int} {row : List Node}
    (h : ∀ n ∈ row, Regroups positions (reading n) [n]) :
    Regroups positions (readingRow row) row := by
  induction row with
  | nil => exact .nil positions
  | cons n more ih =>
    rw [readingRow_cons]
    exact (h n List.mem_cons_self).append (ih fun m hm => h m (List.mem_cons_of_mem _ hm))

/-- Grouping finds a complete piece again in its reading. -/
theorem Piece.regroups {n : Node} (h : Piece n) (positions : List Int) :
    Regroups positions (reading n) [n] := by
  induction h with
  | word ho hc =>
    intro index current outer rest
    exact groupFrom_other ho hc rest
  | group _ ih =>
    rw [reading_group]
    exact (regroups_readingRow_of ih).bracket

/-- A row of complete pieces is what grouping makes of its reading. -/
theorem group_readingRow {row : List Node} (h : ∀ n ∈ row, Piece n) (positions : List Int) :
    group (readingRow row) positions = .ok row := by
  have hrow := regroups_readingRow_of (fun n hn => (h n hn).regroups positions) 0 [] [] []
  rw [List.append_nil] at hrow
  rw [group, hrow]
  rfl

/-- Grouping goes through leaves that close no more brackets than are open.  As many rows are then open
around the current one as there are brackets open. -/
theorem groupFrom_append {positions : List Int} {index depth : Nat} {current : List Node}
    {outer : List (List Node)} {before : List Node}
    (h : depthAfter outer.length before = some depth) :
    ∃ current' outer', outer'.length = depth ∧ ∀ after,
      groupFrom positions index current outer (before ++ after) =
        groupFrom positions (index + before.length) current' outer' after := by
  induction before generalizing index current outer with
  | nil => exact ⟨current, outer, Option.some.inj h, fun _ => rfl⟩
  | cons n rest ih =>
    rw [List.length_cons, show index + (rest.length + 1) = index + 1 + rest.length by omega]
    rcases bracket_cases n with hn | hn | ⟨ho, hc⟩
    · rw [depthAfter_opening hn] at h
      simp only [List.cons_append, groupFrom_opening hn]
      exact ih h
    · cases outer with
      | nil =>
        rw [List.length_nil, depthAfter_closing_zero hn] at h
        exact absurd h (by simp)
      | cons row outer =>
        rw [List.length_cons, depthAfter_closing hn] at h
        simp only [List.cons_append, groupFrom_closing hn]
        exact ih h
    · rw [depthAfter_other ho hc] at h
      simp only [List.cons_append, groupFrom_other ho hc]
      exact ih h

/-- Grouping fails at the first closing bracket that finds no bracket open. -/
theorem groupFrom_eq_error {positions : List Int} {index : Nat} {current : List Node}
    {outer : List (List Node)} {before after : List Node} {closing : Node}
    (hclose : closing.isClosing = true) (h : depthAfter outer.length before = some 0) :
    groupFrom positions index current outer (before ++ closing :: after) =
      .error (unmatchedAt positions (index + before.length)) := by
  obtain ⟨current', outer', hnone, hrun⟩ := groupFrom_append h
  obtain rfl : outer' = [] := List.length_eq_zero_iff.1 hnone
  rw [hrun, groupFrom_closing_nil hclose]

/-- Where every closing bracket finds a bracket open, grouping succeeds. -/
theorem groupFrom_eq_ok {positions : List Int} {index depth : Nat} {current : List Node}
    {outer : List (List Node)} {nodes : List Node}
    (h : depthAfter outer.length nodes = some depth) :
    ∃ row, groupFrom positions index current outer nodes = .ok row := by
  obtain ⟨current', outer', -, hrun⟩ := groupFrom_append h
  have hend := hrun []
  rw [List.append_nil] at hend
  exact ⟨_, hend⟩

end Formulary.Formula
