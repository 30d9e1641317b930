import Formulary.Proofs.Grouping

/-!
# Brackets that are never closed

Grouping puts the brackets of the leaves into two places.  Those that match each other are the first
and the last node of a sequence; an opening bracket that is never closed stays in the row itself, in
its place among the others (`IsGrouped.closesOwn_iff`).  No bracket stands anywhere else, and when all
sequences are opened again the leaves are as they were (`inlinedRow`).

Main statement: `group_exact`.
-/

namespace Formulary.Formula

/-! ## 1. Sequences opened again -/

mutual

/-- What stands in a sequence, at any depth of sequences; any other node stands for itself. -/
def inlined : Node → List Node
  | .row .sequence items => inlinedRow items
  | n => [n]

/-- The nodes of a row with every sequence replaced by what stands in it. -/
def inlinedRow : List Node → List Node
  | [] => []
  | n :: rest => inlined n ++ inlinedRow rest

end

theorem inlinedRow_eq {row : List Node} (h : ∀ n ∈ row, inlined n = reading n) :
    inlinedRow row = readingRow row := by
  induction row with
  | nil => rw [inlinedRow, readingRow_nil]
  | cons n rest ih =>
    obtain ⟨hn, hrest⟩ := List.forall_mem_cons.1 h
    rw [inlinedRow, readingRow_cons, hn, ih hrest]

-- a grouped row has no nodes but leaves and sequences, and so it is inlined as it is read
theorem Piece.inlined {n : Node} (h : Piece n) : inlined n = reading n := by
  induction h with
  | @word kind text _ _ => rw [Formula.inlined, reading_leaf]; simp
  | group _ ih =>
    rw [Formula.inlined, reading_row]
    exact inlinedRow_eq (forall_mem_group (by simp [Formula.inlined]) ih (by simp [Formula.inlined]))

theorem IsGrouped.inlinedRow {row : List Node} (h : IsGrouped row) :
    inlinedRow row = readingRow row := by
  refine inlinedRow_eq fun n hn => ?_
  rcases h n hn with hpiece | rfl
  · exact hpiece.inlined
  · simp [inlined]

/-! ## 2. Brackets that close -/

/-- The nodes between two brackets, with no other bracket directly among them. -/
def IsGroupOf (items : List Node) : Prop :=
  ∃ inside, items = .operator "(" :: inside ++ [.operator ")"] ∧
    ∀ n ∈ inside, n.isOpening = false ∧ n.isClosing = false

theorem Piece.isGroupOf {n : Node} (h : Piece n) {items : List Node}
    (hmem : .sequence items ∈ n.preorder) : IsGroupOf items := by
  induction h with
  | word _ _ => exact absurd hmem (by simp [Node.preorder])
  | @group inside hinside ih =>
    rw [Node.preorder] at hmem
    rcases List.mem_cons.1 hmem with heq | hmem
    · obtain ⟨-, rfl⟩ := Node.row.inj heq
      exact ⟨inside, rfl, fun n hn => ⟨(hinside n hn).not_isOpening, (hinside n hn).not_isClosing⟩⟩
    · obtain ⟨n, hn, hmem⟩ := mem_preorderRow.1 hmem
      exact forall_mem_group (P := fun n => .sequence items ∈ n.preorder → IsGroupOf items)
        (fun hleaf => absurd hleaf (by simp [Node.preorder])) ih
        (fun hleaf => absurd hleaf (by simp [Node.preorder])) n hn hmem

theorem IsGrouped.isGroupOf {row : List Node} (h : IsGrouped row) {items : List Node}
    (hmem : .sequence items ∈ Node.preorderRow row) : IsGroupOf items := by
  obtain ⟨n, hn, hmem⟩ := mem_preorderRow.1 hmem
  rcases h n hn with hpiece | rfl
  · exact hpiece.isGroupOf hmem
  · exact absurd hmem (by simp [Node.preorder])

/-! ## 3. Brackets that never close -/

/-- No first part of the leaves closes more brackets than it opens: they close no bracket that is open
before them. -/
def ClosesOwn (nodes : List Node) : Prop :=
  ∀ front, front <+: nodes → front.countP Node.isClosing ≤ front.countP Node.isOpening

theorem closesOwn_iff {nodes : List Node} :
    ClosesOwn nodes ↔ ∃ depth, depthAfter 0 nodes = some depth := by
  rw [exists_depthAfter_iff]
  simp only [Nat.zero_add]
  rfl

theorem IsGrouped.closesOwn {row : List Node} (h : IsGrouped row) : ClosesOwn (readingRow row) :=
  closesOwn_iff.2 ⟨_, depthAfter_readingRow h 0⟩

-- a bracket in a balanced list is closed in it
theorem Balanced.not_closesOwn {front back : List Node}
    (h : Balanced (front ++ .operator "(" :: back)) (more : List Node) :
    ¬ClosesOwn (back ++ more) := by
  intro hcloses
  rw [Balanced, depthAfter_append, Option.bind_eq_some_iff] at h
  obtain ⟨depth, -, hback⟩ := h
  rw [depthAfter_opening (by rfl)] at hback
  have hcount := depthAfter_count hback
  have hle := hcloses back (List.prefix_append back more)
  omega

/-- A bracket of the reading is never closed exactly if it stands in the row itself. -/
theorem IsGrouped.closesOwn_iff {row front back : List Node} (h : IsGrouped row)
    (hreading : readingRow row = front ++ .operator "(" :: back) :
    ClosesOwn back ↔ ∃ before after, row = before ++ .operator "(" :: after ∧
      readingRow before = front ∧ readingRow after = back := by
  constructor
  · intro hcloses
    induction row generalizing front with
    | nil => exact absurd hreading (by simp)
    | cons n rest ih =>
      have hrest : IsGrouped rest := fun m hm => h m (List.mem_cons_of_mem _ hm)
      rw [readingRow_cons] at hreading
      rcases cut_append hreading with ⟨inside, hn, rfl⟩ | ⟨between, rfl, hbetween⟩
      · -- the bracket is a leaf of the first node, and is closed there unless it is that node
        rcases h n List.mem_cons_self with hpiece | rfl
        · have hbalanced := hpiece.balanced
          rw [hn] at hbalanced
          exact absurd hcloses (hbalanced.not_closesOwn _)
        · obtain ⟨rfl, rfl⟩ : front = [] ∧ inside = [] := by
            simpa [List.singleton_eq_append_iff] using hn
          exact ⟨[], rest, rfl, readingRow_nil, rfl⟩
      · obtain ⟨before, after, rfl, rfl, rfl⟩ := ih hrest hbetween
        exact ⟨n :: before, after, rfl, readingRow_cons _ _, rfl⟩
  · rintro ⟨before, after, rfl, -, rfl⟩
    exact IsGrouped.closesOwn fun n hn => h n (by simp [hn])

/-! ## 4. Grouping -/

/-- **Grouping is exact.**  Leaves that close no bracket but their own are grouped without a fault.  The
row becomes the leaves again when its sequences are opened; every sequence is a group of two brackets
with no other bracket directly in it; no closing bracket stands in the row itself, and an opening
bracket of the leaves stands in it, with the same leaves before and behind it, exactly if it is never
closed. -/
theorem group_exact {nodes : List Node} (hleaf : ∀ n ∈ nodes, IsLeafNode n) (h : ClosesOwn nodes)
    (positions : List Int) : ∃ row, group nodes positions = .ok row ∧ inlinedRow row = nodes ∧
      (∀ items, .sequence items ∈ Node.preorderRow row → IsGroupOf items) ∧
      (∀ n ∈ row, n.isClosing = false) ∧
      ∀ front back, nodes = front ++ .operator "(" :: back →
        (ClosesOwn back ↔ ∃ before after, row = before ++ .operator "(" :: after ∧
          inlinedRow before = front ∧ inlinedRow after = back) := by
  obtain ⟨depth, hdepth⟩ := closesOwn_iff.1 h
  obtain ⟨row, hrow⟩ : ∃ row, group nodes positions = .ok row := groupFrom_eq_ok hdepth
  obtain ⟨hreading, hgrouped⟩ := group_leaves hleaf hrow
  refine ⟨row, hrow, hgrouped.inlinedRow.trans hreading, fun items => hgrouped.isGroupOf,
    fun n hn => ?_, fun front back hsplit => ?_⟩
  · rcases hgrouped n hn with hpiece | rfl
    · exact hpiece.not_isClosing
    · rfl
  · rw [hgrouped.closesOwn_iff (hreading.trans hsplit)]
    refine exists_congr fun before => exists_congr fun after => and_congr_right ?_
    rintro rfl
    rw [IsGrouped.inlinedRow fun n hn => hgrouped n (List.mem_append_left _ hn),
      IsGrouped.inlinedRow fun n hn => hgrouped n (by simp [hn])]

theorem group_exact_unclosed :
    (∀ n ∈ leaves (Token.scan "(a((b)c)+(d"), IsLeafNode n) ∧
    ClosesOwn (leaves (Token.scan "(a((b)c)+(d")) ∧
    ∃ row, group (leaves (Token.scan "(a((b)c)+(d")) [] = .ok row ∧
      inlinedRow row = leaves (Token.scan "(a((b)c)+(d") ∧
      (∀ items, .sequence items ∈ Node.preorderRow row → IsGroupOf items) ∧
      (∀ n ∈ row, n.isClosing = false) ∧
      ∀ front back, leaves (Token.scan "(a((b)c)+(d") = front ++ .operator "(" :: back →
        (ClosesOwn back ↔ ∃ before after, row = before ++ .operator "(" :: after ∧
          inlinedRow before = front ∧ inlinedRow after = back) := by
  have hleaf : ∀ n ∈ leaves (Token.scan "(a((b)c)+(d"), IsLeafNode n := by
    rw [leaves_scan]
    exact forall_isLeafNode_words _
  have hcloses : ClosesOwn (leaves (Token.scan "(a((b)c)+(d")) :=
    closesOwn_iff.2 ⟨2, by decide +kernel⟩
  exact ⟨hleaf, hcloses, group_exact hleaf hcloses []⟩

end Formulary.Formula
