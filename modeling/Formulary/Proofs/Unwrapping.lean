import Formulary.Node.Children
import Formulary.Proofs.Conservation
import Mathlib.Order.MinMax

/-!
# Stripping at once

A pass takes one pair of brackets off every sequence that stands directly in a row, at all depths of
the tree.  The same can be said without passes: every such sequence loses all pairs of brackets around
its items, and nothing else changes (`bared`).

Main statement: stripping gives that tree, in one pass more than the largest number of pairs that a
single sequence loses; a second run changes nothing; and of the nodes of a formula no sequence loses
more than one pair (`stripBrackets_at_once`).
-/

namespace Formulary.Formula

/-! ## 1. The brackets around a row -/

/-- The row without the pairs of brackets around it. -/
def unwrapped (items : List Node) : List Node :=
  if _h : Node.hasBracketPair items = true then unwrapped (inner items) else items
termination_by sizeRow items
decreasing_by exact sizeRow_inner_lt _h

/-- The number of pairs of brackets around a row. -/
def pairCount (items : List Node) : Nat :=
  if _h : Node.hasBracketPair items = true then pairCount (inner items) + 1 else 0
termination_by sizeRow items
decreasing_by exact sizeRow_inner_lt _h

section

variable {items : List Node}

theorem unwrapped_of_pair (h : Node.hasBracketPair items = true) :
    unwrapped items = unwrapped (inner items) := by
  rw [unwrapped, dif_pos h]

theorem unwrapped_of_not_pair (h : ¬Node.hasBracketPair items = true) : unwrapped items = items := by
  rw [unwrapped, dif_neg h]

theorem pairCount_of_pair (h : Node.hasBracketPair items = true) :
    pairCount items = pairCount (inner items) + 1 := by
  rw [pairCount, dif_pos h]

theorem pairCount_of_not_pair (h : ¬Node.hasBracketPair items = true) : pairCount items = 0 := by
  rw [pairCount, dif_neg h]

theorem pairCount_pos_iff : 0 < pairCount items ↔ Node.hasBracketPair items = true := by
  by_cases h : Node.hasBracketPair items = true
  · rw [pairCount_of_pair h]
    simp [h]
  · rw [pairCount_of_not_pair h]
    simp [h]

theorem hasBracketPair_unwrapped (items : List Node) :
    ¬Node.hasBracketPair (unwrapped items) = true := by
  induction items using unwrapped.induct with
  | case1 items h ih => rwa [unwrapped_of_pair h]
  | case2 items h => rwa [unwrapped_of_not_pair h]

theorem unwrapped_subset (items : List Node) : unwrapped items ⊆ items := by
  induction items using unwrapped.induct with
  | case1 items h ih =>
    rw [unwrapped_of_pair h]
    intro n hn
    exact List.mem_of_mem_tail (List.dropLast_subset _ (ih hn))
  | case2 items h => rw [unwrapped_of_not_pair h]; exact List.Subset.refl items

variable {f : Node → Node} (hf : ∀ {n kind text}, f n = .leaf kind text ↔ n = .leaf kind text)

theorem inner_map (f : Node → Node) (items : List Node) :
    inner (items.map f) = (inner items).map f := by
  rw [inner, inner, ← List.map_tail, List.map_dropLast]

include hf

theorem pairCount_map (items : List Node) : pairCount (items.map f) = pairCount items := by
  induction items using unwrapped.induct with
  | case1 items h ih =>
    have hmap : Node.hasBracketPair (items.map f) = true := by rwa [hasBracketPair_map hf]
    rw [pairCount_of_pair hmap, pairCount_of_pair h, inner_map, ih]
  | case2 items h =>
    have hmap : ¬Node.hasBracketPair (items.map f) = true := by rwa [hasBracketPair_map hf]
    rw [pairCount_of_not_pair hmap, pairCount_of_not_pair h]

end

/-! ## 2. Every sequence at once -/

mutual

/-- The node, which stands directly in a row or not, with all brackets taken off the sequences that do;
everything else is as it was. -/
def bared (inRow : Bool) : Node → Node
  | .row kind items =>
    if kind = .sequence && inRow then .row kind (unwrapped (baredRow true items))
    else .row kind (baredRow true items)
  | .unary kind content => .unary kind (bared false content)
  | .binary kind left right => .binary kind (bared false left) (bared false right)
  | .leaf kind text => .leaf kind text
  | .bare => .bare
  | .missing => .missing
  | .stray value => .stray value

/-- The same for the nodes of a row. -/
def baredRow (inRow : Bool) : List Node → List Node
  | [] => []
  | n :: rest => bared inRow n :: baredRow inRow rest

end

mutual

/-- The largest number of pairs of brackets around a single sequence that stands directly in a row. -/
def mostPairs (inRow : Bool) : Node → Nat
  | .row kind items =>
    max (if kind = .sequence && inRow then pairCount items else 0) (mostPairsRow true items)
  | .unary _ content => mostPairs false content
  | .binary _ left right => max (mostPairs false left) (mostPairs false right)
  | .leaf .. | .bare | .missing | .stray _ => 0

/-- The same for the nodes of a row. -/
def mostPairsRow (inRow : Bool) : List Node → Nat
  | [] => 0
  | n :: rest => max (mostPairs inRow n) (mostPairsRow inRow rest)

end

theorem baredRow_eq_map (inRow : Bool) (nodes : List Node) :
    baredRow inRow nodes = nodes.map (bared inRow) := by
  induction nodes with
  | nil => rfl
  | cons n rest ih => rw [baredRow, List.map_cons, ih]

theorem bared_eq_leaf_iff {inRow : Bool} {n : Node} {kind : LeafKind} {text : String} :
    bared inRow n = .leaf kind text ↔ n = .leaf kind text := by
  cases n with
  | row =>
    rw [bared]
    split <;> simp
  | _ => simp [bared]

theorem mostPairsRow_append (inRow : Bool) (xs ys : List Node) :
    mostPairsRow inRow (xs ++ ys) = max (mostPairsRow inRow xs) (mostPairsRow inRow ys) := by
  induction xs with
  | nil => simp [mostPairsRow]
  | cons x xs ih => rw [List.cons_append, mostPairsRow, mostPairsRow, ih, Nat.max_assoc]

theorem mostPairsRow_pos_iff {inRow : Bool} {nodes : List Node} :
    0 < mostPairsRow inRow nodes ↔ ∃ n ∈ nodes, 0 < mostPairs inRow n := by
  induction nodes with
  | nil => simp [mostPairsRow]
  | cons n rest ih => simp [mostPairsRow, ih]

theorem mostPairsRow_le {inRow : Bool} {nodes : List Node} {bound : Nat}
    (h : ∀ n ∈ nodes, mostPairs inRow n ≤ bound) : mostPairsRow inRow nodes ≤ bound := by
  induction nodes with
  | nil => exact Nat.zero_le bound
  | cons n rest ih =>
    obtain ⟨hn, hrest⟩ := List.forall_mem_cons.1 h
    exact Nat.max_le.2 ⟨hn, ih hrest⟩

-- the brackets around a row are leaves, which lose nothing
theorem mostPairsRow_inner {items : List Node} (h : Node.hasBracketPair items = true)
    (inRow : Bool) : mostPairsRow inRow (inner items) = mostPairsRow inRow items := by
  obtain ⟨body, rfl⟩ := hasBracketPair_iff.1 h
  rw [inner_group, mostPairsRow_append]
  simp [mostPairsRow, mostPairs]

theorem mostPairsRow_unwrapped (inRow : Bool) (items : List Node) :
    mostPairsRow inRow (unwrapped items) = mostPairsRow inRow items := by
  induction items using unwrapped.induct with
  | case1 items h ih => rw [unwrapped_of_pair h, ih, mostPairsRow_inner h]
  | case2 items h => rw [unwrapped_of_not_pair h]

theorem baredRow_eq_self {inRow : Bool} {nodes : List Node}
    (h : ∀ n ∈ nodes, mostPairs inRow n = 0 → bared inRow n = n)
    (hzero : mostPairsRow inRow nodes = 0) : baredRow inRow nodes = nodes := by
  induction nodes with
  | nil => rfl
  | cons n rest ih =>
    obtain ⟨hn, hrest⟩ := List.forall_mem_cons.1 h
    rw [mostPairsRow] at hzero
    rw [baredRow, hn (by omega), ih hrest (by omega)]

/-- Where no sequence has brackets to lose, nothing changes. -/
theorem bared_eq_self {inRow : Bool} {n : Node} (h : mostPairs inRow n = 0) :
    bared inRow n = n := by
  induction n generalizing inRow with
  | row kind items ih =>
    rw [mostPairs] at h
    have hitems : baredRow true items = items := baredRow_eq_self (fun n hn => ih n hn) (by omega)
    rw [bared, hitems]
    split at h
    · next hloses =>
      have hpair : ¬Node.hasBracketPair items = true := by
        rw [← pairCount_pos_iff]
        omega
      rw [if_pos hloses, unwrapped_of_not_pair hpair]
    · next hkeeps => rw [if_neg hkeeps]
  | unary kind content ih => rw [bared, ih h]
  | binary kind left right ihl ihr =>
    rw [mostPairs] at h
    rw [bared, ihl (by omega), ihr (by omega)]
  | leaf | bare | missing | stray => rw [bared]

theorem mostPairsRow_baredRow {inRow : Bool} {nodes : List Node}
    (h : ∀ n ∈ nodes, mostPairs inRow (bared inRow n) = 0) :
    mostPairsRow inRow (baredRow inRow nodes) = 0 := by
  rw [baredRow_eq_map]
  apply Nat.le_zero.1
  apply mostPairsRow_le
  exact List.forall_mem_map.2 fun n hn => Nat.le_of_eq (h n hn)

/-- Nothing is left to lose. -/
theorem mostPairs_bared (inRow : Bool) (n : Node) : mostPairs inRow (bared inRow n) = 0 := by
  induction n generalizing inRow with
  | row kind items ih =>
    have hitems : mostPairsRow true (baredRow true items) = 0 :=
      mostPairsRow_baredRow fun n hn => ih n hn true
    rw [bared]
    split
    · next hloses =>
      rw [mostPairs, if_pos hloses, pairCount_of_not_pair (hasBracketPair_unwrapped _),
        mostPairsRow_unwrapped, hitems]
      rfl
    · next hkeeps =>
      rw [mostPairs, if_neg hkeeps, hitems]
      rfl
  | unary kind content ih => rw [bared, mostPairs, ih]
  | binary kind left right ihl ihr =>
    rw [bared, mostPairs, ihl, ihr]
    rfl
  | leaf | bare | missing | stray => rw [bared, mostPairs]

theorem holdsForeign_bared {inRow : Bool} {n : Node} (h : holdsForeign n = false) :
    holdsForeign (bared inRow n) = false := by
  induction n generalizing inRow with
  | row kind items ih =>
    rw [holdsForeign, holdsForeignRow_eq_false_iff] at h
    have hitems : ∀ m ∈ baredRow true items, holdsForeign m = false := by
      rw [baredRow_eq_map]
      intro m hm
      obtain ⟨n, hn, rfl⟩ := List.mem_map.1 hm
      exact ih n hn (h n hn)
    rw [bared]
    split
    · rw [holdsForeign, holdsForeignRow_eq_false_iff]
      exact fun m hm => hitems m (unwrapped_subset _ hm)
    · rwa [holdsForeign, holdsForeignRow_eq_false_iff]
  | unary kind content ih =>
    rw [holdsForeign] at h
    rw [bared, holdsForeign, ih h]
  | binary kind left right ihl ihr =>
    rw [holdsForeign, Bool.or_eq_false_iff] at h
    exact holdsForeign_binary (ihl h.1) (ihr h.2)
  | leaf | bare | missing | stray => rwa [bared]

/-! ## 3. One pass -/

theorem stripRow_snd (inRow : Bool) (nodes : List Node) :
    (stripRow inRow nodes).2 = nodes.any fun n => (stripNode inRow n).2 := by
  induction nodes with
  | nil => rfl
  | cons n rest ih => rw [stripRow, List.any_cons, ← ih]

theorem stripRow_snd_iff {inRow : Bool} {nodes : List Node}
    (h : ∀ n ∈ nodes, (stripNode inRow n).2 = true ↔ 0 < mostPairs inRow n) :
    (stripRow inRow nodes).2 = true ↔ 0 < mostPairsRow inRow nodes := by
  rw [stripRow_snd, List.any_eq_true, mostPairsRow_pos_iff]
  exact exists_congr fun n => and_congr_right fun hn => h n hn

theorem stripNode_row (inRow : Bool) (kind : RowKind) (items : List Node) :
    stripNode inRow (.row kind items) =
      if kind = .sequence && inRow && Node.hasBracketPair items then
        (.row kind (inner (stripRow true items).1), true)
      else (.row kind (stripRow true items).1, (stripRow true items).2) := by
  rw [stripNode]
  dsimp only
  rw [hasBracketPair_stripRow]

/-- A pass changes a node exactly if some sequence has a pair to lose. -/
theorem stripNode_snd_iff {inRow : Bool} {n : Node} :
    (stripNode inRow n).2 = true ↔ 0 < mostPairs inRow n := by
  induction n generalizing inRow with
  | row kind items ih =>
    have hrow : (stripRow true items).2 = true ↔ 0 < mostPairsRow true items :=
      stripRow_snd_iff fun n hn => ih n hn
    rw [stripNode_row, mostPairs, lt_max_iff]
    by_cases hloses : (kind = .sequence && inRow) = true
    · rw [hloses, Bool.true_and, if_pos rfl, pairCount_pos_iff]
      by_cases hpair : Node.hasBracketPair items = true
      · simp [hpair]
      · simp [hpair, hrow]
    · rw [Bool.of_not_eq_true hloses]
      simp [hrow]
  | unary kind content ih =>
    rw [stripNode, mostPairs]
    exact ih
  | binary kind left right ihl ihr =>
    rw [stripNode, mostPairs, lt_max_iff, ← ihl, ← ihr]
    exact Bool.or_eq_true_iff
  | leaf | bare | missing | stray => simp [stripNode, mostPairs]

theorem mostPairsRow_stripRow {inRow : Bool} {nodes : List Node}
    (h : ∀ n ∈ nodes, mostPairs inRow (stripNode inRow n).1 = mostPairs inRow n - 1) :
    mostPairsRow inRow (stripRow inRow nodes).1 = mostPairsRow inRow nodes - 1 := by
  induction nodes with
  | nil => rfl
  | cons n rest ih =>
    obtain ⟨hn, hrest⟩ := List.forall_mem_cons.1 h
    rw [stripRow, mostPairsRow, mostPairsRow, hn, ih hrest]
    omega

/-- Every sequence that has a pair to lose loses one in a pass. -/
theorem mostPairs_stripNode (inRow : Bool) (n : Node) :
    mostPairs inRow (stripNode inRow n).1 = mostPairs inRow n - 1 := by
  induction n generalizing inRow with
  | row kind items ih =>
    have hrow : mostPairsRow true (stripRow true items).1 = mostPairsRow true items - 1 :=
      mostPairsRow_stripRow fun n hn => ih n hn true
    have hcount : pairCount (stripRow true items).1 = pairCount items := by
      rw [stripRow_fst]
      exact pairCount_map stripNode_eq_leaf_iff items
    rw [stripNode_row]
    by_cases hdrops : (kind = .sequence && inRow && Node.hasBracketPair items) = true
    · -- one pair goes here, and one at every place further down
      obtain ⟨hloses, hpair⟩ := Bool.and_eq_true_iff.1 hdrops
      have hpair' : Node.hasBracketPair (stripRow true items).1 = true := by
        rwa [hasBracketPair_stripRow]
      rw [pairCount_of_pair hpair'] at hcount
      rw [if_pos hdrops, mostPairs, mostPairs, if_pos hloses, if_pos hloses,
        mostPairsRow_inner hpair', hrow]
      omega
    · rw [if_neg hdrops, mostPairs, mostPairs, hrow, hcount]
      by_cases hloses : (kind = .sequence && inRow) = true
      · have hpair : ¬Node.hasBracketPair items = true := by
          intro hpair
          exact hdrops (by rw [hloses, hpair]; rfl)
        rw [if_pos hloses, pairCount_of_not_pair hpair]
        omega
      · rw [if_neg hloses]
        omega
  | unary kind content ih => rw [stripNode_unary, mostPairs, mostPairs, ih]
  | binary kind left right ihl ihr =>
    rw [stripNode_binary, mostPairs, mostPairs, ihl, ihr]
    omega
  | leaf | bare | missing | stray => rw [stripNode, mostPairs]

theorem baredRow_stripRow {inRow : Bool} {nodes : List Node}
    (h : ∀ n ∈ nodes, bared inRow (stripNode inRow n).1 = bared inRow n) :
    baredRow inRow (stripRow inRow nodes).1 = baredRow inRow nodes := by
  rw [stripRow_fst, baredRow_eq_map, baredRow_eq_map, List.map_map]
  exact List.map_congr_left h

/-- A pass does not change what a node comes to when all brackets are taken off. -/
theorem bared_stripNode (inRow : Bool) (n : Node) :
    bared inRow (stripNode inRow n).1 = bared inRow n := by
  induction n generalizing inRow with
  | row kind items ih =>
    have hrow : baredRow true (stripRow true items).1 = baredRow true items :=
      baredRow_stripRow fun n hn => ih n hn true
    rw [stripNode_row]
    by_cases hdrops : (kind = .sequence && inRow && Node.hasBracketPair items) = true
    · obtain ⟨hloses, hpair⟩ := Bool.and_eq_true_iff.1 hdrops
      have hpair' : Node.hasBracketPair (baredRow true items) = true := by
        rwa [baredRow_eq_map, hasBracketPair_map bared_eq_leaf_iff]
      have hinner : baredRow true (inner (stripRow true items).1) = inner (baredRow true items) := by
        rw [← hrow, baredRow_eq_map, baredRow_eq_map, inner_map]
      rw [if_pos hdrops, bared, bared, if_pos hloses, if_pos hloses, hinner,
        unwrapped_of_pair hpair']
    · rw [if_neg hdrops, bared, bared, hrow]
  | unary kind content ih => rw [stripNode_unary, bared, bared, ih]
  | binary kind left right ihl ihr => rw [stripNode_binary, bared, bared, ihl, ihr]
  | leaf | bare | missing | stray => rw [stripNode]

/-! ## 4. All passes -/

/-- Stripping takes all brackets off, in as many passes as a single sequence has pairs to lose, and one
more that finds nothing to do. -/
theorem settle_eq (nodes : List Node) :
    settle nodes = ⟨baredRow false nodes, mostPairsRow false nodes + 1⟩ := by
  have hbared (nodes : List Node) :
      baredRow false (stripPass nodes).1 = baredRow false nodes :=
    baredRow_stripRow fun n _ => bared_stripNode false n
  have hmost (nodes : List Node) :
      mostPairsRow false (stripPass nodes).1 = mostPairsRow false nodes - 1 :=
    mostPairsRow_stripRow fun n _ => mostPairs_stripNode false n
  have hchanged (nodes : List Node) :
      (stripPass nodes).2 = true ↔ 0 < mostPairsRow false nodes :=
    stripRow_snd_iff fun _ _ => stripNode_snd_iff
  induction nodes using settle.induct with
  | case1 nodes h ih =>
    have hpos := (hchanged nodes).1 h
    rw [settle, dif_pos h, ih, hbared, hmost]
    show Settled.mk _ (mostPairsRow false nodes - 1 + 1 + 1) = _
    rw [Nat.sub_add_cancel hpos]
  | case2 nodes h =>
    rw [hchanged] at h
    -- after a pass without a change there is nothing to lose, so the row is bare already
    have hzero : mostPairsRow false (stripPass nodes).1 = 0 := by
      rw [hmost]
      omega
    rw [settle, dif_neg (by rwa [hchanged]), ← hbared, baredRow_eq_self (fun _ _ => bared_eq_self) hzero,
      show mostPairsRow false nodes = 0 by omega]

theorem stripBrackets_eq {nodes : List Node} (h : ∀ n ∈ nodes, holdsForeign n = false) :
    stripBrackets nodes = .ok ⟨baredRow false nodes, mostPairsRow false nodes + 1⟩ := by
  rw [stripBrackets, holdsForeignRow_eq_false_iff.2 h, settle_eq]
  rfl

/-! ## 5. Children that fit -/

/-- The children that a pass puts under a node: each child is stripped where it stands, and a sequence in
a row then loses the brackets around its items. -/
def childrenAfterPass (inRow : Bool) (n : Node) : List Node :=
  let children := (stripRow n.isRow n.children).1
  match n with
  | .row .sequence _ =>
    if inRow && Node.hasBracketPair children then inner children else children
  | _ => children

/-- The children that a pass puts under a node are as many as the node takes. -/
theorem withChildren_childrenAfterPass (inRow : Bool) (n : Node) :
    n.withChildren (childrenAfterPass inRow n) = .ok (stripNode inRow n).1 := by
  cases n with
  | row kind items =>
    cases kind with
    | sequence =>
      rw [stripNode_sequence]
      by_cases hdrops : (inRow && Node.hasBracketPair (stripRow true items).1) = true
      · rw [if_pos hdrops]
        exact congrArg (fun children => Except.ok (Node.sequence children)) (if_pos hdrops)
      · rw [if_neg hdrops]
        exact congrArg (fun children => Except.ok (Node.sequence children)) (if_neg hdrops)
    | _ =>
      rw [stripNode_row]
      rfl
  | unary kind content =>
    rw [stripNode_unary]
    rfl
  | binary kind left right =>
    rw [stripNode_binary]
    rfl
  | leaf | bare | missing | stray =>
    rw [stripNode]
    rfl

/-! ## 6. The nodes of a formula -/

/-- The nodes that parsing hands to stripping, for a formula that gets that far. -/
def appliedRow (formula : String) : Except Fault (List Node) :=
  match groupedRow formula with
  | .error fault => .error fault
  | .ok row =>
    match foldOperators row with
    | .error fault => .error fault
    | .ok folded => foldFunctions folded.nodes

theorem appliedRow_eq_ok {formula : String} {applied : List Node}
    (h : appliedRow formula = .ok applied) : ∃ row folded, groupedRow formula = .ok row ∧
      foldOperators row = .ok folded ∧ foldFunctions folded.nodes = .ok applied := by
  unfold appliedRow at h
  split at h
  · exact absurd h (by simp)
  · next row hrow =>
    split at h
    · exact absurd h (by simp)
    · next folded hfolded => exact ⟨row, folded, hrow, hfolded, h⟩

theorem stripPasses_analyse {formula : String} {applied : List Node} {s : Settled}
    (h : appliedRow formula = .ok applied) (hs : stripBrackets applied = .ok s) :
    (analyse formula).stripPasses = some s.passes := by
  obtain ⟨row, folded, hrow, hfolded, happlied⟩ := appliedRow_eq_ok h
  rw [groupedRow] at hrow
  rw [analyse]
  simp only [hrow, hfolded, happlied, hs]

/-- Of the nodes of a formula, no sequence has more than one pair to lose. -/
theorem Enclosed.mostPairs_le {n : Node} (h : Enclosed n) (inRow : Bool) :
    mostPairs inRow n ≤ 1 := by
  induction h generalizing inRow with
  | leaf kind text => simp [mostPairs]
  | @sequence items h hpair ih =>
    have hcount : pairCount items ≤ 1 := by
      by_cases hb : Node.hasBracketPair items = true
      · obtain ⟨body, rfl, -, hbody⟩ := hpair hb
        rw [pairCount_of_pair hb, inner_group, pairCount_of_not_pair (by rw [hbody]; decide)]
      · rw [pairCount_of_not_pair hb]
        exact Nat.zero_le 1
    have hitems : mostPairsRow true items ≤ 1 := mostPairsRow_le fun n hn => ih n hn true
    rw [mostPairs]
    split <;> omega
  | squareRoot _ ih => exact ih false
  | pair _ _ ihl ihr => exact Nat.max_le.2 ⟨ihl false, ihr false⟩

theorem native_of_appliedRow {formula : String} {applied : List Node}
    (h : appliedRow formula = .ok applied) : ∀ n ∈ applied, holdsForeign n = false := by
  obtain ⟨row, folded, -, hfolded, happlied⟩ := appliedRow_eq_ok h
  have hout := foldOperators_ok_iff.1 ⟨folded, hfolded, rfl⟩
  refine forall_mem_foldFunctions (fun _ hc => ?_) (foldedFrom_native hout) happlied
  rwa [holdsForeign]

theorem mostPairsRow_of_appliedRow {formula : String} {applied : List Node}
    (h : appliedRow formula = .ok applied) : mostPairsRow false applied ≤ 1 := by
  obtain ⟨row, folded, hrow, hfolded, happlied⟩ := appliedRow_eq_ok h
  have hout := foldOperators_ok_iff.1 ⟨folded, hfolded, rfl⟩
  have henclosed := (groupedRow_spec hrow).2.enclosed hout happlied
  exact mostPairsRow_le fun n hn => (henclosed n hn).mostPairs_le false

/-- **Stripping by passes is stripping at once.**  For every row of nodes stripping succeeds, takes all
brackets off the sequences that stand in a row and changes nothing else, in one pass more than the
largest number of pairs that a single sequence loses; a second run changes nothing.  A pass gives every
node as many children as it takes.  For the nodes of a formula it comes to at most two passes. -/
theorem stripBrackets_at_once :
    (∀ nodes : List Node, (∀ n ∈ nodes, holdsForeign n = false) →
      stripBrackets nodes = .ok ⟨baredRow false nodes, mostPairsRow false nodes + 1⟩ ∧
        stripBrackets (baredRow false nodes) = .ok ⟨baredRow false nodes, 1⟩) ∧
    (∀ (inRow : Bool) (n : Node),
      n.withChildren (childrenAfterPass inRow n) = .ok (stripNode inRow n).1) ∧
    ∀ (formula : String) (applied : List Node), appliedRow formula = .ok applied →
      ∃ s, stripBrackets applied = .ok s ∧ (analyse formula).stripPasses = some s.passes ∧
        s.passes ≤ 2 := by
  refine ⟨fun nodes h => ⟨stripBrackets_eq h, ?_⟩, withChildren_childrenAfterPass,
    fun formula applied h => ?_⟩
  · have hnative : ∀ n ∈ baredRow false nodes, holdsForeign n = false := by
      rw [baredRow_eq_map]
      intro n hn
      obtain ⟨m, hm, rfl⟩ := List.mem_map.1 hn
      exact holdsForeign_bared (h m hm)
    have hzero : mostPairsRow false (baredRow false nodes) = 0 :=
      mostPairsRow_baredRow fun n _ => mostPairs_bared false n
    rw [stripBrackets_eq hnative, baredRow_eq_self (fun _ _ => bared_eq_self) hzero, hzero]
  · have hs := stripBrackets_eq (native_of_appliedRow h)
    refine ⟨_, hs, stripPasses_analyse h hs, ?_⟩
    have := mostPairsRow_of_appliedRow h
    show mostPairsRow false applied + 1 ≤ 2
    omega

/-- A sequence with two pairs of brackets around its only word, in a row. -/
def wrappedTwice : List Node :=
  [.row .style [.sequence [.operator "(", .operator "(", .identifier "a", .operator ")",
    .operator ")"]]]

theorem stripBrackets_at_once_wrapped : (∀ n ∈ wrappedTwice, holdsForeign n = false) ∧
    stripBrackets wrappedTwice = .ok ⟨[.row .style [.sequence [.identifier "a"]]], 3⟩ ∧
    ∃ applied, appliedRow "((a))" = .ok applied ∧ ∃ s, stripBrackets applied = .ok s ∧
      (analyse "((a))").stripPasses = some s.passes ∧ s.passes ≤ 2 := by
  obtain ⟨hstrip, -, hformula⟩ := stripBrackets_at_once
  have h : ∀ n ∈ wrappedTwice, holdsForeign n = false := by
    simp [wrappedTwice, holdsForeign, holdsForeignRow]
  have hbared : baredRow false wrappedTwice = [.row .style [.sequence [.identifier "a"]]] := by
    decide +kernel
  have hmost : mostPairsRow false wrappedTwice = 2 := by decide +kernel
  refine ⟨h, ?_, ?_⟩
  · rw [(hstrip wrappedTwice h).1, hbared, hmost]
  · have happlied : appliedRow "((a))" = .ok [.sequence [.operator "(",
        .sequence [.operator "(", .identifier "a", .operator ")"], .operator ")"]] := by
      decide +kernel
    exact ⟨_, happlied, hformula "((a))" _ happlied⟩

end Formulary.Formula
