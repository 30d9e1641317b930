import Formulary.CommandLine.Run
import Formulary.Formula.Validity
import Formulary.Proofs.Conservation
import Formulary.Proofs.Emission
import Formulary.Proofs.Faults

/-!
# Valid formulas are parsed and written

The scan that decides validity looks at one word and the word before it.  Here it is shown to be
enough: the words of a valid formula are balanced, and neighbours among them get along
(`ValidWords`); so every operator to fold finds two operands that are no operators, every function
name is followed by a group, and the tree that results is one that code can be written for
(`isValid_sound`).
-/

namespace Formulary.Formula

/-! ## 1. What the scan finds -/

/-- What is true of the words of a valid formula. -/
structure ValidWords (inputs words : List String) : Prop where
  balanced : Balanced (words.map leafOfWord)
  head : ∀ word ∈ words.head?, mayFollow none word = true
  neighbours : words.IsChain fun previous word => mayFollow (some previous) word = true
  last : mayEnd words.getLast? = true
  known : ∀ word ∈ words, isKnown inputs word = true ∧ isClean word = true

/-- One step of the scan: the word may stand there, and the scan goes on at the depth after it. -/
theorem validFrom_cons {inputs rest : List String} {previous : Option String} {depth : Nat}
    {word : String} (h : validFrom inputs previous depth (word :: rest) = true) :
    mayFollow previous word = true ∧ isKnown inputs word = true ∧ isClean word = true ∧
      ∃ after, validFrom inputs (some word) after rest = true ∧
        ∀ more, depthAfter depth (leafOfWord word :: more) = depthAfter after more := by
  rw [validFrom, Bool.and_eq_true_iff, Bool.and_eq_true_iff, Bool.and_eq_true_iff] at h
  obtain ⟨⟨⟨hfollow, hknown⟩, hclean⟩, hrest⟩ := h
  refine ⟨hfollow, hknown, hclean, ?_⟩
  by_cases hopen : word = "("
  · rw [if_pos hopen] at hrest
    exact ⟨_, hrest, fun more => depthAfter_opening (by simp [hopen]) depth more⟩
  · rw [if_neg hopen] at hrest
    by_cases hclose : word = ")"
    · -- the scan has checked that a bracket is open
      rw [if_pos hclose, Bool.and_eq_true_iff, bne_iff_ne] at hrest
      obtain ⟨after, rfl⟩ := Nat.exists_eq_succ_of_ne_zero hrest.1
      exact ⟨after, hrest.2, fun more => depthAfter_closing (by simp [hclose]) after more⟩
    · rw [if_neg hclose] at hrest
      exact ⟨depth, hrest, fun more =>
        depthAfter_other (by simpa using hopen) (by simpa using hclose) depth more⟩

theorem validFrom_spec {inputs words : List String} {previous : Option String} {depth : Nat}
    (h : validFrom inputs previous depth words = true) :
    depthAfter depth (words.map leafOfWord) = some 0 ∧
      (∀ word ∈ words.head?, mayFollow previous word = true) ∧
      (words.IsChain fun previous word => mayFollow (some previous) word = true) ∧
      mayEnd (words.getLast?.or previous) = true ∧
      ∀ word ∈ words, isKnown inputs word = true ∧ isClean word = true := by
  induction words generalizing previous depth with
  | nil =>
    obtain ⟨hdepth, hend⟩ := Bool.and_eq_true_iff.1 h
    rw [eq_of_beq hdepth]
    exact ⟨rfl, by simp, .nil, hend, by simp⟩
  | cons word rest ih =>
    obtain ⟨hfollow, hknown, hclean, after, hrest, hdepth⟩ := validFrom_cons h
    obtain ⟨hbalanced, hhead, hchain, hend, hall⟩ := ih hrest
    -- the word is what stands before the rest, so the head of the rest is its neighbour
    refine ⟨?_, ?_, hchain.cons hhead, ?_, List.forall_mem_cons.2 ⟨⟨hknown, hclean⟩, hall⟩⟩
    · rw [List.map_cons, hdepth, hbalanced]
    · intro w hw
      rw [← Option.some.inj hw]
      exact hfollow
    · rw [List.getLast?_cons]
      cases hlast : rest.getLast? with
      | none => simpa [hlast] using hend
      | some last => simpa [hlast] using hend

theorem validWords_of_isValid {formula : String} {inputs : List String}
    (h : isValid formula inputs = true) : ValidWords inputs (Token.words formula) := by
  obtain ⟨hbalanced, hhead, hchain, hend, hall⟩ := validFrom_spec h
  rw [Option.or_none] at hend
  exact ⟨hbalanced, hhead, hchain, hend, hall⟩

/-! ## 2. Neighbours -/

section

variable {previous word : String}

-- the only operator that may stand before an operator to fold is a closing bracket
theorem eq_closing_of_mayFollow (h : mayFollow (some previous) word = true)
    (hword : Symbol.isBinding word = true) (hprevious : Symbol.isOperator previous = true) :
    previous = ")" := by
  rcases Symbol.isBinding_cases hword with rfl | rfl <;>
    rcases Symbol.isOperator_cases hprevious with rfl | rfl | rfl | rfl | rfl | rfl | rfl <;>
      first | rfl | exact absurd h (by decide)

-- the only operator that may stand after an operator to fold is an opening bracket
theorem eq_opening_of_mayFollow (h : mayFollow (some previous) word = true)
    (hprevious : Symbol.isBinding previous = true) (hword : Symbol.isOperator word = true) :
    word = "(" := by
  rcases Symbol.isBinding_cases hprevious with rfl | rfl <;>
    rcases Symbol.isOperator_cases hword with rfl | rfl | rfl | rfl | rfl | rfl | rfl <;>
      first | rfl | exact absurd h (by decide)

theorem eq_opening_of_isFunction (h : mayFollow (some previous) word = true)
    (hprevious : Symbol.isFunction previous = true) : word = "(" := by
  rw [mayFollow, Bool.and_eq_true_iff, Bool.and_eq_true_iff] at h
  by_contra hne
  simp [hprevious, hne] at h

end

/-- Two leaves whose words may follow each other. -/
def Follows (a b : Node) : Prop :=
  ∃ previous word, a = leafOfWord previous ∧ b = leafOfWord word ∧
    mayFollow (some previous) word = true

/-- Is the node an operator that was not folded? -/
def isOperatorLeaf : Node → Bool
  | .leaf .operator _ => true
  | _ => false

/-- Two nodes of which neither takes an operator for an operand when it is folded with the other. -/
structure Guarded (x y : Node) : Prop where
  left : isBinding y = true → isOperatorLeaf x = false
  right : isBinding x = true → isOperatorLeaf y = false
  name : isName x = true → isOperatorLeaf y = false

theorem isOperatorLeaf_iff {n : Node} : isOperatorLeaf n = true ↔ ∃ symbol, n = .operator symbol := by
  constructor
  · intro h
    unfold isOperatorLeaf at h
    split at h
    · exact ⟨_, rfl⟩
    · exact absurd h (by decide)
  · rintro ⟨symbol, rfl⟩
    rfl

theorem isOperatorLeaf_leafOfWord (word : String) :
    isOperatorLeaf (leafOfWord word) = Symbol.isOperator word := by
  rw [Bool.eq_iff_iff, isOperatorLeaf_iff, ← kindOfText_eq_operator_iff, leafOfWord]
  simp

/-- Leaves that may follow each other are guarded, unless the first is a closing or the second an
opening bracket: those stand for the group that they end or begin. -/
theorem Follows.guarded {a b : Node} (h : Follows a b) (ha : a.isClosing = false)
    (hb : b.isOpening = false) : Guarded a b := by
  obtain ⟨previous, word, rfl, rfl, hfollow⟩ := h
  rw [isClosing_leafOfWord, beq_eq_false_iff_ne] at ha
  rw [isOpening_leafOfWord, beq_eq_false_iff_ne] at hb
  refine ⟨fun hbinding => ?_, fun hbinding => ?_, fun hname => ?_⟩
  · rw [isOperatorLeaf_leafOfWord, ← Bool.not_eq_true]
    rw [isBinding, isSome_binding?_leafOfWord] at hbinding
    -- `a` could only be a closing bracket
    exact fun hop => ha (eq_closing_of_mayFollow hfollow hbinding hop)
  · rw [isOperatorLeaf_leafOfWord, ← Bool.not_eq_true]
    rw [isBinding, isSome_binding?_leafOfWord] at hbinding
    exact fun hop => hb (eq_opening_of_mayFollow hfollow hbinding hop)
  · rw [isName, isSome_functionName?_leafOfWord] at hname
    exact absurd (eq_opening_of_isFunction hfollow hname) hb

-- what is asked of two neighbours is asked of leaves only, so it is enough that their leaves touch
-- well
theorem guarded_of_touch {x y : Node} (h : Touch Follows x y) (hx : x.isClosing = false)
    (hy : y.isOpening = false) : Guarded x y := by
  cases x with
  | leaf kind text =>
    cases y with
    | leaf kind' text' =>
      have hfollows : Follows (.leaf kind text) (.leaf kind' text') := by
        apply h
        · rw [reading_leaf]
          rfl
        · rw [reading_leaf]
          rfl
      exact hfollows.guarded hx hy
    | _ => exact ⟨fun h => absurd h (by simp [isBinding, binding?]), fun _ => rfl, fun _ => rfl⟩
  | _ =>
    exact ⟨fun _ => rfl, fun h => absurd h (by simp [isBinding, binding?]),
      fun h => absurd h (by simp [isName, functionName?])⟩

/-! ## 3. Operands -/

/-- A tree in which no operator to fold is left, and no operator serves as an operand. -/
inductive Sound : Node → Prop
  | leaf {kind : LeafKind} {text : String} (h : binding? (.leaf kind text) = none) :
      Sound (.leaf kind text)
  | sequence {items : List Node} (h : ∀ n ∈ items, Sound n) : Sound (.sequence items)
  | squareRoot {content : Node} (h : Sound content) (hop : isOperatorLeaf content = false) :
      Sound (.unary .squareRoot content)
  | pair {kind : BinaryKind} {left right : Node} (hl : Sound left) (hr : Sound right)
      (hopl : isOperatorLeaf left = false) (hopr : isOperatorLeaf right = false) :
      Sound (.binary kind left right)

theorem isOperatorLeaf_of_folded {n m : Node} (h : folded n = some m)
    (hn : isOperatorLeaf n = false) : isOperatorLeaf m = false := by
  rw [← Bool.not_eq_true, isOperatorLeaf_iff]
  rintro ⟨symbol, rfl⟩
  rw [folded_eq_leaf h] at hn
  exact absurd hn (by simp [isOperatorLeaf])

/-- What holds of the folded nodes of a guarded row, and of a pair of such nodes neither of which is an
operator, holds of all nodes of the folded row.  A folded node may have more to it than a pair. -/
theorem RowFold.forall_mem_of_guarded {P Q : Node → Prop} {done row out : List Node}
    (h : RowFold done row out) (hQ : ∀ m, Q m → P m)
    (hpair : ∀ {kind left right}, P left → Q right → isOperatorLeaf left = false →
      isOperatorLeaf right = false → P (.binary kind left right))
    (hdone : ∀ n ∈ done, P n) (hrow : ∀ n ∈ row, ∀ m, folded n = some m → Q m)
    (hlink : ∀ d ∈ done.head?, ∀ y ∈ row.head?, isBinding y = true → isOperatorLeaf d = false)
    (hchain : row.IsChain Guarded) : ∀ n ∈ out, P n := by
  induction h with
  | nil done => exact fun n hn => hdone n (List.mem_reverse.1 hn)
  | @binding done rest out n left right r kind hk hr h ih =>
    have hbinding : isBinding n = true := by
      rw [isBinding, hk]
      rfl
    obtain ⟨-, hrest⟩ := List.forall_mem_cons.1 hrow
    obtain ⟨hright, hrest'⟩ := List.forall_mem_cons.1 hrest
    obtain ⟨hleft, hdone'⟩ := List.forall_mem_cons.1 hdone
    obtain ⟨hguarded, hchain'⟩ := List.isChain_cons_cons.1 hchain
    -- both operands were next to the operator, so neither is one
    have hnew : P (.binary kind left r) :=
      hpair hleft (hright r hr) (hlink left rfl n rfl hbinding)
        (isOperatorLeaf_of_folded hr (hguarded.right hbinding))
    refine ih (List.forall_mem_cons.2 ⟨hnew, hdone'⟩) hrest' ?_ hchain'.tail
    intro d hd y _ _
    rw [← Option.some.inj hd]
    rfl
  | @other done rest out n m hk hm h ih =>
    obtain ⟨hn, hrest⟩ := List.forall_mem_cons.1 hrow
    refine ih (List.forall_mem_cons.2 ⟨hQ m (hn m hm), hdone⟩) hrest ?_ hchain.tail
    intro d hd y hy hbinding
    rw [← Option.some.inj hd]
    exact isOperatorLeaf_of_folded hm ((hchain.rel_head? hy).left hbinding)

theorem foldedFrom_sound {row out : List Node} (h : foldedFrom [] row = some out)
    (hrow : ∀ n ∈ row, ∀ m, folded n = some m → Sound m) (hchain : row.IsChain Guarded) :
    ∀ n ∈ out, Sound n :=
  (rowFold_of_foldedFrom h).forall_mem_of_guarded (fun _ h => h) .pair (by simp) hrow (by simp) hchain

-- neighbours in a group are guarded: a closing bracket is followed by none of its nodes, and an
-- opening bracket preceded by none
theorem guarded_group {inside : List Node} (h : ∀ n ∈ inside, Piece n) {first : Node}
    (hfirst : first.isClosing = false)
    (htouch : (first :: (inside ++ [.operator ")"])).IsChain (Touch Follows)) :
    (first :: (inside ++ [.operator ")"])).IsChain Guarded := by
  induction inside generalizing first with
  | nil =>
    exact List.isChain_pair.2 (guarded_of_touch (List.isChain_pair.1 htouch) hfirst (by rfl))
  | cons n rest ih =>
    obtain ⟨hn, hrest⟩ := List.forall_mem_cons.1 h
    obtain ⟨hlink, htouch'⟩ := List.isChain_cons_cons.1 htouch
    exact List.isChain_cons_cons.2
      ⟨guarded_of_touch hlink hfirst hn.not_isOpening, ih hrest hn.not_isClosing htouch'⟩

theorem guarded_of_group {inside : List Node} (h : ∀ n ∈ inside, Piece n)
    (hchain : (readingRow (.operator "(" :: inside ++ [.operator ")"])).IsChain Follows) :
    (Node.operator "(" :: inside ++ [Node.operator ")"]).IsChain Guarded ∧
      ∀ n ∈ inside, (reading n).IsChain Follows := by
  have hitems : ∀ n ∈ Node.operator "(" :: inside ++ [.operator ")"], reading n ≠ [] :=
    forall_mem_group (by simp) (fun n hn => IsItem.reading_ne_nil (.inl (h n hn))) (by simp)
  obtain ⟨htouch, hreadings⟩ := (isChain_readingRow hitems).1 hchain
  exact ⟨guarded_group h (by rfl) htouch, fun n hn => hreadings n (by simp [hn])⟩

theorem guarded_of_row {row : List Node} (h : ∀ n ∈ row, Piece n)
    (hchain : (readingRow row).IsChain Follows) :
    row.IsChain Guarded ∧ ∀ n ∈ row, (reading n).IsChain Follows := by
  obtain ⟨htouch, hreadings⟩ :=
    (isChain_readingRow fun n hn => IsItem.reading_ne_nil (.inl (h n hn))).1 hchain
  refine ⟨htouch.imp_of_mem_imp fun x y hx hy hxy => ?_, hreadings⟩
  exact guarded_of_touch hxy (h x hx).not_isClosing (h y hy).not_isOpening

/-- A piece whose leaves follow each other well folds to a sound tree. -/
theorem Piece.sound {n m : Node} (h : Piece n) (hchain : (reading n).IsChain Follows)
    (hf : folded n = some m) : Sound m := by
  induction h generalizing m with
  | word _ _ =>
    rw [eq_of_folded_leaf hf]
    exact .leaf (binding?_of_folded hf)
  | @group inside hinside ih =>
    rw [folded, Option.map_eq_some_iff] at hf
    obtain ⟨out, hout, rfl⟩ := hf
    rw [reading_row] at hchain
    obtain ⟨hguarded, hreadings⟩ := guarded_of_group hinside hchain
    have hbracket {text : String} (m : Node) (hm : folded (.operator text) = some m) :
        Sound m := by
      rw [eq_of_folded_leaf hm]
      exact .leaf (binding?_of_folded hm)
    have hfolded : ∀ n ∈ Node.operator "(" :: inside ++ [.operator ")"],
        ∀ m, folded n = some m → Sound m :=
      forall_mem_group hbracket (fun n hn m hm => ih n hn (hreadings n hn) hm) hbracket
    exact .sequence (foldedFrom_sound hout hfolded hguarded)

theorem foldedFrom_pieces_sound {row out : List Node} (h : ∀ n ∈ row, Piece n)
    (hchain : (readingRow row).IsChain Follows) (hout : foldedFrom [] row = some out) :
    ∀ n ∈ out, Sound n := by
  obtain ⟨hguarded, hreadings⟩ := guarded_of_row h hchain
  exact foldedFrom_sound hout (fun n hn m hm => (h n hn).sound (hreadings n hn) hm) hguarded

/-! ## 4. Function names -/

/-- Neighbours in the folded row touch as the leaves of the formula do, and none of its nodes is a
bracket. -/
theorem touch_folded {row out : List Node} (h : ∀ n ∈ row, Piece n)
    (hchain : (readingRow row).IsChain Follows) (hout : foldedFrom [] row = some out) :
    out.IsChain (Touch Follows) ∧ ∀ n ∈ out, n.isOpening = false ∧ n.isClosing = false := by
  have hmembers : ∀ n ∈ out, reading n ≠ [] ∧ n.isOpening = false ∧ n.isClosing = false := by
    refine foldedFrom_forall hout (fun _ _ => ⟨by simp, rfl, rfl⟩) fun n hn m hm => ?_
    refine ⟨?_, ?_, ?_⟩
    · rw [folded_reading hm]
      exact IsItem.reading_ne_nil (.inl (h n hn))
    · -- a bracket in the folded row would have been one in the row
      rw [← Bool.not_eq_true, isOpening_iff]
      rintro rfl
      rw [folded_eq_leaf hm] at hn
      exact absurd (h _ hn).not_isOpening (by decide)
    · rw [← Bool.not_eq_true, isClosing_iff]
      rintro rfl
      rw [folded_eq_leaf hm] at hn
      exact absurd (h _ hn).not_isClosing (by decide)
  have hreading : (readingRow out).IsChain Follows := by
    rw [foldedFrom_reading hout]
    exact hchain
  exact ⟨((isChain_readingRow fun n hn => (hmembers n hn).1).1 hreading).1,
    fun n hn => (hmembers n hn).2⟩

theorem guarded_folded {row out : List Node} (h : ∀ n ∈ row, Piece n)
    (hchain : (readingRow row).IsChain Follows) (hout : foldedFrom [] row = some out) :
    out.IsChain Guarded := by
  obtain ⟨htouch, hmembers⟩ := touch_folded h hchain hout
  refine htouch.imp_of_mem_imp fun x y hx hy hxy => ?_
  exact guarded_of_touch hxy (hmembers x hx).2 (hmembers y hy).1

/-- In a guarded row no function name takes an operator for its content: what holds of its nodes, and
of the square root of one that is no operator, holds after the names are folded. -/
theorem forall_mem_foldFunctions_of_guarded {P Q : Node → Prop} {row out : List Node}
    (hP : ∀ n, P n → Q n)
    (hroot : ∀ n, P n → isOperatorLeaf n = false → Q (.unary .squareRoot n))
    (hrow : ∀ n ∈ row, P n) (hchain : row.IsChain Guarded) (h : foldFunctions row = .ok out) :
    ∀ n ∈ out, Q n := by
  replace h := nameFold_of_foldFunctions h
  induction h with
  | nil => simp
  | name hname _ ih =>
    obtain ⟨-, hrest⟩ := List.forall_mem_cons.1 hrow
    obtain ⟨hargument, hrest⟩ := List.forall_mem_cons.1 hrest
    obtain ⟨hguarded, hchain⟩ := List.isChain_cons_cons.1 hchain
    exact List.forall_mem_cons.2 ⟨hroot _ hargument (hguarded.name (isName_of_some hname)),
      ih hrest hchain.tail⟩
  | other _ _ ih =>
    obtain ⟨hn, hrest⟩ := List.forall_mem_cons.1 hrow
    exact List.forall_mem_cons.2 ⟨hP _ hn, ih hrest hchain.tail⟩

/-! ## 5. Stripping -/

theorem isOperatorLeaf_stripNode (inRow : Bool) (n : Node) :
    isOperatorLeaf (stripNode inRow n).1 = isOperatorLeaf n := by
  rw [Bool.eq_iff_iff, isOperatorLeaf_iff, isOperatorLeaf_iff]
  constructor
  · rintro ⟨symbol, h⟩
    exact ⟨symbol, stripNode_eq_leaf_iff.1 h⟩
  · rintro ⟨symbol, h⟩
    exact ⟨symbol, stripNode_eq_leaf_iff.2 h⟩

theorem mem_of_mem_inner {n : Node} {items : List Node} (h : n ∈ inner items) : n ∈ items :=
  List.mem_of_mem_tail (List.dropLast_subset _ h)

theorem Sound.stripNode {n : Node} (h : Sound n) (inRow : Bool) :
    Sound (stripNode inRow n).1 := by
  induction h generalizing inRow with
  | leaf h =>
    rw [stripNode_leaf]
    exact .leaf h
  | squareRoot _ hop ih =>
    rw [stripNode_unary]
    exact .squareRoot (ih false) (by rw [isOperatorLeaf_stripNode, hop])
  | pair _ _ hopl hopr ihl ihr =>
    rw [stripNode_binary]
    exact .pair (ihl false) (ihr false) (by rw [isOperatorLeaf_stripNode, hopl])
      (by rw [isOperatorLeaf_stripNode, hopr])
  | @sequence items _ ih =>
    have hitems : ∀ n ∈ (stripRow true items).1, Sound n := by
      rw [stripRow_fst]
      intro n hn
      obtain ⟨m, hm, rfl⟩ := List.mem_map.1 hn
      exact ih m hm true
    rw [stripNode_sequence]
    -- with its brackets or without, the sequence holds no other nodes
    split
    · exact .sequence fun n hn => hitems n (mem_of_mem_inner hn)
    · exact .sequence hitems

-- what a pass keeps for every node stays through all passes
theorem forall_mem_settle {P : Node → Prop} (hP : ∀ n, P n → P (stripNode false n).1)
    {nodes : List Node} (h : ∀ n ∈ nodes, P n) : ∀ n ∈ (settle nodes).nodes, P n := by
  have hpass {nodes : List Node} (h : ∀ n ∈ nodes, P n) : ∀ n ∈ (stripPass nodes).1, P n := by
    rw [stripPass, stripRow_fst]
    intro n hn
    obtain ⟨m, hm, rfl⟩ := List.mem_map.1 hn
    exact hP m (h m hm)
  induction nodes using settle.induct with
  | case1 nodes hchanged ih =>
    rw [settle, dif_pos hchanged]
    exact ih (hpass h)
  | case2 nodes hunchanged =>
    rw [settle, dif_neg hunchanged]
    exact hpass h

/-! ## 6. Valid formulas -/

section

variable {inputs words : List String}

theorem ValidWords.not_overclosed (h : ValidWords inputs words) : ¬Overclosed words := by
  rw [← depthAfter_eq_none_iff_overclosed, show depthAfter 0 _ = some 0 from h.balanced]
  simp

/-- The last word of a valid formula is no function name, so none is left over. -/
theorem ValidWords.looseNames_eq (h : ValidWords inputs words) :
    looseNames Symbol.isFunction Symbol.isBinding words = 0 := by
  have hnone : words.rtakeWhile Symbol.isFunction = [] := by
    rcases List.eq_nil_or_concat words with rfl | ⟨front, last, rfl⟩
    · rfl
    · have hlast := h.last
      rw [List.concat_eq_append, List.getLast?_concat, mayEnd, Bool.and_eq_true_iff] at hlast
      rw [List.concat_eq_append, List.rtakeWhile_concat_neg]
      simpa using hlast.1
  rw [looseNames, hnone]
  split <;> rfl

theorem ValidWords.not_dangles (h : ValidWords inputs words) : ¬Dangles words := by
  intro hdangles
  cases hdangles with
  | first hop =>
    have hhead := h.head _ rfl
    rcases Symbol.isBinding_cases hop with rfl | rfl <;> exact absurd hhead (by decide)
  | last hop =>
    have hlast := h.last
    rw [List.getLast?_concat] at hlast
    rcases Symbol.isBinding_cases hop with rfl | rfl <;> exact absurd hlast (by decide)
  | twice hop hop' =>
    have hfollow := List.isChain_iff_forall_rel_of_append_cons_cons.1 h.neighbours rfl
    rw [eq_opening_of_mayFollow hfollow hop (Symbol.isOperator_of_isBinding hop')] at hop'
    exact absurd hop' (by decide)
  | name hodd =>
    rw [h.looseNames_eq] at hodd
    exact absurd hodd (by decide)

theorem ValidWords.follows (h : ValidWords inputs words) :
    (words.map leafOfWord).IsChain Follows :=
  List.isChain_map_of_isChain leafOfWord (fun a b hab => ⟨a, b, rfl, rfl, hab⟩) h.neighbours

end

/-- The steps that lead from a valid formula to its tree. -/
structure Steps (formula : String) (row out applied : List Node) : Prop where
  reading : readingRow row = (Token.words formula).map leafOfWord
  pieces : ∀ n ∈ row, Piece n
  follows : (readingRow row).IsChain Follows
  folds : foldedFrom [] row = some out
  applies : foldFunctions out = .ok applied
  parses : parse formula = .ok (rootOf (settle applied).nodes)

theorem exists_steps {formula : String} {inputs : List String}
    (h : isValid formula inputs = true) : ∃ row out applied, Steps formula row out applied := by
  have hwords := validWords_of_isValid h
  obtain ⟨row, hrow⟩ := exists_groupedRow hwords.not_overclosed
  obtain ⟨hreading, hgrouped⟩ := groupedRow_spec hrow
  -- all brackets are closed, so the row is made of complete pieces
  have hpieces : ∀ n ∈ row, Piece n := hgrouped.pieces (by rw [hreading]; exact hwords.balanced)
  have hchain : (readingRow row).IsChain Follows := by
    rw [hreading]
    exact hwords.follows
  obtain ⟨hfit, heven⟩ := not_dangles_iff.1 hwords.not_dangles
  rw [← hreading] at hfit heven
  obtain ⟨out, hout⟩ := hgrouped.folded_iff.2 hfit
  obtain ⟨applied, happlied⟩ := (hgrouped.foldFunctions_iff hout).2 heven
  exact ⟨row, out, applied, hreading, hpieces, hchain, hout, happlied,
    parse_of_steps hrow hout happlied⟩

/-- The tree of a valid formula is a root over sound trees. -/
theorem parse_of_isValid {formula : String} {inputs : List String}
    (h : isValid formula inputs = true) :
    ∃ items, parse formula = .ok (.root items) ∧ ∀ n ∈ items, Sound n := by
  obtain ⟨row, out, applied, hsteps⟩ := exists_steps h
  have hsound : ∀ n ∈ (settle applied).nodes, Sound n :=
    forall_mem_settle (fun n hn => hn.stripNode false)
      (forall_mem_foldFunctions_of_guarded (fun _ h => h) (fun _ => .squareRoot)
        (foldedFrom_pieces_sound hsteps.pieces hsteps.follows hsteps.folds)
        (guarded_folded hsteps.pieces hsteps.follows hsteps.folds) hsteps.applies)
  rw [hsteps.parses, rootOf]
  split
  · exact ⟨_, rfl, by simpa using Sound.sequence hsound⟩
  · exact ⟨_, rfl, hsound⟩

/-- The nodes that a node takes as its operands or its content. -/
def operands : Node → List Node
  | .binary _ left right => [left, right]
  | .unary .squareRoot content => [content]
  | _ => []

/-- A node is no operator to fold, and no operand of it is an operator. -/
def IsSettled (n : Node) : Prop :=
  n ≠ .operator "^" ∧ n ≠ .operator "/" ∧ ∀ operand ∈ operands n, isOperatorLeaf operand = false

theorem isSettled_of_not_leaf {n : Node} (h : ∀ kind text, n ≠ .leaf kind text)
    (hoperands : ∀ operand ∈ operands n, isOperatorLeaf operand = false) : IsSettled n :=
  ⟨h _ _, h _ _, hoperands⟩

theorem isSettled_row {kind : RowKind} {items : List Node}
    (h : ∀ n ∈ items, ∀ x ∈ n.preorder, IsSettled x) :
    ∀ x ∈ (Node.row kind items).preorder, IsSettled x := by
  intro x hx
  rw [Node.preorder] at hx
  rcases List.mem_cons.1 hx with rfl | hx
  · exact isSettled_of_not_leaf (by simp) (by simp [operands])
  · obtain ⟨n, hn, hx⟩ := mem_preorderRow.1 hx
    exact h n hn x hx

theorem Sound.settled {n : Node} (h : Sound n) : ∀ x ∈ n.preorder, IsSettled x := by
  induction h with
  | @leaf kind text h =>
    intro x hx
    obtain rfl : x = .leaf kind text := by simpa [Node.preorder] using hx
    refine ⟨?_, ?_, by simp [operands]⟩
    · intro heq
      rw [heq] at h
      exact absurd h (by decide)
    · intro heq
      rw [heq] at h
      exact absurd h (by decide)
  | sequence _ ih => exact isSettled_row ih
  | squareRoot _ hop ih =>
    intro x hx
    rw [Node.preorder] at hx
    rcases List.mem_cons.1 hx with rfl | hx
    · exact isSettled_of_not_leaf (by simp) (by simpa [operands] using hop)
    · exact ih x hx
  | pair _ _ hopl hopr ihl ihr =>
    intro x hx
    rw [Node.preorder] at hx
    rcases List.mem_cons.1 hx with rfl | hx
    · exact isSettled_of_not_leaf (by simp) (by simp [operands, hopl, hopr])
    · exact (List.mem_append.1 hx).elim (ihl x) (ihr x)

theorem Sound.proper {n : Node} (h : Sound n) : Code.Proper n := by
  induction h with
  | leaf _ => exact .leaf _ _
  | sequence _ ih => exact .row (by decide) ih
  | squareRoot _ _ ih => exact .unary ih
  | pair _ _ _ _ ihl ihr => exact .binary ihl ihr

/-- **A valid formula is parsed and written.**  It has a tree, in which no operator to fold is left
and no operand or content is an operator, and for which there is code under all options; so a
command that has checked a formula always comes to use its tree. -/
theorem isValid_sound {formula : String} {inputs : List String}
    (h : isValid formula inputs = true) :
    ∃ items, parse formula = .ok (.root items) ∧
      (∀ n ∈ (Node.root items).preorder, IsSettled n) ∧
      (∀ options, ∃ code, Code.emit options (.root items) = .ok code) ∧
      ∀ verbose use, CommandLine.withTree verbose formula inputs use =
        (use (.root items)).after
          (CommandLine.logLines verbose (CommandLine.passLines (analyse formula))) := by
  obtain ⟨items, hparse, hsound⟩ := parse_of_isValid h
  refine ⟨items, hparse, isSettled_row fun n hn => (hsound n hn).settled, ?_, ?_⟩
  · exact (Code.Proper.row (by decide) fun n hn => (hsound n hn).proper).emit
  · -- the command checks the formula again, and its analysis has the tree
    intro verbose use
    rw [parse] at hparse
    rw [CommandLine.withTree, if_neg (by simp [h])]
    dsimp only
    rw [hparse]

theorem isValid_sound_quotient : isValid "-sqrt(a+2)/b^(c-1)" ["a", "b", "c"] = true ∧
    ∃ items, parse "-sqrt(a+2)/b^(c-1)" = .ok (.root items) ∧
      (∀ n ∈ (Node.root items).preorder, IsSettled n) ∧
      (∀ options, ∃ code, Code.emit options (.root items) = .ok code) ∧
      ∀ verbose use, CommandLine.withTree verbose "-sqrt(a+2)/b^(c-1)" ["a", "b", "c"] use =
        (use (.root items)).after
          (CommandLine.logLines verbose (CommandLine.passLines (analyse "-sqrt(a+2)/b^(c-1)"))) := by
  have h : isValid "-sqrt(a+2)/b^(c-1)" ["a", "b", "c"] = true := by decide +kernel
  exact ⟨h, isValid_sound h⟩

end Formulary.Formula
