import Formulary.Proofs.Parsing
import Mathlib.Algebra.Ring.Parity

/-!
# The faults of parsing

Which formulas have no tree, told from their words alone.  A closing bracket that closes nothing is
found first, and the fault names its position.  Otherwise the only fault is an operand that is
missing: in front of the first operator, after the last, between two operators, or after the last of
the function names that end the formula.  Every other formula has a tree (`parse_faults`).
-/

namespace Formulary.Formula

/-! ## 1. Unmatched closing brackets -/

/-- Some first part of the words closes more brackets than it opens. -/
def Overclosed (words : List String) : Prop :=
  ∃ front, front <+: words ∧ front.count "(" < front.count ")"

/-- The token is the first one up to which more brackets are closed than opened. -/
def FirstUnmatched (tokens : List Token) (t : Token) : Prop :=
  ∃ before after, tokens = before ++ t :: after ∧ ¬Overclosed (before.map Token.text) ∧
    ((before ++ [t]).map Token.text).count "(" < ((before ++ [t]).map Token.text).count ")"

theorem countP_isOpening (words : List String) :
    (words.map leafOfWord).countP Node.isOpening = words.count "(" := by
  rw [List.countP_map, List.count]
  apply List.countP_congr
  intro word _
  rw [Function.comp_apply, isOpening_leafOfWord]

theorem countP_isClosing (words : List String) :
    (words.map leafOfWord).countP Node.isClosing = words.count ")" := by
  rw [List.countP_map, List.count]
  apply List.countP_congr
  intro word _
  rw [Function.comp_apply, isClosing_leafOfWord]

-- a depth is the number of brackets opened less the number closed
theorem depthAfter_words {words : List String} {depth : Nat}
    (h : depthAfter 0 (words.map leafOfWord) = some depth) :
    words.count "(" = depth + words.count ")" := by
  have hcount := depthAfter_count h
  rw [countP_isOpening, countP_isClosing] at hcount
  omega

/-- The depth exists exactly if no first part of the words closes more brackets than it opens. -/
theorem depthAfter_eq_none_iff_overclosed {words : List String} :
    depthAfter 0 (words.map leafOfWord) = none ↔ Overclosed words := by
  rw [← not_iff_not, ← ne_eq, Option.ne_none_iff_exists', exists_depthAfter_iff]
  constructor
  · rintro h ⟨front, hfront, hcount⟩
    have hle := h (front.map leafOfWord) (hfront.map _)
    rw [countP_isOpening, countP_isClosing] at hle
    omega
  · intro h leaves hleaves
    obtain ⟨front, hfront, rfl⟩ := List.prefix_map_iff.1 hleaves
    rw [countP_isOpening, countP_isClosing]
    by_contra hlt
    exact h ⟨front, hfront, by omega⟩

-- the first unmatched closing bracket is the one at which the depth is lost
theorem firstUnmatched_iff {tokens : List Token} {t : Token} :
    FirstUnmatched tokens t ↔ ∃ before after, tokens = before ++ t :: after ∧ t.text = ")" ∧
      depthAfter 0 ((before.map Token.text).map leafOfWord) = some 0 := by
  constructor
  · rintro ⟨before, after, rfl, hfree, hcount⟩
    rw [← depthAfter_eq_none_iff_overclosed, ← ne_eq, Option.ne_none_iff_exists'] at hfree
    obtain ⟨depth, hdepth⟩ := hfree
    have hbefore := depthAfter_words hdepth
    rw [List.map_append, List.count_append, List.count_append] at hcount
    -- the token adds one closing bracket, and finds none open
    have hclose : t.text = ")" := by
      by_contra hne
      have hzero : ([t].map Token.text).count ")" = 0 :=
        List.count_eq_zero.2 (by simpa using fun h => hne h.symm)
      omega
    have hone : ([t].map Token.text).count ")" ≤ 1 := List.count_le_length
    obtain rfl : depth = 0 := by omega
    exact ⟨before, after, rfl, hclose, hdepth⟩
  · rintro ⟨before, after, rfl, hclose, hzero⟩
    have hbefore := depthAfter_words hzero
    refine ⟨before, after, rfl, ?_, ?_⟩
    · rw [← depthAfter_eq_none_iff_overclosed, hzero]
      simp
    · rw [List.map_append, List.count_append, List.count_append, List.map_singleton, hclose]
      simp
      omega

theorem exists_firstUnmatched_iff {tokens : List Token} :
    (∃ t, FirstUnmatched tokens t) ↔ Overclosed (tokens.map Token.text) := by
  rw [← depthAfter_eq_none_iff_overclosed, depthAfter_eq_none_iff]
  constructor
  · rintro ⟨t, h⟩
    obtain ⟨before, after, rfl, hclose, hzero⟩ := firstUnmatched_iff.1 h
    refine ⟨_, leafOfWord t.text, _, by rw [List.map_append, List.map_append]; rfl, ?_, hzero⟩
    rw [isClosing_leafOfWord, hclose]
    rfl
  · rintro ⟨front, closing, rest, hsplit, hclose, hzero⟩
    rw [List.map_map] at hsplit
    obtain ⟨before, more, rfl, rfl, hmore⟩ := List.map_eq_append_iff.1 hsplit
    obtain ⟨t, after, rfl, rfl, -⟩ := List.map_eq_cons_iff.1 hmore
    rw [Function.comp_apply, isClosing_leafOfWord, beq_iff_eq] at hclose
    exact ⟨t, firstUnmatched_iff.2 ⟨before, after, rfl, hclose, by rw [List.map_map, hzero]⟩⟩

/-- Grouping reports the position of the first unmatched closing bracket. -/
theorem groupedRow_of_firstUnmatched {formula : String} {t : Token}
    (h : FirstUnmatched (Token.scan formula) t) :
    groupedRow formula = .error (.unmatchedClosing (some (t.position : Int))) := by
  obtain ⟨before, after, htokens, hclose, hzero⟩ := firstUnmatched_iff.1 h
  have hposition : ((Token.scan formula).map fun t => (t.position : Int))[0 + before.length]? =
      some (t.position : Int) := by
    rw [htokens, Nat.zero_add, List.map_append, List.map_cons,
      List.getElem?_append_right (by rw [List.length_map]), List.length_map, Nat.sub_self]
    rfl
  have hpositions : ((Token.scan formula).map fun t => (t.position : Int)).isEmpty = false := by
    rw [htokens, List.map_append]
    simp
  have hbracket : (leafOfWord t.text).isClosing = true := by
    rw [isClosing_leafOfWord, hclose]
    rfl
  have hdepth : depthAfter ([] : List (List Node)).length
      ((before.map Token.text).map leafOfWord) = some 0 := hzero
  -- the positions stay as they are while the tokens are taken apart
  rw [groupedRow, leaves_scan, Token.words, group]
  generalize ((Token.scan formula).map fun t => (t.position : Int)) = positions at *
  rw [htokens, List.map_append, List.map_append, List.map_cons, List.map_cons,
    groupFrom_eq_error hbracket hdepth, List.length_map, List.length_map, unmatchedAt, positionAt,
    hpositions, hposition]
  rfl

theorem exists_groupedRow {formula : String} (h : ¬Overclosed (Token.words formula)) :
    ∃ row, groupedRow formula = .ok row := by
  rw [← depthAfter_eq_none_iff_overclosed, ← ne_eq, Option.ne_none_iff_exists'] at h
  obtain ⟨depth, hdepth⟩ := h
  rw [groupedRow, leaves_scan, group]
  exact groupFrom_eq_ok hdepth

/-! ## 2. Missing operands -/

/-- An operator or a function name among the words lacks an operand. -/
inductive Dangles : List String → Prop
  | first {op : String} {rest : List String} (h : Symbol.isBinding op = true) :
      Dangles (op :: rest)
  | last {op : String} {front : List String} (h : Symbol.isBinding op = true) :
      Dangles (front ++ [op])
  | twice {op op' : String} {front rest : List String} (h : Symbol.isBinding op = true)
      (h' : Symbol.isBinding op' = true) : Dangles (front ++ op :: op' :: rest)
  /-- Each of the names that end the formula takes the next one as its operand, unless an operator
  has taken the first of them. -/
  | name {words : List String} (h : Odd (looseNames Symbol.isFunction Symbol.isBinding words)) :
      Dangles words

theorem binding?_leafOfWord_eq_none_iff {word : String} :
    binding? (leafOfWord word) = none ↔ Symbol.isBinding word = false := by
  rw [← isSome_binding?_leafOfWord, Option.isSome_eq_false_iff, Option.isNone_iff_eq_none]

theorem looseNames_leaves (words : List String) :
    looseNames isName isBinding (words.map leafOfWord) =
      looseNames Symbol.isFunction Symbol.isBinding words := by
  have hname : isName ∘ leafOfWord = Symbol.isFunction :=
    funext isSome_functionName?_leafOfWord
  have hbinding : isBinding ∘ leafOfWord = Symbol.isBinding :=
    funext isSome_binding?_leafOfWord
  rw [looseNames_map, hname, hbinding]

/-- The words hold no dangling operator or name exactly if their leaves fit and their names
pair up. -/
theorem not_dangles_iff {words : List String} : ¬Dangles words ↔
    Fit false (words.map leafOfWord) ∧
      Even (looseNames isName isBinding (words.map leafOfWord)) := by
  rw [looseNames_leaves]
  constructor
  · -- each part of `Fit` excludes one way to dangle
    intro h
    refine ⟨⟨fun _ a ha => ?_, fun a ha => ?_, ?_⟩, ?_⟩
    · rw [List.head?_map, Option.mem_map] at ha
      obtain ⟨word, hword, rfl⟩ := ha
      rw [binding?_leafOfWord_eq_none_iff, ← Bool.not_eq_true]
      intro hb
      obtain ⟨rest, rfl⟩ := List.head?_eq_some_iff.1 hword
      exact h (.first hb)
    · rw [List.getLast?_map, Option.mem_map] at ha
      obtain ⟨word, hword, rfl⟩ := ha
      rw [binding?_leafOfWord_eq_none_iff, ← Bool.not_eq_true]
      intro hb
      obtain ⟨front, rfl⟩ := List.getLast?_eq_some_iff.1 hword
      exact h (.last hb)
    · rw [List.isChain_map, List.isChain_iff_forall_rel_of_append_cons_cons]
      rintro a b front rest rfl
      rw [Apart, binding?_leafOfWord_eq_none_iff, binding?_leafOfWord_eq_none_iff]
      by_contra hboth
      rw [not_or, Bool.not_eq_false, Bool.not_eq_false] at hboth
      exact h (.twice hboth.1 hboth.2)
    · rw [← Nat.not_odd_iff_even]
      exact fun hodd => h (.name hodd)
  · rintro ⟨hfit, heven⟩ h
    cases h with
    | first hb =>
      have := hfit.head rfl _ rfl
      rw [binding?_leafOfWord_eq_none_iff, hb] at this
      exact absurd this (by decide)
    | last hb =>
      have := hfit.last _ (by rw [List.map_append, List.map_singleton, List.getLast?_concat]; rfl)
      rw [binding?_leafOfWord_eq_none_iff, hb] at this
      exact absurd this (by decide)
    | twice hb hb' =>
      have happart := hfit.apart
      rw [List.isChain_map, List.isChain_iff_forall_rel_of_append_cons_cons] at happart
      have := happart rfl
      rw [Apart, binding?_leafOfWord_eq_none_iff, binding?_leafOfWord_eq_none_iff, hb, hb'] at this
      exact absurd this (by decide)
    | name hodd => exact Nat.not_even_iff_odd.2 hodd heven

/-! ## 3. The faults of a formula -/

/-- The fault is that of an operator or of a function name without an operand. -/
def Fault.IsDangling (fault : Fault) : Prop :=
  (∃ symbol, fault = .danglingOperator symbol) ∨ ∃ label, fault = .danglingFunction label

/-- A grouped formula has a tree if nothing dangles, and a dangling fault otherwise. -/
theorem parse_of_groupedRow {formula : String} {row : List Node}
    (hrow : groupedRow formula = .ok row) :
    (¬Dangles (Token.words formula) ∧ ∃ items, parse formula = .ok (.root items)) ∨
      (Dangles (Token.words formula) ∧ ∃ fault, parse formula = .error fault ∧
        fault.IsDangling) := by
  obtain ⟨hreading, hgrouped⟩ := groupedRow_spec hrow
  have hfold := hgrouped.folded_iff
  have hdangles : ¬Dangles (Token.words formula) ↔ _ := not_dangles_iff
  rw [← hreading] at hdangles
  cases hout : foldedFrom [] row with
  | none =>
    obtain ⟨kind, hparse⟩ := parse_of_folding hrow hout
    refine .inr ⟨?_, _, hparse, .inl ⟨_, rfl⟩⟩
    by_contra hnot
    obtain ⟨out, hsome⟩ := hfold.2 (hdangles.1 hnot).1
    rw [hout] at hsome
    exact absurd hsome (by simp)
  | some out =>
    have hfunctions := hgrouped.foldFunctions_iff hout
    cases happlied : foldFunctions out with
    | ok applied =>
      obtain ⟨items, hitems⟩ := rootOf_eq (settle applied).nodes
      refine .inl ⟨hdangles.2 ⟨hfold.1 ⟨out, hout⟩, hfunctions.1 ⟨applied, happlied⟩⟩, items, ?_⟩
      rw [parse_of_steps hrow hout happlied, hitems]
    | error fault =>
      obtain ⟨label, rfl⟩ := foldFunctions_fault happlied
      refine .inr ⟨?_, _, parse_of_functions hrow hout happlied, .inr ⟨label, rfl⟩⟩
      by_contra hnot
      obtain ⟨applied, hok⟩ := hfunctions.2 (hdangles.1 hnot).2
      rw [happlied] at hok
      exact absurd hok (by simp)

/-- **The faults of parsing.**  A formula that closes more brackets than it opens has the position of
the first such bracket for its fault; of the others, those with a dangling operator or name have a
dangling fault; all the rest have a tree. -/
theorem parse_faults (formula : String) :
    (∀ position, parse formula = .error (.unmatchedClosing position) ↔
      ∃ t, FirstUnmatched (Token.scan formula) t ∧ position = some (t.position : Int)) ∧
    ((∃ position, parse formula = .error (.unmatchedClosing position)) ↔
      Overclosed (Token.words formula)) ∧
    ((∃ fault, parse formula = .error fault ∧ fault.IsDangling) ↔
      ¬Overclosed (Token.words formula) ∧ Dangles (Token.words formula)) ∧
    ((∃ items, parse formula = .ok (.root items)) ↔
      ¬Overclosed (Token.words formula) ∧ ¬Dangles (Token.words formula)) ∧
    (∀ fault, parse formula = .error fault →
      (∃ position, fault = .unmatchedClosing position) ∨ fault.IsDangling) := by
  have hunmatched : (∃ t, FirstUnmatched (Token.scan formula) t) ↔
      Overclosed (Token.words formula) := exists_firstUnmatched_iff
  -- the three cases exclude each other, and each decides all five statements
  by_cases hover : Overclosed (Token.words formula)
  · obtain ⟨t, ht⟩ := hunmatched.2 hover
    have hparse := parse_of_grouping (groupedRow_of_firstUnmatched ht)
    simp only [hparse, hover]
    refine ⟨fun position => ?_, ?_, ?_, ?_, ?_⟩
    · constructor
      · intro h
        exact ⟨t, ht, by simpa using h.symm⟩
      · rintro ⟨t', ht', rfl⟩
        rw [← hparse, parse_of_grouping (groupedRow_of_firstUnmatched ht')]
    · simp
    · simp [Fault.IsDangling]
    · simp
    · simp
  · have hnone (t : Token) : ¬FirstUnmatched (Token.scan formula) t :=
      fun ht => hover (hunmatched.1 ⟨t, ht⟩)
    obtain ⟨row, hrow⟩ := exists_groupedRow hover
    rcases parse_of_groupedRow hrow with ⟨hfree, items, hparse⟩ | ⟨hdangles, fault, hparse, hkind⟩
    · simp [hparse, hover, hfree, hnone]
    · have hother (position : Option Int) : fault ≠ .unmatchedClosing position := by
        rintro rfl
        simp [Fault.IsDangling] at hkind
      simp [hparse, hover, hdangles, hnone, hkind, hother]

end Formulary.Formula
