import Formulary.Proofs.Arithmetic.Prefix
import Formulary.Proofs.Composition
import Mathlib.Data.List.Nodup

/-!
# Fractions in a row of operands

A row that takes turns between operands and the signs of the four operations is written as code
without brackets, also where an operand is a fraction.  A fraction behind `+`, `-` or `*` still counts
as one operand then, since `/` is read from left to right with `*`.  Behind a division it does not: both
of its sides divide what stands before, so that the row is divided by their product and not by their
quotient (`emit_row_reads`).
-/

namespace Formulary.Arithmetic

open Code

/-! ## 1. Rows -/

/-- A name or a number that is one word of code. -/
structure WordLeaf where
  kind : LeafKind
  text : String
  isOperand : kind = .identifier ∨ kind = .number
  isWord : isCodeName text = true

/-- An operand of a row: a leaf, or a fraction of two leaves. -/
inductive RowOperand where
  | leaf (x : WordLeaf)
  | fraction (left right : WordLeaf)

/-- A sign that is written as one of the four operations. -/
structure RowSign where
  symbol : String
  isSign : codeSymbol symbol ∈ ["+", "-", "*", "/"]

/-- A row that begins and ends with an operand, with a sign between any two of them. -/
structure OperandRow where
  first : RowOperand
  rest : List (RowSign × RowOperand)

def WordLeaf.word (o : Options) (x : WordLeaf) : String :=
  if x.kind = .number then x.text ++ o.numberSuffix else x.text

def WordLeaf.node (x : WordLeaf) : Node :=
  .leaf x.kind x.text

namespace RowOperand

def node : RowOperand → Node
  | leaf x => x.node
  | fraction left right => .binary .fraction left.node right.node

def leafWords (o : Options) : RowOperand → List String
  | leaf x => [x.word o]
  | fraction left right => [left.word o, right.word o]

def words (o : Options) : RowOperand → List String
  | leaf x => [x.word o]
  | fraction left right => [left.word o, "/", right.word o]

/-- The value of an operand as a unit. -/
def value (o : Options) (v : String → ℚ) : RowOperand → ℚ
  | leaf x => v (x.word o)
  | fraction left right => v (left.word o) / v (right.word o)

/-- What is divided by where the words of an operand follow a division: the two sides of a fraction,
one after the other. -/
def divisor (o : Options) (v : String → ℚ) : RowOperand → ℚ
  | leaf x => v (x.word o)
  | fraction left right => v (left.word o) * v (right.word o)

end RowOperand

def RowSign.node (s : RowSign) : Node :=
  .operator s.symbol

def RowSign.word (s : RowSign) : String :=
  codeSymbol s.symbol

namespace OperandRow

def nodes (row : OperandRow) : List Node :=
  row.first.node :: row.rest.flatMap fun item => [item.1.node, item.2.node]

def words (o : Options) (row : OperandRow) : List String :=
  row.first.words o ++ row.rest.flatMap fun item => item.1.word :: item.2.words o

def leafWords (o : Options) (row : OperandRow) : List String :=
  row.first.leafWords o ++ row.rest.flatMap fun item => item.2.leafWords o

end OperandRow

/-! ## 2. Values of rows -/

/-- A row that has been evaluated up to some operand: the product that is collected, and what the terms
before it make of it. -/
structure Tally where
  sum : ℚ → ℚ
  product : ℚ

namespace Tally

/-- The next operand: `*` and `/` go on with the product, `+` and `-` begin another. -/
def take (t : Tally) (sign : String) (x : ℚ) : Tally :=
  if sign = "*" then { t with product := t.product * x }
  else if sign = "/" then { t with product := t.product / x }
  else if sign = "+" then ⟨fun y => t.sum t.product + y, x⟩
  else ⟨fun y => t.sum t.product - y, x⟩

def total (t : Tally) : ℚ :=
  t.sum t.product

def takeAll (t : Tally) (rest : List (String × ℚ)) : Tally :=
  rest.foldl (fun t item => t.take item.1 item.2) t

-- a quotient that is multiplied or added is a quotient of the whole; one that is divided by is not
theorem take_over (t : Tally) (sign : String) (x y : ℚ) :
    (t.take sign x).take "/" y = t.take sign (if sign = "/" then x * y else x / y) := by
  rw [take, if_neg (by decide), if_pos rfl]
  by_cases htimes : sign = "*"
  · subst htimes
    simp [take, mul_div_assoc]
  · by_cases hover : sign = "/"
    · subst hover
      simp [take, div_div]
    · by_cases hplus : sign = "+" <;> simp [take, htimes, hover, hplus]

end Tally

/-- What an operand counts for behind its sign: its value, unless it is divided by. -/
def factor (o : Options) (v : String → ℚ) (item : RowSign × RowOperand) : ℚ :=
  if item.1.word = "/" then item.2.divisor o v else item.2.value o v

namespace OperandRow

/-- The value of a row in which every operand is a unit. -/
def value (o : Options) (v : String → ℚ) (row : OperandRow) : ℚ :=
  (Tally.takeAll ⟨id, row.first.value o v⟩
    (row.rest.map fun item => (item.1.word, item.2.value o v))).total

/-- The value of a row in which behind a division every leaf is divided by. -/
def valueAsWritten (o : Options) (v : String → ℚ) (row : OperandRow) : ℚ :=
  (Tally.takeAll ⟨id, row.first.value o v⟩
    (row.rest.map fun item => (item.1.word, factor o v item))).total

/-- No fraction stands directly behind a division. -/
def Undivided (row : OperandRow) : Prop :=
  ∀ item ∈ row.rest, item.1.word = "/" → ∃ x, item.2 = .leaf x

end OperandRow

/-! ## 3. The code of a row -/

section

variable (o : Options)

theorem WordLeaf.isCodeName_word (x : WordLeaf) : isCodeName (x.word o) = true := by
  unfold word
  split
  · refine isCodeName_extend x.isWord ?_
    unfold Options.numberSuffix
    split
    · cases o.numericType <;> decide
    · rfl
  · exact x.isWord

theorem WordLeaf.printed_node (power : String → String → String) (after : Bool) (x : WordLeaf) :
    printed o power after x.node = textOf [x.word o] := by
  rw [textOf_singleton (ne_comma_of_isCodeName (x.isCodeName_word o)), node, word]
  rcases x.isOperand with hkind | hkind <;> rw [hkind, printed] <;> rfl

theorem WordLeaf.isAtomic_node (x : WordLeaf) : isAtomic x.node = true := by
  rcases x.isOperand with hkind | hkind <;> rw [node, hkind] <;> rfl

theorem RowOperand.printed_node (power : String → String → String) (x : RowOperand) :
    printed o power false x.node = textOf (x.words o) := by
  cases x with
  | leaf x => exact x.printed_node o power false
  | fraction left right =>
    have hwords : words o (.fraction left right) = [left.word o] ++ (["/"] ++ [right.word o]) := rfl
    have hsign : textOf ["/"] = "/" := textOf_singleton (by decide)
    rw [hwords, textOf_append, textOf_append, hsign, node, printed, operandText, operandText,
      if_pos left.isAtomic_node, if_pos right.isAtomic_node, left.printed_node, right.printed_node,
      String.append_assoc]
    exact String.empty_append

theorem RowSign.ne_of_not_mem (s : RowSign) {symbol : String}
    (h : codeSymbol symbol ∉ ["+", "-", "*", "/"]) : s.symbol ≠ symbol := by
  intro heq
  exact h (heq ▸ s.isSign)

theorem RowSign.printed_node (power : String → String → String) (after : Bool) (s : RowSign) :
    printed o power after s.node = textOf [s.word] := by
  have hopen : s.symbol ≠ "(" := s.ne_of_not_mem (by decide)
  have hcomma : s.word ≠ "," := by
    intro hword
    exact absurd s.isSign (by rw [show codeSymbol s.symbol = "," from hword]; decide)
  rw [node, printed, beq_eq_false_iff_ne.2 hopen, Bool.and_false, textOf_singleton hcomma]
  exact String.empty_append

-- behind a sign there is no value, so that no `*` is put in front of a fraction
theorem RowSign.seenAll_trail (after : Bool) (s : RowSign) :
    Context.seenAll after (trail s.node) = false := by
  have hclose : s.symbol ≠ ")" := s.ne_of_not_mem (by decide)
  rw [node, trail, Context.seenAll_cons, Context.seenAll_nil, Context.seen_operator]
  exact beq_eq_false_iff_ne.2 hclose

theorem printedRow_rest (power : String → String → String) (after : Bool)
    (rest : List (RowSign × RowOperand)) :
    printedRow o power after (rest.flatMap fun item => [item.1.node, item.2.node]) =
      textOf (rest.flatMap fun item => item.1.word :: item.2.words o) := by
  induction rest generalizing after with
  | nil => rw [List.flatMap_nil, List.flatMap_nil, printedRow]; rfl
  | cons item rest ih =>
    have hwords : item.1.word :: item.2.words o = [item.1.word] ++ item.2.words o := rfl
    rw [List.flatMap_cons, List.flatMap_cons, hwords, textOf_append, textOf_append,
      String.append_assoc, List.cons_append, List.cons_append, List.nil_append, printedRow,
      printedRow, item.1.printed_node, item.1.seenAll_trail, item.2.printed_node, ih]

/-- The code of a row is made of its words. -/
theorem OperandRow.emit_nodes (row : OperandRow) :
    emit o (.sequence row.nodes) = .ok (textOf (row.words o)) := by
  have hleaf (x : WordLeaf) : Proper x.node ∧ Rootless x.node :=
    ⟨.leaf _ _, by simp [WordLeaf.node, Rootless, Node.preorder]⟩
  have hoperand (x : RowOperand) : Proper x.node ∧ Rootless x.node := by
    cases x with
    | leaf x => exact hleaf x
    | fraction left right =>
      refine ⟨.binary (hleaf left).1 (hleaf right).1, ?_⟩
      simp [RowOperand.node, WordLeaf.node, Rootless, Node.preorder]
  have hsign (s : RowSign) : Proper s.node ∧ Rootless s.node :=
    ⟨.leaf _ _, by simp [RowSign.node, Rootless, Node.preorder]⟩
  have hnodes : ∀ n ∈ row.nodes, Proper n ∧ Rootless n := by
    intro n hn
    rcases List.mem_cons.1 hn with rfl | hn
    · exact hoperand row.first
    · obtain ⟨item, -, hn⟩ := List.mem_flatMap.1 hn
      rcases List.mem_pair.1 hn with rfl | rfl
      · exact hsign item.1
      · exact hoperand item.2
  rw [emit, emitIn_fresh (.row (by decide) fun n hn => (hnodes n hn).1)
    (rootless_row (by decide) fun n hn => (hnodes n hn).2), printed, nodes, printedRow,
    row.first.printed_node, printedRow_rest, ← textOf_append]
  rfl

end

/-! ## 4. Reading the code -/

theorem RowSign.isSymbol_word (s : RowSign) : isSymbol s.word = true := by
  have h := s.isSign
  rw [← word] at h
  simp only [List.mem_cons, List.not_mem_nil, or_false] at h
  rcases h with h | h | h | h <;> rw [h] <;> decide

theorem RowOperand.separate_words (o : Options) (x : RowOperand) : Separate (x.words o) := by
  cases x with
  | leaf x => exact .singleton (x.isCodeName_word o)
  | fraction left right =>
    exact (Separate.singleton (left.isCodeName_word o)).join (by decide)
      (.singleton (right.isCodeName_word o))

theorem OperandRow.separate_words (o : Options) (row : OperandRow) : Separate (row.words o) := by
  have key (rest : List (RowSign × RowOperand)) {front : List String} (h : Separate front) :
      Separate (front ++ rest.flatMap fun item => item.1.word :: item.2.words o) := by
    induction rest generalizing front with
    | nil => rwa [List.flatMap_nil, List.append_nil]
    | cons item rest ih =>
      rw [List.flatMap_cons, ← List.append_assoc]
      exact ih (h.join item.1.isSymbol_word (item.2.separate_words o))
  exact key row.rest (row.first.separate_words o)

/-- The roles of the words in code without calls. -/
def signRules (value : String → ℚ) : Rules :=
  { codeRules "Math.Pow" value (fun x _ => x) with call := fun _ => none }

theorem signRules_ofCode (value : String → ℚ) : (signRules value).OfCode := by
  have h : (codeRules "Math.Pow" value fun x _ => x).OfCode := codeRules_ofCode (by decide) value _
  exact { h with clear := { h.clear with call := by simp [signRules] } }

section

variable {R : Rules} {words ws : List String} {t : Tally} {x : ℚ}

/-- The words come to the tally: the product that is collected stands at their end. -/
def Reaches (R : Rules) (words : List String) (t : Tally) : Prop :=
  ∃ adds, Complete R adds words { sum := t.sum } t.product

theorem Reaches.sum (h : Reaches R words t) : Reads R .sum words t.total := by
  obtain ⟨adds, h⟩ := h
  exact h.sum

/-- A sign and an atom go on with the tally. -/
theorem Reaches.take (hR : R.OfCode) (h : Reaches R words t) {sign : String}
    (hsign : sign ∈ ["+", "-", "*", "/"]) (hx : Reads R .atom ws x) :
    Reaches R (words ++ sign :: ws) (t.take sign x) := by
  obtain ⟨adds, h⟩ := h
  rw [← List.singleton_append, ← List.append_assoc]
  simp only [List.mem_cons, List.not_mem_nil, or_false] at hsign
  rcases hsign with rfl | rfl | rfl | rfl
  · exact ⟨true, h.sum.starts_plus.opened.complete hx.ofAtomProduct⟩
  · exact ⟨true, h.sum.opened_minus.complete hx.ofAtomProduct⟩
  · exact ⟨adds, (h.times hR).complete hx.ofAtomProduct⟩
  · exact ⟨adds, (h.over hR).complete hx⟩

end

section

variable (o : Options) (value : String → ℚ)

theorem WordLeaf.reads (x : WordLeaf) :
    Reads (signRules value) .atom [x.word o] (value (x.word o)) :=
  .operand (if_pos (x.isCodeName_word o))

theorem Reaches.takeOperand {words : List String} {t : Tally} (h : Reaches (signRules value) words t)
    (item : RowSign × RowOperand) : Reaches (signRules value) (words ++ item.1.word :: item.2.words o)
      (t.take item.1.word (factor o value item)) := by
  have hR := signRules_ofCode value
  obtain ⟨s, x⟩ := item
  unfold factor
  cases x with
  | leaf x =>
    have hx := h.take hR s.isSign (x.reads o value)
    rwa [RowOperand.divisor, RowOperand.value, ite_self]
  | fraction left right =>
    have hleft := h.take hR s.isSign (left.reads o value)
    have hright := hleft.take hR (by decide : "/" ∈ _) (right.reads o value)
    rw [Tally.take_over, List.append_assoc] at hright
    exact hright

theorem Reaches.first (x : RowOperand) :
    Reaches (signRules value) (x.words o) ⟨id, x.value o value⟩ := by
  have hleaf (x : WordLeaf) : Reaches (signRules value) [x.word o] ⟨id, value (x.word o)⟩ :=
    ⟨false, starts_nil.opened.complete (x.reads o value).ofAtomProduct⟩
  cases x with
  | leaf x => exact hleaf x
  | fraction left right =>
    exact (hleaf left).take (signRules_ofCode value) (by decide) (right.reads o value)

theorem Reaches.takeAll {words : List String} {t : Tally} (h : Reaches (signRules value) words t)
    (rest : List (RowSign × RowOperand)) : Reaches (signRules value)
      (words ++ rest.flatMap fun item => item.1.word :: item.2.words o)
      (t.takeAll (rest.map fun item => (item.1.word, factor o value item))) := by
  induction rest generalizing words t with
  | nil => rwa [List.flatMap_nil, List.append_nil]
  | cons item rest ih =>
    rw [List.flatMap_cons, ← List.append_assoc]
    exact ih (h.takeOperand o value item)

/-- The words of a row have one value. -/
theorem OperandRow.reads_words_iff (row : OperandRow) (v : ℚ) :
    Reads (signRules value) .sum (row.words o) v ↔ v = row.valueAsWritten o value := by
  have hreads : Reads (signRules value) .sum (row.words o) (row.valueAsWritten o value) :=
    ((Reaches.first o value row.first).takeAll o value row.rest).sum
  constructor
  · exact fun h => h.unique (signRules_ofCode value).clear hreads
  · rintro rfl
    exact hreads

end

/-! ## 5. Fractions behind a division -/

/-- As long as no fraction is divided by, the row has its value. -/
theorem OperandRow.Undivided.valueAsWritten {row : OperandRow} (h : row.Undivided) (o : Options)
    (value : String → ℚ) : row.valueAsWritten o value = row.value o value := by
  have hfactor : ∀ item ∈ row.rest, factor o value item = item.2.value o value := by
    intro item hitem
    unfold factor
    split
    · next hover =>
      obtain ⟨x, hx⟩ := h item hitem hover
      rw [hx, RowOperand.divisor, RowOperand.value]
    · rfl
  rw [OperandRow.valueAsWritten, OperandRow.value,
    List.map_congr_left fun item hitem => by rw [hfactor item hitem]]

namespace Tally

variable {sum : ℚ → ℚ} {rest : List (String × ℚ)} {x : ℚ}

/-- A sign and an operand that is not zero change the product alone, or leave the product behind in the
sum. -/
theorem take_cases (sum : ℚ → ℚ) (sign : String) (hx : x ≠ 0) :
    (∃ f : ℚ → ℚ, f.Injective ∧ (∀ p, p ≠ 0 → f p ≠ 0) ∧ ∀ p, take ⟨sum, p⟩ sign x = ⟨sum, f p⟩) ∨
      ∃ f : ℚ → ℚ, f.Injective ∧ ∀ p, take ⟨sum, p⟩ sign x = ⟨fun y => sum p + f y, x⟩ := by
  by_cases htimes : sign = "*"
  · exact .inl ⟨(· * x), mul_left_injective₀ hx, fun p hp => mul_ne_zero hp hx,
      fun p => by simp [take, htimes]⟩
  · by_cases hover : sign = "/"
    · exact .inl ⟨(· / x), fun _ _ => (div_left_inj' hx).1, fun p hp => div_ne_zero hp hx,
        fun p => by simp [take, hover]⟩
    · by_cases hplus : sign = "+"
      · exact .inr ⟨id, Function.injective_id, fun p => by simp [take, hplus]⟩
      · exact .inr ⟨(- ·), neg_injective, fun p => by
          simp [take, htimes, hover, hplus, sub_eq_add_neg]⟩

-- what is added in front of a sum is added to the total
theorem total_takeAll_add (c : ℚ) (sum : ℚ → ℚ) (product : ℚ) (rest : List (String × ℚ)) :
    (takeAll ⟨fun y => c + sum y, product⟩ rest).total = c + (takeAll ⟨sum, product⟩ rest).total := by
  have htake (sum : ℚ → ℚ) (product : ℚ) (sign : String) (x : ℚ) :
      take ⟨fun y => c + sum y, product⟩ sign x =
        ⟨fun y => c + (take ⟨sum, product⟩ sign x).sum y, (take ⟨sum, product⟩ sign x).product⟩ := by
    unfold take
    split_ifs <;> simp [add_assoc, add_sub_assoc]
  induction rest generalizing sum product with
  | nil => rfl
  | cons item rest ih =>
    show (takeAll (take _ _ _) rest).total = c + (takeAll (take _ _ _) rest).total
    rw [htake, ih]

/-- Different products make different totals, if no operand behind them is zero. -/
theorem total_takeAll_injective (hsum : sum.Injective) (hrest : ∀ item ∈ rest, item.2 ≠ 0) :
    Function.Injective fun product => (takeAll ⟨sum, product⟩ rest).total := by
  induction rest with
  | nil => exact hsum
  | cons item rest ih =>
    obtain ⟨hitem, hrest⟩ := List.forall_mem_cons.1 hrest
    intro p q hpq
    replace hpq : (takeAll (take ⟨sum, p⟩ item.1 item.2) rest).total =
      (takeAll (take ⟨sum, q⟩ item.1 item.2) rest).total := hpq
    obtain ⟨f, hf, -, htake⟩ | ⟨f, -, htake⟩ := take_cases sum item.1 hitem
    · rw [htake, htake] at hpq
      exact hf (ih hrest hpq)
    · rw [htake, htake, total_takeAll_add, total_takeAll_add] at hpq
      exact hsum (add_right_cancel hpq)

theorem takeAll_sound {t : Tally} (hsum : t.sum.Injective) (hproduct : t.product ≠ 0)
    (hrest : ∀ item ∈ rest, item.2 ≠ 0) :
    (t.takeAll rest).sum.Injective ∧ (t.takeAll rest).product ≠ 0 := by
  induction rest generalizing t with
  | nil => exact ⟨hsum, hproduct⟩
  | cons item rest ih =>
    obtain ⟨hitem, hrest⟩ := List.forall_mem_cons.1 hrest
    obtain ⟨sum, product⟩ := t
    show Function.Injective (takeAll (take _ _ _) rest).sum ∧ (takeAll (take _ _ _) rest).product ≠ 0
    obtain ⟨f, -, hf, htake⟩ | ⟨f, hf, htake⟩ := take_cases sum item.1 hitem
    · rw [htake]
      exact ih hsum (hf _ hproduct) hrest
    · rw [htake]
      exact ih ((add_right_injective _).comp hf) hitem hrest

/-- Dividing by different operands makes different totals. -/
theorem eq_of_total_over {t : Tally} (hsum : t.sum.Injective) (hproduct : t.product ≠ 0)
    (hrest : ∀ item ∈ rest, item.2 ≠ 0) {y : ℚ}
    (h : ((t.take "/" x).takeAll rest).total = ((t.take "/" y).takeAll rest).total) : x = y := by
  have hquotient : t.product / x = t.product / y := total_takeAll_injective hsum hrest h
  rw [div_eq_mul_inv, div_eq_mul_inv] at hquotient
  exact inv_injective (mul_left_cancel₀ hproduct hquotient)

end Tally

/-- The value two for one word, and one for all others. -/
def doubled (word other : String) : ℚ :=
  if other = word then 2 else 1

theorem RowOperand.value_doubled {o : Options} {word : String} {x : RowOperand}
    (h : word ∉ x.leafWords o) : x.value o (doubled word) = 1 ∧ x.divisor o (doubled word) = 1 := by
  cases x with
  | leaf x =>
    have hx : x.word o ≠ word := by
      rintro rfl
      exact h (by simp [leafWords])
    simp [value, divisor, doubled, hx]
  | fraction left right =>
    obtain ⟨hleft, hright⟩ : word ≠ left.word o ∧ word ≠ right.word o := by simpa [leafWords] using h
    simp [value, divisor, doubled, hleft.symm, hright.symm]

theorem factor_doubled {o : Options} {word : String} {item : RowSign × RowOperand}
    (h : word ∉ item.2.leafWords o) : factor o (doubled word) item = 1 := by
  obtain ⟨hvalue, hdivisor⟩ := RowOperand.value_doubled h
  rw [factor, hvalue, hdivisor, ite_self]

/-- Operands that all count for one, with their signs. -/
def onesOf (items : List (RowSign × RowOperand)) : List (String × ℚ) :=
  items.map fun item => (item.1.word, 1)

theorem onesOf_ne_zero (items : List (RowSign × RowOperand)) : ∀ item ∈ onesOf items, item.2 ≠ 0 :=
  List.forall_mem_map.2 fun _ _ => one_ne_zero

section

variable {row : OperandRow} {o : Options} {front back : List (RowSign × RowOperand)}
  {item : RowSign × RowOperand}

theorem Tally.takeAll_ones {count : RowSign × RowOperand → ℚ}
    (hfront : ∀ item ∈ front, count item = 1) (hback : ∀ item ∈ back, count item = 1) (t : Tally) :
    t.takeAll ((front ++ item :: back).map fun item => (item.1.word, count item)) =
      ((t.takeAll (onesOf front)).take item.1.word (count item)).takeAll (onesOf back) := by
  have hones {items : List (RowSign × RowOperand)} (h : ∀ item ∈ items, count item = 1) :
      items.map (fun item => (item.1.word, count item)) = onesOf items :=
    List.map_congr_left fun item hitem => by rw [h item hitem]
  rw [List.map_append, List.map_cons, hones hfront, hones hback, takeAll, List.foldl_append,
    List.foldl_cons]
  rfl

/-- A denominator in a row of distinct leaves stands nowhere else. -/
theorem OperandRow.denominator_once {left right : WordLeaf} (hdistinct : (row.leafWords o).Nodup)
    (hrest : row.rest = front ++ item :: back) (hitem : item.2 = .fraction left right) :
    right.word o ∉ row.first.leafWords o ∧ (∀ i ∈ front, right.word o ∉ i.2.leafWords o) ∧
      right.word o ≠ left.word o ∧ ∀ i ∈ back, right.word o ∉ i.2.leafWords o := by
  have hwords : row.leafWords o = (row.first.leafWords o ++
      front.flatMap (fun item => item.2.leafWords o) ++ [left.word o]) ++
        right.word o :: back.flatMap fun item => item.2.leafWords o := by
    rw [leafWords, hrest, List.flatMap_append, List.flatMap_cons, hitem]
    simp [RowOperand.leafWords]
  have honce := (List.nodup_cons.1 (List.nodup_middle.1 (hwords ▸ hdistinct))).1
  simpa [and_assoc] using honce

/-- A fraction that is divided by does not count as a unit for all values of its leaves, unless a leaf
stands in the row more than once. -/
theorem OperandRow.undivided_of_value (hdistinct : (row.leafWords o).Nodup)
    (h : ∀ value, row.valueAsWritten o value = row.value o value) : row.Undivided := by
  intro item hitem hover
  cases hoperand : item.2 with
  | leaf x => exact ⟨x, rfl⟩
  | fraction left right =>
    exfalso
    obtain ⟨front, back, hrest⟩ := List.append_of_mem hitem
    obtain ⟨hfirst, hfront, hleft, hback⟩ := denominator_once hdistinct hrest hoperand
    -- the denominator is two and all other leaves are one, so that only this operand makes a difference
    let value := doubled (right.word o)
    let before := Tally.takeAll ⟨id, 1⟩ (onesOf front)
    have heq := h value
    rw [valueAsWritten, OperandRow.value, (RowOperand.value_doubled hfirst).1, hrest,
      Tally.takeAll_ones (fun i hi => factor_doubled (hfront i hi))
        (fun i hi => factor_doubled (hback i hi)),
      Tally.takeAll_ones (fun i hi => (RowOperand.value_doubled (hfront i hi)).1)
        (fun i hi => (RowOperand.value_doubled (hback i hi)).1), hover] at heq
    obtain ⟨hsum, hproduct⟩ : before.sum.Injective ∧ before.product ≠ 0 :=
      Tally.takeAll_sound Function.injective_id one_ne_zero (onesOf_ne_zero front)
    have hsame : factor o value item = item.2.value o value :=
      Tally.eq_of_total_over hsum hproduct (onesOf_ne_zero back) heq
    -- but the product of the two leaves is two, and their quotient is a half
    rw [factor, if_pos hover, hoperand, RowOperand.divisor, RowOperand.value] at hsame
    simp only [value, doubled, if_neg (Ne.symm hleft), if_pos] at hsame
    exact absurd hsame (by decide +kernel)

end

/-! ## 6. Rows in code -/

/-- **When a fraction is one operand of its row.**  The code of a row of operands has one value, for all
values of its words: that of the row in which behind a division both sides of a fraction are divided by.
This is the value of the row with every fraction as a unit if no fraction stands directly behind a
division; and if no leaf stands in the row twice, only then. -/
theorem emit_row_reads (o : Options) (row : OperandRow) :
    ∃ code, emit o (.sequence row.nodes) = .ok code ∧
      (∀ value v, Reads (signRules value) .sum (lexemes code.toList) v ↔
        v = row.valueAsWritten o value) ∧
      (row.Undivided → ∀ value,
        Reads (signRules value) .sum (lexemes code.toList) (row.value o value)) ∧
      ((row.leafWords o).Nodup →
        (∀ value, Reads (signRules value) .sum (lexemes code.toList) (row.value o value)) →
          row.Undivided) := by
  have hreads (value : String → ℚ) (v : ℚ) : Reads (signRules value) .sum
      (lexemes (textOf (row.words o)).toList) v ↔ v = row.valueAsWritten o value := by
    rw [lexemes_textOf (row.separate_words o)]
    exact row.reads_words_iff o value v
  refine ⟨textOf (row.words o), row.emit_nodes o, hreads, fun h value => ?_, fun hdistinct h => ?_⟩
  · exact (hreads value _).2 (h.valueAsWritten o value).symm
  · exact OperandRow.undivided_of_value hdistinct fun value => ((hreads value _).1 (h value)).symm

def nameLeaf (name : String) (h : isCodeName name = true) : WordLeaf :=
  ⟨.identifier, name, .inl rfl, h⟩

def fractionOperand : RowOperand :=
  .fraction (nameLeaf "b" (by decide)) (nameLeaf "c" (by decide))

/-- The row `a×(b/c)−2`, which is written as `a*b/c-2`. -/
def multipliedFraction : OperandRow where
  first := .leaf (nameLeaf "a" (by decide))
  rest := [(⟨"\u00D7", by decide⟩, fractionOperand),
    (⟨"\u2212", by decide⟩, .leaf ⟨.number, "2", .inr rfl, by decide⟩)]

theorem emit_row_reads_multiplied : multipliedFraction.Undivided ∧
    (multipliedFraction.leafWords {}).Nodup ∧
    ∃ code, emit {} (.sequence multipliedFraction.nodes) = .ok code ∧ ∀ value,
      Reads (signRules value) .sum (lexemes code.toList) (multipliedFraction.value {} value) := by
  have hundivided : multipliedFraction.Undivided := by
    simp [OperandRow.Undivided, multipliedFraction, RowSign.word, codeSymbol]
  obtain ⟨code, hcode, -, hunits, -⟩ := emit_row_reads {} multipliedFraction
  exact ⟨hundivided, by decide, code, hcode, hunits hundivided⟩

/-- The row `a/(b/c)`, which is written as `a/b/c`. -/
def dividedFraction : OperandRow where
  first := .leaf (nameLeaf "a" (by decide))
  rest := [(⟨"/", by decide⟩, fractionOperand)]

/-- A fraction behind a division is not one operand of its row. -/
theorem not_emit_row_reads : ¬∀ (row : OperandRow) (code : String) (value : String → ℚ),
    emit {} (.sequence row.nodes) = .ok code →
      Reads (signRules value) .sum (lexemes code.toList) (row.value {} value) := by
  intro hall
  have hreads := hall dividedFraction (textOf (dividedFraction.words {})) (doubled "c")
    (dividedFraction.emit_nodes {})
  rw [lexemes_textOf (dividedFraction.separate_words {}), OperandRow.reads_words_iff] at hreads
  exact absurd hreads (by decide +kernel)

example : emit {} (.sequence multipliedFraction.nodes) = .ok "a*b/c-2" := by
  decide +kernel

example : emit {} (.sequence dividedFraction.nodes) = .ok "a/b/c" := by
  decide +kernel

end Formulary.Arithmetic
