import Mathlib.Algebra.Field.Rat

/-!
# Expressions and their values

How a list of words is read as an expression, and the value it has then.  Formulas and code are read
alike, in five levels from the tightest to the loosest, and differ only in the roles of their words
(`Rules`): which words are operands, which operators bind most tightly, which are on the level of
products, and which words are functions of two arguments.

Every list of words has at most one value (`Reads.unique`): a machine that reads the words from left
to right, and holds back what still waits for an operand, comes to that value.
-/

namespace Formulary.Arithmetic

/-! ## 1. Rules and reading -/

/-- The roles of the words of a language of expressions. -/
structure Rules where
  /-- The value of an operand. -/
  operand : String → Option ℚ
  /-- The operators that bind most tightly, from left to right. -/
  tight : String → Option (ℚ → ℚ → ℚ)
  /-- The operators between signed terms, from left to right. -/
  product : String → Option (ℚ → ℚ → ℚ)
  /-- The functions of two arguments. -/
  call : String → Option (ℚ → ℚ → ℚ)

/-- The levels of an expression, from the tightest to the loosest. -/
inductive Level where
  | atom
  | chain
  | signed
  | product
  | sum
  deriving DecidableEq, Repr

/-- The words are an expression of the level, with the given value. -/
inductive Reads (R : Rules) : Level → List String → ℚ → Prop
  | operand {word : String} {v : ℚ} (h : R.operand word = some v) : Reads R .atom [word] v
  | bracket {inner : List String} {v : ℚ} (h : Reads R .sum inner v) :
      Reads R .atom ("(" :: inner ++ [")"]) v
  | call {name : String} {f : ℚ → ℚ → ℚ} {xs ys : List String} {x y : ℚ}
      (h : R.call name = some f) (hx : Reads R .sum xs x) (hy : Reads R .sum ys y) :
      Reads R .atom (name :: "(" :: xs ++ "," :: ys ++ [")"]) (f x y)
  | ofAtom {words : List String} {v : ℚ} (h : Reads R .atom words v) : Reads R .chain words v
  | tight {op : String} {f : ℚ → ℚ → ℚ} {xs ys : List String} {x y : ℚ}
      (h : R.tight op = some f) (hx : Reads R .chain xs x) (hy : Reads R .atom ys y) :
      Reads R .chain (xs ++ op :: ys) (f x y)
  | ofChain {words : List String} {v : ℚ} (h : Reads R .chain words v) : Reads R .signed words v
  | plus {words : List String} {v : ℚ} (h : Reads R .signed words v) :
      Reads R .signed ("+" :: words) v
  | minus {words : List String} {v : ℚ} (h : Reads R .signed words v) :
      Reads R .signed ("-" :: words) (-v)
  | ofSigned {words : List String} {v : ℚ} (h : Reads R .signed words v) :
      Reads R .product words v
  | product {op : String} {f : ℚ → ℚ → ℚ} {xs ys : List String} {x y : ℚ}
      (h : R.product op = some f) (hx : Reads R .product xs x) (hy : Reads R .signed ys y) :
      Reads R .product (xs ++ op :: ys) (f x y)
  | ofProduct {words : List String} {v : ℚ} (h : Reads R .product words v) : Reads R .sum words v
  | add {xs ys : List String} {x y : ℚ} (hx : Reads R .sum xs x) (hy : Reads R .product ys y) :
      Reads R .sum (xs ++ "+" :: ys) (x + y)
  | sub {xs ys : List String} {x y : ℚ} (hx : Reads R .sum xs x) (hy : Reads R .product ys y) :
      Reads R .sum (xs ++ "-" :: ys) (x - y)

/-- The signs and marks have their own roles, and no word has two roles in one place. -/
structure Rules.Clear (R : Rules) : Prop where
  operand : ∀ {word x}, R.operand word = some x → word ≠ "(" ∧ word ≠ "+" ∧ word ≠ "-"
  product : ∀ {word f}, R.product word = some f → R.tight word = none
  mark : ∀ word ∈ ["+", "-", "(", ")", ","], R.tight word = none ∧ R.product word = none
  /-- A function name without arguments could be an operand. -/
  call : ∀ {word f}, R.call word = some f → ∃ x, R.operand word = some x

/-! ## 2. A machine that evaluates -/

/-- What waits for the value of a chain: the sum, the product and the signs to its left. -/
structure Pending where
  sum : ℚ → ℚ := id
  product : ℚ → ℚ := id
  sign : ℚ → ℚ := id

/-- The value of the whole expression if it ends with the given chain. -/
def Pending.total (p : Pending) (t : ℚ) : ℚ :=
  p.sum (p.product (p.sign t))

/-- What the machine looks at: a place where an atom is missing to the chain before it, or the value
of a chain, with what its last word would make of two arguments. -/
inductive Focus where
  | awaiting (chain : ℚ → ℚ)
  | holding (value : ℚ) (call : Option (ℚ → ℚ → ℚ))

/-- An open bracket: it goes on with a value when it is closed, or with a first argument at the
comma. -/
inductive Frame where
  | closing (p : Pending) (resume : ℚ → ℚ)
  | comma (p : Pending) (resume : ℚ → ℚ → ℚ)

/-- The state of the machine. -/
structure State where
  outer : List Frame
  pending : Pending
  focus : Focus

/-- Where an expression inside the given brackets begins. -/
def State.start (outer : List Frame) : State :=
  ⟨outer, {}, .awaiting id⟩

/-- A word where an atom is missing. -/
def atAtom (R : Rules) (outer : List Frame) (p : Pending) (chain : ℚ → ℚ) (word : String) :
    Option State :=
  if word = "(" then some (.start (.closing p chain :: outer))
  else if word = "+" then some ⟨outer, p, .awaiting chain⟩
  else if word = "-" then some ⟨outer, { p with sign := fun x => p.sign (-x) }, .awaiting chain⟩
  else (R.operand word).map fun x =>
    ⟨outer, p, .holding (chain x) ((R.call word).map fun f a b => chain (f a b))⟩

/-- A sign, bracket or comma after an expression. -/
def atMark (outer : List Frame) (total : ℚ) (word : String) : Option State :=
  if word = "+" then some ⟨outer, { sum := fun x => total + x }, .awaiting id⟩
  else if word = "-" then some ⟨outer, { sum := fun x => total - x }, .awaiting id⟩
  else match word, outer with
    | ")", .closing p resume :: outer => some ⟨outer, p, .holding (resume total) none⟩
    | ",", .comma p resume :: outer => some (.start (.closing p (resume total) :: outer))
    | _, _ => none

/-- A word after a chain. -/
def afterChain (R : Rules) (outer : List Frame) (p : Pending) (t : ℚ)
    (call : Option (ℚ → ℚ → ℚ)) (word : String) : Option State :=
  match R.tight word with
  | some f => some ⟨outer, p, .awaiting (f t)⟩
  | none =>
    match R.product word with
    | some f => some ⟨outer, { sum := p.sum, product := f (p.product (p.sign t)) }, .awaiting id⟩
    | none =>
      if word = "(" then call.map fun f => .start (.comma p f :: outer)
      else atMark outer (p.total t) word

/-- One word. -/
def step (R : Rules) (s : State) (word : String) : Option State :=
  match s.focus with
  | .awaiting chain => atAtom R s.outer s.pending chain word
  | .holding t call => afterChain R s.outer s.pending t call word

/-- The machine comes from one state to another over the words. -/
def Runs (R : Rules) (s : State) (words : List String) (s' : State) : Prop :=
  words.foldlM (step R) s = some s'

theorem Runs.nil (R : Rules) (s : State) : Runs R s [] s := rfl

theorem Runs.append {R : Rules} {s s' s'' : State} {xs ys : List String} (hx : Runs R s xs s')
    (hy : Runs R s' ys s'') : Runs R s (xs ++ ys) s'' := by
  rw [Runs, List.foldlM_append, show xs.foldlM (step R) s = some s' from hx]
  exact hy

theorem Runs.cons {R : Rules} {s s' s'' : State} {word : String} {words : List String}
    (h : step R s word = some s') (hs : Runs R s' words s'') : Runs R s (word :: words) s'' := by
  rw [Runs, List.foldlM_cons, h]
  exact hs

/-! ## 3. The machine comes to the value -/

/-- What the machine does with an expression of a level: it holds the last chain of it, and together
with what is pending that makes the value. -/
def Evaluates (R : Rules) : Level → List String → ℚ → Prop
  | .atom, words, v => ∀ outer p chain, ∃ call,
      Runs R ⟨outer, p, .awaiting chain⟩ words ⟨outer, p, .holding (chain v) call⟩
  | .chain, words, v => ∀ outer p, ∃ call,
      Runs R ⟨outer, p, .awaiting id⟩ words ⟨outer, p, .holding v call⟩
  | .signed, words, v => ∀ outer p, ∃ sign t call, sign t = p.sign v ∧
      Runs R ⟨outer, p, .awaiting id⟩ words ⟨outer, { p with sign }, .holding t call⟩
  | .product, words, v => ∀ outer sum, ∃ product sign t call, product (sign t) = v ∧
      Runs R ⟨outer, { sum }, .awaiting id⟩ words
        ⟨outer, { sum, product, sign }, .holding t call⟩
  | .sum, words, v => ∀ outer, ∃ p t call, p.total t = v ∧
      Runs R (.start outer) words ⟨outer, p, .holding t call⟩

section

variable {R : Rules} {xs ys words : List String} {x y v : ℚ} {word : String}

theorem step_operand (hR : R.Clear) (h : R.operand word = some v) (outer : List Frame)
    (p : Pending) (chain : ℚ → ℚ) : step R ⟨outer, p, .awaiting chain⟩ word =
      some ⟨outer, p, .holding (chain v) ((R.call word).map fun f a b => chain (f a b))⟩ := by
  obtain ⟨hopen, hplus, hminus⟩ := hR.operand h
  show atAtom R outer p chain word = _
  rw [atAtom, if_neg hopen, if_neg hplus, if_neg hminus, h]
  rfl

-- after an expression, a mark is read as such: it is no operator of the rules
theorem step_mark (hR : R.Clear) (hword : word ∈ ["+", "-", ")", ","]) (outer : List Frame)
    (p : Pending) (t : ℚ) (call : Option (ℚ → ℚ → ℚ)) :
    step R ⟨outer, p, .holding t call⟩ word = atMark outer (p.total t) word := by
  obtain ⟨htight, hproduct⟩ := hR.mark word (by simp at hword ⊢; tauto)
  have hopen : word ≠ "(" := by
    rintro rfl
    exact absurd hword (by decide)
  show afterChain R outer p t call word = _
  rw [afterChain, htight, hproduct]
  exact if_neg hopen

theorem Evaluates.bracket (hR : R.Clear) (h : Evaluates R .sum words v) :
    Evaluates R .atom ("(" :: words ++ [")"]) v := by
  intro outer p chain
  obtain ⟨q, t, call, htotal, hrun⟩ := h (.closing p chain :: outer)
  refine ⟨none, (Runs.cons rfl hrun).append (.cons ?_ (.nil _ _))⟩
  rw [step_mark hR (by decide), htotal]
  rfl

theorem step_opening (hR : R.Clear) (outer : List Frame) (p : Pending) (t : ℚ)
    (f : ℚ → ℚ → ℚ) : step R ⟨outer, p, .holding t (some f)⟩ "(" =
      some (.start (.comma p f :: outer)) := by
  obtain ⟨htight, hproduct⟩ := hR.mark "(" (by decide)
  show afterChain R outer p t (some f) "(" = _
  rw [afterChain, htight, hproduct]
  rfl

theorem Evaluates.call {f : ℚ → ℚ → ℚ} (hR : R.Clear) (h : R.call word = some f)
    (hx : Evaluates R .sum xs x) (hy : Evaluates R .sum ys y) :
    Evaluates R .atom (word :: "(" :: xs ++ "," :: ys ++ [")"]) (f x y) := by
  intro outer p chain
  -- the name is first read as an operand, and the bracket after it makes it a call
  obtain ⟨z, hz⟩ := hR.call h
  obtain ⟨q, t, call, htotal, hrun⟩ := hx (.comma p (fun a b => chain (f a b)) :: outer)
  obtain ⟨q', t', call', htotal', hrun'⟩ := hy (.closing p (fun b => chain (f x b)) :: outer)
  have hname := step_operand hR hz outer p chain
  rw [h] at hname
  have hcomma : step R ⟨.comma p (fun a b => chain (f a b)) :: outer, q, .holding t call⟩ "," =
      some (.start (.closing p (fun b => chain (f x b)) :: outer)) := by
    rw [step_mark hR (by decide), htotal]
    rfl
  have hclosing : step R ⟨.closing p (fun b => chain (f x b)) :: outer, q', .holding t' call'⟩
      ")" = some ⟨outer, p, .holding (chain (f x y)) none⟩ := by
    rw [step_mark hR (by decide), htotal']
    rfl
  have hfirst := Runs.cons hname (.cons (step_opening hR outer p (chain z) _) hrun)
  exact ⟨none, (hfirst.append (.cons hcomma hrun')).append (.cons hclosing (.nil _ _))⟩

theorem Evaluates.tight {f : ℚ → ℚ → ℚ} (h : R.tight word = some f)
    (hx : Evaluates R .chain xs x) (hy : Evaluates R .atom ys y) :
    Evaluates R .chain (xs ++ word :: ys) (f x y) := by
  intro outer p
  obtain ⟨call, hrun⟩ := hx outer p
  obtain ⟨call', hrun'⟩ := hy outer p (f x)
  refine ⟨call', hrun.append (.cons ?_ hrun')⟩
  show afterChain R outer p x call word = _
  rw [afterChain, h]

theorem Evaluates.minus (h : Evaluates R .signed words v) :
    Evaluates R .signed ("-" :: words) (-v) := by
  intro outer p
  -- the sign waits until the chain is read
  obtain ⟨sign, t, call, hsign, hrun⟩ := h outer { p with sign := fun x => p.sign (-x) }
  exact ⟨sign, t, call, hsign, .cons rfl hrun⟩

theorem Evaluates.product {f : ℚ → ℚ → ℚ} (hR : R.Clear) (h : R.product word = some f)
    (hx : Evaluates R .product xs x) (hy : Evaluates R .signed ys y) :
    Evaluates R .product (xs ++ word :: ys) (f x y) := by
  intro outer sum
  obtain ⟨product, sign, t, call, hvalue, hrun⟩ := hx outer sum
  obtain ⟨sign', t', call', hsign, hrun'⟩ := hy outer { sum, product := f x }
  refine ⟨f x, sign', t', call', ?_, hrun.append (.cons ?_ hrun')⟩
  · rw [hsign]
    rfl
  · -- the operator takes the whole product before it
    show afterChain R outer { sum, product, sign } t call word = _
    rw [afterChain, hR.product h]
    dsimp only
    rw [h]
    dsimp only
    rw [hvalue]

-- a sum goes on after a sign, whose operation takes the sum before it
theorem Evaluates.sum {f : ℚ → ℚ → ℚ} (hR : R.Clear) (hword : word ∈ ["+", "-", ")", ","])
    (hmark : ∀ outer total,
      atMark outer total word = some ⟨outer, { sum := f total }, .awaiting id⟩)
    (hx : Evaluates R .sum xs x) (hy : Evaluates R .product ys y) :
    Evaluates R .sum (xs ++ word :: ys) (f x y) := by
  intro outer
  obtain ⟨p, t, call, htotal, hrun⟩ := hx outer
  obtain ⟨product, sign, t', call', hvalue, hrun'⟩ := hy outer (f x)
  refine ⟨_, t', call', ?_, hrun.append (.cons ?_ hrun')⟩
  · show f x (product (sign t')) = f x y
    rw [hvalue]
  · rw [step_mark hR hword, htotal, hmark]

end

theorem Reads.evaluates {R : Rules} (hR : R.Clear) {level : Level} {words : List String} {v : ℚ}
    (h : Reads R level words v) : Evaluates R level words v := by
  induction h with
  | operand h => exact fun outer p chain => ⟨_, .cons (step_operand hR h outer p chain) (.nil _ _)⟩
  | bracket _ ih => exact ih.bracket hR
  | call h _ _ ihx ihy => exact ihx.call hR h ihy
  | ofAtom _ ih => exact fun outer p => ih outer p id
  | tight h _ _ ihx ihy => exact ihx.tight h ihy
  | ofChain _ ih =>
    intro outer p
    obtain ⟨call, hrun⟩ := ih outer p
    exact ⟨p.sign, _, call, rfl, hrun⟩
  | plus _ ih =>
    intro outer p
    obtain ⟨sign, t, call, hsign, hrun⟩ := ih outer p
    exact ⟨sign, t, call, hsign, .cons rfl hrun⟩
  | minus _ ih => exact ih.minus
  | ofSigned _ ih =>
    intro outer sum
    obtain ⟨sign, t, call, hsign, hrun⟩ := ih outer { sum }
    exact ⟨id, sign, t, call, hsign, hrun⟩
  | product h _ _ ihx ihy => exact ihx.product hR h ihy
  | ofProduct _ ih =>
    intro outer
    obtain ⟨product, sign, t, call, hvalue, hrun⟩ := ih outer id
    exact ⟨{ product, sign }, t, call, hvalue, hrun⟩
  | add _ _ ihx ihy => exact Evaluates.sum hR (by decide) (fun _ _ => rfl) ihx ihy
  | sub _ _ ihx ihy => exact Evaluates.sum hR (by decide) (fun _ _ => rfl) ihx ihy

/-- **An expression has one value.** -/
theorem Reads.unique {R : Rules} (hR : R.Clear) {words : List String} {v w : ℚ}
    (hv : Reads R .sum words v) (hw : Reads R .sum words w) : v = w := by
  -- the machine makes one run over the words, and both values are its total
  obtain ⟨p, t, call, rfl, hrun⟩ := hv.evaluates hR []
  obtain ⟨p', t', call', rfl, hrun'⟩ := hw.evaluates hR []
  rw [Runs, show words.foldlM (step R) _ = some _ from hrun] at hrun'
  obtain ⟨-, rfl, hfocus⟩ := State.mk.inj (Option.some.inj hrun')
  rw [(Focus.holding.inj hfocus).1]

end Formulary.Arithmetic
