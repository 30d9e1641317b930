import Formulary.Proofs.Arithmetic.Code

/-!
# The beginning of an expression

What has been read of an expression so far is a list of words that a product, an atom or a sum can
follow (`Opened`, `Starts`), or that is complete (`Complete`).  Each form says which value the whole
has then, in terms of what the machine holds back at that place (`Pending`).  So brackets around a
product can be left out wherever a product can follow, and around a sum only where a sum can.
-/

namespace Formulary.Arithmetic

/-! ## 1. Rules of code -/

/-- The roles that words have in code. -/
structure Rules.OfCode (R : Rules) : Prop where
  clear : R.Clear
  tight : ∀ word, R.tight word = none
  times : R.product "*" = some (· * ·)
  divide : R.product "/" = some (· / ·)
  product : ∀ {word f}, R.product word = some f →
    (word = "*" ∧ f = (· * ·)) ∨ (word = "/" ∧ f = (· / ·))
  operand : ∀ {word}, isCodeName word = true → ∃ x, R.operand word = some x
  symbol : ∀ {word}, isSymbol word = true → R.operand word = none

theorem isSymbol_of_isCodeName {word : String} (h : isCodeName word = true) :
    isSymbol word = false := by
  rw [← Bool.not_eq_true]
  intro hsymbol
  obtain ⟨c, hhead, hc⟩ := head?_spaced_symbol hsymbol
  have hcomma : word ≠ "," := ne_comma_of_isCodeName h
  rw [spaced, if_neg hcomma] at hhead
  have hall := (Bool.and_eq_true_iff.1 h).2
  rw [List.all_eq_true.1 hall c (List.mem_of_mem_head? hhead)] at hc
  exact absurd hc (by decide)

theorem codeRules_ofCode {function : String} (h : isCodeName function = true) (value : String → ℚ)
    (power : ℚ → ℚ → ℚ) : (codeRules function value power).OfCode where
  clear := codeRules_clear h value power
  tight _ := rfl
  times := rfl
  divide := rfl
  product := by
    intro word f h
    unfold codeRules at h
    dsimp only at h
    split at h
    · next hword => exact .inl ⟨hword, (Option.some.inj h).symm⟩
    · split at h
      · next hword => exact .inr ⟨hword, (Option.some.inj h).symm⟩
      · exact absurd h (by simp)
  operand := fun {word} h => ⟨value word, if_pos h⟩
  symbol := by
    intro word h
    refine if_neg fun hname => ?_
    rw [isSymbol_of_isCodeName hname] at h
    exact absurd h (by decide)

/-! ## 2. Products and sums -/

section

variable {R : Rules} {xs ws words : List String} {x u v : ℚ}

/-- Products are built from signed terms, one operator after the other. -/
@[elab_as_elim]
theorem Reads.product_induction {motive : List String → ℚ → Prop}
    (signed : ∀ {ws u}, Reads R .signed ws u → motive ws u)
    (step : ∀ {op f xs ys x y}, R.product op = some f → Reads R .product xs x →
      Reads R .signed ys y → motive xs x → motive (xs ++ op :: ys) (f x y))
    (h : Reads R .product ws u) : motive ws u := by
  generalize hlevel : Level.product = level at h
  induction h with
  | ofSigned h => exact signed h
  | product hop hx hy ihx _ => exact step hop hx hy (ihx rfl)
  | _ => exact absurd hlevel (by simp)

/-- Sums are built from products, one sign after the other. -/
@[elab_as_elim]
theorem Reads.sum_induction {motive : List String → ℚ → Prop}
    (product : ∀ {ws u}, Reads R .product ws u → motive ws u)
    (add : ∀ {xs ys x y}, Reads R .sum xs x → Reads R .product ys y → motive xs x →
      motive (xs ++ "+" :: ys) (x + y))
    (sub : ∀ {xs ys x y}, Reads R .sum xs x → Reads R .product ys y → motive xs x →
      motive (xs ++ "-" :: ys) (x - y))
    (h : Reads R .sum ws u) : motive ws u := by
  generalize hlevel : Level.sum = level at h
  induction h with
  | ofProduct h => exact product h
  | add hx hy ihx _ => exact add hx hy (ihx rfl)
  | sub hx hy ihx _ => exact sub hx hy (ihx rfl)
  | _ => exact absurd hlevel (by simp)

theorem Reads.ofAtomProduct (h : Reads R .atom ws u) : Reads R .product ws u :=
  .ofSigned (.ofChain (.ofAtom h))

-- the operators of products take a factor out of their first operand
theorem Rules.OfCode.mul_left (hR : R.OfCode) {op : String} {f : ℚ → ℚ → ℚ}
    (h : R.product op = some f) (c x y : ℚ) : f (c * x) y = c * f x y := by
  rcases hR.product h with ⟨-, rfl⟩ | ⟨-, rfl⟩
  · exact mul_assoc c x y
  · exact mul_div_assoc c x y

theorem Reads.plus_product (h : Reads R .product ws u) : Reads R .product ("+" :: ws) u := by
  refine Reads.product_induction (fun h => ?_) (fun hop _ hy ih => ?_) h
  · exact .ofSigned (.plus h)
  · exact .product hop ih hy

theorem Reads.minus_product (hR : R.OfCode) (h : Reads R .product ws u) :
    Reads R .product ("-" :: ws) (-u) := by
  refine Reads.product_induction (fun h => ?_) (fun {op f xs ys x y} hop _ hy ih => ?_) h
  · exact .ofSigned (.minus h)
  · have hvalue := hR.mul_left hop (-1) x y
    rw [neg_one_mul, neg_one_mul] at hvalue
    rw [← hvalue]
    exact .product hop ih hy

theorem Reads.times_product (hR : R.OfCode) (hx : Reads R .product xs x)
    (h : Reads R .product ws u) : Reads R .product (xs ++ "*" :: ws) (x * u) := by
  refine Reads.product_induction (fun h => ?_) (fun hop _ hy ih => ?_) h
  · exact .product hR.times hx h
  · rw [← hR.mul_left hop, ← List.cons_append, ← List.append_assoc]
    exact .product hop ih hy

theorem Reads.plus_sum (h : Reads R .sum ws u) : Reads R .sum ("+" :: ws) u := by
  refine Reads.sum_induction (fun h => ?_) (fun _ hy ih => ?_) (fun _ hy ih => ?_) h
  · exact .ofProduct h.plus_product
  · exact .add ih hy
  · exact .sub ih hy

theorem Reads.add_sum (hx : Reads R .sum xs x) (h : Reads R .sum ws u) :
    Reads R .sum (xs ++ "+" :: ws) (x + u) := by
  refine Reads.sum_induction (fun h => ?_) (fun _ hy ih => ?_) (fun _ hy ih => ?_) h
  · exact .add hx h
  · rw [← add_assoc, ← List.cons_append, ← List.append_assoc]
    exact .add ih hy
  · rw [← add_sub_assoc, ← List.cons_append, ← List.append_assoc]
    exact .sub ih hy

end

/-! ## 3. Prefixes -/

/-- A product can follow the words, and is added to what they come to.  `adds` says whether there may
be anything to add it to. -/
structure Sums (R : Rules) (adds : Bool) (words : List String) (f : ℚ → ℚ) : Prop where
  read : ∀ {ws u}, Reads R .product ws u → Reads R .sum (words ++ ws) (f u)
  alone : adds = false → words = [] ∧ f = id

/-- An expression of the level can follow the words. -/
def Opened (R : Rules) (level : Level) (adds : Bool) (words : List String) (p : Pending) : Prop :=
  ∃ front back, words = front ++ back ∧ Sums R adds front p.sum ∧
    ∀ {ws u}, Reads R level ws u → Reads R .product (back ++ ws) (p.product (p.sign u))

/-- The words are an expression of which `t` is the value of the last chain. -/
def Complete (R : Rules) (adds : Bool) (words : List String) (p : Pending) (t : ℚ) : Prop :=
  ∃ front back, words = front ++ back ∧ Sums R adds front p.sum ∧
    Reads R .product back (p.product (p.sign t))

/-- A product can follow the words, and a sum too. -/
structure Starts (R : Rules) (adds : Bool) (words : List String) (p : Pending) : Prop where
  opened : Opened R .product adds words p
  plain : ∀ u, p.product (p.sign u) = u
  read : ∀ {ws u}, Reads R .sum ws u → Reads R .sum (words ++ ws) (p.sum u)

section

variable {R : Rules} {level : Level} {adds : Bool} {words ws : List String} {p : Pending} {t u v : ℚ}

theorem Sums.weaken {f : ℚ → ℚ} (h : Sums R adds words f) (more : Bool) :
    Sums R (adds || more) words f where
  read := h.read
  alone hno := h.alone (Bool.or_eq_false_iff.1 hno).1

theorem Opened.weaken (h : Opened R level adds words p) (more : Bool) :
    Opened R level (adds || more) words p := by
  obtain ⟨front, back, heq, hsums, hread⟩ := h
  exact ⟨front, back, heq, hsums.weaken more, hread⟩

theorem Complete.weaken (h : Complete R adds words p t) (more : Bool) :
    Complete R (adds || more) words p t := by
  obtain ⟨front, back, heq, hsums, hread⟩ := h
  exact ⟨front, back, heq, hsums.weaken more, hread⟩

theorem sums_nil (adds : Bool) : Sums R adds [] id :=
  ⟨fun h => .ofProduct h, fun _ => ⟨rfl, rfl⟩⟩

theorem starts_nil : Starts R false [] {} where
  opened := ⟨[], [], rfl, sums_nil false, fun h => h⟩
  plain _ := rfl
  read h := h

theorem Opened.atom (h : Opened R .product adds words p) : Opened R .atom adds words p := by
  obtain ⟨front, back, heq, hsums, hread⟩ := h
  exact ⟨front, back, heq, hsums, fun h => hread h.ofAtomProduct⟩

theorem Opened.complete (h : Opened R level adds words p) (hws : Reads R level ws u) :
    Complete R adds (words ++ ws) p u := by
  obtain ⟨front, back, rfl, hsums, hread⟩ := h
  exact ⟨front, back ++ ws, List.append_assoc .., hsums, hread hws⟩

theorem Complete.sum (h : Complete R adds words p t) : Reads R .sum words (p.total t) := by
  obtain ⟨front, back, rfl, hsums, hread⟩ := h
  exact hsums.read hread

-- without a sign between two terms it is a product
theorem Complete.product (h : Complete R false words p t) : Reads R .product words (p.total t) := by
  obtain ⟨front, back, rfl, hsums, hread⟩ := h
  obtain ⟨rfl, hsum⟩ := hsums.alone rfl
  rw [Pending.total, hsum]
  exact hread

theorem Complete.times (hR : R.OfCode) (h : Complete R adds words p t) :
    Opened R .product adds (words ++ ["*"])
      { sum := p.sum, product := fun u => p.product (p.sign t) * u } := by
  obtain ⟨front, back, rfl, hsums, hread⟩ := h
  refine ⟨front, back ++ ["*"], List.append_assoc .., hsums, fun hws => ?_⟩
  rw [List.append_assoc]
  exact hread.times_product hR hws

theorem Complete.over (hR : R.OfCode) (h : Complete R adds words p t) :
    Opened R .atom adds (words ++ ["/"])
      { sum := p.sum, product := fun u => p.product (p.sign t) / u } := by
  obtain ⟨front, back, rfl, hsums, hread⟩ := h
  refine ⟨front, back ++ ["/"], List.append_assoc .., hsums, fun {ws u} hws => ?_⟩
  have hquotient : Reads R .product (back ++ "/" :: ws) (p.product (p.sign t) / u) :=
    .product hR.divide hread (.ofChain (.ofAtom hws))
  rw [List.append_assoc]
  exact hquotient

theorem Opened.plus (h : Opened R .product adds words p) :
    Opened R .product adds (words ++ ["+"]) p := by
  obtain ⟨front, back, rfl, hsums, hread⟩ := h
  refine ⟨front, back ++ ["+"], List.append_assoc .., hsums, fun hws => ?_⟩
  rw [List.append_assoc]
  exact hread hws.plus_product

theorem Opened.minus (hR : R.OfCode) (h : Opened R .product adds words p) :
    Opened R .product adds (words ++ ["-"]) { p with sign := fun u => p.sign (-u) } := by
  obtain ⟨front, back, rfl, hsums, hread⟩ := h
  refine ⟨front, back ++ ["-"], List.append_assoc .., hsums, fun hws => ?_⟩
  rw [List.append_assoc]
  exact hread (hws.minus_product hR)

theorem Starts.plus (h : Starts R adds words p) : Starts R adds (words ++ ["+"]) p where
  opened := h.opened.plus
  plain := h.plain
  read hws := by
    rw [List.append_assoc]
    exact h.read hws.plus_sum

-- a sign behind an expression begins a new product
theorem Reads.starts_plus (h : Reads R .sum words v) :
    Starts R true (words ++ ["+"]) { sum := fun u => v + u } where
  opened := by
    refine ⟨words ++ ["+"], [], (List.append_nil _).symm, ⟨fun hws => ?_, by simp⟩, fun h => h⟩
    rw [List.append_assoc]
    exact .add h hws
  plain _ := rfl
  read hws := by
    rw [List.append_assoc]
    exact h.add_sum hws

theorem Reads.opened_minus (h : Reads R .sum words v) :
    Opened R .product true (words ++ ["-"]) { sum := fun u => v - u } := by
  refine ⟨words ++ ["-"], [], (List.append_nil _).symm, ⟨fun hws => ?_, by simp⟩, fun h => h⟩
  rw [List.append_assoc]
  exact .sub h hws

end

end Formulary.Arithmetic
