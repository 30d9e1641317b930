import Formulary.Proofs.Rendering

/-!
# The names that code declares

The names of the code of a formula are those of its words that make identifiers, less the function
names that were applied.  A word of a valid formula that makes an identifier is an input or a function
name, with one exception: the numerals without digits, `nan`, `inf` and `infinity` in any letters, are
known to the scan as numbers and begin with a letter all the same.  So the code declares inputs only
exactly if those words are inputs where they occur (`variableNames_iff`).
-/

/-! ## 1. Numerals that begin with a letter -/

namespace Formulary.Text

-- no digit is a letter of the basic alphabet
theorem toNat_of_isDigit {c : Char} (h : isDigit c = true) : c.toNat ≤ 0x39 ∨ 0xB2 ≤ c.toNat := by
  have hrange {ranges : Ranges} (hends : ∀ r ∈ ranges, r.2 ≤ 0x39 ∨ 0xB2 ≤ r.1)
      (hc : ranges.contains c = true) : c.toNat ≤ 0x39 ∨ 0xB2 ≤ c.toNat := by
    refine Ranges.forall_of_contains (P := fun n => n ≤ 0x39 ∨ 0xB2 ≤ n) ?_ hc
    intro r hr n hlow hhigh
    have := hends r hr
    omega
  unfold isDigit isDecimal at h
  rw [Bool.or_eq_true_iff, Bool.or_eq_true_iff] at h
  rcases h with (hbasic | hdecimal) | hother
  · delta Char.isDigit at hbasic
    simp [UInt32.le_iff_toNat_le] at hbasic
    omega
  · exact hrange (by decide) hdecimal
  · exact hrange (by decide) hother

-- a letter and its small form are 32 apart
theorem toNat_of_toLower (c : Char) :
    c.toNat = c.toLower.toNat ∨ c.toNat + 32 = c.toLower.toNat ∧ 65 ≤ c.toNat := by
  unfold Char.toLower
  split
  · next h =>
    simp [UInt32.le_iff_toNat_le] at h
    right
    simp
    omega
  · exact .inl rfl

end Formulary.Text

namespace Formulary.Numeral

open Formula (IsOperand)

/-- A numeral that begins with no digit is one of the names. -/
theorem isNamed_of_isNumeral {word : String} (h : isNumeral word = true) (hword : IsOperand word)
    (hkind : Token.kindOfWord word.toList = .identifier) : isNamed word.toList = true := by
  obtain ⟨c, rest, hlist⟩ := List.exists_cons_of_ne_nil hword.nonempty
  have hchars := hword.chars
  rw [hlist] at hkind hchars
  have hdecimal : Text.isDecimal c = false := by
    rw [← Bool.not_eq_true]
    intro hc
    simp [Token.kindOfWord, Text.isDigit_of_isDecimal hc] at hkind
  -- letters and numerals are no signs, no points and no low lines
  have hplain : ∀ d ∈ c :: rest, d ≠ '+' ∧ d ≠ '-' ∧ d ≠ '.' ∧ d ≠ '_' := by
    intro d hd
    have halpha := (hchars d hd).1
    refine ⟨?_, ?_, ?_, ?_⟩
    all_goals
      rintro rfl
      exact absurd halpha (Text.not_isAlphanumeric (by decide) (by decide))
  obtain ⟨hplus, hminus, hpoint, -⟩ := hplain c (by simp)
  have hsign : dropSign (c :: rest) = c :: rest := by
    rw [dropSign]
    · simpa using hplus
    · simpa using hminus
  have hfilter : (c :: rest).filter (· != '_') = c :: rest :=
    List.filter_eq_self.2 fun d hd => bne_iff_ne.2 (hplain d hd).2.2.2
  have hpositional : isPositional (c :: rest) = false := by
    unfold isPositional
    dsimp only
    rw [List.takeWhile_cons_of_neg (by simp [hdecimal]), List.dropWhile_cons_of_neg (by simp [hdecimal])]
    split
    · next hcons => exact absurd (List.cons.inj hcons).1 hpoint
    · rfl
  unfold isNumeral at h
  rw [hlist] at h ⊢
  dsimp only at h
  rw [hsign, hfilter, hpositional, Bool.and_false, Bool.or_false] at h
  exact h

/-- A name of a number begins with a letter, and has more than one. -/
theorem kindOfWord_of_isNamed {cs : List Char} (h : isNamed cs = true) :
    Token.kindOfWord cs = .identifier ∧ 1 < cs.length := by
  have hnames : ∀ name ∈ ["nan", "inf", "infinity"], 1 < name.toList.length ∧
      (name.toList.head?.any fun d => 105 ≤ d.toNat && d.toNat ≤ 110) = true := by
    decide
  simp only [isNamed, List.any_eq_true, beq_iff_eq] at h
  obtain ⟨name, hname, hmap⟩ := h
  obtain ⟨hlength, hhead⟩ := hnames name hname
  rw [hmap] at hlength hhead
  rw [List.length_map] at hlength
  refine ⟨?_, hlength⟩
  cases cs with
  | nil => exact absurd hlength (by decide)
  | cons c rest =>
    have hlower : 105 ≤ c.toLower.toNat ∧ c.toLower.toNat ≤ 110 := by simpa using hhead
    have hcase := Text.toNat_of_toLower c
    rw [Token.kindOfWord, if_neg]
    intro hdigit
    have hdigit := Text.toNat_of_isDigit hdigit
    omega

end Formulary.Numeral

namespace Formulary.Code

open Formula

/-! ## 2. Names and words -/

/-- The names that a tree uses are the identifiers of its reading, function names apart. -/
theorem mem_usedNames_iff {n : Node} {name : String} (hname : name ≠ "sqrt") :
    name ∈ usedNames n ↔ .identifier name ∈ reading n := by
  induction n with
  | leaf kind text =>
    rw [reading_leaf, usedNames, Node.preorder]
    · cases kind <;> simp [name?, eq_comm]
    all_goals simp
  | row kind items ih =>
    rw [usedNames_row, reading_row, List.mem_flatMap, mem_readingRow]
    constructor
    · rintro ⟨n, hn, hmem⟩
      exact ⟨n, hn, (ih n hn).1 hmem⟩
    · rintro ⟨n, hn, hmem⟩
      exact ⟨n, hn, (ih n hn).2 hmem⟩
  | unary kind content ih =>
    rw [usedNames_unary, ih]
    cases kind with
    | squareRoot => simp [reading_squareRoot, hname]
    | fenced => simp [reading]
  | binary kind left right ihl ihr =>
    rw [usedNames_binary, reading_binary, List.mem_append, List.mem_append, ihl, ihr]
    simp
  | bare | missing | stray => simp [usedNames, reading, Node.preorder, name?]

theorem identifier_mem_leaves {words : List String} {name : String} :
    .identifier name ∈ words.map leafOfWord ↔ name ∈ words ∧ kindOfText name = .identifier := by
  rw [List.mem_map]
  constructor
  · rintro ⟨word, hword, hleaf⟩
    obtain ⟨hkind, rfl⟩ := Node.leaf.inj hleaf
    exact ⟨hword, hkind⟩
  · rintro ⟨hword, hkind⟩
    exact ⟨name, hword, by rw [leafOfWord, hkind]⟩

-- only brackets are dropped
theorem identifier_mem_of_dropped {xs ys : List Node} (h : Dropped xs ys) {name : String} :
    .identifier name ∈ ys ↔ .identifier name ∈ xs := by
  have hkeep (nodes : List Node) : .identifier name ∈ nodes ↔
      .identifier name ∈ nodes.filter (!isBracket ·) := by
    rw [List.mem_filter]
    exact (and_iff_left (by rfl)).symm
  rw [hkeep ys, hkeep xs, h.filter_eq]

theorem kindOfText_of_isNamed {word : String} (h : Numeral.isNamed word.toList = true) :
    kindOfText word = .identifier := by
  obtain ⟨hkind, hlength⟩ := Numeral.kindOfWord_of_isNamed h
  have hop : Symbol.isOperator word = false := by
    rw [← Bool.not_eq_true]
    intro hop
    obtain ⟨c, -, hlist⟩ := Symbol.toList_of_isOperator hop
    rw [hlist] at hlength
    exact absurd hlength (by simp)
  rw [kindOfText, hop, hkind]
  rfl

/-- What an identifier of a valid formula is. -/
theorem identifier_cases {formula : String} {inputs : List String}
    (h : isValid formula inputs = true) {word : String} (hword : word ∈ Token.words formula)
    (hkind : kindOfText word = .identifier) :
    word ∈ inputs ∨ word = "sqrt" ∨ Numeral.isNamed word.toList = true := by
  have hop : Symbol.isOperator word = false := by
    rw [← Bool.not_eq_true, ← kindOfText_eq_operator_iff, hkind]
    decide
  have hknown := ((validWords_of_isValid h).known word hword).1
  unfold isKnown at hknown
  rw [hop, Bool.or_false, Bool.or_eq_true_iff, Bool.or_eq_true_iff] at hknown
  rcases hknown with (hinput | hname) | hnumeral
  · exact .inl (by simpa using hinput)
  · exact .inr (.inl (Symbol.isFunction_iff.1 hname))
  · have hoperand : IsOperand word :=
      (isOperand_of_isValid h hword).resolve_left (by rw [hop]; decide)
    have hletter : Token.kindOfWord word.toList = .identifier := by
      rw [kindOfText, hop] at hkind
      cases hk : Token.kindOfWord word.toList with
      | identifier => rfl
      | number | operator =>
        rw [hk] at hkind
        exact absurd hkind (by decide)
    exact .inr (.inr (Numeral.isNamed_of_isNumeral hnumeral hoperand hletter))

/-! ## 3. The names of a formula -/

/-- A valid formula has code, and the names that the code declares are the identifiers of the formula,
function names apart. -/
theorem emitIn_of_isValid {formula : String} {inputs : List String}
    (h : isValid formula inputs = true) : ∃ tree, parse formula = .ok tree ∧
      ∀ o, (∃ code, (emitIn (.fresh o) tree).2 = .ok code) ∧
        ∀ name, name ≠ "sqrt" → (name ∈ (emitIn (.fresh o) tree).1.variableNames ↔
          name ∈ Token.words formula ∧ kindOfText name = .identifier) := by
  obtain ⟨nodes, hparse, htop, hdropped⟩ := parse_shape h
  have hprintable : ∀ n ∈ rootItems nodes, Proper n ∧ Rootless n :=
    printable_rootItems fun n hn => printable_top (htop n hn)
  refine ⟨rootOf nodes, hparse, fun o => ⟨?_, fun name hname => ?_⟩⟩
  · rw [rootOf_eq_root]
    exact ⟨_, emitIn_root hprintable o []⟩
  · rw [rootOf_eq_root, variableNames_emitIn_root hprintable, List.mem_eraseDups, ← rootOf_eq_root,
      mem_usedNames_iff hname, reading_rootOf, identifier_mem_of_dropped hdropped,
      identifier_mem_leaves]

/-- **Which names the code of a valid formula declares.**  Each is an input, a function name, or the
name of a number; and all of them are inputs or function names exactly if every name of a number in the
formula is an input. -/
theorem variableNames_iff {formula : String} {inputs : List String}
    (h : isValid formula inputs = true) : ∃ tree, parse formula = .ok tree ∧
      ∀ o, (∃ code, (emitIn (.fresh o) tree).2 = .ok code) ∧
        (∀ name ∈ (emitIn (.fresh o) tree).1.variableNames,
          name ∈ inputs ∨ name = "sqrt" ∨ Numeral.isNamed name.toList = true) ∧
        ((∀ name ∈ (emitIn (.fresh o) tree).1.variableNames, name ∈ inputs ∨ name = "sqrt") ↔
          ∀ word ∈ Token.words formula, Numeral.isNamed word.toList = true → word ∈ inputs) := by
  obtain ⟨tree, hparse, htree⟩ := emitIn_of_isValid h
  refine ⟨tree, hparse, fun o => ?_⟩
  obtain ⟨hcode, hnames⟩ := htree o
  have hcases : ∀ name ∈ (emitIn (.fresh o) tree).1.variableNames, name ∈ inputs ∨
      name = "sqrt" ∨ (name ∈ Token.words formula ∧ Numeral.isNamed name.toList = true) := by
    intro name hmem
    by_cases hname : name = "sqrt"
    · exact .inr (.inl hname)
    · obtain ⟨hword, hkind⟩ := (hnames name hname).1 hmem
      exact (identifier_cases h hword hkind).imp_right (Or.imp_right fun hnamed => ⟨hword, hnamed⟩)
  refine ⟨hcode, fun name hmem => ?_, fun hall word hword hnamed => ?_, fun hall name hmem => ?_⟩
  · exact (hcases name hmem).imp_right (Or.imp_right And.right)
  · -- the name of a number is an identifier, so it is declared
    have hne : word ≠ "sqrt" := by
      rintro rfl
      exact absurd hnamed (by decide)
    exact (hall word ((hnames word hne).2 ⟨hword, kindOfText_of_isNamed hnamed⟩)).resolve_right hne
  · rcases hcases name hmem with hinput | hname | ⟨hword, hnamed⟩
    · exact .inl hinput
    · exact .inr hname
    · exact .inl (hall name hword hnamed)

theorem variableNames_iff_nested : isValid "(Inf+sqrt(2*a))/b" ["a", "b"] = true ∧
    ∃ tree, parse "(Inf+sqrt(2*a))/b" = .ok tree ∧
      (∃ code, (emitIn (.fresh {}) tree).2 = .ok code) ∧
      (∀ name ∈ (emitIn (.fresh {}) tree).1.variableNames,
        name ∈ ["a", "b"] ∨ name = "sqrt" ∨ Numeral.isNamed name.toList = true) ∧
      ((∀ name ∈ (emitIn (.fresh {}) tree).1.variableNames, name ∈ ["a", "b"] ∨ name = "sqrt") ↔
        ∀ word ∈ Token.words "(Inf+sqrt(2*a))/b",
          Numeral.isNamed word.toList = true → word ∈ ["a", "b"]) := by
  have h : isValid "(Inf+sqrt(2*a))/b" ["a", "b"] = true := by decide +kernel
  obtain ⟨tree, hparse, htree⟩ := variableNames_iff h
  exact ⟨h, tree, hparse, htree {}⟩

/-- A name of a number is declared although it is no input. -/
theorem not_variableNames_inputs : ¬∀ formula inputs tree, isValid formula inputs = true →
    parse formula = .ok tree → ∀ name ∈ (emitIn (.fresh {}) tree).1.variableNames,
      name ∈ inputs ∨ name = "sqrt" := by
  intro hall
  have h : isValid "inf+a" ["a"] = true := by decide +kernel
  have hparse : parse "inf+a" = .ok (.root [.sequence [.identifier "inf", .operator "+",
      .identifier "a"]]) := by
    decide +kernel
  have hnames : (emitIn (.fresh {}) (.root [.sequence [.identifier "inf", .operator "+",
      .identifier "a"]])).1.variableNames = ["inf", "a"] := by
    decide +kernel
  have hinf := hall _ _ _ h hparse "inf" (by rw [hnames]; simp)
  exact absurd hinf (by decide)

end Formulary.Code
