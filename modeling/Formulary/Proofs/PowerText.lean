import Formulary.Code.PowerCall
import Mathlib.Data.List.Chain

/-!
# Texts with power calls

The rewriting of power calls searches a text for the name of the power function, for the bracket that
closes the call, and for the comma between the arguments.  It knows nothing of how the text was made.
Here it is shown to find what was meant, for texts that are put together from words, signs, brackets
and calls (`Turns`): brackets match and commas stand inside brackets (`Whole`), and a point stands
only in the names of the two functions, so the name of the power function is found where a call
begins and nowhere else (`Clear`).
-/

namespace Formulary.Code

/-! ## 1. Whole texts -/

section

variable {depth : Nat} {rest : List Char}

theorem breakOnClosing_opening : breakOnClosing depth ('(' :: rest) =
    (breakOnClosing (depth + 1) rest).map fun (inside, after) => ('(' :: inside, after) := by
  rw [breakOnClosing.eq_def]
  rfl

theorem breakOnClosing_closing : breakOnClosing (depth + 1) (')' :: rest) =
    (breakOnClosing depth rest).map fun (inside, after) => (')' :: inside, after) := by
  rw [breakOnClosing.eq_def]
  rfl

theorem breakOnClosing_zero : breakOnClosing 0 (')' :: rest) = some ([], rest) := by
  rw [breakOnClosing.eq_def]
  rfl

theorem breakOnClosing_other {c : Char} (hopen : c ≠ '(') (hclose : c ≠ ')') :
    breakOnClosing depth (c :: rest) =
      (breakOnClosing depth rest).map fun (inside, after) => (c :: inside, after) := by
  rw [breakOnClosing.eq_def]
  dsimp only
  rw [if_neg hclose, if_neg hopen]

theorem splitAtCommas_comma : splitAtCommas 0 (',' :: rest) = [] :: splitAtCommas 0 rest := by
  rw [splitAtCommas, if_pos ⟨rfl, rfl⟩]

-- a character that ends no part goes to the first part of the rest
theorem splitAtCommas_cons {c : Char} {inner : Nat} {first : List Char} {more : List (List Char)}
    (hc : ¬(c = ',' ∧ depth = 0))
    (hinner : (if c = '(' then depth + 1 else if c = ')' then depth - 1 else depth) = inner)
    (h : splitAtCommas inner rest = first :: more) :
    splitAtCommas depth (c :: rest) = (c :: first) :: more := by
  rw [splitAtCommas, if_neg hc, hinner, h]

end

/-- A text that a search for a closing bracket or for commas passes over, at any depth from the given
one on: its brackets match, and it has no comma in its way. -/
structure Whole (least : Nat) (text : List Char) : Prop where
  closing : ∀ depth, least ≤ depth → ∀ rest, breakOnClosing depth (text ++ rest) =
    (breakOnClosing depth rest).map fun (inside, after) => (text ++ inside, after)
  commas : ∀ depth, least ≤ depth → ∀ rest first more, splitAtCommas depth rest = first :: more →
    splitAtCommas depth (text ++ rest) = (text ++ first) :: more

section

variable {least : Nat} {text text' : List Char}

theorem Whole.nil : Whole least [] where
  closing depth _ rest := by
    show breakOnClosing depth rest = (breakOnClosing depth rest).map id
    rw [Option.map_id_fun, id]
  commas _ _ _ _ _ h := h

theorem Whole.append (h : Whole least text) (h' : Whole least text') :
    Whole least (text ++ text') where
  closing depth hdepth rest := by
    rw [List.append_assoc, h.closing depth hdepth, h'.closing depth hdepth, Option.map_map]
    congr 1
    funext ⟨inside, after⟩
    simp
  commas depth hdepth rest first more hrest := by
    have hinner := h'.commas depth hdepth rest first more hrest
    rw [List.append_assoc, h.commas depth hdepth _ _ _ hinner, List.append_assoc]

theorem Whole.mono (h : Whole 0 text) : Whole least text where
  closing depth _ := h.closing depth (Nat.zero_le depth)
  commas depth _ := h.commas depth (Nat.zero_le depth)

theorem Whole.singleton {c : Char} (hopen : c ≠ '(') (hclose : c ≠ ')')
    (hcomma : c ≠ ',' ∨ 0 < least) : Whole least [c] where
  closing depth _ rest := breakOnClosing_other hopen hclose
  commas depth hdepth rest first more hrest := by
    refine splitAtCommas_cons ?_ ?_ hrest
    · rintro ⟨rfl, rfl⟩
      exact hcomma.elim (fun h => h rfl) (by omega)
    · rw [if_neg hopen, if_neg hclose]

theorem whole_of_forall (h : ∀ c ∈ text, c ≠ '(' ∧ c ≠ ')' ∧ c ≠ ',') : Whole least text := by
  induction text with
  | nil => exact .nil
  | cons c rest ih =>
    obtain ⟨⟨hopen, hclose, hcomma⟩, hrest⟩ := List.forall_mem_cons.1 h
    exact (Whole.singleton hopen hclose (.inl hcomma)).append (ih hrest)

theorem Whole.bracket (h : Whole 1 text) : Whole 0 ('(' :: text ++ [')']) where
  closing depth _ rest := by
    rw [List.append_assoc, List.cons_append, breakOnClosing_opening, h.closing _ (by omega),
      List.singleton_append, breakOnClosing_closing, Option.map_map, Option.map_map]
    congr 1
    funext ⟨inside, after⟩
    simp
  commas depth _ rest first more hrest := by
    have hclosing : splitAtCommas (depth + 1) (')' :: rest) = (')' :: first) :: more :=
      splitAtCommas_cons (by simp) (by simp) hrest
    have hinner := h.commas (depth + 1) (by omega) _ _ _ hclosing
    rw [List.append_assoc, List.cons_append, List.singleton_append,
      splitAtCommas_cons (by simp) (by simp) hinner]
    simp

end

/-! ## 2. Arguments -/

/-- A text that neither begins nor ends with white space. -/
structure Trimmed (text : List Char) : Prop where
  head : ∀ c ∈ text.head?, Text.isSpace c = false
  last : ∀ c ∈ text.getLast?, Text.isSpace c = false

theorem Trimmed.nil : Trimmed [] :=
  ⟨by simp, by simp⟩

theorem Trimmed.append {text text' : List Char} (h : Trimmed text) (h' : Trimmed text') :
    Trimmed (text ++ text') where
  head c hc := by
    rw [List.head?_append] at hc
    exact (Option.or_eq_some_iff.1 hc).elim (h.head c) fun hc => h'.head c hc.2
  last c hc := by
    rw [List.getLast?_append] at hc
    exact (Option.or_eq_some_iff.1 hc).elim (h'.last c) fun hc => h.last c hc.2

theorem Trimmed.of_forall {text : List Char} (h : ∀ c ∈ text, Text.isSpace c = false) :
    Trimmed text where
  head c hc := h c (List.mem_of_mem_head? hc)
  last c hc := h c (List.mem_of_mem_getLast? hc)

theorem trimmed_of_ends {first last : Char} {middle : List Char}
    (hfirst : Text.isSpace first = false) (hlast : Text.isSpace last = false) :
    Trimmed (first :: middle ++ [last]) where
  head c hc := by
    obtain rfl := Option.some.inj hc
    exact hfirst
  last c hc := by
    rw [List.getLast?_concat] at hc
    obtain rfl := Option.some.inj hc
    exact hlast

theorem stripFront_of_head {text : List Char} (h : ∀ c ∈ text.head?, Text.isSpace c = false) :
    Text.stripFront text = text := by
  cases text with
  | nil => rfl
  | cons c rest => exact List.dropWhile_cons_of_neg (by simp [h c rfl])

theorem Trimmed.strip {text : List Char} (h : Trimmed text) : Text.strip text = text := by
  rw [Text.strip, stripFront_of_head h.head, stripFront_of_head, List.reverse_reverse]
  rw [List.head?_reverse]
  exact h.last

/-- The arguments of a call are found where they were put. -/
theorem twoArguments?_of_whole {base exponent : List Char} (hb : Whole 0 base)
    (he : Whole 0 exponent) (hb' : Trimmed base) (he' : Trimmed exponent) (hbne : base ≠ [])
    (hene : exponent ≠ []) :
    twoArguments? (base ++ ',' :: ' ' :: exponent) = some (base, exponent) := by
  have hend : splitAtCommas 0 exponent = [exponent] := by
    have hnil := he.commas 0 (Nat.le_refl 0) [] [] [] rfl
    rwa [List.append_nil] at hnil
  have hspace : splitAtCommas 0 (' ' :: exponent) = [' ' :: exponent] :=
    splitAtCommas_cons (by simp) rfl hend
  have hcomma : splitAtCommas 0 (',' :: ' ' :: exponent) = [[], ' ' :: exponent] := by
    rw [splitAtCommas_comma, hspace]
  have hstrip : Text.strip (' ' :: exponent) = exponent := by
    have hfront : Text.stripFront (' ' :: exponent) = Text.stripFront exponent :=
      List.dropWhile_cons_of_pos (by decide)
    rw [Text.strip, hfront]
    exact he'.strip
  have hsplit := hb.commas 0 (Nat.le_refl 0) _ _ _ hcomma
  rw [List.append_nil] at hsplit
  rw [twoArguments?, hsplit, List.map_cons, List.map_singleton, hb'.strip, hstrip]
  simp [hbne, hene]

/-! ## 3. One step of the rewriting -/

section

variable {name text before after inside rest base exponent : List Char}

theorem callsAsPowers_of_none (h : breakOn (name ++ ['(']) text = none) :
    callsAsPowers name text = text := by
  rw [callsAsPowers]
  split <;> simp_all

theorem callsAsPowers_of_open (h : breakOn (name ++ ['(']) text = some (before, after))
    (hc : breakOnClosing 0 after = none) : callsAsPowers name text = text := by
  rw [callsAsPowers]
  split
  · rfl
  · split <;> simp_all

/-- What a call becomes, from what stands in its brackets. -/
def rewritten (name inside : List Char) : List Char :=
  match twoArguments? inside with
  | some (base, exponent) =>
    powerOperand (callsAsPowers name base) ++ '^' :: powerOperand (callsAsPowers name exponent)
  | none => name ++ '(' :: inside ++ [')']

theorem callsAsPowers_of_some (h : breakOn (name ++ ['(']) text = some (before, after))
    (hc : breakOnClosing 0 after = some (inside, rest)) :
    callsAsPowers name text = before ++ rewritten name inside ++ callsAsPowers name rest := by
  rw [callsAsPowers, rewritten]
  split
  · simp_all
  · split
    · simp_all
    · split <;> simp_all

/-- Where no call begins, the rewriting goes on behind the next character. -/
theorem callsAsPowers_cons {c : Char} (h : (name ++ ['(']).isPrefixOf (c :: rest) = false) :
    callsAsPowers name (c :: rest) = c :: callsAsPowers name rest := by
  have hstep : breakOn (name ++ ['(']) (c :: rest) =
      (breakOn (name ++ ['(']) rest).map fun (before, after) => (c :: before, after) := by
    rw [breakOn, if_neg (by rw [h]; decide)]
  cases hn : breakOn (name ++ ['(']) rest with
  | none =>
    rw [hn, Option.map_none] at hstep
    rw [callsAsPowers_of_none hstep, callsAsPowers_of_none hn]
  | some found =>
    obtain ⟨before, after⟩ := found
    rw [hn, Option.map_some] at hstep
    cases hc : breakOnClosing 0 after with
    | none => rw [callsAsPowers_of_open hstep hc, callsAsPowers_of_open hn hc]
    | some closed =>
      obtain ⟨inside, rest'⟩ := closed
      rw [callsAsPowers_of_some hstep hc, callsAsPowers_of_some hn hc, List.cons_append,
        List.cons_append]

theorem callsAsPowers_call (name : List Char) (hc : breakOnClosing 0 after = some (inside, rest))
    (ha : twoArguments? inside = some (base, exponent)) :
    callsAsPowers name (name ++ '(' :: after) =
      powerOperand (callsAsPowers name base) ++ '^' :: powerOperand (callsAsPowers name exponent) ++
        callsAsPowers name rest := by
  have hfound : breakOn (name ++ ['(']) (name ++ '(' :: after) = some ([], after) := by
    have htext : name ++ '(' :: after = (name ++ ['(']) ++ after := by simp
    have hprefix : (name ++ ['(']).isPrefixOf (name ++ '(' :: after) = true :=
      List.isPrefixOf_iff_prefix.2 ⟨after, htext.symm⟩
    have hdrop : (name ++ '(' :: after).drop (name ++ ['(']).length = after := by
      rw [htext, List.drop_left]
    cases hcons : name ++ '(' :: after with
    | nil => exact absurd hcons (by simp)
    | cons c more =>
      rw [hcons] at hprefix hdrop
      rw [breakOn, if_pos hprefix, hdrop]
  rw [callsAsPowers_of_some hfound hc, rewritten, ha, List.nil_append]

end

/-! ## 4. Texts and what they turn into -/

/-- The name of the power function. -/
def powerName : List Char :=
  ['M', 'a', 't', 'h', '.', 'P', 'o', 'w']

/-- The name of the root function. -/
def rootName : List Char :=
  ['M', 'a', 't', 'h', '.', 'S', 'q', 'r', 't']

/-- No point is so near that the name of the power function could have begun before the text. -/
def Clear (rest : List Char) : Prop :=
  '.' ∉ rest.take 4

/-- A text of one line without power calls: brackets match, and a point stands only before an `S`. -/
structure Tidy (text : List Char) : Prop where
  whole : Whole 0 text
  points : text.IsChain fun a b => a = '.' → b = 'S'
  last : '.' ∉ text.getLast?
  line : ∀ c ∈ text, c ≠ '\r' ∧ c ≠ '\n'

/-- A text of one statement in which the rewriting makes powers of all calls, whatever follows, and
the result. -/
structure Turns (text result : List Char) : Prop where
  clear : ∀ rest, Clear rest → Clear (text ++ rest)
  turns : ∀ rest, Clear rest →
    callsAsPowers powerName (text ++ rest) = result ++ callsAsPowers powerName rest
  whole : Whole 0 text
  trimmed : Trimmed text
  single : ';' ∉ text
  tidy : Tidy result

theorem Clear.nil : Clear [] := by
  simp [Clear]

-- the point of the name would be among the next four characters
theorem not_call_of_clear {c : Char} {rest : List Char} (h : Clear rest) :
    (powerName ++ ['(']).isPrefixOf (c :: rest) = false := by
  rw [← Bool.not_eq_true, List.isPrefixOf_iff_prefix]
  rintro ⟨after, hafter⟩
  obtain ⟨-, rfl⟩ := List.cons.inj hafter
  exact h (by simp)

section

variable {text text' result result' : List Char}

theorem Tidy.nil : Tidy [] :=
  ⟨.nil, .nil, by simp, by simp⟩

theorem Tidy.append (h : Tidy text) (h' : Tidy text') : Tidy (text ++ text') where
  whole := h.whole.append h'.whole
  points := by
    refine List.isChain_append.2 ⟨h.points, h'.points, fun a ha b _ hpoint => ?_⟩
    rw [hpoint] at ha
    exact absurd ha h.last
  last := by
    rw [List.getLast?_append]
    intro hlast
    exact (Option.or_eq_some_iff.1 hlast).elim h'.last fun hlast => h.last hlast.2
  line c hc := (List.mem_append.1 hc).elim (h.line c) (h'.line c)

theorem Tidy.singleton {c : Char} (hopen : c ≠ '(') (hclose : c ≠ ')') (hcomma : c ≠ ',')
    (hpoint : c ≠ '.') (hline : c ≠ '\r' ∧ c ≠ '\n') : Tidy [c] where
  whole := .singleton hopen hclose (.inl hcomma)
  points := .singleton c
  last := by simpa using hpoint
  line := by simpa using hline

theorem Tidy.bracket (h : Tidy text) : Tidy ('(' :: text ++ [')']) where
  whole := h.whole.mono.bracket
  points := by
    refine List.isChain_append.2 ⟨List.isChain_cons.2 ⟨by simp, h.points⟩, .singleton _, ?_⟩
    intro a ha b _ hpoint
    rw [hpoint, List.getLast?_cons] at ha
    cases hlast : text.getLast? with
    | none => simp [hlast] at ha
    | some last =>
      rw [hlast] at ha
      exact absurd (hlast.trans ha) h.last
  last := by
    rw [List.getLast?_concat]
    decide
  line := by
    intro c hc
    simp only [List.cons_append, List.mem_cons, List.mem_append, List.not_mem_nil, or_false] at hc
    rcases hc with rfl | hc | rfl
    · decide
    · exact h.line c hc
    · decide

theorem Tidy.powerOperand (h : Tidy text) : Tidy (powerOperand text) := by
  unfold Code.powerOperand
  split
  · split
    · exact h
    · exact h.bracket
  · exact h

/-- A tidy text has no power call. -/
theorem Tidy.not_call (h : Tidy text) : ¬powerName ++ ['('] <:+: text := by
  intro hinfix
  have hpoints := h.points.infix hinfix
  exact absurd hpoints (by decide)

theorem Turns.nil : Turns [] [] :=
  ⟨fun _ h => h, fun _ _ => rfl, .nil, .nil, by simp, .nil⟩

theorem Turns.append (h : Turns text result) (h' : Turns text' result') :
    Turns (text ++ text') (result ++ result') where
  clear rest hrest := by
    rw [List.append_assoc]
    exact h.clear _ (h'.clear rest hrest)
  turns rest hrest := by
    rw [List.append_assoc, h.turns _ (h'.clear rest hrest), h'.turns rest hrest, List.append_assoc]
  whole := h.whole.append h'.whole
  trimmed := h.trimmed.append h'.trimmed
  single := by simp [h.single, h'.single]
  tidy := h.tidy.append h'.tidy

/-- A character that is neither white space nor a bracket, a comma, a point or a semicolon. -/
structure IsPlain (c : Char) : Prop where
  space : Text.isSpace c = false
  opening : c ≠ '('
  closing : c ≠ ')'
  comma : c ≠ ','
  point : c ≠ '.'
  semicolon : c ≠ ';'

-- one character in front of the rest
theorem clear_cons {c : Char} {rest : List Char} (hc : c ≠ '.') (h : Clear rest) :
    Clear (c :: rest) := by
  unfold Clear at h ⊢
  rw [List.take_succ_cons]
  intro hmem
  rcases List.mem_cons.1 hmem with heq | hmem
  · exact hc heq.symm
  · exact h ((List.take_prefix_take_left (by omega)).subset hmem)

theorem IsPlain.turns {c : Char} (h : IsPlain c) : Turns [c] [c] where
  clear rest := clear_cons h.point
  turns rest hrest := callsAsPowers_cons (not_call_of_clear hrest)
  whole := .singleton h.opening h.closing (.inl h.comma)
  trimmed := .of_forall (by simpa using h.space)
  single := by simpa using h.semicolon.symm
  tidy := by
    refine .singleton h.opening h.closing h.comma h.point ⟨?_, ?_⟩
    · rintro rfl
      exact absurd h.space (by decide)
    · rintro rfl
      exact absurd h.space (by decide)

theorem turns_of_forall (h : ∀ c ∈ text, IsPlain c) : Turns text text := by
  induction text with
  | nil => exact .nil
  | cons c rest ih =>
    obtain ⟨hc, hrest⟩ := List.forall_mem_cons.1 h
    exact hc.turns.append (ih hrest)

theorem Turns.bracket (h : Turns text result) :
    Turns ('(' :: text ++ [')']) ('(' :: result ++ [')']) where
  clear rest hrest := by
    rw [List.append_assoc, List.cons_append]
    exact clear_cons (by decide) (h.clear _ (clear_cons (by decide) hrest))
  turns rest hrest := by
    have hclosing : Clear (')' :: rest) := clear_cons (by decide) hrest
    rw [List.append_assoc, List.cons_append, List.singleton_append,
      callsAsPowers_cons (not_call_of_clear (h.clear _ hclosing)), h.turns _ hclosing,
      callsAsPowers_cons (not_call_of_clear hrest)]
    simp
  whole := h.whole.mono.bracket
  trimmed := trimmed_of_ends (by decide) (by decide)
  single := by simp [h.single]
  tidy := h.tidy.bracket

/-- The name of the root function is not taken for that of the power function. -/
theorem turns_rootName : Turns rootName rootName where
  clear rest _ := by
    show '.' ∉ ['M', 'a', 't', 'h']
    decide
  turns rest _ := by
    -- the name could begin at the first character only, and is told apart behind the point
    have hother {c : Char} (more : List Char) (hc : c ≠ 'M') :
        callsAsPowers powerName (c :: more) = c :: callsAsPowers powerName more :=
      callsAsPowers_cons (by simp [powerName, List.isPrefixOf, Ne.symm hc])
    have hfirst : callsAsPowers powerName (rootName ++ rest) =
        'M' :: callsAsPowers powerName (rootName.tail ++ rest) :=
      callsAsPowers_cons (by simp [powerName, List.isPrefixOf])
    rw [hfirst]
    simp only [rootName, List.tail_cons, List.cons_append, List.nil_append]
    rw [hother _ (by decide), hother _ (by decide), hother _ (by decide), hother _ (by decide),
      hother _ (by decide), hother _ (by decide), hother _ (by decide), hother _ (by decide)]
  whole := whole_of_forall (by simp [rootName])
  trimmed := by
    have hall : (rootName.all fun c => !Text.isSpace c) = true := by decide
    exact .of_forall (by simpa using hall)
  single := by decide
  tidy := ⟨whole_of_forall (by simp [rootName]), by decide, by decide, by simp [rootName]⟩

theorem Turns.callsAsPowers_eq (h : Turns text result) : callsAsPowers powerName text = result := by
  have hturns := h.turns [] .nil
  have hnil : callsAsPowers powerName [] = [] := callsAsPowers_of_none rfl
  rwa [hnil, List.append_nil, List.append_nil] at hturns

/-- A call becomes a power. -/
theorem Turns.call (h : Turns text result) (h' : Turns text' result') (hne : text ≠ [])
    (hne' : text' ≠ []) :
    Turns (powerName ++ ('(' :: (text ++ ',' :: ' ' :: text') ++ [')']))
      (powerOperand result ++ '^' :: powerOperand result') where
  clear rest _ := by
    show '.' ∉ ['M', 'a', 't', 'h']
    decide
  turns rest hrest := by
    have hclosing : breakOnClosing 0 ((text ++ ',' :: ' ' :: text') ++ ')' :: rest) =
        some (text ++ ',' :: ' ' :: text', rest) := by
      rw [List.append_assoc, h.whole.closing _ (Nat.le_refl 0), List.cons_append, List.cons_append,
        breakOnClosing_other (by decide) (by decide), breakOnClosing_other (by decide) (by decide),
        h'.whole.closing _ (Nat.le_refl 0), breakOnClosing_zero]
      simp
    have harguments := twoArguments?_of_whole h.whole h'.whole h.trimmed h'.trimmed hne hne'
    have hcall := callsAsPowers_call powerName hclosing harguments
    rw [h.callsAsPowers_eq, h'.callsAsPowers_eq] at hcall
    rw [List.append_assoc, List.append_assoc, List.cons_append, List.singleton_append]
    exact hcall
  whole := by
    have hcomma : Whole 1 [',', ' '] :=
      (Whole.singleton (by decide) (by decide) (.inr (by decide))).append
        (.singleton (by decide) (by decide) (.inl (by decide)))
    exact (whole_of_forall (by simp [powerName])).append
      (h.whole.mono.append (hcomma.append h'.whole.mono)).bracket
  trimmed := by
    rw [← List.append_assoc]
    exact trimmed_of_ends (by decide) (by decide)
  single := by simp [powerName, h.single, h'.single]
  tidy := by
    have hsign : Tidy ['^'] :=
      .singleton (by decide) (by decide) (by decide) (by decide) (by decide)
    exact h.tidy.powerOperand.append (hsign.append h'.tidy.powerOperand)

end

end Formulary.Code
