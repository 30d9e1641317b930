import Formulary.Proofs.Balance

/-!
# Brackets in rewritten calls

The rewriting of power calls cuts a text at the name of the function, at the bracket that closes the
call and at the commas between the arguments.  Each cut leaves texts whose brackets match, whatever
stands around the call, and what is put together from them has the depth of what was cut: a text has
the same depths before and after the rewriting (`textDepth_callsAsPowers`).  Of the commas at least one
goes with every call that is rewritten (`count_comma_callsAsPowers`), so a text is changed exactly if
there is such a call (`RewritesCall`).

Main statement: `surplus_showPowers`.
-/

namespace Formulary.Code

open Formula

/-! ## 1. One character -/

/-- The number of brackets open behind a character, when `depth` are open before it. -/
def depthBehind (depth : Nat) (c : Char) : Nat :=
  if c = '(' then depth + 1 else if c = ')' then depth - 1 else depth

section

variable {depth : Nat} {c : Char}

-- a character opens a bracket, closes one of those that are open, or is no bracket
theorem depthBehind_cases (h : ¬(c = ')' ∧ depth = 0)) :
    (c = '(' ∧ depthBehind depth c = depth + 1) ∨
      (c = ')' ∧ depth = depthBehind depth c + 1) ∨
      (c ≠ '(' ∧ c ≠ ')' ∧ depthBehind depth c = depth) := by
  unfold depthBehind
  split
  · next hopen => exact .inl ⟨hopen, rfl⟩
  · next hopen =>
    split
    · next hclose =>
      have hpos : depth ≠ 0 := fun hzero => h ⟨hclose, hzero⟩
      exact .inr (.inl ⟨hclose, by omega⟩)
    · next hclose => exact .inr (.inr ⟨hopen, hclose, rfl⟩)

theorem textDepth_cons (h : ¬(c = ')' ∧ depth = 0)) (rest : List Char) :
    textDepth depth (c :: rest) = textDepth (depthBehind depth c) rest := by
  rcases depthBehind_cases h with ⟨rfl, hdepth⟩ | ⟨rfl, hdepth⟩ | ⟨hopen, hclose, hdepth⟩
  · rw [hdepth, textDepth_opening]
  · rw [hdepth, textDepth_closing, ← hdepth]
  · rw [hdepth, textDepth_other hopen hclose]

theorem breakOnClosing_cons (h : ¬(c = ')' ∧ depth = 0)) (rest : List Char) :
    breakOnClosing depth (c :: rest) =
      (breakOnClosing (depthBehind depth c) rest).map fun (inside, after) => (c :: inside, after) := by
  rcases depthBehind_cases h with ⟨rfl, hdepth⟩ | ⟨rfl, hdepth⟩ | ⟨hopen, hclose, hdepth⟩
  · rw [hdepth, breakOnClosing_opening]
  · rw [hdepth, breakOnClosing_closing, ← hdepth]
  · rw [hdepth, breakOnClosing_other hopen hclose]

theorem exists_splitAtCommas (depth : Nat) (text : List Char) :
    ∃ first more, splitAtCommas depth text = first :: more := by
  cases text with
  | nil => exact ⟨[], [], rfl⟩
  | cons c rest =>
    rw [splitAtCommas]
    split
    · exact ⟨_, _, rfl⟩
    · split <;> exact ⟨_, _, rfl⟩

end

/-! ## 2. The text around a call -/

/-- Up to the closing bracket that is found, all brackets match. -/
theorem breakOnClosing_eq {depth : Nat} {text inside rest : List Char}
    (h : breakOnClosing depth text = some (inside, rest)) :
    text = inside ++ ')' :: rest ∧ textDepth depth inside = some 0 := by
  induction text generalizing depth inside with
  | nil => exact absurd h (by simp [breakOnClosing])
  | cons c more ih =>
    by_cases hend : c = ')' ∧ depth = 0
    · obtain ⟨rfl, rfl⟩ := hend
      rw [breakOnClosing_zero] at h
      obtain ⟨rfl, rfl⟩ : [] = inside ∧ more = rest := by simpa using h
      exact ⟨rfl, rfl⟩
    · rw [breakOnClosing_cons hend] at h
      obtain ⟨⟨inside', rest'⟩, hmore, heq⟩ := Option.map_eq_some_iff.1 h
      obtain ⟨rfl, rfl⟩ : c :: inside' = inside ∧ rest' = rest := by simpa using heq
      obtain ⟨rfl, hdepth⟩ := ih hmore
      exact ⟨rfl, (textDepth_cons hend _).trans hdepth⟩

/-! ## 3. Arguments -/

/-- If the brackets of a text match, so do those of every part between its commas. -/
theorem splitAtCommas_parts {depth : Nat} {text first : List Char} {more : List (List Char)}
    (h : splitAtCommas depth text = first :: more) (hdepth : textDepth depth text = some 0) :
    textDepth depth first = some 0 ∧ ∀ part ∈ more, textDepth 0 part = some 0 := by
  induction text generalizing depth first more with
  | nil =>
    obtain ⟨rfl, rfl⟩ : [] = first ∧ [] = more := by simpa [splitAtCommas] using h
    exact ⟨hdepth, by simp⟩
  | cons c rest ih =>
    have hend : ¬(c = ')' ∧ depth = 0) := by
      rintro ⟨rfl, rfl⟩
      rw [textDepth_closing_zero] at hdepth
      exact absurd hdepth (by simp)
    rw [textDepth_cons hend] at hdepth
    obtain ⟨next, others, hnext⟩ := exists_splitAtCommas (depthBehind depth c) rest
    obtain ⟨hfirst, hothers⟩ := ih hnext hdepth
    by_cases hcomma : c = ',' ∧ depth = 0
    · obtain ⟨rfl, rfl⟩ := hcomma
      rw [splitAtCommas_comma, show splitAtCommas 0 rest = next :: others from hnext] at h
      obtain ⟨rfl, rfl⟩ := List.cons.inj h
      exact ⟨rfl, List.forall_mem_cons.2 ⟨hfirst, hothers⟩⟩
    · rw [splitAtCommas_cons hcomma rfl hnext] at h
      obtain ⟨rfl, rfl⟩ := List.cons.inj h
      exact ⟨(textDepth_cons hend _).trans hfirst, hothers⟩

-- a comma between two parts is in neither of them
theorem count_splitAtCommas {depth : Nat} {text first : List Char} {more : List (List Char)}
    (h : splitAtCommas depth text = first :: more) :
    text.count ',' = first.count ',' + more.flatten.count ',' + more.length := by
  induction text generalizing depth first more with
  | nil =>
    obtain ⟨rfl, rfl⟩ : [] = first ∧ [] = more := by simpa [splitAtCommas] using h
    rfl
  | cons c rest ih =>
    obtain ⟨next, others, hnext⟩ := exists_splitAtCommas (depthBehind depth c) rest
    have hcount := ih hnext
    by_cases hcomma : c = ',' ∧ depth = 0
    · obtain ⟨rfl, rfl⟩ := hcomma
      rw [splitAtCommas_comma, show splitAtCommas 0 rest = next :: others from hnext] at h
      obtain ⟨rfl, rfl⟩ := List.cons.inj h
      rw [List.count_cons_self, hcount, List.length_cons, List.flatten_cons, List.count_append,
        List.count_nil]
      omega
    · rw [splitAtCommas_cons hcomma rfl hnext] at h
      obtain ⟨rfl, rfl⟩ := List.cons.inj h
      rw [List.count_cons, hcount, List.count_cons]
      omega

theorem takeWhile_append_stripFront (cs : List Char) :
    cs.takeWhile Text.isSpace ++ Text.stripFront cs = cs :=
  List.takeWhile_append_dropWhile

theorem exists_strip (cs : List Char) : ∃ front back, cs = front ++ Text.strip cs ++ back ∧
    (∀ c ∈ front, Text.isSpace c = true) ∧ ∀ c ∈ back, Text.isSpace c = true := by
  refine ⟨cs.takeWhile Text.isSpace,
    ((Text.stripFront cs).reverse.takeWhile Text.isSpace).reverse, ?_,
    fun c hc => List.mem_takeWhile_imp hc,
    fun c hc => List.mem_takeWhile_imp (List.mem_reverse.1 hc)⟩
  rw [Text.strip, List.append_assoc, ← List.reverse_append, takeWhile_append_stripFront,
    List.reverse_reverse, takeWhile_append_stripFront]

theorem bracketless_spaces {cs : List Char} (h : ∀ c ∈ cs, Text.isSpace c = true) :
    Bracketless cs :=
  ⟨fun hmem => absurd (h _ hmem) (by decide), fun hmem => absurd (h _ hmem) (by decide)⟩

theorem textDepth_strip (depth : Nat) (cs : List Char) :
    textDepth depth (Text.strip cs) = textDepth depth cs := by
  obtain ⟨front, back, hcs, hfront, hback⟩ := exists_strip cs
  conv_rhs => rw [hcs, textDepth_append, textDepth_append,
    textDepth_bracketless (bracketless_spaces hfront), Option.bind_some]
  cases textDepth depth (Text.strip cs) with
  | none => rfl
  | some after => rw [Option.bind_some, textDepth_bracketless (bracketless_spaces hback)]

theorem count_strip (cs : List Char) : (Text.strip cs).count ',' = cs.count ',' := by
  obtain ⟨front, back, hcs, hfront, hback⟩ := exists_strip cs
  have hzero {spaces : List Char} (h : ∀ c ∈ spaces, Text.isSpace c = true) :
      spaces.count ',' = 0 :=
    List.count_eq_zero.2 fun hmem => absurd (h _ hmem) (by decide)
  conv_rhs => rw [hcs, List.count_append, List.count_append, hzero hfront, hzero hback]
  omega

theorem twoArguments?_eq_some {inside base exponent : List Char}
    (h : twoArguments? inside = some (base, exponent)) :
    ∃ first second, splitAtCommas 0 inside = [first, second] ∧ base = Text.strip first ∧
      exponent = Text.strip second := by
  unfold twoArguments? at h
  split at h
  · next hsplit =>
    split at h
    · exact absurd h (by simp)
    · obtain ⟨rfl, rfl⟩ := by simpa using h
      obtain ⟨first, more, hparts, rfl, hmore⟩ := List.map_eq_cons_iff.1 hsplit
      obtain ⟨second, others, rfl, rfl, hothers⟩ := List.map_eq_cons_iff.1 hmore
      rw [List.map_eq_nil_iff.1 hothers] at hparts
      exact ⟨first, second, hparts, rfl, rfl⟩
  · exact absurd h (by simp)

theorem powerOperand_cases (text : List Char) :
    powerOperand text = text ∨ powerOperand text = '(' :: text ++ [')'] := by
  unfold powerOperand
  split
  · split
    · exact .inl rfl
    · exact .inr rfl
  · exact .inl rfl

theorem textDepth_powerOperand {text : List Char} (h : textDepth 0 text = some 0) :
    textDepth 0 (powerOperand text) = some 0 := by
  rcases powerOperand_cases text with heq | heq
  · rw [heq, h]
  · rw [heq, textDepth_bracket h]

theorem count_powerOperand (text : List Char) : (powerOperand text).count ',' = text.count ',' := by
  rcases powerOperand_cases text with heq | heq
  · rw [heq]
  · rw [heq, List.count_append, List.count_cons_of_ne (by decide)]
    rfl

/-! ## 4. Depth -/

section

variable {name text before after inside rest base exponent : List Char}

/-- A call that is found is a part of the text in which brackets match. -/
theorem text_of_call (hn : breakOn (name ++ ['(']) text = some (before, after))
    (hc : breakOnClosing 0 after = some (inside, rest)) :
    text = before ++ (name ++ '(' :: inside ++ [')']) ++ rest ∧ textDepth 0 inside = some 0 := by
  obtain ⟨rfl, hdepth⟩ := breakOnClosing_eq hc
  refine ⟨?_, hdepth⟩
  rw [breakOn_eq hn]
  simp only [List.append_assoc, List.cons_append, List.nil_append]

theorem textDepth_call (hname : Bracketless name) (h : textDepth 0 inside = some 0) :
    textDepth 0 (name ++ '(' :: inside ++ [')']) = some 0 := by
  rw [List.append_assoc, textDepth_append, textDepth_bracketless hname, Option.bind_some]
  exact textDepth_bracket h

theorem textDepth_arguments (h : textDepth 0 inside = some 0)
    (ha : twoArguments? inside = some (base, exponent)) :
    textDepth 0 base = some 0 ∧ textDepth 0 exponent = some 0 := by
  obtain ⟨first, second, hparts, rfl, rfl⟩ := twoArguments?_eq_some ha
  obtain ⟨hfirst, hmore⟩ := splitAtCommas_parts hparts h
  rw [textDepth_strip, textDepth_strip]
  exact ⟨hfirst, hmore second List.mem_cons_self⟩

theorem textDepth_power (hb : textDepth 0 base = some 0) (he : textDepth 0 exponent = some 0) :
    textDepth 0 (powerOperand base ++ '^' :: powerOperand exponent) = some 0 := by
  rw [textDepth_append, textDepth_powerOperand hb, Option.bind_some,
    textDepth_other (by decide) (by decide), textDepth_powerOperand he]

-- a part in which brackets match makes no difference to the depth of what is around it
theorem textDepth_around (h : textDepth 0 inside = some 0) (depth : Nat) :
    textDepth depth (before ++ inside ++ rest) =
      (textDepth depth before).bind (textDepth · rest) := by
  have hinside (between : Nat) : textDepth between inside = some between := by
    have hadd := depthAfter_add h between
    rwa [Nat.zero_add] at hadd
  rw [textDepth_append, textDepth_append, Option.bind_assoc]
  congr 1
  funext between
  rw [hinside, Option.bind_some]

end

/-- **The rewriting leaves the depth of a text as it is.** -/
theorem textDepth_callsAsPowers {name : List Char} (hname : Bracketless name) (text : List Char)
    (depth : Nat) : textDepth depth (callsAsPowers name text) = textDepth depth text := by
  induction text using callsAsPowers.induct name generalizing depth with
  | case1 text hn => rw [callsAsPowers_of_none hn]
  | case2 text before after hn hc => rw [callsAsPowers_of_open hn hc]
  | case3 text before after hn inside rest hc base exponent ha ihb ihe ihr =>
    obtain ⟨htext, hinside⟩ := text_of_call hn hc
    obtain ⟨hb, he⟩ := textDepth_arguments hinside ha
    have hpower := textDepth_power ((ihb 0).trans hb) ((ihe 0).trans he)
    rw [callsAsPowers_of_some hn hc, rewritten, ha, textDepth_around hpower, funext ihr, htext,
      textDepth_around (textDepth_call hname hinside)]
  | case4 text before after hn inside rest hc ha ihr =>
    obtain ⟨htext, hinside⟩ := text_of_call hn hc
    have hcall := textDepth_call hname hinside
    rw [callsAsPowers_of_some hn hc, rewritten, ha, textDepth_around hcall, funext ihr, htext,
      textDepth_around hcall]

/-! ## 5. Change -/

/-- A search for the calls of a function, each behind the end of the one before, comes to one with two
arguments. -/
inductive RewritesCall (name : List Char) : List Char → Prop
  | here {text before after inside rest base exponent : List Char}
      (hn : breakOn (name ++ ['(']) text = some (before, after))
      (hc : breakOnClosing 0 after = some (inside, rest))
      (ha : twoArguments? inside = some (base, exponent)) : RewritesCall name text
  | later {text before after inside rest : List Char}
      (hn : breakOn (name ++ ['(']) text = some (before, after))
      (hc : breakOnClosing 0 after = some (inside, rest)) (h : RewritesCall name rest) :
      RewritesCall name text

section

variable {name text before after inside rest base exponent : List Char}

theorem not_rewritesCall_of_none (hn : breakOn (name ++ ['(']) text = none) :
    ¬RewritesCall name text := by
  rintro (⟨hn', -, -⟩ | ⟨hn', -, -⟩)
  all_goals
    rw [hn] at hn'
    exact absurd hn' (by simp)

theorem not_rewritesCall_of_open (hn : breakOn (name ++ ['(']) text = some (before, after))
    (hc : breakOnClosing 0 after = none) : ¬RewritesCall name text := by
  rintro (⟨hn', hc', -⟩ | ⟨hn', hc', -⟩)
  all_goals
    obtain ⟨rfl, rfl⟩ := Prod.mk.inj (Option.some.inj (hn.symm.trans hn'))
    rw [hc] at hc'
    exact absurd hc' (by simp)

theorem rewritesCall_iff_of_call (hn : breakOn (name ++ ['(']) text = some (before, after))
    (hc : breakOnClosing 0 after = some (inside, rest)) (ha : twoArguments? inside = none) :
    RewritesCall name text ↔ RewritesCall name rest := by
  constructor
  · rintro (⟨hn', hc', ha'⟩ | ⟨hn', hc', h⟩)
    all_goals
      obtain ⟨rfl, rfl⟩ := Prod.mk.inj (Option.some.inj (hn.symm.trans hn'))
      obtain ⟨rfl, rfl⟩ := Prod.mk.inj (Option.some.inj (hc.symm.trans hc'))
    · rw [ha] at ha'
      exact absurd ha' (by simp)
    · exact h
  · exact .later hn hc

theorem count_arguments (ha : twoArguments? inside = some (base, exponent)) :
    inside.count ',' = base.count ',' + exponent.count ',' + 1 := by
  obtain ⟨first, second, hparts, rfl, rfl⟩ := twoArguments?_eq_some ha
  have hcount := count_splitAtCommas hparts
  rw [List.flatten_singleton, List.length_singleton] at hcount
  rw [count_strip, count_strip, hcount]

theorem count_call (name inside : List Char) :
    (name ++ '(' :: inside ++ [')']).count ',' = name.count ',' + inside.count ',' := by
  rw [List.count_append, List.count_append, List.count_cons_of_ne (by decide)]
  rfl

theorem count_power (base exponent : List Char) :
    (powerOperand base ++ '^' :: powerOperand exponent).count ',' =
      base.count ',' + exponent.count ',' := by
  rw [List.count_append, List.count_cons_of_ne (by decide), count_powerOperand, count_powerOperand]

end

/-- No comma comes in, and every call that is rewritten takes one with it. -/
theorem count_comma_callsAsPowers (name text : List Char) :
    (callsAsPowers name text).count ',' ≤ text.count ',' ∧
      (RewritesCall name text → (callsAsPowers name text).count ',' < text.count ',') := by
  induction text using callsAsPowers.induct name with
  | case1 text hn =>
    rw [callsAsPowers_of_none hn]
    exact ⟨Nat.le_refl _, fun h => absurd h (not_rewritesCall_of_none hn)⟩
  | case2 text before after hn hc =>
    rw [callsAsPowers_of_open hn hc]
    exact ⟨Nat.le_refl _, fun h => absurd h (not_rewritesCall_of_open hn hc)⟩
  | case3 text before after hn inside rest hc base exponent ha ihb ihe ihr =>
    have hinside := count_arguments ha
    have hlt : (callsAsPowers name text).count ',' < text.count ',' := by
      rw [callsAsPowers_of_some hn hc, rewritten, ha, (text_of_call hn hc).1, List.count_append,
        List.count_append, count_power, List.count_append, List.count_append, count_call]
      have := ihb.1
      have := ihe.1
      have := ihr.1
      omega
    exact ⟨Nat.le_of_lt hlt, fun _ => hlt⟩
  | case4 text before after hn inside rest hc ha ihr =>
    rw [rewritesCall_iff_of_call hn hc ha, callsAsPowers_of_some hn hc, rewritten, ha,
      (text_of_call hn hc).1]
    have hcount (more : List Char) :
        (before ++ (name ++ '(' :: inside ++ [')']) ++ more).count ',' =
          (before ++ (name ++ '(' :: inside ++ [')'])).count ',' + more.count ',' :=
      List.count_append
    rw [hcount, hcount]
    exact ⟨Nat.add_le_add_left ihr.1 _, fun h => Nat.add_lt_add_left (ihr.2 h) _⟩

/-- **A text is changed exactly if a call in it is rewritten.** -/
theorem callsAsPowers_eq_self_iff {name text : List Char} :
    callsAsPowers name text = text ↔ ¬RewritesCall name text := by
  constructor
  · intro heq h
    have hlt := (count_comma_callsAsPowers name text).2 h
    rw [heq] at hlt
    exact absurd hlt (Nat.lt_irrefl _)
  · intro h
    induction text using callsAsPowers.induct name with
    | case1 text hn => exact callsAsPowers_of_none hn
    | case2 text before after hn hc => exact callsAsPowers_of_open hn hc
    | case3 text before after hn inside rest hc base exponent ha _ _ _ =>
      exact absurd (.here hn hc ha) h
    | case4 text before after hn inside rest hc ha ihr =>
      rw [rewritesCall_iff_of_call hn hc ha] at h
      rw [callsAsPowers_of_some hn hc, rewritten, ha, ihr h]
      exact (text_of_call hn hc).1.symm

-- without the name and a bracket behind it there is no call
theorem not_rewritesCall_of_not_infix {name text : List Char} (h : ¬name ++ ['('] <:+: text) :
    ¬RewritesCall name text := by
  rintro (⟨hn, -, -⟩ | ⟨hn, -, -⟩)
  all_goals exact h ⟨_, _, (breakOn_eq hn).symm⟩

/-! ## 6. Surplus -/

theorem surplus_callsAsPowers {name : List Char} (hname : Bracketless name) (text : List Char) :
    surplus (callsAsPowers name text) = surplus text := by
  -- so many brackets open before the text are enough for all that it closes
  obtain ⟨after, hafter⟩ : ∃ after, textDepth text.length text = some after := by
    refine exists_textDepth_iff.2 fun front hfront => ?_
    have hcount : front.count ')' ≤ front.length := List.count_le_length
    have hlength := hfront.length_le
    unfold surplus
    omega
  have hsame := (textDepth_callsAsPowers hname text text.length).trans hafter
  rw [surplus_eq_sub hafter, surplus_eq_sub hsame]

theorem prefix_surplus_callsAsPowers {name : List Char} (hname : Bracketless name)
    (text : List Char) : (∀ front, front <+: callsAsPowers name text → 0 ≤ surplus front) ↔
      ∀ front, front <+: text → 0 ≤ surplus front := by
  have hiff (cs : List Char) : (∀ front, front <+: cs → 0 ≤ surplus front) ↔
      ∃ after, textDepth 0 cs = some after := by
    rw [exists_textDepth_iff]
    simp
  rw [hiff, hiff, textDepth_callsAsPowers hname]

/-- **Rewriting power calls keeps brackets balanced.**  For every text, balanced or not, and every name
without brackets, the empty one too, the rewritten text opens as many brackets more than it closes as
the text does, and a first part of it closes more than it opens only if one of the text does.  Without
the name and a bracket behind it the text stays as it is; it is changed exactly if a call in it is
rewritten. -/
theorem surplus_showPowers {name : String} (hname : Bracketless name.toList) (text : String) :
    surplus (showPowers name text).toList = surplus text.toList ∧
      ((∀ front, front <+: text.toList → 0 ≤ surplus front) →
        ∀ front, front <+: (showPowers name text).toList → 0 ≤ surplus front) ∧
      (¬name.toList ++ ['('] <:+: text.toList → showPowers name text = text) ∧
      (showPowers name text = text ↔ ¬RewritesCall name.toList text.toList) := by
  have hself : showPowers name text = text ↔ ¬RewritesCall name.toList text.toList := by
    rw [← callsAsPowers_eq_self_iff, ← String.toList_inj, showPowers, String.toList_ofList]
  rw [hself, showPowers, String.toList_ofList]
  exact ⟨surplus_callsAsPowers hname _, (prefix_surplus_callsAsPowers hname _).2,
    not_rewritesCall_of_not_infix, Iff.rfl⟩

theorem surplus_showPowers_unclosed :
    Bracketless "f".toList ∧
    (∀ front, front <+: "(f(a+b, f(c,2))".toList → 0 ≤ surplus front) ∧
    surplus (showPowers "f" "(f(a+b, f(c,2))").toList = surplus "(f(a+b, f(c,2))".toList ∧
    (∀ front, front <+: (showPowers "f" "(f(a+b, f(c,2))").toList → 0 ≤ surplus front) ∧
    ¬"f".toList ++ ['('] <:+: "(a,b)".toList ∧ showPowers "f" "(a,b)" = "(a,b)" := by
  have hname : Bracketless "f".toList := ⟨by decide, by decide⟩
  have hopen : textDepth 0 "(f(a+b, f(c,2))".toList = some 1 := by decide +kernel
  have hfront : ∀ front, front <+: "(f(a+b, f(c,2))".toList → 0 ≤ surplus front :=
    fun front hfront => surplus_nonneg_of_prefix hfront hopen
  have hnone : ¬"f".toList ++ ['('] <:+: "(a,b)".toList := by decide
  obtain ⟨hsurplus, hprefix, -, -⟩ := surplus_showPowers hname "(f(a+b, f(c,2))"
  obtain ⟨-, -, hsame, -⟩ := surplus_showPowers hname "(a,b)"
  exact ⟨hname, hfront, hsurplus, hprefix hfront, hnone, hsame hnone⟩

example : showPowers "" "((a,b),c)+(" = "(a^b)^c+(" := by decide +kernel

end Formulary.Code
