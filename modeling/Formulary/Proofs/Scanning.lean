import Formulary.Proofs.Rescan

/-!
# Where words stand in a text

A scan loses nothing but white space.  Its tokens stand one behind the other, each is what the text
has at the token's position, and a word that is no operator is a longest run of word characters
(`IsLongestRun`).  A scan can be cut in two where no word goes across the border (`scanFrom_append`),
in particular at an operator and at white space.

Main statement: `scan_lossless`.
-/

namespace Formulary.Token

/-! ## 1. Cutting a scan in two -/

/-- No word goes on from the end of the one text to the beginning of the other. -/
def IsBorder (xs ys : List Char) : Prop :=
  (∀ c ∈ xs.getLast?, isWordChar c = false) ∨ ∀ c ∈ ys.head?, isWordChar c = false

theorem isWordChar_of_isSpace {c : Char} (h : Text.isSpace c = true) : isWordChar c = false := by
  rw [isWordChar, h]
  rfl

-- a last part of a text has the text's border
theorem IsBorder.of_suffix {xs ys back : List Char} (h : IsBorder xs ys) (hback : back <:+ xs) :
    IsBorder back ys := by
  obtain ⟨front, rfl⟩ := hback
  refine h.imp_left fun hlast c hc => hlast c ?_
  rw [List.getLast?_append, hc]
  rfl

theorem dropWhile_of_head {cs : List Char} (h : ∀ c ∈ cs.head?, isWordChar c = false) :
    cs.dropWhile isWordChar = cs := by
  cases cs with
  | nil => rfl
  | cons c rest => exact List.dropWhile_cons_of_neg (by simp [h c rfl])

-- a run at the end of a text does not go on behind a border
theorem dropWhile_append_border {c : Char} {rest ys : List Char} (hc : isWordChar c = true)
    (h : IsBorder (c :: rest) ys) :
    (rest ++ ys).dropWhile isWordChar = rest.dropWhile isWordChar ++ ys := by
  rw [List.dropWhile_append]
  split
  · next hempty =>
    have hnil := List.isEmpty_iff.1 hempty
    have hall : ∀ d ∈ c :: rest, isWordChar d = true :=
      List.forall_mem_cons.2 ⟨hc, List.dropWhile_eq_nil_iff.1 hnil⟩
    -- the text ends with a word character, so what follows begins with none
    have hhead : ∀ d ∈ ys.head?, isWordChar d = false := by
      refine h.resolve_left fun hlast => ?_
      have hmem := List.getLast_mem (List.cons_ne_nil c rest)
      have hfalse := hlast _ (List.getLast?_eq_some_getLast (List.cons_ne_nil c rest))
      rw [hall _ hmem] at hfalse
      exact absurd hfalse (by decide)
    rw [hnil, List.nil_append, dropWhile_of_head hhead]
  · rfl

theorem takeWhile_append_border {c : Char} {rest ys : List Char} (hc : isWordChar c = true)
    (h : IsBorder (c :: rest) ys) :
    (rest ++ ys).takeWhile isWordChar = rest.takeWhile isWordChar := by
  have hsplit : (rest ++ ys).takeWhile isWordChar ++ (rest.dropWhile isWordChar ++ ys) =
      rest.takeWhile isWordChar ++ (rest.dropWhile isWordChar ++ ys) := by
    rw [← dropWhile_append_border hc h, List.takeWhile_append_dropWhile,
      dropWhile_append_border hc h, ← List.append_assoc, List.takeWhile_append_dropWhile]
  exact List.append_cancel_right hsplit

/-- **A scan is cut at a border.** -/
theorem scanFrom_append {xs ys : List Char} (h : IsBorder xs ys) (position : Nat) :
    scanFrom position (xs ++ ys) = scanFrom position xs ++ scanFrom (position + xs.length) ys := by
  induction position, xs using scanFrom.induct with
  | case1 position =>
    rw [scanFrom, List.nil_append, List.nil_append, List.length_nil, Nat.add_zero]
  | case2 position c rest hspace ih =>
    have hrest := ih (h.of_suffix (List.suffix_cons c rest))
    rw [List.cons_append, scanFrom, if_pos hspace, hrest, scanFrom, if_pos hspace, List.length_cons,
      Nat.add_assoc, Nat.add_comm 1]
  | case3 position c rest hspace hop ih =>
    have hrest := ih (h.of_suffix (List.suffix_cons c rest))
    rw [List.cons_append, scanFrom, if_neg hspace, if_pos hop, hrest, scanFrom, if_neg hspace,
      if_pos hop, List.cons_append, List.length_cons, Nat.add_assoc, Nat.add_comm 1]
  | case4 position c rest hspace hop word ih =>
    have hc := isWordChar_of_not hspace hop
    have hback : rest.dropWhile isWordChar <:+ c :: rest :=
      (List.dropWhile_suffix _).trans (List.suffix_cons c rest)
    have hlength : word.length + (rest.dropWhile isWordChar).length = (c :: rest).length := by
      rw [← List.length_append, ← cons_eq_word_append]
    have hrest := ih (h.of_suffix hback)
    rw [Nat.add_assoc, hlength] at hrest
    rw [List.cons_append, scanFrom, if_neg hspace, if_neg hop, takeWhile_append_border hc h,
      dropWhile_append_border hc h, scanFrom, if_neg hspace, if_neg hop, List.cons_append]
    exact congrArg _ hrest

/-! ## 2. The places of the tokens -/

theorem position_le_of_mem {position : Nat} {cs : List Char} {t : Token}
    (ht : t ∈ scanFrom position cs) : position ≤ t.position := by
  induction position, cs using scanFrom.induct with
  | case1 position =>
    rw [scanFrom] at ht
    exact absurd ht List.not_mem_nil
  | case2 position c rest hspace ih =>
    rw [scanFrom, if_pos hspace] at ht
    have := ih ht
    omega
  | case3 position c rest hspace hop ih =>
    rw [scanFrom, if_neg hspace, if_pos hop] at ht
    rcases List.mem_cons.1 ht with rfl | ht
    · exact Nat.le_refl _
    · have := ih ht
      omega
  | case4 position c rest hspace hop word ih =>
    rw [scanFrom, if_neg hspace, if_neg hop] at ht
    rcases List.mem_cons.1 ht with rfl | ht
    · exact Nat.le_refl _
    · have := ih ht
      omega

/-- A token ends before the next one begins. -/
theorem pairwise_scanFrom (position : Nat) (cs : List Char) :
    (scanFrom position cs).Pairwise fun a b => a.position + a.text.length ≤ b.position := by
  induction position, cs using scanFrom.induct with
  | case1 position =>
    rw [scanFrom]
    exact .nil
  | case2 position c rest hspace ih =>
    rw [scanFrom, if_pos hspace]
    exact ih
  | case3 position c rest hspace hop ih =>
    rw [scanFrom, if_neg hspace, if_pos hop]
    refine .cons (fun b hb => ?_) ih
    rw [String.length_singleton]
    exact position_le_of_mem hb
  | case4 position c rest hspace hop word ih =>
    rw [scanFrom, if_neg hspace, if_neg hop]
    refine .cons (fun b hb => ?_) ih
    rw [String.length_ofList]
    exact position_le_of_mem hb

/-! ## 3. The parts of the text -/

/-- A run of word characters between two parts of a text that cannot be made longer. -/
structure IsLongestRun (before run after : List Char) : Prop where
  ne_nil : run ≠ []
  chars : ∀ c ∈ run, isWordChar c = true
  left : ∀ c ∈ before.getLast?, isWordChar c = false
  right : ∀ c ∈ after.head?, isWordChar c = false

/-- A word between two parts of a text: an operator character, or a longest run. -/
def IsCut (before word after : List Char) : Prop :=
  (∃ c, Symbol.isOperatorChar c = true ∧ word = [c]) ∨ IsLongestRun before word after

theorem IsCut.ne_nil {before word after : List Char} (h : IsCut before word after) : word ≠ [] := by
  rcases h with ⟨c, -, rfl⟩ | hrun
  · exact List.cons_ne_nil c []
  · exact hrun.ne_nil

theorem IsCut.prepend {front before word after : List Char} (h : IsCut before word after)
    (hborder : IsBorder front (before ++ word ++ after)) : IsCut (front ++ before) word after := by
  refine h.imp_right fun hrun => ⟨hrun.ne_nil, hrun.chars, fun c hc => ?_, hrun.right⟩
  rw [List.getLast?_append, Option.mem_def, Option.or_eq_some_iff] at hc
  rcases hc with hc | ⟨hnone, hc⟩
  · exact hrun.left c hc
  · -- the run begins where the text in front ends, so the border is on its left
    obtain rfl := List.getLast?_eq_none_iff.1 hnone
    obtain ⟨d, run, rfl⟩ := List.exists_cons_of_ne_nil hrun.ne_nil
    refine hborder.elim (fun hlast => hlast c hc) fun hhead => ?_
    have hfalse := hhead d rfl
    rw [hrun.chars d List.mem_cons_self] at hfalse
    exact absurd hfalse (by decide)

/-- The token is cut from a text whose first character has the given position. -/
def StandsIn (position : Nat) (cs : List Char) (t : Token) : Prop :=
  ∃ before after, cs = before ++ t.text.toList ++ after ∧
    position + before.length = t.position ∧ IsCut before t.text.toList after

theorem StandsIn.prepend {position : Nat} {front cs : List Char} {t : Token}
    (h : StandsIn (position + front.length) cs t) (hborder : IsBorder front cs) :
    StandsIn position (front ++ cs) t := by
  obtain ⟨before, after, rfl, hposition, hcut⟩ := h
  refine ⟨front ++ before, after, ?_, ?_, hcut.prepend hborder⟩
  · rw [List.append_assoc, List.append_assoc, List.append_assoc]
  · rw [List.length_append, ← Nat.add_assoc, hposition]

theorem StandsIn.cons {position : Nat} {c : Char} {cs : List Char} {t : Token}
    (h : StandsIn (position + 1) cs t) (hc : isWordChar c = false) : StandsIn position (c :: cs) t := by
  have hborder : IsBorder [c] cs := by
    refine .inl fun d hd => ?_
    obtain rfl := Option.some.inj hd
    exact hc
  exact StandsIn.prepend h hborder

/-- Every token of a scan is cut from the text. -/
theorem standsIn_of_mem {position : Nat} {cs : List Char} {t : Token}
    (ht : t ∈ scanFrom position cs) : StandsIn position cs t := by
  induction position, cs using scanFrom.induct with
  | case1 position =>
    rw [scanFrom] at ht
    exact absurd ht List.not_mem_nil
  | case2 position c rest hspace ih =>
    rw [scanFrom, if_pos hspace] at ht
    exact (ih ht).cons (isWordChar_of_isSpace hspace)
  | case3 position c rest hspace hop ih =>
    rw [scanFrom, if_neg hspace, if_pos hop] at ht
    rcases List.mem_cons.1 ht with rfl | ht
    · exact ⟨[], rest, by simp, rfl, .inl ⟨c, hop, by simp⟩⟩
    · exact (ih ht).cons (isWordChar_of_isOperatorChar hop)
  | case4 position c rest hspace hop word ih =>
    rw [scanFrom, if_neg hspace, if_neg hop] at ht
    rw [cons_eq_word_append]
    rcases List.mem_cons.1 ht with rfl | ht
    · refine ⟨[], rest.dropWhile isWordChar, ?_, rfl, .inr ?_⟩
      · rw [String.toList_ofList, List.nil_append]
      · rw [String.toList_ofList]
        exact ⟨List.cons_ne_nil _ _, isWordChar_of_mem_word hspace hop, by simp,
          isWordChar_head?_dropWhile⟩
    · exact (ih ht).prepend (.inr isWordChar_head?_dropWhile)

/-- The token takes up the place of the character with the given position. -/
def Covers (t : Token) (place : Nat) : Prop :=
  t.position ≤ place ∧ place < t.position + t.text.length

/-- A character that no token takes up is white space. -/
theorem isSpace_or_covers (position : Nat) (cs : List Char) : ∀ index c, cs[index]? = some c →
    Text.isSpace c = true ∨ ∃ t ∈ scanFrom position cs, t.Covers (position + index) := by
  induction position, cs using scanFrom.induct with
  | case1 position => exact fun _ _ h => absurd h (by simp)
  | case2 position d rest hspace ih =>
    rw [scanFrom, if_pos hspace]
    rintro (_ | index) c h
    · obtain rfl := Option.some.inj h
      exact .inl hspace
    · rw [Nat.add_comm index, ← Nat.add_assoc]
      exact ih index c h
  | case3 position d rest hspace hop ih =>
    rw [scanFrom, if_neg hspace, if_pos hop]
    rintro (_ | index) c h
    · exact .inr ⟨_, List.mem_cons_self, by simp [Covers]⟩
    · rw [Nat.add_comm index, ← Nat.add_assoc]
      refine (ih index c h).imp_right ?_
      rintro ⟨t, ht, hcovers⟩
      exact ⟨t, List.mem_cons_of_mem _ ht, hcovers⟩
  | case4 position d rest hspace hop word ih =>
    rw [scanFrom, if_neg hspace, if_neg hop, cons_eq_word_append]
    intro index c h
    by_cases hin : index < word.length
    · refine .inr ⟨_, List.mem_cons_self, Nat.le_add_right _ _, ?_⟩
      rw [String.length_ofList]
      exact Nat.add_lt_add_left hin position
    · -- the character stands behind the word
      obtain ⟨more, rfl⟩ := Nat.exists_eq_add_of_le (Nat.le_of_not_lt hin)
      rw [List.getElem?_append_right (Nat.le_add_right _ _), Nat.add_sub_cancel_left] at h
      rw [← Nat.add_assoc]
      refine (ih more c h).imp_right ?_
      rintro ⟨t, ht, hcovers⟩
      exact ⟨t, List.mem_cons_of_mem _ ht, hcovers⟩

/-! ## 4. Formulas -/

theorem wordsOf_append {xs ys : List Char} (h : IsBorder xs ys) :
    wordsOf (xs ++ ys) = wordsOf xs ++ wordsOf ys := by
  rw [wordsOf, scanFrom_append h, List.map_append, map_text_scanFrom, map_text_scanFrom]

theorem wordsOf_spaces {cs : List Char} (h : ∀ c ∈ cs, Text.isSpace c = true) (rest : List Char) :
    wordsOf (cs ++ rest) = wordsOf rest := by
  induction cs with
  | nil => rfl
  | cons c cs ih =>
    obtain ⟨hc, hcs⟩ := List.forall_mem_cons.1 h
    rw [List.cons_append, wordsOf, scanFrom, if_pos hc, map_text_scanFrom, ih hcs]

theorem words_operator (s t : String) {c : Char} (hc : Symbol.isOperatorChar c = true) :
    words (s ++ String.singleton c ++ t) = words s ++ [String.singleton c] ++ words t := by
  have hborder : IsBorder s.toList (c :: t.toList) := by
    refine .inr fun d hd => ?_
    obtain rfl := Option.some.inj hd
    exact isWordChar_of_isOperatorChar hc
  rw [words_eq, words_eq, words_eq, String.toList_append, String.toList_append,
    String.toList_singleton, List.append_assoc, List.singleton_append, wordsOf_append hborder,
    wordsOf_operator hc, List.append_assoc, List.singleton_append]

theorem words_spaces (s t : String) {w : String} (hne : w ≠ "")
    (hw : ∀ c ∈ w.toList, Text.isSpace c = true) : words (s ++ w ++ t) = words s ++ words t := by
  have hborder : IsBorder s.toList (w.toList ++ t.toList) := by
    refine .inr fun d hd => ?_
    have hw' : w.toList ≠ [] := fun hnil => hne (String.toList_eq_nil_iff.1 hnil)
    rw [List.head?_append_of_ne_nil _ hw'] at hd
    exact isWordChar_of_isSpace (hw d (List.mem_of_mem_head? hd))
  rw [words_eq, words_eq, words_eq, String.toList_append, String.toList_append, List.append_assoc,
    wordsOf_append hborder, wordsOf_spaces hw]

/-- **A scan loses nothing and takes the longest words.**  The tokens of a text stand one behind the
other without overlapping; each is what the text has at its position, and is one operator character
or a run of other characters that are not white space, which goes on neither to the left nor to the
right; every character outside the tokens is white space.  So an operator character and white space
cut the words of a text in two. -/
theorem scan_lossless (s : String) :
    ((scan s).Pairwise fun a b =>
      a.position < b.position ∧ a.position + a.text.length ≤ b.position) ∧
    (∀ t ∈ scan s, ∃ before after, s.toList = before ++ t.text.toList ++ after ∧
      before.length = t.position ∧
      ((∃ c, Symbol.isOperatorChar c = true ∧ t.text.toList = [c]) ∨
        IsLongestRun before t.text.toList after)) ∧
    (∀ index c, s.toList[index]? = some c → (∀ t ∈ scan s, ¬t.Covers index) →
      Text.isSpace c = true) ∧
    (∀ (t : String) (o : Char), Symbol.isOperatorChar o = true →
      words (s ++ String.singleton o ++ t) = words s ++ [String.singleton o] ++ words t) ∧
    (∀ t w : String, w ≠ "" → (∀ c ∈ w.toList, Text.isSpace c = true) →
      words (s ++ w ++ t) = words s ++ words t) := by
  have hstands : ∀ t ∈ scan s, StandsIn 0 s.toList t := fun t ht => standsIn_of_mem ht
  refine ⟨?_, fun t ht => ?_, fun index c hc hfree => ?_, fun t o ho => words_operator s t ho,
    fun t w hne hw => words_spaces s t hne hw⟩
  · refine (pairwise_scanFrom 0 s.toList).imp_of_mem fun {a b} ha _ hle => ⟨?_, hle⟩
    obtain ⟨_, _, -, -, hcut⟩ := hstands a ha
    have hpos : 0 < a.text.length := by
      rw [← String.length_toList]
      exact List.length_pos_of_ne_nil hcut.ne_nil
    omega
  · obtain ⟨before, after, htext, hposition, hcut⟩ := hstands t ht
    exact ⟨before, after, htext, by omega, hcut⟩
  · refine (isSpace_or_covers 0 s.toList index c hc).resolve_right ?_
    rintro ⟨t, ht, hcovers⟩
    rw [Nat.zero_add] at hcovers
    exact hfree t ht hcovers

theorem scan_lossless_borders :
    (Symbol.isOperatorChar '^' = true ∧ words ("2a" ++ String.singleton '^' ++ "b)") =
      words "2a" ++ [String.singleton '^'] ++ words "b)") ∧
    (("\t " : String) ≠ "" ∧ (∀ c ∈ "\t ".toList, Text.isSpace c = true) ∧
      words ("2a" ++ "\t " ++ "b)") = words "2a" ++ words "b)") ∧
    "2a ".toList[2]? = some ' ' ∧ (∀ t ∈ scan "2a ", ¬t.Covers 2) ∧ Text.isSpace ' ' = true := by
  obtain ⟨-, -, -, hoperator, hspaces⟩ := scan_lossless "2a"
  obtain ⟨-, -, houtside, -, -⟩ := scan_lossless "2a "
  have hop : Symbol.isOperatorChar '^' = true := by decide
  have hne : ("\t " : String) ≠ "" := by decide
  have hw : ∀ c ∈ "\t ".toList, Text.isSpace c = true := List.all_eq_true.1 (by decide)
  have hlast : "2a ".toList[2]? = some ' ' := by decide
  have hfree : ∀ t ∈ scan "2a ", ¬t.Covers 2 := by
    have htokens : scan "2a " = [⟨.number, "2a", 0⟩] := by decide +kernel
    rw [htokens]
    intro t ht hcovers
    obtain rfl := List.mem_singleton.1 ht
    exact absurd hcovers.2 (by decide)
  exact ⟨⟨hop, hoperator "b)" '^' hop⟩, ⟨hne, hw, hspaces "b)" "\t " hne hw⟩, hlast, hfree,
    houtside 2 ' ' hlast hfree⟩

end Formulary.Token
