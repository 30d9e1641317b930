import Formulary.Proofs.Markup.Rereading

/-!
# Documents that were written

Line ends are unified before the elements of a document are read.  They stand in texts only, so this
changes the texts and leaves the tags (`unifyLineEnds_write`).  The document written for a tree is
therefore read as the tree with the line ends of its texts unified (`treeOfText_written`).
-/

namespace Formulary.Text

/-! ## 1. Line ends -/

theorem unifyLineEnds_append_of_notMem {xs : List Char} (h : '\r' ∉ xs) (ys : List Char) :
    unifyLineEnds (xs ++ ys) = xs ++ unifyLineEnds ys := by
  induction xs with
  | nil => rfl
  | cons c xs ih =>
    rw [List.mem_cons, not_or] at h
    have hc : c ≠ '\r' := fun hc => h.1 hc.symm
    rw [List.cons_append, unifyLineEnds, ih h.2]
    · rfl
    · simp [hc]
    · simpa using hc

theorem unifyLineEnds_of_notMem {cs : List Char} (h : '\r' ∉ cs) : unifyLineEnds cs = cs := by
  have happend := unifyLineEnds_append_of_notMem h []
  rwa [unifyLineEnds, List.append_nil] at happend

theorem notMem_unifyLineEnds (cs : List Char) : '\r' ∉ unifyLineEnds cs := by
  fun_induction unifyLineEnds cs with
  | case1 rest ih => simpa using ih
  | case2 rest _ ih => simpa using ih
  | case3 c rest _ hc ih => simpa using ⟨fun h => hc h.symm, ih⟩
  | case4 => simp

theorem mem_unifyLineEnds {c : Char} {cs : List Char} (h : c ∈ unifyLineEnds cs) :
    c = '\n' ∨ c ∈ cs := by
  fun_induction unifyLineEnds cs with
  | case1 rest ih => grind
  | case2 rest _ ih => grind
  | case3 d rest _ _ ih => grind
  | case4 => simp at h

/-- The text with every line end as a single line feed. -/
def unified (s : String) : String :=
  String.ofList (unifyLineEnds s.toList)

theorem toList_unified (s : String) : (unified s).toList = unifyLineEnds s.toList :=
  String.toList_ofList

theorem unified_eq_self_iff {s : String} : unified s = s ↔ '\r' ∉ s.toList := by
  rw [← String.toList_inj, toList_unified]
  constructor
  · intro h
    rw [← h]
    exact notMem_unifyLineEnds _
  · exact unifyLineEnds_of_notMem

end Formulary.Text

namespace Formulary.Markup

open Text (unifyLineEnds unified)

/-! ## 2. Line ends in markup -/

/-- A character that markup has in texts only. -/
def IsTextual (mark : Char) : Prop :=
  isNameChar .usual mark = false ∧ mark ∉ ['<', '>', '/', ' ', '&', ';']

theorem isTextual_return : IsTextual '\r' :=
  ⟨by decide, by decide⟩

theorem notMem_escapeChar {mark c : Char} (hmark : IsTextual mark) (h : c ≠ mark) :
    mark ∉ escapeChar c := by
  have hletter {d : Char} (hd : isNameChar .usual d = true) : mark ≠ d := by
    rintro rfl
    rw [hmark.1] at hd
    cases hd
  have hsigns := hmark.2
  simp only [List.mem_cons, List.not_mem_nil, or_false, not_or] at hsigns
  unfold escapeChar
  split
  · simp [hsigns, hletter (d := 'a') rfl, hletter (d := 'm') rfl, hletter (d := 'p') rfl]
  split
  · simp [hsigns, hletter (d := 'l') rfl, hletter (d := 't') rfl]
  split
  · simp [hsigns, hletter (d := 'g') rfl, hletter (d := 't') rfl]
  · simpa using fun hc => h hc.symm

theorem IsTag.notMem {tag : String} (h : IsTag tag) {mark : Char} (hmark : IsTextual mark) :
    mark ∉ tag.toList := by
  intro hmem
  obtain ⟨c, name, hname, hstart⟩ := h.starts
  unfold IsTag at h
  rw [hname] at h hmem
  rw [isName, Bool.and_eq_true_iff, List.all_eq_true] at h
  have hchar : isNameChar .usual mark = true := by
    rcases List.mem_cons.1 hmem with rfl | hmem
    · rw [isNameStart, Bool.or_eq_true_iff] at hstart
      rcases hstart with hletter | hline
      · simp [isNameChar, hletter]
      · simp [isNameChar, hline]
    · exact h.2 mark hmem
  rw [hmark.1] at hchar
  cases hchar

theorem unifyLineEnds_escape (cs : List Char) {more : List Char}
    (h : ∃ rest, more = '<' :: rest) :
    unifyLineEnds (escape cs ++ more) = escape (unifyLineEnds cs) ++ unifyLineEnds more := by
  obtain ⟨rest, rfl⟩ := h
  fun_induction unifyLineEnds cs with
  | case1 cs ih =>
    show '\n' :: unifyLineEnds (escape cs ++ '<' :: rest) = _
    rw [ih]
    rfl
  | case2 cs hcs ih =>
    -- no line feed comes to stand after the carriage return
    have hhead : (escape cs ++ '<' :: rest).head? ≠ some '\n' := by
      intro hfeed
      rcases head?_escape rfl hfeed with h | h | ⟨h, -⟩
      · exact absurd h (by decide)
      · exact absurd h (by decide)
      · obtain ⟨tail, rfl⟩ := List.head?_eq_some_iff.1 h
        exact hcs tail rfl
    show unifyLineEnds ('\r' :: (escape cs ++ '<' :: rest)) = _
    rw [unifyLineEnds, ih]
    · rfl
    · intro tail h
      rw [h] at hhead
      exact hhead rfl
  | case3 c cs _ hc ih =>
    rw [escape, List.flatMap_cons, List.append_assoc,
      Text.unifyLineEnds_append_of_notMem (notMem_escapeChar isTextual_return hc), ← escape, ih]
    rw [escape, escape, List.flatMap_cons, List.append_assoc]
  | case4 => rfl

/-- What unifying line ends does to the text of an element. -/
def unifiedText (text : Option String) : Option String :=
  text.map unified

theorem getD_unifiedText (text : Option String) :
    ((unifiedText text).getD "").toList = unifyLineEnds (text.getD "").toList := by
  cases text with
  | none => rfl
  | some t => exact Text.toList_unified t

theorem unifyLineEnds_writeRow {es : List Element} (h : ∀ e ∈ es, ∀ rest,
      unifyLineEnds (write e ++ rest) = write (e.mapText unifiedText) ++ unifyLineEnds rest)
    (rest : List Char) : unifyLineEnds (writeRow es ++ rest) =
      writeRow (Element.mapTextRow unifiedText es) ++ unifyLineEnds rest := by
  induction es with
  | nil => rfl
  | cons e es ih =>
    obtain ⟨he, hes⟩ := List.forall_mem_cons.1 h
    rw [writeRow, List.append_assoc, he, ih hes, Element.mapTextRow, writeRow, List.append_assoc]

theorem isEmpty_unifiedText (text : Option String) (children : List Element) :
    (((unifiedText text).getD "").isEmpty && (Element.mapTextRow unifiedText children).isEmpty) =
      ((text.getD "").isEmpty && children.isEmpty) := by
  have htext : ((unifiedText text).getD "").isEmpty = (text.getD "").isEmpty := by
    rw [Bool.eq_iff_iff, String.isEmpty_iff, String.isEmpty_iff, ← String.toList_eq_nil_iff,
      ← String.toList_eq_nil_iff, getD_unifiedText]
    cases (text.getD "").toList with
    | nil => simp [unifyLineEnds]
    | cons c cs => unfold unifyLineEnds; split <;> simp_all
  rw [htext]
  cases children <;> rfl

/-- **Unifying line ends changes the texts of an element only.** -/
theorem unifyLineEnds_write {P : String → Prop} {e : Element} (h : e.Spelled P)
    (rest : List Char) : unifyLineEnds (write e ++ rest) =
      write (e.mapText unifiedText) ++ unifyLineEnds rest := by
  induction h generalizing rest with
  | @mk tag text children htag htext _ ih =>
    have hname := htag.notMem isTextual_return
    have hempty := isEmpty_unifiedText text children
    rw [Element.mapText]
    by_cases hnone : ((text.getD "").isEmpty && children.isEmpty) = true
    · have hmarkup : '\r' ∉ '<' :: (tag.toList ++ [' ', '/', '>']) := by simpa using hname
      rw [write_empty hnone, write_empty (hempty.trans hnone),
        Text.unifyLineEnds_append_of_notMem hmarkup]
    · have hstart : '\r' ∉ '<' :: (tag.toList ++ ['>']) := by simpa using hname
      have hend : '\r' ∉ '<' :: '/' :: (tag.toList ++ ['>']) := by simpa using hname
      have hclose : unifyLineEnds ('<' :: ('/' :: (tag.toList ++ ['>']) ++ rest)) =
          '<' :: '/' :: (tag.toList ++ ['>']) ++ unifyLineEnds rest :=
        Text.unifyLineEnds_append_of_notMem hend rest
      rw [write_full hnone, write_full (hempty.trans_ne hnone), getD_unifiedText]
      calc unifyLineEnds ('<' :: (tag.toList ++ '>' :: (escape (text.getD "").toList ++
              writeRow children ++ '<' :: '/' :: (tag.toList ++ ['>']))) ++ rest)
        _ = unifyLineEnds ('<' :: (tag.toList ++ ['>']) ++ (escape (text.getD "").toList ++
              (writeRow children ++ '<' :: ('/' :: (tag.toList ++ ['>']) ++ rest)))) := by simp
        _ = '<' :: (tag.toList ++ ['>']) ++ (escape (unifyLineEnds (text.getD "").toList) ++
              unifyLineEnds (writeRow children ++ '<' :: ('/' :: (tag.toList ++ ['>']) ++ rest))) := by
            rw [Text.unifyLineEnds_append_of_notMem hstart,
              unifyLineEnds_escape _ (writeRow_starts children _)]
        _ = '<' :: (tag.toList ++ ['>']) ++ (escape (unifyLineEnds (text.getD "").toList) ++
              (writeRow (Element.mapTextRow unifiedText children) ++
                ('<' :: '/' :: (tag.toList ++ ['>']) ++ unifyLineEnds rest))) := by
            rw [unifyLineEnds_writeRow ih, hclose]
        _ = _ := by simp

/-! ## 3. Documents -/

theorem admissible_unified {t : String} (h : Admissible t) : Admissible (unified t) := by
  intro c hc
  rw [Text.toList_unified] at hc
  rcases Text.mem_unifyLineEnds hc with rfl | hmem
  · decide
  · exact h c hmem

theorem write_starts_name {P : String → Prop} {e : Element} (h : e.Spelled P) :
    ∃ c rest, isNameStart .usual c = true ∧ write e = '<' :: c :: rest := by
  cases h with
  | @mk tag text children htag =>
    obtain ⟨c, name, hname, hstart⟩ := htag.starts
    rw [write, hname]
    split
    · exact ⟨c, _, hstart, rfl⟩
    · exact ⟨c, _, hstart, rfl⟩

-- an element begins like no comment, instruction, document type or declaration
theorem skipMisc_element {c : Char} (h : isNameStart .usual c = true) (fuel : Nat)
    (rest : List Char) : skipMisc .usual fuel ('<' :: c :: rest) = some ('<' :: c :: rest) := by
  have hbang : c ≠ '!' := by rintro rfl; exact absurd h (by decide)
  have hmark : c ≠ '?' := by rintro rfl; exact absurd h (by decide)
  cases fuel with
  | zero => rfl
  | succ fuel =>
    have hblanks : skipBlanks ('<' :: c :: rest) = '<' :: c :: rest := rfl
    rw [skipMisc, hblanks]
    simp [hbang, hmark]

theorem takeProlog_element {c : Char} (h : isNameStart .usual c = true) (rest : List Char) :
    takeProlog {} ('<' :: c :: rest) = .ok ({}, '<' :: c :: rest) := by
  have hbang : c ≠ '!' := by rintro rfl; exact absurd h (by decide)
  show (orMalformed (skipMisc .usual _ _)).bind _ = _
  rw [skipMisc_element h]
  simp [orMalformed, Except.bind, hbang]

theorem takeDeclaration_element {c : Char} (h : isNameStart .usual c = true) (rest : List Char) :
    takeDeclaration .usual ('<' :: c :: rest) = some (⟨none, false⟩, '<' :: c :: rest) := by
  have hmark : c ≠ '?' := by rintro rfl; exact absurd h (by decide)
  rw [takeDeclaration]
  simp [hmark]

theorem skipMisc_lineFeeds {cs : List Char} (h : ∀ c ∈ cs, c = '\n') :
    skipMisc .usual cs.length cs = some [] := by
  cases cs with
  | nil => rfl
  | cons c cs =>
    have hblank : skipBlanks (c :: cs) = [] :=
      List.dropWhile_eq_nil_iff.2 fun d hd => by rw [h d hd]; decide
    rw [List.length_cons, skipMisc, hblank]

theorem readBody_write {e : Element} (h : e.Spelled Admissible) {tail : List Char}
    (htail : ∀ c ∈ tail, c = '\n') :
    readBody {} (write e ++ tail) = .ok (e.mapText (filled ∘ unifiedText)) := by
  obtain ⟨c, rest, hc, hwrite⟩ := write_starts_name h
  have hprolog : takeProlog {} (write e ++ tail) = .ok ({}, write e ++ tail) := by
    rw [hwrite]
    exact takeProlog_element hc (rest ++ tail)
  have hunified : (e.mapText unifiedText).Spelled Admissible := by
    refine h.mapText fun text htext _ hmem => ?_
    obtain ⟨t, ht, rfl⟩ := Option.mem_map.1 hmem
    exact admissible_unified (htext t ht)
  have hends : unifyLineEnds tail = tail :=
    Text.unifyLineEnds_of_notMem fun hmem => absurd (htail _ hmem) (by decide)
  have hconventions : Grammar.conventions {} {} = {} := rfl
  rw [readBody, hprolog]
  dsimp only [Except.bind]
  rw [hconventions, unifyLineEnds_write h, hends, takeElement_write hunified]
  dsimp only
  rw [if_pos (skipMisc_lineFeeds htail), Element.mapText_mapText]
  rfl

theorem readText_write {e : Element} (h : e.Spelled Admissible) {tail : List Char}
    (htail : ∀ c ∈ tail, c = '\n') :
    readText (write e ++ tail) = .ok (e.mapText (filled ∘ unifiedText)) := by
  obtain ⟨c, rest, hc, hwrite⟩ := write_starts_name h
  have hdeclaration : takeDeclaration .usual (dropMark (write e ++ tail)) =
      some (⟨none, false⟩, write e ++ tail) := by
    rw [hwrite]
    exact takeDeclaration_element hc (rest ++ tail)
  rw [readText, hdeclaration]
  exact readBody_write h htail

/-! ## 4. Trees -/

theorem exists_element {n : Node} (h : n.Spelled Admissible) :
    ∃ e : Element, e.Spelled Admissible ∧ ofTree? n = some (ofElement e) ∧
      (e.mapText (filled ∘ unifiedText)).toNode =
        .ok (n.mapTexts fun t => Text.stripped (unified t)) := by
  obtain ⟨e, he⟩ := h.stands
  refine ⟨e, he.spelled, by rw [ofTree?, he.ofNode]; rfl, ?_⟩
  have htext : (fun t => Text.stripped (((filled ∘ unifiedText) (some t)).getD "")) =
      fun t => Text.stripped (unified t) := by
    funext t
    show Text.stripped ((if !(unified t).isEmpty then some (unified t) else none).getD "") = _
    by_cases ht : unified t = "" <;> simp [ht]
  rw [he.toNode, htext]

theorem treeOfText_ofElement {e : Element} (h : e.Spelled Admissible) :
    treeOfText (ofElement e) = treeOf (.ok (e.mapText (filled ∘ unifiedText))) := by
  have hread := readText_write h (List.forall_mem_nil _)
  rw [List.append_nil] at hread
  rw [treeOfText, ofElement, String.toList_ofList, hread]

/-- **The document written for a tree is read as the tree**, with the line ends of its texts unified
and without the white space at their ends. -/
theorem treeOfText_written {n : Node} (h : n.Spelled Admissible) :
    ∃ s, ofTree? n = some s ∧ treeOfText s = .ok (n.mapTexts fun t => Text.stripped (unified t)) := by
  obtain ⟨e, hspelled, hof, hto⟩ := exists_element h
  exact ⟨ofElement e, hof, by rw [treeOfText_ofElement hspelled, treeOf, hto]⟩

end Formulary.Markup
