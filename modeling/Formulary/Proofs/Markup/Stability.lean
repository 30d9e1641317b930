import Formulary.Proofs.Markup.Documents
import Formulary.Proofs.PowerText

/-!
# Reading, writing and reading again

Every text that is read is made of characters that may stand in markup, whether they stood there
themselves, in a verbatim section or behind a reference (`Clean`).  So a tree that was read can be
written, and what is written can be read.  A reference can bring a carriage return into a text,
though.  It is written as it stands, and the end of a line is read in its place.
-/

namespace Formulary.Markup

open Text (unifyLineEnds unified)

/-! ## 1. The characters that are read -/

theorem isAllowed_of_charOfCode? {n : Nat} {c : Char} (h : charOfCode? n = some c) :
    isAllowed c = true := by
  unfold charOfCode? at h
  split at h
  · exact (Option.filter_eq_some_iff.1 h).2
  · cases h

theorem isAllowed_of_namedChar? {body : List Char} {c : Char} (h : namedChar? body = some c) :
    isAllowed c = true := by
  unfold namedChar? at h
  split at h
  all_goals cases h
  all_goals decide

theorem isAllowed_of_reference? {letters : Alphabet} {body : List Char} {c : Char}
    (h : reference? letters body = some (.char c)) : isAllowed c = true := by
  have hnumber {base : Nat} {digits : List Char}
      (h : ((Text.numberFrom base 0 digits).bind charOfCode?).map Reference.char = some (.char c)) :
      isAllowed c = true := by
    obtain ⟨d, hd, hc⟩ := Option.map_eq_some_iff.1 h
    obtain ⟨n, -, hn⟩ := Option.bind_eq_some_iff.1 hd
    cases hc
    exact isAllowed_of_charOfCode? hn
  unfold reference? at h
  split at h
  · exact hnumber h
  · exact hnumber h
  · split at h
    · next hname =>
      cases h
      exact isAllowed_of_namedChar? hname
    · split at h
      · cases h
      · cases h

theorem isAllowed_of_takeReference {letters : Alphabet} {cs rest : List Char} {c : Char}
    (h : takeReference letters cs = some (.char c, rest)) : isAllowed c = true := by
  unfold takeReference at h
  split at h
  · obtain ⟨_, href, heq⟩ := Option.map_eq_some_iff.1 h
    cases heq
    exact isAllowed_of_reference? href
  · cases h

theorem isAllowed_of_takeVerbatim {cs text rest : List Char}
    (h : takeVerbatim cs = some (text, rest)) : ∀ c ∈ text, isAllowed c = true := by
  fun_induction takeVerbatim cs generalizing text with
  | case1 => cases h; simp
  | case2 c cs _ hc ih =>
    obtain ⟨⟨inner, after⟩, hinner, heq⟩ := Option.map_eq_some_iff.1 h
    cases heq
    exact List.forall_mem_cons.2 ⟨hc, ih hinner⟩
  | case3 => cases h
  | case4 => cases h

/-! ## 2. The elements that are read -/

/-- The texts of the element may stand in markup. -/
abbrev Clean (e : Element) : Prop :=
  e.EachText Admissible

/-- The same for an element that is being read. -/
structure Frame.Clean (f : Frame) : Prop where
  text : ∀ t ∈ f.text, Admissible t
  pending : ∀ c ∈ f.pending, isAllowed c = true
  children : ∀ e ∈ f.children, Markup.Clean e

/-- The same for one part of the content of an element. -/
def Part.Clean : Part → Prop
  | .text cs => ∀ c ∈ cs, isAllowed c = true
  | .start frame _ => frame.Clean
  | .ending => True
  | .nothing => True

namespace Frame.Clean

variable {f : Frame}

theorem addText (h : f.Clean) {cs : List Char} (hcs : ∀ c ∈ cs, isAllowed c = true) :
    (f.addText cs).Clean where
  text := h.text
  pending := List.forall_mem_append.2 ⟨fun c hc => hcs c (List.mem_reverse.1 hc), h.pending⟩
  children := h.children

theorem flush (h : f.Clean) : f.flush.Clean := by
  have hrun : Admissible (String.ofList f.pending.reverse) := by
    intro c hc
    rw [String.toList_ofList] at hc
    exact h.pending c (List.mem_reverse.1 hc)
  unfold Frame.flush
  split
  · exact h
  split
  · next hchildren => exact ⟨by simpa using hrun, by simp, h.children⟩
  · next last before hchildren =>
    have hall := h.children
    rw [hchildren, List.forall_mem_cons] at hall
    obtain ⟨⟨htext, hparts⟩, hbefore⟩ := hall
    -- the tail that the last child gets is not among its texts
    exact ⟨h.text, by simp, List.forall_mem_cons.2 ⟨.mk htext hparts, hbefore⟩⟩

theorem addChild (h : f.Clean) {e : Element} (he : Markup.Clean e) : (f.addChild e).Clean :=
  ⟨h.flush.text, h.flush.pending, List.forall_mem_cons.2 ⟨he, h.flush.children⟩⟩

theorem close (h : f.Clean) : Markup.Clean f.close :=
  .mk h.flush.text fun e he => h.flush.children e (List.mem_reverse.1 he)

end Frame.Clean

theorem takeStart_clean {conventions : Conventions} {scope : Scope} {cs rest : List Char}
    {frame : Frame} {empty : Bool}
    (h : takeStart conventions scope cs = some (frame, empty, rest)) : frame.Clean := by
  unfold takeStart at h
  split at h
  · cases h
  split at h
  · cases h
  split at h
  · cases h
  · cases h
    exact ⟨by simp, by simp, by simp⟩

theorem takePart_clean {conventions : Conventions} {top : Frame} {cs rest : List Char} {part : Part}
    (h : takePart conventions top cs = some (part, rest)) : part.Clean := by
  -- parts that leave no text
  have hsilent {o : Option (List Char)} {silent : Part}
      (h : o.map (silent, ·) = some (part, rest)) (hclean : silent.Clean) : part.Clean := by
    obtain ⟨_, _, heq⟩ := Option.map_eq_some_iff.1 h
    cases heq
    exact hclean
  unfold takePart at h
  split at h
  · exact hsilent h trivial
  · exact hsilent h trivial
  · obtain ⟨⟨text, _⟩, htext, heq⟩ := Option.map_eq_some_iff.1 h
    cases heq
    exact isAllowed_of_takeVerbatim htext
  · exact hsilent h trivial
  · obtain ⟨⟨frame, empty, _⟩, hframe, heq⟩ := Option.map_eq_some_iff.1 h
    cases heq
    exact takeStart_clean hframe
  · split at h
    · next href =>
      cases h
      exact List.forall_mem_singleton.2 (isAllowed_of_takeReference href)
    · cases h
  · cases h
  · split at h
    · next hc =>
      cases h
      exact List.forall_mem_singleton.2 hc
    · cases h
  · cases h

theorem readContent_clean {conventions : Conventions} {fuel : Nat} {top : Frame}
    {outer : List Frame} {cs rest : List Char} {e : Element} (htop : top.Clean)
    (houter : ∀ f ∈ outer, f.Clean)
    (h : readContent conventions fuel top outer cs = some (e, rest)) : Clean e := by
  induction fuel generalizing top outer cs with
  | zero => cases h
  | succ fuel ih =>
    rw [readContent] at h
    split at h
    · cases h
    · next hpart => exact ih (htop.addText (takePart_clean hpart)) houter h
    · exact ih htop houter h
    · next hpart =>
      exact ih (takePart_clean hpart) (List.forall_mem_cons.2 ⟨htop, houter⟩) h
    · next hpart =>
      have hframe := takePart_clean hpart
      exact ih (htop.addChild hframe.close) houter h
    · split at h
      · cases h
        exact htop.close
      · obtain ⟨haround, houter⟩ := List.forall_mem_cons.1 houter
        exact ih (haround.addChild htop.close) houter h

theorem takeElement_clean {conventions : Conventions} {cs rest : List Char} {e : Element}
    (h : takeElement conventions cs = some (e, rest)) : Clean e := by
  unfold takeElement at h
  split at h
  · split at h
    · next hstart =>
      cases h
      exact (takeStart_clean hstart).close
    · next hstart => exact readContent_clean (takeStart_clean hstart) (by simp) h
    · cases h
  · cases h

theorem orMalformed_eq_ok_iff {α : Type} {o : Option α} {a : α} :
    orMalformed o = .ok a ↔ o = some a := by
  cases o <;> simp [orMalformed]

theorem exists_of_bind_eq_ok {α β : Type} {x : Except Fault α} {f : α → Except Fault β} {b : β}
    (h : x.bind f = .ok b) : ∃ a, x = .ok a ∧ f a = .ok b := by
  cases x with
  | error fault => cases h
  | ok a => exact ⟨a, rfl, h⟩

theorem readBody_clean {setting : Setting} {cs : List Char} {e : Element}
    (h : readBody setting cs = .ok e) : Clean e := by
  obtain ⟨⟨grammar, body⟩, -, h⟩ := exists_of_bind_eq_ok h
  have h := orMalformed_eq_ok_iff.1 h
  split at h
  · cases h
  · next helement =>
    split at h
    · cases h
      exact takeElement_clean helement
    · cases h

theorem readText_clean {cs : List Char} {e : Element} (h : readText cs = .ok e) : Clean e := by
  obtain ⟨_, -, hbody⟩ := exists_of_bind_eq_ok h
  exact readBody_clean hbody

theorem readBytes_clean {bytes : List UInt8} {e : Element} (h : readBytes bytes = .ok e) :
    Clean e := by
  obtain ⟨document, -, h⟩ := exists_of_bind_eq_ok h
  obtain ⟨read, hbody, h⟩ := exists_of_bind_eq_ok h
  split at h
  · cases h
    exact readBody_clean hbody
  · cases h

/-! ## 3. The trees that are read -/

/-- A text that a leaf of a tree has after reading. -/
structure Kept (t : String) : Prop where
  admissible : Admissible t
  trimmed : Code.Trimmed t.toList

theorem mem_of_mem_strip {c : Char} {cs : List Char} (h : c ∈ Text.strip cs) : c ∈ cs := by
  have hback := (List.dropWhile_suffix Text.isSpace).subset (List.mem_reverse.1 h)
  exact (List.dropWhile_suffix Text.isSpace).subset (List.mem_reverse.1 hback)

theorem trimmed_strip (cs : List Char) : Code.Trimmed (Text.strip cs) where
  head c hc := by
    -- what is left after the end was stripped is still a front part
    have hprefix : Text.strip cs <+: Text.stripFront cs := by
      rw [← List.reverse_suffix, Text.strip, List.reverse_reverse]
      exact List.dropWhile_suffix _
    obtain ⟨more, hmore⟩ := hprefix
    have hfront : (Text.stripFront cs).head? = some c := by
      rw [← hmore, List.head?_append, hc]
      rfl
    have hnot := List.head?_dropWhile_not Text.isSpace cs
    rw [← Text.stripFront, hfront] at hnot
    simpa using hnot
  last c hc := by
    rw [Text.strip, List.getLast?_reverse] at hc
    have hnot := List.head?_dropWhile_not Text.isSpace (Text.stripFront cs).reverse
    rw [← Text.stripFront, hc] at hnot
    simpa using hnot

theorem kept_stripped {t : String} (h : Admissible t) : Kept (Text.stripped t) where
  admissible c hc := by
    rw [Text.stripped, String.toList_ofList] at hc
    exact h c (mem_of_mem_strip hc)
  trimmed := by
    rw [Text.stripped, String.toList_ofList]
    exact trimmed_strip t.toList

theorem kept_of_text {text : Option String} (h : ∀ t ∈ text, Admissible t) :
    Kept (Text.stripped (text.getD "")) := by
  apply kept_stripped
  cases text with
  | none => intro c hc; simp at hc
  | some t => exact h t rfl

theorem treeOf_spelled {r : Except Fault Element} (h : ∀ e, r = .ok e → Clean e) {n : Node}
    (hn : treeOf r = .ok n) : n.Spelled Kept := by
  unfold treeOf at hn
  split at hn
  · cases hn
  next e =>
  split at hn
  · cases hn
  next heq =>
  cases hn
  exact Element.toNode_spelled (fun _ => kept_of_text) (h e rfl) heq

/-! ## 4. Reading again -/

theorem unifyLineEnds_concat (cs : List Char) {c : Char} (h : Text.isSpace c = false) :
    unifyLineEnds (cs ++ [c]) = unifyLineEnds cs ++ [c] := by
  have hreturn : c ≠ '\r' := by rintro rfl; exact absurd h (by decide)
  have hfeed : c ≠ '\n' := by rintro rfl; exact absurd h (by decide)
  fun_induction unifyLineEnds cs with
  | case1 rest ih =>
    show '\n' :: unifyLineEnds (rest ++ [c]) = _
    rw [ih]
    rfl
  | case2 rest hrest ih =>
    rw [List.cons_append, unifyLineEnds, ih]
    · rfl
    · intro tail htail
      cases rest with
      | nil => exact hfeed (List.cons.inj htail).1
      | cons d rest => exact hrest rest (by rw [(List.cons.inj htail).1])
  | case3 d rest hpair hd ih =>
    rw [List.cons_append, unifyLineEnds, ih]
    · rfl
    · exact fun _ hd' => absurd hd' hd
    · exact hd
  | case4 => exact Text.unifyLineEnds_of_notMem (by simpa using fun hc => hreturn hc.symm)

theorem trimmed_unifyLineEnds {cs : List Char} (h : Code.Trimmed cs) :
    Code.Trimmed (unifyLineEnds cs) where
  head c hc := by
    cases cs with
    | nil => cases hc
    | cons d rest =>
      have hd := h.head d rfl
      have hreturn : d ≠ '\r' := by rintro rfl; exact absurd hd (by decide)
      rw [unifyLineEnds] at hc
      · obtain rfl := Option.some.inj hc
        exact hd
      · simp [hreturn]
      · exact hreturn
  last c hc := by
    rcases List.eq_nil_or_concat cs with rfl | ⟨front, d, rfl⟩
    · cases hc
    · have hd := h.last d (by simp)
      rw [List.concat_eq_append, unifyLineEnds_concat front hd, List.getLast?_concat] at hc
      obtain rfl := Option.some.inj hc
      exact hd

theorem Kept.stripped_unified {t : String} (h : Kept t) :
    Text.stripped (unified t) = unified t := by
  rw [Text.stripped, Text.toList_unified, (trimmed_unifyLineEnds h.trimmed).strip]
  rfl

/-- **A tree that was read can be written and read again, and comes back with the line ends of its
texts unified.**  It comes back as it was exactly if no text in it has a carriage return. -/
theorem treeOfText_again {n : Node}
    (h : (∃ x, treeOfText x = .ok n) ∨ ∃ bytes, treeOfBytes bytes = .ok n) :
    ∃ s, ofTree? n = some s ∧ treeOfText s = .ok (n.mapTexts unified) ∧
      (treeOfText s = .ok n ↔
        ∀ kind text, .leaf kind text ∈ n.preorder → '\r' ∉ text.toList) := by
  have hspelled : n.Spelled Kept := by
    obtain ⟨x, hx⟩ | ⟨bytes, hbytes⟩ := h
    · exact treeOf_spelled (fun e he => readText_clean he) hx
    · exact treeOf_spelled (fun e he => readBytes_clean he) hbytes
  obtain ⟨s, hs, hread⟩ := treeOfText_written (hspelled.mono fun t ht => ht.admissible)
  have htexts : n.mapTexts (fun t => Text.stripped (unified t)) = n.mapTexts unified :=
    hspelled.mapTexts_congr fun t ht => ht.stripped_unified
  rw [htexts] at hread
  refine ⟨s, hs, hread, ?_⟩
  rw [hread, Except.ok.injEq, Node.mapTexts_eq_self_iff]
  simp only [Text.unified_eq_self_iff]

theorem treeOfText_again_reference :
    ∃ s, ofTree? (.leaf .identifier "a\rb") = some s ∧
      treeOfText s = .ok (.leaf .identifier "a\nb") := by
  have hread : treeOfText "<mi>a&#13;b</mi>" = .ok (.leaf .identifier "a\rb") := by decide +kernel
  obtain ⟨s, hs, hagain, -⟩ := treeOfText_again (.inl ⟨_, hread⟩)
  exact ⟨s, hs, hagain⟩

/-- A carriage return that a reference stands for does not survive. -/
theorem not_treeOfText_stable : ¬∀ x n, treeOfText x = .ok n →
    ∃ s, ofTree? n = some s ∧ treeOfText s = .ok n := by
  intro hstable
  have hread : treeOfText "<mi>a&#13;b</mi>" = .ok (.leaf .identifier "a\rb") := by decide +kernel
  have hwritten : ofTree? (.leaf .identifier "a\rb") = some "<mi>a\rb</mi>" := by decide +kernel
  have hagain : treeOfText "<mi>a\rb</mi>" = .ok (.leaf .identifier "a\nb") := by decide +kernel
  obtain ⟨s, hs, hn⟩ := hstable _ _ hread
  obtain rfl := Option.some.inj (hwritten.symm.trans hs)
  exact absurd (hagain.symm.trans hn) (by decide)

end Formulary.Markup
