import Formulary.Proofs.Markup.Texts

/-!
# Reading markup that was written

What is written for an element is read as that element (`takeElement_write`).  The reader goes
through the markup part by part and adds every element to the one that is open around it
(`Rereads`); the fuel it has, one for each character, is enough, since every part has a character of
its own.
-/

namespace Formulary.Markup

/-! ## 1. Tags -/

theorem takeName_append {letters : Alphabet} {name : List Char} (h : isName letters name = true)
    {c : Char} (hc : isNameChar letters c = false) (rest : List Char) :
    takeName letters (name ++ c :: rest) = some (name, c :: rest) := by
  cases name with
  | nil => exact absurd h (by simp [isName])
  | cons d name =>
    rw [isName, Bool.and_eq_true_iff, List.all_eq_true] at h
    rw [List.cons_append, takeName, if_pos h.1, List.takeWhile_append_of_pos h.2,
      List.dropWhile_append_of_pos h.2, List.takeWhile_cons_of_neg (by rw [hc]; decide),
      List.dropWhile_cons_of_neg (by rw [hc]; decide), List.append_nil]

theorem takeQualified_append {letters : Alphabet} {name : List Char}
    (h : isName letters name = true) {c : Char} (hc : isNameChar letters c = false)
    (hcolon : c ≠ ':') (rest : List Char) :
    takeQualified letters (name ++ c :: rest) = some (⟨[], name⟩, c :: rest) := by
  unfold takeQualified
  rw [takeName_append h hc]
  split
  · next heq => exact absurd (List.cons.inj (Prod.mk.inj (Option.some.inj heq)).2).1 hcolon
  · next heq =>
    obtain ⟨rfl, rfl⟩ := Prod.mk.inj (Option.some.inj heq)
    rfl
  · next heq => exact absurd heq (by simp)

theorem IsTag.starts {tag : String} (h : IsTag tag) :
    ∃ c name, tag.toList = c :: name ∧ isNameStart .usual c = true := by
  unfold IsTag at h
  cases hlist : tag.toList with
  | nil =>
    rw [hlist] at h
    exact absurd h (by simp [isName])
  | cons c name =>
    rw [hlist, isName, Bool.and_eq_true_iff] at h
    exact ⟨c, name, rfl, h.1⟩

/-- The frame of an element without attributes, when it is opened. -/
def openFrame (tag : String) : Frame :=
  { name := ⟨[], tag.toList⟩, tag, scope := initialScope }

theorem enter?_plain (tag : String) :
    enter? initialScope ⟨[], tag.toList⟩ [] = some (tag, [], initialScope) := by
  have htag : expandedTag? initialScope ⟨[], tag.toList⟩ = some tag := by
    show some (String.ofList tag.toList) = some tag
    rw [String.ofList_toList]
  rw [enter?, if_neg (by decide), bindAll]
  dsimp only
  rw [htag, expandedAttributes?]
  rfl

-- a start tag that goes on with `cs`, which ends it without an attribute
theorem takeStart_plain {tag : String} (h : IsTag tag) {c : Char}
    (hc : isNameChar .usual c = false) (hcolon : c ≠ ':') {cs rest : List Char} {empty : Bool}
    (hend : ∀ fuel, takeTagEnd {} fuel (c :: cs) = some ([], empty, rest)) :
    takeStart {} initialScope (tag.toList ++ c :: cs) = some (openFrame tag, empty, rest) := by
  have hcomplete : ({} : Conventions).complete ⟨[], tag.toList⟩ [] = [] :=
    Conventions.complete_of_rules_eq_nil rfl _ _
  rw [takeStart]
  dsimp only
  rw [takeQualified_append h hc hcolon]
  dsimp only
  rw [hend]
  dsimp only
  rw [hcomplete, enter?_plain]
  rfl

theorem takeStart_open {tag : String} (h : IsTag tag) (rest : List Char) :
    takeStart {} initialScope (tag.toList ++ '>' :: rest) = some (openFrame tag, false, rest) := by
  refine takeStart_plain h (by decide) (by decide) fun fuel => ?_
  cases fuel <;> rfl

theorem takeStart_empty {tag : String} (h : IsTag tag) (rest : List Char) :
    takeStart {} initialScope (tag.toList ++ ' ' :: '/' :: '>' :: rest) =
      some (openFrame tag, true, rest) := by
  refine takeStart_plain h (by decide) (by decide) fun fuel => ?_
  cases fuel <;> rfl

theorem afterEnd_tag {tag : String} (h : IsTag tag) (rest : List Char) :
    afterEnd .usual ⟨[], tag.toList⟩ (tag.toList ++ '>' :: rest) = some rest := by
  rw [afterEnd, takeQualified_append h (by decide) (by decide)]
  dsimp only
  rw [if_pos rfl, afterDeclaration]
  rfl

/-! ## 2. Parts of content -/

-- a start tag begins with a name, so it is no other kind of part
theorem takePart_start {tag : String} (h : IsTag tag) (top : Frame)
    (rest : List Char) : takePart {} top ('<' :: (tag.toList ++ rest)) =
      (takeStart {} top.scope (tag.toList ++ rest)).map fun (frame, empty, rest) =>
        (.start frame empty, rest) := by
  obtain ⟨c, name, hname, hstart⟩ := h.starts
  have hslash : c ≠ '/' := by rintro rfl; exact absurd hstart (by decide)
  have hbang : c ≠ '!' := by rintro rfl; exact absurd hstart (by decide)
  have hmark : c ≠ '?' := by rintro rfl; exact absurd hstart (by decide)
  rw [hname, List.cons_append, takePart]
  all_goals simp [hslash, hbang, hmark]

theorem takePart_open {tag : String} (h : IsTag tag) {top : Frame}
    (hscope : top.scope = initialScope) (rest : List Char) :
    takePart {} top ('<' :: (tag.toList ++ '>' :: rest)) =
      some (.start (openFrame tag) false, rest) := by
  rw [takePart_start h, hscope, takeStart_open h]
  rfl

theorem takePart_empty {tag : String} (h : IsTag tag) {top : Frame}
    (hscope : top.scope = initialScope) (rest : List Char) :
    takePart {} top ('<' :: (tag.toList ++ ' ' :: '/' :: '>' :: rest)) =
      some (.start (openFrame tag) true, rest) := by
  rw [takePart_start h, hscope, takeStart_empty h]
  rfl

theorem takePart_end {tag : String} (h : IsTag tag) {top : Frame}
    (htop : top.name = ⟨[], tag.toList⟩) (rest : List Char) :
    takePart {} top ('<' :: '/' :: (tag.toList ++ '>' :: rest)) = some (.ending, rest) := by
  rw [takePart, htop]
  show (afterEnd .usual _ _).map _ = _
  rw [afterEnd_tag h]
  rfl

theorem takePart_char {c : Char} (hc : isAllowed c = true) (hlt : c ≠ '<') (hamp : c ≠ '&')
    (top : Frame) {rest : List Char} (hrest : ¬[']', '>'] <+: rest) :
    takePart {} top (c :: rest) = some (.text [c], rest) := by
  rw [takePart, if_pos hc]
  · simp [hlt]
  · simp [hlt]
  · simp [hlt]
  · simp [hlt]
  · exact hlt
  · exact hamp
  · intro tail _ hend
    exact hrest ⟨tail, hend.symm⟩

-- a text that is written begins as it is or with a reference, and never with a plain `>`
theorem head?_escape {cs rest : List Char} (hrest : rest.head? = some '<') {c : Char}
    (h : (escape cs ++ rest).head? = some c) :
    c = '<' ∨ c = '&' ∨ cs.head? = some c ∧ c ≠ '>' := by
  cases cs with
  | nil =>
    have hc : rest.head? = some c := h
    rw [hrest] at hc
    exact .inl (Option.some.inj hc).symm
  | cons d cs =>
    rw [escape, List.flatMap_cons, List.append_assoc] at h
    unfold escapeChar at h
    split at h
    · exact .inr (.inl (Option.some.inj h).symm)
    split at h
    · exact .inr (.inl (Option.some.inj h).symm)
    split at h
    · exact .inr (.inl (Option.some.inj h).symm)
    · next hgt =>
      obtain rfl : d = c := Option.some.inj h
      exact .inr (.inr ⟨rfl, hgt⟩)

-- the sign for the end of a verbatim text, which no text may have, never comes to stand in one
theorem not_prefix_escape {cs rest : List Char} (hrest : rest.head? = some '<') :
    ¬[']', '>'] <+: escape cs ++ rest := by
  rintro ⟨tail, htail⟩
  have hfirst : (escape cs ++ rest).head? = some ']' := by rw [← htail]; rfl
  rcases head?_escape hrest hfirst with h | h | ⟨hcs, -⟩
  · exact absurd h (by decide)
  · exact absurd h (by decide)
  obtain ⟨cs, rfl⟩ := List.head?_eq_some_iff.1 hcs
  have hnext : escape cs ++ rest = '>' :: tail := (List.cons.inj htail).2.symm
  rcases head?_escape hrest (congrArg List.head? hnext) with h | h | ⟨-, h⟩
  · exact absurd h (by decide)
  · exact absurd h (by decide)
  · exact h rfl

theorem takePart_escape {c : Char} (hc : isAllowed c = true) (top : Frame) {cs rest : List Char}
    (hrest : rest.head? = some '<') :
    takePart {} top (escapeChar c ++ (escape cs ++ rest)) =
      some (.text [c], escape cs ++ rest) := by
  unfold escapeChar
  split
  · next h => rw [h]; rfl
  split
  · next h => rw [h]; rfl
  split
  · next h => rw [h]; rfl
  · next hamp hlt _ => exact takePart_char hc hlt hamp top (not_prefix_escape hrest)

/-! ## 3. Going through content -/

/-- Reading goes through a text that is followed by a tag, and takes the open element from one state
to another.  Every part that it takes has a character of its own. -/
def Passes (text : List Char) (top top' : Frame) : Prop :=
  ∃ steps ≤ text.length, ∀ fuel outer rest,
    readContent {} (steps + fuel) top outer (text ++ '<' :: rest) =
      readContent {} fuel top' outer ('<' :: rest)

theorem Passes.nil (top : Frame) : Passes [] top top :=
  ⟨0, le_refl 0, fun fuel outer rest => by rw [Nat.zero_add, List.nil_append]⟩

theorem Passes.append {text text' : List Char} {top between top' : Frame}
    (h : Passes text top between) (h' : Passes text' between top')
    (htag : ∀ rest, ∃ more, text' ++ '<' :: rest = '<' :: more) :
    Passes (text ++ text') top top' := by
  obtain ⟨steps, hsteps, hread⟩ := h
  obtain ⟨steps', hsteps', hread'⟩ := h'
  refine ⟨steps + steps', by rw [List.length_append]; omega, fun fuel outer rest => ?_⟩
  obtain ⟨more, hmore⟩ := htag rest
  rw [List.append_assoc, hmore, Nat.add_assoc, hread, ← hmore, hread']

theorem Frame.addText_append (f : Frame) (xs ys : List Char) :
    (f.addText xs).addText ys = f.addText (xs ++ ys) := by
  simp [addText]

theorem length_le_escape (cs : List Char) : cs.length ≤ (escape cs).length := by
  induction cs with
  | nil => exact le_refl 0
  | cons c cs ih =>
    have hchar : 1 ≤ (escapeChar c).length := by
      unfold escapeChar
      split
      · simp
      split
      · simp
      split <;> simp
    rw [escape, List.flatMap_cons, List.length_append, List.length_cons]
    rw [escape] at ih
    omega

theorem passes_escape {cs : List Char} (h : ∀ c ∈ cs, isAllowed c = true) (top : Frame) :
    Passes (escape cs) top (top.addText cs) := by
  refine ⟨cs.length, length_le_escape cs, fun fuel outer rest => ?_⟩
  induction cs generalizing top with
  | nil => rw [List.length_nil, Nat.zero_add]; rfl
  | cons c cs ih =>
    obtain ⟨hc, hcs⟩ := List.forall_mem_cons.1 h
    rw [escape, List.flatMap_cons, List.append_assoc, List.length_cons,
      show cs.length + 1 + fuel = cs.length + fuel + 1 by omega, readContent]
    rw [← escape, takePart_escape hc top (by rfl)]
    show readContent {} (cs.length + fuel) (top.addText [c]) outer _ = _
    rw [ih hcs, Frame.addText_append]
    rfl

/-! ## 4. Open elements -/

namespace Frame

variable (f : Frame)

/-- Flushing moves the pending characters and touches nothing else. -/
theorem flush_eq :
    f.flush = { f with text := f.flush.text, children := f.flush.children, pending := [] } := by
  unfold flush
  split
  · next hempty => rw [← List.isEmpty_iff.1 hempty]
  · split <;> rfl

theorem scope_flush : f.flush.scope = f.scope := by
  rw [flush_eq]

theorem name_addChild (e : Element) : (f.addChild e).name = f.name := by
  rw [addChild, flush_eq]

/-- The element with further children, taken in one by one. -/
def addChildren (es : List Element) : Frame :=
  es.foldl addChild f

theorem name_addChildren (es : List Element) : (f.addChildren es).name = f.name := by
  induction es generalizing f with
  | nil => rfl
  | cons e es ih => exact (ih (f.addChild e)).trans (f.name_addChild e)

theorem close_addChild (e : Element) :
    (f.addChild e).close = { f.close with children := f.close.children ++ [e] } := by
  have hpending : (f.addChild e).pending = [] := congrArg pending f.flush_eq
  have hdone : (f.addChild e).flush = f.addChild e := by
    rw [flush, if_pos (List.isEmpty_iff.2 hpending)]
  rw [close, hdone, addChild, flush_eq, close, List.reverse_cons]

theorem close_addChildren (es : List Element) :
    (f.addChildren es).close = { f.close with children := f.close.children ++ es } := by
  induction es generalizing f with
  | nil => rw [List.append_nil]; rfl
  | cons e es ih =>
    show ((f.addChild e).addChildren es).close = _
    rw [ih, close_addChild, List.append_assoc, List.singleton_append]

end Frame

/-! ## 5. Elements -/

/-- A text whose characters may all stand in markup. -/
def Admissible (t : String) : Prop :=
  ∀ c ∈ t.toList, isAllowed c = true

/-- A text as it is read back: an empty one leaves no trace. -/
def filled (text : Option String) : Option String :=
  text.filter fun t => !t.isEmpty

/-- Reading goes through the markup of an element and adds the element to the open one. -/
def Rereads (e : Element) : Prop :=
  ∀ top : Frame, top.scope = initialScope → Passes (write e) top (top.addChild (e.mapText filled))

theorem write_starts (e : Element) : ∃ more, write e = '<' :: more := by
  cases e
  rw [write]
  split
  · exact ⟨_, rfl⟩
  · exact ⟨_, rfl⟩

theorem writeRow_starts (es : List Element) (rest : List Char) :
    ∃ more, writeRow es ++ '<' :: rest = '<' :: more := by
  cases es with
  | nil => exact ⟨rest, rfl⟩
  | cons e es =>
    obtain ⟨more, hmore⟩ := write_starts e
    exact ⟨more ++ writeRow es ++ '<' :: rest, by rw [writeRow, hmore]; rfl⟩

theorem passes_writeRow {es : List Element} (h : ∀ e ∈ es, Rereads e) (top : Frame)
    (hscope : top.scope = initialScope) :
    Passes (writeRow es) top (top.addChildren (Element.mapTextRow filled es)) := by
  induction es generalizing top with
  | nil => exact Passes.nil top
  | cons e es ih =>
    obtain ⟨he, hes⟩ := List.forall_mem_cons.1 h
    have hrow := ih hes (top.addChild (e.mapText filled)) (top.scope_flush.trans hscope)
    exact (he top hscope).append hrow (writeRow_starts es)

section

variable {tag : String} {text : Option String} {children : List Element}

/-- The frame of an element in front of its end tag. -/
def fullFrame (tag : String) (text : Option String) (children : List Element) : Frame :=
  ((openFrame tag).addText (text.getD "").toList).addChildren (Element.mapTextRow filled children)

theorem close_fullFrame :
    (fullFrame tag text children).close = ({ tag, text, children } : Element).mapText filled := by
  have htext : ((openFrame tag).addText (text.getD "").toList).close =
      { tag, text := filled text } := by
    cases text with
    | none => rfl
    | some t =>
      by_cases ht : t = ""
      · simp [ht, openFrame, Frame.addText, Frame.close, Frame.flush, filled, Option.filter]
      · simp [ht, openFrame, Frame.addText, Frame.close, Frame.flush, filled, Option.filter]
  rw [fullFrame, Frame.close_addChildren, htext, Element.mapText, List.nil_append]

theorem passes_content (htext : ∀ t ∈ text, Admissible t) (h : ∀ e ∈ children, Rereads e) :
    Passes (escape (text.getD "").toList ++ writeRow children) (openFrame tag)
      (fullFrame tag text children) := by
  have hchars : ∀ c ∈ (text.getD "").toList, isAllowed c = true := by
    cases text with
    | none => simp
    | some t => exact htext t rfl
  have hrow := passes_writeRow h ((openFrame tag).addText (text.getD "").toList) rfl
  exact (passes_escape hchars (openFrame tag)).append hrow (writeRow_starts children)

theorem takePart_end_fullFrame (htag : IsTag tag) (rest : List Char) :
    takePart {} (fullFrame tag text children) ('<' :: '/' :: (tag.toList ++ '>' :: rest)) =
      some (.ending, rest) :=
  takePart_end htag (Frame.name_addChildren _ _) rest

theorem write_empty (h : ((text.getD "").isEmpty && children.isEmpty) = true) :
    write { tag, text, children } = '<' :: (tag.toList ++ [' ', '/', '>']) := by
  rw [write, if_pos h]
  simp [escape]

theorem write_full (h : ((text.getD "").isEmpty && children.isEmpty) ≠ true) :
    write { tag, text, children } = '<' :: (tag.toList ++ '>' ::
      (escape (text.getD "").toList ++ writeRow children ++ '<' :: '/' ::
        (tag.toList ++ ['>']))) := by
  rw [write, if_neg h]
  simp [escape]

-- an element without text and children is closed by its own tag
theorem mapText_filled_empty (h : ((text.getD "").isEmpty && children.isEmpty) = true) :
    ({ tag, text, children } : Element).mapText filled = (openFrame tag).close := by
  rw [Bool.and_eq_true_iff, List.isEmpty_iff, String.isEmpty_iff] at h
  rw [← close_fullFrame, fullFrame, h.1, h.2]
  rfl

end

theorem rereads_mk {tag : String} {text : Option String} {children : List Element}
    (htag : IsTag tag) (htext : ∀ t ∈ text, Admissible t)
    (h : ∀ e ∈ children, Rereads e) :
    Rereads { tag, text, children } := by
  intro top hscope
  by_cases hempty : ((text.getD "").isEmpty && children.isEmpty) = true
  · rw [write_empty hempty, mapText_filled_empty hempty]
    refine ⟨1, by simp, fun fuel outer rest => ?_⟩
    have hmarkup : '<' :: (tag.toList ++ [' ', '/', '>']) ++ '<' :: rest =
        '<' :: (tag.toList ++ ' ' :: '/' :: '>' :: '<' :: rest) := by simp
    rw [Nat.add_comm, hmarkup, readContent, takePart_empty htag hscope]
  · rw [write_full hempty]
    obtain ⟨steps, hsteps, hread⟩ : Passes _ (openFrame tag) _ := passes_content htext h
    refine ⟨steps + 2, by simp only [List.length_cons, List.length_append] at *; omega,
      fun fuel outer rest => ?_⟩
    have hmarkup (content : List Char) : '<' :: (tag.toList ++ '>' ::
        (content ++ '<' :: '/' :: (tag.toList ++ ['>']))) ++ '<' :: rest = '<' :: (tag.toList ++
          '>' :: (content ++ '<' :: '/' :: (tag.toList ++ '>' :: '<' :: rest))) := by simp
    -- the start tag, the content, the end tag
    rw [hmarkup, show steps + 2 + fuel = steps + (fuel + 1) + 1 by omega, readContent,
      takePart_open htag hscope]
    dsimp only
    rw [hread, readContent, takePart_end_fullFrame htag]
    dsimp only
    rw [close_fullFrame]

theorem rereads {e : Element} (h : e.Spelled Admissible) : Rereads e := by
  induction h with
  | mk htag htext _ ih => exact rereads_mk htag htext ih

/-- **What is written for an element is read as the element.** -/
theorem takeElement_write {e : Element} (h : e.Spelled Admissible) (rest : List Char) :
    takeElement {} (write e ++ rest) = some (e.mapText filled, rest) := by
  cases h with
  | @mk tag text children htag htext hchildren =>
    by_cases hempty : ((text.getD "").isEmpty && children.isEmpty) = true
    · have hmarkup : '<' :: (tag.toList ++ [' ', '/', '>']) ++ rest =
          '<' :: (tag.toList ++ ' ' :: '/' :: '>' :: rest) := by simp
      rw [write_empty hempty, mapText_filled_empty hempty, hmarkup, takeElement,
        takeStart_empty htag]
    · obtain ⟨steps, hsteps, hread⟩ :=
        passes_content htext fun e he => rereads (hchildren e he)
      rw [write_full hempty]
      generalize escape (text.getD "").toList ++ writeRow children = content at hsteps hread ⊢
      have hmarkup : '<' :: (tag.toList ++ '>' ::
          (content ++ '<' :: '/' :: (tag.toList ++ ['>']))) ++ rest = '<' :: (tag.toList ++
            '>' :: (content ++ '<' :: '/' :: (tag.toList ++ '>' :: rest))) := by simp
      rw [hmarkup, takeElement, takeStart_open htag]
      dsimp only
      -- one step is left for the end tag
      obtain ⟨fuel, hfuel⟩ : ∃ fuel,
          (content ++ '<' :: '/' :: (tag.toList ++ '>' :: rest)).length = steps + (fuel + 1) := by
        refine ⟨(content ++ '<' :: '/' :: (tag.toList ++ '>' :: rest)).length - steps - 1, ?_⟩
        simp only [List.length_append, List.length_cons] at *
        omega
      rw [hfuel, hread, readContent, takePart_end_fullFrame htag]
      dsimp only
      rw [close_fullFrame]

end Formulary.Markup
