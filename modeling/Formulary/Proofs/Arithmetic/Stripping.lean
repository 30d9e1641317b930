import Formulary.Proofs.Arithmetic.Cursor
import Formulary.Proofs.Shape

/-!
# Stripping and the value of code

A bracketed sequence that stands in a bracket loses its own brackets, whatever is around it and inside
it.  That is harmless only in some places (`Spare`): a sum may lose its brackets where a sum may begin
and nothing is multiplied with it, a product wherever a factor may begin; and behind a value the
brackets bring a `*` with them, which only a power or a fraction brings back.

Main statement: if all brackets can be spared and the code before stripping has a value, the code after
stripping has that value and no other (`emit_stripBrackets`).  The two codes are read side by side,
word by word; what is known at each place is `Matches`.
-/

namespace Formulary.Arithmetic

open Formula Code

/-! ## 1. Brackets that can be spared -/

/-- Is the node a sign that stands between two terms, if a value is before it? -/
def isPlusMinus : Node → Bool
  | .leaf .operator text => text == "+" || text == "-"
  | _ => false

mutual

/-- Does a sign stand between two terms of a sequence without brackets? -/
def isSum : Node → Bool
  | .row _ items => isSumRow false items
  | _ => false

/-- The same for a row, after a value or not. -/
def isSumRow (after : Bool) : List Node → Bool
  | [] => false
  | n :: rest => after && isPlusMinus n || isSum n || isSumRow (endsAfter after n) rest

end

/-- Does the node begin with a power or a fraction? -/
def leadsWithPair : Node → Bool
  | .binary .. => true
  | .row _ (n :: _) => leadsWithPair n
  | _ => false

/-- The place behind a node that is written as it is.  Nothing is multiplied with a sum. -/
def Place.pass (place : Place) (n : Node) : Option Place :=
  if n = .operator "+" then some (if place.after then .start else place)
  else if n = .operator "-" then some .factor
  else if place = .total then none
  else some (if isOperatorLeaf n then .factor else .value)

/-- The place behind a sequence whose brackets are left out, if they can be spared. -/
def Place.drop (place : Place) (content : Node) : Option Place :=
  if isSum content then if place = .start then some .total else none
  else if place.after then if place = .value ∧ leadsWithPair content then some .value else none
  else some .value

/-- The place behind a node of a row that is stripped. -/
def Place.behind (place : Place) (n : Node) : Option Place :=
  if n.isBracketed then place.drop (stripNode true n).1 else place.pass n

/-- Inside every bracket of the nodes, the brackets that stripping takes out can be spared. -/
def Spare (nodes : List Node) : Prop :=
  ∀ n ∈ Node.preorderRow nodes, n.isBracketed = true →
    ((inner n.children).foldlM Place.behind .start).isSome = true

instance (nodes : List Node) : Decidable (Spare nodes) :=
  inferInstanceAs (Decidable (∀ n ∈ Node.preorderRow nodes, _ → _))

section

variable {place place' : Place} {n : Node} {items nodes : List Node}

theorem Place.pass_term (hn : isOperatorLeaf n = false) (h : place.pass n = some place') :
    place ≠ .total ∧ place' = .value := by
  have hne (text : String) : n ≠ .operator text := by
    rintro rfl
    exact absurd hn (by simp [isOperatorLeaf])
  rw [pass, if_neg (hne _), if_neg (hne _)] at h
  split at h
  · exact absurd h (by simp)
  · next hplace =>
    rw [hn] at h
    exact ⟨hplace, (Option.some.inj h).symm⟩

theorem Place.drop_cases {content : Node} (h : place.drop content = some place') :
    (isSum content = true ∧ place = .start ∧ place' = .total) ∨
      (isSum content = false ∧ place' = .value ∧
        (place.after = false ∨ place = .value ∧ leadsWithPair content = true)) := by
  unfold drop at h
  split at h
  · next hsum =>
    split at h
    · next hstart => exact .inl ⟨hsum, hstart, (Option.some.inj h).symm⟩
    · exact absurd h (by simp)
  · next hsum =>
    refine .inr ⟨Bool.of_not_eq_true hsum, ?_⟩
    split at h
    · split at h
      · next hpair => exact ⟨(Option.some.inj h).symm, .inr hpair⟩
      · exact absurd h (by simp)
    · next hafter => exact ⟨(Option.some.inj h).symm, .inl (Bool.of_not_eq_true hafter)⟩

-- without a sum there is a place behind every node
theorem Place.exists_pass (hplace : place ≠ .total) (n : Node) :
    ∃ place', place.pass n = some place' ∧ place' ≠ .total := by
  unfold pass
  rw [if_neg hplace]
  split
  · refine ⟨_, rfl, ?_⟩
    split
    · decide
    · exact hplace
  · split
    · exact ⟨_, rfl, by decide⟩
    · exact ⟨_, rfl, by split <;> decide⟩

theorem exists_passes (items : List Node) {place : Place} (hplace : place ≠ .total) :
    ∃ place', items.foldlM Place.pass place = some place' := by
  induction items generalizing place with
  | nil => exact ⟨place, rfl⟩
  | cons n rest ih =>
    obtain ⟨next, hnext, hne⟩ := Place.exists_pass hplace n
    rw [List.foldlM_cons, hnext]
    exact ih hne

theorem Spare.of_mem (h : Spare nodes) (hn : n ∈ nodes) : Spare [n] := by
  intro m hm
  obtain ⟨_, hmem, hm⟩ := mem_preorderRow.1 hm
  rw [List.mem_singleton.1 hmem] at hm
  exact h m (mem_preorderRow.2 ⟨n, hn, hm⟩)

theorem Spare.group (h : Spare [bracketed items]) :
    (∃ place, items.foldlM Place.behind .start = some place) ∧ ∀ n ∈ items, Spare [n] := by
  have hpair : (bracketed items).isBracketed = true := hasBracketPair_iff.2 ⟨items, rfl⟩
  constructor
  · have hself := h (bracketed items) (by simp [Node.preorderRow, Node.preorder]) hpair
    rw [Node.children, inner_group] at hself
    exact Option.isSome_iff_exists.1 hself
  · intro n hn m hm
    rw [mem_preorderRow] at hm
    obtain ⟨_, hmem, hm⟩ := hm
    rw [List.mem_singleton.1 hmem] at hm
    refine h m (mem_preorderRow.2 ⟨_, List.mem_singleton_self _, ?_⟩)
    rw [Node.preorder]
    exact List.mem_cons_of_mem _ (mem_preorderRow.2 ⟨n, by simp [hn], hm⟩)

theorem Spare.pair {kind : BinaryKind} {left right : Node} (h : Spare [.binary kind left right]) :
    Spare [left] ∧ Spare [right] := by
  simp only [Spare, Node.preorderRow, Node.preorder, List.append_nil, List.mem_cons,
    List.mem_append] at h ⊢
  exact ⟨fun m hm => h m (.inr (.inl hm)), fun m hm => h m (.inr (.inr hm))⟩

end

/-! ## 2. Trees whose words code can hold -/

/-- A tree of words that code can hold too. -/
inductive Common : Node → Prop
  | word {word : String} (h : IsCommon word) : Common (leafOfWord word)
  | sequence {items : List Node} (h : ∀ n ∈ items, Common n) : Common (.sequence items)
  | pair {kind : BinaryKind} {left right : Node} (hl : Common left) (hr : Common right) :
      Common (.binary kind left right)

theorem isCodeName_of_isOperand {word : String} (h : IsOperand word) : isCodeName word = true := by
  refine Bool.and_eq_true_iff.2 ⟨?_, List.all_eq_true.2 fun c hc => ?_⟩
  · rw [Bool.not_eq_true', List.isEmpty_eq_false_iff]
    exact h.nonempty
  · obtain ⟨halnum, hchar⟩ := h.chars c hc
    have hcomma : c ≠ ',' := by
      rintro rfl
      exact absurd halnum (Text.not_isAlphanumeric (by decide) (by decide))
    rw [Token.isWordChar, Bool.and_eq_true_iff] at hchar
    rw [isWordChar, isSymbolChar, hchar.1, beq_eq_false_iff_ne.2 hcomma, Bool.or_false]
    exact hchar.2

theorem common_of_raw {role : Role} {n : Node} (h : Raw role n) : Common n := by
  have hoperator {symbol : String} (hs : Symbol.isOperator symbol = true) :
      Common (.operator symbol) := by
    rw [← leafOfWord_of_isOperator hs]
    exact .word (.inl hs)
  induction h with
  | word h => exact .word (.inr (isCodeName_of_isOperand h))
  | group _ ih => exact .sequence (forall_mem_group (hoperator (by decide)) ih (hoperator (by decide)))
  | ofAtom _ ih => exact ih
  | pair _ _ ihl ihr => exact .pair ihl ihr
  | sign h => rcases h with rfl | rfl | rfl <;> exact hoperator (by decide)
  | term _ ih => exact ih

section

variable {n : Node} {items : List Node} {o : Options}

theorem Common.stripNode (h : Common n) (inRow : Bool) : Common (stripNode inRow n).1 := by
  induction h generalizing inRow with
  | word h =>
    rw [leafOfWord, stripNode_leaf]
    exact .word h
  | @sequence items _ ih =>
    have hall : ∀ n ∈ (stripRow true items).1, Common n := by
      rw [stripRow_fst]
      intro n hn
      obtain ⟨m, hm, rfl⟩ := List.mem_map.1 hn
      exact ih m hm true
    rw [stripNode_sequence]
    split
    · exact .sequence fun n hn => hall n (mem_of_mem_inner hn)
    · exact .sequence hall
  | pair _ _ ihl ihr =>
    rw [stripNode_binary]
    exact .pair (ihl false) (ihr false)

theorem Common.plain (h : Common n) : Plain n := by
  induction h with
  | @word word h =>
    refine .word ?_
    rintro rfl
    rcases h with h | h <;> exact absurd h (by decide)
  | sequence _ ih => exact .sequence ih
  | pair _ _ ihl ihr => exact .pair ihl ihr

theorem AreWords.append {xs ys : List String} (hx : AreWords xs) (hy : AreWords ys) :
    AreWords (xs ++ ys) :=
  List.forall_mem_append.2 ⟨hx, hy⟩

theorem AreWords.cons {word : String} {rest : List String}
    (hword : isSymbol word = true ∨ isCodeName word = true) (hrest : AreWords rest) :
    AreWords (word :: rest) :=
  List.forall_mem_cons.2 ⟨hword, hrest⟩

theorem areWords_nil : AreWords [] := by
  simp [AreWords]

theorem areWords_timesIf (after : Bool) : AreWords (timesIf after) := by
  cases after
  · exact areWords_nil
  · exact .cons (.inl (by decide)) areWords_nil

theorem areWords_enclose {words : List String} (h : AreWords words) (n : Node) :
    AreWords (enclose n words) := by
  unfold Code.enclose
  split
  · exact h
  · exact (AreWords.cons (.inl (by decide)) h).append (.cons (.inl (by decide)) areWords_nil)

theorem areWords_spellRow (h : ∀ n ∈ items, ∀ after, AreWords (spell o after n)) (after : Bool) :
    AreWords (spellRow o after items) := by
  induction items generalizing after with
  | nil => exact areWords_nil
  | cons n rest ih =>
    obtain ⟨hn, hrest⟩ := List.forall_mem_cons.1 h
    rw [spellRow]
    exact (hn after).append (ih hrest _)

theorem Common.areWords (hpower : isCodeName o.powerFunction = true) (h : Common n)
    (after : Bool) : AreWords (spell o after n) := by
  induction h generalizing after with
  | word h =>
    rw [spell_leafOfWord]
    refine (areWords_timesIf _).append (.cons (h.imp_left fun hop => ?_) areWords_nil)
    rw [isSymbol, hop, Bool.true_or]
  | sequence _ ih =>
    rw [spell]
    exact areWords_spellRow ih after
  | @pair kind left right _ _ ihl ihr =>
    have hclosing : AreWords [")"] := .cons (.inl (by decide)) areWords_nil
    cases kind with
    | power =>
      rw [spell]
      exact (areWords_timesIf after).append ((AreWords.cons (.inr hpower) (.cons (.inl (by decide))
        (ihl false))).append (.cons (.inl (by decide)) (ihr false)) |>.append hclosing)
    | fraction =>
      rw [spell]
      exact (areWords_timesIf after).append ((areWords_enclose (ihl false) left).append
        (.cons (.inl (by decide)) (areWords_enclose (ihr false) right)))

theorem lexemes_spellRow (hpower : isCodeName o.powerFunction = true) (h : ∀ n ∈ items, Common n) :
    lexemes (textOf (spellRow o false items)).toList =
      (Scan.read {} (spellRow o false items)).all := by
  have hwords := areWords_spellRow (fun n hn after => (h n hn).areWords hpower after) false
  exact lexemes_read (c := {}) hwords (.inl rfl)

end

/-! ## 3. Chains -/

/-- What stripping does not change of a chain. -/
structure Alike (n m : Node) : Prop where
  ends : ∀ after, endsAfter after n = true
  ends' : ∀ after, endsAfter after m = true
  atomic : isAtomic m = isAtomic n

theorem Alike.pair {kind : BinaryKind} {left right left' right' : Node} (h : Alike right right') :
    Alike (.binary kind left right) (.binary kind left' right') := by
  cases kind with
  | power =>
    refine ⟨fun after => ?_, fun after => ?_, rfl⟩
    · rw [endsAfter, h.ends]
    · rw [endsAfter, h.ends']
  | fraction =>
    refine ⟨fun after => ?_, fun after => ?_, rfl⟩
    · rw [endsAfter, h.ends, Bool.or_true]
    · rw [endsAfter, h.ends', Bool.or_true]

theorem alike_word {word : String} (h : IsOperand word) :
    Alike (leafOfWord word) (leafOfWord word) := by
  have hends (after : Bool) : endsAfter after (leafOfWord word) = true := by
    rw [endsAfter_leafOfWord, endsValue, h.not_isOperator]
    rfl
  exact ⟨hends, hends, rfl⟩

theorem alike_group (items items' : List Node) : Alike (bracketed items) (bracketed items') where
  ends := endsAfter_group items
  ends' := endsAfter_group items'
  atomic := (isAtomic_group items').trans (isAtomic_group items).symm

theorem alike_stripNode {role : Role} {n : Node} (h : Raw role n) (hrole : role ≠ .part) :
    Alike n (stripNode false n).1 := by
  induction h with
  | word h => exact alike_word h
  | group _ _ =>
    rw [(stripNode_bracketed _).1]
    exact alike_group _ _
  | ofAtom _ ih => exact ih (by simp)
  | pair _ _ _ ihr =>
    rw [stripNode_binary]
    exact (ihr (by simp)).pair
  | sign | term => exact absurd rfl hrole

/-! ## 4. One node -/

/-- The node is written to one text and the other node to the other text, and the two texts belong
together before and after. -/
def Moves (o : Options) (R : Rules) (place place' : Place) (n m : Node) : Prop :=
  endsAfter place.after n = place'.after ∧
    ∀ ⦃outer : List Frame⦄ ⦃adds : Bool⦄ ⦃c' : Scan⦄ ⦃c d : Cursor⦄,
      Matches R outer place adds c' c → Feeds R c (spell o place.after n) d →
        endsAfter place.after m = place'.after ∧
          Matches R outer place' (adds || (place.after && isPlusMinus m || isSum m))
            (c'.read (spell o place.after m)) d

section

variable {o : Options} {R : Rules} {place place' : Place} {n m : Node} {word : String}
  {items : List Node} (hR : R.OfCode)

/-- What holds for each node of a row holds for the row. -/
theorem moves_row {f : Node → Node} {g : Place → Node → Option Place} {outer : List Frame}
    {adds : Bool} {c' : Scan} {c d : Cursor}
    (hmoves : ∀ n ∈ items, ∀ {place place'}, g place n = some place' → Moves o R place place' n (f n))
    (h : items.foldlM g place = some place') (hmatches : Matches R outer place adds c' c)
    (hfeeds : Feeds R c (spellRow o place.after items) d) :
    endsAfterRow place.after (items.map f) = place'.after ∧
      Matches R outer place' (adds || isSumRow place.after (items.map f))
        (c'.read (spellRow o place.after (items.map f))) d := by
  induction items generalizing place adds c' c with
  | nil =>
    obtain rfl : place = place' := Option.some.inj h
    rw [spellRow, feeds_nil_iff] at hfeeds
    subst hfeeds
    refine ⟨rfl, ?_⟩
    exact hmatches.weaken false
  | cons n rest ih =>
    obtain ⟨hn, hrest⟩ := List.forall_mem_cons.1 hmoves
    rw [List.foldlM_cons] at h
    obtain ⟨next, hnext, h⟩ := Option.bind_eq_some_iff.1 h
    obtain ⟨hends, hmove⟩ := hn hnext
    rw [spellRow, feeds_append_iff] at hfeeds
    obtain ⟨c₁, hfeeds, hfeeds'⟩ := hfeeds
    obtain ⟨hends', hmatches'⟩ := hmove hmatches hfeeds
    rw [hends] at hfeeds'
    obtain ⟨hlast, hfinal⟩ := ih hrest h hmatches' hfeeds'
    rw [List.map_cons, endsAfterRow, spellRow, isSumRow, Scan.read_append, hends', ← Bool.or_assoc]
    exact ⟨hlast, hfinal⟩

theorem spell_word (h : word ≠ "(") (after : Bool) (kind : LeafKind) :
    spell o after (.leaf kind word) = [word] := by
  rw [spell, beq_eq_false_iff_ne.2 h, Bool.and_false]
  rfl

theorem moves_operator (hopen : word ≠ "(") (hclose : word ≠ ")") (hplace : place'.after = false)
    (h : ∀ {outer : List Frame} {adds : Bool} {c' : Scan} {c d : Cursor},
      Matches R outer place adds c' c → c.feed R word = some d →
        Matches R outer place' (adds || place.after && isPlusMinus (.operator word)) (c'.add word) d) :
    Moves o R place place' (.operator word) (.operator word) := by
  have hends : endsAfter place.after (.operator word) = place'.after := by
    rw [hplace, endsAfter]
    exact beq_eq_false_iff_ne.2 hclose
  refine ⟨hends, fun _ _ _ _ _ hmatches hfeeds => ⟨hends, ?_⟩⟩
  rw [spell_word hopen, feeds_singleton_iff] at hfeeds
  rw [spell_word hopen, isSum.eq_def, Bool.or_false]
  exact h hmatches hfeeds

include hR in
theorem moves_sign (h : IsSign word) (hpass : place.pass (.operator word) = some place') :
    Moves o R place place' (.operator word) (.operator word) := by
  rcases h with rfl | rfl | rfl
  · obtain rfl : (if place.after then .start else place) = place' := Option.some.inj hpass
    refine moves_operator (by decide) (by decide) ?_ fun hmatches hfeed => ?_
    · split
      · rfl
      · next hafter => exact Bool.of_not_eq_true hafter
    · rw [show isPlusMinus (.operator "+") = true from rfl, Bool.and_true]
      exact hmatches.plus hR hfeed
  · obtain rfl : Place.factor = place' := Option.some.inj hpass
    refine moves_operator (by decide) (by decide) rfl fun hmatches hfeed => ?_
    rw [show isPlusMinus (.operator "-") = true from rfl, Bool.and_true]
    exact hmatches.minus hR hfeed
  · have htimes : (if place = .total then none else some Place.factor) = some place' := hpass
    split at htimes
    · exact absurd htimes (by simp)
    · next htotal =>
      obtain rfl := Option.some.inj htimes
      exact moves_operator (by decide) (by decide) rfl
        fun hmatches hfeed => (hmatches.times hR htotal hfeed).weaken _

theorem moves_word (h : IsOperand word) (hpass : place.pass (leafOfWord word) = some place') :
    Moves o R place place' (leafOfWord word) (leafOfWord word) := by
  have hop : isOperatorLeaf (leafOfWord word) = false := by
    rcases h.leaf with hleaf | hleaf <;> rw [hleaf] <;> rfl
  obtain ⟨hplace, rfl⟩ := Place.pass_term hop hpass
  have hends := (alike_word h).ends place.after
  refine ⟨hends, fun _ _ _ _ _ hmatches hfeeds => ⟨hends, ?_⟩⟩
  rw [leafOfWord, spell_word h.ne_opening, feeds_singleton_iff] at hfeeds
  rw [leafOfWord, spell_word h.ne_opening]
  exact (hmatches.addName (isCodeName_of_isOperand h) hplace hfeeds).weaken _

include hR in
/-- An atom or a quotient that is multiplied with a value before it. -/
theorem Keeps.moves (h : Keeps R (spell o false n) (spell o false m)) (halike : Alike n m)
    (htimes : spell o true n = "*" :: spell o false n)
    (htimes' : spell o true m = "*" :: spell o false m) (hplace : place ≠ .total) :
    Moves o R place .value n m := by
  refine ⟨halike.ends _, fun _ _ _ _ _ hmatches hfeeds => ⟨halike.ends' _, ?_⟩⟩
  cases hafter : place.after with
  | false =>
    rw [hafter] at hfeeds
    exact (hmatches.keep hafter h hfeeds).weaken _
  | true =>
    rw [hafter, htimes, feeds_cons_iff] at hfeeds
    obtain ⟨c, hstar, hfeeds⟩ := hfeeds
    rw [htimes', Scan.read_cons]
    exact ((hmatches.times hR hplace hstar).keep rfl h hfeeds).weaken _

/-! ## 5. Sequences that lose their brackets -/

-- what begins with a power or a fraction is multiplied with a value before it
theorem spell_leadsWithPair (h : leadsWithPair n = true) :
    spell o true n = "*" :: spell o false n ∧ endsAfter true n = endsAfter false n := by
  induction n with
  | binary kind left right => exact ⟨spell_pair kind left right, by cases kind <;> rw [endsAfter, endsAfter]⟩
  | row kind items ih =>
    cases items with
    | nil => exact absurd h (by simp [leadsWithPair])
    | cons n rest =>
      obtain ⟨hspell, hends⟩ := ih n List.mem_cons_self (by simpa [leadsWithPair] using h)
      refine ⟨?_, ?_⟩
      · rw [spell, spell, spellRow, spellRow, hspell, hends, List.cons_append]
      · rw [endsAfter, endsAfter, endsAfterRow, endsAfterRow, hends]
  | _ => exact absurd h (by simp [leadsWithPair])

include hR in
/-- A sequence loses its brackets in a place where they can be spared. -/
theorem moves_drop {items' : List Node}
    (hinside : Encloses R (isSumRow false items') (endsAfterRow false items') (spellRow o false items)
      (spellRow o false items')) (h : place.drop (.sequence items') = some place') :
    Moves o R place place' (bracketed items) (.sequence items') := by
  have hspell : spell o false (bracketed items) = "(" :: spellRow o false items ++ [")"] :=
    spell_group items false
  have htimes : spell o true (bracketed items) = "*" :: ("(" :: spellRow o false items ++ [")"]) :=
    spell_group items true
  rcases Place.drop_cases h with ⟨hsum, rfl, rfl⟩ | ⟨hsum, rfl, hplace⟩
  · -- a sum where a sum may begin
    refine ⟨endsAfter_group items _, fun _ _ _ _ _ hmatches hfeeds => ?_⟩
    rw [Place.after, hspell] at hfeeds
    rw [hsum, Bool.or_true, Bool.or_true, Place.after, endsAfter, spell]
    exact hmatches.drop_sum hR hinside hfeeds
  · refine ⟨endsAfter_group items _, fun _ _ _ _ _ hmatches hfeeds => ?_⟩
    have hproduct : Encloses R false (endsAfterRow false items') (spellRow o false items)
        (spellRow o false items') := by
      rw [isSum] at hsum
      rwa [hsum] at hinside
    rcases hplace with hafter | ⟨rfl, hpair⟩
    · rw [hafter, hspell] at hfeeds
      obtain ⟨hends, hdropped⟩ := hmatches.drop_product hR hafter hproduct hfeeds
      rw [hafter, endsAfter, spell]
      exact ⟨hends, hdropped.weaken _⟩
    · -- behind a value the `*` comes back with the pair that the content begins with
      obtain ⟨hstar, hends'⟩ := spell_leadsWithPair (o := o) hpair
      rw [Place.after, htimes, feeds_cons_iff] at hfeeds
      obtain ⟨c₁, hfirst, hfeeds⟩ := hfeeds
      obtain ⟨hends, hdropped⟩ :=
        (hmatches.times hR (by decide) hfirst).drop_product hR rfl hproduct hfeeds
      rw [Place.after, hends', hstar, Scan.read_cons, endsAfter, spell]
      exact ⟨hends, hdropped.weaken _⟩

end

/-! ## 6. Trees -/

/-- What stripping keeps of a tree of the role: an atom or a chain stays one where it stands in no row,
and in a row the texts belong together behind it. -/
def Kept (o : Options) (R : Rules) : Role → Node → Prop
  | .part, n => ∀ place place' : Place, place.behind n = some place' →
      Moves o R place place' n (stripNode true n).1
  | _, n => Keeps R (spell o false n) (spell o false (stripNode false n).1) ∧
      ∀ place place' : Place, place.behind n = some place' →
        Moves o R place place' n (stripNode true n).1

section

variable {o : Options} {R : Rules} {f : ℚ → ℚ → ℚ} {role : Role} {n m : Node} {items : List Node}
  (hR : R.OfCode) (hpower : isCodeName o.powerFunction = true)
  (hcall : R.call o.powerFunction = some f)

include hR

theorem Keeps.enclose (h : Keeps R (spell o false n) (spell o false m)) (halike : Alike n m) :
    Keeps R (enclose n (spell o false n)) (enclose m (spell o false m)) := by
  unfold Code.enclose
  rw [halike.atomic]
  split
  · exact h
  · exact h.encloses.keeps_bracket hR

omit hR in
/-- The row of a bracket, in which all brackets can be spared. -/
theorem encloses_stripRow {place : Place} (hitems : ∀ n ∈ items, Kept o R .part n)
    (h : items.foldlM Place.behind .start = some place) :
    Encloses R (isSumRow false (stripRow true items).1) (endsAfterRow false (stripRow true items).1)
      (spellRow o false items) (spellRow o false (stripRow true items).1) := by
  intro outer c hfeeds
  obtain ⟨hends, hmatches⟩ := moves_row (fun n hn place place' => hitems n hn place place') h
    (matches_nil R outer) hfeeds
  rw [stripRow_fst]
  rw [Bool.false_or] at hmatches
  exact ⟨place, hends.symm, hmatches⟩

include hpower hcall

theorem keeps_pair {left right left' right' : Node} (kind : BinaryKind)
    (hl : Keeps R (spell o false left) (spell o false left'))
    (hr : Keeps R (spell o false right) (spell o false right')) (hal : Alike left left')
    (har : Alike right right') :
    Keeps R (spell o false (.binary kind left right)) (spell o false (.binary kind left' right')) := by
  cases kind with
  | power =>
    rw [spell, spell]
    exact keeps_call hR hpower hcall hl.encloses hr.encloses
  | fraction =>
    rw [spell, spell]
    exact (hl.enclose hR hal).over hR (hr.enclose hR har)

theorem kept_of_raw (h : Raw role n) (hspare : Spare [n]) : Kept o R role n := by
  induction h with
  | @word word h =>
    refine ⟨?_, fun place place' hbehind => ?_⟩
    · rw [leafOfWord, stripNode_leaf, spell_word h.ne_opening]
      exact keeps_name (isCodeName_of_isOperand h)
    · exact moves_word h hbehind
  | @group items _ ih =>
    obtain ⟨⟨place, hplace⟩, hitems⟩ := hspare.group
    have hinside := encloses_stripRow (fun n hn => ih n hn (hitems n hn)) hplace
    have hpair : (bracketed items).isBracketed = true := hasBracketPair_iff.2 ⟨items, rfl⟩
    obtain ⟨halone, hinRow⟩ := stripNode_bracketed items
    refine ⟨?_, fun place place' hbehind => ?_⟩
    · rw [halone, spell_group, spell_group]
      exact hinside.keeps_bracket hR
    · rw [Place.behind, if_pos hpair, hinRow] at hbehind
      rw [hinRow]
      exact moves_drop hR hinside hbehind
  | ofAtom _ ih => exact ih hspare
  | @pair kind left right hleft hright ihl ihr =>
    obtain ⟨hsl, hsr⟩ := hspare.pair
    have hal := alike_stripNode hleft (by simp)
    have har := alike_stripNode hright (by simp)
    have hkeeps := keeps_pair hR hpower hcall kind (ihl hsl).1 (ihr hsr).1 hal har
    refine ⟨?_, fun place place' hbehind => ?_⟩
    · rw [stripNode_binary]
      exact hkeeps
    · have hpass : place.pass (.binary kind left right) = some place' := hbehind
      obtain ⟨hplace, rfl⟩ := Place.pass_term (by rfl) hpass
      rw [stripNode_binary]
      exact hkeeps.moves hR har.pair (spell_pair kind left right) (spell_pair ..) hplace
  | sign h =>
    intro place place' hbehind
    rw [stripNode_leaf]
    exact moves_sign hR h hbehind
  | term _ ih => exact (ih hspare).2

/-- A node at the top, where sequences keep their brackets. -/
theorem moves_of_raw (h : Raw .part n) (hspare : Spare [n]) {place place' : Place}
    (hpass : place.pass n = some place') : Moves o R place place' n (stripNode false n).1 := by
  cases h with
  | sign h =>
    rw [stripNode_leaf]
    exact moves_sign hR h hpass
  | term h =>
    have hkeeps := (kept_of_raw hR hpower hcall h hspare).1
    have halike := alike_stripNode h (by simp)
    cases h with
    | ofAtom h =>
      cases h with
      | word h => exact moves_word h hpass
      | group _ =>
        obtain ⟨hplace, rfl⟩ := Place.pass_term (by rfl) hpass
        rw [(stripNode_bracketed _).1] at hkeeps halike ⊢
        refine hkeeps.moves hR halike ?_ ?_ hplace
        · rw [spell_group, spell_group]
          rfl
        · rw [spell_group, spell_group]
          rfl
    | pair _ _ =>
      obtain ⟨hplace, rfl⟩ := Place.pass_term (by rfl) hpass
      rw [stripNode_binary] at hkeeps halike ⊢
      exact hkeeps.moves hR halike (spell_pair ..) (spell_pair ..) hplace

/-- The words of a row have a value with brackets, so they have that value without them. -/
theorem Reads.stripped (h : ∀ n ∈ items, Raw .part n) (hspare : Spare items) {v : ℚ}
    (hreads : Reads R .sum (lexemes (textOf (spellRow o false items)).toList) v) :
    Reads R .sum (lexemes (textOf
      (spellRow o false (items.map fun n => (stripNode false n).1))).toList) v := by
  have hcommon : ∀ n ∈ items, Common n := fun n hn => common_of_raw (h n hn)
  have hcommon' : ∀ n ∈ items.map (fun n => (stripNode false n).1), Common n := by
    intro n hn
    obtain ⟨m, hm, rfl⟩ := List.mem_map.1 hn
    exact (hcommon m hm).stripNode false
  obtain ⟨p, t, call, rfl, hrun⟩ := hreads.evaluates hR.clear []
  have hwords := areWords_spellRow (fun n hn after => (hcommon n hn).areWords hpower after) false
  have hempty : IsEnd "" := .inl rfl
  obtain ⟨c, hfeeds, hsettled⟩ := feeds_of_runs hwords hempty hrun
  have hstart : Place.start ≠ .total := by decide
  obtain ⟨place, hplaces⟩ := exists_passes items hstart
  obtain ⟨-, hmatches⟩ := moves_row
    (fun n hn _ _ hpass => moves_of_raw hR hpower hcall (h n hn) (hspare.of_mem hn) hpass)
    hplaces (matches_nil R []) hfeeds
  -- the machine holds a value at the end, so the collected words are complete
  have hafter : place.after = true := by
    rw [← Bool.not_eq_false]
    intro hafter
    obtain ⟨-, q, rfl, -⟩ := hmatches.awaiting hafter
    exact absurd (Option.some.inj hsettled) (by simp)
  obtain ⟨q, u, call', heq, hread, -⟩ := hmatches.settled hR hafter hsettled
  cases heq
  rw [lexemes_spellRow hpower hcommon']
  exact hread

end

/-! ## 7. Formulas -/

/-- **Stripping and the value of code.**  The folded row of a valid formula has code, and so has the
row after stripping.  If all brackets that are taken out can be spared, the value of the first code is
the one value of the second.  By coincidence the values may agree elsewhere too, as for
`(a-(b+c-c))`. -/
theorem emit_stripBrackets {formula : String} {inputs : List String} {options : Options}
    (hvalid : isValid formula inputs = true) (hsuffix : options.suffixNumbers = false)
    (hpower : isCodeName options.powerFunction = true) (positions : List Int) :
    ∃ row settled stripped code code', group (leaves (Token.scan formula)) positions = .ok row ∧
      foldOperators row = .ok settled ∧ stripBrackets settled.nodes = .ok stripped ∧
      emit options (.sequence settled.nodes) = .ok code ∧
      emit options (.sequence stripped.nodes) = .ok code' ∧
      (Spare settled.nodes → ∀ value power v,
        Reads (codeRules options.powerFunction value power) .sum (lexemes code.toList) v →
          ∀ w, Reads (codeRules options.powerFunction value power) .sum (lexemes code'.toList) w ↔
            w = v) := by
  obtain ⟨row, out, applied, hsteps⟩ := exists_steps hvalid
  have hraw := raw_of_isValid hvalid hsteps
  have hgroup : group (leaves (Token.scan formula)) positions = .ok row := by
    rw [leaves_scan, ← hsteps.reading]
    exact group_readingRow hsteps.pieces positions
  obtain ⟨settled, hsettled, rfl⟩ := foldOperators_ok_iff.2 hsteps.folds
  have hcomma : options.powerFunction ≠ "," := by
    intro hname
    rw [hname] at hpower
    exact absurd hpower (by decide)
  have hnative : holdsForeignRow settled.nodes = false :=
    holdsForeignRow_eq_false_iff.2 (foldedFrom_native hsteps.folds)
  have hstripped : stripBrackets settled.nodes = .ok (settle settled.nodes) := by
    rw [stripBrackets, hnative]
    rfl
  have hnodes : (settle settled.nodes).nodes =
      settled.nodes.map fun n => (stripNode false n).1 := by
    rw [settle_enclosed, stripPass, stripRow_fst]
    exact foldedFrom_forall hsteps.folds .pair fun n hn _ hm => (hsteps.pieces n hn).enclosed hm
  have hcommon : ∀ n ∈ settled.nodes, Common n := fun n hn => common_of_raw (hraw n hn)
  refine ⟨row, settled, _, _, _, hgroup, hsettled, hstripped,
    emit_plain hsuffix hcomma fun n hn => (hcommon n hn).plain,
    emit_plain hsuffix hcomma fun n hn => ?_, fun hspare value power v hreads w => ?_⟩
  · rw [hnodes] at hn
    obtain ⟨m, hm, rfl⟩ := List.mem_map.1 hn
    exact ((hcommon m hm).stripNode false).plain
  · have hR := codeRules_ofCode hpower value power
    have hstripped := hreads.stripped hR hpower (if_pos rfl) hraw hspare
    rw [← hnodes] at hstripped
    constructor
    · intro hw
      exact hw.unique hR.clear hstripped
    · rintro rfl
      exact hstripped

theorem reads_quotientValue (word : String) (h : isCodeName word = true) :
    Reads (codeRules "Math.Pow" quotientValue wholePower) .signed [word] (quotientValue word) :=
  .ofChain (.ofAtom (.operand (if_pos h)))

theorem Reads.bracketed {R : Rules} {words : List String} {v : ℚ} (h : Reads R .sum words v) :
    Reads R .signed ("(" :: words ++ [")"]) v :=
  .ofChain (.ofAtom (.bracket h))

theorem emit_stripBrackets_quotient :
    isValid "(2(a/b)-b)" ["a", "b"] = true ∧ isCodeName "Math.Pow" = true ∧
      ∃ row settled stripped code code', group (leaves (Token.scan "(2(a/b)-b)")) [] = .ok row ∧
        foldOperators row = .ok settled ∧ stripBrackets settled.nodes = .ok stripped ∧
        emit {} (.sequence settled.nodes) = .ok code ∧
        emit {} (.sequence stripped.nodes) = .ok code' ∧ Spare settled.nodes ∧
        Reads (codeRules "Math.Pow" quotientValue wholePower) .sum (lexemes code.toList)
          (quotientValue "2" * (quotientValue "a" / quotientValue "b") - quotientValue "b") ∧
        ∀ w, Reads (codeRules "Math.Pow" quotientValue wholePower) .sum (lexemes code'.toList) w ↔
          w = quotientValue "2" * (quotientValue "a" / quotientValue "b") - quotientValue "b" := by
  have hvalid : isValid "(2(a/b)-b)" ["a", "b"] = true := by decide +kernel
  have hname : isCodeName ({} : Options).powerFunction = true := by decide
  obtain ⟨row, settled, stripped, code, code', hgroup, hfold, hstrip, hcode, hcode', hvalue⟩ :=
    emit_stripBrackets hvalid rfl hname []
  have hknown : ((group (leaves (Token.scan "(2(a/b)-b)")) []).bind foldOperators).map
      (fun s => (decide (Spare s.nodes), emit {} (.sequence s.nodes))) =
        .ok (true, .ok "(2*(a/b)-b)") := by
    decide +kernel
  rw [hgroup, show (Except.ok row).bind foldOperators = foldOperators row from rfl, hfold] at hknown
  obtain ⟨hspare, htext⟩ := Prod.mk.inj (Except.ok.inj hknown)
  obtain rfl : code = "(2*(a/b)-b)" := Except.ok.inj (hcode.symm.trans htext)
  have hwords : lexemes "(2*(a/b)-b)".toList = "(" :: ((["2"] ++ "*" ::
      ("(" :: (["a"] ++ "/" :: ["b"]) ++ [")"])) ++ "-" :: ["b"]) ++ [")"] := by
    decide +kernel
  have hreads : Reads (codeRules "Math.Pow" quotientValue wholePower) .sum
      (lexemes "(2*(a/b)-b)".toList)
      (quotientValue "2" * (quotientValue "a" / quotientValue "b") - quotientValue "b") := by
    have hover : (codeRules "Math.Pow" quotientValue wholePower).product "/" = some (· / ·) := rfl
    have hquotient := Reads.bracketed (.ofProduct (.product hover
      (.ofSigned (reads_quotientValue "a" (by decide))) (reads_quotientValue "b" (by decide))))
    rw [hwords]
    exact .ofProduct (.ofSigned (Reads.bracketed (.sub (.ofProduct (.product rfl
      (.ofSigned (reads_quotientValue "2" (by decide))) hquotient))
      (.ofSigned (reads_quotientValue "b" (by decide))))))
  exact ⟨hvalid, hname, row, settled, stripped, _, code', hgroup, hfold, hstrip, hcode, hcode',
    of_decide_eq_true hspare, hreads, hvalue (of_decide_eq_true hspare) _ _ _ hreads⟩

/-- A sum that is multiplied loses its brackets too. -/
theorem not_emit_stripBrackets : ¬∀ formula inputs row settled stripped code code',
    isValid formula inputs = true → "sqrt" ∉ Token.words formula →
    group (leaves (Token.scan formula)) [] = .ok row → foldOperators row = .ok settled →
    stripBrackets settled.nodes = .ok stripped → emit {} (.sequence settled.nodes) = .ok code →
    emit {} (.sequence stripped.nodes) = .ok code' → ∀ value power v,
      Reads (codeRules "Math.Pow" value power) .sum (lexemes code.toList) v →
        Reads (codeRules "Math.Pow" value power) .sum (lexemes code'.toList) v := by
  intro hall
  have hlost := hall "(a*(b+c))" ["a", "b", "c"]
    [bracketed [.identifier "a", .operator "*",
      bracketed [.identifier "b", .operator "+", .identifier "c"]]]
    ⟨[bracketed [.identifier "a", .operator "*",
      bracketed [.identifier "b", .operator "+", .identifier "c"]]], 1⟩
    ⟨[bracketed [.identifier "a", .operator "*",
      .sequence [.identifier "b", .operator "+", .identifier "c"]]], 2⟩
    "(a*(b+c))" "(a*b+c)" (by decide +kernel) (by decide +kernel) (by decide +kernel)
    (by decide +kernel) (by decide +kernel) (by decide +kernel) (by decide +kernel)
    quotientValue wholePower
  have hwords : lexemes "(a*(b+c))".toList =
      "(" :: (["a"] ++ "*" :: ("(" :: (["b"] ++ "+" :: ["c"]) ++ [")"])) ++ [")"] := by
    decide +kernel
  have hwords' : lexemes "(a*b+c)".toList =
      "(" :: ((["a"] ++ "*" :: ["b"]) ++ "+" :: ["c"]) ++ [")"] := by
    decide +kernel
  have hbefore : Reads (codeRules "Math.Pow" quotientValue wholePower) .sum
      (lexemes "(a*(b+c))".toList) (quotientValue "a" * (quotientValue "b" + quotientValue "c")) := by
    have hsum := (Reads.add (.ofProduct (.ofSigned (reads_quotientValue "b" (by decide))))
      (.ofSigned (reads_quotientValue "c" (by decide)))).bracketed
    rw [hwords]
    exact .ofProduct (.ofSigned (Reads.bracketed (.ofProduct (.product rfl
      (.ofSigned (reads_quotientValue "a" (by decide))) hsum))))
  have hafter : Reads (codeRules "Math.Pow" quotientValue wholePower) .sum
      (lexemes "(a*b+c)".toList) (quotientValue "a" * quotientValue "b" + quotientValue "c") := by
    rw [hwords']
    exact .ofProduct (.ofSigned (Reads.bracketed (.add (.ofProduct (.product rfl
      (.ofSigned (reads_quotientValue "a" (by decide))) (reads_quotientValue "b" (by decide))))
      (.ofSigned (reads_quotientValue "c" (by decide))))))
  have hequal := (hlost _ hbefore).unique (codeRules_clear (by decide) _ _) hafter
  exact absurd hequal (by decide +kernel)

end Formulary.Arithmetic
