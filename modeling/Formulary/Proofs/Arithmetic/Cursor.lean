import Formulary.Proofs.Arithmetic.Prefix

/-!
# Reading two texts side by side

Code is written word by word, and two names side by side run together.  So while the words of a text
are read, the name at its end is held back, as long as it may still grow: by the machine that
evaluates the text (`Cursor`), and by the list of the words that are complete (`Scan`).

One text is evaluated while another is collected, and the place in the text says how the two belong
together (`Matches`): the machine holds back what the collected words come to.  Every word that is
written to both keeps them together.
-/

namespace Formulary.Arithmetic

/-! ## 1. Names that run together -/

/-- The words of a name that may be empty. -/
def named (name : String) : List String :=
  if name = "" then [] else [name]

/-- Nothing, or a name of code. -/
def IsEnd (name : String) : Prop :=
  name = "" ∨ isCodeName name = true

section

variable {name word : String} {rest : List String}

@[simp]
theorem named_empty : named "" = [] := rfl

theorem named_of_isCodeName (h : isCodeName name = true) : named name = [name] := by
  refine if_neg ?_
  rintro rfl
  exact absurd h (by decide)

theorem isCodeName_append (h : IsEnd name) (hword : isCodeName word = true) :
    isCodeName (name ++ word) = true := by
  rcases h with rfl | hname
  · rwa [String.empty_append]
  · exact isCodeName_extend hname (Bool.and_eq_true_iff.1 hword).2

theorem toList_textOf_name (h : isCodeName word = true) :
    (textOf (word :: rest)).toList = word.toList ++ (textOf rest).toList := by
  have hcomma : word ≠ "," := ne_comma_of_isCodeName h
  rw [toList_textOf_cons, spaced, if_neg hcomma]

-- a symbol ends the name before it
theorem lexemes_end_symbol (h : IsEnd name) (hword : isSymbol word = true) :
    lexemes (name.toList ++ (textOf (word :: rest)).toList) =
      named name ++ word :: lexemes (textOf rest).toList := by
  rcases h with rfl | hname
  · rw [toList_textOf_cons]
    exact lexemes_symbol hword _
  · obtain ⟨c, hhead, hc⟩ := head?_spaced_symbol hword
    have hends : ∀ d ∈ (textOf (word :: rest)).toList.head?, isWordChar d = false := by
      intro d hd
      rw [toList_textOf_cons, List.head?_append, hhead] at hd
      rw [← Option.some.inj hd]
      exact hc
    have hspaced : (spaced name).toList = name.toList := by
      have htext : (textOf [name]).toList = name.toList ++ (textOf []).toList :=
        toList_textOf_name hname
      rw [toList_textOf_cons] at htext
      exact List.append_cancel_right htext
    rw [← hspaced, lexemes_name hname hends, named_of_isCodeName hname, toList_textOf_cons,
      lexemes_symbol hword]
    rfl

theorem lexemes_end (h : IsEnd name) : lexemes (name.toList ++ (textOf []).toList) = named name := by
  rcases h with rfl | hname
  · rw [show ("".toList ++ (textOf []).toList) = [] from rfl, lexemes]
    rfl
  · have htext : (textOf [name]).toList = name.toList ++ (textOf []).toList := toList_textOf_name hname
    rw [← htext, lexemes_textOf (.singleton hname), named_of_isCodeName hname]

end

/-! ## 2. Collecting the words of a text -/

/-- The complete words of a text, and the name at its end. -/
structure Scan where
  words : List String := []
  name : String := ""

/-- All words, if the text ends here. -/
def Scan.all (c : Scan) : List String :=
  c.words ++ named c.name

/-- One more word. -/
def Scan.add (c : Scan) (word : String) : Scan :=
  if isSymbol word then ⟨c.all ++ [word], ""⟩ else ⟨c.words, c.name ++ word⟩

/-- More words. -/
def Scan.read (c : Scan) (words : List String) : Scan :=
  words.foldl Scan.add c

/-- The words can be told apart as symbols and names of code. -/
def AreWords (words : List String) : Prop :=
  ∀ word ∈ words, isSymbol word = true ∨ isCodeName word = true

section

variable {c : Scan} {word : String} {words xs ys : List String}

@[simp]
theorem Scan.all_empty (words : List String) : (⟨words, ""⟩ : Scan).all = words :=
  List.append_nil words

theorem Scan.add_symbol (h : isSymbol word = true) (c : Scan) : c.add word = ⟨c.all ++ [word], ""⟩ :=
  if_pos h

theorem Scan.add_name (h : isCodeName word = true) (c : Scan) :
    c.add word = ⟨c.words, c.name ++ word⟩ :=
  if_neg (by rw [isSymbol_of_isCodeName h]; decide)

theorem Scan.read_cons (c : Scan) (word : String) (words : List String) :
    c.read (word :: words) = (c.add word).read words := rfl

theorem Scan.read_append (c : Scan) (xs ys : List String) :
    c.read (xs ++ ys) = (c.read xs).read ys :=
  List.foldl_append

/-- The words before a text stay in front of it. -/
theorem Scan.read_prefix (front : List String) (c : Scan) (words : List String) :
    Scan.read ⟨front ++ c.words, c.name⟩ words =
      ⟨front ++ (c.read words).words, (c.read words).name⟩ := by
  induction words generalizing c with
  | nil => rfl
  | cons word rest ih =>
    rw [Scan.read_cons, Scan.read_cons, ← ih]
    unfold Scan.add
    split
    · simp [Scan.all]
    · rfl

theorem Scan.all_read (front words : List String) :
    (Scan.read ⟨front, ""⟩ words).all = front ++ (Scan.read {} words).all := by
  have h := Scan.read_prefix front {} words
  rw [List.append_nil] at h
  rw [h, Scan.all, Scan.all, List.append_assoc]

/-- A text in brackets. -/
theorem Scan.read_bracket (front words : List String) :
    Scan.read ⟨front, ""⟩ ("(" :: words ++ [")"]) =
      ⟨front ++ ("(" :: (Scan.read {} words).all ++ [")"]), ""⟩ := by
  rw [List.cons_append, Scan.read_cons, Scan.read_append, Scan.add_symbol (by decide),
    Scan.all_empty, Scan.read_cons, Scan.add_symbol (by decide), Scan.all_read, List.append_assoc,
    List.append_assoc]
  rfl

theorem lexemes_read (h : AreWords words) (hname : IsEnd c.name) :
    c.words ++ lexemes (c.name.toList ++ (textOf words).toList) = (c.read words).all := by
  induction words generalizing c with
  | nil =>
    rw [lexemes_end hname]
    rfl
  | cons word rest ih =>
    obtain ⟨hword, hrest⟩ := List.forall_mem_cons.1 h
    rw [Scan.read_cons]
    rcases hword with hsymbol | hcode
    · rw [lexemes_end_symbol hname hsymbol, Scan.add_symbol hsymbol, ← ih hrest (.inl rfl), Scan.all,
        List.append_assoc, List.append_assoc]
      rfl
    · have hgrown : IsEnd (c.add word).name := by
        rw [Scan.add_name hcode]
        exact .inr (isCodeName_append hname hcode)
      rw [← ih hrest hgrown, Scan.add_name hcode, toList_textOf_name hcode, ← List.append_assoc,
        ← String.toList_append]

end

/-! ## 3. Evaluating the words of a text -/

/-- A state of the machine, and the name at the end of what has been read. -/
structure Cursor where
  state : State
  name : String := ""

/-- The state if the text ends here. -/
def Cursor.settled (R : Rules) (c : Cursor) : Option State :=
  (named c.name).foldlM (step R) c.state

/-- One more word. -/
def Cursor.feed (R : Rules) (c : Cursor) (word : String) : Option Cursor :=
  if isSymbol word then
    (c.settled R).bind fun s => (step R s word).map fun s => { state := s }
  else some ⟨c.state, c.name ++ word⟩

/-- The cursor comes from one place to another over the words. -/
def Feeds (R : Rules) (c : Cursor) (words : List String) (c' : Cursor) : Prop :=
  words.foldlM (Cursor.feed R) c = some c'

section

variable {R : Rules} {c c' : Cursor} {s s' : State} {name word : String} {words xs ys : List String}

theorem feeds_nil_iff : Feeds R c [] c' ↔ c = c' :=
  Option.some_inj

theorem feeds_cons_iff :
    Feeds R c (word :: words) c' ↔ ∃ d, c.feed R word = some d ∧ Feeds R d words c' := by
  rw [Feeds, List.foldlM_cons]
  exact Option.bind_eq_some_iff

theorem feeds_append_iff :
    Feeds R c (xs ++ ys) c' ↔ ∃ d, Feeds R c xs d ∧ Feeds R d ys c' := by
  rw [Feeds, List.foldlM_append]
  exact Option.bind_eq_some_iff

theorem feeds_singleton_iff : Feeds R c [word] c' ↔ c.feed R word = some c' := by
  rw [feeds_cons_iff]
  constructor
  · rintro ⟨d, hd, hnil⟩
    rw [hd, feeds_nil_iff.1 hnil]
  · exact fun h => ⟨c', h, rfl⟩

theorem feed_symbol (h : isSymbol word = true) (hfeed : c.feed R word = some c') :
    ∃ s s', c.settled R = some s ∧ step R s word = some s' ∧ c' = { state := s' } := by
  rw [Cursor.feed, if_pos h, Option.bind_eq_some_iff] at hfeed
  obtain ⟨s, hs, hstep⟩ := hfeed
  obtain ⟨s', hs', rfl⟩ := Option.map_eq_some_iff.1 hstep
  exact ⟨s, s', hs, hs', rfl⟩

theorem feed_name (h : isCodeName word = true) : c.feed R word = some ⟨c.state, c.name ++ word⟩ :=
  if_neg (by rw [isSymbol_of_isCodeName h]; decide)

/-- A run of the machine over a text takes the cursor over its words. -/
theorem feeds_of_runs (h : AreWords words) (hname : IsEnd name)
    (hrun : Runs R s (lexemes (name.toList ++ (textOf words).toList)) s') :
    ∃ c, Feeds R ⟨s, name⟩ words c ∧ c.settled R = some s' := by
  induction words generalizing s name with
  | nil =>
    rw [lexemes_end hname] at hrun
    exact ⟨_, rfl, hrun⟩
  | cons word rest ih =>
    obtain ⟨hword, hrest⟩ := List.forall_mem_cons.1 h
    rcases hword with hsymbol | hcode
    · rw [lexemes_end_symbol hname hsymbol, Runs, List.foldlM_append] at hrun
      obtain ⟨s₁, hs₁, hrun⟩ := Option.bind_eq_some_iff.1 hrun
      obtain ⟨s₂, hs₂, hrun⟩ := Option.bind_eq_some_iff.1 hrun
      have hempty : IsEnd "" := .inl rfl
      obtain ⟨c, hfeeds, hsettled⟩ := ih hrest hempty hrun
      refine ⟨c, feeds_cons_iff.2 ⟨_, ?_, hfeeds⟩, hsettled⟩
      rw [Cursor.feed, if_pos hsymbol, Cursor.settled, hs₁, Option.bind_some, hs₂]
      rfl
    · rw [toList_textOf_name hcode, ← List.append_assoc, ← String.toList_append] at hrun
      obtain ⟨c, hfeeds, hsettled⟩ := ih hrest (.inr (isCodeName_append hname hcode)) hrun
      exact ⟨c, feeds_cons_iff.2 ⟨_, feed_name hcode, hfeeds⟩, hsettled⟩

end

/-! ## 4. Places -/

/-- A place in an expression. -/
inductive Place where
  /-- A sum may begin here. -/
  | start
  /-- A factor may begin here. -/
  | factor
  /-- A value stands before. -/
  | value
  /-- A sum stands before, to which only a further term can be added. -/
  | total
  deriving DecidableEq, Repr

/-- Does a value stand before the place? -/
def Place.after : Place → Bool
  | .start | .factor => false
  | .value | .total => true

/-- The words collected from one text belong to what the machine holds back of another, inside the
given brackets.  `adds` says whether the words may have a sign between two terms. -/
inductive Matches (R : Rules) (outer : List Frame) : Place → Bool → Scan → Cursor → Prop
  | start {adds : Bool} {words : List String} {p : Pending} (h : Starts R adds words p) :
      Matches R outer .start adds ⟨words, ""⟩ ⟨⟨outer, p, .awaiting id⟩, ""⟩
  | factor {adds : Bool} {words : List String} {p : Pending} (h : Opened R .product adds words p) :
      Matches R outer .factor adds ⟨words, ""⟩ ⟨⟨outer, p, .awaiting id⟩, ""⟩
  /-- Both texts end with one name. -/
  | name {adds : Bool} {words : List String} {p : Pending} {name : String}
      (hname : isCodeName name = true) (h : Opened R .atom adds words p) :
      Matches R outer .value adds ⟨words, name⟩ ⟨⟨outer, p, .awaiting id⟩, name⟩
  | closed {adds : Bool} {c : Scan} {p : Pending} {t : ℚ} {call : Option (ℚ → ℚ → ℚ)}
      (h : Complete R adds c.all p t) :
      Matches R outer .value adds c ⟨⟨outer, p, .holding t call⟩, ""⟩
  /-- A name stands right behind a bracket, so the text is no expression. -/
  | stuck {adds : Bool} {c : Scan} {p : Pending} {t : ℚ} {call : Option (ℚ → ℚ → ℚ)} {name : String}
      (hname : isCodeName name = true) :
      Matches R outer .value adds c ⟨⟨outer, p, .holding t call⟩, name⟩
  | total {adds : Bool} {c : Scan} {p : Pending} {t : ℚ} {call : Option (ℚ → ℚ → ℚ)}
      (hadds : adds = true) (h : Reads R .sum c.all (p.total t)) :
      Matches R outer .total adds c ⟨⟨outer, p, .holding t call⟩, ""⟩

section

variable {R : Rules} {outer : List Frame} {place : Place} {adds : Bool} {c' : Scan} {c d : Cursor}
  {s : State} {word : String} (hR : R.OfCode) (h : Matches R outer place adds c' c)

theorem matches_nil (R : Rules) (outer : List Frame) :
    Matches R outer .start false {} ⟨.start outer, ""⟩ :=
  .start starts_nil

include h in
theorem Matches.weaken (more : Bool) : Matches R outer place (adds || more) c' c := by
  cases h with
  | start h => exact .start ⟨h.opened.weaken more, h.plain, h.read⟩
  | factor h => exact .factor (h.weaken more)
  | name hname h => exact .name hname (h.weaken more)
  | closed h => exact .closed (h.weaken more)
  | stuck hname => exact .stuck hname
  | total hadds h => exact .total (by rw [hadds, Bool.true_or]) h

include hR in
-- after a value, a name is neither an operator nor a mark
theorem step_name_holding (hword : isCodeName word = true) (p : Pending) (t : ℚ)
    (call : Option (ℚ → ℚ → ℚ)) : step R ⟨outer, p, .holding t call⟩ word = none := by
  have hsymbol := isSymbol_of_isCodeName hword
  have hne {symbol : String} (hs : isSymbol symbol = true) : word ≠ symbol := by
    rintro rfl
    rw [hs] at hsymbol
    exact absurd hsymbol (by decide)
  have hproduct : R.product word = none := by
    rw [Option.eq_none_iff_forall_ne_some]
    intro f hf
    rcases hR.product hf with ⟨hword, -⟩ | ⟨hword, -⟩
    · exact hne (by decide) hword
    · exact hne (by decide) hword
  show afterChain R outer p t call word = none
  rw [afterChain, hR.tight]
  dsimp only
  rw [hproduct]
  dsimp only
  rw [if_neg (hne (by decide)), atMark, if_neg (hne (by decide)), if_neg (hne (by decide))]
  · exact fun _ _ _ hclosing => absurd hclosing (hne (by decide))
  · exact fun _ _ _ hcomma => absurd hcomma (hne (by decide))

include hR in
-- where an atom is missing, only signs and brackets can come
theorem step_symbol_awaiting (hword : isSymbol word = true) (hopen : word ≠ "(") (hplus : word ≠ "+")
    (hminus : word ≠ "-") (p : Pending) : step R ⟨outer, p, .awaiting id⟩ word = none := by
  show atAtom R outer p id word = none
  rw [atAtom, if_neg hopen, if_neg hplus, if_neg hminus, hR.symbol hword]
  rfl

include hR h in
/-- Where a value stands before, the collected words are complete. -/
theorem Matches.value_settled (hplace : place = .value) (hs : c.settled R = some s) :
    ∃ p t call, s = ⟨outer, p, .holding t call⟩ ∧ Complete R adds c'.all p t := by
  cases h with
  | start | factor | total => exact absurd hplace (by simp)
  | @name adds words p name hname h =>
    obtain ⟨x, hx⟩ := hR.operand hname
    rw [Cursor.settled, named_of_isCodeName hname, List.foldlM_cons,
      step_operand hR.clear hx] at hs
    refine ⟨p, x, _, (Option.some.inj hs).symm, ?_⟩
    rw [Scan.all, named_of_isCodeName hname]
    exact h.complete (.operand hx)
  | closed h => exact ⟨_, _, _, (Option.some.inj hs).symm, h⟩
  | stuck hname =>
    rw [Cursor.settled, named_of_isCodeName hname, List.foldlM_cons,
      step_name_holding hR hname] at hs
    exact absurd hs (by simp)

include hR h in
/-- Behind a value the collected words are an expression with the value of the machine, and a product
if no sign stands between two terms. -/
theorem Matches.settled (hafter : place.after = true) (hs : c.settled R = some s) :
    ∃ p t call, s = ⟨outer, p, .holding t call⟩ ∧ Reads R .sum c'.all (p.total t) ∧
      (adds = false → Reads R .product c'.all (p.total t)) := by
  cases hplace : place with
  | start | factor =>
    rw [hplace] at hafter
    exact absurd hafter (by decide)
  | value =>
    obtain ⟨p, t, call, heq, hcomplete⟩ := h.value_settled hR hplace hs
    refine ⟨p, t, call, heq, hcomplete.sum, ?_⟩
    rintro rfl
    exact hcomplete.product
  | total =>
    subst hplace
    cases h with
    | total hadds h =>
      refine ⟨_, _, _, (Option.some.inj hs).symm, h, fun hno => ?_⟩
      rw [hadds] at hno
      exact absurd hno (by decide)

include h in
/-- In front of a value the machine waits for an atom. -/
theorem Matches.awaiting (hafter : place.after = false) : c'.name = "" ∧ ∃ p,
    c = ⟨⟨outer, p, .awaiting id⟩, ""⟩ ∧ Opened R .product adds c'.words p := by
  cases h with
  | start h => exact ⟨rfl, _, rfl, h.opened⟩
  | factor h => exact ⟨rfl, _, rfl, h⟩
  | name | closed | stuck | total => exact absurd hafter (by decide)

/-! ## 5. One more word -/

include hR h

theorem Matches.times (hplace : place ≠ .total) (hd : c.feed R "*" = some d) :
    Matches R outer .factor adds (c'.add "*") d := by
  obtain ⟨s, s', hs, hstep, rfl⟩ := feed_symbol (by decide) hd
  rw [Scan.add_symbol (by decide)]
  cases hafter : place.after with
  | false =>
    obtain ⟨-, p, rfl, -⟩ := h.awaiting hafter
    rw [← Option.some.inj hs, step_symbol_awaiting hR (by decide) (by decide) (by decide)
      (by decide)] at hstep
    exact absurd hstep (by simp)
  | true =>
    have hvalue : place = .value := by
      cases place with
      | value => rfl
      | start | factor => exact absurd hafter (by decide)
      | total => exact absurd rfl hplace
    obtain ⟨p, t, call, rfl, hcomplete⟩ := h.value_settled hR hvalue hs
    have hnext : step R ⟨outer, p, .holding t call⟩ "*" =
        some ⟨outer, { sum := p.sum, product := fun u => p.product (p.sign t) * u }, .awaiting id⟩ := by
      show afterChain R outer p t call "*" = _
      rw [afterChain, hR.tight]
      dsimp only
      rw [hR.times]
    rw [← Option.some.inj (hnext.symm.trans hstep)]
    exact .factor (hcomplete.times hR)

theorem Matches.plus (hd : c.feed R "+" = some d) :
    Matches R outer (if place.after then .start else place) (adds || place.after) (c'.add "+") d := by
  obtain ⟨s, s', hs, hstep, rfl⟩ := feed_symbol (by decide) hd
  rw [Scan.add_symbol (by decide)]
  cases hafter : place.after with
  | false =>
    rw [if_neg (by decide), Bool.or_false]
    cases h with
    | start h =>
      rw [← Option.some.inj hs] at hstep
      rw [← Option.some.inj hstep, Scan.all_empty]
      exact .start h.plus
    | factor h =>
      rw [← Option.some.inj hs] at hstep
      rw [← Option.some.inj hstep, Scan.all_empty]
      exact .factor h.plus
    | name | closed | stuck | total => exact absurd hafter (by decide)
  | true =>
    obtain ⟨p, t, call, rfl, hread, -⟩ := h.settled hR hafter hs
    rw [step_mark hR.clear (by decide)] at hstep
    rw [if_pos rfl, Bool.or_true, ← Option.some.inj hstep]
    exact .start hread.starts_plus

theorem Matches.minus (hd : c.feed R "-" = some d) :
    Matches R outer .factor (adds || place.after) (c'.add "-") d := by
  obtain ⟨s, s', hs, hstep, rfl⟩ := feed_symbol (by decide) hd
  rw [Scan.add_symbol (by decide)]
  cases hafter : place.after with
  | false =>
    obtain ⟨hname, p, rfl, hopened⟩ := h.awaiting hafter
    rw [← Option.some.inj hs] at hstep
    rw [← Option.some.inj hstep, Bool.or_false, Scan.all, hname, named_empty, List.append_nil]
    exact .factor (hopened.minus hR)
  | true =>
    obtain ⟨p, t, call, rfl, hread, -⟩ := h.settled hR hafter hs
    rw [step_mark hR.clear (by decide)] at hstep
    rw [Bool.or_true, ← Option.some.inj hstep]
    exact .factor hread.opened_minus

omit hR in
theorem Matches.addName (hword : isCodeName word = true) (hplace : place ≠ .total)
    (hd : c.feed R word = some d) : Matches R outer .value adds (c'.add word) d := by
  rw [feed_name hword] at hd
  rw [← Option.some.inj hd, Scan.add_name hword]
  cases h with
  | start h =>
    dsimp only
    rw [String.empty_append]
    exact .name hword h.opened.atom
  | factor h =>
    dsimp only
    rw [String.empty_append]
    exact .name hword h.atom
  | name hname h => exact .name (isCodeName_append (.inr hname) hword) h
  | closed =>
    dsimp only
    rw [String.empty_append]
    exact .stuck hword
  | stuck hname => exact .stuck (isCodeName_append (.inr hname) hword)
  | total => exact absurd rfl hplace

/-- A division goes on with an atom. -/
theorem Matches.over (hplace : place = .value) (hd : c.feed R "/" = some d) :
    ∃ words p, c'.add "/" = ⟨words, ""⟩ ∧ d = ⟨⟨outer, p, .awaiting id⟩, ""⟩ ∧
      Opened R .atom adds words p := by
  obtain ⟨s, s', hs, hstep, rfl⟩ := feed_symbol (by decide) hd
  obtain ⟨p, t, call, rfl, hcomplete⟩ := h.value_settled hR hplace hs
  have hnext : step R ⟨outer, p, .holding t call⟩ "/" =
      some ⟨outer, { sum := p.sum, product := fun u => p.product (p.sign t) / u }, .awaiting id⟩ := by
    show afterChain R outer p t call "/" = _
    rw [afterChain, hR.tight]
    dsimp only
    rw [hR.divide]
  rw [← Option.some.inj (hnext.symm.trans hstep)]
  exact ⟨_, _, Scan.add_symbol (by decide) _, rfl, hcomplete.over hR⟩

/-- Where the machine can close a bracket or go on behind a comma, the collected words are
complete. -/
theorem Matches.mark (hword : word = ")" ∨ word = ",") (hd : c.feed R word = some d) :
    place.after = true ∧ ∃ v, (∃ s, atMark outer v word = some s ∧ d = { state := s }) ∧
      Reads R .sum c'.all v ∧ (adds = false → Reads R .product c'.all v) := by
  have hsymbol : isSymbol word = true := by rcases hword with rfl | rfl <;> decide
  obtain ⟨s, s', hs, hstep, rfl⟩ := feed_symbol hsymbol hd
  cases hafter : place.after with
  | false =>
    obtain ⟨-, p, rfl, -⟩ := h.awaiting hafter
    rw [← Option.some.inj hs] at hstep
    rw [step_symbol_awaiting hR hsymbol (by rcases hword with rfl | rfl <;> decide)
      (by rcases hword with rfl | rfl <;> decide) (by rcases hword with rfl | rfl <;> decide)] at hstep
    exact absurd hstep (by simp)
  | true =>
    obtain ⟨p, t, call, rfl, hread, hproduct⟩ := h.settled hR hafter hs
    rw [step_mark hR.clear (by rcases hword with rfl | rfl <;> decide)] at hstep
    exact ⟨rfl, p.total t, ⟨s', hstep, rfl⟩, hread, hproduct⟩

end

/-! ## 6. Atoms -/

/-- Where an atom is missing, the words are one for the machine and the other words are one for the
collected text. -/
def Keeps (R : Rules) (ws ws' : List String) : Prop :=
  ∀ ⦃outer : List Frame⦄ ⦃p : Pending⦄ ⦃c : Cursor⦄ ⦃adds : Bool⦄ ⦃words : List String⦄,
    Opened R .atom adds words p → Feeds R ⟨⟨outer, p, .awaiting id⟩, ""⟩ ws c →
      Matches R outer .value adds (Scan.read ⟨words, ""⟩ ws') c

/-- The same for two texts inside brackets.  `ends` says whether they end with a value. -/
def Encloses (R : Rules) (adds ends : Bool) (ws ws' : List String) : Prop :=
  ∀ ⦃outer : List Frame⦄ ⦃c : Cursor⦄, Feeds R ⟨.start outer, ""⟩ ws c →
    ∃ place, place.after = ends ∧ Matches R outer place adds (Scan.read {} ws') c

section

variable {R : Rules} {outer : List Frame} {place : Place} {adds more ends more' ends' : Bool}
  {p : Pending} {c' : Scan} {c d : Cursor} {word : String} {ws ws' xs xs' ys ys' : List String}
  (hR : R.OfCode)

theorem Keeps.encloses (h : Keeps R ws ws') : Encloses R false true ws ws' :=
  fun _ _ hfeeds => ⟨.value, rfl, h starts_nil.opened.atom hfeeds⟩

theorem keeps_name (hword : isCodeName word = true) : Keeps R [word] [word] := by
  intro outer p c adds words hopened hfeeds
  rw [feeds_singleton_iff, feed_name hword] at hfeeds
  rw [← Option.some.inj hfeeds, Scan.read_cons, Scan.add_name hword]
  dsimp only
  rw [String.empty_append]
  exact .name hword hopened

include hR

/-- The machine reads a bracket as the value of what stands inside. -/
theorem Encloses.bracket (h : Encloses R more ends ws ws')
    (hfeeds : Feeds R ⟨⟨outer, p, .awaiting id⟩, ""⟩ ("(" :: ws ++ [")"]) d) :
    ends = true ∧ ∃ v, d = ⟨⟨outer, p, .holding v none⟩, ""⟩ ∧
      Reads R .sum (Scan.read {} ws').all v ∧
        (more = false → Reads R .product (Scan.read {} ws').all v) := by
  rw [List.cons_append, feeds_cons_iff] at hfeeds
  obtain ⟨c, hopen, hfeeds⟩ := hfeeds
  obtain ⟨c₁, hinside, hclose⟩ := feeds_append_iff.1 hfeeds
  rw [feeds_singleton_iff] at hclose
  obtain ⟨s, s', hs, hstep, rfl⟩ := feed_symbol (by decide) hopen
  rw [← Option.some.inj hs] at hstep
  rw [← Option.some.inj hstep] at hinside
  obtain ⟨place, rfl, hmatches⟩ := h hinside
  obtain ⟨hafter, v, ⟨s'', hmark, rfl⟩, hread, hproduct⟩ := hmatches.mark hR (.inl rfl) hclose
  exact ⟨hafter, v, by rw [← Option.some.inj hmark]; rfl, hread, hproduct⟩

theorem Encloses.keeps_bracket (h : Encloses R more ends ws ws') :
    Keeps R ("(" :: ws ++ [")"]) ("(" :: ws' ++ [")"]) := by
  intro outer p c adds words hopened hfeeds
  obtain ⟨-, v, rfl, hread, -⟩ := h.bracket hR hfeeds
  rw [Scan.read_bracket]
  refine .closed ?_
  rw [Scan.all_empty]
  exact hopened.complete (.bracket hread)

/-- A call of a function of two arguments. -/
theorem keeps_call {f : ℚ → ℚ → ℚ} (hname : isCodeName word = true) (hcall : R.call word = some f)
    (hx : Encloses R more ends xs xs') (hy : Encloses R more' ends' ys ys') :
    Keeps R (word :: "(" :: xs ++ "," :: ys ++ [")"]) (word :: "(" :: xs' ++ "," :: ys' ++ [")"]) := by
  intro outer p c adds words hopened hfeeds
  have hcut (us vs : List String) : word :: "(" :: us ++ "," :: vs ++ [")"] =
      word :: ("(" :: (us ++ ("," :: (vs ++ [")"])))) := by
    simp
  rw [hcut, feeds_cons_iff] at hfeeds
  obtain ⟨c₁, hfirst, hfeeds⟩ := hfeeds
  obtain ⟨c₂, hopen, hfeeds⟩ := feeds_cons_iff.1 hfeeds
  obtain ⟨c₃, hxs, hfeeds⟩ := feeds_append_iff.1 hfeeds
  obtain ⟨c₄, hcomma, hfeeds⟩ := feeds_cons_iff.1 hfeeds
  obtain ⟨c₅, hys, hclose⟩ := feeds_append_iff.1 hfeeds
  rw [feeds_singleton_iff] at hclose
  rw [feed_name hname] at hfirst
  obtain rfl := Option.some.inj hfirst
  -- the name is an operand, and the bracket makes it a call
  obtain ⟨z, hz⟩ := hR.operand hname
  obtain ⟨s, s', hs, hstep, rfl⟩ := feed_symbol (by decide) hopen
  have hoperand := step_operand hR.clear hz outer p id
  dsimp only at hs
  rw [Cursor.settled, String.empty_append, named_of_isCodeName hname, List.foldlM_cons, hoperand,
    hcall] at hs
  rw [← Option.some.inj hs, Option.map_some, step_opening hR.clear] at hstep
  rw [← Option.some.inj hstep] at hxs
  obtain ⟨place, -, hmatches⟩ := hx hxs
  obtain ⟨-, x, ⟨s₁, hmark, rfl⟩, hreadx, -⟩ := hmatches.mark hR (.inr rfl) hcomma
  rw [← Option.some.inj hmark] at hys
  obtain ⟨place', -, hmatches'⟩ := hy hys
  obtain ⟨-, y, ⟨s₂, hmark', rfl⟩, hready, -⟩ := hmatches'.mark hR (.inl rfl) hclose
  rw [← Option.some.inj hmark']
  have hscan : Scan.read ⟨words, ""⟩ (word :: "(" :: xs' ++ "," :: ys' ++ [")"]) =
      ⟨words ++ (word :: "(" :: (Scan.read {} xs').all ++ "," :: (Scan.read {} ys').all ++ [")"]),
        ""⟩ := by
    rw [hcut, Scan.read_cons, Scan.add_name hname, Scan.read_cons, Scan.add_symbol (by decide),
      Scan.all, String.empty_append, named_of_isCodeName hname, Scan.read_append, Scan.read_cons,
      Scan.add_symbol (by decide), Scan.all_read, Scan.read_append, Scan.read_cons,
      Scan.add_symbol (by decide), Scan.all_read]
    simp [Scan.read]
  rw [hscan]
  refine .closed ?_
  rw [Scan.all_empty]
  exact hopened.complete (.call hcall hreadx hready)

/-- The quotient of two atoms. -/
theorem Keeps.over (hx : Keeps R xs xs') (hy : Keeps R ys ys') :
    Keeps R (xs ++ "/" :: ys) (xs' ++ "/" :: ys') := by
  intro outer p c adds words hopened hfeeds
  obtain ⟨c₁, hxs, hfeeds⟩ := feeds_append_iff.1 hfeeds
  obtain ⟨c₂, hover, hys⟩ := feeds_cons_iff.1 hfeeds
  obtain ⟨words', p', hscan, rfl, hopened'⟩ := (hx hopened hxs).over hR rfl hover
  rw [Scan.read_append, Scan.read_cons, hscan]
  exact hy hopened' hys

/-! ## 7. Brackets that are left out -/

omit hR in
/-- Where no value stands before, an atom can follow. -/
theorem Matches.keep (h : Matches R outer place adds c' c) (hafter : place.after = false)
    (hkeeps : Keeps R ws ws') (hfeeds : Feeds R c ws d) :
    Matches R outer .value adds (c'.read ws') d := by
  obtain ⟨hname, p, rfl, hopened⟩ := h.awaiting hafter
  obtain ⟨words, name⟩ := c'
  obtain rfl : name = "" := hname
  exact hkeeps hopened.atom hfeeds

/-- Where no value stands before, the brackets around a product can be left out. -/
theorem Matches.drop_product (h : Matches R outer place adds c' c) (hafter : place.after = false)
    (hinside : Encloses R false ends ws ws') (hfeeds : Feeds R c ("(" :: ws ++ [")"]) d) :
    ends = true ∧ Matches R outer .value adds (c'.read ws') d := by
  obtain ⟨hname, p, rfl, hopened⟩ := h.awaiting hafter
  obtain ⟨hends, v, rfl, -, hproduct⟩ := hinside.bracket hR hfeeds
  obtain ⟨words, name⟩ := c'
  obtain rfl : name = "" := hname
  refine ⟨hends, .closed ?_⟩
  rw [Scan.all_read]
  exact hopened.complete (hproduct rfl)

/-- Where a sum may begin, the brackets around a sum can be left out too, if nothing is multiplied
with it. -/
theorem Matches.drop_sum (h : Matches R outer .start adds c' c) (hinside : Encloses R more ends ws ws')
    (hfeeds : Feeds R c ("(" :: ws ++ [")"]) d) :
    ends = true ∧ Matches R outer .total true (c'.read ws') d := by
  cases h with
  | @start adds words p h =>
    obtain ⟨hends, v, rfl, hsum, -⟩ := hinside.bracket hR hfeeds
    refine ⟨hends, .total rfl ?_⟩
    rw [Scan.all_read, Pending.total, h.plain]
    exact h.read hsum

end

end Formulary.Arithmetic
