import Formulary.Token

/-!
# Power calls written as powers

A call of the power function with two arguments, `pow(a, b)`, is shown as `a^b`.  An argument of
more than one word is put in brackets, unless it is a call or brings its own brackets.  Calls inside
arguments are treated alike; a call with another number of arguments, or with an empty one, stays as
it is.  All texts are lists of characters here.
-/

namespace Formulary.Code

/-! ## 1. Cutting a text -/

/-- What stands before and after the first occurrence of a word. -/
def breakOn (word : List Char) : List Char → Option (List Char × List Char)
  | [] => none
  | c :: rest =>
    if word.isPrefixOf (c :: rest) then some ([], (c :: rest).drop word.length)
    else (breakOn word rest).map fun (before, after) => (c :: before, after)

/-- What stands before and after the closing bracket that matches a bracket opened just before the
text; `depth` more brackets are open. -/
def breakOnClosing (depth : Nat) : List Char → Option (List Char × List Char)
  | [] => none
  | c :: rest =>
    if c = ')' then
      match depth with
      | 0 => some ([], rest)
      | depth + 1 => (breakOnClosing depth rest).map fun (inside, after) => (c :: inside, after)
    else
      (breakOnClosing (if c = '(' then depth + 1 else depth) rest).map
        fun (inside, after) => (c :: inside, after)

/-- The parts of a text between the commas that stand in no bracket; `depth` brackets are open. -/
def splitAtCommas (depth : Nat) : List Char → List (List Char)
  | [] => [[]]
  | c :: rest =>
    if c = ',' ∧ depth = 0 then [] :: splitAtCommas 0 rest
    else
      match splitAtCommas (if c = '(' then depth + 1 else if c = ')' then depth - 1 else depth) rest
      with
      | first :: more => (c :: first) :: more
      | [] => [[c]]

/-- The arguments of a call, if there are two and both say something. -/
def twoArguments? (inside : List Char) : Option (List Char × List Char) :=
  match (splitAtCommas 0 inside).map Text.strip with
  | [first, second] => if first.isEmpty || second.isEmpty then none else some (first, second)
  | _ => none

theorem breakOn_eq {word text before after : List Char}
    (h : breakOn word text = some (before, after)) : text = before ++ word ++ after := by
  induction text generalizing before with
  | nil => exact absurd h (by simp [breakOn])
  | cons c rest ih =>
    rw [breakOn] at h
    split at h
    · next hprefix =>
      obtain ⟨rfl, rfl⟩ : [] = before ∧ (c :: rest).drop word.length = after := by simpa using h
      obtain ⟨more, hmore⟩ := List.isPrefixOf_iff_prefix.1 hprefix
      rw [← hmore, List.drop_left, List.nil_append]
    · obtain ⟨⟨before', after'⟩, hrest, heq⟩ := Option.map_eq_some_iff.1 h
      obtain ⟨rfl, rfl⟩ : c :: before' = before ∧ after' = after := by simpa using heq
      rw [ih hrest, List.cons_append, List.cons_append]

theorem breakOn_length {word text before after : List Char}
    (h : breakOn word text = some (before, after)) :
    before.length + word.length + after.length = text.length := by
  rw [breakOn_eq h, List.length_append, List.length_append]

theorem breakOnClosing_length {depth : Nat} {text inside after : List Char}
    (h : breakOnClosing depth text = some (inside, after)) :
    inside.length + after.length + 1 = text.length := by
  induction text generalizing depth inside with
  | nil => simp [breakOnClosing] at h
  | cons c rest ih =>
    rw [breakOnClosing.eq_def] at h
    dsimp only at h
    split at h
    · split at h
      · obtain ⟨rfl, rfl⟩ : [] = inside ∧ rest = after := by simpa using h
        simp
      · obtain ⟨⟨inside', after'⟩, hr, he⟩ := Option.map_eq_some_iff.1 h
        obtain ⟨rfl, rfl⟩ : c :: inside' = inside ∧ after' = after := by simpa using he
        have := ih hr
        simp only [List.length_cons]
        omega
    · obtain ⟨⟨inside', after'⟩, hr, he⟩ := Option.map_eq_some_iff.1 h
      obtain ⟨rfl, rfl⟩ : c :: inside' = inside ∧ after' = after := by simpa using he
      have := ih hr
      simp only [List.length_cons]
      omega

theorem length_le_of_mem_splitAtCommas {depth : Nat} {text part : List Char}
    (h : part ∈ splitAtCommas depth text) : part.length ≤ text.length := by
  induction text generalizing depth part with
  | nil => simp_all [splitAtCommas]
  | cons c rest ih =>
    rw [splitAtCommas] at h
    split at h
    · rcases List.mem_cons.1 h with rfl | h
      · simp
      · exact Nat.le_succ_of_le (ih h)
    · split at h
      · next first more hs =>
        rcases List.mem_cons.1 h with rfl | h
        · exact Nat.succ_le_succ (ih (hs ▸ List.mem_cons_self))
        · exact Nat.le_succ_of_le (ih (hs ▸ List.mem_cons_of_mem _ h))
      · simp_all

theorem twoArguments?_length {inside first second : List Char}
    (h : twoArguments? inside = some (first, second)) :
    first.length ≤ inside.length ∧ second.length ≤ inside.length := by
  have key : ∀ part ∈ (splitAtCommas 0 inside).map Text.strip, part.length ≤ inside.length := by
    intro part hp
    obtain ⟨raw, hraw, rfl⟩ := List.mem_map.1 hp
    exact Nat.le_trans (Text.length_strip_le raw) (length_le_of_mem_splitAtCommas hraw)
  unfold twoArguments? at h
  split at h
  · next hs =>
    split at h
    · simp at h
    · obtain ⟨rfl, rfl⟩ := by simpa using h
      rw [hs] at key
      exact ⟨key _ (by simp), key _ (by simp)⟩
  · simp at h

/-! ## 2. Operands -/

/-- Does the first opening bracket of the text match its last character? -/
def closesAtEnd (text : List Char) : Bool :=
  match breakOn ['('] text with
  | some (_, after) =>
    match breakOnClosing 0 after with
    | some (_, []) => true
    | _ => false
  | none => false

/-- Do the first words begin a bracket or a call? -/
def beginsGroup (first second : String) : Bool :=
  first == "(" || (!Symbol.isOperator first && second == "(")

/-- An argument as an operand of `^`: in brackets, unless it is one word, one call, or one
bracket. -/
def powerOperand (text : List Char) : List Char :=
  match (Token.scanFrom 0 text).map (·.text) with
  | first :: second :: _ =>
    if beginsGroup first second && closesAtEnd text then text else '(' :: text ++ [')']
  | _ => text

/-! ## 3. Calls as powers -/

/-- The text with every power call that has two arguments written as a power. -/
def callsAsPowers (name text : List Char) : List Char :=
  match _hn : breakOn (name ++ ['(']) text with
  | none => text
  | some (before, after) =>
    match _hc : breakOnClosing 0 after with
    | none => text
    | some (inside, rest) =>
      match _ha : twoArguments? inside with
      | some (base, exponent) =>
        before ++ powerOperand (callsAsPowers name base) ++ '^' ::
          powerOperand (callsAsPowers name exponent) ++ callsAsPowers name rest
      | none => before ++ name ++ '(' :: inside ++ ')' :: callsAsPowers name rest
termination_by text.length
decreasing_by
  all_goals
    have h₁ := breakOn_length _hn
    have h₂ := breakOnClosing_length _hc
    simp only [List.length_append, List.length_cons, List.length_nil] at h₁
  · have := (twoArguments?_length _ha).1
    omega
  · have := (twoArguments?_length _ha).2
    omega
  · omega
  · omega

def showPowers (name text : String) : String :=
  String.ofList (callsAsPowers name.toList text.toList)

end Formulary.Code
