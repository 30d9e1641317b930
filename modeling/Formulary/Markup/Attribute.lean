import Formulary.Markup.Reference

/-!
# Attributes

The value of an attribute stands between quotes, with references in it.  A document type may have
rules for the attributes of an element: whether a value is made of words, and which value an
attribute has where a start tag does not give it.  The first rule for an attribute counts.
-/

namespace Formulary.Markup

/-! ## 1. Values -/

/-- The value of an attribute from what stands between its quotes.  White space becomes plain
spaces.  `pending` holds the part of an unfinished reference, last character first; a reference to
an entity that is not known stands for nothing, if that is allowed. -/
def attributeValue (letters : Alphabet) (lenient : Bool) (pending : Option (List Char)) :
    List Char → Option (List Char)
  | [] => if pending.isNone then some [] else none
  | c :: rest =>
    match pending with
    | none =>
      if c = '&' then attributeValue letters lenient (some []) rest
      else if c = '<' || !isAllowed c then none
      else (attributeValue letters lenient none rest).map ((if isBlank c then ' ' else c) :: ·)
    | some body =>
      if c = ';' then
        match reference? letters body.reverse with
        | some (.char c) => (attributeValue letters lenient none rest).map (c :: ·)
        | some (.entity _) => if lenient then attributeValue letters lenient none rest else none
        | none => none
      else attributeValue letters lenient (some (c :: body)) rest

/-- The text with its gaps reduced to single spaces, and none at either end. -/
def tidy (isGap : Char → Bool) (cs : List Char) : List Char :=
  (cs.dropWhile isGap).foldr (fun c tidied =>
    if isGap c then
      match tidied with
      | [] => []
      | ' ' :: _ => tidied
      | _ => ' ' :: tidied
    else c :: tidied) []

/-! ## 2. Rules -/

structure Attribute where
  name : Name
  value : List Char

/-- The rule for an attribute of an element: whether its value is made of words, and the value it
has where a start tag does not give it. -/
structure AttributeRule where
  owner : Name
  name : Name
  inWords : Bool := true
  preset : Option (List Char) := none

namespace AttributeRule

/-- A value as the rule wants it: words have single spaces between them. -/
def settle (rule : AttributeRule) (value : List Char) : List Char :=
  if rule.inWords then tidy (· == ' ') value else value

def find? (rules : List AttributeRule) (owner name : Name) : Option AttributeRule :=
  List.find? (fun rule => rule.owner == owner && rule.name == name) rules

/-- The rules with one more, unless there is one for its attribute already. -/
def add (rules : List AttributeRule) (rule : AttributeRule) : List AttributeRule :=
  if (find? rules rule.owner rule.name).isSome then rules else rules ++ [rule]

end AttributeRule

/-- What the tags of a document depend on: the letters of names, whether a reference to an unknown
entity is allowed and stands for nothing, and the rules for attributes. -/
structure Conventions where
  letters : Alphabet := .usual
  lenient : Bool := false
  rules : List AttributeRule := []

namespace Conventions

def settle (conventions : Conventions) (owner : Name) (a : Attribute) : Attribute :=
  match AttributeRule.find? conventions.rules owner a.name with
  | some rule => { a with value := rule.settle a.value }
  | none => a

/-- The attributes of an element that has some rules, where its start tag does not give them. -/
def presets (conventions : Conventions) (owner : Name) (given : List Attribute) :
    List Attribute :=
  conventions.rules.filterMap fun rule =>
    if rule.owner == owner && !given.any (·.name == rule.name) then
      rule.preset.map fun value => ⟨rule.name, value⟩
    else none

def complete (conventions : Conventions) (owner : Name) (given : List Attribute) :
    List Attribute :=
  given.map (conventions.settle owner) ++ conventions.presets owner given

theorem complete_of_rules_eq_nil {conventions : Conventions} (h : conventions.rules = [])
    (owner : Name) (given : List Attribute) : conventions.complete owner given = given := by
  have hs : conventions.settle owner = id := by
    funext a
    simp [settle, h, AttributeRule.find?]
  simp [complete, presets, h, hs]

end Conventions

end Formulary.Markup
