import Formulary.Markup.Attribute

/-!
# The form of grammar declarations

A document type may declare elements, attributes and kinds of notes.  Only the rules for attributes
are used, but all must have the right form.  A declaration is cut into marks, and a machine with a
few stages accepts the sequences of marks that are declarations.
-/

namespace Formulary.Markup

/-! ## 1. Identifiers -/

def isPublicChar (c : Char) : Bool :=
  c.isAlphanum || " \n\r-'()+,./:=?;!*#@$_%".toList.contains c

/-! ## 2. Marks -/

inductive Mark where
  | name (name : Name)
  | word
  | repeated
  | keyword (word : List Char)
  | literal (inside : List Char)
  | groupOpen
  | groupClose
  | groupCloseStar
  | groupCloseOther
  | bar
  | comma
  | finish

def startsWithOne (cs : List Char) (options : String) : Bool :=
  cs.head?.any options.toList.contains

/-- The name or word at the front of a declaration, and the rest.  A name may have a sign of
repetition. -/
def takeWordMark (letters : Alphabet) (cs : List Char) : Option (Mark × List Char) :=
  let run := cs.takeWhile (isWordChar letters)
  let rest := cs.dropWhile (isWordChar letters)
  if startsWithOne rest "?*+" then
    (declaredName? letters run).map fun _ => (.repeated, rest.tail)
  else if startsWithOne rest "> \t\n\r),|[%" && !run.isEmpty then
    match declaredName? letters run with
    | some name => some (.name name, rest)
    | none => some (.word, rest)
  else none

def takeMark (letters : Alphabet) (cs : List Char) : Option (Mark × List Char) :=
  match skipBlanks cs with
  | '>' :: rest => some (.finish, rest)
  | '(' :: rest => some (.groupOpen, rest)
  | '|' :: rest => some (.bar, rest)
  | ',' :: rest => some (.comma, rest)
  | ')' :: '*' :: rest => some (.groupCloseStar, rest)
  | ')' :: '?' :: rest => some (.groupCloseOther, rest)
  | ')' :: '+' :: rest => some (.groupCloseOther, rest)
  | ')' :: rest => if startsWithOne rest "> \t\n\r,|)" then some (.groupClose, rest) else none
  | '#' :: rest =>
    match takeName letters rest with
    | some (word, rest) =>
      if startsWithOne rest "> \t\n\r)%|" then some (.keyword word, rest) else none
    | none => none
  | cs =>
    match takeLiteral cs with
    | some (inside, rest) =>
      if startsWithOne rest "> \t\n\r%[" then some (.literal inside, rest) else none
    | none => takeWordMark letters cs

/-! ## 3. Stages -/

/-- The stages of a declaration.  In an element's group, the list holds for every open group, the
innermost first, whether its parts are choices, once that is known.  A rule for an attribute is
put together from stage to stage. -/
inductive Stage where
  | element
  | model
  | firstPart
  | mixedText
  | mixedName
  | mixedNext
  | part (groups : List (Option Bool))
  | afterPart (groups : List (Option Bool))
  | owner
  | attribute (owner : Name)
  | attributeType (rule : AttributeRule)
  | choice (rule : AttributeRule)
  | afterChoice (rule : AttributeRule)
  | noteChoices (rule : AttributeRule)
  | noteChoice (rule : AttributeRule)
  | afterNoteChoice (rule : AttributeRule)
  | preset (rule : AttributeRule)
  | fixed (rule : AttributeRule)
  | note
  | noteKind
  | notePublic
  | noteSystem
  | noteMaybeSystem
  | closing
  | accepted

/-- The next stage of a declaration, and the rule that is complete by then, if there is one. -/
structure Move where
  stage : Stage
  rule : Option AttributeRule := none

/-- The types of attributes whose values are made of words. -/
def wordTypes : List String :=
  ["ID", "IDREF", "IDREFS", "ENTITY", "ENTITIES", "NMTOKEN", "NMTOKENS"]

/-- The group after a connector, which has to be the same throughout the group. -/
def connect (isChoice : Bool) : List (Option Bool) → Option Stage
  | none :: outer => some (.part (some isChoice :: outer))
  | some known :: outer => if known = isChoice then some (.part (some known :: outer)) else none
  | [] => none

def leaveGroup : List (Option Bool) → Option Stage
  | [_] => some .closing
  | _ :: outer => some (.afterPart outer)
  | [] => none

def elementStage : Stage → Mark → Option Stage
  | .element, .name _ => some .model
  | .model, .name ⟨[], word⟩ =>
    if word = "EMPTY".toList || word = "ANY".toList then some .closing else none
  | .model, .groupOpen => some .firstPart
  | .firstPart, .keyword word => if word = "PCDATA".toList then some .mixedText else none
  | .firstPart, .groupOpen => some (.part [none, none])
  | .firstPart, .name _ | .firstPart, .repeated => some (.afterPart [none])
  | .mixedText, .groupClose | .mixedText, .groupCloseStar => some .closing
  | .mixedText, .bar => some .mixedName
  | .mixedName, .name _ => some .mixedNext
  | .mixedNext, .groupCloseStar => some .closing
  | .mixedNext, .bar => some .mixedName
  | .part groups, .groupOpen => some (.part (none :: groups))
  | .part groups, .name _ | .part groups, .repeated => some (.afterPart groups)
  | .afterPart groups, .groupClose | .afterPart groups, .groupCloseStar
  | .afterPart groups, .groupCloseOther => leaveGroup groups
  | .afterPart groups, .comma => connect false groups
  | .afterPart groups, .bar => connect true groups
  | _, _ => none

/-- The stages of the declaration of attributes, up to the end of a rule. -/
def attributeStage : Stage → Mark → Option Stage
  | .owner, .name owner => some (.attribute owner)
  | .attribute _, .finish => some .accepted
  | .attribute owner, .name name => some (.attributeType { owner, name })
  | .attributeType rule, .name ⟨[], word⟩ =>
    if word = "CDATA".toList then some (.preset { rule with inWords := false })
    else if wordTypes.any (·.toList = word) then some (.preset rule)
    else if word = "NOTATION".toList then some (.noteChoices rule)
    else none
  | .attributeType rule, .groupOpen => some (.choice rule)
  | .choice rule, .name _ | .choice rule, .word => some (.afterChoice rule)
  | .afterChoice rule, .groupClose => some (.preset rule)
  | .afterChoice rule, .bar => some (.choice rule)
  | .noteChoices rule, .groupOpen => some (.noteChoice rule)
  | .noteChoice rule, .name ⟨[], _⟩ => some (.afterNoteChoice rule)
  | .afterNoteChoice rule, .groupClose => some (.preset rule)
  | .afterNoteChoice rule, .bar => some (.noteChoice rule)
  | .preset rule, .keyword word => if word = "FIXED".toList then some (.fixed rule) else none
  | _, _ => none

/-- The move that ends a rule for an attribute.  `value?` reads a preset value. -/
def attributeEnd (value? : List Char → Option (List Char)) : Stage → Mark → Option Move
  | .preset rule, .keyword word =>
    if word = "IMPLIED".toList || word = "REQUIRED".toList then
      some ⟨.attribute rule.owner, some rule⟩
    else none
  | .preset rule, .literal inside | .fixed rule, .literal inside =>
    (value? inside).map fun value =>
      ⟨.attribute rule.owner, some { rule with preset := some (rule.settle value) }⟩
  | _, _ => none

def noteStage : Stage → Mark → Option Stage
  | .note, .name ⟨[], _⟩ => some .noteKind
  | .noteKind, .name ⟨[], word⟩ =>
    if word = "SYSTEM".toList then some .noteSystem
    else if word = "PUBLIC".toList then some .notePublic
    else none
  | .notePublic, .literal inside => if inside.all isPublicChar then some .noteMaybeSystem else none
  | .noteSystem, .literal _ | .noteMaybeSystem, .literal _ => some .closing
  | .noteMaybeSystem, .finish => some .accepted
  | _, _ => none

def nextMove (value? : List Char → Option (List Char)) (stage : Stage) (mark : Mark) :
    Option Move :=
  match stage, mark with
  | .closing, .finish => some ⟨.accepted, none⟩
  | _, _ =>
    (attributeEnd value? stage mark).orElse fun _ =>
      ((elementStage stage mark).orElse fun _ =>
        (attributeStage stage mark).orElse fun _ => noteStage stage mark).map (⟨·, none⟩)

def firstStage? (keyword : List Char) : Option Stage :=
  if keyword = "ELEMENT".toList then some .element
  else if keyword = "ATTLIST".toList then some .owner
  else if keyword = "NOTATION".toList then some .note
  else none

/-- The rules of a declaration, from the given stage on, and what follows it; there are at most
`fuel` marks. -/
def takeRules (letters : Alphabet) (value? : List Char → Option (List Char)) :
    Nat → Stage → List Char → Option (List AttributeRule × List Char)
  | _, .accepted, cs => some ([], cs)
  | 0, _, _ => none
  | fuel + 1, stage, cs =>
    (takeMark letters cs).bind fun (mark, rest) =>
      (nextMove value? stage mark).bind fun move =>
        (takeRules letters value? fuel move.stage rest).map fun (rules, rest) =>
          (move.rule.toList ++ rules, rest)

end Formulary.Markup
