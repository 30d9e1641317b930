import Formulary.Markup.Fault
import Formulary.Markup.Grammar
import Formulary.Text.LineEnd

/-!
# Document types

A document type names its grammar, which may lie elsewhere, and may hold declarations.  Of these,
the rules for attributes are kept, and the declaration of an entity is refused.  After a reference
to a part that is not read, further declarations do not count, unless the markup stands alone.  A
document type is read with the line ends that it has; they matter in the identifier of an entity.
-/

namespace Formulary.Markup

/-! ## 1. Identifiers -/

/-- Where something outside the markup is to be found. -/
structure ExternalId where
  systemId : List Char
  publicId : Option (List Char)

/-- The identifiers that follow the given word, and the rest. -/
def takeExternalId (word : List Char) (cs : List Char) : Option (ExternalId × List Char) :=
  if word = "SYSTEM".toList then
    (needBlanks cs).bind fun cs =>
      (takeLiteral cs).map fun (systemId, rest) => (⟨systemId, none⟩, rest)
  else if word = "PUBLIC".toList then
    (needBlanks cs).bind fun cs =>
      (takeLiteral cs).bind fun (publicId, rest) =>
        if publicId.all isPublicChar then
          (needBlanks rest).bind fun cs =>
            (takeLiteral cs).map fun (systemId, rest) =>
              (⟨systemId, some (tidy isBlank publicId)⟩, rest)
        else none
  else none

/-! ## 2. Declarations -/

/-- What is known of a document before it is read: whether it stands alone, and the letters of its
names. -/
structure Setting where
  standalone : Bool := false
  letters : Alphabet := .usual

/-- What the declarations read so far amount to: whether further ones count, whether some of them
may lie elsewhere, and the rules for attributes. -/
structure Grammar where
  counts : Bool := true
  elsewhere : Bool := false
  rules : List AttributeRule := []

namespace Grammar

/-- Does a reference to an unknown entity do no harm, because it may be declared elsewhere? -/
def isLenient (g : Grammar) (setting : Setting) : Bool :=
  g.elsewhere && !setting.standalone

/-- The preset value of an attribute, from what stands between its quotes.  A value that does not
count is not looked at. -/
def presetValue? (g : Grammar) (setting : Setting) (inside : List Char) : Option (List Char) :=
  if g.counts then
    attributeValue setting.letters (g.isLenient setting) none (Text.unifyLineEnds inside)
  else some []

def addRules (g : Grammar) (rules : List AttributeRule) : Grammar :=
  if g.counts then { g with rules := rules.foldl AttributeRule.add g.rules } else g

/-- The grammar after a reference to a part that is not read. -/
def passOver (g : Grammar) (setting : Setting) : Grammar :=
  { g with counts := setting.standalone, elsewhere := true }

def conventions (g : Grammar) (setting : Setting) : Conventions :=
  ⟨setting.letters, g.isLenient setting, g.rules⟩

end Grammar

def afterDeclaration (cs : List Char) : Option (List Char) :=
  match skipBlanks cs with
  | '>' :: rest => some rest
  | _ => none

/-- Is the text the value of an entity: references are complete and none is to a part of the
grammar?  `pending` holds the part of an unfinished reference, last character first. -/
def isEntityValue (letters : Alphabet) (pending : Option (List Char)) : List Char → Bool
  | [] => pending.isNone
  | c :: rest =>
    match pending with
    | none =>
      if c = '&' then isEntityValue letters (some []) rest
      else c != '%' && isEntityValue letters none rest
    | some body =>
      if c = ';' then (reference? letters body.reverse).isSome && isEntityValue letters none rest
      else isEntityValue letters (some (c :: body)) rest

/-- The fault of declaring an entity, or what follows if the declaration does not count. -/
def refuse (counts : Bool) (name : List Char) (id : Option ExternalId) (rest : List Char) :
    Except Fault (List Char) :=
  if counts then
    .error (.entityDeclared (String.ofList name) (id.map fun id => String.ofList id.systemId)
      (id.bind fun id => id.publicId.map String.ofList))
  else .ok rest

/-- What follows the declaration of an unparsed entity; the text begins after its identifiers. -/
def afterUnparsed (letters : Alphabet) (counts : Bool) (name : List Char) (id : ExternalId)
    (cs : List Char) : Except Fault (List Char) :=
  match (needBlanks cs).bind (takeName letters) with
  | some (word, rest) =>
    if word = "NDATA".toList then
      match (needBlanks rest).bind (takeName letters) with
      | some (_, rest) =>
        if startsWithOne rest "> \t\n\r),|[%" then
          (refuse counts name (some id) rest).bind fun rest => orMalformed (afterDeclaration rest)
        else .error .malformed
      | none => .error .malformed
    else .error .malformed
  | none => .error .malformed

/-- What follows the declaration of an entity with the given name; the text begins after the name.
`general` tells an entity of the text from one of the grammar. -/
def afterEntityName (letters : Alphabet) (grammar : Grammar) (general : Bool) (name : List Char)
    (cs : List Char) : Except Fault (List Char) :=
  let counts := grammar.counts && !(general && (namedChar? name).isSome)
  match needBlanks cs with
  | none => .error .malformed
  | some cs =>
    match takeLiteral cs with
    | some (value, rest) =>
      if startsWithOne rest "> \t\n\r%[" then
        (refuse counts name none rest).bind fun rest =>
          if grammar.counts && !isEntityValue letters none value then .error .malformed
          else orMalformed (afterDeclaration rest)
      else .error .malformed
    | none =>
      match (takeName letters cs).bind fun (word, rest) => takeExternalId word rest with
      | some (id, rest) =>
        match afterDeclaration rest with
        | some rest => refuse counts name (some id) rest
        | none => if general then afterUnparsed letters counts name id rest else .error .malformed
      | none => .error .malformed

/-- What follows the declaration of an entity; the text begins after its keyword. -/
def afterEntity (letters : Alphabet) (grammar : Grammar) (cs : List Char) :
    Except Fault (List Char) :=
  match needBlanks cs with
  | some ('%' :: cs) =>
    match (needBlanks cs).bind (takeName letters) with
    | some (name, rest) => afterEntityName letters grammar false name rest
    | none => .error .malformed
  | some cs =>
    match takeName letters cs with
    | some (name, rest) => afterEntityName letters grammar true name rest
    | none => .error .malformed
  | none => .error .malformed

/-- The declarations between the brackets of a document type, and the rest; there are at most `fuel`
of them. -/
def takeSubset (setting : Setting) : Nat → Grammar → List Char →
    Except Fault (Grammar × List Char)
  | 0, _, _ => .error .malformed
  | fuel + 1, grammar, cs =>
    match skipBlanks cs with
    | ']' :: rest => .ok (grammar, rest)
    | '%' :: rest =>
      match takeName setting.letters rest with
      | some (_, ';' :: rest) => takeSubset setting fuel (grammar.passOver setting) rest
      | _ => .error .malformed
    | '<' :: '!' :: '-' :: '-' :: rest =>
      (orMalformed (afterComment rest)).bind (takeSubset setting fuel grammar)
    | '<' :: '?' :: rest =>
      (orMalformed (afterInstruction setting.letters rest)).bind (takeSubset setting fuel grammar)
    | '<' :: '!' :: rest =>
      match takeName setting.letters rest with
      | some (word, rest) =>
        if word = "ENTITY".toList then
          (afterEntity setting.letters grammar rest).bind (takeSubset setting fuel grammar)
        else
          (orMalformed ((firstStage? word).bind fun stage =>
            (needBlanks rest).bind fun rest =>
              takeRules setting.letters (grammar.presetValue? setting) (rest.length + 1) stage
                rest)).bind
            fun (rules, rest) => takeSubset setting fuel (grammar.addRules rules) rest
      | none => .error .malformed
    | _ => .error .malformed

/-! ## 3. The document type -/

def takeBrackets (setting : Setting) (elsewhere : Bool) (cs : List Char) :
    Except Fault (Grammar × List Char) :=
  let grammar : Grammar := { elsewhere }
  match skipBlanks cs with
  | '[' :: rest =>
    (takeSubset setting (rest.length + 1) grammar rest).bind fun (grammar, rest) =>
      (orMalformed (afterDeclaration rest)).map (grammar, ·)
  | '>' :: rest => .ok (grammar, rest)
  | _ => .error .malformed

/-- The document type whose keyword has just been read, and the rest. -/
def takeDoctype (setting : Setting) (cs : List Char) : Except Fault (Grammar × List Char) :=
  match (needBlanks cs).bind (takeDeclaredName setting.letters) with
  | none => .error .malformed
  | some (_, rest) =>
    match (needBlanks rest).bind (takeName setting.letters) with
    | some (word, rest) =>
      match takeExternalId word rest with
      | some (_, rest) => takeBrackets setting true rest
      | none => .error .malformed
    | none => takeBrackets setting false rest

end Formulary.Markup
