import Formulary.Markup.Name
import Formulary.Text.Number

/-!
# References, comments and the other small parts of markup

A reference stands for a character, by its code point or by one of five names.  Comments and
processing instructions are passed over, and a verbatim section is text as it stands.
-/

namespace Formulary.Markup

/-! ## 1. References -/

/-- The character with the given code point, if markup may hold it. -/
def charOfCode? (n : Nat) : Option Char :=
  if n.isValidChar then (some (Char.ofNat n)).filter isAllowed else none

def namedChar? : List Char → Option Char
  | ['a', 'm', 'p'] => some '&'
  | ['l', 't'] => some '<'
  | ['g', 't'] => some '>'
  | ['q', 'u', 'o', 't'] => some '"'
  | ['a', 'p', 'o', 's'] => some '\''
  | _ => none

/-- What stands between the ampersand and the semicolon of a reference. -/
inductive Reference where
  | char (c : Char)
  | entity (name : List Char)

def reference? (letters : Alphabet) : List Char → Option Reference
  | '#' :: 'x' :: digits => ((Text.numberFrom 16 0 digits).bind charOfCode?).map .char
  | '#' :: digits => ((Text.numberFrom 10 0 digits).bind charOfCode?).map .char
  | body =>
    match namedChar? body with
    | some c => some (.char c)
    | none => if isName letters body then some (.entity body) else none

def takeReference (letters : Alphabet) (cs : List Char) : Option (Reference × List Char) :=
  match cs.dropWhile (· != ';') with
  | _ :: rest => (reference? letters (cs.takeWhile (· != ';'))).map (·, rest)
  | [] => none

/-! ## 2. Literals -/

/-- The text between quotes at the front, and the rest. -/
def takeLiteral : List Char → Option (List Char × List Char)
  | mark :: rest =>
    if mark = '"' || mark = '\'' then
      let inside := rest.takeWhile (· != mark)
      match rest.dropWhile (· != mark) with
      | _ :: rest => if inside.all isAllowed then some (inside, rest) else none
      | [] => none
    else none
  | [] => none

/-! ## 3. Parts that are passed over, and verbatim text -/

/-- What follows a comment; the text begins inside it. -/
def afterComment : List Char → Option (List Char)
  | '-' :: '-' :: rest =>
    match rest with
    | '>' :: rest => some rest
    | _ => none
  | c :: rest => if isAllowed c then afterComment rest else none
  | [] => none

def afterInstructionEnd : List Char → Option (List Char)
  | '?' :: '>' :: rest => some rest
  | c :: rest => if isAllowed c then afterInstructionEnd rest else none
  | [] => none

/-- What follows a processing instruction; the text begins with its target, which must not be the
name kept for the declaration. -/
def afterInstruction (letters : Alphabet) (cs : List Char) : Option (List Char) :=
  match takeName letters cs with
  | some (target, rest) =>
    if target.map Char.toLower = ['x', 'm', 'l'] then none
    else match rest with
      | '?' :: '>' :: rest => some rest
      | c :: rest => if isBlank c then afterInstructionEnd rest else none
      | [] => none
  | none => none

/-- A verbatim text and what follows it; the text begins inside it. -/
def takeVerbatim : List Char → Option (List Char × List Char)
  | ']' :: ']' :: '>' :: rest => some ([], rest)
  | c :: rest =>
    if isAllowed c then (takeVerbatim rest).map fun (text, rest) => (c :: text, rest) else none
  | [] => none

/-- What follows white space, comments and processing instructions; each of them takes at least one
character, so there are at most `fuel` of them. -/
def skipMisc (letters : Alphabet) : Nat → List Char → Option (List Char)
  | 0, cs => some cs
  | fuel + 1, cs =>
    match skipBlanks cs with
    | '<' :: '!' :: '-' :: '-' :: rest => (afterComment rest).bind (skipMisc letters fuel)
    | '<' :: '?' :: rest => (afterInstruction letters rest).bind (skipMisc letters fuel)
    | cs => some cs

end Formulary.Markup
