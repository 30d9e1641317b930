import Formulary.Markup.Name

/-!
# The declaration at the start of markup

Markup may begin with a declaration of its version and then, in this order, of its encoding and of
whether it stands alone.
-/

namespace Formulary.Markup

structure Declaration where
  encoding : Option (List Char)
  standalone : Bool

def isDeclaredChar (c : Char) : Bool :=
  c.isAlphanum || c == '.' || c == '-' || c == '_'

/-- The named values of a declaration, each after white space; there are at most `fuel` of them. -/
def declaredValues : Nat → List Char → Option (List (List Char × List Char))
  | 0, cs => if cs.isEmpty then some [] else none
  | fuel + 1, cs =>
    if cs.isEmpty then some []
    else
      match needBlanks cs with
      | none => none
      | some [] => some []
      | some cs =>
        let name := cs.takeWhile fun c => c != '=' && !isBlank c
        match skipBlanks (cs.dropWhile fun c => c != '=' && !isBlank c) with
        | '=' :: rest =>
          match skipBlanks rest with
          | mark :: rest =>
            if mark != '"' && mark != '\'' then none
            else
              let value := rest.takeWhile isDeclaredChar
              match rest.dropWhile isDeclaredChar with
              | c :: rest =>
                if c = mark then (declaredValues fuel rest).map ((name, value) :: ·) else none
              | [] => none
          | [] => none
        | _ => none

def standaloneValue? : List Char → Option Bool
  | ['y', 'e', 's'] => some true
  | ['n', 'o'] => some false
  | _ => none

/-- The end of a declaration: whether the markup stands alone, if it says so. -/
def declaredStandalone? : List (List Char × List Char) → Option Bool
  | [] => some false
  | [(name, value)] =>
    if name = "standalone".toList then standaloneValue? value else none
  | _ => none

def declarationOf? : List (List Char × List Char) → Option Declaration
  | (version, _) :: rest =>
    if version != "version".toList then none
    else
      match rest with
      | (name, value) :: more =>
        if name = "encoding".toList then
          if value.head?.any Char.isAlpha then (declaredStandalone? more).map (⟨some value, ·⟩)
          else none
        else (declaredStandalone? rest).map (⟨none, ·⟩)
      | [] => some ⟨none, false⟩
  | [] => none

/-- What stands before and after the end of a declaration. -/
def breakAtEnd : List Char → Option (List Char × List Char)
  | '?' :: '>' :: rest => some ([], rest)
  | c :: rest => (breakAtEnd rest).map fun (before, after) => (c :: before, after)
  | [] => none

/-- The declaration at the start of markup, if there is one, and the rest.  A longer name after the
question mark begins a processing instruction and no declaration. -/
def takeDeclaration (letters : Alphabet) (cs : List Char) : Option (Declaration × List Char) :=
  match cs with
  | '<' :: '?' :: 'x' :: 'm' :: 'l' :: rest =>
    if rest.head?.any (isNameChar letters) then some (⟨none, false⟩, cs)
    else
      match breakAtEnd rest with
      | some (inside, after) =>
        match (declaredValues inside.length inside).bind declarationOf? with
        | some declaration => some (declaration, after)
        | none => none
      | none => none
  | _ => some (⟨none, false⟩, cs)

end Formulary.Markup
