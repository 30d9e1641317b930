import Formulary.Symbol
import Formulary.Text.Digit
import Formulary.Text.Quoted
import Formulary.Text.Space

/-!
# Tokens: a formula cut into words

White space separates words and is dropped; every operator character is a word by itself; a longest
run of other characters is a word.  A word remembers where it starts, counted in characters.
-/

namespace Formulary

/-! ## 1. Tokens -/

inductive Token.Kind where
  | operator
  | number
  | identifier
  deriving DecidableEq, Repr

/-- A word of a formula and the position of its first character. -/
structure Token where
  kind : Token.Kind
  text : String
  position : Nat
  deriving DecidableEq, Repr

namespace Token

def Kind.name : Kind → String
  | .operator => "OPERATOR"
  | .number => "NUMBER"
  | .identifier => "IDENTIFIER"

def shown (t : Token) : String :=
  "Token(" ++ t.kind.name ++ ", " ++ Text.quoted t.text ++ ", pos=" ++ toString t.position ++ ")"

/-! ## 2. Scanning -/

/-- Can the character be part of a longer word? -/
def isWordChar (c : Char) : Bool :=
  !Text.isSpace c && !Symbol.isOperatorChar c

/-- A run of word characters is a number if it starts with a digit. -/
def kindOfWord : List Char → Kind
  | c :: _ => if Text.isDigit c then .number else .identifier
  | [] => .identifier

/-- The tokens of a text whose first character has the given position. -/
def scanFrom (position : Nat) : List Char → List Token
  | [] => []
  | c :: rest =>
    if Text.isSpace c then scanFrom (position + 1) rest
    else if Symbol.isOperatorChar c then
      ⟨.operator, String.singleton c, position⟩ :: scanFrom (position + 1) rest
    else
      let word := c :: rest.takeWhile isWordChar
      ⟨kindOfWord word, String.ofList word, position⟩ ::
        scanFrom (position + word.length) (rest.dropWhile isWordChar)
termination_by cs => cs.length
decreasing_by
  · simp
  · simp
  · exact Nat.lt_succ_of_le (List.dropWhile_sublist isWordChar).length_le

def scan (source : String) : List Token :=
  scanFrom 0 source.toList

def words (source : String) : List String :=
  (scan source).map text

end Token

end Formulary
