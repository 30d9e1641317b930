import Formulary.Numeral
import Formulary.Text.Alphanumeric
import Formulary.Token

/-!
# Validity: formulas that can be parsed

One scan over the words of a formula, without building a tree, decides whether the formula is
complete for a given set of input names.  Every word must be an input, an operator, a function name
or a numeral, and be made of letters, numerals and operator characters only; a function name is
followed by an opening bracket; neighbouring operators must get along; brackets must balance, and no
operator but a closing bracket ends the formula.
-/

namespace Formulary.Formula

/-! ## 1. Conditions on one word and on two neighbours -/

/-- Is the word known: an input, an operator, a function name or a numeral? -/
def isKnown (inputs : List String) (word : String) : Bool :=
  inputs.contains word || Symbol.isOperator word || Symbol.isFunction word
    || Numeral.isNumeral word

/-- Is the word made of letters, numerals and operator characters only? -/
def isClean (word : String) : Bool :=
  word.toList.all fun c => Text.isAlphanumeric c || Symbol.isOperatorChar c

/-- Two neighbouring operators clash unless both are signs or brackets, or one is a bracket. -/
def clash (previous word : String) : Bool :=
  Symbol.isOperator previous && Symbol.isOperator word
    && !(Symbol.isStackable previous && Symbol.isStackable word)
    && !(Symbol.isBracket previous || Symbol.isBracket word)

/-- Does a binding operator lack an operand: at the start of the formula or of a bracket, or at the
end of a bracket? -/
def lacksOperand (previous : Option String) (word : String) : Bool :=
  (Symbol.isBinding word && (previous == none || previous == some "("))
    || (word == ")" && previous.any Symbol.isBinding)

def mayFollow (previous : Option String) (word : String) : Bool :=
  !(previous.any Symbol.isFunction && word != "(")
    && !lacksOperand previous word
    && !previous.any (clash · word)

/-- May the formula end here, with all brackets closed?  It may also be empty. -/
def mayEnd : Option String → Bool
  | none => true
  | some last => !Symbol.isFunction last && (!Symbol.isOperator last || last == ")")

/-! ## 2. The scan -/

/-- Scans the words after `previous`, when `depth` brackets are open. -/
def validFrom (inputs : List String) (previous : Option String) (depth : Nat) :
    List String → Bool
  | [] => depth == 0 && mayEnd previous
  | word :: rest =>
    mayFollow previous word && isKnown inputs word && isClean word
      && (if word = "(" then validFrom inputs (some word) (depth + 1) rest
        else if word = ")" then depth != 0 && validFrom inputs (some word) (depth - 1) rest
        else validFrom inputs (some word) depth rest)

/-- Is the formula complete for the given inputs? -/
def isValid (formula : String) (inputs : List String) : Bool :=
  validFrom inputs none 0 (Token.words formula)

end Formulary.Formula
