/-!
# Symbols: the words of a formula with a meaning of their own

The operators of a formula are single characters; everything else is a run of other characters.
Among those runs, the names of the functions are reserved.
-/

namespace Formulary.Symbol

/-! ## 1. Operators -/

def operatorChars : List Char :=
  ['+', '-', '*', '/', '^', '(', ')']

def isOperatorChar (c : Char) : Bool :=
  operatorChars.contains c

def isOperator (s : String) : Bool :=
  ["+", "-", "*", "/", "^", "(", ")"].contains s

/-- Is the word an operator that may stand beside another of the same sort: a sign or a bracket? -/
def isStackable (s : String) : Bool :=
  ["+", "-", "(", ")"].contains s

def isBracket (s : String) : Bool :=
  ["(", ")"].contains s

/-- Is the word an operator that takes the neighbours on both its sides as operands? -/
def isBinding (s : String) : Bool :=
  ["^", "/"].contains s

/-! ## 2. Functions -/

def isFunction (s : String) : Bool :=
  ["sqrt"].contains s

end Formulary.Symbol
