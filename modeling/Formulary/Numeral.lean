import Formulary.Text.Digit

/-!
# Numerals: the words that denote a number

A numeral is a sequence of decimals with at most one point, and then possibly an exponent; or one of
the names of the values that have no digits.  A sign may stand in front.  Decimals of all scripts
mix freely, and a single low line may stand between two decimals.
-/

namespace Formulary.Numeral

/-- Does every low line stand between two decimals?  The flag says whether a decimal precedes. -/
def lowLinesSeparate (afterDecimal : Bool) : List Char → Bool
  | [] => true
  | '_' :: rest =>
    afterDecimal && (match rest with
      | d :: _ => Text.isDecimal d
      | [] => false) && lowLinesSeparate false rest
  | c :: rest => lowLinesSeparate (Text.isDecimal c) rest

def dropSign : List Char → List Char
  | '+' :: rest => rest
  | '-' :: rest => rest
  | cs => cs

/-- Nothing at all, or an exponent. -/
def isExponent : List Char → Bool
  | [] => true
  | c :: rest =>
    let digits := dropSign rest
    (c == 'e' || c == 'E') && !digits.isEmpty && digits.all Text.isDecimal

/-- Decimals with at most one point among them, then possibly an exponent. -/
def isPositional (cs : List Char) : Bool :=
  let whole := cs.takeWhile Text.isDecimal
  match cs.dropWhile Text.isDecimal with
  | '.' :: rest =>
    !(whole.isEmpty && (rest.takeWhile Text.isDecimal).isEmpty)
      && isExponent (rest.dropWhile Text.isDecimal)
  | rest => !whole.isEmpty && isExponent rest

/-- The name of a value that has no digits, in capitals or small letters. -/
def isNamed (cs : List Char) : Bool :=
  ["nan", "inf", "infinity"].any fun name => name.toList == cs.map Char.toLower

/-- Does the word denote a number? -/
def isNumeral (word : String) : Bool :=
  let cs := dropSign word.toList
  isNamed cs || (lowLinesSeparate false cs && isPositional (cs.filter (· != '_')))

end Formulary.Numeral
