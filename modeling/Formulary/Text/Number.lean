/-!
# Digits and the numbers they denote

Whole numbers in positional notation with a base of at most sixteen.
-/

namespace Formulary.Text

def hexValue? (c : Char) : Option Nat :=
  if c.isDigit then some (c.toNat - '0'.toNat)
  else if 'a' ≤ c && c ≤ 'f' then some (c.toNat - 'a'.toNat + 10)
  else if 'A' ≤ c && c ≤ 'F' then some (c.toNat - 'A'.toNat + 10)
  else none

/-- The value of a digit of the given base, at most sixteen. -/
def digitValue? (base : Nat) (c : Char) : Option Nat :=
  (hexValue? c).filter (· < base)

/-- The number that digits denote, after a part with the given value; there has to be a digit. -/
def numberFrom (base value : Nat) : List Char → Option Nat
  | [] => none
  | [c] => (digitValue? base c).map (value * base + ·)
  | c :: rest =>
    match digitValue? base c with
    | some d => numberFrom base (value * base + d) rest
    | none => none

end Formulary.Text
