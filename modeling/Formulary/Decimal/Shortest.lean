import Formulary.Decimal.Binary

/-!
# The shortest decimal of a number

The shortest decimal is the one with the fewest digits that stands for the number, and among those
the nearest.  On the grid of decimals with a given count of digits, only the two neighbours of the
number need to be tried.
-/

namespace Formulary.Decimal

/-! ## 1. Digits -/

/-- A decimal: its digits as a whole number, times ten to the exponent. -/
structure Digits where
  digits : Nat
  exponent : Int
  deriving DecidableEq, Repr

/-- The decimal without zeros at its end; at most `fuel` of them are dropped. -/
def Digits.trim : Nat → Digits → Digits
  | 0, d => d
  | fuel + 1, d =>
    if d.digits ≠ 0 ∧ d.digits % 10 = 0 then Digits.trim fuel ⟨d.digits / 10, d.exponent + 1⟩ else d

def leadingExponent (r : Ratio) : Int :=
  let guess : Int := (Nat.toDigits 10 r.num).length - (Nat.toDigits 10 r.den).length
  let scaled := r.scale 10 (-guess)
  if scaled.den ≤ scaled.num then guess else guess - 1

/-- A decimal with the given exponent that stands for the number, the nearer one if there are two;
of two equally near ones, the even one. -/
def onGrid? (b : Binary) (exponent : Int) : Option Digits :=
  let scaled := b.toRatio.scale 10 (-exponent)
  let below := scaled.num / scaled.den
  let nearer := roundDiv scaled.num scaled.den
  let farther := if nearer = below then below + 1 else below
  ([nearer, farther].find? fun digits => Binary.ofDecimal? digits exponent = some b).map
    fun digits => ⟨digits, exponent⟩

/-- The shortest decimal with `count` digits or one of the `more` next greater counts. -/
def shortestFrom (b : Binary) (leading : Int) (count : Nat) : Nat → Digits
  | 0 => ⟨b.significand, b.exponent⟩
  | more + 1 =>
    match onGrid? b (leading - count + 1) with
    | some d => d
    | none => shortestFrom b leading (count + 1) more

/-- The shortest decimal of a number; seventeen digits are always enough. -/
def shortest (b : Binary) : Digits :=
  if b.significand = 0 then ⟨0, 0⟩
  else (shortestFrom b (leadingExponent b.toRatio) 1 17).trim 20

/-! ## 2. Text -/

/-- An exponent with its sign and at least two digits. -/
def exponentText (e : Int) : String :=
  let digits := toString e.natAbs
  (if e < 0 then "e-" else "e+") ++ (if digits.length < 2 then "0" ++ digits else digits)

def zeros (n : Nat) : String :=
  String.ofList (List.replicate n '0')

/-- The text of a decimal: positional, with a point and a digit on both sides of it, if the point
falls at most three zeros in front of the digits and at most sixteen places after their start;
otherwise with an exponent. -/
def Digits.text (d : Digits) : String :=
  let ds := Nat.toDigits 10 d.digits
  let point := ds.length + d.exponent
  if -4 < point ∧ point ≤ 16 then
    if point ≤ 0 then "0." ++ zeros (-point).toNat ++ String.ofList ds
    else if ds.length ≤ point then
      String.ofList ds ++ zeros (point - ds.length).toNat ++ ".0"
    else String.ofList (ds.take point.toNat) ++ "." ++ String.ofList (ds.drop point.toNat)
  else
    let rest := ds.drop 1
    String.ofList (ds.take 1) ++ (if rest.isEmpty then "" else "." ++ String.ofList rest) ++
      exponentText (point - 1)

end Formulary.Decimal
