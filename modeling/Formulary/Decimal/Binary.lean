/-!
# Binary numbers of double precision

A number of double precision is a significand of at most 53 bits times a power of two.  Every
decimal stands for the nearest such number, and of two nearest ones for the one whose significand is
even.  All arithmetic is exact.
-/

namespace Formulary.Decimal

/-! ## 1. Rounding -/

/-- A quotient rounded to the nearest whole number, half to the even neighbour. -/
def roundDiv (num den : Nat) : Nat :=
  let q := num / den
  let r := num % den
  if 2 * r < den then q else if den < 2 * r then q + 1 else if q % 2 = 0 then q else q + 1

structure Ratio where
  num : Nat
  den : Nat

def Ratio.scale (r : Ratio) (base : Nat) (exponent : Int) : Ratio :=
  if 0 ≤ exponent then { r with num := r.num * Nat.pow base exponent.toNat }
  else { r with den := r.den * Nat.pow base (-exponent).toNat }

/-! ## 2. Double precision -/

/-- A nonnegative number of double precision: the significand times two to the exponent. -/
structure Binary where
  significand : Nat
  exponent : Int
  deriving DecidableEq, Repr

namespace Binary

def significandBound : Nat := Nat.pow 2 53

def minExponent : Int := -1074

def maxExponent : Int := 971

/-- The exponent of the significand that a positive fraction has. -/
def exponentOf (r : Ratio) : Int :=
  let guess := max ((r.num.log2 : Int) - r.den.log2 - 53) minExponent
  let scaled := r.scale 2 (-guess)
  if scaled.num / scaled.den < significandBound then guess else guess + 1

/-- The number nearest to a fraction; there is none if the fraction is too large. -/
def ofRatio? (r : Ratio) : Option Binary :=
  if r.num = 0 then some ⟨0, minExponent⟩
  else
    let exponent := exponentOf r
    let scaled := r.scale 2 (-exponent)
    let significand := roundDiv scaled.num scaled.den
    let b : Binary :=
      if significand = significandBound then ⟨significandBound / 2, exponent + 1⟩
      else ⟨significand, exponent⟩
    if b.exponent ≤ maxExponent then some b else none

/-- The number nearest to `digits` times ten to the exponent.  A decimal far outside the range of
the numbers is recognised by its size. -/
def ofDecimal? (digits : Nat) (exponent : Int) : Option Binary :=
  let magnitude := (Nat.toDigits 10 digits).length + exponent
  if digits = 0 || magnitude < -400 then some ⟨0, minExponent⟩
  else if 400 < magnitude then none
  else ofRatio? (Ratio.scale ⟨digits, 1⟩ 10 exponent)

def toRatio (b : Binary) : Ratio :=
  Ratio.scale ⟨b.significand, 1⟩ 2 b.exponent

end Binary

end Formulary.Decimal
