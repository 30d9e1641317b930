/-!
# Bytes as letters

Three bytes are written as four signs of six bits each.  Other characters are passed over when the
bytes are read back, and equals signs fill up the last four signs.
-/

namespace Formulary.Text

/-- The six bits that a sign stands for. -/
def sixBits? (c : Char) : Option Nat :=
  if c.isUpper then some (c.toNat - 'A'.toNat)
  else if c.isLower then some (c.toNat - 'a'.toNat + 26)
  else if c.isDigit then some (c.toNat - '0'.toNat + 52)
  else if c = '+' then some 62
  else if c = '/' then some 63
  else none

/-- The bytes that signs stand for.  Of the four signs in hand, `count` have been read and `bits`
are left of them; `fill` equals signs came after the last of them. -/
def bytesFrom (count bits fill : Nat) : List Char → Option (List UInt8)
  | [] => if count = 0 then some [] else none
  | c :: rest =>
    if c = '=' then
      if 2 ≤ count && 4 ≤ count + fill + 1 then some []
      else bytesFrom count bits (if 2 ≤ count then fill + 1 else fill) rest
    else
      match sixBits? c with
      | none => bytesFrom count bits fill rest
      | some n =>
        let byte (b : Nat) (more : Option (List UInt8)) : Option (List UInt8) :=
          more.map (UInt8.ofNat b :: ·)
        match count with
        | 0 => bytesFrom 1 n 0 rest
        | 1 => byte (bits * 4 + n / 16) (bytesFrom 2 (n % 16) 0 rest)
        | 2 => byte (bits * 16 + n / 4) (bytesFrom 3 (n % 4) 0 rest)
        | _ => byte (bits * 64 + n) (bytesFrom 0 0 0 rest)

def bytesOfBase64? (cs : List Char) : Option (List UInt8) :=
  bytesFrom 0 0 0 cs

end Formulary.Text
