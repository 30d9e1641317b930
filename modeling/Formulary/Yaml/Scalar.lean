import Formulary.Numeral
import Formulary.Text.Base64
import Formulary.Text.Lowercase
import Formulary.Text.Space
import Formulary.Yaml.Tag
import Formulary.Yaml.Value

/-!
# Scalars from their texts

The scalar of a kind that a text denotes, or the fault that it denotes none.  Low lines in numbers
do not count, decimals of all scripts do, and parts between colons are parts of sixty.
-/

namespace Formulary.Yaml

/-! ## 1. Whole numbers -/

/-- The text with all decimals as basic ones. -/
def basicDecimals (cs : List Char) : List Char :=
  cs.map fun c =>
    match Text.decimalValue? c with
    | some d => Char.ofNat ('0'.toNat + d)
    | none => c

def dropBase (base : Nat) : List Char → List Char
  | '0' :: c :: rest =>
    let mark := match base with
      | 2 => 'b'
      | 8 => 'o'
      | _ => 'x'
    if base != 10 && c.toLower == mark then rest else '0' :: c :: rest
  | cs => cs

def integerIn (base : Nat) (cs : List Char) : Except Fault Int :=
  let (negative, body) := takeSign (basicDecimals (Text.strip cs))
  match Text.numberFrom base 0 (dropBase base body) with
  | some n => .ok (if negative then -(n : Int) else n)
  | none => .error (.notAnInteger base (String.ofList cs))

/-- The whole number of parts of sixty. -/
def sixties : Int → List (List Char) → Except Fault Int
  | value, [] => .ok value
  | value, part :: rest => (integerIn 10 part).bind fun n => sixties (value * 60 + n) rest

/-- The whole number without a sign that a text denotes; its base shows at its start. -/
def naturalOf (cs : List Char) : Except Fault Int :=
  match cs with
  | [] => .error .noDigits
  | ['0'] => .ok 0
  | '0' :: 'b' :: digits => integerIn 2 digits
  | '0' :: 'x' :: digits => integerIn 16 digits
  | '0' :: _ => integerIn 8 cs
  | _ => if cs.contains ':' then sixties 0 (splitAtColons cs) else integerIn 10 cs

/-- The text of a number without low lines; something has to be left. -/
def withoutLowLines (cs : List Char) : Except Fault (List Char) :=
  let cs := cs.filter (· != '_')
  if cs.isEmpty then .error .noDigits else .ok cs

def integerOf (text : String) : Except Fault Int :=
  (withoutLowLines text.toList).bind fun cs =>
    let (negative, unsigned) := takeSign cs
    (naturalOf unsigned).map fun n => if negative then -n else n

/-! ## 2. Real numbers -/

def Real.turned (negative : Bool) : Real → Real
  | .finite n magnitude => .finite (n != negative) magnitude
  | .infinite n => .infinite (n != negative)
  | .undefined => .undefined

def Real.nearest (negative : Bool) (r : Decimal.Ratio) : Real :=
  match Decimal.Binary.ofRatio? r with
  | some magnitude => .finite negative magnitude
  | none => .infinite negative

def Real.times (n : Nat) : Real → Real
  | .finite negative magnitude =>
    let r := magnitude.toRatio
    .nearest negative { r with num := r.num * n }
  | r => r

def finiteSum (n : Bool) (a : Decimal.Ratio) (n' : Bool) (b : Decimal.Ratio) : Real :=
  let x := a.num * b.den
  let y := b.num * a.den
  let den := a.den * b.den
  if n = n' then .nearest n ⟨x + y, den⟩
  else if x = y then .nearest false ⟨0, den⟩
  else if y < x then .nearest n ⟨x - y, den⟩
  else .nearest n' ⟨y - x, den⟩

def Real.plus : Real → Real → Real
  | .finite n a, .finite n' b => finiteSum n a.toRatio n' b.toRatio
  | .infinite n, .infinite n' => if n = n' then .infinite n else .undefined
  | .undefined, _ => .undefined
  | _, .undefined => .undefined
  | .infinite n, _ => .infinite n
  | _, .infinite n => .infinite n

def exponentOf : List Char → Int
  | _ :: rest =>
    let (negative, digits) := takeSign rest
    let n : Int := (Text.numberFrom 10 0 digits).getD 0
    if negative then -n else n
  | [] => 0

def positional (negative : Bool) (cs : List Char) : Real :=
  let whole := cs.takeWhile Char.isDigit
  let (places, rest) := takeFraction (cs.dropWhile Char.isDigit)
  let digits := (Text.numberFrom 10 0 (whole ++ places)).getD 0
  match Decimal.Binary.ofDecimal? digits (exponentOf rest - places.length) with
  | some magnitude => .finite negative magnitude
  | none => .infinite negative

/-- The real number of digits, or one of those with names. -/
def realIn (cs : List Char) : Except Fault Real :=
  let (negative, body) := takeSign (basicDecimals (Text.strip cs))
  if body = "nan".toList then .ok .undefined
  else if body = "inf".toList || body = "infinity".toList then .ok (.infinite negative)
  else if Numeral.isPositional body then .ok (positional negative body)
  else .error (.notAReal (String.ofList cs))

/-- The sum of parts of sixty, the last one first; `unit` is the value of a one in the next part. -/
def sixtiesSum : Nat → Real → List Real → Real
  | _, sum, [] => sum
  | unit, sum, part :: rest => sixtiesSum (unit * 60) (sum.plus (part.times unit)) rest

def realsIn : List (List Char) → Except Fault (List Real)
  | [] => .ok []
  | part :: rest =>
    (realIn part).bind fun r => (realsIn rest).map fun rs => r :: rs

def Real.zero : Real := .nearest false ⟨0, 1⟩

def realOf (text : String) : Except Fault Real :=
  let small := (Text.lowercase (String.ofList (text.toList.filter (· != '_')))).toList
  (withoutLowLines small).bind fun cs =>
    let (negative, unsigned) := takeSign cs
    let size :=
      if unsigned = ".inf".toList then .ok (.infinite false)
      else if unsigned = ".nan".toList then .ok .undefined
      else if unsigned.contains ':' then
        (realsIn (splitAtColons unsigned)).map fun parts => sixtiesSum 1 .zero parts.reverse
      else realIn unsigned
    size.map (·.turned negative)

/-! ## 3. Other scalars -/

/-- The truth value that a word denotes in any letter case. -/
def truthOf (text : String) : Except Fault Bool :=
  let word := Text.lowercase text
  if trueWords.contains word then .ok true
  else if falseWords.contains word then .ok false
  else .error (.notATruth word)

/-- The value, unless something is wrong with its time. -/
def unlessFault (fault : Option TimeFault) (value : Scalar) : Except Fault Scalar :=
  match fault with
  | some fault => .error (.time fault)
  | none => .ok value

def timeOf (text : String) : Except Fault Scalar :=
  match stamp? (dropLineEnd text.toList) with
  | none => .error .notATime
  | some s =>
    match s.moment? with
    | some m => unlessFault m.fault? (.moment m)
    | none => unlessFault s.date.fault? (.date s.date)

/-- The bytes that a text of basic characters denotes. -/
def bytesOf (text : String) : Except Fault (List UInt8) :=
  if text.toList.all fun c => c.toNat < 0x80 then orMalformed (Text.bytesOfBase64? text.toList)
  else .error .malformed

/-- The scalar of a kind that a text denotes; not all kinds have scalars. -/
def Tag.scalarOf (tag : Tag) (text : String) : Except Fault Scalar :=
  match tag with
  | .null => .ok .null
  | .truth => (truthOf text).map .truth
  | .integer => (integerOf text).map .integer
  | .real => (realOf text).map .real
  | .text => .ok (.text text)
  | .bytes => (bytesOf text).map .bytes
  | .time => timeOf text
  | _ => .error .malformed

end Formulary.Yaml
