import Formulary.Decimal.Shortest
import Formulary.Yaml.Timestamp

/-!
# Values of a data file

A data file holds one value: a scalar, a list, or a mapping from scalars.  A mapping keeps its keys
in the order in which they first came; a key that comes again replaces the value.  There are also
lists of pairs, sets of scalars, and lists and mappings that hold themselves.
-/

namespace Formulary.Yaml

/-! ## 1. Values -/

/-- A real number of double precision. -/
inductive Real where
  | finite (negative : Bool) (magnitude : Decimal.Binary)
  | infinite (negative : Bool)
  | undefined
  deriving DecidableEq, Repr

inductive Scalar where
  | null
  | truth (value : Bool)
  | integer (value : Int)
  | real (value : Real)
  | text (value : String)
  | bytes (value : List UInt8)
  | date (value : Date)
  | moment (value : Moment)
  deriving DecidableEq, Repr

inductive Value where
  | scalar (value : Scalar)
  | list (items : List Value)
  | mapping (entries : List (Scalar × Value))
  | pairs (items : List (Value × Value))
  | keySet (keys : List Scalar)
  /-- A list or a mapping around the place where this stands. -/
  | enclosing (isMapping : Bool)

/-! ## 2. Keys -/

/-- The finite number that a scalar stands for: whether it is negative, and its size.  A truth value
counts as 0 or 1. -/
def Scalar.number? : Scalar → Option (Bool × Decimal.Ratio)
  | .truth b => some (false, ⟨b.toNat, 1⟩)
  | .integer n => some (n < 0, ⟨n.natAbs, 1⟩)
  | .real (.finite negative magnitude) => some (negative, magnitude.toRatio)
  | _ => none

/-- Are two numbers equal?  Zero has no sign. -/
def sameNumber : Bool × Decimal.Ratio → Bool × Decimal.Ratio → Bool
  | (negative, a), (negative', b) =>
    a.num * b.den == b.num * a.den && (negative == negative' || a.num == 0)

/-- Are two scalars the same key?  Numbers are, if they are equal. -/
def Scalar.sameKey (a b : Scalar) : Bool :=
  match a.number?, b.number?, a, b with
  | some m, some n, _, _ => sameNumber m n
  | _, _, .moment m, .moment n => m.same n
  | _, _, _, _ => a == b

def put (key : Scalar) (value : Value) : List (Scalar × Value) → List (Scalar × Value)
  | [] => [(key, value)]
  | (k, v) :: rest => if k.sameKey key then (k, value) :: rest else (k, v) :: put key value rest

/-- The value of a key that is a text. -/
def get? (key : String) (entries : List (Scalar × Value)) : Option Value :=
  entries.lookup (.text key)

/-! ## 3. Values in messages -/

def Real.shown : Real → String
  | .finite negative magnitude =>
    (if negative then "-" else "") ++ (Decimal.shortest magnitude).text
  | .infinite negative => if negative then "-inf" else "inf"
  | .undefined => "nan"

/-- Bytes in a message: basic characters as they are, other bytes by their numbers. -/
def shownBytes (bytes : List UInt8) : String :=
  let cs := bytes.map fun b => Char.ofNat b.toNat
  let mark := Text.quoteMark cs
  let body := cs.flatMap fun c =>
    if c.toNat < 0x80 then Text.quoteChar mark c else Text.escapeByCode c.toNat
  String.ofList ('b' :: mark :: body ++ [mark])

def Scalar.shown : Scalar → String
  | .null => "None"
  | .truth true => "True"
  | .truth false => "False"
  | .integer n => toString n
  | .real r => r.shown
  | .text s => Text.quoted s
  | .bytes b => shownBytes b
  | .date d => d.shown
  | .moment m => m.shown

/-- The text by which scalars are sorted. -/
def Scalar.sortText : Scalar → String
  | .text s => s
  | .date d => d.text
  | .moment m => m.text
  | s => s.shown

mutual

def Value.shown : Value → String
  | .scalar s => s.shown
  | .list items => "[" ++ ", ".intercalate (shownItems items) ++ "]"
  | .mapping entries => "\x7b" ++ ", ".intercalate (shownEntries entries) ++ "\x7d"
  | .pairs items => "[" ++ ", ".intercalate (shownPairs items) ++ "]"
  | .keySet [] => "set()"
  | .keySet keys => "\x7b" ++ ", ".intercalate (keys.map Scalar.shown) ++ "\x7d"
  | .enclosing false => "[...]"
  | .enclosing true => "\x7b...\x7d"

def shownItems : List Value → List String
  | [] => []
  | v :: rest => v.shown :: shownItems rest

def shownEntries : List (Scalar × Value) → List String
  | [] => []
  | (k, v) :: rest => (k.shown ++ ": " ++ v.shown) :: shownEntries rest

def shownPairs : List (Value × Value) → List String
  | [] => []
  | (k, v) :: rest => ("(" ++ k.shown ++ ", " ++ v.shown ++ ")") :: shownPairs rest

end

end Formulary.Yaml
