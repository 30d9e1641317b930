import Formulary.Text.Number
import Formulary.Yaml.Timestamp

/-!
# Kinds of values

A tag says what kind of value a part of a data file is.  A plain scalar without one is null, a
truth value, a number or a time if it is written like one, and a text otherwise.  Numbers may be
grouped by low lines, and by colons into parts of sixty; whole numbers may have the base two, eight
or sixteen.
-/

namespace Formulary.Yaml

/-! ## 1. Tags -/

inductive Tag where
  | null
  | truth
  | integer
  | real
  | text
  | bytes
  | time
  | list
  | mapping
  | pairs
  | keySet
  /-- The key under which other mappings are put in. -/
  | merge
  /-- The key of the value that stands for a whole mapping. -/
  | default
  | unknown
  deriving DecidableEq, Repr

/-- The beginning of the tags that have a meaning. -/
def standardTag : String := "tag:yaml.org,2002:"

def tagNames : List (String × Tag) :=
  [("null", .null), ("bool", .truth), ("int", .integer), ("float", .real), ("str", .text),
    ("binary", .bytes), ("timestamp", .time), ("seq", .list), ("map", .mapping), ("omap", .pairs),
    ("pairs", .pairs), ("set", .keySet), ("merge", .merge), ("value", .default)]

def Tag.ofName (name : String) : Tag :=
  ((tagNames.find? fun entry => standardTag ++ entry.1 == name).map (·.2)).getD .unknown

/-! ## 2. Words -/

def nullWords : List String :=
  ["", "~", "null", "Null", "NULL"]

def trueWords : List String :=
  ["yes", "Yes", "YES", "true", "True", "TRUE", "on", "On", "ON"]

def falseWords : List String :=
  ["no", "No", "NO", "false", "False", "FALSE", "off", "Off", "OFF"]

/-! ## 3. Numbers -/

/-- Whether there is a minus sign in front, and the text without a sign. -/
def takeSign : List Char → Bool × List Char
  | '-' :: rest => (true, rest)
  | '+' :: rest => (false, rest)
  | cs => (false, cs)

def isGrouped (c : Char) : Bool :=
  c.isDigit || c == '_'

/-- Do the characters begin with a digit and then have digits and low lines only? -/
def isDigitGroup : List Char → Bool
  | c :: rest => c.isDigit && rest.all isGrouped
  | [] => false

def splitAtColons : List Char → List (List Char)
  | [] => [[]]
  | c :: rest =>
    if c = ':' then [] :: splitAtColons rest
    else match splitAtColons rest with
      | first :: more => (c :: first) :: more
      | [] => [[c]]

/-- One or two digits below sixty. -/
def isSixtieth : List Char → Bool
  | [c] => c.isDigit
  | [c, d] => '0' ≤ c && c ≤ '5' && d.isDigit
  | _ => false

def isNatural (cs : List Char) : Bool :=
  match cs with
  | '0' :: 'b' :: digits =>
    !digits.isEmpty && digits.all fun c => c == '0' || c == '1' || c == '_'
  | '0' :: 'x' :: digits =>
    !digits.isEmpty && digits.all fun c => (Text.hexValue? c).isSome || c == '_'
  | '0' :: digits => digits.all fun c => ('0' ≤ c && c ≤ '7') || c == '_'
  | _ =>
    match splitAtColons cs with
    | [] => false
    | first :: parts => isDigitGroup first && parts.all isSixtieth

def isInteger (cs : List Char) : Bool :=
  isNatural (takeSign cs).2

/-- Is the text empty, or written like an exponent with its sign? -/
def isSignedExponent : List Char → Bool
  | [] => true
  | e :: sign :: digits =>
    (e == 'e' || e == 'E') && (sign == '+' || sign == '-') && !digits.isEmpty
      && digits.all Char.isDigit
  | _ => false

def isReal (cs : List Char) : Bool :=
  let unsigned := (takeSign cs).2
  if [".inf", ".Inf", ".INF"].any (·.toList == unsigned) then true
  else if [".nan", ".NaN", ".NAN"].any (·.toList == cs) then true
  else
    let whole := unsigned.takeWhile (· != '.')
    match unsigned.dropWhile (· != '.') with
    | _ :: after =>
      let follows := isSignedExponent (after.dropWhile isGrouped)
      if isDigitGroup whole then follows
      else if whole.isEmpty then
        after.head?.any Char.isDigit && cs.head? == some '.' && follows
      else
        match splitAtColons whole with
        | first :: parts =>
          isDigitGroup first && !parts.isEmpty && parts.all isSixtieth && after.all isGrouped
        | [] => false
    | [] => false

/-- Is the text written like a date or a moment?  A date alone has two digits for the month and for
the day. -/
def isTime (cs : List Char) : Bool :=
  (stamp? cs).any fun s => s.isWide || s.time.isSome

/-! ## 4. Plain scalars -/

/-- The text without a single line end after it. -/
def dropLineEnd (cs : List Char) : List Char :=
  if 1 < cs.length && cs.getLast? == some '\n' then cs.dropLast else cs

def Tag.ofPlain (s : String) : Tag :=
  let cs := dropLineEnd s.toList
  let word := String.ofList cs
  if trueWords.contains word || falseWords.contains word then .truth
  else if isReal cs then .real
  else if isInteger cs then .integer
  else if word = "<<" then .merge
  else if nullWords.contains word then .null
  else if isTime cs then .time
  else if word = "=" then .default
  else .text

end Formulary.Yaml
