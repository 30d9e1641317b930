import Formulary.Text.Quoted

/-!
# Faults of data files

A data file that does not follow the rules is malformed.  A scalar may also follow them and still
not be the value that it claims to be: digits without a number, a date that the calendar does not
have, an escape for a character that does not exist.
-/

namespace Formulary.Yaml

inductive TimeFault where
  | year (value : Nat)
  | month
  | day
  | hour
  | minute
  | second
  /-- The difference from universal time is a day or more, given in minutes. -/
  | offset (minutes : Int)
  deriving DecidableEq, Repr

/-- A duration in minutes as it is shown: as days and seconds, of which only the days may be
negative. -/
def shownDuration (minutes : Int) : String :=
  let days := minutes / 1440
  let seconds := minutes % 1440 * 60
  let part (name : String) (n : Int) : List String :=
    if n = 0 then [] else [name ++ "=" ++ toString n]
  let parts := part "days" days ++ part "seconds" seconds
  "datetime.timedelta(" ++ (if parts.isEmpty then "0" else ", ".intercalate parts) ++ ")"

def TimeFault.message : TimeFault → String
  | .year value => "year " ++ toString value ++ " is out of range"
  | .month => "month must be in 1..12"
  | .day => "day is out of range for month"
  | .hour => "hour must be in 0..23"
  | .minute => "minute must be in 0..59"
  | .second => "second must be in 0..59"
  | .offset minutes =>
    "offset must be a timedelta strictly between -timedelta(hours=24) and timedelta(hours=24), not "
      ++ shownDuration minutes ++ "."

inductive Fault where
  | malformed
  | notAnInteger (base : Nat) (text : String)
  | notAReal (text : String)
  | notATruth (text : String)
  /-- Nothing is left of a number but its sign. -/
  | noDigits
  | notATime
  | time (fault : TimeFault)
  /-- An escape beyond the last character, or beyond all numbers of 31 bits. -/
  | noSuchCharacter (huge : Bool)
  deriving DecidableEq, Repr

def Fault.message : Fault → String
  | .malformed => "YAML parse error"
  | .notAnInteger base text =>
    "invalid literal for int() with base " ++ toString base ++ ": " ++
      String.ofList ((Text.quoted text).toList.take 200)
  | .notAReal text => "could not convert string to float: " ++ Text.quoted text
  | .notATruth text => Text.quoted text
  | .noDigits => "string index out of range"
  | .notATime => "this is not a time"
  | .time fault => fault.message
  | .noSuchCharacter false => "chr() arg not in range(0x110000)"
  | .noSuchCharacter true => "Python int too large to convert to C int"

/-- What is there, or the data file is malformed. -/
def orMalformed : Option α → Except Fault α
  | some a => .ok a
  | none => .error .malformed

end Formulary.Yaml
