import Formulary.Text.Number
import Formulary.Yaml.Fault

/-!
# Dates and times

A date has a year of four digits, a month and a day; a moment has a date, a time of the day and
possibly the difference from universal time.  Main functions: `stamp?` takes the text apart, and
`Stamp.date` and `Stamp.moment` check it against the calendar.
-/

namespace Formulary.Yaml

/-! ## 1. Dates and moments -/

structure Date where
  year : Nat
  month : Nat
  day : Nat
  deriving DecidableEq, Repr

/-- A time of a day, with the difference from universal time in minutes, if it is known. -/
structure Moment where
  date : Date
  hour : Nat
  minute : Nat
  second : Nat
  micros : Nat
  offset : Option Int
  deriving DecidableEq, Repr

def isLeapYear (year : Nat) : Bool :=
  year % 4 == 0 && (year % 100 != 0 || year % 400 == 0)

def daysInMonth (year month : Nat) : Nat :=
  match month with
  | 2 => if isLeapYear year then 29 else 28
  | 4 | 6 | 9 | 11 => 30
  | _ => 31

def Date.fault? (d : Date) : Option TimeFault :=
  if d.year = 0 then some (.year d.year)
  else if d.month = 0 || 12 < d.month then some .month
  else if d.day = 0 || daysInMonth d.year d.month < d.day then some .day
  else none

def Moment.fault? (m : Moment) : Option TimeFault :=
  match m.offset with
  | some minutes => if 1440 ≤ minutes.natAbs then some (.offset minutes) else clock
  | none => clock
where
  clock : Option TimeFault :=
    match m.date.fault? with
    | some fault => some fault
    | none =>
      if 23 < m.hour then some .hour
      else if 59 < m.minute then some .minute
      else if 59 < m.second then some .second
      else none

/-- The number of days from the first one of the first year. -/
def Date.number (d : Date) : Nat :=
  let years := d.year - 1
  let inYear := (List.range (d.month - 1)).foldl (fun n i => n + daysInMonth d.year (i + 1)) d.day
  years * 365 + years / 4 - years / 100 + years / 400 + inYear

/-- The seconds of universal time at a moment with a known difference. -/
def Moment.instant? (m : Moment) : Option Int :=
  m.offset.map fun offset =>
    (((m.date.number * 24 + m.hour : Nat) : Int) * 60 + m.minute - offset) * 60 + m.second

/-- Are the moments the same?  The difference from universal time counts only if it is not known for
one of them. -/
def Moment.same (m n : Moment) : Bool :=
  match m.instant?, n.instant? with
  | some a, some b => a == b && m.micros == n.micros
  | _, _ => m == n

/-! ## 2. Texts -/

/-- A number in digits, at least `width` of them. -/
def padded (width n : Nat) : String :=
  let digits := Nat.toDigits 10 n
  String.ofList (List.replicate (width - digits.length) '0' ++ digits)

def Date.shown (d : Date) : String :=
  "datetime.date(" ++ ", ".intercalate ([d.year, d.month, d.day].map toString) ++ ")"

/-- The text by which dates are sorted. -/
def Date.text (d : Date) : String :=
  padded 4 d.year ++ "-" ++ padded 2 d.month ++ "-" ++ padded 2 d.day

def shownOffset (minutes : Int) : String :=
  if minutes = 0 then "datetime.timezone.utc"
  else "datetime.timezone(" ++ shownDuration minutes ++ ")"

/-- A moment in a message; what is zero at the end of the time is left out. -/
def Moment.shown (m : Moment) : String :=
  let small :=
    if m.micros = 0 then if m.second = 0 then [] else [m.second] else [m.second, m.micros]
  let numbers := [m.date.year, m.date.month, m.date.day, m.hour, m.minute] ++ small
  let offset := m.offset.map fun minutes => "tzinfo=" ++ shownOffset minutes
  "datetime.datetime(" ++ ", ".intercalate (numbers.map toString ++ offset.toList) ++ ")"

/-- The text by which moments are sorted. -/
def Moment.text (m : Moment) : String :=
  let offset := m.offset.map fun minutes =>
    (if minutes < 0 then "-" else "+") ++ padded 2 (minutes.natAbs / 60) ++ ":" ++
      padded 2 (minutes.natAbs % 60)
  m.date.text ++ " " ++ padded 2 m.hour ++ ":" ++ padded 2 m.minute ++ ":" ++ padded 2 m.second ++
    (if m.micros = 0 then "" else "." ++ padded 6 m.micros) ++ offset.getD ""

/-! ## 3. Reading -/

structure Stamp where
  date : Date
  /-- Do the month and the day have two digits? -/
  isWide : Bool
  /-- The time: hour, minute, second, digits after the point, difference from universal time. -/
  time : Option (Nat × Nat × Nat × List Char × Option Int)

/-- Digits at the front, at least and at most as many as given, and the rest. -/
def takeDigits? (least most : Nat) (cs : List Char) : Option (List Char × List Char) :=
  let digits := (cs.take most).takeWhile Char.isDigit
  if digits.length < least then none else some (digits, cs.drop digits.length)

def takeCount? (least most : Nat) (cs : List Char) : Option (Nat × List Char) :=
  (takeDigits? least most cs).map fun (digits, rest) =>
    ((Text.numberFrom 10 0 digits).getD 0, rest)

def after? (c : Char) : List Char → Option (List Char)
  | d :: rest => if c = d then some rest else none
  | [] => none

/-- The difference from universal time that a whole text gives; an empty text gives none. -/
def offset? (cs : List Char) : Option (Option Int) :=
  match cs with
  | [] => some none
  | _ =>
    match cs.dropWhile fun c => c == ' ' || c == '\t' with
    | ['Z'] => some (some 0)
    | sign :: rest =>
      if sign == '+' || sign == '-' then
        (takeCount? 1 2 rest).bind fun (hours, rest) =>
          let minutes :=
            match rest with
            | [] => some 0
            | _ =>
              ((after? ':' rest).bind (takeCount? 2 2)).bind fun (minutes, rest) =>
                if rest.isEmpty then some minutes else none
          minutes.map fun minutes =>
            let total : Int := hours * 60 + minutes
            some (if sign == '-' then -total else total)
      else none
    | [] => none

/-- The digits after a point, if there is one, and the rest. -/
def takeFraction : List Char → List Char × List Char
  | '.' :: rest => (rest.takeWhile Char.isDigit, rest.dropWhile Char.isDigit)
  | cs => ([], cs)

def time? (cs : List Char) : Option (Nat × Nat × Nat × List Char × Option Int) :=
  (takeCount? 1 2 cs).bind fun (hour, rest) =>
    ((after? ':' rest).bind (takeCount? 2 2)).bind fun (minute, rest) =>
      ((after? ':' rest).bind (takeCount? 2 2)).bind fun (second, rest) =>
        let (fraction, rest) := takeFraction rest
        (offset? rest).map fun offset => (hour, minute, second, fraction, offset)

/-- What comes after the mark between a date and a time. -/
def afterDate? (cs : List Char) : Option (List Char) :=
  match cs with
  | [] => none
  | c :: rest =>
    if c == 'T' || c == 't' then some rest
    else if c == ' ' || c == '\t' then some (rest.dropWhile fun c => c == ' ' || c == '\t')
    else none

def stamp? (cs : List Char) : Option Stamp :=
  (takeCount? 4 4 cs).bind fun (year, rest) =>
    ((after? '-' rest).bind (takeDigits? 1 2)).bind fun (month, rest) =>
      ((after? '-' rest).bind (takeDigits? 1 2)).bind fun (day, rest) =>
        let number (digits : List Char) : Nat := (Text.numberFrom 10 0 digits).getD 0
        let date : Date := ⟨year, number month, number day⟩
        let isWide := month.length == 2 && day.length == 2
        match rest with
        | [] => some ⟨date, isWide, none⟩
        | _ => ((afterDate? rest).bind time?).map fun time => ⟨date, isWide, some time⟩

/-- The millionths that digits after a point denote; digits beyond the sixth do not count. -/
def microsOf (fraction : List Char) : Nat :=
  let digits := fraction.take 6
  (Text.numberFrom 10 0 (digits ++ List.replicate (6 - digits.length) '0')).getD 0

def Stamp.moment? (s : Stamp) : Option Moment :=
  s.time.map fun (hour, minute, second, fraction, offset) =>
    ⟨s.date, hour, minute, second, microsOf fraction, offset⟩

end Formulary.Yaml
