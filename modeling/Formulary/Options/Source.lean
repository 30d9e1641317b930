import Formulary.Options.Basic
import Formulary.Text.Lowercase
import Formulary.Yaml.Value

/-!
# Where options come from

Options are read from environment variables, where letter case does not matter, or from the entries
of a mapping, where it does.  What is not set keeps its default.
-/

namespace Formulary.Options

/-! ## 1. Faults -/

inductive Fault where
  /-- No numeric type has this name, given as it is shown in messages. -/
  | notANumericType (shown : String)
  /-- There is no option of this name. -/
  | unknownOption (shown : String)
  deriving DecidableEq, Repr

def Fault.message : Fault → String
  | .notANumericType shown => shown ++ " is not a valid NumericType"
  | .unknownOption shown => "there is no option " ++ shown

/-! ## 2. Environment variables -/

def onWords : List String :=
  ["1", "true", "yes", "on"]

def isOn (value : String) : Bool :=
  onWords.contains (Text.lowercase value)

/-- The numeric type named by the value of a variable; an empty value names the default. -/
def numericTypeOf (value : Option String) : Except Fault NumericType :=
  match value with
  | none | some "" => .ok .double
  | some name =>
    match NumericType.ofName? (Text.lowercase name) with
    | some t => .ok t
    | none => .error (.notANumericType (Text.quoted (Text.lowercase name)))

def ofEnvironment (setting : String → Option String) : Except Fault Options :=
  (numericTypeOf (setting "MATHCODEGEN_NUMERIC_TYPE")).map fun numericType =>
    { numericType,
      suffixNumbers := (setting "MATHCODEGEN_NUMBER_POSTFIX").any isOn,
      assertDivisions := (setting "MATHCODEGEN_ASSERT_DIVISION_BY_ZERO").any isOn }

/-! ## 3. Mappings -/

def optionNames : List String :=
  ["numeric_type", "number_postfix", "power_function", "sqrt_function", "assert_division_by_zero"]

def isOptionName (key : Yaml.Scalar) : Bool :=
  optionNames.any fun name => key == .text name

def numericTypeAt (entries : List (Yaml.Scalar × Yaml.Value)) : Except Fault NumericType :=
  match Yaml.get? "numeric_type" entries with
  | none => .ok .double
  | some value =>
    match value with
    | .scalar (.text name) =>
      match NumericType.ofName? name with
      | some t => .ok t
      | none => .error (.notANumericType value.shown)
    | _ => .error (.notANumericType value.shown)

/-- Options as the entries of a mapping give them.  Apart from the numeric type, the values are
those of the mapping, of whatever type. -/
structure Settings where
  numericType : NumericType
  suffixNumbers : Yaml.Value
  powerFunction : Yaml.Value
  rootFunction : Yaml.Value
  assertDivisions : Yaml.Value

def valueAt (entries : List (Yaml.Scalar × Yaml.Value)) (key : String) (default : Yaml.Scalar) :
    Yaml.Value :=
  (Yaml.get? key entries).getD (.scalar default)

def Settings.ofMapping (entries : List (Yaml.Scalar × Yaml.Value)) : Except Fault Settings :=
  match numericTypeAt entries with
  | .error fault => .error fault
  | .ok numericType =>
    match entries.find? fun e => !isOptionName e.1 with
    | some (key, _) => .error (.unknownOption key.shown)
    | none =>
      .ok {
        numericType,
        suffixNumbers := valueAt entries "number_postfix" (.truth false),
        powerFunction := valueAt entries "power_function" (.text "Math.Pow"),
        rootFunction := valueAt entries "sqrt_function" (.text "Math.Sqrt"),
        assertDivisions := valueAt entries "assert_division_by_zero" (.truth false) }

def truthOr (default : Bool) : Yaml.Value → Bool
  | .scalar (.truth b) => b
  | _ => default

def textOr (default : String) : Yaml.Value → String
  | .scalar (.text s) => s
  | _ => default

/-- The options that settings of the right types stand for. -/
def Settings.toOptions (s : Settings) : Options :=
  { numericType := s.numericType,
    suffixNumbers := truthOr false s.suffixNumbers,
    powerFunction := textOr "Math.Pow" s.powerFunction,
    rootFunction := textOr "Math.Sqrt" s.rootFunction,
    assertDivisions := truthOr false s.assertDivisions }

def ofMapping (entries : List (Yaml.Scalar × Yaml.Value)) : Except Fault Options :=
  (Settings.ofMapping entries).map Settings.toOptions

end Formulary.Options
