import Formulary.Options.Source
import Formulary.Yaml.Meaning

/-!
# Options files

An options file is a data file with one mapping.  Every option has a type, some have further
conditions, and no other keys are allowed.  All issues are reported, first those of the file as a
whole and then those of single options in alphabetical order.
-/

namespace Formulary.Options

/-! ## 1. Issues -/

/-- A problem of an options file: the option concerned, if it is one, and what is wrong. -/
structure Issue where
  path : String
  message : String
  deriving DecidableEq, Repr

def Issue.shown (file : String) (issue : Issue) : String :=
  file ++ (if issue.path = "" then "" else " at " ++ issue.path) ++ ": " ++ issue.message

/-! ## 2. Checks -/

inductive Rule where
  | truth
  | nonEmptyText
  | numericTypeName

/-- The options and their conditions in alphabetical order. -/
def rules : List (String × Rule) :=
  [("assert_division_by_zero", .truth), ("number_postfix", .truth),
    ("numeric_type", .numericTypeName), ("power_function", .nonEmptyText),
    ("sqrt_function", .nonEmptyText)]

def wrongType (value : Yaml.Value) (expected : String) : String :=
  value.shown ++ " is not of type '" ++ expected ++ "'"

def wrongName (value : Yaml.Value) : String :=
  value.shown ++ " is not one of ['double', 'float', 'decimal']"

def Rule.broken : Rule → Yaml.Value → List String
  | .truth, .scalar (.truth _) => []
  | .truth, value => [wrongType value "boolean"]
  | .nonEmptyText, .scalar (.text s) =>
    if s = "" then [Text.quoted s ++ " should be non-empty"] else []
  | .nonEmptyText, value => [wrongType value "string"]
  | .numericTypeName, value =>
    match value with
    | .scalar (.text s) => if (NumericType.ofName? s).isSome then [] else [wrongName value]
    | _ => [wrongType value "string", wrongName value]

def optionIssues (entries : List (Yaml.Scalar × Yaml.Value)) (name : String) (rule : Rule) :
    List Issue :=
  match Yaml.get? name entries with
  | none => []
  | some value => (rule.broken value).map fun message => ⟨name, message⟩

/-- The issue of keys that are no options, if there are any. -/
def extraIssues (entries : List (Yaml.Scalar × Yaml.Value)) : List Issue :=
  let extras := (entries.map (·.1)).filter fun key => !isOptionName key
  if extras.isEmpty then []
  else
    let sorted := extras.mergeSort fun a b => !decide (b.sortText < a.sortText)
    let verb := if extras.length = 1 then " was" else " were"
    [⟨"", "Additional properties are not allowed (" ++
      ", ".intercalate (sorted.map Yaml.Scalar.shown) ++ verb ++ " unexpected)"⟩]

def mappingIssues (entries : List (Yaml.Scalar × Yaml.Value)) : List Issue :=
  extraIssues entries ++ rules.flatMap fun (name, rule) => optionIssues entries name rule

/-! ## 3. Reading -/

/-- Why an options file gives no options: it has issues, or a scalar in it is not what it claims to
be. -/
inductive FileFault where
  | issues (found : List Issue)
  | badScalar (fault : Yaml.Fault)

def entriesOf (text : String) : Except FileFault (List (Yaml.Scalar × Yaml.Value)) :=
  match Yaml.read text with
  | .error .malformed => .error (.issues [⟨"", Yaml.Fault.malformed.message⟩])
  | .error fault => .error (.badScalar fault)
  | .ok (.scalar .null) => .ok []
  | .ok (.mapping entries) =>
    match mappingIssues entries with
    | [] => .ok entries
    | found => .error (.issues found)
  | .ok value => .error (.issues [⟨"", wrongType value "object"⟩])

def ofFile (text : String) : Except FileFault Options :=
  match entriesOf text with
  | .error fault => .error fault
  | .ok entries =>
    match ofMapping entries with
    | .ok options => .ok options
    | .error fault => .error (.issues [⟨"", fault.message⟩])

end Formulary.Options
