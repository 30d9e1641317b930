/-!
# Options: how numbers and calls are written into code

The numeric type of declarations, whether number literals carry the suffix of that type, the names
of the functions for powers and square roots, and whether divisions are guarded by assertions.
-/

namespace Formulary

inductive NumericType where
  | double
  | float
  | decimal
  deriving DecidableEq, Repr

namespace NumericType

/-- The name of the type in code and in option values. -/
def name : NumericType → String
  | .double => "double"
  | .float => "float"
  | .decimal => "decimal"

/-- The suffix that gives a number literal the type. -/
def literalSuffix : NumericType → String
  | .double => "d"
  | .float => "f"
  | .decimal => "m"

def ofName? : String → Option NumericType
  | "double" => some .double
  | "float" => some .float
  | "decimal" => some .decimal
  | _ => none

@[simp]
theorem ofName?_name (t : NumericType) : ofName? t.name = some t := by
  cases t <;> rfl

end NumericType

/-- The options of an emission; those that nobody sets have these defaults. -/
structure Options where
  numericType : NumericType := .double
  suffixNumbers : Bool := false
  powerFunction : String := "Math.Pow"
  rootFunction : String := "Math.Sqrt"
  assertDivisions : Bool := false
  deriving DecidableEq, Repr

/-- The suffix written after number literals, if they get one. -/
def Options.numberSuffix (o : Options) : String :=
  if o.suffixNumbers then o.numericType.literalSuffix else ""

end Formulary
