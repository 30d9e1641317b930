import Formulary.CommandLine.Arguments
import Formulary.Options.Basic

/-!
# Commands

The options in front of a command hold for all commands; a command has arguments and options of its
own.  Arguments that do not follow the rules are a usage error.
-/

namespace Formulary.CommandLine

/-! ## 1. Options for all commands -/

/-- The options in front of a command. -/
def sharedSpecs : List OptionSpec :=
  [⟨"--config", none, true⟩, ⟨"--numeric-type", none, true⟩, ⟨"--postfix", none, false⟩,
    ⟨"--no-postfix", none, false⟩, ⟨"--assert-division-by-zero", none, false⟩,
    ⟨"--verbose", some 'v', false⟩]

/-- A command line, read as far as the name of the command. -/
structure Invocation where
  config : Option String
  numericType : Option NumericType
  suffixNumbers : Option Bool
  assertDivisions : Bool
  verbose : Bool
  command : String
  arguments : List String

def commandNames : List String :=
  ["render", "emit", "check", "tree", "convert", "config"]

/-- The last word on suffixes, if there is one. -/
def suffixChoice (given : List Given) : Option Bool :=
  ((given.filter fun g => g.1 == "--postfix" || g.1 == "--no-postfix").getLast?).map
    fun g => g.1 == "--postfix"

/-- The numeric type asked for; there is no answer if it has no such name. -/
def typeChoice? (given : List Given) : Option (Option NumericType) :=
  match lastValue? given "--numeric-type" with
  | none => some none
  | some name => (NumericType.ofName? name).map some

def Invocation.ofArguments (arguments : List String) : Option Invocation :=
  match splitOptions sharedSpecs false arguments with
  | some (given, command :: rest) =>
    if commandNames.contains command then
      (typeChoice? given).map fun numericType =>
        { config := lastValue? given "--config",
          numericType,
          suffixNumbers := suffixChoice given,
          assertDivisions := isGiven given "--assert-division-by-zero",
          verbose := isGiven given "--verbose",
          command,
          arguments := rest }
    else none
  | _ => none

/-! ## 2. Single commands -/

inductive FormulaTask where
  | render
  | emit
  | check
  | tree
  deriving DecidableEq, Repr

inductive Command where
  | formula (task : FormulaTask) (source : String) (inputs : List String)
  | convert (path : String) (singleLine : Bool)
  | checkConfig (path : String)

/-- A command on a formula; every use of its option declares an input. -/
def formulaCommand (task : FormulaTask) (arguments : List String) : Option Command :=
  match splitOptions [⟨"--input", some 'i', true⟩] true arguments with
  | some (given, [formula]) => some (.formula task formula (valuesOf given "--input"))
  | _ => none

def Command.ofArguments (name : String) (arguments : List String) : Option Command :=
  match name with
  | "render" => formulaCommand .render arguments
  | "emit" => formulaCommand .emit arguments
  | "check" => formulaCommand .check arguments
  | "tree" => formulaCommand .tree arguments
  | "convert" =>
    match splitOptions [⟨"--render", none, false⟩] true arguments with
    | some (given, [path]) => some (.convert path (isGiven given "--render"))
    | _ => none
  | "config" =>
    match splitOptions [] false arguments with
    | some (_, "check" :: rest) =>
      match splitOptions [] true rest with
      | some (_, [path]) => some (.checkConfig path)
      | _ => none
    | _ => none
  | _ => none

/-! ## 3. Paths -/

def pathParts : List Char → List (List Char)
  | [] => [[]]
  | c :: rest =>
    if c = '/' then [] :: pathParts rest
    else match pathParts rest with
      | first :: more => (c :: first) :: more
      | [] => [[c]]

/-- A path without the parts that say nothing. -/
def tidyPath (path : String) : String :=
  let parts := (pathParts path.toList).filter fun part => !part.isEmpty && part != ['.']
  let start := if path.toList.head? == some '/' then "/" else ""
  start ++ "/".intercalate (parts.map String.ofList)

def namesDirectory (path : String) : Bool :=
  match (pathParts path.toList).getLast? with
  | some last => last.isEmpty || last == ['.']
  | none => true

def namedFiles (arguments : List String) : List String :=
  match Invocation.ofArguments arguments with
  | none => []
  | some invocation =>
    let ofCommand :=
      match Command.ofArguments invocation.command invocation.arguments with
      | some (.convert path _) => [path]
      | some (.checkConfig path) => [path]
      | _ => []
    (invocation.config.toList ++ ofCommand).map tidyPath

end Formulary.CommandLine
