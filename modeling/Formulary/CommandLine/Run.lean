import Formulary.Code.Render
import Formulary.CommandLine.Command
import Formulary.CommandLine.PlainText
import Formulary.Formula.Parse
import Formulary.Formula.Validity
import Formulary.Markup.Tree
import Formulary.Options.File
import Formulary.Text.BrokenBytes

/-!
# Running a command line

A run is a function of the arguments, the files and the environment; it gives the two output texts
and the exit code.  The options are settled first: those of the options file or else of the
environment, then those on the command line.  A command line that does not follow the rules has exit
code 2, any other failure has exit code 1.
-/

namespace Formulary.CommandLine

/-! ## 1. Surroundings and outcomes -/

/-- What a run can see: the contents of files by their path, and environment variables. -/
structure Surroundings where
  file : String → Option (List UInt8)
  setting : String → Option String

/-- The contents of a file, unless the path says that it leads to a directory. -/
def Surroundings.contents (s : Surroundings) (path : String) : Option (List UInt8) :=
  if namesDirectory path then none else s.file (tidyPath path)

/-- A fault that ends the run at once. -/
inductive Uncaught where
  | options (fault : Options.Fault)
  | markup (fault : Markup.Fault)
  | bytes (place : Text.Break)
  | badScalar (fault : Yaml.Fault)

def Uncaught.message : Uncaught → String
  | .options fault => fault.message
  | .markup fault => fault.message
  | .bytes place => place.message
  | .badScalar fault => fault.message

structure Outcome where
  exitCode : Nat := 0
  output : String := ""
  errors : String := ""
  uncaught : Option Uncaught := none

def usageError : Outcome := { exitCode := 2 }

def aborted (fault : Uncaught) : Outcome :=
  { exitCode := 1, uncaught := some fault }

/-- Lines for the user, without codes. -/
def shownLines (lines : List String) : String :=
  Code.lines plain lines

def failure (lines : List String) : Outcome :=
  { exitCode := 1, errors := shownLines lines }

/-- The outcome with some text in front of its errors. -/
def Outcome.after (o : Outcome) (log : String) : Outcome :=
  { o with errors := log ++ o.errors }

/-! ## 2. The log -/

/-- Some lines of the log, if it is wanted. -/
def logLines (verbose : Bool) (lines : List String) : String :=
  if verbose then Code.lines ("DEBUG mathcodegen." ++ ·) lines else ""

def loadedLine (path : String) : String :=
  "config: Loaded build options from " ++ tidyPath path

/-- The lines about the repeated steps of parsing. -/
def passLines (a : Formula.Analysis) : List String :=
  (a.foldPasses.map fun n =>
    "parser: Operator folding reached a fixpoint after " ++ toString n ++ " pass(es)").toList ++
  (a.stripPasses.map fun n =>
    "parser: Bracket elimination reached a fixpoint after " ++ toString n ++ " pass(es)").toList

/-! ## 3. Options -/

/-- The options before those of the command line, with the log of loading them. -/
def baseOptions (s : Surroundings) (i : Invocation) : Except Outcome (Options × String) :=
  match i.config with
  | some path =>
    match s.contents path with
    | none => .error usageError
    | some bytes =>
      match Text.textOfBytes bytes with
      | .error place => .error (aborted (.bytes place))
      | .ok text =>
        match Options.ofFile text with
        | .error (.issues found) => .error (failure (found.map (·.shown (tidyPath path))))
        | .error (.badScalar fault) => .error (aborted (.badScalar fault))
        | .ok options => .ok (options, logLines i.verbose [loadedLine path])
  | none =>
    match Options.ofEnvironment s.setting with
    | .error fault => .error (aborted (.options fault))
    | .ok options => .ok (options, "")

/-- The options with those of the command line put in. -/
def Invocation.adjust (i : Invocation) (o : Options) : Options :=
  { o with
    numericType := i.numericType.getD o.numericType,
    suffixNumbers := i.suffixNumbers.getD o.suffixNumbers,
    assertDivisions := i.assertDivisions || o.assertDivisions }

/-! ## 4. Commands -/

def printing (text : String) : Outcome :=
  { output := shownLines [text] }

def printingCode : Except Code.Fault String → Outcome
  | .ok code => printing code
  | .error fault => failure ["Emission failed: " ++ fault.message]

/-- Does something with the tree of a formula.  If inputs are declared, the formula is checked
first. -/
def withTree (verbose : Bool) (formula : String) (inputs : List String) (use : Node → Outcome) :
    Outcome :=
  if !inputs.isEmpty && !Formula.isValid formula inputs then
    failure ["Invalid formula: " ++ formula]
  else
    let analysis := Formula.analyse formula
    let outcome :=
      match analysis.result with
      | .ok root => use root
      | .error fault => failure ["Could not parse formula: " ++ fault.message]
    outcome.after (logLines verbose (passLines analysis))

def runFormula (verbose : Bool) (options : Options) (task : FormulaTask) (formula : String)
    (inputs : List String) : Outcome :=
  match task with
  | .render => withTree verbose formula inputs fun root => printing (Code.render options root)
  | .emit => withTree verbose formula inputs fun root => printingCode (Code.emit options root)
  | .tree =>
    withTree verbose formula inputs fun root => printing ((Markup.ofTree? root).getD "")
  | .check =>
    if Formula.isValid formula inputs then printing "Formula is valid."
    else { printing "Formula is invalid." with exitCode := 1 }

def runConvert (options : Options) (path : String) (singleLine : Bool) (bytes : List UInt8) :
    Outcome :=
  let unreadable (message : String) : Outcome :=
    failure ["Could not read " ++ tidyPath path ++ ": " ++ message]
  match Markup.treeOfBytes bytes with
  | .error (.element fault) => unreadable fault.message
  | .error (.markup .malformed) => unreadable Markup.Fault.malformed.message
  | .error (.markup fault) => aborted (.markup fault)
  | .ok n =>
    if singleLine then printing (Code.render options n) else printingCode (Code.emit options n)

def shownTruth (b : Bool) : String :=
  if b then "True" else "False"

def runCheckConfig (verbose : Bool) (path : String) (bytes : List UInt8) : Outcome :=
  match Text.textOfBytes bytes with
  | .error place => aborted (.bytes place)
  | .ok text =>
    match Options.ofFile text with
    | .error (.issues found) =>
      { exitCode := 1,
        output := shownLines (found.map (·.shown (tidyPath path)) ++
          ["\n" ++ toString found.length ++ " error(s) found"]) }
    | .error (.badScalar fault) => aborted (.badScalar fault)
    | .ok o =>
      { output := shownLines
          ["  numeric type: " ++ o.numericType.name,
            "  number postfix: " ++ shownTruth o.suffixNumbers,
            "  power function: " ++ o.powerFunction,
            "  sqrt function: " ++ o.rootFunction,
            "\nOptions file is valid."],
        errors := logLines verbose [loadedLine path] }

def Command.run (s : Surroundings) (verbose : Bool) (options : Options) : Command → Outcome
  | .formula task source inputs => runFormula verbose options task source inputs
  | .convert path singleLine =>
    match s.contents path with
    | some bytes => runConvert options path singleLine bytes
    | none => usageError
  | .checkConfig path =>
    match s.contents path with
    | some bytes => runCheckConfig verbose path bytes
    | none => usageError

def run (s : Surroundings) (arguments : List String) : Outcome :=
  match Invocation.ofArguments arguments with
  | none => usageError
  | some invocation =>
    match baseOptions s invocation with
    | .error outcome => outcome
    | .ok (base, log) =>
      match Command.ofArguments invocation.command invocation.arguments with
      | none => usageError
      | some command => (command.run s invocation.verbose (invocation.adjust base)).after log

end Formulary.CommandLine
