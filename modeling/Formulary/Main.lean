import Formulary.CommandLine.Run

/-!
# The program

Reads the files that the command line names and the environment variables of the options, runs the
command line, and prints what came of it.
-/

namespace Formulary.CommandLine

def settingNames : List String :=
  ["MATHCODEGEN_NUMERIC_TYPE", "MATHCODEGEN_NUMBER_POSTFIX", "MATHCODEGEN_ASSERT_DIVISION_BY_ZERO"]

def readFile? (path : String) : IO (Option (String × List UInt8)) := do
  try
    let bytes ← IO.FS.readBinFile path
    return some (path, bytes.toList)
  catch _ => return none

def readSetting? (name : String) : IO (Option (String × String)) := do
  return (← IO.getEnv name).map (name, ·)

def look (arguments : List String) : IO Surroundings := do
  let files ← (namedFiles arguments).mapM readFile?
  let settings ← settingNames.mapM readSetting?
  return {
    file := fun path => (files.filterMap id).lookup path,
    setting := fun name => (settings.filterMap id).lookup name }

end Formulary.CommandLine

def main (arguments : List String) : IO UInt32 := do
  let outcome := Formulary.CommandLine.run (← Formulary.CommandLine.look arguments) arguments
  IO.print outcome.output
  IO.eprint outcome.errors
  if outcome.exitCode = 2 then IO.eprintln "Usage: [OPTIONS] COMMAND [ARGS]..."
  match outcome.uncaught with
  | some fault => IO.eprintln fault.message
  | none => pure ()
  return UInt32.ofNat outcome.exitCode
