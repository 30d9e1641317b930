/-!
# Arguments: options and the rest

An argument that begins with a hyphen and goes on is an option: a long one by its full name, with a
value after an equals sign or in the next argument; or a run of short ones, the last of which may
have its value attached.  Two hyphens alone end the options.
-/

namespace Formulary.CommandLine

/-- An option: its long name with the hyphens, its letter if it has one, and whether it takes a
value. -/
structure OptionSpec where
  long : String
  letter : Option Char := none
  takesValue : Bool := false

/-- An option that was given, by its long name, with its value; a flag has an empty one. -/
abbrev Given := String × String

/-- The options in one argument, and the one whose value is the next argument. -/
abbrev Parsed := List Given × Option String

def shortOptions (specs : List OptionSpec) : List Char → Option Parsed
  | [] => some ([], none)
  | c :: rest =>
    match specs.find? fun spec => spec.letter == some c with
    | none => none
    | some spec =>
      if spec.takesValue then
        if rest.isEmpty then some ([], some spec.long)
        else some ([(spec.long, String.ofList rest)], none)
      else (shortOptions specs rest).map fun (given, next) => ((spec.long, "") :: given, next)

/-- A long option, with the value after its equals sign, if there is one. -/
def longOption (spec : OptionSpec) (attached : Option String) : Option Parsed :=
  match spec.takesValue, attached with
  | true, some value => some ([(spec.long, value)], none)
  | true, none => some ([], some spec.long)
  | false, none => some ([(spec.long, "")], none)
  | false, some _ => none

def optionsIn (specs : List OptionSpec) (argument : String) : Option Parsed :=
  let cs := argument.toList
  let name := String.ofList (cs.takeWhile (· != '='))
  let attached :=
    match cs.dropWhile (· != '=') with
    | _ :: value => some (String.ofList value)
    | [] => none
  match specs.find? (·.long == name) with
  | some spec => longOption spec attached
  | none => if cs.take 2 == ['-', '-'] then none else shortOptions specs cs.tail

def isOption (argument : String) : Bool :=
  argument.toList.head? == some '-' && 1 < argument.length

/-- The options among some arguments, and the other arguments, in order.  Options come before the
other arguments, or anywhere among them if `mixed` is set. -/
def splitOptions (specs : List OptionSpec) (mixed : Bool) :
    List String → Option (List Given × List String)
  | [] => some ([], [])
  | argument :: rest =>
    if argument = "--" then some ([], rest)
    else if isOption argument then
      match optionsIn specs argument with
      | none => none
      | some (given, none) =>
        (splitOptions specs mixed rest).map fun (more, others) => (given ++ more, others)
      | some (given, some name) =>
        match rest with
        | [] => none
        | value :: rest =>
          (splitOptions specs mixed rest).map fun (more, others) =>
            (given ++ (name, value) :: more, others)
    else if mixed then
      (splitOptions specs mixed rest).map fun (given, others) => (given, argument :: others)
    else some ([], argument :: rest)

def lastValue? (given : List Given) (long : String) : Option String :=
  (given.filter (·.1 == long)).getLast?.map (·.2)

def valuesOf (given : List Given) (long : String) : List String :=
  (given.filter (·.1 == long)).map (·.2)

def isGiven (given : List Given) (long : String) : Bool :=
  given.any (·.1 == long)

end Formulary.CommandLine
