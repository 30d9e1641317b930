import Formulary.Text.LineEnd
import Formulary.Yaml.Document
import Formulary.Yaml.Scalar

/-!
# The value of a data file

The parts of a data file make one value.  A key has to be a scalar.  Of several faults the one of
the outermost list or mapping counts, and there the first one: `Made` keeps the faults of a part by
depth.
-/

namespace Formulary.Yaml

/-! ## 1. Faults by depth -/

/-- The first of the faults of two parts at each depth. -/
def joinFaults : List (Option Fault) → List (Option Fault) → List (Option Fault)
  | [], fs => fs
  | fs, [] => fs
  | f :: fs, g :: gs => f.or g :: joinFaults fs gs

/-- What was made of a node: the value, the fault of making it, and the faults of making its parts
by depth.  The value has no meaning if there are faults.  For a mapping the entries are kept. -/
structure Made where
  value : Value
  fault : Option Fault := none
  deeper : List (Option Fault) := []
  entries : Option (List (Value × Value × Option Fault × List (Option Fault))) := none

/-- What is made of a part whose fault shows when it is looked at. -/
def Made.faulty (fault : Fault) : Made :=
  { value := .scalar .null, fault := some fault }

/-- What is made of a part whose fault shows when its own parts are looked at. -/
def Made.hollow : Made :=
  { value := .scalar .null, deeper := [some .malformed] }

def faultsOf (parts : List (Option Fault × List (Option Fault))) : List (Option Fault) :=
  parts.foldr (fun (f, _) fault => f.or fault) none ::
    parts.foldr (fun (_, fs) faults => joinFaults fs faults) []

/-! ## 2. Scalars and keys -/

def scalarMade (tag : Tag) (text : Option String) : Made :=
  match tag with
  | .list | .mapping | .pairs | .keySet => .hollow
  | _ =>
    match text with
    | none => .faulty .malformed
    | some text =>
      match tag.scalarOf text with
      | .ok s => { value := .scalar s }
      | .error fault => .faulty fault

/-- What is made of a key in a mapping, where the key for the whole mapping is a text. -/
def keyMade (key : Node) (made : Made) : Made :=
  match key with
  | .scalar .default text => { value := .scalar (.text text) }
  | _ => made

def keyFault? : Value → Option Fault
  | .scalar _ => none
  | _ => some .malformed

/-- The entries of a mapping in which later keys replace earlier ones. -/
def entered (entries : List (Value × Value)) : List (Scalar × Value) :=
  entries.foldl (fun done (k, v) =>
    match k with
    | .scalar s => put s v done
    | _ => done) []

/-! ## 3. Nodes -/

def listMade (tag : Tag) (items : List Made) : Made :=
  match tag with
  | .list =>
    { value := .list (items.map (·.value)),
      deeper := faultsOf (items.map fun m => (m.fault, m.deeper)) }
  | .pairs =>
    let parts := items.map fun m =>
      match m.entries with
      | some [(k, v, fault, faults)] => some (k, v, fault, faults)
      | _ => none
    { value := .pairs (parts.filterMap fun part => part.map fun (k, v, _) => (k, v)),
      deeper := faultsOf (parts.map fun part =>
        (part.map fun (_, _, fs) => fs).getD (some .malformed, [])) }
  | tag => scalarMade tag none

mutual

/-- What is made of a node without merge keys. -/
def Node.made : Node → Made
  | .scalar tag text => scalarMade tag (some text)
  | .list tag items => listMade tag (madeItems items)
  | .mapping tag entries =>
    let parts := madeEntries entries
    let asKeys := parts.map fun (key, k, v) =>
      let k := keyMade key k
      (k.value, v.value, (k.fault.or (keyFault? k.value)).or v.fault, joinFaults k.deeper v.deeper)
    let deeper := faultsOf (asKeys.map fun (_, _, fs) => fs)
    let done := entered (asKeys.map fun (k, v, _) => (k, v))
    let made : Made :=
      match tag with
      | .mapping => { value := .mapping done, deeper }
      | .keySet => { value := .keySet (done.map (·.1)), deeper }
      | tag => scalarMade tag (defaultText? entries)
    { made with entries := some (parts.map fun (_, k, v) =>
        (k.value, v.value, k.fault.or v.fault, joinFaults k.deeper v.deeper)) }
  | .enclosing isMapping => { value := .enclosing isMapping }
  | .illMerged => .hollow

def madeItems : List Node → List Made
  | [] => []
  | n :: rest => n.made :: madeItems rest

def madeEntries : List (Node × Node) → List (Node × Made × Made)
  | [] => []
  | (k, v) :: rest => (k, k.made, v.made) :: madeEntries rest

end

def Node.value (n : Node) : Except Fault Value :=
  let made := n.merged.made
  match (made.fault :: made.deeper).findSome? id with
  | some fault => .error fault
  | none => .ok made.value

/-- The value of a data file; an empty file is null. -/
def read (s : String) : Except Fault Value :=
  (tokens (Text.unifyLineEnds s.toList)).bind fun ts =>
    (orMalformed (document? ts)).bind fun content =>
      match content with
      | none => .ok (.scalar .null)
      | some n => n.value

end Formulary.Yaml
