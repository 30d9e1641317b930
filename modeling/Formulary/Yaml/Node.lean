import Formulary.Yaml.Tag

/-!
# The structure of a data file

What a data file consists of before it is known what it means: scalars, lists and mappings with
their kinds.  A mapping is put into another one by the merge key; `Node.merged` does so everywhere.
-/

namespace Formulary.Yaml

/-! ## 1. Nodes -/

inductive Node where
  | scalar (tag : Tag) (text : String)
  | list (tag : Tag) (items : List Node)
  | mapping (tag : Tag) (entries : List (Node × Node))
  /-- A list or mapping around the place where this stands. -/
  | enclosing (isMapping : Bool)
  /-- A mapping into which something other than mappings is to be put. -/
  | illMerged

def Node.scalarTag? : Node → Option Tag
  | .scalar tag _ => some tag
  | _ => none

mutual

/-- The text of a scalar, or of the value that stands for a whole mapping. -/
def Node.text? : Node → Option String
  | .scalar _ text => some text
  | .mapping _ entries => defaultText? entries
  | _ => none

def defaultText? : List (Node × Node) → Option String
  | [] => none
  | (k, v) :: rest => if k.scalarTag? = some .default then v.text? else defaultText? rest

end

/-! ## 2. Merging -/

/-- The entries of a node that is to be put into a mapping; a mapping brings nothing new to
itself. -/
def Node.entries? : Node → Option (List (Node × Node))
  | .mapping _ entries => some entries
  | .enclosing true => some []
  | _ => none

/-- The entries to be put in for the value of a merge key: those of a mapping, or those of several
mappings, the first of which counts most and so comes last. -/
def mergedEntries? : Node → Option (List (Node × Node))
  | .list _ items => (items.mapM Node.entries?).map fun lists => lists.reverse.flatten
  | n => n.entries?

/-- The entries that are put in, and those that were there, without the merge keys. -/
def regroup? : List (Node × Node) → Option (List (Node × Node) × List (Node × Node))
  | [] => some ([], [])
  | (k, v) :: rest =>
    if k.scalarTag? = some .merge then
      (mergedEntries? v).bind fun more =>
        (regroup? rest).map fun (merged, own) => (more ++ merged, own)
    else (regroup? rest).map fun (merged, own) => (merged, (k, v) :: own)

mutual

/-- The node with all merge keys carried out; what is put in comes before what was there. -/
def Node.merged : Node → Node
  | .list tag items => .list tag (mergedItems items)
  | .mapping tag entries =>
    match regroup? (mergedPairs entries) with
    | some (more, own) => .mapping tag (more ++ own)
    | none => .illMerged
  | n => n

def mergedItems : List Node → List Node
  | [] => []
  | n :: rest => n.merged :: mergedItems rest

def mergedPairs : List (Node × Node) → List (Node × Node)
  | [] => []
  | (k, v) :: rest => (k.merged, v.merged) :: mergedPairs rest

end

end Formulary.Yaml
