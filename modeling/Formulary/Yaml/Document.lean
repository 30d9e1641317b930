import Formulary.Yaml.Node
import Formulary.Yaml.Scan

/-!
# Documents

The tokens of a data file make one node, the content of its only document.  An entry without a value
has the value null.  A node with an anchor can be referred to once it has begun.  Every step takes a
token or goes on to one that does, so the number of tokens bounds the steps.
-/

namespace Formulary.Yaml

/-! ## 1. Steps -/

/-- What is left to read, the handles of tags with what they stand for, and the nodes with anchors
so far. -/
structure Rest where
  tokens : List Token
  handles : List (String × String) := []
  anchors : List (String × Node) := []

/-- A step that reads something, or finds the file malformed. -/
abbrev Intake := StateT Rest Option

namespace Intake

def peek : Intake (Option Token) := do
  return (← get).tokens.head?

def skip : Intake Unit :=
  modify fun r => { r with tokens := r.tokens.tail }

def at? (kinds : List Token) : Intake Bool := do
  return (← peek).any kinds.contains

/-- Past the next token if it is the given one, and whether it is. -/
def takes (t : Token) : Intake Bool := do
  if (← peek) == some t then
    skip
    return true
  else
    return false

end Intake

open Intake

/-! ## 2. Properties -/

/-- The anchor and the tag of a node, as far as it has them; the tag is a full name. -/
structure Properties where
  anchor : Option String := none
  tag : Option String := none

namespace Properties

/-- Is the kind of the node left open? -/
def isOpen (p : Properties) : Bool :=
  p.tag == none || p.tag == some "!"

/-- The kind of a node for which the given one is usual. -/
def tagOr (p : Properties) (usual : Tag) : Tag :=
  if p.isOpen then usual else Tag.ofName (p.tag.getD "")

def scalarTag (p : Properties) (plain : Bool) (text : String) : Tag :=
  if (plain && p.tag == none) || p.tag == some "!" then Tag.ofPlain text else p.tagOr .text

def note (p : Properties) (n : Node) : Intake Unit :=
  match p.anchor with
  | some name => modify fun r => { r with anchors := (name, n) :: r.anchors }
  | none => pure ()

def noted (p : Properties) (n : Node) : Intake Node := do
  p.note n
  return n

/-- The empty scalar of a node that has properties only. -/
def alone (p : Properties) : Intake Node :=
  if p.anchor == none && p.tag == none then failure
  else p.noted (.scalar (p.tagOr .null) "")

end Properties

/-- An anchor, if one comes next; no two nodes have the same. -/
def takeAnchor : Intake (Option String) := do
  match ← peek with
  | some (.anchor name) =>
    skip
    if (← get).anchors.any (·.1 == name) then failure else return some name
  | _ => return none

def takeTagName : Intake (Option String) := do
  match ← peek with
  | some (.tag none name) =>
    skip
    return some name
  | some (.tag (some handle) rest) =>
    skip
    match (← get).handles.lookup handle with
    | some start => return some (start ++ rest)
    | none => failure
  | _ => return none

def takeProperties : Intake Properties := do
  match ← takeAnchor with
  | some name => return { anchor := some name, tag := ← takeTagName }
  | none =>
    let tag ← takeTagName
    let anchor ← if tag.isSome then takeAnchor else pure none
    return { anchor, tag }

def referred (name : String) : Intake Node := do
  match (← get).anchors.lookup name with
  | some n => return n
  | none => failure

/-! ## 3. Nodes -/

inductive Place where
  /-- In a block, where a list may be no deeper than the key before it. -/
  | entry
  /-- In a block. -/
  | block
  /-- In brackets or braces. -/
  | bracket
  deriving DecidableEq

def nothing : Node := .scalar .null ""

mutual

def takeNode : Nat → Place → Intake Node
  | 0, _ => failure
  | fuel + 1, place => do
    match ← peek with
    | some (.reference name) =>
      skip
      referred name
    | _ => takeContent fuel place (← takeProperties)

/-- The next node after its properties.  While it is read, a reference to it stands for a node
around the reference. -/
def takeContent : Nat → Place → Properties → Intake Node
  | 0, _, _ => failure
  | fuel + 1, place, p => do
    match ← peek with
    | some (.scalar plain text) =>
      skip
      p.noted (.scalar (p.scalarTag plain text) text)
    | some .listOpen =>
      skip
      p.note (.enclosing false)
      p.noted (.list (p.tagOr .list) (← takeBracketItems fuel true))
    | some .mappingOpen =>
      skip
      p.note (.enclosing true)
      p.noted (.mapping (p.tagOr .mapping) (← takeBraceEntries fuel true))
    | some .item =>
      if place = .entry then
        p.note (.enclosing false)
        p.noted (.list (p.tagOr .list) (← takeFlatItems fuel))
      else p.alone
    | some .listBlock =>
      if place = .bracket then p.alone
      else
        skip
        p.note (.enclosing false)
        p.noted (.list (p.tagOr .list) (← takeBlockItems fuel))
    | some .mappingBlock =>
      if place = .bracket then p.alone
      else
        skip
        p.note (.enclosing true)
        p.noted (.mapping (p.tagOr .mapping) (← takeBlockEntries fuel))
    | _ => p.alone

/-- The next node, or null if one of the given tokens comes instead. -/
def takeOptional : Nat → Place → List Token → Intake Node
  | 0, _, _ => failure
  | fuel + 1, place, ends => do
    if ← at? ends then return nothing else takeNode fuel place

def takeBlockItems : Nat → Intake (List Node)
  | 0 => failure
  | fuel + 1 => do
    if ← takes .item then
      let n ← takeOptional fuel .block [.item, .blockEnd]
      return n :: (← takeBlockItems fuel)
    else if ← takes .blockEnd then return []
    else failure

/-- The items of a list that is no deeper than its key. -/
def takeFlatItems : Nat → Intake (List Node)
  | 0 => failure
  | fuel + 1 => do
    if ← takes .item then
      let n ← takeOptional fuel .block [.item, .key, .value, .blockEnd]
      return n :: (← takeFlatItems fuel)
    else return []

def takeBlockEntries : Nat → Intake (List (Node × Node))
  | 0 => failure
  | fuel + 1 => do
    if ← takes .key then
      let k ← takeOptional fuel .entry [.key, .value, .blockEnd]
      let v ← takeBlockValue fuel
      return (k, v) :: (← takeBlockEntries fuel)
    else if ← takes .blockEnd then return []
    else failure

def takeBlockValue : Nat → Intake Node
  | 0 => failure
  | fuel + 1 => do
    if ← takes .value then takeOptional fuel .entry [.key, .value, .blockEnd] else return nothing

/-- The items up to a closing bracket; all but the first come after a comma. -/
def takeBracketItems : Nat → Bool → Intake (List Node)
  | 0, _ => failure
  | fuel + 1, first => do
    if ← takes .listClose then return []
    else if first then takeBracketItem fuel
    else if ← takes .comma then takeBracketItem fuel
    else failure

def takeBracketItem : Nat → Intake (List Node)
  | 0 => failure
  | fuel + 1 => do
    if ← takes .listClose then return []
    else if ← takes .key then
      let k ← takeOptional fuel .bracket [.value, .comma, .listClose]
      let v ← takeBracketValue fuel .listClose
      return .mapping .mapping [(k, v)] :: (← takeBracketItems fuel false)
    else
      let n ← takeNode fuel .bracket
      return n :: (← takeBracketItems fuel false)

def takeBracketValue : Nat → Token → Intake Node
  | 0, _ => failure
  | fuel + 1, close => do
    if ← takes .value then takeOptional fuel .bracket [.comma, close] else return nothing

def takeBraceEntries : Nat → Bool → Intake (List (Node × Node))
  | 0, _ => failure
  | fuel + 1, first => do
    if ← takes .mappingClose then return []
    else if first then takeBraceEntry fuel
    else if ← takes .comma then takeBraceEntry fuel
    else failure

def takeBraceEntry : Nat → Intake (List (Node × Node))
  | 0 => failure
  | fuel + 1 => do
    if ← takes .mappingClose then return []
    else if ← takes .key then
      let k ← takeOptional fuel .bracket [.value, .comma, .mappingClose]
      let v ← takeBracketValue fuel .mappingClose
      return (k, v) :: (← takeBraceEntries fuel false)
    else
      let k ← takeNode fuel .bracket
      return (k, nothing) :: (← takeBraceEntries fuel false)

end

/-! ## 4. Documents -/

/-- The handles that need no directive. -/
def usualHandles : List (String × String) :=
  [("!", "!"), ("!!", standardTag)]

/-- The handles that directives define, and the tokens after the directives.  There is at most one
version, which begins with 1, and one definition for a handle. -/
def takeDirectives (versionKnown : Bool) (handles : List (String × String)) :
    List Token → Option (List (String × String) × List Token)
  | .directive (.version major) :: rest =>
    if versionKnown || major != 1 then none else takeDirectives true handles rest
  | .directive (.handle name uri) :: rest =>
    if handles.any (·.1 == name) then none
    else takeDirectives versionKnown ((name, uri) :: handles) rest
  | .directive .other :: rest => takeDirectives versionKnown handles rest
  | ts => some (handles ++ usualHandles, ts)

/-- Is the token one that does not belong to the content of a document? -/
def isOutside : Token → Bool
  | .directive _ | .documentStart | .documentEnd => true
  | _ => false

/-- The content of the document at the front of some tokens, which are the last of the file. -/
def content? (ts : List Token) (handles : List (String × String)) : Option Node :=
  ((takeNode (8 * ts.length + 8) .block).run { tokens := ts, handles }).bind fun (n, r) =>
    if r.tokens.all (· == .documentEnd) then some n else none

/-- The content of the only document among the tokens; an empty file has none. -/
def document? (ts : List Token) : Option (Option Node) :=
  match ts with
  | [] => some none
  | t :: _ =>
    if t == .documentStart || t matches .directive _ then
      (takeDirectives false [] ts).bind fun (handles, ts) =>
        match ts with
        | .documentStart :: rest =>
          if rest.head?.all isOutside then
            if rest.all (· == .documentEnd) then some (some nothing) else none
          else (content? rest handles).map some
        | _ => none
    else (content? ts usualHandles).map some

end Formulary.Yaml
