import Formulary.Element.Basic
import Formulary.Markup.Declaration
import Formulary.Markup.Doctype
import Formulary.Markup.Namespace

/-!
# Reading markup

Markup is read from left to right with a stack of the elements that are open.  The text between two
tags goes to the element that the first of them opens or closes; comments and processing
instructions leave no trace.  Elements are read from a list of characters whose line ends are
already single line feeds.
-/

namespace Formulary.Markup

/-! ## 1. Open elements -/

/-- An element that is being read.  Its tag and attributes are as its start tag gave them, `scope` has
the bindings inside it, and `name` is what its end tag has to say.  The children stand with the last
first, and `pending` holds the characters behind the last tag, also with the last first. -/
structure Frame where
  name : Name
  tag : String
  attributes : List (String × String) := []
  scope : Scope
  text : Option String := none
  children : List Element := []
  pending : List Char := []

namespace Frame

def addText (f : Frame) (cs : List Char) : Frame :=
  { f with pending := cs.reverse ++ f.pending }

/-- Puts the pending characters in their place, as the text of the element or as the tail of its last
child.  Where there are none, there is no text. -/
def flush (f : Frame) : Frame :=
  if f.pending.isEmpty then f
  else
    let run := String.ofList f.pending.reverse
    match f.children with
    | [] => { f with text := some run, pending := [] }
    | last :: before => { f with children := { last with tail := some run } :: before, pending := [] }

def addChild (f : Frame) (e : Element) : Frame :=
  { f.flush with children := e :: f.flush.children }

def close (f : Frame) : Element where
  tag := f.tag
  attributes := f.attributes
  text := f.flush.text
  children := f.flush.children.reverse

end Frame

/-! ## 2. Tags -/

/-- The attributes of a start tag, whether the tag is empty, and the rest; the text begins right
after the element's name.  There are at most `fuel` attributes. -/
def takeTagEnd (conventions : Conventions) :
    Nat → List Char → Option (List Attribute × Bool × List Char)
  | fuel, cs =>
    match skipBlanks cs with
    | '>' :: rest => some ([], false, rest)
    | '/' :: '>' :: rest => some ([], true, rest)
    | _ =>
      match fuel with
      | 0 => none
      | fuel + 1 =>
        match (needBlanks cs).bind (takeQualified conventions.letters) with
        | some (name, rest) =>
          match skipBlanks rest with
          | '=' :: rest =>
            match takeLiteral (skipBlanks rest) with
            | some (inside, rest) =>
              match attributeValue conventions.letters conventions.lenient none inside,
                takeTagEnd conventions fuel rest with
              | some value, some (attributes, empty, rest) =>
                some (⟨name, value⟩ :: attributes, empty, rest)
              | _, _ => none
            | none => none
          | _ => none
        | none => none

/-- The frame of an element whose start tag begins right after the opening angle bracket, whether
the tag is empty, and the rest. -/
def takeStart (conventions : Conventions) (scope : Scope) (cs : List Char) :
    Option (Frame × Bool × List Char) :=
  match takeQualified conventions.letters cs with
  | none => none
  | some (name, rest) =>
    match takeTagEnd conventions rest.length rest with
    | none => none
    | some (given, empty, rest) =>
      match enter? scope name (conventions.complete name given) with
      | none => none
      | some (tag, attributes, inside) =>
        some ({ name, tag, attributes, scope := inside }, empty, rest)

/-- What follows an end tag that closes an element of the given name. -/
def afterEnd (letters : Alphabet) (name : Name) (cs : List Char) : Option (List Char) :=
  match takeQualified letters cs with
  | none => none
  | some (closing, rest) => if closing = name then afterDeclaration rest else none

/-! ## 3. Content -/

inductive Part where
  | text (cs : List Char)
  | start (frame : Frame) (empty : Bool)
  | ending
  | nothing

/-- The part at the front of the content of an open element, and the rest. -/
def takePart (conventions : Conventions) (top : Frame) : List Char → Option (Part × List Char)
  | '<' :: '/' :: rest => (afterEnd conventions.letters top.name rest).map (.ending, ·)
  | '<' :: '!' :: '-' :: '-' :: rest => (afterComment rest).map (.nothing, ·)
  | '<' :: '!' :: '[' :: 'C' :: 'D' :: 'A' :: 'T' :: 'A' :: '[' :: rest =>
    (takeVerbatim rest).map fun (cs, rest) => (.text cs, rest)
  | '<' :: '?' :: rest => (afterInstruction conventions.letters rest).map (.nothing, ·)
  | '<' :: rest =>
    (takeStart conventions top.scope rest).map fun (frame, empty, rest) =>
      (.start frame empty, rest)
  | '&' :: rest =>
    match takeReference conventions.letters rest with
    | some (.char c, rest) => some (.text [c], rest)
    | _ => none
  | ']' :: ']' :: '>' :: _ => none
  | c :: rest => if isAllowed c then some (.text [c], rest) else none
  | [] => none

/-- Reads on inside the open element `top`, with the elements around it in `outer`, the nearest
first.  The result is the outermost element and what follows it.  There are at most `fuel` parts. -/
def readContent (conventions : Conventions) : Nat → Frame → List Frame → List Char →
    Option (Element × List Char)
  | 0, _, _, _ => none
  | fuel + 1, top, outer, cs =>
    match takePart conventions top cs with
    | none => none
    | some (.text t, rest) => readContent conventions fuel (top.addText t) outer rest
    | some (.nothing, rest) => readContent conventions fuel top outer rest
    | some (.start frame false, rest) => readContent conventions fuel frame (top :: outer) rest
    | some (.start frame true, rest) =>
      readContent conventions fuel (top.addChild frame.close) outer rest
    | some (.ending, rest) =>
      match outer with
      | [] => some (top.close, rest)
      | around :: outer => readContent conventions fuel (around.addChild top.close) outer rest

def takeElement (conventions : Conventions) : List Char → Option (Element × List Char)
  | '<' :: rest =>
    match takeStart conventions initialScope rest with
    | some (frame, true, rest) => some (frame.close, rest)
    | some (frame, false, rest) => readContent conventions rest.length frame [] rest
    | none => none
  | _ => none

/-! ## 4. Documents -/

/-- What comes before the root element: comments and the like, around at most one document type. -/
def takeProlog (setting : Setting) (cs : List Char) : Except Fault (Grammar × List Char) :=
  (orMalformed (skipMisc setting.letters cs.length cs)).bind fun cs =>
    match cs with
    | '<' :: '!' :: 'D' :: 'O' :: 'C' :: 'T' :: 'Y' :: 'P' :: 'E' :: rest =>
      (takeDoctype setting rest).bind fun (grammar, rest) =>
        (orMalformed (skipMisc setting.letters rest.length rest)).map (grammar, ·)
    | cs => .ok ({}, cs)

/-- The root element of a document whose declaration has been read before. -/
def readBody (setting : Setting) (cs : List Char) : Except Fault Element :=
  (takeProlog setting cs).bind fun (grammar, cs) =>
    orMalformed <|
      match takeElement (grammar.conventions setting) (Text.unifyLineEnds cs) with
      | none => none
      | some (e, rest) =>
        if skipMisc setting.letters rest.length rest = some [] then some e else none

/-- The text without a byte order mark at its front. -/
def dropMark : List Char → List Char
  | c :: rest => if c.toNat = 0xFEFF then rest else c :: rest
  | [] => []

/-- The root element of a document given as text.  What it declares as its encoding does not
matter. -/
def readText (cs : List Char) : Except Fault Element :=
  (orMalformed (takeDeclaration .usual (dropMark cs))).bind fun (declaration, cs) =>
    readBody { standalone := declaration.standalone } cs

example : (readText "<p l=\"b\"> <q/>c<!--d-->e</p>".toList).toOption.map
    (fun e => (e.attributes, e.text, e.children.map (·.tail))) =
      some ([("l", "b")], some " ", [some "ce"]) := by
  decide +kernel

end Formulary.Markup
