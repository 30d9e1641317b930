/-!
# Tokens of a data file

A data file shows its structure by indentation, by brackets and braces, and by the marks `-`, `:`
and `,`.  Its tokens make all of it explicit: a block that begins or ends by indentation has tokens
of its own, and a key has a token in front of it.
-/

namespace Formulary.Yaml

/-! ## 1. Tokens -/

inductive Directive where
  /-- The version of the format. -/
  | version (major : Nat)
  /-- A short form for the beginning of tags. -/
  | handle (name uri : String)
  /-- One without a meaning. -/
  | other
  deriving DecidableEq, Repr

inductive Token where
  | directive (content : Directive)
  | documentStart
  | documentEnd
  | listBlock
  | mappingBlock
  | blockEnd
  | listOpen
  | listClose
  | mappingOpen
  | mappingClose
  | item
  | comma
  | key
  | value
  | anchor (name : String)
  | reference (name : String)
  /-- A tag; one without a handle is complete. -/
  | tag (handle : Option String) (rest : String)
  | scalar (plain : Bool) (text : String)
  deriving DecidableEq, Repr

/-! ## 2. Characters -/

def isPrintable (c : Char) : Bool :=
  let n := c.toNat
  c == '\t' || c == '\n' || c == '\r' || (0x20 ≤ n && n ≤ 0x7E) || n == 0x85
    || (0xA0 ≤ n && n ≤ 0xFFFD) || 0x10000 ≤ n

def isBreak (c : Char) : Bool :=
  c == '\n' || c == '\r' || c.toNat == 0x85 || c.toNat == 0x2028 || c.toNat == 0x2029

/-- Is this the end of the text, or a space, a tab or a line end? -/
def isGap : Option Char → Bool
  | none => true
  | some c => c == ' ' || c == '\t' || isBreak c

/-- Does a text begin with a mark of three characters that stands alone? -/
def startsMark (mark : List Char) (cs : List Char) : Bool :=
  mark.isPrefixOf cs && isGap (cs.drop 3).head?

def startsDocumentMark (cs : List Char) : Bool :=
  startsMark ['-', '-', '-'] cs || startsMark ['.', '.', '.'] cs

/-! ## 3. Cursors -/

/-- The rest of a text and the place where it begins. -/
structure Cursor where
  rest : List Char
  index : Nat := 0
  line : Nat := 0
  column : Nat := 0

namespace Cursor

def next (c : Cursor) : Cursor :=
  match c.rest with
  | [] => c
  | ch :: rest =>
    if isBreak ch then ⟨rest, c.index + 1, c.line + 1, 0⟩
    else ⟨rest, c.index + 1, c.line, if ch.toNat = 0xFEFF then c.column else c.column + 1⟩

def advance : Nat → Cursor → Cursor
  | 0, c => c
  | n + 1, c => advance n c.next

def skipWhile (p : Char → Bool) (c : Cursor) : List Char × Cursor :=
  let run := c.rest.takeWhile p
  (run, c.advance run.length)

/-- Past a line end, which a text keeps as a line feed, save for the two separators. -/
def takeBreak? (c : Cursor) : Option (Char × Cursor) :=
  match c.rest with
  | '\r' :: '\n' :: _ => some ('\n', c.advance 2)
  | ch :: _ =>
    if isBreak ch then
      some (if ch.toNat = 0x2028 || ch.toNat = 0x2029 then ch else '\n', c.next)
    else none
  | [] => none

end Cursor

end Formulary.Yaml
