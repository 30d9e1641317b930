import Formulary.Yaml.Property

/-!
# Scanning a data file

A block that begins or ends by indentation gets tokens of its own, and a key gets a token in front
of it once the mark after it has been found.

A text that may still turn out to be a key is remembered for every level of brackets, with the place
of its token.  It has to be on one line, and it must be a key if it stands where only a key can.
-/

namespace Formulary.Yaml

/-- A token that may turn out to be a key: where it is in the list of tokens, whether it must be
one, and its place in the text. -/
structure Candidate where
  position : Nat
  required : Bool
  index : Nat
  line : Nat
  column : Nat

structure Scan where
  cursor : Cursor
  /-- How many brackets and braces are open. -/
  depth : Nat := 0
  /-- The indentation of the block, and of the blocks around it. -/
  indent : Int := -1
  outer : List Int := []
  /-- Whether a key may begin here. -/
  mayBeginKey : Bool := true
  /-- The candidates, by the number of open brackets. -/
  candidates : List (Nat × Candidate) := []
  tokens : List Token := []

namespace Scan

def push (s : Scan) (t : Token) : Scan :=
  { s with tokens := s.tokens ++ [t] }

def take (s : Scan) (t : Token) (length : Nat) : Scan :=
  { s.push t with cursor := s.cursor.advance length }

def allowKey (s : Scan) (allowed : Bool) : Scan :=
  { s with mayBeginKey := allowed }

/-- Forgets the candidate of the present depth; one that must be a key is a fault. -/
def dropCandidate (s : Scan) : Except Fault Scan :=
  match s.candidates.lookup s.depth with
  | some k =>
    if k.required then .error .malformed
    else .ok { s with candidates := s.candidates.filter fun e => e.1 != s.depth }
  | none => .ok s

/-- Forgets the candidates that are on another line or too far back. -/
def dropStale (s : Scan) : Except Fault Scan :=
  let isStale (k : Candidate) : Bool :=
    k.line != s.cursor.line || 1024 < s.cursor.index - k.index
  if s.candidates.any fun e => isStale e.2 && e.2.required then .error .malformed
  else .ok { s with candidates := s.candidates.filter fun e => !isStale e.2 }

def addCandidate (s : Scan) : Except Fault Scan :=
  if s.mayBeginKey then
    s.dropCandidate.map fun s =>
      let required := s.depth == 0 && s.indent == s.cursor.column
      let k : Candidate :=
        ⟨s.tokens.length, required, s.cursor.index, s.cursor.line, s.cursor.column⟩
      { s with candidates := (s.depth, k) :: s.candidates }
  else .ok s

/-- Ends the blocks that are indented more than the given column. -/
def closeBlocks (column : Int) : List Int → Scan → Scan
  | [], s => s
  | around :: outer, s =>
    if column < s.indent then
      closeBlocks column outer { s.push .blockEnd with indent := around, outer := outer }
    else s

/-- Ends the blocks that are indented more than the given column, outside of brackets. -/
def unwind (s : Scan) (column : Int) : Scan :=
  if s.depth = 0 then closeBlocks column s.outer s else s

/-- Begins a block at a column, with its token at the given place, if it is indented more. -/
def openBlock (s : Scan) (column : Nat) (t : Token) (position : Nat) : Scan :=
  if s.indent < column then
    { s with
      indent := column, outer := s.indent :: s.outer, tokens := s.tokens.insertIdx position t }
  else s

/-- Past white space, comments and line ends; after a line end a key may begin. -/
def skipGaps : Nat → Scan → Scan
  | 0, s => s
  | fuel + 1, s =>
    let (_, c) := s.cursor.skipWhile (· == ' ')
    let c := if c.rest.head? == some '#' then (c.skipWhile fun ch => !isBreak ch).2 else c
    match c.takeBreak? with
    | some (_, c) =>
      skipGaps fuel { s with cursor := c, mayBeginKey := s.mayBeginKey || s.depth == 0 }
    | none => { s with cursor := c }

def documentMark (s : Scan) (t : Token) : Except Fault Scan :=
  (s.unwind (-1)).dropCandidate.map fun s => { s.take t 3 with mayBeginKey := false }

def openBracket (s : Scan) (t : Token) : Except Fault Scan :=
  s.addCandidate.map fun s => { s.take t 1 with depth := s.depth + 1, mayBeginKey := true }

def closeBracket (s : Scan) (t : Token) : Except Fault Scan :=
  if s.depth = 0 then .error .malformed
  else s.dropCandidate.map fun s => { s.take t 1 with depth := s.depth - 1, mayBeginKey := false }

def itemMark (s : Scan) : Except Fault Scan :=
  if s.depth = 0 && !s.mayBeginKey then .error .malformed
  else
    let s := if s.depth = 0 then s.openBlock s.cursor.column .listBlock s.tokens.length else s
    (s.allowKey true).dropCandidate.map (·.take .item 1)

/-- The mark after a key. -/
def valueMark (s : Scan) : Except Fault Scan :=
  match s.candidates.lookup s.depth with
  | some k =>
    let s := { s with
      candidates := s.candidates.filter (fun e => e.1 != s.depth),
      tokens := s.tokens.insertIdx k.position .key }
    let s := if s.depth = 0 then s.openBlock k.column .mappingBlock k.position else s
    .ok { s.take .value 1 with mayBeginKey := false }
  | none =>
    if s.depth = 0 && !s.mayBeginKey then .error .malformed
    else
      let s :=
        if s.depth = 0 then s.openBlock s.cursor.column .mappingBlock s.tokens.length else s
      (s.allowKey (s.depth == 0)).dropCandidate.map (·.take .value 1)

/-- The mark in front of a key. -/
def keyMark (s : Scan) : Except Fault Scan :=
  if s.depth = 0 && !s.mayBeginKey then .error .malformed
  else
    let s := if s.depth = 0 then s.openBlock s.cursor.column .mappingBlock s.tokens.length else s
    (s.allowKey (s.depth == 0)).dropCandidate.map (·.take .key 1)

def quotedScalar (s : Scan) (mark : Char) : Except Fault Scan :=
  s.addCandidate.bind fun s =>
    (takeQuoted mark (s.cursor.rest.length + 1) s.cursor.next).map fun (text, c) =>
      { s.push (.scalar false (String.ofList text)) with cursor := c, mayBeginKey := false }

def plainScalar (s : Scan) : Except Fault Scan :=
  s.addCandidate.map fun s =>
    let (text, c, broken) :=
      takePlain (s.depth != 0) (s.indent + 1) s.cursor.rest.length [] s.cursor false
    { s.push (.scalar true (String.ofList text)) with cursor := c, mayBeginKey := broken }

/-- A scalar of lines, folded or not; after it a key may begin. -/
def blockScalar (s : Scan) (folded : Bool) : Except Fault Scan :=
  s.dropCandidate.bind fun s =>
    (orMalformed (takeBlock? folded s.indent s.cursor.next)).map fun (text, c) =>
      { s.push (.scalar false (String.ofList text)) with cursor := c, mayBeginKey := true }

/-- A token that belongs to the value after it or stands for one, if it could be read. -/
def property (s : Scan) (taken : Option (Token × Cursor)) : Except Fault Scan :=
  s.addCandidate.bind fun s =>
    (orMalformed taken).map fun (t, c) => { s.push t with cursor := c, mayBeginKey := false }

def directive (s : Scan) : Except Fault Scan :=
  (s.unwind (-1)).dropCandidate.bind fun s =>
    (orMalformed (takeDirective? s.cursor.next)).map fun (d, c) =>
      { s.push (.directive d) with cursor := c, mayBeginKey := false }

def beginsPlain (depth : Nat) (ch : Char) (rest : List Char) : Bool :=
  !(isGap (some ch) || "-?:,[]\x7b\x7d#&*!|>'\"%@\x60".toList.contains ch)
    || (!isGap rest.head? && (ch == '-' || (depth == 0 && (ch == '?' || ch == ':'))))

/-- The token at the cursor; `ch` is its first character. -/
def token (s : Scan) (ch : Char) (rest : List Char) : Except Fault Scan :=
  let atStart := s.cursor.column = 0
  if atStart && ch = '%' then s.directive
  else if atStart && startsMark ['-', '-', '-'] s.cursor.rest then s.documentMark .documentStart
  else if atStart && startsMark ['.', '.', '.'] s.cursor.rest then s.documentMark .documentEnd
  else if ch = '[' then s.openBracket .listOpen
  else if ch = '\x7b' then s.openBracket .mappingOpen
  else if ch = ']' then s.closeBracket .listClose
  else if ch = '\x7d' then s.closeBracket .mappingClose
  else if ch = ',' then (s.allowKey true).dropCandidate.map (·.take .comma 1)
  else if ch = '-' && isGap rest.head? then s.itemMark
  else if ch = '?' && (s.depth != 0 || isGap rest.head?) then s.keyMark
  else if ch = ':' && (s.depth != 0 || isGap rest.head?) then s.valueMark
  else if ch = '*' then
    s.property ((takeAnchorName? s.cursor.next).map fun (name, c) => (.reference name, c))
  else if ch = '&' then
    s.property ((takeAnchorName? s.cursor.next).map fun (name, c) => (.anchor name, c))
  else if ch = '!' then
    s.property ((takeTag? s.cursor).map fun (handle, rest, c) => (.tag handle rest, c))
  else if s.depth = 0 && (ch = '|' || ch = '>') then s.blockScalar (ch == '>')
  else if ch = '\'' || ch = '"' then s.quotedScalar ch
  else if beginsPlain s.depth ch rest then s.plainScalar
  else .error .malformed

/-- All tokens of the text; every token but the ends of blocks takes at least one character. -/
def run : Nat → Scan → Except Fault (List Token)
  | 0, _ => .error .malformed
  | fuel + 1, s =>
    (s.skipGaps (s.cursor.rest.length + 1)).dropStale.bind fun s =>
      let s := s.unwind s.cursor.column
      match s.cursor.rest with
      | [] => (s.unwind (-1)).dropCandidate.map (·.tokens)
      | ch :: rest => (s.token ch rest).bind (run fuel)

end Scan

def tokens (cs : List Char) : Except Fault (List Token) :=
  if cs.all isPrintable then
    let cursor : Cursor := { rest := cs }
    let cursor := if cs.head?.any (fun c => c.toNat = 0xFEFF) then cursor.next else cursor
    Scan.run (cs.length + 1) { cursor }
  else .error .malformed

end Formulary.Yaml
