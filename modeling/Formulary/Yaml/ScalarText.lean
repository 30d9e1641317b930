import Formulary.Text.Number
import Formulary.Yaml.Fault
import Formulary.Yaml.Token

/-!
# The texts of scalars

A scalar is written plainly, between quotes, or as a block of lines.  A single line end inside a
plain or quoted scalar stands for a space, and of several the first stands for nothing; a block
keeps its line ends, unless it is a folded one.
-/

namespace Formulary.Yaml

/-! ## 1. Line ends -/

/-- A line end in a scalar and the further ones after it: a single one stands for a space, and of
several the first stands for nothing. -/
def foldBreaks (first : Char) (more : List Char) : List Char :=
  if first != '\n' then first :: more else if more.isEmpty then [' '] else more

/-! ## 2. Plain scalars -/

/-- How many characters at the front belong to a plain scalar, up to a gap or a mark. -/
def plainLength (inBrackets : Bool) : List Char → Nat
  | [] => 0
  | c :: rest =>
    if isGap (some c) then 0
    else if c = ':' && (isGap rest.head? ||
        (inBrackets && rest.head?.any fun d => ",[]\x7b\x7d".toList.contains d)) then 0
    else if inBrackets && ",?[]\x7b\x7d".toList.contains c then 0
    else plainLength inBrackets rest + 1

/-- Line ends and the spaces between them; there is no result where a document starts or ends. -/
def takeBreaks : Nat → Cursor → Option (List Char × Cursor)
  | 0, c => some ([], c)
  | fuel + 1, c =>
    if c.rest.head? == some ' ' then takeBreaks fuel c.next
    else
      match c.takeBreak? with
      | some (b, c) =>
        if startsDocumentMark c.rest then none
        else (takeBreaks fuel c).map fun (breaks, c) => (b :: breaks, c)
      | none => some ([], c)

/-- What stands between two parts of a plain scalar, the cursor after it, and whether it goes over
the end of a line. -/
def plainGap (c : Cursor) : List Char × Cursor × Bool :=
  let (spaces, c) := c.skipWhile (· == ' ')
  match c.takeBreak? with
  | none => (spaces, c, false)
  | some (first, after) =>
    if startsDocumentMark after.rest then ([], after, true)
    else
      match takeBreaks after.rest.length after with
      | none => ([], after, true)
      | some (more, c) => (foldBreaks first more, c, true)

/-- The rest of a plain scalar after a gap, in a block indented as given; the cursor after it, and
whether it ends with a line.  There are at most `fuel` parts. -/
def takePlain (inBrackets : Bool) (indent : Int) : Nat → List Char → Cursor → Bool →
    List Char × Cursor × Bool
  | 0, _, c, broken => ([], c, broken)
  | fuel + 1, gap, c, broken =>
    let length := if c.rest.head? == some '#' then 0 else plainLength inBrackets c.rest
    if length = 0 then ([], c, broken)
    else
      let part := c.rest.take length
      let (nextGap, c, broken) := plainGap (c.advance length)
      if nextGap.isEmpty || c.rest.head? == some '#' || (!inBrackets && c.column < indent) then
        (gap ++ part, c, broken)
      else
        let (more, c, broken) := takePlain inBrackets indent fuel nextGap c broken
        (gap ++ part ++ more, c, broken)

/-! ## 3. Quoted scalars -/

def shortEscape? (c : Char) : Option Char :=
  match c with
  | '0' => some (Char.ofNat 0x00)
  | 'a' => some (Char.ofNat 0x07)
  | 'b' => some (Char.ofNat 0x08)
  | 't' | '\t' => some '\t'
  | 'n' => some '\n'
  | 'v' => some (Char.ofNat 0x0B)
  | 'f' => some (Char.ofNat 0x0C)
  | 'r' => some '\r'
  | 'e' => some (Char.ofNat 0x1B)
  | ' ' | '"' | '\\' | '/' => some c
  | 'N' => some (Char.ofNat 0x85)
  | '_' => some (Char.ofNat 0xA0)
  | 'L' => some (Char.ofNat 0x2028)
  | 'P' => some (Char.ofNat 0x2029)
  | _ => none

/-- The number of hexadecimal digits after the letter of an escape. -/
def escapeDigits? (c : Char) : Option Nat :=
  match c with
  | 'x' => some 2
  | 'u' => some 4
  | 'U' => some 8
  | _ => none

/-- The line ends after a line end in a quoted scalar, with the white space around them.  No
document may start or end there. -/
def quotedBreaks : Nat → Cursor → Option (List Char × Cursor)
  | 0, _ => none
  | fuel + 1, c =>
    if startsDocumentMark c.rest then none
    else
      let (_, c) := c.skipWhile fun ch => ch == ' ' || ch == '\t'
      match c.takeBreak? with
      | some (b, c) => (quotedBreaks fuel c).map fun (breaks, c) => (b :: breaks, c)
      | none => some ([], c)

/-- White space in a quoted scalar, which folds line ends, and the cursor after it. -/
def quotedGap (c : Cursor) : Option (List Char × Cursor) :=
  let (spaces, c) := c.skipWhile fun ch => ch == ' ' || ch == '\t'
  if c.rest.isEmpty then none
  else
    match c.takeBreak? with
    | some (first, c) =>
      (quotedBreaks (c.rest.length + 1) c).map fun (more, c) => (foldBreaks first more, c)
    | none => some (spaces, c)

def escapedChar (n : Nat) : Except Fault Char :=
  if n.isValidChar then .ok (Char.ofNat n)
  else if n ≤ 0x10FFFF then .error .malformed
  else .error (.noSuchCharacter (0x80000000 ≤ n))

/-- An escape, with the cursor after the backslash, and the cursor after it. -/
def takeEscape (c : Cursor) : Except Fault (List Char × Cursor) :=
  match c.rest with
  | [] => .error .malformed
  | ch :: rest =>
    match shortEscape? ch, escapeDigits? ch with
    | some e, _ => .ok ([e], c.next)
    | none, some count =>
      let digits := rest.take count
      if digits.length < count then .error .malformed
      else
        (orMalformed (Text.numberFrom 16 0 digits)).bind fun n =>
          (escapedChar n).map fun e => ([e], c.advance (count + 1))
    | none, none =>
      match c.takeBreak? with
      | some (_, c) => orMalformed (quotedBreaks (c.rest.length + 1) c)
      | none => .error .malformed

/-- The rest of a quoted scalar, and the cursor after the quote that ends it.  Every step takes at
least one character. -/
def takeQuoted (mark : Char) : Nat → Cursor → Except Fault (List Char × Cursor)
  | 0, _ => .error .malformed
  | fuel + 1, c =>
    match c.rest with
    | [] => .error .malformed
    | ch :: rest =>
      if ch = mark then
        if mark = '\'' && rest.head? == some '\'' then
          (takeQuoted mark fuel (c.advance 2)).map fun (more, c) => ('\'' :: more, c)
        else .ok ([], c.next)
      else if mark = '"' && ch = '\\' then
        (takeEscape c.next).bind fun (escaped, c) =>
          (takeQuoted mark fuel c).map fun (more, c) => (escaped ++ more, c)
      else if isGap (some ch) then
        (orMalformed (quotedGap c)).bind fun (gap, c) =>
          (takeQuoted mark fuel c).map fun (more, c) => (gap ++ more, c)
      else (takeQuoted mark fuel c.next).map fun (more, c) => (ch :: more, c)

/-! ## 4. Block scalars -/

/-- What becomes of the line ends at the end of a block scalar: one is kept, none, or all. -/
inductive Ending where
  | one
  | none
  | all
  deriving DecidableEq, Repr

def ending? : Option Char → Option Ending
  | some '+' => some .all
  | some '-' => some .none
  | _ => none

/-- A digit for the indentation of a block scalar; it is not zero. -/
def indentDigit? (ch : Option Char) : Option Nat :=
  ch.bind fun c => if c.isDigit && c != '0' then some (c.toNat - '0'.toNat) else none

/-- The signs after the mark of a block scalar, in any order, and how many there are. -/
def blockSigns (cs : List Char) : Ending × Option Nat × Nat :=
  let first := cs.head?
  let second := cs.tail.head?
  match ending? first, indentDigit? first with
  | some ending, _ =>
    match indentDigit? second with
    | some n => (ending, some n, 2)
    | none => (ending, none, 1)
  | none, some n =>
    match ending? second with
    | some ending => (ending, some n, 2)
    | none => (.one, some n, 1)
  | none, none => (.one, none, 0)

/-- Past the rest of a line that holds nothing but a comment. -/
def skipComment? (c : Cursor) : Option Cursor :=
  let (_, c) := c.skipWhile (· == ' ')
  let c := if c.rest.head? == some '#' then (c.skipWhile fun ch => !isBreak ch).2 else c
  match c.rest with
  | [] => some c
  | _ => c.takeBreak?.map (·.2)

/-- The empty lines in front of a block scalar, the widest indentation seen, and the cursor after
them. -/
def blockStart : Nat → Nat → Cursor → List Char × Nat × Cursor
  | 0, widest, c => ([], widest, c)
  | fuel + 1, widest, c =>
    if c.rest.head? == some ' ' then blockStart fuel (max widest c.next.column) c.next
    else
      match c.takeBreak? with
      | some (b, c) =>
        let (breaks, widest, c) := blockStart fuel widest c
        (b :: breaks, widest, c)
      | none => ([], widest, c)

def skipIndent (indent : Nat) (c : Cursor) : Cursor :=
  let spaces := c.rest.takeWhile (· == ' ')
  c.advance (min spaces.length (indent - c.column))

/-- The empty lines in a block scalar, and the cursor after them and the indentation. -/
def blockBreaks (indent : Nat) : Nat → Cursor → List Char × Cursor
  | 0, c => ([], c)
  | fuel + 1, c =>
    let c := skipIndent indent c
    match c.takeBreak? with
    | some (b, c) =>
      let (breaks, c) := blockBreaks indent fuel c
      (b :: breaks, c)
    | none => ([], c)

def isBlankAt : Option Char → Bool
  | some c => c == ' ' || c == '\t'
  | none => false

/-- The lines of a block scalar after some line ends, up to a line that is indented less; the line
ends after the last line come separately, the one that ends it and those of empty lines. -/
def blockLines (folded : Bool) (indent : Nat) : Nat → List Char → Cursor →
    List Char × List Char × List Char × Cursor
  | 0, breaks, c => ([], [], breaks, c)
  | fuel + 1, breaks, c =>
    if c.column = indent && !c.rest.isEmpty then
      let (line, after) := c.skipWhile fun ch => !isBreak ch
      let (lineEnd, after) :=
        match after.takeBreak? with
        | some (b, after) => ([b], after)
        | none => ([], after)
      let (nextBreaks, after) := blockBreaks indent after.rest.length after
      if after.column = indent && !after.rest.isEmpty then
        let gap :=
          if folded && lineEnd == ['\n'] && !isBlankAt c.rest.head?
              && !isBlankAt after.rest.head? then
            if nextBreaks.isEmpty then [' '] else []
          else lineEnd
        let (more, lastEnd, lastBreaks, after) := blockLines folded indent fuel nextBreaks after
        (breaks ++ line ++ gap ++ more, lastEnd, lastBreaks, after)
      else (breaks ++ line, lineEnd, nextBreaks, after)
    else ([], [], breaks, c)

/-- A block scalar with the cursor after its mark, in a block indented as given, and the cursor
after it. -/
def takeBlock? (folded : Bool) (indent : Int) (c : Cursor) : Option (List Char × Cursor) :=
  let (ending, width, length) := blockSigns c.rest
  let c := c.advance length
  if c.rest.head?.any fun ch => !(ch == ' ' || isBreak ch) then none
  else
    (skipComment? c).map fun c =>
      let least := (max (indent + 1) 1).toNat
      let (breaks, indent, c) :=
        match width with
        | some n =>
          let indent := least + n - 1
          let (breaks, c) := blockBreaks indent (c.rest.length + 1) c
          (breaks, indent, c)
        | none =>
          let (breaks, widest, c) := blockStart (c.rest.length + 1) 0 c
          (breaks, max least widest, c)
      let (text, lineEnd, breaks, c) := blockLines folded indent (c.rest.length + 1) breaks c
      match ending with
      | .one => (text ++ lineEnd, c)
      | .none => (text, c)
      | .all => (text ++ lineEnd ++ breaks, c)

end Formulary.Yaml
