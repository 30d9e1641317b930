import Formulary.Text.Encoding
import Formulary.Text.Number
import Formulary.Yaml.ScalarText

/-!
# Properties and directives

A value may have an anchor, by which it can be referred to later, and a tag, which says what kind of
value it is.  A tag begins with a handle, a short form that directives in front of the document
define, unless it is written out between angle brackets.
-/

namespace Formulary.Yaml

/-! ## 1. Names -/

def isNameChar (c : Char) : Bool :=
  c.isAlphanum || c == '-' || c == '_'

/-- Does a line end here, or a space stand here? -/
def endsWord (c : Cursor) : Bool :=
  c.rest.head?.all fun ch => ch == ' ' || isBreak ch

def takeAnchorName? (c : Cursor) : Option (String × Cursor) :=
  let (name, c) := c.skipWhile isNameChar
  let isEnd (ch : Char) : Bool := isGap (some ch) || "?:,]\x7d%@\x60".toList.contains ch
  if !name.isEmpty && c.rest.head?.all isEnd then some (String.ofList name, c) else none

/-! ## 2. Tags -/

def isTagChar (c : Char) : Bool :=
  c.isAlphanum || "-;/?:@&=+$,_.!~*'()[]".toList.contains c

/-- Bytes that are written by two hexadecimal digits after a percent sign, and the rest. -/
def takeBytes? : List Char → Option (List UInt8 × List Char)
  | '%' :: a :: b :: rest =>
    match Text.hexValue? a, Text.hexValue? b with
    | some high, some low =>
      (takeBytes? rest).map fun (bytes, rest) => (UInt8.ofNat (high * 16 + low) :: bytes, rest)
    | _, _ => none
  | '%' :: _ => none
  | cs => some ([], cs)

/-- The rest of a tag, and how many characters it takes.  A run of bytes has to be a text. -/
def tagRest? : Nat → List Char → Option (List Char × Nat)
  | 0, _ => none
  | fuel + 1, cs =>
    match cs with
    | [] => some ([], 0)
    | c :: rest =>
      if c = '%' then
        (takeBytes? cs).bind fun (bytes, rest) =>
          let decoded := Text.decodeUtf8 bytes
          if decoded.intact then
            (tagRest? fuel rest).map fun (more, length) =>
              (decoded.chars ++ more, 3 * bytes.length + length)
          else none
      else if isTagChar c then
        (tagRest? fuel rest).map fun (more, length) => (c :: more, length + 1)
      else some ([], 0)

/-- The rest of a tag at the cursor, and the cursor after it; it is not empty. -/
def takeTagRest? (c : Cursor) : Option (String × Cursor) :=
  (tagRest? (c.rest.length + 1) c.rest).bind fun (text, length) =>
    if length = 0 then none else some (String.ofList text, c.advance length)

/-- The handle at the cursor, and the cursor after it: a name between exclamation marks, or a single
one before a space. -/
def takeHandle? (c : Cursor) : Option (String × Cursor) :=
  match c.rest with
  | '!' :: ' ' :: _ => some ("!", c.next)
  | '!' :: rest =>
    let name := rest.takeWhile isNameChar
    if (rest.dropWhile isNameChar).head? == some '!' then
      some (String.ofList ('!' :: name ++ ['!']), c.advance (name.length + 2))
    else none
  | _ => none

def takeTag? (c : Cursor) : Option (Option String × String × Cursor) :=
  let parts :=
    match c.next.rest with
    | '<' :: _ =>
      (takeTagRest? (c.advance 2)).bind fun (rest, c) =>
        if c.rest.head? == some '>' then some (none, rest, c.next) else none
    | following =>
      if isGap following.head? then some (none, "!", c.next)
      else
        let word := following.takeWhile fun ch => !(ch == ' ' || isBreak ch)
        if word.contains '!' then
          (takeHandle? c).bind fun (handle, c) =>
            (takeTagRest? c).map fun (rest, c) => (some handle, rest, c)
        else (takeTagRest? c.next).map fun (rest, c) => (some "!", rest, c)
  parts.filter fun (_, _, c) => endsWord c

/-! ## 3. Directives -/

def takeNumber? (c : Cursor) : Option (Nat × Cursor) :=
  let (digits, c) := c.skipWhile Char.isDigit
  (Text.numberFrom 10 0 digits).map (·, c)

def skipSpaces (c : Cursor) : Cursor :=
  (c.skipWhile (· == ' ')).2

def takeVersion? (c : Cursor) : Option (Directive × Cursor) :=
  (takeNumber? (skipSpaces c)).bind fun (major, c) =>
    if c.rest.head? == some '.' then
      (takeNumber? c.next).bind fun (_, c) =>
        if endsWord c then some (.version major, c) else none
    else none

def takeDefinition? (c : Cursor) : Option (Directive × Cursor) :=
  (takeHandle? (skipSpaces c)).bind fun (name, c) =>
    if c.rest.head? == some ' ' then
      (takeTagRest? (skipSpaces c)).bind fun (uri, c) =>
        if endsWord c then some (.handle name uri, c) else none
    else none

/-- A directive with the cursor after its percent sign, and the cursor after its line. -/
def takeDirective? (c : Cursor) : Option (Directive × Cursor) :=
  let (name, c) := c.skipWhile isNameChar
  if name.isEmpty || !endsWord c then none
  else
    let content :=
      if name = "YAML".toList then takeVersion? c
      else if name = "TAG".toList then takeDefinition? c
      else some (.other, (c.skipWhile fun ch => !isBreak ch).2)
    content.bind fun (directive, c) => (skipComment? c).map (directive, ·)

end Formulary.Yaml
