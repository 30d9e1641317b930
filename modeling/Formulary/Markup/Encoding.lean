import Formulary.Markup.Reader
import Formulary.Text.EncodingName

/-!
# Markup as bytes

The encoding of a document shows in its first two bytes or is declared at its start; without either
it is the eight-bit encoding of the whole character set.  A document whose bytes are not characters
in its encoding is malformed, but what comes before the broken place has been read by then: an
entity declared there is refused first.
-/

namespace Formulary.Markup

open Text (Encoding)

/-! ## 1. Choosing the encoding -/

/-- The encoding that the first bytes show, and the bytes after a byte order mark. -/
def sniff : List UInt8 → Encoding × List UInt8
  | 0xFE :: 0xFF :: rest => (.utf16 true, rest)
  | 0xFF :: 0xFE :: rest => (.utf16 false, rest)
  | 0xEF :: 0xBB :: 0xBF :: rest => (.utf8, rest)
  | 0x00 :: b :: rest => (.utf16 true, 0x00 :: b :: rest)
  | a :: 0x00 :: rest => (.utf16 false, a :: 0x00 :: rest)
  | bytes => (.utf8, bytes)

/-- The name with each run of signs as one low line, and none at the end. -/
def joinedName (name : List Char) : String :=
  let isGap (c : Char) : Bool := !c.isAlphanum && c != '.'
  String.ofList ((tidy isGap name).map fun c => if c = ' ' then '_' else c)

/-- The encoding for a name that the rules of markup do not mention.  It has units of one byte. -/
def furtherEncoding (name : List Char) : Except Fault Encoding :=
  match Text.Scheme.ofName? (joinedName (name.map Char.toLower)) with
  | some (.readable encoding) => .ok encoding
  | some .multibyte => .error .multibyteEncoding
  | some .foreign => .error .malformed
  | some .transform => .error (.notOfTexts (String.ofList name))
  | none => .error (.unknownEncoding (String.ofList name))

/-- The encoding to use for a document that shows one encoding and declares a name; a declared
encoding must have units of the size that the document shows. -/
def declaredEncoding (shown : Encoding) (name : List Char) : Except Fault Encoding :=
  match shown, String.ofList (name.map Char.toLower) with
  | .utf16 bigEndian, "utf-16" => .ok (.utf16 bigEndian)
  | .utf16 true, "utf-16be" => .ok (.utf16 true)
  | .utf16 false, "utf-16le" => .ok (.utf16 false)
  | .utf16 _, "utf-8" => .error .malformed
  | _, "utf-8" => .ok .utf8
  | _, "utf-16" => .error .malformed
  | _, "utf-16be" => .error .malformed
  | _, "utf-16le" => .error .malformed
  | .utf16 _, _ => (furtherEncoding name).bind fun _ => .error .malformed
  | _, _ => furtherEncoding name

def lettersOf (shown : Encoding) (name : Option (List Char)) : Alphabet :=
  match shown with
  | .utf16 _ => .extended
  | _ =>
    match name.map fun name => String.ofList (name.map Char.toLower) with
    | some "iso-8859-1" => .extended
    | _ => .usual

/-! ## 2. Documents -/

/-- A document whose declaration has been read: what is known from it, the characters after it, and
whether all bytes were characters. -/
structure Opened where
  setting : Setting
  rest : List Char
  intact : Bool

/-- The document of some bytes in an encoding.  The declaration has the letters of `shown`. -/
def openAs (shown encoding : Encoding) (bytes : List UInt8) : Except Fault Opened :=
  let decoded := encoding.decode bytes
  let declared := orMalformed (takeDeclaration (lettersOf shown none) decoded.chars)
  declared.map fun (declaration, rest) =>
    { setting := ⟨declaration.standalone, lettersOf shown declaration.encoding⟩,
      rest,
      intact := decoded.intact }

def openDocument (bytes : List UInt8) : Except Fault Opened :=
  let (shown, bytes) := sniff bytes
  match takeDeclaration (lettersOf shown none) (shown.decode bytes).chars with
  | none => .error .malformed
  | some (⟨none, _⟩, _) => openAs shown shown bytes
  | some (⟨some name, _⟩, _) =>
    (declaredEncoding shown name).bind fun encoding => openAs shown encoding bytes

def readBytes (bytes : List UInt8) : Except Fault Element :=
  (openDocument bytes).bind fun document =>
    (readBody document.setting document.rest).bind fun e =>
      if document.intact then .ok e else .error .malformed

end Formulary.Markup
