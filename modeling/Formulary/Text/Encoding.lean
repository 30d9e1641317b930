/-!
# Encodings: texts as bytes

Encodings of texts.  Bytes that are no characters in an encoding leave the text broken at that
place; the characters before it are known all the same.
-/

namespace Formulary.Text

inductive Encoding where
  | utf8
  | latin1
  | ascii
  | utf16 (bigEndian : Bool)
  | page (upper : List Char)
  deriving DecidableEq, Repr

/-- The characters of some bytes up to the first place that is broken, and whether there is none. -/
structure Decoded where
  chars : List Char
  intact : Bool

def Decoded.push (d : Decoded) (c : Char) : Decoded :=
  { d with chars := c :: d.chars }

def Decoded.broken : Decoded := ⟨[], false⟩

/-- The character with the given code point, before what is decoded after it. -/
def pushCode (n : Nat) (d : Decoded) : Decoded :=
  if n.isValidChar then d.push (Char.ofNat n) else .broken

/-- The value of a byte that continues a character. -/
def continuation? (b : UInt8) : Option Nat :=
  if 0x80 ≤ b && b < 0xC0 then some (b.toNat - 0x80) else none

/-- Bytes of the eight-bit encoding of the whole character set, in the shortest form only. -/
def decodeUtf8 : List UInt8 → Decoded
  | [] => ⟨[], true⟩
  | a :: rest =>
    if a < 0x80 then (decodeUtf8 rest).push (Char.ofNat a.toNat)
    else
      match rest with
      | [] => .broken
      | b :: rest =>
        match continuation? b with
        | none => .broken
        | some y =>
          if 0xC2 ≤ a && a < 0xE0 then pushCode ((a.toNat - 0xC0) * 0x40 + y) (decodeUtf8 rest)
          else
            match rest with
            | [] => .broken
            | c :: rest =>
              match continuation? c with
              | none => .broken
              | some z =>
                if 0xE0 ≤ a && a < 0xF0 then
                  let n := ((a.toNat - 0xE0) * 0x40 + y) * 0x40 + z
                  if n < 0x800 then .broken else pushCode n (decodeUtf8 rest)
                else
                  match rest with
                  | [] => .broken
                  | d :: rest =>
                    match continuation? d with
                    | none => .broken
                    | some w =>
                      let n := (((a.toNat - 0xF0) * 0x40 + y) * 0x40 + z) * 0x40 + w
                      if a < 0xF0 || 0xF5 ≤ a || n < 0x10000 then .broken
                      else pushCode n (decodeUtf8 rest)

/-- Bytes that are code points. -/
def decodeLatin1 (bytes : List UInt8) : Decoded :=
  ⟨bytes.map fun b => Char.ofNat b.toNat, true⟩

def decodeAscii (bytes : List UInt8) : Decoded :=
  ⟨(bytes.takeWhile (· < 0x80)).map fun b => Char.ofNat b.toNat, bytes.all (· < 0x80)⟩

def unitOf (bigEndian : Bool) (a b : UInt8) : Nat :=
  if bigEndian then a.toNat * 0x100 + b.toNat else b.toNat * 0x100 + a.toNat

/-- Units of two bytes.  A leading surrogate and the unit after it make one character; of the second
unit, only the ten lowest bits count. -/
def decodeUtf16 (bigEndian : Bool) : List UInt8 → Decoded
  | [] => ⟨[], true⟩
  | [_] => .broken
  | a :: b :: rest =>
    let high := unitOf bigEndian a b
    if 0xD800 ≤ high && high < 0xDC00 then
      match rest with
      | c :: d :: rest =>
        pushCode ((high - 0xD800) * 0x400 + unitOf bigEndian c d % 0x400 + 0x10000)
          (decodeUtf16 bigEndian rest)
      | _ => .broken
    else pushCode high (decodeUtf16 bigEndian rest)

def pageChar? (upper : List Char) (b : UInt8) : Option Char :=
  if b < 0x80 then some (Char.ofNat b.toNat)
  else upper[b.toNat - 0x80]?.filter (· != '\ufffd')

def decodePage (upper : List Char) : List UInt8 → Decoded
  | [] => ⟨[], true⟩
  | b :: rest =>
    match pageChar? upper b with
    | some c => (decodePage upper rest).push c
    | none => .broken

def Encoding.decode : Encoding → List UInt8 → Decoded
  | .utf8 => decodeUtf8
  | .latin1 => decodeLatin1
  | .ascii => decodeAscii
  | .utf16 bigEndian => decodeUtf16 bigEndian
  | .page upper => decodePage upper

end Formulary.Text
