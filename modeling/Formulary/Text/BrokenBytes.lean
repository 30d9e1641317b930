import Formulary.Text.Encoding
import Formulary.Text.Quoted

/-!
# Where bytes are no text

The first place at which bytes are no text in the eight-bit encoding of the whole character set: the
bytes there are the beginning of a character, as far as they go, and one of three things is wrong
with them.
-/

namespace Formulary.Text

/-- What is wrong at a broken place: the first byte begins no character, a later byte does not
continue it, or the bytes end too early. -/
inductive BreakCause where
  | badStart
  | badContinuation
  | cutOff
  deriving DecidableEq, Repr

/-- A broken place: its first byte, where it is, how many bytes it has, and what is wrong. -/
structure Break where
  byte : UInt8
  position : Nat
  length : Nat
  cause : BreakCause
  deriving DecidableEq, Repr

def BreakCause.message : BreakCause → String
  | .badStart => "invalid start byte"
  | .badContinuation => "invalid continuation byte"
  | .cutOff => "unexpected end of data"

def Break.message (b : Break) : String :=
  let place :=
    if b.length = 1 then
      "byte 0x" ++ String.ofList (hexDigits 2 b.byte.toNat) ++ " in position " ++
        toString b.position
    else
      "bytes in position " ++ toString b.position ++ "-" ++ toString (b.position + b.length - 1)
  "'utf-8' codec can't decode " ++ place ++ ": " ++ b.cause.message

/-- How many bytes continue a character with the given first byte. -/
def continuations? (a : UInt8) : Option Nat :=
  if 0xC2 ≤ a && a < 0xE0 then some 1
  else if 0xE0 ≤ a && a < 0xF0 then some 2
  else if 0xF0 ≤ a && a < 0xF5 then some 3
  else none

/-- Can the first byte be followed by the second?  The shortest form is required, and there are no
surrogates. -/
def mayFollow (a b : UInt8) : Bool :=
  (continuation? b).isSome &&
    (if a = 0xE0 then 0xA0 ≤ b
      else if a = 0xED then b < 0xA0
      else if a = 0xF0 then 0x90 ≤ b
      else if a = 0xF4 then b < 0x90
      else true)

/-- How many bytes belong to a character with the given first byte and number of continuations, as
far as it goes. -/
def soundLength (a : UInt8) (wanted : Nat) : List UInt8 → Nat
  | [] => 1
  | b :: rest =>
    if mayFollow a b then
      2 + ((rest.take (wanted - 1)).takeWhile fun c => (continuation? c).isSome).length
    else 1

/-- The broken place at the start of some bytes, with the given number of bytes before it.  What is
cut off is looked at once more on its own, so nothing is before it. -/
def breakAt? (before : Nat) : List UInt8 → Option Break
  | [] => none
  | a :: rest =>
    match continuations? a with
    | none => some ⟨a, before, 1, .badStart⟩
    | some wanted =>
      let length := soundLength a wanted rest
      if length = rest.length + 1 then some ⟨a, 0, length, .cutOff⟩
      else some ⟨a, before, length, .badContinuation⟩

/-- The text of some bytes, or the first place where they are none. -/
def textOfBytes (bytes : List UInt8) : Except Break String :=
  let decoded := decodeUtf8 bytes
  let text := String.ofList decoded.chars
  if decoded.intact then .ok text
  else
    match breakAt? text.utf8ByteSize (bytes.drop text.utf8ByteSize) with
    | some place => .error place
    | none => .ok text

end Formulary.Text
