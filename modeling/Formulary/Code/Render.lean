import Formulary.Code.Emission
import Formulary.Code.PowerCall

/-!
# Rendering: an expression on one line

The last statement of the code of a tree, without declarations, with powers written by `^` and
without line ends.  A tree for which there is no code is rendered as a message.
-/

namespace Formulary.Code

/-- The parts of a text between the semicolons. -/
def statements : List Char → List (List Char)
  | [] => [[]]
  | c :: rest =>
    if c = ';' then [] :: statements rest
    else match statements rest with
      | first :: more => (c :: first) :: more
      | [] => [[c]]

/-- The last statement that says something. -/
def lastStatement? (code : List Char) : Option (List Char) :=
  ((statements code).filter fun s => !Text.isBlank s).getLast?

def expressionLine (powerFunction : String) (code : String) : String :=
  match lastStatement? code.toList with
  | none => ""
  | some statement =>
    String.ofList ((callsAsPowers powerFunction.toList statement).filter fun c =>
      c != '\r' && c != '\n')

def failureText (fault : Fault) : String :=
  "Failed to render expression! " ++ fault.message

/-- The expression of a tree on one line. -/
def render (options : Options) (n : Node) : String :=
  match emit options n with
  | .ok code => expressionLine options.powerFunction code
  | .error fault => failureText fault

end Formulary.Code
