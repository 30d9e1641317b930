/-!
# Plain text

Codes that style the text of a terminal are not printed.  A code is an escape, a bracket, any number
of digits, semicolons and question marks, and a letter.
-/

namespace Formulary.CommandLine

/-- Characters between the bracket and the letter of a code. -/
def isParameter (c : Char) : Bool :=
  c.isDigit || c = ';' || c = '?'

/-- What comes after a code whose escape has been taken. -/
def afterCode? : List Char → Option (List Char)
  | '[' :: cs =>
    match cs.dropWhile isParameter with
    | c :: rest => if c.isAlpha then some rest else none
    | [] => none
  | _ => none

theorem length_afterCode? {cs rest : List Char} (h : afterCode? cs = some rest) :
    rest.length < cs.length := by
  unfold afterCode? at h
  split at h
  · next cs =>
    have hle : (cs.dropWhile isParameter).length ≤ cs.length :=
      (List.dropWhile_suffix isParameter).length_le
    split at h
    · next c tail heq =>
      simp only [heq, List.length_cons] at hle
      split at h
      · cases h
        simp only [List.length_cons]
        omega
      · cases h
    · cases h
  · cases h

/-- What comes after a code, if one is at the start. -/
def takeCode? (c : Char) (cs : List Char) : Option (List Char) :=
  if c = '\x1b' then afterCode? cs else none

theorem length_takeCode? {c : Char} {cs rest : List Char} (h : takeCode? c cs = some rest) :
    rest.length < cs.length := by
  unfold takeCode? at h
  split at h
  · exact length_afterCode? h
  · cases h

def dropCodes : List Char → List Char
  | [] => []
  | c :: cs =>
    match h : takeCode? c cs with
    | some rest =>
      have := length_takeCode? h
      dropCodes rest
    | none => c :: dropCodes cs
termination_by cs => cs.length
decreasing_by all_goals simp only [List.length_cons]; omega

def plain (s : String) : String :=
  String.ofList (dropCodes s.toList)

end Formulary.CommandLine
