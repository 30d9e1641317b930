/-!
# Line ends

A line may end with a carriage return, a line feed, or both; readers see line feeds only.
-/

namespace Formulary.Text

/-- The text with every line end as a single line feed. -/
def unifyLineEnds : List Char → List Char
  | '\r' :: '\n' :: rest => '\n' :: unifyLineEnds rest
  | '\r' :: rest => '\n' :: unifyLineEnds rest
  | c :: rest => c :: unifyLineEnds rest
  | [] => []

end Formulary.Text
