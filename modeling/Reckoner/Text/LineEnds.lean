/-!
# Line ends

A text read from a file has one line end, the line feed, whichever of the three usual ones the file
was written with.
-/

namespace Reckoner.Text

/-- A carriage return, alone or before a line feed, becomes one line feed. -/
def unifiedLineEnds : List Char → List Char
  | [] => []
  | '\r' :: '\n' :: rest => '\n' :: unifiedLineEnds rest
  | c :: rest => (if c = '\r' then '\n' else c) :: unifiedLineEnds rest

end Reckoner.Text
