/-!
Line ends. A text file may end its lines with a carriage return, a line feed or both; what reads it
sees line feeds.
-/

namespace SpreadWatch.Text

/-- A text with every line end written as a line feed. -/
def unifyLineEnds : List Char → List Char
  | '\r' :: '\n' :: rest => '\n' :: unifyLineEnds rest
  | '\r' :: rest => '\n' :: unifyLineEnds rest
  | c :: rest => c :: unifyLineEnds rest
  | [] => []

end SpreadWatch.Text
