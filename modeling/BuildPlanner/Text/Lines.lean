/-!
# Lines of a text

A text is cut at its newlines. A carriage return before a newline belongs to the line end, and an
empty piece after the last newline is no line.
-/

namespace BuildPlanner.Text

/-- Drops one carriage return from the end of a line. -/
def dropReturn (line : List Char) : List Char :=
  match line.reverse with
  | '\r' :: rest => rest.reverse
  | _ => line

/-- The lines among the pieces between newlines: all but the last piece ended in a newline. -/
def linesOfPieces : List (List Char) → List (List Char)
  | [] => []
  | [last] => if last = [] then [] else [last]
  | piece :: pieces => dropReturn piece :: linesOfPieces pieces

/-- The lines of a text, without their ends. -/
def lines (s : String) : List String :=
  (linesOfPieces (s.toList.splitOn '\n')).map .ofList

end BuildPlanner.Text
