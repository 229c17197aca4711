/-! # Lines of a text

A line ends at a line feed, and one carriage return directly before the line feed belongs to the
line's end. What follows the last line feed is a line only if it is not empty.
-/

namespace TypedJson.Text

def dropCarriageReturn (line : List Char) : List Char :=
  if line.getLast? = some '\r' then line.dropLast else line

/-- The lines of the segments between line feeds: all but the last segment were ended by one. -/
def linesOfSegments : List (List Char) → List (List Char)
  | [] => []
  | [last] => if last.isEmpty then [] else [last]
  | line :: others => dropCarriageReturn line :: linesOfSegments others

def lines (text : List Char) : List (List Char) := linesOfSegments (text.splitOn '\n')

/-- The characters after the last line feed. -/
def lastLine (text : List Char) : List Char :=
  (text.reverse.takeWhile (· != '\n')).reverse

end TypedJson.Text
