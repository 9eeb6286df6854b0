/-!
# Lines

A text is a sequence of lines, each ended by a line feed or by a carriage return with a line feed.
-/

namespace ImageLabeling.Text

/-- Splits a text into lines. A carriage return before a line feed belongs to the line end, and
the text after the last line feed is a line unless it is empty. -/
def lines (text : List Char) : List (List Char) :=
  let pieces := text.splitOn '\n'
  let ended := pieces.dropLast.map fun line =>
    if line.getLast? = some '\r' then line.dropLast else line
  let last := pieces.getLast?.getD []
  if last = [] then ended else ended ++ [last]

/-- The first line of a text, nothing if it has none. -/
def firstLine (text : String) : String :=
  String.ofList ((lines text.toList).head?.getD [])

end ImageLabeling.Text
