/-!
# Lines

A line feed ends a line, and a carriage return right before it belongs to the
line end. What follows the last line feed is a line of its own unless it is
empty; a carriage return at its end stays, as no line feed follows.
-/

namespace HackStack.Text

/-- The text without a carriage return at its end. -/
def dropReturn (s : List Char) : List Char :=
  if s.getLast? = some '\r' then s.dropLast else s

/-- The lines of a text, without their line ends. -/
def lines (s : List Char) : List (List Char) :=
  let pieces := s.splitOn '\n'
  pieces.dropLast.map dropReturn ++ pieces.getLast?.toList.filter (!·.isEmpty)

example : lines ['a', '\r', '\n', '\n', 'b', '\r'] = [['a'], [], ['b', '\r']] := by decide

/-- The lines joined by line feeds, with a line feed at the end. No lines give a lone line feed. -/
def joinLines (ls : List String) : String :=
  "\n".intercalate ls ++ "\n"

/-- The text with the margin in front of every line but the first. -/
def indentRest (margin text : String) : String :=
  ("\n" ++ margin).intercalate ((text.toList.splitOn '\n').map String.ofList)

end HackStack.Text
