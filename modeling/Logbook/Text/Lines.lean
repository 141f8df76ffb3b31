import Logbook.Text.Basic

/-!
# Lines

The lines of a text. A line ends at a line feed, a carriage return right before it belongs to the
end, and there is no empty line after the last line feed. The last line, when nothing ends it,
keeps its carriage return.
-/

namespace Logbook.Text

def dropReturn (line : Text) : Text :=
  if line.getLast? = some '\r' then line.dropLast else line

def lines (text : Text) : List Text :=
  let pieces := splitOn '\n' text
  let last := pieces.getLast?.getD []
  pieces.dropLast.map dropReturn ++ (if last = [] then [] else [last])

end Logbook.Text
