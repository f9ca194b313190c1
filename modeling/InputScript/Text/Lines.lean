/-!
# `InputScript.Text.Lines`: the lines of a text

A line ends at a line feed, and a carriage return just before that line feed belongs to
the line end. A last line that is empty is no line, and a carriage return at the very end
of the text stays.
-/

set_option autoImplicit false

namespace InputScript.Text

/-- Drops one carriage return at the end. -/
def dropReturn (cs : List Char) : List Char :=
  match cs.getLast? with
  | some '\r' => cs.dropLast
  | _ => cs

/-- The lines of a text. All pieces but the last were ended by a line feed. -/
def linesOf (cs : List Char) : List (List Char) :=
  let pieces := cs.splitOn '\n'
  let last := pieces.getLastD []
  pieces.dropLast.map dropReturn ++ if last.isEmpty then [] else [last]

/-- The lines of a text. -/
def lines (s : String) : List String :=
  (linesOf s.toList).map String.ofList

example : lines "" = [] := by decide
example : lines "a\r\n\nb\r" = ["a", "", "b\r"] := by decide

end InputScript.Text
