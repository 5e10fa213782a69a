/-!
# Lines of a text

Two notions of a line end: the three of a text file, where a carriage return with or without a line
feed counts as one line feed, and the wider set of the Unicode standard, used to cut a message into
lines.
-/

namespace FlowPlan.Text

/-- Every line end of a text file becomes a line feed. -/
def unifyNewlines : List Char → List Char
  | '\r' :: '\n' :: cs => '\n' :: unifyNewlines cs
  | c :: cs => (if c = '\r' then '\n' else c) :: unifyNewlines cs
  | [] => []

/-- The pieces between line feeds. -/
def fileLines (cs : List Char) : List (List Char) :=
  (unifyNewlines cs).splitOn '\n'

/-- Line feed, vertical tab, form feed, carriage return, the file, group and record separators, next
line, and the line and paragraph separators. -/
def lineEnds : List Nat := [0x0A, 0x0B, 0x0C, 0x0D, 0x1C, 0x1D, 0x1E, 0x85, 0x2028, 0x2029]

def isLineEnd (c : Char) : Bool := lineEnds.contains c.toNat

/-- The lines of a message; `current` is the line being read, backwards. A line end at the very end
opens no further line. -/
def messageLinesFrom (current : List Char) : List Char → List (List Char)
  | [] => if current.isEmpty then [] else [current.reverse]
  | '\r' :: '\n' :: cs => current.reverse :: messageLinesFrom [] cs
  | c :: cs =>
    if isLineEnd c then current.reverse :: messageLinesFrom [] cs
    else messageLinesFrom (c :: current) cs

/-- The lines of a message, cut at every Unicode line end. -/
def messageLines (s : String) : List String := (messageLinesFrom [] s.toList).map String.ofList

end FlowPlan.Text
