/-!
# Lines of a text

A line ends at a line feed, and a carriage return just before the line feed belongs to the ending.
A last line without a line feed counts when it is not empty, and a carriage return at its end is
kept.
-/

namespace ProofScript.Text

/-- Drops one trailing carriage return from a line whose characters are held in reverse order. -/
def dropReturn : List Char → List Char
  | '\r' :: rest => rest
  | line => line

/-- The lines of a list of characters, where `line` holds the characters of the line being read,
last one first. -/
def linesFrom (line : List Char) : List Char → List String
  | [] => if line.isEmpty then [] else [String.ofList line.reverse]
  | '\n' :: cs => String.ofList (dropReturn line).reverse :: linesFrom [] cs
  | c :: cs => linesFrom (c :: line) cs

/-- The lines of a text, without their endings. -/
def lines (s : String) : List String := linesFrom [] s.toList

end ProofScript.Text
