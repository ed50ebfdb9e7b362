/-! # Lines of a text
Main definitions:
* **`Diff.lines`** — the lines of a text, each with its line end;
* **`Diff.isEnded`** — whether a line has a line end. -/

namespace Seams.Diff

/-- The lines of a text, each with its line end: a line feed, a carriage return, or both. The first
argument is the line so far, its last character first. -/
def linesFrom (line : List Char) : List Char → List (List Char)
  | [] => if line.isEmpty then [] else [line.reverse]
  | '\r' :: '\n' :: cs => ('\n' :: '\r' :: line).reverse :: linesFrom [] cs
  | c :: cs =>
    if c == '\r' || c == '\n' then (c :: line).reverse :: linesFrom [] cs
    else linesFrom (c :: line) cs

/-- The lines of a text, each with its line end. -/
def lines (s : String) : List String := (linesFrom [] s.toList).map String.ofList

/-- Whether a line has a line end. -/
def isEnded (line : String) : Bool := line.endsWith "\n" || line.endsWith "\r"

end Seams.Diff
