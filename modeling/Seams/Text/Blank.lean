/-! # White space in text
White space is the Unicode property of that name; case is folded for ASCII letters alone.
Main definitions:
* **`isBlank`** — whether a character is white space;
* **`trim`** — a text without white space at its ends;
* **`foldCase`** — a text with its ASCII letters in lower case. -/

namespace Seams.Text

/-- Whether a character is white space. -/
def isBlank (c : Char) : Bool :=
  let n := c.toNat
  (0x09 ≤ n && n ≤ 0x0d) || n == 0x20 || n == 0x85 || n == 0xa0 || n == 0x1680
    || (0x2000 ≤ n && n ≤ 0x200a) || n == 0x2028 || n == 0x2029 || n == 0x202f || n == 0x205f
    || n == 0x3000

/-- Characters without white space at their ends. -/
def trimChars (cs : List Char) : List Char :=
  ((cs.dropWhile isBlank).reverse.dropWhile isBlank).reverse

/-- A text without white space at its ends. -/
def trim (s : String) : String := String.ofList (trimChars s.toList)

/-- Whether a text holds nothing but white space. -/
def isBlankText (s : String) : Bool := s.toList.all isBlank

/-- An ASCII letter in lower case, every other character as it is. -/
def foldChar (c : Char) : Char := if 'A' ≤ c ∧ c ≤ 'Z' then Char.ofNat (c.toNat + 32) else c

/-- A text with its ASCII letters in lower case. -/
def foldCase (s : String) : String := String.ofList (s.toList.map foldChar)

/-- The lines of a text, without their line feeds. A line feed at the end begins no further line,
and a carriage return before a line feed belongs to the line end. -/
def lines (s : String) : List String :=
  let parts := s.splitOn "\n"
  let all := if parts.getLast? == some "" then parts.dropLast else parts
  let last := all.length - 1
  all.mapIdx fun i l =>
    let ended := i < last || parts.getLast? == some ""
    if ended && l.endsWith "\r" then String.ofList l.toList.dropLast else l

end Seams.Text
