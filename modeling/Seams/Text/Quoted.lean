import Seams.Text.Visible

/-! # Text in quotes
Text between double quotes, so that it can be told where it begins and ends.
Main definitions:
* **`hexText`** — a number in hexadecimal digits;
* **`quotedChar`** — how a character is written between quotes;
* **`quoted`** — a text in quotes. -/

namespace Seams.Text

/-- The hexadecimal digit of a number below sixteen. -/
def hexDigit (n : Nat) : Char := if n < 10 then Char.ofNat (48 + n) else Char.ofNat (87 + n)

/-- The lower-case hexadecimal digits of a number, without leading zeros. -/
def hexText (n : Nat) : String := String.ofList ((Nat.toDigits 16 n).map Char.toLower)

/-- The lower-case hexadecimal digits of a number, with zeros in front up to the given width. -/
def hexPadded (width n : Nat) : String :=
  let digits := hexText n
  String.ofList (List.replicate (width - digits.length) '0') ++ digits

/-- How a character is written between double quotes: a few by a letter, those without a shape of
their own by their number, and all others as they are. -/
def quotedChar (c : Char) : List Char :=
  if c == '"' then ['\\', '"']
  else if c == '\\' then ['\\', '\\']
  else if c == '\n' then ['\\', 'n']
  else if c == '\r' then ['\\', 'r']
  else if c == '\t' then ['\\', 't']
  else if c.toNat == 0 then ['\\', '0']
  else if isVisible c then [c]
  else ("\\u\x7b" ++ hexText c.toNat ++ "\x7d").toList

/-- A text in quotes. -/
def quoted (s : String) : String :=
  String.ofList ('"' :: s.toList.flatMap quotedChar ++ ['"'])

/-- Numbers in brackets with commas between them. -/
def bracketed (ns : List Nat) : String := "[" ++ ", ".intercalate (ns.map toString) ++ "]"

end Seams.Text
