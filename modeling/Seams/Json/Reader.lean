import Seams.Json.Value

/-! # Reading JSON
Main definitions:
* **`JsonValue.string?`** — a string from behind its opening quote;
* **`JsonValue.read?`** — the value of a document. -/

namespace Seams.JsonValue

/-- White space between the parts of a document. -/
def isSpace (c : Char) : Bool := c == ' ' || c == '\t' || c == '\n' || c == '\r'

/-- What is left behind white space. -/
def skipSpace (cs : List Char) : List Char := cs.dropWhile isSpace

/-! ## Strings -/

/-- The value of a hexadecimal digit. -/
def hexValue? (c : Char) : Option Nat :=
  if '0' ≤ c ∧ c ≤ '9' then some (c.toNat - 48)
  else if 'a' ≤ c ∧ c ≤ 'f' then some (c.toNat - 87)
  else if 'A' ≤ c ∧ c ≤ 'F' then some (c.toNat - 55)
  else none

/-- The number given by four hexadecimal digits, and what is left. -/
def hexUnit? : List Char → Option (Nat × List Char)
  | a :: b :: c :: d :: cs => do
    some ((((← hexValue? a) * 16 + (← hexValue? b)) * 16 + (← hexValue? c)) * 16 + (← hexValue? d),
      cs)
  | _ => none

/-- The character given by four hexadecimal digits, or by twice as many if the first four are the
first half of a pair, and what is left. -/
def unitChar? (cs : List Char) : Option (Char × List Char) := do
  let (high, cs) ← hexUnit? cs
  if high < 0xd800 ∨ 0xdfff < high then some (Char.ofNat high, cs)
  else match cs with
    | '\\' :: 'u' :: cs =>
      let (low, cs) ← hexUnit? cs
      if high < 0xdc00 ∧ 0xdc00 ≤ low ∧ low ≤ 0xdfff then
        some (Char.ofNat (0x10000 + (high - 0xd800) * 0x400 + (low - 0xdc00)), cs)
      else none
    | _ => none

/-- The character that is written behind a backslash, and what is left. -/
def escape? : List Char → Option (Char × List Char)
  | '"' :: cs => some ('"', cs)
  | '\\' :: cs => some ('\\', cs)
  | '/' :: cs => some ('/', cs)
  | 'b' :: cs => some (Char.ofNat 8, cs)
  | 'f' :: cs => some (Char.ofNat 12, cs)
  | 'n' :: cs => some ('\n', cs)
  | 'r' :: cs => some ('\r', cs)
  | 't' :: cs => some ('\t', cs)
  | 'u' :: cs => unitChar? cs
  | _ => none

/-- The characters of a string from behind its opening quote, and what is left. The fuel is the
number of characters that there may be. -/
def string? (fuel : Nat) (cs : List Char) : Option (List Char × List Char) :=
  match fuel, cs with
  | fuel + 1, c :: cs =>
    if c == '"' then some ([], cs)
    else if c == '\\' then do
      let (e, cs) ← escape? cs
      let (chars, cs) ← string? fuel cs
      some (e :: chars, cs)
    else if 0x20 ≤ c.toNat then do
      let (chars, cs) ← string? fuel cs
      some (c :: chars, cs)
    else none
  | _, _ => none

/-! ## Numbers -/

/-- The digits at the beginning, at least one, and what is left. -/
def digits? (cs : List Char) : Option (List Char × List Char) :=
  let digits := cs.takeWhile Char.isDigit
  if digits.isEmpty then none else some (digits, cs.drop digits.length)

/-- The whole part of a number, without further zeros in front, and what is left. -/
def whole? (cs : List Char) : Option (List Char × List Char) :=
  match cs with
  | '0' :: cs => if (cs.takeWhile Char.isDigit).isEmpty then some (['0'], cs) else none
  | cs => digits? cs

/-- The fraction of a number, if there is one, and what is left. -/
def fraction? (cs : List Char) : Option (List Char × List Char) :=
  match cs with
  | '.' :: cs => (digits? cs).map fun (digits, cs) => ('.' :: digits, cs)
  | cs => some ([], cs)

/-- The exponent of a number, if there is one, and what is left. -/
def exponent? (cs : List Char) : Option (List Char × List Char) :=
  match cs with
  | c :: cs =>
    if c == 'e' || c == 'E' then
      let (sign, cs) := match cs with
        | '+' :: cs => (['+'], cs)
        | '-' :: cs => (['-'], cs)
        | cs => ([], cs)
      (digits? cs).map fun (digits, cs) => (c :: sign ++ digits, cs)
    else some ([], c :: cs)
  | [] => some ([], [])

/-- The number at the beginning, and what is left. -/
def number? (cs : List Char) : Option (List Char × List Char) := do
  let (sign, cs) := match cs with
    | '-' :: cs => (['-'], cs)
    | cs => ([], cs)
  let (whole, cs) ← whole? cs
  let (fraction, cs) ← fraction? cs
  let (exponent, cs) ← exponent? cs
  some (sign ++ whole ++ fraction ++ exponent, cs)

/-! ## Values -/

mutual

/-- The value at the beginning, and what is left. The fuel is the number of characters that there
may be. -/
def value? (fuel : Nat) (cs : List Char) : Option (JsonValue × List Char) :=
  match fuel with
  | 0 => none
  | fuel + 1 =>
    match skipSpace cs with
    | 'n' :: 'u' :: 'l' :: 'l' :: cs => some (.null, cs)
    | 't' :: 'r' :: 'u' :: 'e' :: cs => some (.flag true, cs)
    | 'f' :: 'a' :: 'l' :: 's' :: 'e' :: cs => some (.flag false, cs)
    | '"' :: cs => (string? (cs.length + 1) cs).map fun (s, cs) => (.text (String.ofList s), cs)
    | '[' :: cs =>
      match skipSpace cs with
      | ']' :: cs => some (.list [], cs)
      | cs => (values? fuel cs).map fun (vs, cs) => (.list vs, cs)
    | '\x7b' :: cs =>
      match skipSpace cs with
      | '\x7d' :: cs => some (.record [], cs)
      | cs => (members? fuel cs).map fun (ms, cs) => (.record ms, cs)
    | cs => (number? cs).map fun (literal, cs) => (.number literal, cs)

/-- The values of an array, at least one, up to its end, and what is left. -/
def values? (fuel : Nat) (cs : List Char) : Option (List JsonValue × List Char) :=
  match fuel with
  | 0 => none
  | fuel + 1 => do
    let (v, cs) ← value? fuel cs
    match skipSpace cs with
    | ']' :: cs => some ([v], cs)
    | ',' :: cs =>
      let (vs, cs) ← values? fuel cs
      some (v :: vs, cs)
    | _ => none

/-- The members of an object, at least one, up to its end, and what is left. -/
def members? (fuel : Nat) (cs : List Char) : Option (List (String × JsonValue) × List Char) :=
  match fuel with
  | 0 => none
  | fuel + 1 =>
    match skipSpace cs with
    | '"' :: cs => do
      let (name, cs) ← string? (cs.length + 1) cs
      match skipSpace cs with
      | ':' :: cs =>
        let (v, cs) ← value? fuel cs
        match skipSpace cs with
        | '\x7d' :: cs => some ([(String.ofList name, v)], cs)
        | ',' :: cs =>
          let (ms, cs) ← members? fuel cs
          some ((String.ofList name, v) :: ms, cs)
        | _ => none
      | _ => none
    | _ => none

end

/-- The value of a document. -/
def read? (b : Bytes) : Option JsonValue := do
  let cs := (← b.text?).toList
  let (v, rest) ← value? (2 * cs.length + 2) cs
  if (skipSpace rest).isEmpty then some v else none

end Seams.JsonValue
