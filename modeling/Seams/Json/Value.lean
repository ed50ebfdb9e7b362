import Seams.Text.Bytes
import Seams.Text.Quoted

/-! # JSON values
Records on disk are JSON documents, written without white space.
Main definitions:
* **`JsonValue`** — the value of a document;
* **`JsonValue.write`** — the document of a value. -/

namespace Seams

/-- The value of a JSON document. -/
inductive JsonValue where
  /-- No value. -/
  | null
  /-- A boolean. -/
  | flag (value : Bool)
  /-- A number, as it is written. -/
  | number (literal : List Char)
  /-- A string. -/
  | text (value : String)
  /-- An array. -/
  | list (values : List JsonValue)
  /-- An object, as it is written. -/
  | record (members : List (String × JsonValue))

namespace JsonValue

/-- How a character of a string is written: quotes, backslashes and control characters behind a
backslash, and all others as they are. -/
def writeChar (c : Char) : List Char :=
  if c == '"' then ['\\', '"']
  else if c == '\\' then ['\\', '\\']
  else if c == '\n' then ['\\', 'n']
  else if c == '\r' then ['\\', 'r']
  else if c == '\t' then ['\\', 't']
  else if c.toNat == 8 then ['\\', 'b']
  else if c.toNat == 12 then ['\\', 'f']
  else if c.toNat < 0x20 then
    ['\\', 'u', '0', '0', Text.hexDigit (c.toNat / 16), Text.hexDigit (c.toNat % 16)]
  else [c]

/-- How a string is written. -/
def writeString (s : String) : List Char := '"' :: s.toList.flatMap writeChar ++ ['"']

/-- How a number without a sign and a fraction is written. -/
def ofNat (n : Nat) : JsonValue := number (toString n).toList

mutual

/-- The document of a value. -/
def write : JsonValue → List Char
  | null => "null".toList
  | flag true => "true".toList
  | flag false => "false".toList
  | number literal => literal
  | text s => writeString s
  | list [] => ['[', ']']
  | list (v :: vs) => '[' :: write v ++ writeMore vs
  | record [] => ['\x7b', '\x7d']
  | record ((name, v) :: ms) => '\x7b' :: writeString name ++ ':' :: write v ++ writeMembers ms

/-- The further values of an array, and its end. -/
def writeMore : List JsonValue → List Char
  | [] => [']']
  | v :: vs => ',' :: write v ++ writeMore vs

/-- The further members of an object, and its end. -/
def writeMembers : List (String × JsonValue) → List Char
  | [] => ['\x7d']
  | (name, v) :: ms => ',' :: writeString name ++ ':' :: write v ++ writeMembers ms

end

/-- The document of a value, as bytes. -/
def toBytes (v : JsonValue) : Bytes := bytesOf (String.ofList v.write)

/-- The strings of an array that holds nothing else. -/
def texts? : JsonValue → Option (List String)
  | list values => values.mapM fun
    | text s => some s
    | _ => none
  | _ => none

/-- The 64-bit number that a value is, if it is written without a sign, a fraction and an
exponent. -/
def word? : JsonValue → Option Nat
  | number literal =>
    if literal.all Char.isDigit then
      let n := literal.foldl (fun a c => 10 * a + (c.toNat - 48)) 0
      if n < UInt64.size then some n else none
    else none
  | _ => none

end JsonValue

end Seams
