import Seams.Text.Bytes

/-! # Lexical classes of PHP
Where names, numbers, comments, white space and markup end. Every function takes a source and an
index and answers with an index, so that nothing is copied while a source is read.
Main definitions:
* **`Lexis.blankEnd`** — the end of white space;
* **`Lexis.nameEnd`**, **`Lexis.integerEnd`**, **`Lexis.floatEnd`** — the longest word of a class;
* **`Lexis.commentEnd?`** — the end of the comment that starts at an index;
* **`Lexis.closesAt`** — whether the next thing to read is a closing tag. -/

namespace Seams.Lexis

/-! ## Classes of bytes -/

/-- ASCII white space: blank, tabulators, line feed, form feed, carriage return. -/
def isSpace (c : UInt8) : Bool := c == 0x20 || (0x09 ≤ c && c ≤ 0x0d)

/-- An ASCII digit. -/
def isDigit (c : UInt8) : Bool := 0x30 ≤ c && c ≤ 0x39

/-- An octal digit. -/
def isOctal (c : UInt8) : Bool := 0x30 ≤ c && c ≤ 0x37

/-- A binary digit. -/
def isBinary (c : UInt8) : Bool := c == 0x30 || c == 0x31

/-- A hexadecimal digit. -/
def isHex (c : UInt8) : Bool := isDigit c || (0x61 ≤ c && c ≤ 0x66) || (0x41 ≤ c && c ≤ 0x46)

/-- An ASCII letter. -/
def isLetter (c : UInt8) : Bool := (0x61 ≤ c && c ≤ 0x7a) || (0x41 ≤ c && c ≤ 0x5a)

/-- An ASCII letter, digit or underscore. -/
def isWordByte (c : UInt8) : Bool := isLetter c || isDigit c || c == 0x5f

/-- A code point beyond ASCII that may stand in a name: one of the basic plane that is not among
the four blanks of `blankLength`. -/
def isWideNameChar (cp : Nat) : Bool :=
  (0x80 ≤ cp && cp ≤ 0x9f) || (0xa1 ≤ cp && cp ≤ 0x200a) || (0x200c ≤ cp && cp ≤ 0x205f)
    || (0x2061 ≤ cp && cp ≤ 0xfefe) || (0xff00 ≤ cp && cp ≤ 0xffff)

/-! ## Runs -/

/-- The end of the run of bytes with property `p` from `i` on. -/
def runEnd (src : Bytes) (p : UInt8 → Bool) (i : Nat) : Nat :=
  if h : i < src.size then
    if p src[i] then runEnd src p (i + 1) else i
  else i
termination_by src.size - i

theorem le_runEnd (src : Bytes) (p : UInt8 → Bool) (i : Nat) : i ≤ runEnd src p i := by
  fun_induction runEnd src p i <;> omega

/-- The length of the blank at `i`: ASCII white space, U+00A0, U+200B, U+2060 or U+FEFF; zero if
there is none. -/
def blankLength (src : Bytes) (i : Nat) : Nat :=
  let c := src.byteAt i
  if isSpace c then 1
  else if c == 0xc2 && src.byteAt (i + 1) == 0xa0 then 2
  else if c == 0xe2 && src.byteAt (i + 1) == 0x80 && src.byteAt (i + 2) == 0x8b then 3
  else if c == 0xe2 && src.byteAt (i + 1) == 0x81 && src.byteAt (i + 2) == 0xa0 then 3
  else if c == 0xef && src.byteAt (i + 1) == 0xbb && src.byteAt (i + 2) == 0xbf then 3
  else 0

/-- The end of the white space from `i` on. -/
def blankEnd (src : Bytes) (i : Nat) : Nat :=
  if _h : i < src.size ∧ 0 < blankLength src i then blankEnd src (i + blankLength src i) else i
termination_by src.size - i
decreasing_by omega

/-- The end of the ASCII white space from `i` on. -/
def spaceEnd (src : Bytes) (i : Nat) : Nat := runEnd src isSpace i

/-! ## Names and numbers -/

/-- The length of the name character at `i`, zero if there is none. -/
def nameCharLength (src : Bytes) (digits : Bool) (i : Nat) : Nat :=
  let c := src.byteAt i
  if c < 0x80 then
    if isLetter c || c == 0x5f || (digits && isDigit c) then 1 else 0
  else
    match src.decodeAt i with
    | some (cp, n) => if isWideNameChar cp then n else 0
    | none => 0

/-- The end of the name characters from `i` on, the first of which may be a digit only if `digits`
holds. -/
def nameRun (src : Bytes) (digits : Bool) (i : Nat) : Nat :=
  if _h : i < src.size ∧ 0 < nameCharLength src digits i then
    nameRun src true (i + nameCharLength src digits i)
  else i
termination_by src.size - i
decreasing_by omega

/-- The end of the name at `i`, and `i` itself where no name starts. -/
def nameEnd (src : Bytes) (i : Nat) : Nat := nameRun src false i

/-- The end of the groups `_dd…` from `i` on. -/
def groupsEnd (src : Bytes) (p : UInt8 → Bool) (i : Nat) : Nat :=
  if _h : i < src.size ∧ src.byteAt i == 0x5f ∧ i + 1 < runEnd src p (i + 1) then
    groupsEnd src p (runEnd src p (i + 1))
  else i
termination_by src.size - i
decreasing_by omega

/-- The end of digits and their groups, either of which may be absent. -/
def digitsEnd (src : Bytes) (p : UInt8 → Bool) (i : Nat) : Nat := groupsEnd src p (runEnd src p i)

/-- The end of `marker` followed by at least one digit, and `i` if that is not there. -/
def radixEnd (src : Bytes) (small large : UInt8) (p : UInt8 → Bool) (i : Nat) : Nat :=
  let c := src.byteAt (i + 1)
  if (c == small || c == large) && p (src.byteAt (i + 2)) then digitsEnd src p (i + 2) else i

/-- The end of the integer at `i`, and `i` itself where none starts. A leading zero makes the rest
octal, so `08` ends after its zero. -/
def integerEnd (src : Bytes) (i : Nat) : Nat :=
  let c := src.byteAt i
  if c == 0x30 then
    let o := src.byteAt (i + 1)
    let octal := digitsEnd src isOctal (if o == 0x6f || o == 0x4f then i + 2 else i + 1)
    let hex := radixEnd src 0x78 0x58 isHex i
    let binary := radixEnd src 0x62 0x42 isBinary i
    max octal (max hex binary)
  else if isDigit c then digitsEnd src isDigit i
  else i

/-- The end of the exponent at `i`, and `i` itself where none starts. -/
def exponentEnd (src : Bytes) (i : Nat) : Nat :=
  let c := src.byteAt i
  if c == 0x65 || c == 0x45 then
    let s := src.byteAt (i + 1)
    let j := if s == 0x2b || s == 0x2d then i + 2 else i + 1
    if isDigit (src.byteAt j) then digitsEnd src isDigit j else i
  else i

/-- The end of the floating-point number at `i`, and `i` itself where none starts. Digits may be
absent on both sides of the point, so a point alone is a number, and so is an exponent alone. -/
def floatEnd (src : Bytes) (i : Nat) : Nat :=
  let a := digitsEnd src isDigit i
  if src.byteAt a == 0x2e then
    let b := digitsEnd src isDigit (a + 1)
    exponentEnd src b
  else if a < exponentEnd src a then exponentEnd src a
  else i

/-! ## Comments -/

/-- The end of a line comment whose text goes on at `i`: before a line end, before a closing tag,
or after a question mark that ends the line together with its line feed. -/
def lineCommentEnd (src : Bytes) (i : Nat) : Nat :=
  if _h : i < src.size then
    let c := src.byteAt i
    if c == 0 || c == 0x0a || c == 0x0d then i
    else if c == 0x3f then
      let n := src.byteAt (i + 1)
      if n == 0x3e || n == 0 then i
      else if n == 0x0a then i + 2
      else if n == 0x0d then (if src.byteAt (i + 2) == 0x0a then i + 3 else i)
      else lineCommentEnd src (i + 2)
    else lineCommentEnd src (i + 1)
  else i
termination_by src.size - i
decreasing_by all_goals omega

/-- The end of the block comment whose text goes on at `i`, if it is closed. -/
def blockCommentEnd? (src : Bytes) (i : Nat) : Option Nat :=
  if _h : i < src.size then
    let c := src.byteAt i
    if c == 0 then none
    else if c == 0x2a && src.byteAt (i + 1) == 0x2f then some (i + 2)
    else blockCommentEnd? src (i + 1)
  else none
termination_by src.size - i

/-- The end of the comment that starts at `i`. `#[` opens attributes where `attributes` holds, and
elsewhere its first character is a comment by itself. -/
def commentEnd? (src : Bytes) (attributes : Bool) (i : Nat) : Option Nat :=
  let c := src.byteAt i
  let n := src.byteAt (i + 1)
  if c == 0x23 then
    if n == 0x5b then (if attributes then none else some (i + 1))
    else if n == 0x3f || n == 0x0a || n == 0x0d || n == 0 then some (i + 1)
    else some (lineCommentEnd src (i + 1))
  else if c == 0x2f then
    if n == 0x2f then some (lineCommentEnd src (i + 2))
    else if n == 0x2a then blockCommentEnd? src (i + 2)
    else none
  else none

/-! ## Tags and markup -/

/-- The index after white space and whole `//` lines, if the source can be read so far. -/
def skimEnd? (src : Bytes) (fuel : Nat) (i : Nat) : Option Nat :=
  match fuel with
  | 0 => none
  | fuel + 1 =>
    let j := spaceEnd src i
    if src.byteAt j == 0x2f then
      if src.byteAt (j + 1) == 0x2f then
        skimEnd? src fuel (runEnd src (fun c => c != 0 && c != 0x0a) (j + 2))
      else none
    else some j

/-- Whether a closing tag is the next thing after `i`, white space and `//` lines apart. -/
def closesAt (src : Bytes) (i : Nat) : Bool :=
  match skimEnd? src (src.size + 1) i with
  | some j => src.byteAt j == 0x3f && src.byteAt (j + 1) == 0x3e
  | none => false

/-- Whether the source ends after `i`, white space and `//` lines apart. -/
def endsAt (src : Bytes) (i : Nat) : Bool :=
  match skimEnd? src (src.size + 1) i with
  | some j => src.size ≤ j
  | none => false

/-- The end of the opening tag at `i`, and `i` itself where none starts. -/
def openTagEnd (src : Bytes) (i : Nat) : Nat :=
  if src.byteAt i == 0x3c && src.byteAt (i + 1) == 0x3f then
    if src.byteAt (i + 2) == 0x3d then i + 3
    else if (src.slice (i + 2) (i + 5)).lower == bytesOf "php" then i + 5
    else i + 2
  else i

/-- Where markup from `i` on begins and ends, if there is any before the next opening tag. With
`untilEnd` it also stops before white space and `//` lines that end the source. -/
def markup? (src : Bytes) (untilEnd : Bool) (fuel : Nat) (i : Nat) : Option (Nat × Nat) :=
  match fuel with
  | 0 => none
  | fuel + 1 =>
    if untilEnd && endsAt src i then none
    else
      let j := spaceEnd src i
      let c := src.byteAt j
      if src.size ≤ j || c == 0 then none
      else if c == 0x3c then
        if src.byteAt (j + 1) == 0x3f then none
        else
          match markup? src untilEnd fuel (j + 1) with
          | some (_, e) => some (j, e)
          | none => some (j, j + 1)
      else
        let k := runEnd src (fun c => c != 0 && c != 0x3c) j
        match markup? src untilEnd fuel k with
        | some (_, e) => some (j, e)
        | none => some (j, k)

end Seams.Lexis
