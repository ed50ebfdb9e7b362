import Seams.Grammar.Goal

/-! # String literals
Quoted strings, commands in backquotes, and documents between tags. Inside a literal white space
counts, so its parts are read from the source directly and not up to the next token.
Main definitions:
* **`Strings.runEnd?`** — the end of literal text in a literal with variables in it;
* **`Strings.string`**, **`Strings.encapsed`**, **`Strings.command`**, **`Strings.document`** —
  the literals. -/

namespace Seams.Strings

open Lexis Reader Grammar

/-- What ends a literal in which variables are expanded. -/
inductive Delimiter where
  /-- A double quote. -/
  | quote
  /-- A backquote. -/
  | backquote
  /-- The end of a line of a document. -/
  | line
  deriving DecidableEq, Repr

/-- Whether the delimiter is the byte `c`. -/
def Delimiter.isByte (d : Delimiter) (c : UInt8) : Bool :=
  match d with
  | .quote => c == 0x22
  | .backquote => c == 0x60
  | .line => c == 0x0a || c == 0x0d

/-! ## Literal text -/

/-- Whether a backslash before index `i` begins an escape sequence. -/
def escapes (src : Bytes) (i : Nat) : Bool :=
  let c := src.byteAt i
  [0x6e, 0x72, 0x74, 0x76, 0x65, 0x66, 0x5c, 0x24, 0x22, 0x75].contains c || isOctal c
    || (c == 0x78 && isHex (src.byteAt (i + 1)))

/-- The end of literal text from `i` on: before the delimiter, an escape sequence or something that
is expanded. There is none in a literal that is not closed. -/
def runEnd? (src : Bytes) (d : Delimiter) (i : Nat) : Option Nat :=
  if _h : i < src.size then
    let c := src.byteAt i
    let n := src.byteAt (i + 1)
    if c == 0 then none
    else if d.isByte c then some i
    else if c == 0x5c then
      if n == 0x7b then runEnd? src d (i + 2)
      else if d == .backquote && n == 0x60 then some i
      else if d == .line && n == 0x5c then runEnd? src d (i + 2)
      else if escapes src (i + 1) then some i
      else runEnd? src d (i + 1)
    else if c == 0x24 then
      if (isWordByte n && !isDigit n) || n == 0x7b then some i else runEnd? src d (i + 1)
    else if c == 0x7b then
      if n == 0x24 then some i else runEnd? src d (i + 1)
    else runEnd? src d (i + 1)
  else none
termination_by src.size - i
decreasing_by all_goals omega

/-- The end of the escape sequence at `i`. A `\u` without digits in braces stands for itself. -/
def escapeEnd (src : Bytes) (i : Nat) : Nat :=
  let c := src.byteAt (i + 1)
  if isOctal c then
    if isOctal (src.byteAt (i + 2)) then
      if isOctal (src.byteAt (i + 3)) then i + 4 else i + 3
    else i + 2
  else if c == 0x78 then
    if isHex (src.byteAt (i + 3)) then i + 4 else i + 3
  else if c == 0x75 then
    let e := runEnd src isHex (i + 3)
    if src.byteAt (i + 2) == 0x7b && i + 3 < e && src.byteAt e == 0x7d then e + 1 else i + 2
  else i + 2

/-- Read the token up to `stop` as it stands. -/
def piece (kind : String) (named : Bool) (stop : Nat) : Reader Unit := do
  let s ← reading
  add (Node.leaf kind named s.pos stop)
  advance stop

/-- The node over what `body` reads from here on, white space included. -/
def literal (kind : String) (body : Reader Unit) : Reader Node := do
  let start := (← reading).pos
  let (_, stop, children) ← gather [] body
  pure (Node.branch kind start stop children)

/-! ## What is expanded -/

/-- The index of an element in a simple expansion. -/
def simpleIndex (rules : Rules) : Reader Unit := do
  let c ← peek
  let src ← source
  if c == 0x24 then emit (rules .variable)
  else if c == 0x2d then
    emit (node "unary_op_expression" do
      symbol "-"
      settle
      let i := (← reading).pos
      let e := integerEnd src i
      if i < e then emit (token "integer" true e) else stuck)
  else
    let i := (← reading).pos
    let e := integerEnd src i
    if i < e then emit (token "integer" true e) else emit name

/-- A variable in a literal, with an index or a member if one follows directly. -/
def simpleExpansion (rules : Rules) : Reader Node := do
  let v ← node "variable_name" (do symbol "$"; emit name)
  let src ← source
  let i := (← reading).pos
  if (← omittedHere?).isSome then pure v
  else if src.byteAt i == 0x5b then
    wrap "subscript_expression" v (closing false do
      symbol "["
      simpleIndex rules
      symbol "]")
  else if src.byteAt i == 0x2d && src.byteAt (i + 1) == 0x3e && isWordByte (src.byteAt (i + 2)) then
    wrap "member_access_expression" (v.withField "object") (do
      symbol "->"
      emitAs "name" name)
  else pure v

/-- A variable that a literal names by an expression. -/
def namedExpansion (rules : Rules) : Reader Node :=
  node "dynamic_variable_name" do
    symbol "$"
    between "\x7b" "\x7d" (emit (expression rules))

/-- Read one part of a literal, or answer that the delimiter comes next. -/
def part (rules : Rules) (d : Delimiter) : Reader Bool := do
  let src ← source
  let i := (← reading).pos
  if ← omitted then pure true else
  match runEnd? src d i with
  | none => stuck
  | some e =>
    let c := src.byteAt i
    if i < e then
      piece "string_content" true e
      pure true
    else if d.isByte c then pure false
    else if c == 0x5c then
      let stop := escapeEnd src i
      if src.byteAt (i + 1) == 0x75 && stop == i + 2 then piece "string_content" true stop
      else piece "escape_sequence" true stop
      pure true
    else if c == 0x24 then
      if src.byteAt (i + 1) == 0x7b then emit (namedExpansion rules)
      else emit (simpleExpansion rules)
      pure true
    else
      between "\x7b" "\x7d" (emit (expression rules))
      pure true

/-! ## Literals -/

/-- The opening quote, with or without a `b` before it. Only the bare quote is a token. -/
def openQuote (quote : String) : Reader Unit := do
  settle
  flush
  let i := (← reading).pos
  if (← source).startsAt (bytesOf quote) i then piece quote false (i + 1)
  else advance (i + 2)

/-- The end of plain text in a string in single quotes. -/
def plainEnd (src : Bytes) (i : Nat) : Nat :=
  if i < src.size then
    let c := src.byteAt i
    let n := src.byteAt (i + 1)
    if c == 0 || c == 0x27 || (c == 0x5c && (n == 0x27 || n == 0x5c)) then i
    else plainEnd src (i + 1)
  else i
termination_by src.size - i

/-- A string in single quotes. -/
def string : Reader Node :=
  node "string" do
    openQuote "'"
    whileTrue do
      let src ← source
      let i := (← reading).pos
      let e := plainEnd src i
      if ← omitted then pure true
      else if i < e then
        piece "string_content" true e
        pure true
      else if src.byteAt i == 0x27 then
        piece "'" false (i + 1)
        pure false
      else if src.byteAt i == 0x5c then
        piece "escape_sequence" true (i + 2)
        pure true
      else stuck

/-- A string in double quotes. -/
def encapsed (rules : Rules) : Reader Node :=
  node "encapsed_string" do
    openQuote "\""
    whileTrue (part rules .quote)
    piece "\"" false ((← reading).pos + 1)

/-- A command in backquotes. -/
def command (rules : Rules) : Reader Node :=
  node "shell_command_expression" do
    symbol "`"
    whileTrue (part rules .backquote)
    piece "`" false ((← reading).pos + 1)

/-! ## Documents -/

/-- The length of the line end at `i`, zero if there is none. -/
def lineEndLength (src : Bytes) (i : Nat) : Nat :=
  if src.byteAt i == 0x0a then 1
  else if src.byteAt i == 0x0d then (if src.byteAt (i + 1) == 0x0a then 2 else 1)
  else 0

/-- Where the closing tag stands, if it is the next word after `i`. -/
def closingTag? (src tag : Bytes) (i : Nat) : Option (Nat × Nat) :=
  let j := spaceEnd src i
  let e := runEnd src isWordByte j
  if src.slice j e == tag then some (j, e) else none

/-- Read the closing tag. -/
def closeDocument (tag : Bytes) : Reader Unit := do
  match closingTag? (← source) tag (← reading).pos with
  | some (j, e) =>
    add (Node.leaf "heredoc_end" true j e)
    advance e
  | none => stuck

/-- Read the lines of a document with variables in it, up to the line end before its closing
tag. -/
def expandedLines (rules : Rules) (tag : Bytes) : Reader Unit := do
  let src ← source
  let newLine : Reader Unit := do
    let i := (← reading).pos
    let n := lineEndLength src i
    if n == 0 then stuck else advance (i + n)
  newLine
  if lineEndLength src (← reading).pos != 0 then newLine
  whileTrue do
    let i := (← reading).pos
    if lineEndLength src i != 0 then
      match runEnd? src .line (spaceEnd src i) with
      | some e => piece "string_content" true e
      | none => stuck
    whileTrue (part rules .line)
    if (closingTag? src tag (← reading).pos).isSome then pure false
    else
      newLine
      pure true

/-- Whether the closing tag of a document without variables stands after white space at `i`: it
must be followed by a semicolon, a comma, a parenthesis or a line end. -/
def closesPlain (src tag : Bytes) (i : Nat) : Bool :=
  let j := spaceEnd src i
  let e := j + tag.size
  let c := src.byteAt e
  let ends (c : UInt8) : Bool := c == 0x3b || c == 0x2c || c == 0x29
  let k := Lexis.runEnd src (fun c => isSpace c && c != 0x0a && c != 0x0d) e
  let d := src.byteAt k
  src.startsAt tag j && (isSpace c || ends c) && (ends d || d == 0x0a || d == 0x0d)

/-- Read the lines of a document without variables. -/
def plainLines (tag : Bytes) : Reader Unit := do
  let src ← source
  let i := (← reading).pos
  let n := lineEndLength src i
  if n == 0 then stuck
  advance (i + n)
  whileTrue do
    let i := (← reading).pos
    if closesPlain src tag i then pure false
    else
      let j := spaceEnd src i
      let e := Lexis.runEnd src (fun c => c != 0 && c != 0x0a && c != 0x0d) j
      if src.size ≤ e || src.byteAt e == 0 then stuck
      else
        piece "nowdoc_string" true e
        pure true

/-- A document between tags: variables are expanded unless the opening tag is in single quotes. -/
def document (rules : Rules) : Reader Node := do
  let src ← source
  settle
  let first := spaceEnd src ((← reading).pos + 3)
  if src.byteAt first == 0x27 then
    node "nowdoc" do
      symbol "<<<"
      symbol "'"
      let i := (← reading).pos
      let e := runEnd src isWordByte i
      if e ≤ i then stuck
      piece "heredoc_start" true e
      if src.byteAt e != 0x27 then stuck
      piece "'" false (e + 1)
      let tag := src.slice i e
      -- Without a line between the tags there is no value at all.
      if (closingTag? src tag (e + 1)).isNone then
        emitAs "value" (literal "nowdoc_body" (plainLines tag))
      closeDocument tag
  else
    node "heredoc" do
      symbol "<<<"
      let _ ← symbol? "\""
      settle
      flush
      let i := (← reading).pos
      let e := runEnd src isWordByte i
      if e ≤ i then stuck
      piece "heredoc_start" true e
      if src.byteAt e == 0x22 then piece "\"" false (e + 1)
      let tag := src.slice i e
      if (closingTag? src tag (← reading).pos).isNone then
        emitAs "value" (literal "heredoc_body" (expandedLines rules tag))
      closeDocument tag

end Seams.Strings
