import Seams.Settings.File

/-! # Settings in TOML
A settings file is a TOML document. All settings are at its top, and each is a string, a boolean or
an array of strings, so a document with anything else in it is refused like one that is malformed.
Main definitions:
* **`Toml.Value`** — a value that a setting may have;
* **`Toml.document?`** — the settings of a document, by name;
* **`SettingsFile.ofToml?`** — the settings of a document, each in its place. -/

namespace Seams.Toml

/-- A value that a setting may have. -/
inductive Value where
  /-- A string. -/
  | text (value : String)
  /-- A boolean. -/
  | flag (value : Bool)
  /-- An array of strings. -/
  | texts (values : List String)
  deriving DecidableEq, Repr

/-! ## Characters -/

/-- A blank within a line. -/
def isSpace (c : Char) : Bool := c == ' ' || c == '\t'

/-- Whether a character may stand in comments and strings: no control character but the
tabulator. -/
def isPlain (c : Char) : Bool := c == '\t' || (0x20 ≤ c.toNat && c.toNat != 0x7f)

/-- Whether a character may stand in a name without quotes. -/
def isBare (c : Char) : Bool := c.isAlphanum || c == '_' || c == '-'

/-- What is left behind the blanks at the beginning of a line. -/
def skipSpace (cs : List Char) : List Char := cs.dropWhile isSpace

/-- What is left behind a line end. -/
def lineEnd? : List Char → Option (List Char)
  | '\n' :: cs => some cs
  | '\r' :: '\n' :: cs => some cs
  | _ => none

/-- What is left behind a comment, up to the line end. -/
def skipComment : List Char → List Char
  | '#' :: cs => cs.dropWhile isPlain
  | cs => cs

/-- What is left behind the rest of a line: blanks, a comment and the line end. -/
def restOfLine? (cs : List Char) : Option (List Char) :=
  match skipComment (skipSpace cs) with
  | [] => some []
  | c :: cs => lineEnd? (c :: cs)

/-- What is left behind blanks, comments and line ends, of which there are at most `fuel`. -/
def skipLines (fuel : Nat) (cs : List Char) : List Char :=
  match fuel with
  | 0 => cs
  | fuel + 1 =>
    let rest := skipComment (skipSpace cs)
    match lineEnd? rest with
    | some next => skipLines fuel next
    | none => rest

/-! ## Strings -/

/-- The value of a hexadecimal digit. -/
def hexValue? (c : Char) : Option Nat :=
  if '0' ≤ c ∧ c ≤ '9' then some (c.toNat - 48)
  else if 'a' ≤ c ∧ c ≤ 'f' then some (c.toNat - 87)
  else if 'A' ≤ c ∧ c ≤ 'F' then some (c.toNat - 55)
  else none

/-- The character with the number given by `n` hexadecimal digits, and what is left. -/
def hexChar? (n : Nat) (cs : List Char) : Option (Char × List Char) := do
  let digits ← (cs.take n).mapM hexValue?
  let code := digits.foldl (fun a d => 16 * a + d) 0
  if digits.length = n ∧ (code < 0xd800 ∨ (0xdfff < code ∧ code < 0x110000)) then
    some (Char.ofNat code, cs.drop n)
  else none

/-- The character that is written behind a backslash, and what is left. -/
def escape? : List Char → Option (Char × List Char)
  | 'b' :: cs => some (Char.ofNat 8, cs)
  | 't' :: cs => some ('\t', cs)
  | 'n' :: cs => some ('\n', cs)
  | 'f' :: cs => some (Char.ofNat 12, cs)
  | 'r' :: cs => some ('\r', cs)
  | 'e' :: cs => some (Char.ofNat 27, cs)
  | '"' :: cs => some ('"', cs)
  | '\\' :: cs => some ('\\', cs)
  | 'x' :: cs => hexChar? 2 cs
  | 'u' :: cs => hexChar? 4 cs
  | 'U' :: cs => hexChar? 8 cs
  | _ => none

/-- What is left behind a backslash at the end of a line in a string over several lines: the line
end and all white space after it. -/
def lineContinuation? (fuel : Nat) (cs : List Char) : Option (List Char) :=
  (lineEnd? (skipSpace cs)).map fun next => blankLines fuel next
where
  /-- What is left behind white space. -/
  blankLines (fuel : Nat) (cs : List Char) : List Char :=
    match fuel with
    | 0 => cs
    | fuel + 1 =>
      match lineEnd? (skipSpace cs) with
      | some next => blankLines fuel next
      | none => skipSpace cs

/-- The rest of a string up to its quote, and what is left. -/
def basicRest? (fuel : Nat) (cs : List Char) : Option (List Char × List Char) :=
  match fuel, cs with
  | fuel + 1, c :: cs =>
    if c == '"' then some ([], cs)
    else if c == '\\' then do
      let (e, cs) ← escape? cs
      let (text, cs) ← basicRest? fuel cs
      some (e :: text, cs)
    else if isPlain c then do
      let (text, cs) ← basicRest? fuel cs
      some (c :: text, cs)
    else none
  | _, _ => none

/-- The rest of a string over several lines up to its three quotes, and what is left. Up to two
quotes in front of those belong to the text. -/
def longRest? (quote : Char) (escapes : Bool) (fuel : Nat) (cs : List Char) :
    Option (List Char × List Char) :=
  match fuel, cs with
  | fuel + 1, c :: cs =>
    if c == quote && cs.take 2 == [quote, quote] then
      -- Of five quotes in a row the first two belong to the text.
      let more := (cs.drop 2).takeWhile (· == quote)
      if more.length ≤ 2 then some (more, (cs.drop 2).drop more.length) else none
    else if escapes && c == '\\' then
      match lineContinuation? cs.length cs with
      | some cs => longRest? quote escapes fuel cs
      | none => do
        let (e, cs) ← escape? cs
        let (text, cs) ← longRest? quote escapes fuel cs
        some (e :: text, cs)
    else
      match lineEnd? (c :: cs) with
      | some cs => do
        let (text, cs) ← longRest? quote escapes fuel cs
        some ('\n' :: text, cs)
      | none =>
        if isPlain c then do
          let (text, cs) ← longRest? quote escapes fuel cs
          some (c :: text, cs)
        else none
  | _, _ => none

/-- A string on one line without escapes, up to its quote, and what is left. -/
def literalRest? (cs : List Char) : Option (List Char × List Char) :=
  let text := cs.takeWhile fun c => isPlain c && c != '\''
  match cs.drop text.length with
  | '\'' :: cs => some (text, cs)
  | _ => none

/-- What is left behind a line end at the beginning of a string over several lines. -/
def skipFirstLineEnd (cs : List Char) : List Char := (lineEnd? cs).getD cs

/-- The string at the beginning, and what is left. -/
def string? : List Char → Option (String × List Char)
  | '"' :: '"' :: '"' :: cs =>
    let cs := skipFirstLineEnd cs
    (longRest? '"' true (cs.length + 1) cs).map fun (text, cs) => (String.ofList text, cs)
  | '\'' :: '\'' :: '\'' :: cs =>
    let cs := skipFirstLineEnd cs
    (longRest? '\'' false (cs.length + 1) cs).map fun (text, cs) => (String.ofList text, cs)
  | '"' :: cs => (basicRest? (cs.length + 1) cs).map fun (text, cs) => (String.ofList text, cs)
  | '\'' :: cs => (literalRest? cs).map fun (text, cs) => (String.ofList text, cs)
  | _ => none

/-! ## Values -/

/-- The rest of an array of strings behind its bracket or a comma, and what is left. -/
def array? (fuel : Nat) (cs : List Char) : Option (List String × List Char) :=
  match fuel with
  | 0 => none
  | fuel + 1 =>
    match skipLines cs.length cs with
    | ']' :: cs => some ([], cs)
    | cs => do
      let (s, cs) ← string? cs
      match skipLines cs.length cs with
      | ',' :: cs =>
        let (rest, cs) ← array? fuel cs
        some (s :: rest, cs)
      | ']' :: cs => some ([s], cs)
      | _ => none

/-- The value at the beginning, and what is left. -/
def value? : List Char → Option (Value × List Char)
  | '[' :: cs => (array? (cs.length + 1) cs).map fun (values, cs) => (.texts values, cs)
  | 't' :: 'r' :: 'u' :: 'e' :: cs => some (.flag true, cs)
  | 'f' :: 'a' :: 'l' :: 's' :: 'e' :: cs => some (.flag false, cs)
  | cs => (string? cs).map fun (s, cs) => (.text s, cs)

/-- The name of a setting at the beginning, and what is left. -/
def key? (cs : List Char) : Option (String × List Char) :=
  match cs with
  | '"' :: cs => (basicRest? (cs.length + 1) cs).map fun (text, cs) => (String.ofList text, cs)
  | '\'' :: cs => (literalRest? cs).map fun (text, cs) => (String.ofList text, cs)
  | cs =>
    let name := cs.takeWhile isBare
    if name.isEmpty then none else some (String.ofList name, cs.drop name.length)

/-- The settings from a line on, of which there are at most `fuel`. No name occurs twice. -/
def settings? (fuel : Nat) (known : List String) (cs : List Char) :
    Option (List (String × Value)) :=
  match fuel with
  | 0 => none
  | fuel + 1 =>
    match skipLines cs.length cs with
    | [] => some []
    | cs => do
      let (key, cs) ← key? cs
      match skipSpace cs with
      | '=' :: cs =>
        let (value, cs) ← value? (skipSpace cs)
        let cs ← restOfLine? cs
        if known.contains key then none
        else (settings? fuel (key :: known) cs).map ((key, value) :: ·)
      | _ => none

/-- The settings of a document, by name. A byte order mark in front is passed over. -/
def document? (text : String) : Option (List (String × Value)) :=
  let cs := match text.toList with
    | c :: cs => if c.toNat = 0xfeff then cs else c :: cs
    | [] => []
  settings? (cs.length + 1) [] cs

/-- The settings with one more. There is none of another name or with a value of another form. -/
def assign? (f : SettingsFile) : String × Value → Option SettingsFile
  | ("cache_dir", .text s) => some { f with cacheDir := some s }
  | ("include_paths", .texts l) => some { f with includePaths := l }
  | ("exclude_paths", .texts l) => some { f with excludePaths := l }
  | ("patcher_list", .texts l) => some { f with patcherList := some l }
  | ("functions_to_patch", .texts l) => some { f with functionsToPatch := l }
  | ("exit_exception_classname", .text s) => some { f with exitClass := some s }
  | ("verify_output", .flag b) => some { f with verifyOutput := b }
  | _ => none

end Toml

/-- The settings of a document. -/
def SettingsFile.ofToml? (text : String) : Option SettingsFile :=
  (Toml.document? text).bind fun settings => settings.foldlM Toml.assign? SettingsFile.empty

end Seams
