/-! # Coloured output
Text for terminals may be set off by colours. They are used only where the surroundings ask for
them, since output is usually read by programs.
Main definitions:
* **`Style`** — a way to set off text;
* **`Style.paint`** — text set off. -/

namespace Seams.CommandLine

/-- A way to set off text. -/
inductive Style where
  /-- In red: what is wrong or goes away. -/
  | red
  /-- In green: what is right or comes. -/
  | green
  /-- In yellow: what deserves attention. -/
  | yellow
  /-- In cyan: what is left alone. -/
  | cyan
  /-- In a faint colour: what matters least. -/
  | dimmed
  deriving DecidableEq, Repr

/-- The number of a style in a control sequence. -/
def Style.code : Style → String
  | red => "31"
  | green => "32"
  | yellow => "33"
  | cyan => "36"
  | dimmed => "2"

/-- The control sequence with the given number. -/
def control (code : String) : String := String.singleton (Char.ofNat 27) ++ "[" ++ code ++ "m"

/-- Text set off, if colours are used. Where the text itself ends a style, the style is begun
again. -/
def Style.paint (s : Style) (colours : Bool) (text : String) : String :=
  if colours && text != "" then
    control s.code ++ (control "0" ++ control s.code).intercalate (text.splitOn (control "0"))
      ++ control "0"
  else text

/-- Whether the surroundings ask for colours. The variable `CLICOLOR_FORCE` does if it has a value
other than zero. Without it a terminal does, unless there is a variable `NO_COLOR`, or `CLICOLOR` is
zero. -/
def asksForColours (environment : String → Option String) (terminal : Bool) : Bool :=
  let isOff (name : String) : Bool := environment name == some "0"
  if (environment "CLICOLOR_FORCE").isSome && !isOff "CLICOLOR_FORCE" then true
  else terminal && (environment "NO_COLOR").isNone && !isOff "CLICOLOR"

end Seams.CommandLine
