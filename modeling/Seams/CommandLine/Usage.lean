/-! # Usage
What the program says of its own use.
Main definitions:
* **`Verb`** — what the program can be told to do;
* **`usageOf`**, **`helpOf`** — the usage of a verb, and the help for it;
* **`Switch`** — the options. -/

namespace Seams.CommandLine

/-- What the program can be told to do. -/
inductive Verb where
  /-- Print a rewritten source. -/
  | patch
  /-- Tell whether a path is in scope. -/
  | scope
  /-- Tell the state of the cache. -/
  | status
  /-- Fill the cache. -/
  | warm
  /-- Empty the cache. -/
  | clear
  deriving DecidableEq, Repr

/-- The name of the program. -/
def programName : String := "monkey-patcher"

/-- The version of the program. -/
def versionText : String := programName ++ " 0.1.0\n"

namespace Verb

/-- All verbs in order. -/
def all : List Verb := [patch, scope, status, warm, clear]

/-- The word for a verb. -/
def name : Verb → String
  | patch => "patch"
  | scope => "scope"
  | status => "status"
  | warm => "warm"
  | clear => "clear"

/-- The verb of a word. -/
def ofName? (name : String) : Option Verb := all.find? (·.name == name)

/-- What a verb does. -/
def about : Verb → String
  | patch => "Print the source the runtime would load for a file"
  | scope => "Tell whether a path is rewritten"
  | status => "Compare the cache's axis records with the current configuration"
  | warm => "Resolve every in-scope .php file so later loads hit the cache"
  | clear => "Drop every cached rewrite"

/-- The argument that a verb takes. -/
def argument? : Verb → Option String
  | patch => some "<FILE>"
  | scope => some "<PATH>"
  | _ => none

end Verb

/-- The word for help, which stands beside the verbs. -/
def helpWord : String := "help"

/-- An option. -/
inductive Switch where
  /-- Where the settings are. -/
  | config
  /-- Whether a difference is shown. -/
  | diff
  /-- Print help. -/
  | help
  /-- Print the version. -/
  | version
  deriving DecidableEq, Repr

namespace Switch

/-- The long name of an option. -/
def long : Switch → String
  | config => "config"
  | diff => "diff"
  | help => "help"
  | version => "version"

/-- The letter of an option. -/
def letter : Switch → Char
  | config => 'c'
  | diff => 'd'
  | help => 'h'
  | version => 'V'

/-- How an option is written in usages. -/
def shown : Switch → String
  | config => "--config <CONFIG>"
  | o => "--" ++ o.long

/-- What an option does. -/
def about : Switch → String
  | config => "Config file (defaults to $MONKEY_PATCHER_CONFIG, then ./monkey-patcher.toml)"
  | diff => "Show a unified diff against the file on disk instead"
  | help => "Print help"
  | version => "Print version"

/-- The options of a verb, or of the program itself, in the order in which they are listed. -/
def of : Option Verb → List Switch
  | none => [config, help, version]
  | some .patch => [config, diff, help]
  | some _ => [config, help]

end Switch

/-- Entries in two columns. -/
def columns (entries : List (String × String)) : String :=
  let width := entries.foldl (fun n e => max n e.1.length) 0
  String.join (entries.map fun (left, right) =>
    "  " ++ left ++ String.ofList (List.replicate (width - left.length) ' ') ++ "  " ++ right
      ++ "\n")

/-- How the program is called, up to the options. -/
def callOf : Option Verb → String
  | none => programName
  | some v => programName ++ " " ++ v.name

/-- What follows the options in a call. -/
def operandsOf : Option Verb → String
  | none => " <COMMAND>"
  | some v => match v.argument? with
    | some a => " " ++ a
    | none => ""

/-- How the program is used. -/
def usageOf (v : Option Verb) : String :=
  "Usage: " ++ callOf v ++ " [OPTIONS]" ++ operandsOf v

/-- How the program is used with given options. -/
def usageWith (v : Option Verb) (used : List Switch) : String :=
  "Usage: " ++ callOf v ++ String.join (used.map fun o => " " ++ o.shown) ++ operandsOf v

/-- The options in two columns. -/
def optionColumns (v : Option Verb) : String :=
  columns ((Switch.of v).map fun o =>
    ("-" ++ String.singleton o.letter ++ ", " ++ o.shown, o.about))

/-- The help for a verb, or for the program itself. -/
def helpOf : Option Verb → String
  | none =>
    "Load-time call rewriting for PHP test suites\n\n" ++ usageOf none ++ "\n\nCommands:\n"
      ++ columns (Verb.all.map (fun v => (v.name, v.about))
        ++ [(helpWord, "Print this message or the help of the given subcommand(s)")])
      ++ "\nOptions:\n" ++ optionColumns none
  | some v =>
    v.about ++ "\n\n" ++ usageOf (some v) ++ "\n\n"
      ++ (match v.argument? with
        | some a => "Arguments:\n" ++ columns [(a, "")] ++ "\n"
        | none => "")
      ++ "Options:\n" ++ optionColumns (some v)

end Seams.CommandLine
