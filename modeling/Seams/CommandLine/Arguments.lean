import Seams.CommandLine.Similar
import Seams.CommandLine.Usage
import Seams.Files.Path

/-! # Arguments
What the program is told by its arguments.
Main definitions:
* **`Command`**, **`Invocation`** — what is to be done, and with which settings file;
* **`Answer`** — an invocation, or what is printed instead;
* **`Refusal`** — why arguments are not understood;
* **`Answer.ofArguments`** — what arguments mean. -/

namespace Seams.CommandLine

/-- What is to be done. -/
inductive Command where
  /-- Print the source that is loaded for a file, or how it differs from the file. -/
  | patch (file : Path) (diff : Bool)
  /-- Tell whether a path is in scope. -/
  | scope (path : Path)
  /-- Tell the state of the cache. -/
  | status
  /-- Fill the cache. -/
  | warm
  /-- Empty the cache. -/
  | clear
  deriving DecidableEq, Repr

/-- What is to be done, and with which settings file, if one is named. -/
structure Invocation where
  /-- The settings file. -/
  config : Option Path
  /-- What is to be done. -/
  command : Command
  deriving DecidableEq, Repr

/-- Why arguments are not understood. -/
inductive Refusal where
  /-- There are none. -/
  | noArguments
  /-- There is no verb. -/
  | noVerb
  /-- A word is no verb. -/
  | unknownVerb (word : String) (similar : List String)
  /-- A verb stands behind two dashes. -/
  | verbBehindDashes (word : String)
  /-- An argument is not expected. The hints are told to the user. -/
  | unexpected (verb : Option Verb) (argument : String) (hints : List String)
      (used : List Switch)
  /-- The argument of a verb is missing. -/
  | missingArgument (verb : Verb) (argument : String) (used : List Switch)
  /-- The value of an option or an argument is missing or empty. -/
  | missingValue (shown : String)
  /-- An option has a value that takes none. -/
  | unexpectedValue (verb : Option Verb) (value : String) (option : Switch)
  /-- An option is given twice. -/
  | repeated (verb : Option Verb) (option : Switch)
  deriving DecidableEq, Repr

namespace Refusal

/-- What closes a message. -/
def seeHelp : String := "\n\nFor more information, try '--help'.\n"

/-- A list of words that might be meant. -/
def similarHint (what : String) : List String → List String
  | [] => []
  | [w] => [s!"a similar {what} exists: '{w}'"]
  | ws => [s!"some similar {what}s exist: " ++ ", ".intercalate (ws.map fun w => s!"'{w}'")]

/-- Hints, each on a line. -/
def hintLines : List String → String
  | [] => ""
  | hints => "\n" ++ String.join (hints.map fun h => "\n  tip: " ++ h)

/-- The usage for an error in which some options had been understood. -/
def usageAfter (verb : Option Verb) (used : List Switch) : String :=
  if used.isEmpty then usageOf verb else usageWith verb used

/-- What is told to the user. -/
def message : Refusal → String
  | noArguments => helpOf none
  | noVerb =>
    s!"error: '{programName}' requires a subcommand but one was not provided\n  [subcommands: "
      ++ ", ".intercalate (Verb.all.map Verb.name ++ [helpWord]) ++ "]\n\n" ++ usageOf none
      ++ seeHelp
  | unknownVerb word similar =>
    s!"error: unrecognized subcommand '{word}'" ++ hintLines (similarHint "subcommand" similar)
      ++ "\n\n" ++ usageOf none ++ seeHelp
  | verbBehindDashes word =>
    s!"error: unexpected argument '{word}' found"
      ++ hintLines [s!"subcommand '{word}' exists; to use it, remove the '--' before it"]
      ++ "\n\n" ++ usageOf none ++ seeHelp
  | unexpected verb argument hints used =>
    s!"error: unexpected argument '{argument}' found" ++ hintLines hints ++ "\n\n"
      ++ usageAfter verb used ++ seeHelp
  | missingArgument verb argument used =>
    "error: the following required arguments were not provided:\n  " ++ argument ++ "\n\n"
      ++ usageWith (some verb) used ++ seeHelp
  | missingValue shown =>
    s!"error: a value is required for '{shown}' but none was supplied" ++ seeHelp
  | unexpectedValue verb value option =>
    s!"error: unexpected value '{value}' for '{option.shown}' found; no more were expected\n\n"
      ++ usageOf verb ++ seeHelp
  | repeated verb option =>
    s!"error: the argument '{option.shown}' cannot be used multiple times\n\n" ++ usageOf verb
      ++ seeHelp

end Refusal

/-- What arguments mean. -/
inductive Answer where
  /-- Something is to be done. -/
  | invoke (invocation : Invocation)
  /-- A text is printed. -/
  | print (text : String)
  /-- The arguments are not understood. -/
  | refuse (cause : Refusal)
  deriving DecidableEq, Repr

/-- What has been understood so far. -/
structure Understood where
  /-- The settings file given before the verb. -/
  outerConfig : Option String := none
  /-- The verb. -/
  verb : Option Verb := none
  /-- The settings file given behind the verb, or before it as long as there is none. -/
  config : Option String := none
  /-- Whether a difference is asked for. -/
  diff : Bool := false
  /-- The argument of the verb. -/
  argument : Option String := none
  /-- The options that were given, behind the verb if there is one, in order. -/
  used : List Switch := []
  deriving Repr

namespace Understood

/-- What is known when a verb begins. -/
def start (u : Understood) (v : Verb) : Understood :=
  { outerConfig := u.config, verb := some v }

/-- The settings file that counts: the one given last. -/
def finalConfig (u : Understood) : Option Path := (u.config.or u.outerConfig).map Path.mk

/-- Take an option into account. -/
def note (u : Understood) (o : Switch) : Understood := { u with used := u.used ++ [o] }

/-- What is to be done when the arguments end. -/
def finish (u : Understood) : Answer :=
  match u.verb with
  | none => .refuse (if u.used.isEmpty then .noArguments else .noVerb)
  | some v =>
    let invoke (c : Command) : Answer := .invoke ⟨u.finalConfig, c⟩
    match v, u.argument with
    | .patch, some file => invoke (.patch ⟨file⟩ u.diff)
    | .scope, some path => invoke (.scope ⟨path⟩)
    | .status, _ => invoke .status
    | .warm, _ => invoke .warm
    | .clear, _ => invoke .clear
    | v, none => .refuse (.missingArgument v (v.argument?.getD "") u.used)

/-- The hint that an argument which looks like an option may be meant as a value. -/
def asValueHint (u : Understood) (argument : String) : List String :=
  if (u.verb.bind Verb.argument?).isSome then
    [s!"to pass '{argument}' as a value, use '-- {argument}'"]
  else []

/-- The refusal of a long option that is not known. -/
def unknownLong (u : Understood) (name : String) (rest : List String) : Answer :=
  let argument := "--" ++ name
  let hints :=
    match Similar.closest? name ((Switch.of u.verb).map Switch.long) with
    | some known => Refusal.similarHint "argument" ["--" ++ known]
    | none =>
      let elsewhere := if u.verb.isSome then [] else rest.filterMap fun w =>
        (Verb.ofName? w).bind fun v =>
          (Similar.closest? name ((Switch.of (some v)).map Switch.long)).map fun known =>
            s!"'{v.name} --{known}' exists"
      match elsewhere with
      | hint :: _ => [hint]
      | [] => u.asValueHint argument
  .refuse (.unexpected u.verb argument hints u.used)

/-- Take an argument that is no option into account. Behind two dashes verbs are not looked for. -/
def plain (u : Understood) (argument : String) (behindDashes : Bool) :
    Except Answer Understood :=
  match u.verb with
  | none =>
    let similar := Similar.similarTo argument (Verb.all.map Verb.name ++ [helpWord])
    match Verb.ofName? argument with
    | some v =>
      if behindDashes then .error (.refuse (.verbBehindDashes argument)) else .ok (u.start v)
    | none =>
      if argument == helpWord then .error (.refuse (.verbBehindDashes argument))
      else .error (.refuse (.unknownVerb argument similar))
  | some v =>
    match v.argument?, u.argument with
    | some shown, none =>
      if argument == "" then .error (.refuse (.missingValue shown))
      else .ok { u with argument := some argument }
    | _, _ => .error (.refuse (.unexpected u.verb argument [] []))

/-- Take an option without a value into account. -/
def flag (u : Understood) (o : Switch) : Except Answer Understood :=
  match o with
  | .help => .error (.print (helpOf u.verb))
  | .version => .error (.print versionText)
  | .diff =>
    if u.diff then .error (.refuse (.repeated u.verb .diff))
    else .ok { (u.note .diff) with diff := true }
  | .config => .error (.refuse (.missingValue Switch.config.shown))

/-- Take the settings file into account. -/
def setConfig (u : Understood) (value : String) : Except Answer Understood :=
  if value == "" then .error (.refuse (.missingValue Switch.config.shown))
  else if u.config.isSome then .error (.refuse (.repeated u.verb .config))
  else .ok { (u.note .config) with config := some value }

end Understood

/-- What an argument leads to: more has been understood, perhaps with the next argument as a value,
or all is said. -/
inductive Progress where
  /-- More has been understood. -/
  | more (understood : Understood)
  /-- The next argument is the settings file. -/
  | wantsConfig
  /-- All is said. -/
  | done (answer : Answer)

/-- The progress of what is understood, or of what is said. -/
def Progress.of : Except Answer Understood → Progress
  | .ok u => more u
  | .error a => done a

/-- What letters behind a single dash lead to. -/
def readLetters (u : Understood) : List Char → Progress
  | [] => .more u
  | c :: cs =>
    match (Switch.of u.verb).find? (·.letter == c) with
    | none =>
      let argument := "-" ++ String.singleton c
      .done (.refuse (.unexpected u.verb argument (u.asValueHint argument) []))
    | some .config =>
      match cs with
      | [] => .wantsConfig
      | '=' :: cs => .of (u.setConfig (String.ofList cs))
      | cs => .of (u.setConfig (String.ofList cs))
    | some o =>
      match u.flag o with
      | .error a => .done a
      | .ok u => readLetters u cs

/-- What an argument behind two dashes leads to. -/
def readLong (u : Understood) (body : String) (rest : List String) : Progress :=
  let (name, value) := match body.splitOn "=" with
    | [name] => (name, none)
    | name :: parts => (name, some ("=".intercalate parts))
    | [] => (body, none)
  match (Switch.of u.verb).find? (·.long == name), value with
  | none, _ => .done (u.unknownLong name rest)
  | some .config, none => .wantsConfig
  | some .config, some value => .of (u.setConfig value)
  | some o, none => .of (u.flag o)
  | some o, some value => .done (.refuse (.unexpectedValue u.verb value o))

/-- The answer to the word for help: the help for the verb that follows it. -/
def readHelp : List String → Answer
  | [] => .print (helpOf none)
  | word :: rest =>
    match Verb.ofName? word, rest with
    | some v, [] => .print (helpOf (some v))
    | some _, word :: _ => .refuse (.unknownVerb word [])
    | none, _ => if word == helpWord then .print (helpOf none) else .refuse (.unknownVerb word [])

/-- What the further arguments mean, of which all are values if `behindDashes` holds. -/
def readArguments (u : Understood) (behindDashes : Bool) : List String → Answer
  | [] => u.finish
  | a :: rest =>
    if !behindDashes && a == "--" then readArguments u true rest
    else if !behindDashes && u.verb.isNone && a == helpWord then readHelp rest
    else
      let progress :=
        -- A dash by itself is a value, and so is everything behind two dashes.
        if behindDashes || !a.startsWith "-" || a == "-" then .of (u.plain a behindDashes)
        else if a.startsWith "--" then readLong u (String.ofList (a.toList.drop 2)) rest
        else readLetters u (a.toList.drop 1)
      match progress with
      | .done answer => answer
      | .more u => readArguments u behindDashes rest
      | .wantsConfig =>
        match rest with
        | value :: rest =>
          if value.startsWith "-" && value != "-" then
            .refuse (.missingValue Switch.config.shown)
          else match u.setConfig value with
            | .error answer => answer
            | .ok u => readArguments u behindDashes rest
        | [] => .refuse (.missingValue Switch.config.shown)

/-- What arguments mean. -/
def Answer.ofArguments (arguments : List String) : Answer := readArguments {} false arguments

end Seams.CommandLine
