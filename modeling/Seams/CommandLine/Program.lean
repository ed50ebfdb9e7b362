import Seams.CommandLine.Arguments
import Seams.CommandLine.Commands

/-! # The program
What the program does when it is called: it reads its arguments, finds its settings, and runs a
command.
Main definitions:
* **`Surroundings`** — the variables of the environment, the home directory and the terminal;
* **`findSettings`** — where the settings are;
* **`settingsPaths`**, **`pathsOf`** — the paths that a run may look at;
* **`run`** — what is printed, and the disk afterwards. -/

namespace Seams.CommandLine

/-- What the program finds around it, files apart. -/
structure Surroundings where
  /-- The value of a variable. -/
  environment : String → Option String
  /-- The home directory. -/
  home : Path
  /-- Whether the output goes to a terminal. -/
  terminal : Bool

/-- The variable that names the settings file. -/
def settingsVariable : String := "MONKEY_PATCHER_CONFIG"

/-- The name of the settings file in the current directory. -/
def settingsName : String := "monkey-patcher.toml"

/-- What is told if there are no settings. -/
def noSettingsText : String :=
  s!"No config found. Pass --config, set {settingsVariable}, or create ./{settingsName}"

/-- The settings file in the current directory, if it is there. -/
def localSettings? (d : Disk) : Option Path :=
  let p := d.current.path.join ⟨settingsName⟩
  if d.isThere p then some p else none

/-- Where the settings are: at the path given by the arguments, or by the environment if there is
something at that path, or in the current directory. The second result is a remark. -/
def findSettings (colours : Bool) (s : Surroundings) (d : Disk) (given : Option Path) :
    Option Path × String :=
  match given with
  | some p => (some p, "")
  | none =>
    match s.environment settingsVariable with
    | none => (localSettings? d, "")
    | some value =>
      if d.isThere ⟨value⟩ then (some ⟨value⟩, "")
      else
        (localSettings? d, Style.yellow.paint colours
          s!"Warning: {settingsVariable} is set but path doesn't exist: {value}" ++ "\n")

/-! ## What a run looks at -/

/-- The settings files that a run may look at. -/
def settingsPaths (s : Surroundings) (d : Disk) (given : Option Path) : List Path :=
  given.toList ++ (s.environment settingsVariable).toList.map Path.mk
    ++ [d.current.path.join ⟨settingsName⟩]

/-- The paths that a command may look at, each with whether it looks at what is below. -/
def pathsOf (config : Configuration) (c : Command) : List (Path × Bool) :=
  let named := match c with
    | .patch file _ => [file]
    | .scope path => [path]
    | _ => []
  named.map (·, false) ++ config.cacheDir.toList.map (·, true)
    ++ config.includePaths.map (·, c == .warm) ++ config.excludePaths.map (·, false)

/-! ## Running -/

/-- Run a command. -/
def runCommand (colours : Bool) (d : Disk) (config : Configuration) : Command → Outcome × Disk
  | .patch file diff => patchCommand colours d config file diff
  | .scope path => (scopeCommand colours d config path, d)
  | .status => statusCommand colours d config
  | .warm => warmCommand colours d config
  | .clear => clearCommand colours d config

/-- Run a command with its settings. -/
def invoke (s : Surroundings) (d : Disk) (i : Invocation) : Outcome × Disk :=
  let colours := asksForColours s.environment s.terminal
  match findSettings colours s d i.config with
  | (none, remark) => (.failure "" remark noSettingsText [], d)
  | (some p, remark) =>
    match Configuration.ofPath s.home d p with
    | .error e => (.failure "" remark s!"loading {p.text}" (e.message :: e.causes), d)
    | .ok config =>
      let (outcome, d) := runCommand colours d config i.command
      ({ outcome with remarks := remark ++ outcome.remarks }, d)

/-- What is printed, and the disk afterwards. -/
def run (s : Surroundings) (d : Disk) (arguments : List String) : Outcome × Disk :=
  match Answer.ofArguments arguments with
  | .print text => (.success (bytesOf text) "", d)
  | .refuse cause => (⟨2, ByteArray.empty, cause.message⟩, d)
  | .invoke i => invoke s d i

end Seams.CommandLine
