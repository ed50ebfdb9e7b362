import Seams.Files.Disk
import Seams.Redirect.Calls
import Seams.Redirect.Exits
import Seams.Redirect.Methods
import Seams.Redirect.Names
import Seams.Settings.Toml

/-! # Configurations
What is rewritten, by which patchers, and where it is kept. A configuration can be changed until it
is locked; a change of a locked one fails and leaves it as it is.
Main definitions:
* **`Configuration`** — the settings in use;
* **`ConfigError`** — why settings cannot be read, changed or used;
* **`Configuration.setCacheDir`** and its kin — the changes;
* **`Configuration.ofText`**, **`Configuration.ofPath`** — the configuration of a settings file. -/

namespace Seams

/-- Why settings cannot be read, changed or used. -/
inductive ConfigError where
  /-- The settings file cannot be read. -/
  | unreadable (path : Path) (cause : Fault)
  /-- The settings file is no document of settings. -/
  | malformed (path : Option Path)
  /-- The settings are wrong. -/
  | invalid (path : Option Path) (issues : List SettingsIssue)
  /-- A setting that is needed was never given. -/
  | missingSetting (setting : String)
  /-- The configuration is locked. -/
  | locked (operation : String)
  /-- A patcher is listed that there is not. -/
  | unknownPatcher (name : String)
  /-- A name that stays on the blacklist was to be taken off. -/
  | protectedName (name : String)
  deriving DecidableEq, Repr

namespace ConfigError

/-- The path of a settings file in parentheses, if there is one. -/
def place : Option Path → String
  | some p => " (" ++ p.text ++ ")"
  | none => ""

/-- What is told of wrong settings, a line for each. -/
def issuesText (issues : List SettingsIssue) : String :=
  "\n".intercalate (issues.map SettingsIssue.message)

/-- What is told of a document that is malformed. -/
def malformedText : String := "malformed settings"

/-- What is told to the user. -/
def message : ConfigError → String
  | unreadable path cause => s!"failed to read config from {path.text}: {cause.message}"
  | malformed path => "failed to parse config TOML" ++ place path ++ ": " ++ malformedText
  | invalid path issues => "invalid config" ++ place path ++ ": " ++ issuesText issues
  | missingSetting setting => s!"you have to set '{setting}'"
  | locked operation => s!"can't {operation} after initialisation"
  | unknownPatcher name => s!"unknown patcher '{name}'"
  | protectedName name => s!"'{name}' must stay blacklisted"

/-- The error with the path of the settings file that it is about. -/
def withPath (p : Path) : ConfigError → ConfigError
  | malformed none => malformed (some p)
  | invalid none issues => invalid (some p) issues
  | e => e

end ConfigError

/-- The settings in use. -/
structure Configuration where
  /-- Where rewritten sources are kept. -/
  cacheDir : Option Path
  /-- What is rewritten. -/
  includePaths : List Path
  /-- What is not rewritten all the same. -/
  excludePaths : List Path
  /-- The names of the patchers in order. -/
  patcherList : List String
  /-- The functions that are redirected. -/
  whitelist : NameSet
  /-- The functions that are not redirected all the same. -/
  blacklist : NameSet
  /-- The class that signals an exit. -/
  exitClass : String
  /-- Whether rewritten sources are validated. -/
  verifyOutput : Bool
  /-- Whether the configuration can no longer be changed. -/
  isLocked : Bool
  deriving DecidableEq

namespace Configuration

/-- The class that signals an exit unless told otherwise. -/
def usualExitClass : String := "MonkeyPatch\\Exception\\ExitException"

/-- The patchers that there are without being registered. -/
def builtIn : List String := [Redirect.exitsName, Redirect.callsName, Redirect.methodsName]

/-- The configuration where nothing is set. -/
def initial : Configuration :=
  ⟨none, [], [], builtIn, Redirect.usualWhitelist, Redirect.usualBlacklist, usualExitClass, false,
    false⟩

/-! ## Changes -/

/-- A change, unless the configuration is locked. -/
def change (c : Configuration) (operation : String) (f : Configuration → Configuration) :
    Except ConfigError Configuration :=
  if c.isLocked then .error (.locked operation) else .ok (f c)

/-- Set where rewritten sources are kept. -/
def setCacheDir (c : Configuration) (dir : Path) : Except ConfigError Configuration :=
  c.change "change cache_dir" fun c => { c with cacheDir := some dir }

/-- Set what is rewritten. -/
def setIncludePaths (c : Configuration) (paths : List Path) : Except ConfigError Configuration :=
  c.change "change include_paths" fun c => { c with includePaths := paths }

/-- Set what is not rewritten all the same. -/
def setExcludePaths (c : Configuration) (paths : List Path) : Except ConfigError Configuration :=
  c.change "change exclude_paths" fun c => { c with excludePaths := paths }

/-- Set the patchers. -/
def setPatcherList (c : Configuration) (names : List String) : Except ConfigError Configuration :=
  c.change "change patcher list" fun c => { c with patcherList := names }

/-- Redirect further functions. -/
def addWhitelist (c : Configuration) (names : List String) : Except ConfigError Configuration :=
  c.change "add to whitelist" fun c => { c with whitelist := c.whitelist.insertAll names }

/-- Do not redirect a function. -/
def addBlacklist (c : Configuration) (name : String) : Except ConfigError Configuration :=
  c.change "add to blacklist" fun c => { c with blacklist := c.blacklist.insert name }

/-- Take a function off the blacklist, unless it is the one that signals an exit. -/
def removeBlacklist (c : Configuration) (name : String) : Except ConfigError Configuration :=
  if c.isLocked then .error (.locked "remove from blacklist")
  else if foldName name = Registry.exitFunction then .error (.protectedName Registry.exitFunction)
  else .ok { c with blacklist := c.blacklist.remove name }

/-- Set the class that signals an exit. -/
def setExitClass (c : Configuration) (name : String) : Except ConfigError Configuration :=
  c.change "change exit exception classname" fun c => { c with exitClass := name }

/-- Set whether rewritten sources are validated. -/
def setVerifyOutput (c : Configuration) (verify : Bool) : Except ConfigError Configuration :=
  c.change "change output verification" fun c => { c with verifyOutput := verify }

/-- The configuration, no longer to be changed. -/
def lock (c : Configuration) : Configuration := { c with isLocked := true }

/-- Where rewritten sources are kept, which must be set by now. -/
def requireCacheDir (c : Configuration) : Except ConfigError Path :=
  match c.cacheDir with
  | some dir => .ok dir
  | none => .error (.missingSetting "cache_dir")

/-! ## Settings files -/

/-- A path of a settings file: white space at its ends is left out, a tilde in front stands for the
home directory, and a relative path is taken from the base directory, if there is one. -/
def resolvePath (home : Path) (base : Option Path) (raw : String) : Path :=
  let trimmed := Text.trim raw
  if trimmed.startsWith "~/" then home.join ⟨String.ofList (trimmed.toList.drop 2)⟩
  else match base with
    | some base => base.join ⟨trimmed⟩
    | none => ⟨trimmed⟩

/-- The configuration of the settings of a file. -/
def ofFile (home : Path) (base : Option Path) (f : SettingsFile) :
    Except ConfigError Configuration := do
  let resolve := resolvePath home base
  let c := initial
  let c ← match f.cacheDir with
    | some dir => c.setCacheDir (resolve dir)
    | none => .ok c
  let c ← c.setIncludePaths (f.includePaths.map resolve)
  let c ← c.setExcludePaths (f.excludePaths.map resolve)
  let c ← match f.patcherList with
    | some names => c.setPatcherList names
    | none => .ok c
  let c ← c.addWhitelist f.functionsToPatch
  let c ← match f.exitClass with
    | some name => c.setExitClass name
    | none => .ok c
  c.setVerifyOutput f.verifyOutput

/-- The configuration of the text of a settings file. -/
def ofText (home : Path) (base : Option Path) (text : String) : Except ConfigError Configuration :=
  match SettingsFile.ofToml? text with
  | none => .error (.malformed none)
  | some f =>
    match f.issues with
    | [] => ofFile home base f
    | issues => .error (.invalid none issues)

/-- The configuration of a settings file. Its relative paths are taken from its directory. -/
def ofPath (home : Path) (d : Disk) (p : Path) : Except ConfigError Configuration :=
  match d.readText p with
  | .error e => .error (.unreadable p e)
  | .ok text => (ofText home p.parent? text).mapError (ConfigError.withPath p)

end Configuration

end Seams
