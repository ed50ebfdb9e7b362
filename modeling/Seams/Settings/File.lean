import Seams.Text.Blank

/-! # Settings as they are written
What a settings file may say, and what is wrong with what it says.
Main definitions:
* **`SettingsFile`** — the settings of a file;
* **`SettingsFile.issues`** — all that is wrong with them. -/

namespace Seams

/-- The settings of a file. -/
structure SettingsFile where
  /-- Where rewritten sources are kept. -/
  cacheDir : Option String
  /-- What is rewritten. -/
  includePaths : List String
  /-- What is not rewritten all the same. -/
  excludePaths : List String
  /-- The names of the patchers in order. -/
  patcherList : Option (List String)
  /-- Functions that are redirected in addition to the usual ones. -/
  functionsToPatch : List String
  /-- The class that signals an exit. -/
  exitClass : Option String
  /-- Whether rewritten sources are validated. -/
  verifyOutput : Bool
  deriving DecidableEq, Repr

/-- What is wrong with settings. -/
inductive SettingsIssue where
  /-- A setting that is needed is not given. -/
  | missing (field : String)
  /-- A setting has a blank entry. -/
  | emptyEntry (field : String)
  /-- A patcher is listed again. -/
  | duplicate (name : String)
  deriving DecidableEq, Repr

/-- What is told to the user. -/
def SettingsIssue.message : SettingsIssue → String
  | missing field => s!"missing required setting '{field}'"
  | emptyEntry field => s!"'{field}' contains an empty entry"
  | duplicate name => s!"patcher '{name}' listed more than once"

/-- The entries of a list that have occurred before, those in front of the list included. -/
def repeated (before : List String) : List String → List String
  | [] => []
  | x :: xs => if before.contains x then x :: repeated before xs else repeated (x :: before) xs

namespace SettingsFile

/-- The settings of an empty file. -/
def empty : SettingsFile := ⟨none, [], [], none, [], none, false⟩

/-- The lists of settings with their names. -/
def lists (f : SettingsFile) : List (String × List String) :=
  [("include_paths", f.includePaths), ("exclude_paths", f.excludePaths),
   ("patcher_list", f.patcherList.getD []), ("functions_to_patch", f.functionsToPatch)]

/-- All that is wrong with the settings, in a fixed order. -/
def issues (f : SettingsFile) : List SettingsIssue :=
  (if Text.isBlankText (f.cacheDir.getD "") then [.missing "cache_dir"] else [])
  ++ (if f.includePaths.isEmpty then [.missing "include_paths"] else [])
  ++ f.lists.filterMap (fun (field, entries) =>
      if entries.any Text.isBlankText then some (.emptyEntry field) else none)
  ++ (repeated [] (f.patcherList.getD [])).map .duplicate
  ++ (if f.exitClass.any Text.isBlankText then [.emptyEntry "exit_exception_classname"] else [])

end SettingsFile

end Seams
