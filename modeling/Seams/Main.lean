import Seams.CommandLine.Program
import Seams.Files.Difference

/-! # The command line
The outer layer of the program. It copies the files that a run may look at into a `Disk`, runs the
program on it, brings the files in line with the disk afterwards, and prints.
Main definitions:
* **`Survey.visit`** — copy what a path leads to;
* **`settle`** — bring the files in line with a disk;
* **`start`** — run the program on the files that there are. -/

namespace Seams.CommandLine

/-- What is known of the files. -/
structure Survey where
  /-- The entries that have been met. -/
  disk : Disk
  /-- The directories with all that is below them. -/
  listed : List Location

/-- The survey with an entry that has been met. -/
def Survey.note (s : Survey) (place : Location) (e : Entry) : Survey :=
  if (s.disk.get? place).isSome then s
  else { s with disk := { s.disk with entries := (place, e) :: s.disk.entries } }

/-- The survey with what steps from a directory lead to, and with `deep` also what is below. -/
partial def Survey.visit (deep : Bool) (s : Survey) (place : Location) (steps : List Step) :
    IO Survey := do
  let top ← IO.currentDir
  match steps with
  | [] =>
    if !deep || s.listed.contains place then pure s
    else
      let mut s := { s with listed := place :: s.listed }
      for e in ← (top / place.path.text).readDir do
        s ← visit deep s place [.name e.fileName]
      pure s
  | .up :: rest => visit deep s place.dropLast rest
  | .name name :: rest =>
    let here := place ++ [name]
    let file := top / here.path.text
    match ← file.symlinkMetadata.toBaseIO with
    | .error _ => pure s
    | .ok found =>
      match found.type with
      | .dir => visit deep (s.note here .directory) here rest
      | .file => pure (s.note here (.file (← IO.FS.readBinFile file)))
      | .symlink =>
        match ← (IO.FS.realPath file).toBaseIO with
        | .error _ => pure (s.note here (.link ⟨""⟩))
        | .ok target =>
          visit deep (s.note here (.link ⟨target.toString⟩)) []
            ((Path.mk target.toString).steps ++ rest)
      | .other => pure s

/-- The survey with what a path leads to. -/
def Survey.add (s : Survey) (deep : Bool) (p : Path) : IO Survey :=
  s.visit deep (if p.isAbsolute then [] else s.disk.current) p.steps

/-- The survey with all that an invocation may look at. -/
def Survey.addFor (s : Survey) (around : Surroundings) (i : Invocation) : IO Survey := do
  let mut s := s
  for p in settingsPaths around s.disk i.config do
    s ← s.add false p
  match findSettings false around s.disk i.config with
  | (none, _) => pure s
  | (some p, _) =>
    match Configuration.ofPath around.home s.disk p with
    | .error _ => pure s
    | .ok config =>
      for (p, deep) in pathsOf config i.command do
        s ← s.add deep p
      pure s

/-- Bring the files from one disk in line with another one. A file is complete before it is put in
its place. -/
def settle (before after : Disk) : IO Unit := do
  let top ← IO.currentDir
  for place in before.lost after do
    let file := top / place.path.text
    if (before.get? place) == some .directory then IO.FS.removeDirAll file
    else IO.FS.removeFile file
  for (place, entry) in before.gained after do
    let file := top / place.path.text
    match entry with
    | .directory => IO.FS.createDirAll file
    | .file content =>
      let part := top / (place.path.text ++ ".part")
      IO.FS.writeBinFile part content
      IO.FS.rename part file
    | .link _ => pure ()

/-- The variables of the environment that matter. -/
def variableNames : List String := [settingsVariable, "CLICOLOR_FORCE", "CLICOLOR", "NO_COLOR"]

/-- Run the program on the files that there are. -/
def start (arguments : List String) : IO UInt32 := do
  let values ← variableNames.filterMapM fun name => do
    pure ((← IO.getEnv name).map (name, ·))
  let around : Surroundings :=
    ⟨fun name => values.lookup name, ⟨(← IO.getEnv "HOME").getD "~"⟩, ← (← IO.getStdout).isTty⟩
  let current := (Path.mk (← IO.currentDir).toString).lexicalPlace
  let survey ← (Survey.mk ⟨[], current⟩ []).visit false [] (current.map Step.name)
  let survey ← match Answer.ofArguments arguments with
    | .invoke i => survey.addFor around i
    | _ => pure survey
  let (outcome, disk) := run around survey.disk arguments
  settle survey.disk disk
  (← IO.getStdout).write outcome.output
  (← IO.getStderr).putStr outcome.remarks
  pure outcome.code.toUInt32

end Seams.CommandLine

/-- Run the program. -/
def main (arguments : List String) : IO UInt32 := Seams.CommandLine.start arguments
