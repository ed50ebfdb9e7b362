import Seams.Files.Disk

/-! # Walking directories
Main definitions:
* **`Disk.below`** — all that is below a path, with the links that lead nowhere or to a directory
  that is being walked;
* **`Disk.filesBelow`** — the files below a path. -/

namespace Seams

/-- Why a walk cannot go on at a place. -/
inductive WalkFault where
  /-- An entry cannot be looked at. -/
  | unreadable (path : Path) (cause : Fault)
  /-- A link leads to a directory that is being walked. -/
  | loop (path ancestor : Path)
  deriving DecidableEq, Repr

/-- What is told to the user. -/
def WalkFault.message : WalkFault → String
  | unreadable path cause => s!"IO error for operation on {path.text}: {cause.message}"
  | loop path ancestor =>
    s!"File system loop found: {path.text} points to an ancestor {ancestor.text}"

namespace Disk

mutual

/-- What there is at a path and below it, a directory before its entries. The directories that are
being walked are given with their paths, the innermost first. -/
def belowWithin (d : Disk) (follow : Bool) (fuel : Nat) (above : List (Location × Path))
    (path : Path) : List (Except WalkFault (Path × Bool)) :=
  match fuel with
  | 0 => []
  | fuel + 1 =>
    match d.find (follow || above.isEmpty) path with
    | .error e => [.error (.unreadable path e)]
    | .ok (.vacant _) => [.error (.unreadable path .notFound)]
    | .ok (.present place .directory) =>
      let linked : Bool := match d.find false path with
        | .ok (.present _ (.link _)) => true
        | _ => false
      match above.find? fun a => linked && a.1 = place with
      | some (_, ancestor) => [.error (.loop path ancestor)]
      | none =>
        .ok (path, false) :: belowNames d follow fuel ((place, path) :: above) path (d.names place)
    | .ok (.present _ (.file _)) => [.ok (path, true)]
    | .ok (.present _ (.link _)) => [.ok (path, false)]

/-- What there is at the given entries of a directory and below them. -/
def belowNames (d : Disk) (follow : Bool) (fuel : Nat) (above : List (Location × Path))
    (path : Path) : List String → List (Except WalkFault (Path × Bool))
  | [] => []
  | name :: names =>
    belowWithin d follow fuel above (path.child name) ++ belowNames d follow fuel above path names

end

/-- What there is at a path and below it, each with whether it is a file. Links other than the path
itself are followed only if that is asked for. No directory is entered again through a link as
long as it is being walked, so the walk is at most as deep as the square of the number of
entries. -/
def below (d : Disk) (follow : Bool) (path : Path) : List (Except WalkFault (Path × Bool)) :=
  d.belowWithin follow ((d.entries.length + 2) * (d.entries.length + 2)) [] path

/-- The files at a path and below it. -/
def filesBelow (d : Disk) (follow : Bool) (path : Path) : List Path :=
  (d.below follow path).filterMap fun
    | .ok (p, true) => some p
    | _ => none

end Disk

end Seams
