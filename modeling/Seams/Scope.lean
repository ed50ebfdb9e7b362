import Seams.Files.Disk

/-! # Scope
Which files are rewritten is said by directories whose files are, and directories whose files are
not. Files are compared by their real places, so all spellings of a path are treated alike.
Main definitions:
* **`Path.lexicalPlace`** — where a path leads if there are no links;
* **`Disk.normalize`** — where a path leads;
* **`Scope`** — directories that are in scope, and directories that are not;
* **`Scope.covers`** — whether a place is in scope. -/

namespace Seams

/-- The place that a path from the top leads to if there are no links. -/
def Path.lexicalPlace (p : Path) : Location := p.steps.foldl Location.step []

namespace Disk

/-- The path, taken from the current directory if it does not start at the top. -/
def absolute (d : Disk) (p : Path) : Path := if p.isAbsolute then p else d.current.path.join p

/-- The place that a path leads to, or would lead to without links if there is nothing. -/
def normalize (d : Disk) (p : Path) : Location :=
  match d.realPath (d.absolute p) with
  | .ok place => place
  | .error _ => (d.absolute p).lexicalPlace

end Disk

/-- Directories that are in scope, and directories that are not. -/
structure Scope where
  /-- Directories in scope. -/
  included : List Location
  /-- Directories that are not, even below those in scope. -/
  excluded : List Location
  deriving DecidableEq, Repr

namespace Scope

/-- The scope of directories given by paths. -/
def of (d : Disk) (included excluded : List Path) : Scope :=
  ⟨included.map d.normalize, excluded.map d.normalize⟩

/-- Whether a place is in scope: at or below an included directory and not at or below an excluded
one. -/
def covers (s : Scope) (place : Location) : Bool :=
  !s.excluded.any (·.isPrefixOf place) && s.included.any (·.isPrefixOf place)

/-- Whether the place that a path leads to is in scope. -/
def holds (s : Scope) (d : Disk) (p : Path) : Bool := s.covers (d.normalize p)

end Scope

end Seams
