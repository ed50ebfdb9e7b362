/-! # Paths
A path is text as the user writes it. What it leads to depends on the files there are and on the
current directory, and is told elsewhere; here is what can be told from the text.
Main definitions:
* **`Path`** — a path as it is written;
* **`Path.join`**, **`Path.parent?`** — a path below another one, and the path above one;
* **`Path.steps`** — the steps on the way that a path describes;
* **`Location`** — a place reached by names alone, from the top. -/

namespace Seams

/-- A path as it is written. -/
structure Path where
  /-- The text. -/
  text : String
  deriving DecidableEq, Repr

/-- A step on a way through directories. -/
inductive Step where
  /-- To the directory above. -/
  | up
  /-- To the entry of this name. -/
  | name (name : String)
  deriving DecidableEq, Repr

/-- A place reached by names alone, from the top. -/
abbrev Location := List String

namespace Path

/-- Whether the path starts at the top. -/
def isAbsolute (p : Path) : Bool := p.text.toList.head? == some '/'

/-- Whether the path ends in a slash. -/
def endsInSlash (p : Path) : Bool := p.text.toList.getLast? == some '/'

/-- The path `q`, taken from `p` if it does not start at the top. -/
def join (p q : Path) : Path :=
  if q.isAbsolute then q
  else if p.text == "" || p.endsInSlash then ⟨p.text ++ q.text⟩
  else ⟨p.text ++ "/" ++ q.text⟩

/-- The path of an entry with the given name. -/
def child (p : Path) (name : String) : Path := p.join ⟨name⟩

/-- The texts between slashes. -/
def pieces (p : Path) : List String := (p.text.toList.splitOn '/').map String.ofList

/-- The step for a piece of a path. Nothing and a single dot are none. -/
def stepOf (piece : String) : Option Step :=
  if piece == "" || piece == "." then none
  else if piece == ".." then some .up
  else some (.name piece)

/-- The steps on the way that a path describes. -/
def steps (p : Path) : List Step := p.pieces.filterMap stepOf

/-- Whether the path can only lead to a directory, since it ends in a slash or in a dot. -/
def asksForDirectory (p : Path) : Bool := p.pieces.getLast?.any fun s => s == "" || s == "."

/-- The pieces up to the last that is a step, and without that step. -/
def withoutLastStep (pieces : List String) : Option (List String) :=
  match pieces.reverse.dropWhile fun s => (stepOf s).isNone with
  | [] => none
  | _ :: above => some (above.dropWhile fun s => (stepOf s).isNone).reverse

/-- The path above the last step. The top and the empty path have none. -/
def parent? (p : Path) : Option Path :=
  match p.pieces with
  | "" :: rest => (withoutLastStep rest).map fun above => ⟨"/" ++ "/".intercalate above⟩
  | "." :: rest =>
    match withoutLastStep rest with
    | some above => some ⟨"/".intercalate ("." :: above)⟩
    | none => some ⟨""⟩
  | pieces => (withoutLastStep pieces).map fun above => ⟨"/".intercalate above⟩

/-- What follows the last dot of the last name, if there is a name in front of that dot. -/
def extension? (p : Path) : Option String :=
  match p.steps.getLast? with
  | some (.name name) =>
    let cs := name.toList.reverse
    match cs.dropWhile (· != '.') with
    | _ :: _ :: _ => some (String.ofList (cs.takeWhile (· != '.')).reverse)
    | _ => none
  | _ => none

end Path

namespace Location

/-- The place after a step. There is nothing above the top. -/
def step (l : Location) : Step → Location
  | .up => l.dropLast
  | .name name => l ++ [name]

/-- The path that leads to a place from the top. -/
def path (l : Location) : Path := ⟨"/" ++ "/".intercalate l⟩

end Location

end Seams
