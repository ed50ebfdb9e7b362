import Seams.Text.Bytes
import Seams.Files.Path

/-! # Files
Files, directories and symbolic links, as a value. Operations answer with what they found and with
the disk afterwards, so runs of operations can be compared and cut short.
Main definitions:
* **`Disk`** — the entries below the top, and the current directory;
* **`Fault`** — why an operation on files fails;
* **`Disk.find`** — what a path leads to;
* **`Disk.read`**, **`Disk.realPath`** — the content and the place of a file;
* **`Change`** — a change of a disk, and **`Disk.apply`** — its effect. -/

namespace Seams

/-- What a disk holds at a place. -/
inductive Entry where
  /-- A file. -/
  | file (content : Bytes)
  /-- A directory. -/
  | directory
  /-- A symbolic link. -/
  | link (target : Path)
  deriving DecidableEq

/-- Why an operation on files fails. -/
inductive Fault where
  /-- There is no such entry. -/
  | notFound
  /-- There is an entry already. -/
  | exists
  /-- An entry on the way is no directory. -/
  | notDirectory
  /-- The entry is a directory. -/
  | isDirectory
  /-- A name or a path is too long. -/
  | nameTooLong
  /-- Links lead to links without end. -/
  | linkLoop
  /-- The path cannot be replaced as long as it is in use. -/
  | busy
  /-- The path holds a character that no name may hold. -/
  | nulInName
  /-- The content is not well-formed text. -/
  | notText
  /-- The path has nothing above it. -/
  | noParent
  deriving DecidableEq, Repr

/-- What is told to the user. -/
def Fault.message : Fault → String
  | notFound => "No such file or directory (os error 2)"
  | .exists => "File exists (os error 17)"
  | notDirectory => "Not a directory (os error 20)"
  | isDirectory => "Is a directory (os error 21)"
  | nameTooLong => "File name too long (os error 36)"
  | linkLoop => "Too many levels of symbolic links (os error 40)"
  | busy => "Device or resource busy (os error 16)"
  | nulInName => "file name contained an unexpected NUL byte"
  | notText => "stream did not contain valid UTF-8"
  | noParent => "path has no parent directory"

/-- The entries below the top, and the current directory. -/
structure Disk where
  /-- What there is at which place. The top is a directory without being listed. -/
  entries : List (Location × Entry)
  /-- Where relative paths start. -/
  current : Location

namespace Disk

/-- What there is at a place. -/
def get? (d : Disk) (l : Location) : Option Entry :=
  if l = [] then some .directory else d.entries.lookup l

/-- The disk with an entry put at a place. -/
def put (d : Disk) (l : Location) (e : Entry) : Disk :=
  { d with entries := (l, e) :: d.entries.filter (·.1 != l) }

/-- The disk without a place and all that is below it. -/
def cut (d : Disk) (l : Location) : Disk :=
  { d with entries := d.entries.filter fun entry => !l.isPrefixOf entry.1 }

/-- The names of the entries of a directory, ascending. -/
def names (d : Disk) (l : Location) : List String :=
  let found := d.entries.filterMap fun entry =>
    if entry.1.dropLast = l then entry.1.getLast? else none
  found.mergeSort fun a b => decide (a ≤ b)

/-! ## Finding -/

/-- What a path leads to. -/
inductive Target where
  /-- An entry that there is. -/
  | present (place : Location) (entry : Entry)
  /-- A place in a directory that there is, where there is no entry. -/
  | vacant (place : Location)

/-- The number of links that a path may lead over. -/
def linkLimit : Nat := 40

/-- The number of bytes that a name may have. -/
def nameLimit : Nat := 255

/-- The number of bytes that a path may have. -/
def pathLimit : Nat := 4095

/-- What the steps from a directory lead to, where `cross` tells what a link that was met leads to:
it is given the directory of the link, its target, the steps behind it, and whether a directory is
asked for. -/
def walkWith (d : Disk) (follow : Bool)
    (cross : Location → Path → List Step → Bool → Except Fault Target) (place : Location)
    (directory : Bool) : List Step → Except Fault Target
  | [] => .ok (.present place .directory)
  | .up :: rest => walkWith d follow cross place.dropLast directory rest
  | .name name :: rest =>
    let here := place ++ [name]
    if name.utf8ByteSize > nameLimit then .error .nameTooLong
    else match d.get? here with
      | none => if rest.isEmpty then .ok (.vacant here) else .error .notFound
      | some .directory => walkWith d follow cross here directory rest
      | some (.file content) =>
        if rest.isEmpty && !directory then .ok (.present here (.file content))
        else .error .notDirectory
      | some (.link target) =>
        if rest.isEmpty && !follow && !directory then .ok (.present here (.link target))
        else cross place target rest directory

/-- What the steps from a directory lead to, over at most `links` links. The last step is taken to
be a link itself, and not what it leads to, where `follow` is false and no directory is asked
for. -/
def walk (d : Disk) (follow : Bool) (links : Nat) (place : Location) (steps : List Step)
    (directory : Bool) : Except Fault Target :=
  match links with
  | 0 => d.walkWith follow (fun _ _ _ _ => .error .linkLoop) place directory steps
  | links + 1 =>
    d.walkWith follow (fun place target rest directory =>
      if target.text == "" then .error .notFound
      -- The steps that are left come behind those of the target.
      else walk d follow links (if target.isAbsolute then [] else place)
        (target.steps ++ rest) (directory || (rest.isEmpty && target.asksForDirectory)))
      place directory steps

/-- What a path leads to. -/
def find (d : Disk) (follow : Bool) (p : Path) : Except Fault Target :=
  if p.text.toList.contains (Char.ofNat 0) then .error .nulInName
  else if p.text == "" then .error .notFound
  else if p.text.utf8ByteSize > pathLimit then .error .nameTooLong
  else d.walk follow linkLimit (if p.isAbsolute then [] else d.current) p.steps p.asksForDirectory

/-- The place and the entry that a path leads to. -/
def present (d : Disk) (p : Path) : Except Fault (Location × Entry) :=
  match d.find true p with
  | .error e => .error e
  | .ok (.vacant _) => .error .notFound
  | .ok (.present place entry) => .ok (place, entry)

/-- The place of what a path leads to, without links. -/
def realPath (d : Disk) (p : Path) : Except Fault Location := (d.present p).map Prod.fst

/-- Whether a path leads to anything. -/
def isThere (d : Disk) (p : Path) : Bool := (d.present p).isOk

/-- Whether a path leads to a file. -/
def isFile (d : Disk) (p : Path) : Bool :=
  match d.present p with
  | .ok (_, .file _) => true
  | _ => false

/-- Whether a path leads to a directory. -/
def isDirectory (d : Disk) (p : Path) : Bool :=
  match d.present p with
  | .ok (_, .directory) => true
  | _ => false

/-- The content of the file that a path leads to. -/
def read (d : Disk) (p : Path) : Except Fault Bytes :=
  match d.present p with
  | .error e => .error e
  | .ok (_, .file content) => .ok content
  | .ok _ => .error .isDirectory

/-- The content of the file that a path leads to, as text. -/
def readText (d : Disk) (p : Path) : Except Fault String :=
  match d.read p with
  | .error e => .error e
  | .ok content =>
    match content.text? with
    | some s => .ok s
    | none => .error .notText

/-! ## Changing -/

/-- Create a directory in a directory that there is. -/
def makeDirectory (d : Disk) (p : Path) : Except Fault Disk :=
  match d.find false p with
  | .error e => .error e
  | .ok (.present _ _) => .error .exists
  | .ok (.vacant place) => .ok (d.put place .directory)

/-- Create a directory in a directory that there is, if it is not there yet. -/
def makeIfAbsent (d : Disk) (p : Path) : Except Fault Disk :=
  match d.makeDirectory p with
  | .ok d => .ok d
  | .error e => if d.isDirectory p then .ok d else .error e

/-- Create a directory and what is missing above it. A path of `n` bytes has at most `n` paths
above it. The disk is also given back where the operation fails, since directories above may have
been created. -/
def makeAll (d : Disk) (p : Path) : Nat → Except Fault Unit × Disk
  | 0 => (.error .notFound, d)
  | n + 1 =>
    if p.text == "" then (.ok (), d)
    else
      match d.makeDirectory p with
      | .ok d => (.ok (), d)
      | .error .notFound =>
        match p.parent? with
        | none => (.error .notFound, d)
        | some above =>
          match makeAll d above n with
          | (.error e, d) => (.error e, d)
          | (.ok (), d) =>
            match d.makeIfAbsent p with
            | .ok d => (.ok (), d)
            | .error e => (.error e, d)
      | .error e => if d.isDirectory p then (.ok (), d) else (.error e, d)

/-- Put a complete file at a path, in a directory that there is, in place of what file or link is
there. -/
def replaceFile (d : Disk) (p : Path) (content : Bytes) : Except Fault Disk :=
  match d.find false p with
  | .error e => .error e
  | .ok (.vacant place) =>
    if p.endsInSlash then .error .notDirectory else .ok (d.put place (.file content))
  | .ok (.present place entry) =>
    if p.endsInSlash then .error .notDirectory
    else if p.asksForDirectory || p.steps.getLast? != place.getLast?.map Step.name then .error .busy
    else if entry = .directory then .error .isDirectory
    else .ok (d.put place (.file content))

/-- Remove a directory and all that is below it, or a link and not what it leads to. -/
def removeAll (d : Disk) (p : Path) : Except Fault Disk :=
  match d.find false p with
  | .error e => .error e
  | .ok (.vacant _) => .error .notFound
  | .ok (.present _ (.file _)) => .error .notDirectory
  | .ok (.present place _) => .ok (d.cut place)

end Disk

/-- A change of a disk. -/
inductive Change where
  /-- There is a directory at the path afterwards. -/
  | ensureDirectory (path : Path)
  /-- There is nothing at the path afterwards. -/
  | removeTree (path : Path)
  /-- There is a file with this content at the path afterwards. -/
  | storeFile (path : Path) (content : Bytes)
  deriving DecidableEq

/-- The path that a change is about. -/
def Change.path : Change → Path
  | ensureDirectory p => p
  | removeTree p => p
  | storeFile p _ => p

namespace Disk

/-- The effect of a change. -/
def apply (d : Disk) : Change → Except Fault Unit × Disk
  | .ensureDirectory p => d.makeAll p (p.text.utf8ByteSize + 2)
  | .removeTree p =>
    match d.removeAll p with
    | .ok d => (.ok (), d)
    | .error .notFound => (.ok (), d)
    | .error e => (.error e, d)
  | .storeFile p content =>
    match p.parent? with
    | none => (.error .noParent, d)
    | some above =>
      match d.makeAll above (above.text.utf8ByteSize + 2) with
      | (.error e, d) => (.error e, d)
      | (.ok (), d) =>
        match d.replaceFile p content with
        | .ok d => (.ok (), d)
        | .error e => (.error e, d)

/-- The effect of changes one after the other, up to the first that fails, which is named. -/
def applyAll (d : Disk) : List Change → Except (Path × Fault) Unit × Disk
  | [] => (.ok (), d)
  | c :: cs =>
    match d.apply c with
    | (.ok (), d) => applyAll d cs
    | (.error e, d) => (.error (c.path, e), d)

end Disk

end Seams
