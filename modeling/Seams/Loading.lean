import Seams.Resolver

/-! # Loading
Whoever runs sources asks for each by its path. What answers is installed for all at once: a
resolver, or one that reads files as they are, which is also what answers if nothing is installed.
Main definitions:
* **`Provider`** — what answers;
* **`Slot`** — the place for the one that is installed;
* **`Slot.load`** — what is loaded for a path. -/

namespace Seams

/-- What is loaded for a path. -/
structure Loaded where
  /-- The path. -/
  path : Path
  /-- The source. -/
  bytes : Bytes
  /-- Where it comes from, if a resolver has answered. -/
  origin : Option Origin
  deriving DecidableEq

/-- What answers for sources. -/
inductive Provider where
  /-- Files are read as they are. -/
  | plain
  /-- A resolver. -/
  | resolving (resolver : Resolver)

/-- Read a file as it is. -/
def readPlain (d : Disk) (p : Path) : Except ResolveError Loaded :=
  match d.read p with
  | .error e => .error (.unreadable p e)
  | .ok bytes => .ok ⟨p, bytes, none⟩

/-- What is loaded for a path, and the provider and the disk afterwards. -/
def Provider.load (d : Disk) (p : Path) :
    Provider → Except ResolveError Loaded × Provider × Disk
  | plain => (readPlain d p, plain, d)
  | resolving r =>
    let (result, r, d) := r.resolve d p
    (result.map fun x => ⟨x.path, x.bytes, some x.origin⟩, resolving r, d)

/-- Why a provider cannot be installed. -/
inductive InstallError where
  /-- There is one already. -/
  | alreadyInstalled
  deriving DecidableEq, Repr

/-- What is told to the user. -/
def InstallError.message : InstallError → String
  | alreadyInstalled => "a source provider is already installed"

/-- The place for the provider that is installed. -/
structure Slot where
  /-- The provider, if one is installed. -/
  provider : Option Provider

namespace Slot

/-- The slot where nothing is installed. -/
def empty : Slot := ⟨none⟩

/-- Whether a provider is installed. -/
def isInstalled (s : Slot) : Bool := s.provider.isSome

/-- Install a provider where there is none. -/
def install (s : Slot) (p : Provider) : Except InstallError Slot :=
  match s.provider with
  | some _ => .error .alreadyInstalled
  | none => .ok ⟨some p⟩

/-- What is loaded for a path, and the slot and the disk afterwards. -/
def load (s : Slot) (d : Disk) (p : Path) : Except ResolveError Loaded × Slot × Disk :=
  match s.provider with
  | none => (readPlain d p, s, d)
  | some provider =>
    let (result, provider, d) := provider.load d p
    (result, ⟨some provider⟩, d)

end Slot

end Seams
