import Mathlib.Data.List.Basic
import Mathlib.Tactic.Common
import Seams.Proofs.Clashes
import Seams.Proofs.Reuse
import Seams.Proofs.Transparency

/-! # Spellings of a file
A file has many paths: from the current directory, over links, and with dots and steps up. Whether
it is in scope is told by its place, and so is what the cache keeps for it. Paths of one file are
therefore treated alike, and what has been loaded for one of them is loaded from the cache for all
others, unless the directories of the cache hold links. A path that is too long when it is taken
from the current directory is none of these: what it leads to is not looked at.
Main definitions:
* **`Path.dotted`** — a path with dots in front;
* **`Disk.Spells`** — a path is one of those of a place;
* **`Disk.Admits`** — a place is in the scope of some directories;
* **`Change.StoresAway`** — a change that stores a file at another place. -/

namespace Seams

open RewriteCache (Owned recordNames)

namespace Path

/-! ## Dots in front of a path -/

/-- **A path with dots in front**, which lead nowhere. -/
def dotted (p : Path) : Nat → Path
  | 0 => p
  | n + 1 => ⟨"." ++ "/" ++ (p.dotted n).text⟩

end Path

namespace Disk

variable {root p q : Path} {l place : Location} {d d' : Disk} {e : Entry} {raw : Bytes}

/-- **A path is a spelling of a place**: it leads there when it is taken from the current
directory, over whatever links, dots and steps up. -/
def Spells (d : Disk) (p : Path) (place : Location) : Prop :=
  d.realPath (d.absolute p) = .ok place

/-- **A path leads to a place where an entry is found.** -/
theorem spells_iff :
    d.Spells p place ↔ ∃ e, d.find true (d.absolute p) = .ok (.present place e) := by
  unfold Spells realPath present
  cases d.find true (d.absolute p) with
  | error e => simp [Except.map]
  | ok t => cases t <;> simp [Except.map]

namespace Spells

/-- **A spelling of a place is taken for it.** -/
theorem normalize_eq (spells : d.Spells p place) : d.normalize p = place := by
  rw [normalize, show d.realPath (d.absolute p) = .ok place from spells]

/-- **A place with spellings is made of names.** -/
theorem isName (spells : d.Spells p place) : ∀ n ∈ place, Path.IsName n := by
  rw [← spells.normalize_eq]
  exact fun _ => isName_of_mem_normalize

/-- **A spelling of a file finds it**, and so does the path of the place. -/
theorem find_file (spells : d.Spells p place) (read : d.read place.path = .ok raw) :
    d.find true (d.absolute p) = .ok (.present place (.file raw))
      ∧ d.find true place.path = .ok (.present place (.file raw)) := by
  obtain ⟨e, found⟩ := spells_iff.1 spells
  obtain ⟨other, found'⟩ := read_eq_ok_iff.1 read
  have same := find_path (start_absolute d p) found (find_eq_ok_iff.1 found').1
  rw [same] at found'
  cases found'
  exact ⟨found, same⟩

end Spells

/-- **A path with dots in front can be looked up** as long as it is not too long. -/
theorem Usable.dotted {n : Nat} (usable : Usable p)
    (short : (p.dotted n).text.utf8ByteSize ≤ pathLimit) : Usable (p.dotted n) := by
  refine ⟨?_, fun empty => ?_, short⟩
  · clear short
    induction n with
    | zero => exact usable.no_nul
    | succ n ih => simpa [Path.dotted] using ih
  · cases n with
    | zero => exact usable.ne_empty empty
    | succ n => simp [Path.dotted] at empty

end Disk

namespace Active

variable {a a' : Active} {l place : Location} {d d' : Disk} {p q : Path} {raw : Bytes}
  {res : Resolved}

end Active

namespace Resolver

variable {r : Resolver} {a : Active} {place : Location} {d : Disk} {p : Path} {raw : Bytes}

/-- **A resolver in use answers as its active state does.** -/
theorem resolve_of_active (active : r.active = some a) (d : Disk) (p : Path) :
    r.resolve d p = ((a.resolve d p).1, { r with active := some (a.resolve d p).2.1 },
      (a.resolve d p).2.2) := by
  rw [resolve, activeState, active]

end Resolver

end Seams
