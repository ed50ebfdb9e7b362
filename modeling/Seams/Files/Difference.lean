import Seams.Files.Disk

/-! # Differences between disks
What has to be done so that one disk becomes like another one.
Main definitions:
* **`Disk.lost`** — the places to empty;
* **`Disk.gained`** — the entries to put. -/

namespace Seams.Disk

/-- The places where `d` has an entry and `e` has none. Those below another one are left out. -/
def lost (d e : Disk) : List Location :=
  (d.entries.map Prod.fst).filter fun l => (e.get? l).isNone && (e.get? l.dropLast).isSome

/-- The entries of `e` that `d` does not have, a directory before what is below it. -/
def gained (d e : Disk) : List (Location × Entry) :=
  (e.entries.filter fun x => d.get? x.1 != some x.2).mergeSort
    fun a b => decide (a.1.length ≤ b.1.length)

theorem lost_self (d : Disk) : d.lost d = [] := by
  unfold lost
  rw [List.filter_eq_nil_iff]
  intro l hl
  obtain ⟨⟨l', e⟩, he, rfl⟩ := List.mem_map.1 hl
  have : (d.get? l').isSome = true := by
    unfold get?
    split
    · rfl
    · rw [List.lookup_isSome_iff]
      exact ⟨(l', e), he, by simp⟩
  simp [Option.isNone_iff_eq_none, Option.isSome_iff_ne_none.1 this]

end Seams.Disk
