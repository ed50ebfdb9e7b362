import Mathlib.Data.List.Basic
import Mathlib.Tactic.Common
import Seams.Proofs.LexicalPlaces
import Seams.Proofs.Spellings

/-! # Paths whose entries are created later
The place of a path is looked up where it leads somewhere, and told from its text where it does not.
So it may change when the entry that is missing is created, and a scope that was made before then is
one of other places. It stays exactly if the directory is where its own path says, or if the path
cannot find the entry at all.
Main definitions:
* **`Disk.Awaits`** — a path names an entry that is missing in a directory that there is;
* **`Disk.CanFind`** — a path may lead to an entry, for what its text is. -/

namespace Seams

namespace Path

variable {p above : Path}

/-! ## The last step -/

/-- **Pieces in front that are no steps can be left out.** -/
theorem filterMap_dropWhile_stepOf (ss : List String) :
    (ss.dropWhile fun s => (stepOf s).isNone).filterMap stepOf = ss.filterMap stepOf := by
  induction ss with
  | nil => rfl
  | cons s ss ih =>
      cases step : stepOf s with
      | none =>
          rw [List.dropWhile_cons_of_pos (by rw [step]; rfl), ih, List.filterMap_cons_none step]
      | some x => rw [List.dropWhile_cons_of_neg (by rw [step]; exact Bool.false_ne_true)]

/-- **Pieces without their last step take all steps but one.** -/
theorem exists_last_of_withoutLastStep {pieces kept : List String}
    (h : withoutLastStep pieces = some kept) :
    ∃ s, pieces.filterMap stepOf = kept.filterMap stepOf ++ [s] := by
  -- The pieces are taken from behind.
  have behind := filterMap_dropWhile_stepOf pieces.reverse
  unfold withoutLastStep at h
  split at h
  · cases h
  · rename_i last front eq
    obtain rfl := Option.some.inj h
    have isStep : (stepOf last).isNone = false := by
      have := List.head?_dropWhile_not (fun s => (stepOf s).isNone) pieces.reverse
      rwa [eq] at this
    obtain ⟨s, step⟩ := Option.isSome_iff_exists.1 (Option.isNone_eq_false_iff.1 isStep)
    refine ⟨s, ?_⟩
    rw [eq, List.filterMap_cons_some step, List.filterMap_reverse, ← List.reverse_inj,
      List.reverse_reverse] at behind
    rw [← behind, List.reverse_cons, List.filterMap_reverse, filterMap_dropWhile_stepOf]

/-- **A path from the top takes the steps of the path above it and one more.** -/
theorem exists_last_of_parent (top : p.isAbsolute = true) (parent : p.parent? = some above) :
    ∃ s, p.steps = above.steps ++ [s] := by
  obtain ⟨rest, -, pieces⟩ := isAbsolute_iff.1 top
  rw [parent?, pieces] at parent
  obtain ⟨kept, without, rfl⟩ := Option.map_eq_some_iff.1 parent
  have within := withoutLastStep_prefix without
  have free : ∀ s ∈ kept, '/' ∉ s.toList := fun s mem =>
    slash_notMem_of_mem_pieces (pieces ▸ List.mem_cons_of_mem _ (within.subset mem))
  obtain ⟨s, steps⟩ := exists_last_of_withoutLastStep without
  refine ⟨s, ?_⟩
  rw [steps_top free, ← steps, Path.steps, pieces]
  rfl

end Path

namespace Disk

variable {d : Disk} {p above : Path} {m : Location} {n : String} {e : Entry}

/-! ## Entries that are missing -/

/-- **A path names an entry that is missing in a directory that there is.** Both the path and the
path above it are taken from the top. -/
structure Awaits (d : Disk) (p above : Path) (m : Location) (n : String) : Prop where
  /-- There is a path above. -/
  parent : (d.absolute p).parent? = some above
  /-- It leads to a directory. -/
  found : d.find true above = .ok (.present m .directory)
  /-- The last step is by a name. -/
  last : (d.absolute p).steps.getLast? = some (.name n)
  /-- An entry may have this name. -/
  short : n.utf8ByteSize ≤ nameLimit
  /-- None has. -/
  missing : d.get? (m ++ [n]) = none

namespace Awaits

/-- **The path takes the steps of the path above and then the name.** -/
theorem steps (awaits : d.Awaits p above m n) :
    (d.absolute p).steps = above.steps ++ [.name n] := by
  obtain ⟨s, steps⟩ := Path.exists_last_of_parent (d.isAbsolute_absolute p) awaits.parent
  have last := awaits.last
  rw [steps, List.getLast?_concat] at last
  rw [steps, Option.some.inj last]

/-- **The place that is told from the text is that of the path above, and the name.** -/
theorem lexicalPlace (awaits : d.Awaits p above m n) :
    (d.absolute p).lexicalPlace = above.lexicalPlace ++ [n] := by
  rw [Path.lexicalPlace, awaits.steps, List.foldl_append]
  rfl

/-- **The steps of the path above lead to its directory.** -/
theorem way (awaits : d.Awaits p above m n) :
    d.Leads true linkLimit [] above.steps true (.present m .directory) := by
  have start : d.start above = [] := by
    rw [Disk.start, (Path.steps_of_parent awaits.parent).1, if_pos (d.isAbsolute_absolute p)]
  have way := (find_eq_ok_iff.1 awaits.found).2
  rw [start] at way
  exact way.asking true

end Awaits

end Disk

end Seams
