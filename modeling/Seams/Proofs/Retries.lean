import Mathlib.Data.List.Basic
import Mathlib.Tactic.Common
import Seams.Proofs.Arrivals
import Seams.Proofs.Operations

/-! # Creating directories again
Directories that have been created are there, and to create them again changes nothing, whatever
directories there are besides. Where they could not be created some of those above may be there all
the same; then they cannot be created the next time either, and nothing is added any more. -/

namespace Seams

namespace Path

variable {p above : Path}

/-! ## The path above -/

/-- **The text of the path above another one is the beginning of its text.** -/
theorem text_of_parent (parent : p.parent? = some above) : ∃ tail, p.text = above.text ++ tail := by
  have text := intercalate_pieces p
  unfold parent? at parent
  split at parent
  · rename_i rest pieces
    obtain ⟨kept, without, rfl⟩ := Option.map_eq_some_iff.1 parent
    obtain ⟨left, rfl⟩ := withoutLastStep_prefix without
    have ne : kept ++ left ≠ [] := by
      intro none
      rw [none] at without
      cases without
    obtain ⟨tail, written⟩ := exists_intercalate_append kept left
    rw [pieces, String.intercalate_cons_of_ne_nil ne, written, String.empty_append] at text
    exact ⟨tail, by rw [← text, String.append_assoc]⟩
  · rename_i rest pieces
    split at parent
    · rename_i kept without
      obtain rfl := Option.some.inj parent
      obtain ⟨left, rfl⟩ := withoutLastStep_prefix without
      obtain ⟨tail, written⟩ := exists_intercalate_append ("." :: kept) left
      rw [pieces, ← List.cons_append, written] at text
      exact ⟨tail, text.symm⟩
    · obtain rfl := Option.some.inj parent
      exact ⟨p.text, String.empty_append.symm⟩
  · obtain ⟨kept, without, rfl⟩ := Option.map_eq_some_iff.1 parent
    obtain ⟨left, pieces⟩ := withoutLastStep_prefix without
    obtain ⟨tail, written⟩ := exists_intercalate_append kept left
    rw [← pieces, written] at text
    exact ⟨tail, text.symm⟩

/-- **A path takes one step more than the path above it**, unless that one is empty. -/
theorem exists_last_of_parent_ne (parent : p.parent? = some above) (ne : above.text ≠ "") :
    ∃ s, p.steps = above.steps ++ [s] := by
  have free {ss : List String} (within : ss ⊆ p.pieces) : ∀ s ∈ ss, '/' ∉ s.toList :=
    fun s hs => slash_notMem_of_mem_pieces (within hs)
  by_cases top : p.isAbsolute = true
  · exact exists_last_of_parent top parent
  unfold parent? at parent
  split at parent
  · rename_i rest pieces
    refine absurd (isAbsolute_iff.2 ⟨rest, ?_, pieces⟩) top
    rintro rfl
    cases parent
  · rename_i rest pieces
    rw [pieces] at free
    split at parent
    · rename_i kept without
      obtain rfl := Option.some.inj parent
      have within := withoutLastStep_prefix without
      obtain ⟨s, steps⟩ := exists_last_of_withoutLastStep without
      refine ⟨s, ?_⟩
      rw [steps_intercalate (free (List.cons_subset_cons _ within.subset)), Path.steps, pieces]
      exact steps
    · obtain rfl := Option.some.inj parent
      exact absurd rfl ne
  · obtain ⟨kept, without, rfl⟩ := Option.map_eq_some_iff.1 parent
    have within := withoutLastStep_prefix without
    obtain ⟨s, steps⟩ := exists_last_of_withoutLastStep without
    exact ⟨s, by rw [steps_intercalate (free within.subset), ← steps, Path.steps]⟩

end Path

namespace Disk

variable {p above : Path} {d d' d'' : Disk} {n : Nat} {e : Fault}

/-! ## Directories that are there -/

/-- **A path leads to a directory** if one is found. -/
theorem isDirectory_iff_find :
    d.isDirectory p = true ↔ ∃ m, d.find true p = .ok (.present m .directory) := by
  unfold isDirectory present
  constructor
  · intro there
    split at there
    · rename_i place found
      split at found
      · cases found
      · cases found
      · rename_i target
        cases found
        exact ⟨place, target⟩
    · cases there
  · rintro ⟨m, found⟩
    rw [found]

/-- **A path leads to a directory** if it can be looked up and leads somewhere. -/
theorem isDirectory_iff : d.isDirectory p = true ↔ Usable p ∧ ∃ m, d.LeadsTo p m := by
  rw [isDirectory_iff_find]
  constructor
  · rintro ⟨m, found⟩
    obtain ⟨usable, way⟩ := find_eq_ok_iff.1 found
    exact ⟨usable, m, walk_eq_ok_iff.2 (way.asking true)⟩
  · rintro ⟨usable, m, there⟩
    exact ⟨m, find_eq_ok_iff.2 ⟨usable, (walk_eq_ok_iff.1 there).asking _⟩⟩

/-- **A path that leads to a directory does so when there are further ones.** -/
theorem Grows.isDirectory (grows : Grows d d') (there : d.isDirectory p = true) :
    d'.isDirectory p = true := by
  obtain ⟨usable, m, there⟩ := isDirectory_iff.1 there
  exact isDirectory_iff.2
    ⟨usable, m, there.mono grows.current (fun m => grows.kept m _) fun m t => grows.kept m _⟩

/-- **A way that is looked up to the end leads past the path above**, unless that one is empty. -/
theorem isDirectory_parent {follow : Bool} {t : Target} (found : d.find follow p = .ok t)
    (parent : p.parent? = some above) (ne : above.text ≠ "") : d.isDirectory above = true := by
  obtain ⟨usable, way⟩ := find_eq_ok_iff.1 found
  obtain ⟨tail, text⟩ := Path.text_of_parent parent
  obtain ⟨s, steps⟩ := Path.exists_last_of_parent_ne parent ne
  rw [steps] at way
  obtain ⟨-, m, front, -⟩ := way.exists_directory (List.cons_ne_nil s [])
  refine isDirectory_iff.2 ⟨usable.of_beginning ne text, m, walk_eq_ok_iff.2 ?_⟩
  rwa [start, (Path.steps_of_parent parent).1, ← start]

/-! ## A directory that is created again -/

/-- **A directory that is there need not be created.** -/
theorem makeAll_of_isDirectory (there : d.isDirectory p = true) (n : Nat) :
    d.makeAll p (n + 1) = (.ok (), d) := by
  obtain ⟨usable, m, there⟩ := isDirectory_iff.1 there
  exact makeAll_of_leadsTo usable there n

/-- **Where a directory has been created, to create it again changes nothing**, whatever directories
there are by then. -/
theorem makeAll_again (made : d.makeAll p n = (.ok (), d')) (grows : Grows d' d'') :
    d''.makeAll p n = (.ok (), d'') := by
  cases n with
  | zero => cases made
  | succ n =>
      rcases makeAll_ok made with empty | there
      · simp [makeAll, empty]
      · exact makeAll_of_isDirectory (grows.isDirectory there) n

/-- **Where a directory can be created, or is there already, the path above leads to one**, unless
that path is empty. -/
theorem isDirectory_parent_of_made (parent : p.parent? = some above) (ne : above.text ≠ "")
    (made : (∃ d', d.makeDirectory p = .ok d') ∨ d.isDirectory p = true) :
    d.isDirectory above = true := by
  rcases made with ⟨d', made⟩ | there
  · unfold makeDirectory at made
    split at made
    · cases made
    · cases made
    · rename_i found
      exact isDirectory_parent found parent ne
  · obtain ⟨m, found⟩ := isDirectory_iff_find.1 there
    exact isDirectory_parent found parent ne

/-- **A directory cannot be created where the one above cannot**, and nothing is added. -/
theorem makeAll_of_stuck (parent : p.parent? = some above) (ne : p.text ≠ "")
    (stuck : d.makeAll above (n + 1) = (.error e, d)) :
    ∃ e', d.makeAll p (n + 2) = (.error e', d) := by
  -- Neither can it be created in the one above, nor is it there, for that one would be there too.
  have apart : ¬ ((∃ d', d.makeDirectory p = .ok d') ∨ d.isDirectory p = true) := by
    intro made
    by_cases empty : above.text = ""
    · rw [makeAll, if_pos (by simpa using empty)] at stuck
      cases stuck
    · rw [makeAll_of_isDirectory (isDirectory_parent_of_made parent empty made)] at stuck
      cases stuck
  rw [not_or] at apart
  unfold makeAll
  rw [if_neg (by simpa using ne)]
  split
  · rename_i d' made
    exact absurd ⟨d', made⟩ apart.1
  · rw [parent]
    simp only [stuck]
    exact ⟨_, rfl⟩
  · rw [if_neg apart.2]
    exact ⟨_, rfl⟩

/-- **A directory cannot be created where there is something else**, or it cannot be looked for, and
nothing is added once those above are there. -/
theorem makeAll_of_absent (ne : p.text ≠ "") (absent : d.makeIfAbsent p = .error e)
    (there : ∀ above, p.parent? = some above → d.makeAll above n = (.ok (), d)) :
    ∃ e', d.makeAll p (n + 1) = (.error e', d) := by
  have failed := absent
  unfold makeIfAbsent at failed
  unfold makeAll
  rw [if_neg (by simpa using ne)]
  split at failed
  · cases failed
  rename_i e' made
  rw [made]
  split at failed
  · cases failed
  rename_i apart
  split
  · rename_i made'
    cases made'
  · split
    · exact ⟨_, rfl⟩
    · rename_i above parent
      simp only [there above parent, absent]
      exact ⟨_, rfl⟩
  · rw [if_neg apart]
    exact ⟨_, rfl⟩

/-- **Where a directory could not be created, it cannot be created again**, and nothing changes any
more. -/
theorem makeAll_fails_again (failed : d.makeAll p n = (.error e, d')) :
    ∃ e', d'.makeAll p n = (.error e', d') := by
  -- By the number of directories above that are still tried.
  induction n generalizing d p e d' with
  | zero =>
      cases failed
      exact ⟨_, rfl⟩
  | succ n ih =>
      have first := failed
      unfold makeAll at failed
      split at failed
      · cases failed
      rename_i ne
      have ne : p.text ≠ "" := by simpa using ne
      split at failed
      · cases failed
      · rename_i missing
        split at failed
        · cases failed
          exact ⟨_, first⟩
        · rename_i above parent
          split at failed
          · rename_i above_failed
            cases failed
            cases n with
            | zero =>
                cases above_failed
                exact ⟨_, first⟩
            | succ n =>
                obtain ⟨e', stuck⟩ := ih above_failed
                exact makeAll_of_stuck parent ne stuck
          · rename_i above_made
            split at failed
            · cases failed
            · rename_i absent
              cases failed
              refine makeAll_of_absent ne absent fun other same => ?_
              obtain rfl := Option.some.inj (parent.symm.trans same)
              exact makeAll_again above_made (Grows.refl _)
      · split at failed
        · cases failed
        · cases failed
          exact ⟨_, first⟩

/-! ## Directories that are created again -/

variable {changes : List Change}

/-- **Where directories have been created, to create them again changes nothing**, whatever
directories there are by then. -/
theorem applyAll_again (ensure : ∀ change ∈ changes, ∃ p, change = .ensureDirectory p)
    (made : d.applyAll changes = (.ok (), d')) (grows : Grows d' d'') :
    d''.applyAll changes = (.ok (), d'') := by
  induction changes generalizing d with
  | nil => rfl
  | cons change changes ih =>
      have others := fun c mem => ensure c (List.mem_cons_of_mem change mem)
      obtain ⟨p, rfl⟩ := ensure change List.mem_cons_self
      obtain ⟨d₁, first, rest⟩ := applyAll_cons_ok made
      have grown := applyAll_grows others d₁
      rw [rest] at grown
      have again : d''.apply (.ensureDirectory p) = (.ok (), d'') :=
        makeAll_again first (grown.trans grows)
      rw [applyAll, again]
      exact ih others rest

/-- **Where directories could not be created, they cannot be created again**: the same one fails,
and nothing changes any more. -/
theorem applyAll_fails_again (ensure : ∀ change ∈ changes, ∃ p, change = .ensureDirectory p)
    (failed : d.applyAll changes = (.error (p, e), d')) :
    ∃ e', d'.applyAll changes = (.error (p, e'), d') := by
  induction changes generalizing d with
  | nil => cases failed
  | cons change changes ih =>
      have others := fun c mem => ensure c (List.mem_cons_of_mem change mem)
      obtain ⟨q, rfl⟩ := ensure change List.mem_cons_self
      rw [applyAll] at failed
      rcases first : d.apply (.ensureDirectory q) with ⟨e₁ | u, d₁⟩
      · rw [first] at failed
        cases failed
        obtain ⟨e', again⟩ := makeAll_fails_again first
        exact ⟨e', by rw [applyAll, apply, again]⟩
      · rw [first] at failed
        have grown := applyAll_grows others d₁
        simp only at failed
        rw [failed] at grown
        obtain ⟨e', rest⟩ := ih others failed
        have again : d'.apply (.ensureDirectory q) = (.ok (), d') := makeAll_again first grown
        exact ⟨e', by rw [applyAll, again]; exact rest⟩

end Disk

end Seams
