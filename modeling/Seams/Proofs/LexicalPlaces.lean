import Mathlib.Data.List.Basic
import Mathlib.Tactic.Common
import Seams.Proofs.Transparency

/-! # Places told from the text
Where a path leads nowhere, its place is told from its text alone: dots are dropped, and a step up
takes back the name in front of it, but never leads above the top. What is told so is a path from
the top that consists of names, and it may stand in for the path wherever that one is taken further.
Where there are no links, it is also where the path leads, if it leads anywhere.
Main definitions:
* **`Path.folded`** — a path with its dots dropped and its steps up taken back;
* **`Path.Settled`** — a path from the top that consists of names;
* **`Path.ups`** — a path of steps up;
* **`Disk.Linkless`** — a disk without links. -/

namespace Seams

namespace Location

/-- **Names lead to the place that they name.** -/
theorem foldl_names (l : Location) (ns : List String) :
    (ns.map Step.name).foldl Location.step l = l ++ ns := by
  induction ns generalizing l with
  | nil => exact (List.append_nil l).symm
  | cons n ns ih => rw [List.map_cons, List.foldl_cons, ih, step, List.append_assoc,
      List.singleton_append]

/-- **Each step up takes back a name**, as long as there is one. -/
theorem foldl_ups (l : Location) (k : Nat) :
    (List.replicate k Step.up).foldl Location.step l = l.take (l.length - k) := by
  induction k generalizing l with
  | zero => exact l.take_length.symm
  | succ k ih =>
      rw [List.replicate_succ, List.foldl_cons, ih, step, List.length_dropLast,
        List.dropLast_eq_take, List.take_take]
      congr 1
      omega

end Location

namespace Path

/-- **A path with its dots dropped and its steps up taken back**, from the top. -/
def folded (p : Path) : Path := p.lexicalPlace.path

/-- **A path from the top that consists of names**, or that of the top itself. No piece of it is a
dot or a step up. -/
def Settled (p : Path) : Prop :=
  p = ⟨"/"⟩ ∨ ∃ ns, ns ≠ [] ∧ (∀ n ∈ ns, IsName n) ∧ p.pieces = "" :: ns

/-- **A path of a number of steps up.** -/
def ups (k : Nat) : Path := ⟨"/".intercalate (List.replicate k "..")⟩

variable {p q : Path}

/-! ## Steps up -/

/-- **Steps up are steps, and no path from the top.** -/
theorem steps_ups (k : Nat) :
    (ups k).isAbsolute = false ∧ (ups k).steps = List.replicate k .up := by
  have free : ∀ s ∈ List.replicate k "..", '/' ∉ s.toList := fun s mem => by
    rw [List.eq_of_mem_replicate mem]
    decide
  refine ⟨?_, ?_⟩
  · cases k with
    | zero => rfl
    | succ k =>
        rw [List.replicate_succ] at free
        rw [ups, List.replicate_succ]
        exact isAbsolute_eq_false (pieces_intercalate (List.cons_ne_nil _ _) free) (by decide)
  · rw [ups, steps_intercalate free, List.filterMap_replicate]
    rfl

/-! ## What is told from the text -/

/-- **The place told from the text is made of names.** -/
theorem isName_of_mem_lexicalPlace {n : String} (mem : n ∈ p.lexicalPlace) : IsName n :=
  Location.isName_of_mem_foldl (fun _ mem => absurd mem List.not_mem_nil)
    (fun _ mem => isName_of_mem_names (List.mem_filterMap.2 ⟨_, mem, rfl⟩)) n mem

/-- **What is told from the text is a path from the top that consists of names.** -/
theorem settled_folded (p : Path) : p.folded.Settled := by
  have names : ∀ n ∈ p.lexicalPlace, IsName n := fun _ => isName_of_mem_lexicalPlace
  by_cases top : p.lexicalPlace = []
  · refine .inl ?_
    rw [folded, top]
    rfl
  · refine .inr ⟨p.lexicalPlace, top, names, ?_⟩
    have slash := pieces_slash "" ("/".intercalate p.lexicalPlace)
    rw [String.empty_append, pieces_intercalate top fun n mem => (names n mem).no_slash] at slash
    exact slash

/-- **The place of what is told from the text is the same.** -/
theorem lexicalPlace_folded (p : Path) : p.folded.lexicalPlace = p.lexicalPlace := by
  rw [lexicalPlace, folded, Disk.steps_path fun _ => isName_of_mem_lexicalPlace,
    Location.foldl_names, List.nil_append]

/-- **A path taken further leads on from the place of the path.** -/
theorem lexicalPlace_join (p : Path) (relative : q.isAbsolute = false) :
    (p.join q).lexicalPlace = q.steps.foldl Location.step p.lexicalPlace := by
  rw [lexicalPlace, steps_join p relative, List.foldl_append, lexicalPlace]

/-- **Steps up from a path lead above its place, and no further than to the top.** -/
theorem lexicalPlace_join_ups (p : Path) (k : Nat) :
    (p.join (ups k)).lexicalPlace = p.lexicalPlace.take (p.lexicalPlace.length - k) := by
  obtain ⟨relative, steps⟩ := steps_ups k
  rw [lexicalPlace_join p relative, steps, Location.foldl_ups]

end Path

namespace Disk

/-! ## Disks without links -/

/-- **A disk without links.** -/
def Linkless (d : Disk) : Prop := ∀ l t, d.get? l ≠ some (.link t)

variable {d : Disk} {p : Path}

/-- **Without links a way ends where its steps lead in the text.** -/
theorem Leads.place_eq (linkless : d.Linkless) {follow : Bool} {k : Nat} {l place : Location}
    {steps : List Step} {dir : Bool} {e : Entry}
    (h : d.Leads follow k l steps dir (.present place e)) :
    place = steps.foldl Location.step l := by
  generalize eq : Target.present place e = found at h
  induction h with
  | here =>
      cases eq
      rfl
  | up way ih => exact ih eq
  | vacant => cases eq
  | enter short there way ih => exact ih eq
  | file =>
      cases eq
      rfl
  | link short there => exact absurd there (linkless _ _)
  | cross short there => exact absurd there (linkless _ _)

/-- **Without links a path from the top leads to the place told from its text**, if it leads
anywhere. -/
theorem lexicalPlace_of_realPath (linkless : d.Linkless) (top : p.isAbsolute = true)
    {place : Location} (real : d.realPath p = .ok place) : place = p.lexicalPlace := by
  unfold realPath present at real
  cases found : d.find true p with
  | error e =>
      rw [found] at real
      cases real
  | ok t =>
      cases t with
      | vacant m =>
          rw [found] at real
          cases real
      | present m e =>
          rw [found] at real
          obtain rfl : m = place := Except.ok.inj real
          obtain ⟨-, way⟩ := find_eq_ok_iff.1 found
          rw [start, if_pos top] at way
          exact way.place_eq linkless

/-- **A path that is taken from the current directory is a path from the top.** -/
theorem isAbsolute_absolute (d : Disk) (p : Path) : (d.absolute p).isAbsolute = true := by
  rw [absolute]
  split
  · assumption
  · rename_i relative
    rw [Path.isAbsolute_join _ (Bool.eq_false_iff.2 relative)]
    simp [Location.path, Path.isAbsolute]

/-- **Without links every path is taken for the place told from its text**, whether it leads
anywhere or not. -/
theorem normalize_of_linkless (linkless : d.Linkless) (p : Path) :
    d.normalize p = (d.absolute p).lexicalPlace := by
  unfold normalize
  split
  · rename_i place real
    exact lexicalPlace_of_realPath linkless (d.isAbsolute_absolute p) real
  · rfl

end Disk

namespace Path

/-- **The text stands in for the place.** Of a path from the top, what is told from the text is a
path from the top that consists of names, and telling it again tells the same. Steps up behind the
path lead above its place, and no further than to the top. It does not matter whether a path is
taken further as it is or as it is told. And without links, the place told from the text is the real
one wherever there is one; so for every path, from the top or not, it makes no difference whether
its place is looked up or told. -/
theorem folded_stands_in (top : p.isAbsolute = true) :
    p.folded.Settled ∧ p.folded.folded = p.folded
      ∧ (∀ k, (p.join (ups k)).lexicalPlace = p.lexicalPlace.take (p.lexicalPlace.length - k))
      ∧ (∀ q : Path, q.isAbsolute = false → (p.join q).folded = (p.folded.join q).folded)
      ∧ ∀ d : Disk, d.Linkless → (∀ place, d.realPath p = .ok place → place.path = p.folded)
        ∧ ∀ q, d.normalize q = (d.absolute q).lexicalPlace := by
  refine ⟨p.settled_folded, ?_, p.lexicalPlace_join_ups, fun q relative => ?_,
    fun d linkless => ⟨fun place real => ?_, d.normalize_of_linkless linkless⟩⟩
  · rw [folded, lexicalPlace_folded]
    rfl
  · rw [folded, folded, lexicalPlace_join p relative, lexicalPlace_join p.folded relative,
      lexicalPlace_folded]
  · rw [folded, Disk.lexicalPlace_of_realPath linkless top real]

/-- **A disk with a directory in another one.** -/
def nested : Disk := ⟨[(["a"], .directory), (["a", "b"], .directory)], ["a"]⟩

/-- **A path above the top and through a directory is told to be that of the directory above**, and
leads there. -/
theorem folded_stands_in_nested :
    (⟨"/../a/./b/.."⟩ : Path).folded = ⟨"/a"⟩ ∧ (⟨"/a"⟩ : Path).Settled
      ∧ ((⟨"/../a/./b/.."⟩ : Path).join ⟨"b/../c"⟩).folded
        = ((⟨"/a"⟩ : Path).join ⟨"b/../c"⟩).folded
      ∧ (nested.realPath ⟨"/../a/./b/.."⟩).toOption.map Location.path = some ⟨"/a"⟩
      ∧ nested.normalize ⟨"./b//.."⟩ = ["a"] := by
  have linkless : nested.Linkless := Disk.not_link_of_entries (by simp [nested])
  obtain ⟨settled, -, -, join, real⟩ := folded_stands_in (p := ⟨"/../a/./b/.."⟩) rfl
  obtain ⟨real, told⟩ := real nested linkless
  have eq : (⟨"/../a/./b/.."⟩ : Path).folded = ⟨"/a"⟩ := by decide +kernel
  have there : (nested.realPath ⟨"/../a/./b/.."⟩).toOption = some ["a"] := by decide +kernel
  refine ⟨eq, eq ▸ settled, eq ▸ join ⟨"b/../c"⟩ rfl, ?_, ?_⟩
  · rw [there, Option.map_some, real ["a"] (ok_of_toOption there), eq]
  · rw [told]
    decide +kernel

end Path

end Seams
