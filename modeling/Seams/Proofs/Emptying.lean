import Mathlib.Data.List.Basic
import Mathlib.Tactic.Common
import Seams.Files.Tree
import Seams.Proofs.Creation

/-! # Directories that hold no files
A directory of a cache that has been removed and created again holds directories at most, namely
those that the path of the cache itself leads through, and a walk finds no file in it.
Main definitions:
* **`Path.descend`** — the path of an entry some directories below;
* **`Disk.NamedBelow`** — all that is below a place has names that are steps;
* **`Disk.BareAt`** — at a place and below it there are directories only. -/

namespace Seams

namespace Path

/-- **The path of an entry some directories below**, by the names on the way. -/
def descend (p : Path) (ns : List String) : Path := ns.foldl child p

/-- **A path some directories below lies there.** -/
theorem LiesAt.descend {p root : Path} {ns ms : List String} (h : p.LiesAt root ns)
    (names : ∀ m ∈ ms, IsName m) : (p.descend ms).LiesAt root (ns ++ ms) := by
  induction ms generalizing p ns with
  | nil => rwa [List.append_nil]
  | cons m ms ih =>
      rw [← List.singleton_append, ← List.append_assoc]
      exact ih (h.child (names m List.mem_cons_self)) fun n mem =>
        names n (List.mem_cons_of_mem _ mem)

end Path

namespace Disk

open RewriteCache (Owned)

/-- **At a place and below it there are directories only**, each with a name that is a step. -/
def BareAt (m : Location) (d : Disk) : Prop :=
  ∀ place e, m <+: place → d.get? place = some e →
    e = .directory ∧ ∀ n ∈ place.getLast?, Path.IsName n

variable {root p : Path} {l m place : Location} {d d' : Disk}

/-! ## Changes beside a place -/

/-- **A place where a way ends without an entry has a name** that is a step. -/
theorem Leads.named_of_vacant {follow : Bool} {k : Nat} {steps : List Step} {dir : Bool}
    (h : d.Leads follow k l steps dir (.vacant place))
    (names : ∀ n, .name n ∈ steps → Path.IsName n) : ∀ n ∈ place.getLast?, Path.IsName n := by
  generalize e : Target.vacant place = found at h
  induction h with
  | here => cases e
  | up way ih => exact ih (fun n mem => names n (List.mem_cons_of_mem _ mem)) e
  | @vacant k l n dir short none =>
      cases e
      intro last mem
      rw [List.getLast?_concat, Option.mem_some_iff] at mem
      rw [← mem]
      exact names n List.mem_cons_self
  | enter short there way ih => exact ih (fun n mem => names n (List.mem_cons_of_mem _ mem)) e
  | file => cases e
  | link => cases e
  | @cross k l n target rest dir t short there go ne way ih =>
      refine ih (fun n mem => ?_) e
      rcases List.mem_append.1 mem with mem | mem
      · exact Path.isName_of_mem_names (List.mem_filterMap.2 ⟨_, mem, rfl⟩)
      · exact names n (List.mem_cons_of_mem _ mem)

/-- **A directory that is missing on the way to a path has a name** that is a step. -/
theorem OnWay.named (h : d.OnWay p place) : ∀ n ∈ place.getLast?, Path.IsName n := by
  obtain ⟨d₁, q, -, -, -, found⟩ := h
  exact (find_eq_ok_iff.1 found).2.named_of_vacant fun n mem =>
    Path.isName_of_mem_names (List.mem_filterMap.2 ⟨_, mem, rfl⟩)

/-- **Nothing is left at a place that is cut and below it.** -/
theorem bareAt_cut (ne : m ≠ []) (d : Disk) : (d.cut m).BareAt m := by
  intro place e below there
  have top : place ≠ [] := by
    rintro rfl
    exact ne (List.prefix_nil.1 below)
  rw [get?_cut_below d top below] at there
  cases there

/-- **A change beside a place brings directories there at most.** -/
theorem BareAt.apply (bare : d.BareAt m) (house : d.Houses root l) (plain : d.PlainIn l)
    {change : Change} (touches : change.Touches root l fun q => ¬ m <+: q) :
    (d.apply change).2.BareAt m := by
  obtain ⟨steady, spared⟩ := spares_apply house plain touches
  intro place e below there
  cases e with
  | directory =>
      refine ⟨rfl, ?_⟩
      rcases apply_added there with before | new
      · exact (bare place _ below before).2
      · exact new.named
  | file content =>
      have before := (spared place content (not_not.2 below)).1 there
      cases (bare place _ below before).1
  | link t =>
      cases (bare place _ below ((steady.links place t).2 there)).1

/-- **Changes beside a place bring directories there at most.** -/
theorem BareAt.performs (bare : d.BareAt m)
    (run : Performs (·.Touches root l fun q => ¬ m <+: q) d d') (house : d.Houses root l)
    (plain : d.PlainIn l) : d'.BareAt m := by
  induction run with
  | done => exact bare
  | step change touches rest ih =>
      obtain ⟨steady, -⟩ := spares_apply house plain touches
      exact ih (bare.apply house plain touches) (steady.houses house) (steady.plainIn plain)

/-! ## Walks -/

/-- **The names in a directory are those of entries** that there are. -/
theorem exists_get?_of_mem_names {n : String} (h : n ∈ d.names l) :
    ∃ e, d.get? (l ++ [n]) = some e := by
  obtain ⟨⟨place, e⟩, mem, listed⟩ := List.mem_filterMap.1 (List.mem_mergeSort.1 h)
  split at listed
  · rename_i above
    have eq : place = l ++ [n] := by
      rw [← above]
      exact (List.dropLast_append_getLast? n listed).symm
    rw [get?, if_neg (by simp), ← Option.isSome_iff_exists, List.lookup_isSome_iff]
    exact ⟨(place, e), mem, by simp [eq]⟩
  · cases listed

/-- **All that is below a place has names that are steps.** -/
def NamedBelow (m : Location) (d : Disk) : Prop :=
  ∀ ns n e, d.get? (m ++ ns ++ [n]) = some e → Path.IsName n

/-- **The entries of a directory are walked one after the other.** -/
theorem belowNames_eq_flatMap (d : Disk) (follow : Bool) (fuel : Nat)
    (above : List (Location × Path)) (p : Path) (names : List String) :
    d.belowNames follow fuel above p names
      = names.flatMap fun n => d.belowWithin follow fuel above (p.child n) := by
  induction names with
  | nil => rw [belowNames, List.flatMap_nil]
  | cons n names ih => rw [belowNames, List.flatMap_cons, ih]

/-- **What a walk finds as a file is one**, and its path is made of the names on the way. -/
theorem exists_of_mem_belowWithin (house : d.Houses root l) (plain : d.PlainIn l)
    {follow : Bool} {fuel : Nat} {ns : List String} (named : d.NamedBelow (l ++ ns))
    (at_ : p.LiesAt root ns) (own : Owned ns) {above : List (Location × Path)} {q : Path}
    (mem : .ok (q, true) ∈ d.belowWithin follow fuel above p) :
    ∃ ms content, q = p.descend ms ∧ (∀ m ∈ ms, Path.IsName m)
      ∧ d.get? (l ++ ns ++ ms) = some (.file content) := by
  -- By the depth of the walk; the entries of a directory are walked one level deeper.
  induction fuel generalizing p ns above with
  | zero => simp [belowWithin] at mem
  | succ fuel ih =>
      unfold belowWithin at mem
      split at mem
      · simp at mem
      · simp at mem
      · rename_i place found
        rcases (leadsBelow_of_find house plain at_ own found).target with ⟨_, e, -⟩ | ⟨e, -⟩ <;>
          cases e
        simp only at mem
        split at mem
        · simp at mem
        rw [belowNames_eq_flatMap, List.mem_cons, List.mem_flatMap] at mem
        obtain ⟨n, listed, mem⟩ := mem.resolve_left (by simp)
        obtain ⟨e, there⟩ := exists_get?_of_mem_names listed
        have isName : Path.IsName n := named [] n e (by rwa [List.append_nil])
        have deeper : l ++ (ns ++ [n]) = l ++ ns ++ [n] := (List.append_assoc _ _ _).symm
        obtain ⟨ms, content, eq, names, file⟩ := ih
          (fun ms m e holds => named (n :: ms) m e (by rw [deeper] at holds; simpa using holds))
          (at_.child isName) (own.append [n]) mem
        refine ⟨n :: ms, content, eq, List.forall_mem_cons.2 ⟨isName, names⟩, ?_⟩
        rw [deeper] at file
        simpa using file
      · rename_i place content found
        rcases (leadsBelow_of_find house plain at_ own found).target with
          ⟨_, e, there⟩ | ⟨e, -⟩ <;> cases e
        obtain rfl : q = p := by simpa using mem
        exact ⟨[], content, rfl, fun m mem => absurd mem List.not_mem_nil, by simpa using there⟩
      · simp at mem

/-- **What is below a place where there are directories only has names that are steps.** -/
theorem BareAt.namedBelow (bare : d.BareAt m) : d.NamedBelow m := by
  intro ns n e there
  have below : m <+: m ++ ns ++ [n] := by
    rw [List.append_assoc]
    exact List.prefix_append _ _
  exact (bare _ e below there).2 n (by rw [List.getLast?_concat]; rfl)

/-- **There is no file below a place where there are directories only.** -/
theorem filesBelow_of_bare (house : d.Houses root l) (plain : d.PlainIn l) {x : String}
    (bare : d.BareAt (l ++ [x])) (own : Owned [x]) (follow : Bool) (at_ : p.LiesAt root [x]) :
    d.filesBelow follow p = [] := by
  refine List.filterMap_eq_nil_iff.2 fun found mem => ?_
  split
  · obtain ⟨ms, content, -, -, file⟩ :=
      exists_of_mem_belowWithin house plain bare.namedBelow at_ own mem
    cases (bare _ _ (List.prefix_append _ _) file).1
  · rfl

end Disk

end Seams
