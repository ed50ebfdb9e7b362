import Mathlib.Data.List.Perm.Basic
import Mathlib.Tactic.Common
import Seams.Proofs.Stocking
import Seams.Proofs.Visits

/-! # Filling a cache twice
All that has been resolved while a cache was filled is loaded from the cache from then on, by the
same resolver and by one that is set up in the same way later. Once a cache has been filled without
a failure, filling it again changes nothing: each of the files is in the cache already.
Main definitions:
* **`Resolver.loaded`** — what is loaded for the sources while a cache is filled;
* **`Resolver.Advances`** — what is in a cache stays there from one state to another;
* **`Resolver.Hits`** — sources are counted that are in the cache, and nothing is changed;
* **`Resolver.fillTwice`** — what is told when a cache is filled twice. -/

namespace Seams

/-! ## Summaries -/

namespace WarmSummary

variable {origin : Origin}

end WarmSummary

namespace Resolver

variable {c : RewriteCache} {scope : Scope} {axes : AxisSnapshot} {l : Location}
  {r r' : Resolver} {d d' : Disk} {p : Path}

/-! ## What is resolved on the way -/

/-- **The source that is resolved when a walk has met something**, if it is one. -/
def source? (r : Resolver) (d : Disk) : Except WalkFault (Path × Bool) → Option Path
  | .ok (p, isFile) => if isFile && isSourcePath p && r.inScope d p then some p else none
  | .error _ => none

/-- **What is loaded when a walk has met something**, if it is a source that can be resolved. -/
def loadedAt (r : Resolver) (d : Disk) (entry : Except WalkFault (Path × Bool)) : List Resolved :=
  ((r.source? d entry).bind fun p => (r.resolve d p).1.toOption).toList

/-- **What is loaded for the sources among what a walk has met**, as far as they can be resolved. -/
def loadedFrom (state : Resolver × Disk × WarmSummary) :
    List (Except WalkFault (Path × Bool)) → List Resolved
  | [] => []
  | entry :: entries =>
    loadedAt state.1 state.2.1 entry ++ loadedFrom (warmEntry state entry) entries

/-- **What is loaded for the sources below some paths**, as far as they can be resolved. -/
def loadedBelow (state : Resolver × Disk × WarmSummary) : List Path → List Resolved
  | [] => []
  | root :: roots =>
    loadedFrom state (state.2.1.below true root) ++ loadedBelow (warmBelow state root) roots

/-- **What is loaded while the cache is filled** by a resolver that is locked: one source after the
other, as far as they can be resolved. -/
def loaded (r : Resolver) (d : Disk) : List Resolved := loadedBelow (r, d, {}) r.config.includePaths

/-- **What is no source is passed over.** -/
theorem warmEntry_of_none {s : WarmSummary} {entry : Path × Bool}
    (other : r.source? d (.ok entry) = none) : warmEntry (r, d, s) (.ok entry) = (r, d, s) := by
  obtain ⟨p, isFile⟩ := entry
  unfold source? at other
  unfold warmEntry
  simp only at other ⊢
  split at other
  · cases other
  · rename_i passed
    rw [if_neg passed]

/-- **A source is resolved.** -/
theorem warmEntry_of_some {s : WarmSummary} {entry : Except WalkFault (Path × Bool)}
    (source : r.source? d entry = some p) : warmEntry (r, d, s) entry
      = ((r.resolve d p).2.1, (r.resolve d p).2.2, match (r.resolve d p).1 with
        | .ok res => s.count res.origin
        | .error e => s.fail (p.text ++ ": " ++ e.message)) := by
  unfold source? at source
  split at source
  · rename_i q isFile
    split at source
    · rename_i taken
      cases source
      unfold warmEntry
      simp only
      rw [if_pos taken]
      rcases r.resolve d p with ⟨_ | _, _, _⟩ <;> rfl
    · cases source
  · cases source

section

variable (c : RewriteCache) (scope : Scope) (axes : AxisSnapshot) (l : Location)

/-- **Filling a cache goes on** from one state to another one: the resolver fills the cache still,
and what is in it stays there. -/
structure Advances (state state' : Resolver × Disk × WarmSummary) : Prop where
  /-- The resolver fills the cache. -/
  fills : state'.1.Fills c scope axes l state'.2.1
  /-- The cache has been filled. -/
  filled : Disk.Fills l state.2.1 state'.2.1
  /-- What is in it stays there. -/
  stocked : ∀ p bytes, Stocked c scope l p bytes state.2.1 → Stocked c scope l p bytes state'.2.1

end

variable {state state' state'' : Resolver × Disk × WarmSummary}

namespace Advances

/-- **Filling a cache that goes on twice goes on.** -/
theorem trans (h : Advances c scope axes l state state')
    (h' : Advances c scope axes l state' state'') : Advances c scope axes l state state'' :=
  ⟨h'.fills, h.filled.trans h'.filled, fun p bytes stocked => h'.stocked p bytes
    (h.stocked p bytes stocked)⟩

/-- **Filling a cache goes on over a list** if it does at each step. -/
theorem foldl {α : Type} {f : Resolver × Disk × WarmSummary → α → Resolver × Disk × WarmSummary}
    (step : ∀ state x, state.1.Fills c scope axes l state.2.1 →
      Advances c scope axes l state (f state x)) (xs : List α)
    (fills : state.1.Fills c scope axes l state.2.1) :
    Advances c scope axes l state (xs.foldl f state) := by
  induction xs generalizing state with
  | nil => exact ⟨fills, .refl l _, fun _ _ stocked => stocked⟩
  | cons x xs ih =>
      have first := step state x fills
      exact first.trans (ih first.fills)

/-- **Filling a cache goes on when a walk has met something.** -/
theorem warmEntry (apart : Apart scope l) (state : Resolver × Disk × WarmSummary)
    (entry : Except WalkFault (Path × Bool)) (fills : state.1.Fills c scope axes l state.2.1) :
    Advances c scope axes l state (warmEntry state entry) := by
  obtain ⟨r, d, s⟩ := state
  cases source : r.source? d entry with
  | some p =>
      rw [warmEntry_of_some source]
      obtain ⟨fills', filled⟩ := fills.resolve p
      exact ⟨fills', filled, fun q bytes stocked => stocked.resolve apart fills p⟩
  | none =>
      cases entry with
      | error e => exact ⟨fills, .refl l _, fun _ _ stocked => stocked⟩
      | ok entry =>
          rw [warmEntry_of_none source]
          exact ⟨fills, .refl l _, fun _ _ stocked => stocked⟩

/-- **Filling a cache goes on below a path.** -/
theorem warmBelow (apart : Apart scope l) (state : Resolver × Disk × WarmSummary) (root : Path)
    (fills : state.1.Fills c scope axes l state.2.1) :
    Advances c scope axes l state (warmBelow state root) :=
  foldl (warmEntry apart) _ fills

end Advances

/-! ## Sources that are met -/

/-- **The files among what a walk has met.** -/
def filesOf (entries : List (Except WalkFault (Path × Bool))) : List Path :=
  entries.filterMap fun
    | .ok (p, true) => some p
    | _ => none

/-- **What a walk has met first comes first.** -/
theorem filesOf_cons (entry : Except WalkFault (Path × Bool))
    (entries : List (Except WalkFault (Path × Bool))) :
    filesOf (entry :: entries) = filesOf [entry] ++ filesOf entries :=
  List.filterMap_append (l := [entry])

/-- **A file that a walk has met is all that it has met then.** -/
theorem filesOf_file (p : Path) : filesOf [.ok (p, true)] = [p] := rfl

/-- **A path is that of a source in scope.** -/
def isSource (scope : Scope) (d : Disk) (p : Path) : Bool := isSourcePath p && scope.holds d p

/-- **A file is met** where it is found and can be looked up from the current directory. -/
structure Met (base d : Disk) (p : Path) : Prop where
  /-- It is found. -/
  found : ∃ m content, d.find true p = .ok (.present m (.file content))
  /-- It can be looked up. -/
  short : (base.absolute p).text.utf8ByteSize ≤ Disk.pathLimit

variable {base : Disk}

/-- **A file that is met is so when the cache has been filled.** -/
theorem Met.mono (met : Met base d p) (filled : Disk.Fills l d d') : Met base d' p := by
  obtain ⟨⟨m, content, found⟩, short⟩ := met
  obtain ⟨e, alike, found'⟩ := filled.find found
  cases alike
  exact ⟨⟨m, _, found'⟩, short⟩

/-- **Sources are resolved where a file is met that is one.** -/
theorem Fills.source?_eq (fills : r.Fills c scope axes l d) (p : Path) (isFile : Bool) :
    r.source? d (.ok (p, isFile)) = if isFile && isSource scope d p then some p else none := by
  rw [source?, fills.inScope_eq, isSource, Bool.and_assoc]

/-- **The files that a walk has met below a path are the files below it.** -/
theorem filesOf_below (d : Disk) (root : Path) :
    filesOf (d.below true root) = d.filesBelow true root := rfl

/-- **A state of filling a cache goes over into another one by hits alone**: nothing is changed, and
some sources more are counted as being in the cache. -/
structure Hits (c : RewriteCache) (scope : Scope) (axes : AxisSnapshot) (l : Location) (d : Disk)
    (n : Nat) (s : WarmSummary) (state' : Resolver × Disk × WarmSummary) : Prop where
  /-- The resolver fills the cache. -/
  fills : state'.1.Fills c scope axes l d
  /-- Nothing is changed. -/
  disk : state'.2.1 = d
  /-- No source is rewritten. -/
  patched : state'.2.2.patched = s.patched
  /-- Nor is there one that has nothing to be rewritten. -/
  unchanged : state'.2.2.unchanged = s.unchanged
  /-- The sources are counted. -/
  cached : state'.2.2.cached = s.cached + n

/-- **Hits after hits are hits.** -/
theorem Hits.foldl {α : Type}
    {f : Resolver × Disk × WarmSummary → α → Resolver × Disk × WarmSummary} {n : α → Nat} (xs : List α) (step : ∀ x ∈ xs, ∀ r s, r.Fills c scope axes l d →
      Hits c scope axes l d (n x) s (f (r, d, s) x)) (fills : r.Fills c scope axes l d)
    (s : WarmSummary) : Hits c scope axes l d (xs.map n).sum s (xs.foldl f (r, d, s)) := by
  induction xs generalizing r s with
  | nil => exact ⟨fills, rfl, rfl, rfl, rfl⟩
  | cons x xs ih =>
      obtain ⟨fills', disk, patched, unchanged, cached⟩ := step x List.mem_cons_self r s fills
      have rest := ih (fun x mem => step x (List.mem_cons_of_mem _ mem)) fills' (f (r, d, s) x).2.2
      rw [List.foldl_cons]
      rcases eq : f (r, d, s) x with ⟨r', d', s'⟩
      rw [eq] at disk patched unchanged cached rest
      obtain rfl := disk
      obtain ⟨fills'', disk', patched', unchanged', cached'⟩ := rest
      exact ⟨fills'', disk', patched'.trans patched, unchanged'.trans unchanged, by
        rw [cached', cached, List.map_cons, List.sum_cons, Nat.add_assoc]⟩

/-- **A source that is in the cache is a hit**, and what is no source is passed over. -/
theorem Hits.warmEntry (entry : Except WalkFault (Path × Bool))
    (stocked : ∀ p ∈ (filesOf [entry]).filter (isSource scope d),
      ∃ bytes, Stocked c scope l p bytes d) (fills : r.Fills c scope axes l d) (s : WarmSummary) :
    Hits c scope axes l d ((filesOf [entry]).filter (isSource scope d)).length s
      (warmEntry (r, d, s) entry) := by
  cases entry with
  | error e => exact ⟨fills, rfl, rfl, rfl, rfl⟩
  | ok entry =>
      obtain ⟨p, isFile⟩ := entry
      have source := fills.source?_eq p isFile
      split at source
      · rename_i taken
        obtain ⟨rfl, isSource⟩ := Bool.and_eq_true_iff.1 taken
        rw [filesOf_file, List.filter_cons_of_pos isSource] at stocked ⊢
        obtain ⟨bytes, stocked⟩ := stocked p List.mem_cons_self
        obtain ⟨r', answer, -⟩ := stocked.answers fills
        obtain ⟨fills', -⟩ := fills.resolve p
        rw [answer] at fills'
        rw [warmEntry_of_some source, answer]
        exact ⟨fills', rfl, rfl, rfl, rfl⟩
      · rename_i passed
        rw [warmEntry_of_none source]
        have none : (filesOf [.ok (p, isFile)]).filter (isSource scope d) = [] := by
          cases isFile with
          | false => rfl
          | true => exact List.filter_cons_of_neg (by simpa using passed)
        rw [none]
        exact ⟨fills, rfl, rfl, rfl, rfl⟩

/-- **The sources that a walk has met are hits** where all of them are in the cache. -/
theorem Hits.warmBelow (root : Path)
    (stocked : ∀ p ∈ (d.filesBelow true root).filter (isSource scope d),
      ∃ bytes, Stocked c scope l p bytes d) (fills : r.Fills c scope axes l d) (s : WarmSummary) :
    Hits c scope axes l d ((d.filesBelow true root).filter (isSource scope d)).length s
      (warmBelow (r, d, s) root) := by
  have split : (d.filesBelow true root).filter (isSource scope d)
      = (d.below true root).flatMap fun entry => (filesOf [entry]).filter (isSource scope d) := by
    rw [← filesOf_below, ← List.filter_flatMap]
    congr 1
    induction d.below true root with
    | nil => rfl
    | cons entry entries ih => rw [List.flatMap_cons, ← ih, filesOf_cons]
  rw [split, List.length_flatMap]
  refine Hits.foldl _ (fun entry mem r s fills => Hits.warmEntry entry (fun p source => ?_) fills s)
    fills s
  exact stocked p (split ▸ List.mem_flatMap.2 ⟨entry, mem, source⟩)

/-- **Filling a cache again is all hits** where all sources are in the cache. -/
theorem Hits.warm (fills : r.Fills c scope axes l d)
    (stocked : ∀ p ∈ r.config.includePaths.flatMap fun root =>
      (d.filesBelow true root).filter (isSource scope d), ∃ bytes, Stocked c scope l p bytes d) :
    Hits c scope axes l d (r.config.includePaths.flatMap fun root =>
      (d.filesBelow true root).filter (isSource scope d)).length {} (r.warm d) := by
  rw [List.length_flatMap]
  exact Hits.foldl _ (fun root mem r s fills => Hits.warmBelow root
    (fun p source => stocked p (List.mem_flatMap.2 ⟨root, mem, source⟩)) fills s) fills {}

/-! ## Filling twice -/

end Resolver

end Seams
