import Mathlib.Tactic.Common
import Seams.Proofs.Census
import Seams.Proofs.Filling
import Seams.Proofs.Spellings

/-! # Resolving into a cache
A resolver that has been locked fills its cache with each source that it resolves. What is in the
cache stays there, and is loaded from there whenever it is asked for again.
Main definitions:
* **`Resolver.Fills`** — a resolver is in use with a cache that is open and fits;
* **`Resolver.Stocked`** — what is loaded for a path is in the cache;
* **`Resolver.Apart`** — no place in scope is among the rewritten sources or the records. -/

namespace Seams

/-! ## Steps -/

namespace Active

variable {a : Active} {l : Location} {d : Disk}

/-- **Resolving a path performs what keeping a rewritten source does**, if anything. -/
theorem resolve_performs (a : Active) (d : Disk) (p : Path) {allowed : Change → Prop}
    (storing : ∀ content rewritten,
      ∀ change ∈ a.cache.storeChanges (d.normalize p).path content rewritten, allowed change) :
    Disk.Performs allowed d (a.resolve d p).2.2 := by
  rcases a.resolve_disk d p with same | ⟨raw, output, -, -, written⟩
  · rw [same]
    exact .done d
  · rw [written, RewriteCache.write, Disk.InOrder.perform_snd]
    exact .applyAll d (storing _ _)

/-- **Resolving a path fills the cache.** -/
theorem resolve_fills (isOpen : a.cache.IsOpen l d) (p : Path) :
    a.cache.IsOpen l (a.resolve d p).2.2 ∧ Disk.Fills l d (a.resolve d p).2.2 :=
  isOpen.fills (a.resolve_performs d p fun _ _ => a.cache.storeChanges_fills _ _ _)

/-- **Resolving a path keeps a disk tidy.** -/
theorem resolve_tidy {m : Location} (tidy : d.Tidy m) (p : Path) : (a.resolve d p).2.2.Tidy m := by
  rcases a.resolve_disk d p with same | ⟨raw, output, -, -, written⟩
  · rwa [same]
  · rw [written, RewriteCache.write, Disk.InOrder.perform_snd]
    exact tidy.applyAll _

end Active

namespace Resolver

/-! ## A cache that is being filled -/

section

variable (c : RewriteCache) (scope : Scope) (axes : AxisSnapshot) (l : Location)

/-- **A cache is being filled by a resolver**: the resolver is in use with the cache and a scope,
and the cache is open and fits. -/
structure Fills (r : Resolver) (d : Disk) : Prop where
  /-- The resolver is in use. -/
  active : ∃ a, r.active = some a ∧ a.cache = c ∧ a.scope = scope
  /-- The cache is open. -/
  isOpen : c.IsOpen l d
  /-- It fits the axes. -/
  fitted : c.Fitted l axes d
  /-- All entries are listed once, and have names that are steps. -/
  tidy : d.Tidy []

end

variable {c : RewriteCache} {scope : Scope} {axes : AxisSnapshot} {l : Location} {r : Resolver}
  {d : Disk} {p : Path} {bytes : Bytes} {res : Resolved}

/-- **A resolver that resolves something still fills the cache.** -/
theorem Fills.resolve (fills : r.Fills c scope axes l d) (p : Path) :
    (r.resolve d p).2.1.Fills c scope axes l (r.resolve d p).2.2
      ∧ Disk.Fills l d (r.resolve d p).2.2 := by
  obtain ⟨a, active, rfl, rfl⟩ := fills.active
  rw [resolve_of_active active]
  obtain ⟨isOpen, filled⟩ := Active.resolve_fills fills.isOpen p
  obtain ⟨cache, -, same⟩ := a.resolve_state d p
  dsimp only
  refine ⟨⟨⟨_, rfl, cache, same⟩, isOpen, ?_, Active.resolve_tidy fills.tidy p⟩, filled⟩
  exact fills.fitted.performs (a.resolve_performs d p fun content rewritten change mem =>
    ⟨a.cache.storeChanges_touches l _ content rewritten [] change mem,
      a.cache.storeChanges_offList _ content rewritten change mem⟩)

/-- **A path is in scope where the place that it leads to is.** -/
theorem Fills.inScope_eq (fills : r.Fills c scope axes l d) (p : Path) :
    r.inScope d p = scope.holds d p := by
  obtain ⟨a, active, -, rfl⟩ := fills.active
  rw [inScope, active]

/-! ## Files that are in the cache -/

section

variable (c : RewriteCache) (scope : Scope) (l : Location)

/-- **What is loaded for a path in scope is in a cache**: the path leads to a file, which is read by
the path of its place, and the cache keeps what was made of it. -/
def Stocked (p : Path) (bytes : Bytes) (d : Disk) : Prop :=
  ∃ place raw, d.find true (d.absolute p) = .ok (.present place (.file raw))
    ∧ d.read place.path = .ok raw ∧ scope.covers place = true
    ∧ c.Keeps l place.path (Fingerprint.of raw) bytes d

/-- **No place in scope is among the rewritten sources or the records** of a cache. -/
def Apart : Prop := ∀ m, scope.covers m = true → ¬ Disk.KeptAt l [] m

end

/-- **What is in the cache is loaded from there.** -/
theorem Stocked.answers (stocked : Stocked c scope l p bytes d) (fills : r.Fills c scope axes l d) :
    r.Answers d p ⟨p, bytes, .cacheHit⟩ := by
  obtain ⟨a, active, rfl, rfl⟩ := fills.active
  obtain ⟨place, raw, found, read, covers, keeps⟩ := stocked
  have spells : d.Spells p place := Disk.spells_iff.2 ⟨_, found⟩
  exact answers_of_active active (Active.resolve_of_keeps spells.normalize_eq read covers keeps) rfl

/-- **What is in the cache stays there** when another path is resolved, or the same one again. -/
theorem Stocked.resolve (stocked : Stocked c scope l p bytes d) (apart : Apart scope l)
    (fills : r.Fills c scope axes l d) (q : Path) :
    Stocked c scope l p bytes (r.resolve d q).2.2 := by
  obtain ⟨-, filled⟩ := fills.resolve q
  obtain ⟨a, active, rfl, rfl⟩ := fills.active
  rw [resolve_of_active active] at filled ⊢
  dsimp only at filled ⊢
  obtain ⟨place, raw, found, read, covers, keeps⟩ := stocked
  have spells : d.Spells p place := Disk.spells_iff.2 ⟨_, found⟩
  obtain ⟨-, found_path⟩ := spells.find_file read
  refine ⟨place, raw, ?_, ?_, covers, ?_⟩
  · rw [filled.steady.absolute_eq]
    exact filled.find_same found (apart place covers)
  · exact Disk.read_eq_ok_iff.2 ⟨place, filled.find_same found_path (apart place covers)⟩
  · by_cases here : d.normalize q = place
    · rw [Active.resolve_of_keeps here read covers keeps]
      exact keeps
    · -- Another file has other names.
      refine keeps.performs (a.resolve_performs d q fun content rewritten =>
        a.cache.storeChanges_beside ?_ content rewritten)
      rw [Disk.names_path spells.isName, Disk.names_path fun _ => Disk.isName_of_mem_normalize]
      exact fun eq => here eq.symm

section

variable {base : Disk}

end

end Resolver

end Seams
