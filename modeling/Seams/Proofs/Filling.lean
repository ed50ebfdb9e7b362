import Mathlib.Data.List.Basic
import Mathlib.Tactic.Common
import Seams.Proofs.Room
import Seams.Proofs.Transparency

/-! # Caches that are filled
Keeping rewritten sources brings files and directories among the rewritten sources and the records
of a cache, and nothing anywhere else. What there was stays, but for the contents of files among
these. So paths lead where they led before, and files elsewhere are the same.
Main definitions:
* **`Entry.Alike`** — two entries are of one kind;
* **`Disk.Fills`** — a disk holds more in a cache, and the same elsewhere;
* **`Change.Fills`** — a change that stores a file among the rewritten sources or the records. -/

namespace Seams

open RewriteCache (Owned)

/-- **Two entries are of one kind**: both are files, or they are the same. -/
inductive Entry.Alike : Entry → Entry → Prop where
  /-- Both are files. -/
  | file (content content' : Bytes) : Alike (.file content) (.file content')
  /-- Both are directories. -/
  | directory : Alike .directory .directory
  /-- Both are the same link. -/
  | link (target : Path) : Alike (.link target) (.link target)

namespace Entry.Alike

variable {e e' e'' : Entry}

/-- **An entry is of its own kind.** -/
theorem refl : ∀ e : Entry, e.Alike e
  | .file content => .file content content
  | .directory => .directory
  | .link target => .link target

/-- **Entries of the kind of one entry are of one kind.** -/
theorem trans (h : e.Alike e') (h' : e'.Alike e'') : e.Alike e'' := by
  cases h with
  | file content =>
      cases h'
      exact .file _ _
  | directory => exact h'
  | link target => exact h'

end Entry.Alike

/-- **A change stores a file among the rewritten sources or the records** of a cache. -/
def Change.Fills (root : Path) : Change → Prop
  | .storeFile p _ => ∃ x rest, (x = "src" ∨ x = "meta") ∧ p.LiesAt root (x :: rest)
  | _ => False

namespace Disk

variable {d d' d'' : Disk} {root p : Path} {l m : Location} {e : Entry} {follow : Bool}

/-- **A way to an entry leads to one of its kind** as long as what there is stays so. -/
theorem Leads.alike {k : Nat} {steps : List Step} {dir : Bool}
    (h : d.Leads follow k l steps dir (.present m e))
    (stays : ∀ m e, d.get? m = some e → ∃ e', d'.get? m = some e' ∧ e.Alike e') :
    ∃ e', e.Alike e' ∧ d'.Leads follow k l steps dir (.present m e') := by
  have directory {m : Location} (there : d.get? m = some .directory) :
      d'.get? m = some .directory := by
    obtain ⟨e', there', alike⟩ := stays _ _ there
    cases alike
    exact there'
  have link {m : Location} {t : Path} (there : d.get? m = some (.link t)) :
      d'.get? m = some (.link t) := by
    obtain ⟨e', there', alike⟩ := stays _ _ there
    cases alike
    exact there'
  generalize eq : Target.present m e = found at h
  induction h with
  | here =>
      cases eq
      exact ⟨_, .directory, .here⟩
  | up way ih =>
      obtain ⟨e', alike, way'⟩ := ih eq
      exact ⟨e', alike, .up way'⟩
  | vacant => cases eq
  | enter short there way ih =>
      obtain ⟨e', alike, way'⟩ := ih eq
      exact ⟨e', alike, .enter short (directory there) way'⟩
  | file short there =>
      cases eq
      obtain ⟨e', there', alike⟩ := stays _ _ there
      cases alike
      exact ⟨_, .file _ _, .file short there'⟩
  | link short there stay =>
      cases eq
      exact ⟨_, .link _, .link short (link there) stay⟩
  | cross short there go ne way ih =>
      obtain ⟨e', alike, way'⟩ := ih eq
      exact ⟨e', alike, .cross short (link there) go ne way'⟩

/-- **On steady disks a path is the same when it is taken from the current directory.** -/
theorem Steady.absolute_eq (steady : Steady d d') (p : Path) : d'.absolute p = d.absolute p := by
  rw [absolute, absolute, steady.current]

/-- **A disk holds more among the rewritten sources and the records** of a cache at a place, where
files may have other contents, and the same elsewhere. -/
structure Fills (l : Location) (d d' : Disk) : Prop where
  /-- The links are the same, and the current directory is. -/
  steady : Steady d d'
  /-- What there is stays of its kind. -/
  stays : ∀ m e, d.get? m = some e → ∃ e', d'.get? m = some e' ∧ e.Alike e'
  /-- Other places are as they were. -/
  same : ∀ m, ¬ KeptAt l [] m → d'.get? m = d.get? m

namespace Fills

/-- **A disk holds what it holds.** -/
theorem refl (l : Location) (d : Disk) : Fills l d d :=
  ⟨.refl d, fun _ e there => ⟨e, there, .refl e⟩, fun _ _ => rfl⟩

/-- **A cache that is filled twice is filled.** -/
theorem trans (h : Fills l d d') (h' : Fills l d' d'') : Fills l d d'' where
  steady := h.steady.trans h'.steady
  stays m e there := by
    obtain ⟨e', there', alike⟩ := h.stays m e there
    obtain ⟨e'', there'', alike'⟩ := h'.stays m e' there'
    exact ⟨e'', there'', alike.trans alike'⟩
  same m apart := (h'.same m apart).trans (h.same m apart)

/-- **Directories stay.** -/
theorem directory (fills : Fills l d d') (there : d.get? m = some .directory) :
    d'.get? m = some .directory := by
  obtain ⟨e', there', alike⟩ := fills.stays m _ there
  cases alike
  exact there'

/-- **Places stand still.** -/
theorem stands (fills : Fills l d d') (stands : d.Stands m) : d'.Stands m :=
  fun front n within => ⟨(stands front n within).1, fills.directory (stands front n within).2⟩

/-- **A path leads to the place to which it led**, and there is an entry of the same kind. -/
theorem find (fills : Fills l d d') (found : d.find follow p = .ok (.present m e)) :
    ∃ e', e.Alike e' ∧ d'.find follow p = .ok (.present m e') := by
  obtain ⟨usable, way⟩ := find_eq_ok_iff.1 found
  obtain ⟨e', alike, way'⟩ := way.alike fills.stays
  refine ⟨e', alike, find_eq_ok_iff.2 ⟨usable, ?_⟩⟩
  rwa [start, fills.steady.current]

/-- **Elsewhere the entry is the same.** -/
theorem find_same (fills : Fills l d d') (found : d.find follow p = .ok (.present m e))
    (apart : ¬ KeptAt l [] m) : d'.find follow p = .ok (.present m e) := by
  obtain ⟨usable, way⟩ := find_eq_ok_iff.1 found
  refine find_eq_ok_iff.2 ⟨usable, ?_⟩
  rw [start, fills.steady.current]
  exact way.kept (fun _ => fills.directory) (fun m t => (fills.steady.links m t).1)
    fun _ _ there => by rw [fills.same m apart, there]

end Fills

/-- **Storing a file among the rewritten sources or the records fills a cache**, whether it succeeds
or not, if the path of the cache leads to its place. -/
theorem fills_apply (house : d.Houses root l) (plain : d.PlainIn l) (there : d.LeadsTo root l)
    {change : Change} (fills : change.Fills root) : Fills l d (d.apply change).2 := by
  cases change with
  | ensureDirectory p => exact fills.elim
  | removeTree p => exact fills.elim
  | storeFile p content =>
      obtain ⟨x, rest, kind, at_⟩ := fills
      have own : Owned (x :: rest) := by
        rcases kind with rfl | rfl
        · exact .source _
        · exact .record _
      have kept (ns : List String) : KeptAt l [] (l ++ x :: ns) := by
        have within : l ++ [x] <+: l ++ x :: ns := (List.prefix_append_right_inj l).2 (by simp)
        rcases kind with rfl | rfl
        · exact .inl within
        · exact .inr (.inl within)
      refine ⟨steady_storeFile house plain at_ own content, fun m e holds => ?_, fun m apart => ?_⟩
      · -- Only the file itself may come to have another content.
        obtain ⟨grown, grows, ⟨_, failed⟩ | ⟨-, apart', stored⟩⟩ :=
          apply_storeFile house plain at_ own content
        · rw [failed]
          exact ⟨e, grows.kept _ _ holds, .refl e⟩
        · rw [stored]
          by_cases here : m = l ++ x :: rest
          · subst here
            rw [get?_put_self _ _ (by simp)]
            cases e with
            | file old => exact ⟨_, rfl, .file _ _⟩
            | directory => exact absurd (grows.kept _ _ holds) apart'
            | link t => exact absurd holds (plain _ t own)
          · rw [get?_put_of_ne _ _ here]
            exact ⟨e, grows.kept _ _ holds, .refl e⟩
      · -- A directory that is created elsewhere would be on the way to the cache, which is there.
        cases holds : d.get? m with
        | some e =>
            exact kept_storeFile house plain at_ own content holds fun _ here =>
              absurd (here ▸ kept rest) apart
        | none =>
            have touches : (Change.storeFile p content).Touches root l (KeptAt l []) :=
              ⟨_, own, at_, fun _ => kept rest⟩
            rw [same_apply house plain touches apart, holds]
            intro way
            obtain ⟨pre, ne, within, rfl⟩ :=
              OnWay.below way (there.avoids (by rw [holds]; simp)) house plain at_
                fun pre within ne => own.of_le ne within
            obtain ⟨first, more, rfl⟩ := List.exists_cons_of_ne_nil ne
            obtain ⟨rfl, -⟩ := List.cons_prefix_cons.1 within
            exact apart (kept more)

end Disk

namespace RewriteCache

variable {c : RewriteCache} {l : Location} {d d' : Disk}

/-- **Keeping a rewritten source fills a cache.** -/
theorem storeChanges_fills (c : RewriteCache) (source : Path) (content : Fingerprint)
    (rewritten : Bytes) :
    ∀ change ∈ c.storeChanges source content rewritten, change.Fills c.root := by
  intro change mem
  simp only [storeChanges, List.mem_cons, List.not_mem_nil, or_false] at mem
  rcases mem with rfl | rfl
  · exact ⟨_, _, .inl rfl, c.sourcePath_liesAt source⟩
  · exact ⟨_, _, .inr rfl, c.recordPath_liesAt source⟩

/-- **A cache that is open is filled by changes that fill it**, and stays open. -/
theorem IsOpen.fills (isOpen : c.IsOpen l d) (run : Disk.Performs (·.Fills c.root) d d') :
    c.IsOpen l d' ∧ Disk.Fills l d d' := by
  induction run with
  | done => exact ⟨isOpen, .refl l _⟩
  | step change fills rest ih =>
      have stores : change.Stores c.root := by
        cases change with
        | ensureDirectory p => exact fills.elim
        | removeTree p => exact fills.elim
        | storeFile p content =>
            obtain ⟨x, rest, rfl | rfl, at_⟩ := fills
            · exact ⟨_, _, _, rfl, .source _, at_⟩
            · exact ⟨_, _, _, rfl, .record _, at_⟩
      obtain ⟨isOpen', fills'⟩ := ih (isOpen.apply stores)
      exact ⟨isOpen', (Disk.fills_apply isOpen.houses isOpen.plain isOpen.there fills).trans fills'⟩

end RewriteCache

end Seams
