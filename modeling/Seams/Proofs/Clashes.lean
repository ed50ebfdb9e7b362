import Mathlib.Data.List.Basic
import Mathlib.Tactic.Common
import Seams.Proofs.Room

/-! # Names of the files of a cache
What is kept for a source is named after it, and the record has an extension behind the last name.
That extension makes the only clash there is between two sources that can be there at once: a
record may have the name of a directory in which another source is, so that only one of the two can
be kept.
Main definitions:
* **`Path.Apart`** — neither of two paths is the other one or above it;
* **`RewriteCache.files`** — the paths of what is kept for a source;
* **`RewriteCache.Clash`** — a source is below a directory that is named like a record. -/

namespace Seams

/-! ## Paths that are apart -/

namespace Path

/-- **Neither of two paths is the other one or above it.** -/
def Apart (p q : Path) : Prop := ¬ p.steps <+: q.steps ∧ ¬ q.steps <+: p.steps

variable {p q root : Path} {ns ms : List String}

/-- **One path below another one is above a second one exactly if its names come first.** -/
theorem LiesAt.prefix_iff (hp : p.LiesAt root ns) (hq : q.LiesAt root ms) :
    p.steps <+: q.steps ↔ ns <+: ms := by
  have injective : Function.Injective Step.name := fun _ _ => Step.name.inj
  rw [hp.steps, hq.steps, List.prefix_append_right_inj, List.prefix_map_iff_of_injective injective]

/-- **Paths below another one are apart exactly if their names are.** -/
theorem LiesAt.apart_iff (hp : p.LiesAt root ns) (hq : q.LiesAt root ms) :
    p.Apart q ↔ ¬ ns <+: ms ∧ ¬ ms <+: ns := by
  rw [Apart, hp.prefix_iff hq, hq.prefix_iff hp]

/-- **Paths in different directories are apart.** -/
theorem LiesAt.apart_of_ne {x y : String} (hp : p.LiesAt root (x :: ns))
    (hq : q.LiesAt root (y :: ms)) (ne : x ≠ y) : p.Apart q := by
  rw [hp.apart_iff hq]
  exact ⟨fun within => ne (List.cons_prefix_cons.1 within).1,
    fun within => ne (List.cons_prefix_cons.1 within).1.symm⟩

end Path

/-! ## Clashes -/

namespace RewriteCache

/-- **The paths of what is kept for a source.** -/
def files (c : RewriteCache) (source : Path) : List Path :=
  [c.sourcePath source, c.recordPath source]

/-- **A source is below a directory that is named like the record of another one**: its names begin
with those of the record, and go on. -/
def Clash (p q : Location) : Prop := ∃ n rest, q = recordNames p ++ n :: rest

variable {c : RewriteCache} {p q l : Location} {content content' : Fingerprint}
  {rewritten rewritten' : Bytes} {d d' : Disk}

/-- **A record is to be above another one exactly if there is a clash.** -/
theorem prefix_dropLast_iff : recordNames p <+: (recordNames q).dropLast ↔ Clash p q := by
  rw [dropLast_recordNames q]
  constructor
  · rintro ⟨ms, eq⟩
    have ne : q ≠ [] := by
      rintro rfl
      exact recordNames_ne_nil p (List.append_eq_nil_iff.1 eq).1
    have whole : q = recordNames p ++ (ms ++ [q.getLast ne]) := by
      rw [← List.append_assoc, eq, List.dropLast_append_getLast]
    obtain ⟨n, rest, more⟩ := List.exists_cons_of_ne_nil
      (List.append_ne_nil_of_right_ne_nil ms (List.cons_ne_nil (q.getLast ne) []))
    exact ⟨n, rest, by rw [← more]; exact whole⟩
  · rintro ⟨n, rest, rfl⟩
    rw [List.dropLast_append_of_ne_nil (List.cons_ne_nil _ _)]
    exact List.prefix_append _ _

/-- **The record of one source is above that of another one, or is the same, exactly if there is a
clash**, unless it is the same source. -/
theorem recordNames_prefix_iff (names : ∀ n ∈ p, Path.IsName n) (names' : ∀ n ∈ q, Path.IsName n)
    (ne : p ≠ q) : recordNames p <+: recordNames q ↔ Clash p q := by
  rw [← prefix_dropLast_iff]
  refine ⟨fun within => ?_, fun within => within.trans (List.dropLast_prefix _)⟩
  have last := List.dropLast_append_getLast (recordNames_ne_nil q)
  rw [← last, List.prefix_concat_iff, last] at within
  exact within.resolve_left fun same => ne (recordNames_injective names names' same)

/-- **The files of two sources are apart exactly if there is no clash.** -/
theorem pairwise_files_iff (names : ∀ n ∈ p, Path.IsName n) (names' : ∀ n ∈ q, Path.IsName n)
    (apart : ¬ p <+: q ∧ ¬ q <+: p) :
    (c.files p.path ++ c.files q.path).Pairwise Path.Apart ↔ ¬ Clash p q ∧ ¬ Clash q p := by
  have ne : p ≠ q := by
    rintro rfl
    exact apart.1 List.prefix_rfl
  have source (r : Location) (names : ∀ n ∈ r, Path.IsName n) :
      (c.sourcePath r.path).LiesAt c.root ("src" :: r) := by
    have lies := c.sourcePath_liesAt r.path
    rwa [Disk.names_path names] at lies
  have record (r : Location) (names : ∀ n ∈ r, Path.IsName n) :
      (c.recordPath r.path).LiesAt c.root ("meta" :: recordNames r) := by
    have lies := c.recordPath_liesAt r.path
    rwa [Disk.names_path names] at lies
  have sources : (c.sourcePath p.path).Apart (c.sourcePath q.path) := by
    rw [(source p names).apart_iff (source q names')]
    simpa using apart
  have records : (c.recordPath p.path).Apart (c.recordPath q.path)
      ↔ ¬ Clash p q ∧ ¬ Clash q p := by
    rw [(record p names).apart_iff (record q names'), List.cons_prefix_cons,
      List.cons_prefix_cons, recordNames_prefix_iff names names' ne,
      recordNames_prefix_iff names' names ne.symm]
    simp
  -- A rewritten source and a record are in directories of their own.
  have across (r s : Location) (hr : ∀ n ∈ r, Path.IsName n) (hs : ∀ n ∈ s, Path.IsName n) :
      (c.sourcePath r.path).Apart (c.recordPath s.path) :=
    (source r hr).apart_of_ne (record s hs) (by decide)
  have across' : (c.recordPath p.path).Apart (c.sourcePath q.path) :=
    (record p names).apart_of_ne (source q names') (by decide)
  rw [← records]
  simp [files, sources, across p p names names, across p q names names',
    across q q names' names', across']

/-- **What could be kept before a source is kept can be kept after it exactly if there is no
clash.** -/
theorem IsOpen.write_after_iff (isOpen : c.IsOpen l d) (names : ∀ n ∈ p, Path.IsName n)
    (names' : ∀ n ∈ q, Path.IsName n) (apart : ¬ p <+: q ∧ ¬ q <+: p)
    (written : c.write d p.path content rewritten = (.ok (), d'))
    (alone : ∃ d'', c.write d q.path content' rewritten' = (.ok (), d'')) :
    (∃ d'', c.write d' q.path content' rewritten' = (.ok (), d''))
      ↔ ¬ Clash p q ∧ ¬ Clash q p := by
  obtain ⟨m, writes⟩ := isOpen.writes written
  have named : q.path.names ≠ [] := by
    rw [Disk.names_path names']
    rintro rfl
    exact apart.2 List.nil_prefix
  have room := (isOpen.write_ok_iff named _ _).1 alone
  have isOpen' := isOpen.write p.path content rewritten
  rw [written] at isOpen'
  rw [isOpen'.write_ok_iff named, writes.hasRoom_iff, Disk.names_path names,
    Disk.names_path names', prefix_dropLast_iff, prefix_dropLast_iff]
  -- Neither source is above the other one, so the records alone can be in each other's way.
  have sources {r s : Location} (free : ¬ r <+: s) : ¬ "src" :: r <+: ("src" :: s).dropLast :=
    fun within => free (List.cons_prefix_cons.1 (within.trans (List.dropLast_prefix _))).2
  exact ⟨fun h => h.2.2, fun free => ⟨room, ⟨sources apart.1, sources apart.2⟩, free⟩⟩

/-- **The files of two sources that can be there at once are apart exactly if there is no clash**,
and so one of the sources can be kept after the other one exactly if there is none. -/
theorem files_apart_iff (names : ∀ n ∈ p, Path.IsName n) (names' : ∀ n ∈ q, Path.IsName n)
    (apart : ¬ p <+: q ∧ ¬ q <+: p) :
    ((c.files p.path ++ c.files q.path).Pairwise Path.Apart ↔ ¬ Clash p q ∧ ¬ Clash q p)
      ∧ (c.IsOpen l d → c.write d p.path content rewritten = (.ok (), d') →
        (∃ d'', c.write d q.path content' rewritten' = (.ok (), d'')) →
        ((∃ d'', c.write d' q.path content' rewritten' = (.ok (), d''))
          ↔ ¬ Clash p q ∧ ¬ Clash q p)) :=
  ⟨pairwise_files_iff names names' apart,
    fun isOpen written alone => isOpen.write_after_iff names names' apart written alone⟩

/-- **A source below a directory cannot be kept once a source is kept beside that directory**, if
the directory has the name of the other source with the extension of a record. -/
theorem files_apart_iff_nested :
    let p : Location := ["app", "a"]
    let q : Location := ["app", "a.json", "b.php"]
    ¬ (smallCache.files p.path ++ smallCache.files q.path).Pairwise Path.Apart
      ∧ (∃ d, smallCache.write smallOpened q.path ⟨1, 3⟩ (bytesOf "new") = (.ok (), d))
      ∧ ∃ d, smallCache.write smallOpened p.path ⟨0, 3⟩ (bytesOf "old") = (.ok (), d)
        ∧ ¬ ∃ d', smallCache.write d q.path ⟨1, 3⟩ (bytesOf "new") = (.ok (), d') := by
  intro p q
  obtain ⟨led, opened, first, second⟩ :
      emptyCache.LeadsTo ⟨"/c"⟩ ["c"]
        ∧ (emptyCache.applyAll smallCache.openChanges).1.toOption = some ()
        ∧ (smallCache.write smallOpened p.path ⟨0, 3⟩ (bytesOf "old")).1.toOption = some ()
        ∧ (smallCache.write smallOpened q.path ⟨1, 3⟩ (bytesOf "new")).1.toOption = some () := by
    decide +kernel
  have isOpen : smallCache.IsOpen ["c"] smallOpened :=
    isOpen_of_opened (led.houses (fun _ _ => Iff.rfl) rfl)
      (Disk.plainIn_of_entries (by simp [emptyCache]) _) (eq_of_toOption opened)
  have names : ∀ n ∈ p, Path.IsName n := by
    simp only [p, List.forall_mem_cons, List.not_mem_nil, false_implies, implies_true, and_true]
    exact ⟨by constructor <;> decide, by constructor <;> decide⟩
  have names' : ∀ n ∈ q, Path.IsName n := by
    simp only [q, List.forall_mem_cons, List.not_mem_nil, false_implies, implies_true, and_true]
    exact ⟨by constructor <;> decide, by constructor <;> decide, by constructor <;> decide⟩
  have clash : Clash p q := ⟨"b.php", [], by decide⟩
  obtain ⟨apart, keeps⟩ := files_apart_iff (c := smallCache) (l := ["c"]) names names' (by decide)
  refine ⟨fun all => (apart.1 all).1 clash, ⟨_, eq_of_toOption second⟩, _, eq_of_toOption first,
    fun kept => ?_⟩
  exact ((keeps isOpen (eq_of_toOption first) ⟨_, eq_of_toOption second⟩).1 kept).1 clash

end RewriteCache

end Seams
