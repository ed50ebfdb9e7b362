import Mathlib.Data.List.Basic
import Mathlib.Tactic.Common
import Seams.Proofs.Fitting

/-! # What a cache keeps for a source
A rewritten source is kept once it has been stored with its record, and as long as neither is stored
anew. Different files have different names, so keeping one takes nothing from another.
Main definitions:
* **`RewriteCache.Keeps`** — a cache keeps the rewritten source of a path;
* **`Change.StoresBeside`** — a change that stores what is kept for other paths. -/

namespace Seams

open RewriteCache (Owned recordNames)

/-! ## Places that paths are taken for -/

/-- **Steps by names lead to places made of names**, and so do links. -/
theorem Disk.Leads.isName {d : Disk} {follow : Bool} {k : Nat} {l place : Location}
    {steps : List Step} {dir : Bool} {e : Entry}
    (h : d.Leads follow k l steps dir (.present place e)) (first : ∀ n ∈ l, Path.IsName n)
    (names : ∀ n, .name n ∈ steps → Path.IsName n) : ∀ n ∈ place, Path.IsName n := by
  have behind {n : String} {rest : List Step} {l : Location} (first : ∀ n ∈ l, Path.IsName n)
      (names : ∀ m, .name m ∈ Step.name n :: rest → Path.IsName m) :
      ∀ m ∈ l ++ [n], Path.IsName m := by
    intro m mem
    rcases List.mem_append.1 mem with mem | mem
    · exact first m mem
    · rw [List.mem_singleton.1 mem]
      exact names n List.mem_cons_self
  generalize eq : Target.present place e = found at h
  induction h with
  | here =>
      cases eq
      exact first
  | up way ih =>
      exact ih (fun n mem => first n (List.dropLast_subset _ mem))
        (fun n mem => names n (List.mem_cons_of_mem _ mem)) eq
  | vacant => cases eq
  | enter short there way ih =>
      exact ih (behind first names) (fun n mem => names n (List.mem_cons_of_mem _ mem)) eq
  | file =>
      cases eq
      exact behind first names
  | link =>
      cases eq
      exact behind first names
  | @cross k l n target rest dir t short there go ne way ih =>
      refine ih (fun m mem => ?_) (fun m mem => ?_) eq
      · split at mem
        · cases mem
        · exact first m mem
      · rcases List.mem_append.1 mem with mem | mem
        · exact Path.isName_of_mem_names (List.mem_filterMap.2 ⟨_, mem, rfl⟩)
        · exact names m (List.mem_cons_of_mem _ mem)

/-- **Without links, steps by names lead to places made of names.** -/
theorem Location.isName_of_mem_foldl {steps : List Step} {l : Location}
    (first : ∀ n ∈ l, Path.IsName n) (names : ∀ n, .name n ∈ steps → Path.IsName n) :
    ∀ n ∈ steps.foldl Location.step l, Path.IsName n := by
  induction steps generalizing l with
  | nil => exact first
  | cons step steps ih =>
      refine ih (fun n mem => ?_) fun n mem => names n (List.mem_cons_of_mem _ mem)
      cases step with
      | up => exact first n (List.dropLast_subset _ mem)
      | name m =>
          rcases List.mem_append.1 mem with mem | mem
          · exact first n mem
          · rw [List.mem_singleton.1 mem]
            exact names m List.mem_cons_self

namespace Disk

variable {d : Disk} {p : Path} {raw : Bytes}

/-- **A path that is taken from the current directory starts at the top.** -/
theorem start_absolute (d : Disk) (p : Path) : d.start (d.absolute p) = [] := by
  have absolute : (d.absolute p).isAbsolute = true := by
    rw [Disk.absolute]
    split
    · assumption
    · rename_i relative
      rw [Path.isAbsolute_join _ (Bool.eq_false_iff.2 relative)]
      simp [Location.path, Path.isAbsolute]
  rw [start, if_pos absolute]

/-- **The place that a path is taken for is made of names.** -/
theorem isName_of_mem_normalize {n : String} (h : n ∈ d.normalize p) : Path.IsName n := by
  have names (n : String) (mem : .name n ∈ (d.absolute p).steps) : Path.IsName n :=
    Path.isName_of_mem_names (List.mem_filterMap.2 ⟨_, mem, rfl⟩)
  have top : ∀ n ∈ ([] : Location), Path.IsName n := fun n mem => absurd mem List.not_mem_nil
  unfold normalize realPath present at h
  cases found : d.find true (d.absolute p) with
  | error e =>
      rw [found] at h
      exact Location.isName_of_mem_foldl top names n h
  | ok t =>
      rw [found] at h
      cases t with
      | vacant place => exact Location.isName_of_mem_foldl top names n h
      | present place e =>
          obtain ⟨-, way⟩ := find_eq_ok_iff.1 found
          rw [start_absolute] at way
          exact way.isName top names n h

/-- **The names of the path to a place are those of the place.** -/
theorem names_path {place : Location} (names : ∀ n ∈ place, Path.IsName n) :
    place.path.names = place := by
  rw [Path.names, Location.path, Path.steps_top fun n mem => (names n mem).no_slash,
    Path.filterMap_stepOf_names names, List.filterMap_map]
  exact List.filterMap_some

/-- **A place at which a file is read is not the top.** -/
theorem ne_nil_of_read {place : Location} (h : d.read place.path = .ok raw) : place ≠ [] := by
  rintro rfl
  have found : d.find true (Location.path []) = .ok (.present [] .directory) :=
    find_eq_ok_iff.2 ⟨by constructor <;> decide, .here⟩
  rw [read, present, found] at h
  cases h

end Disk

/-! ## Rewritten sources that are kept -/

/-- **A change stores what is kept for other paths** than one. -/
def Change.StoresBeside (root source : Path) : Change → Prop
  | .storeFile p _ => ∃ ns, Owned ns ∧ p.LiesAt root ns
    ∧ "meta" :: recordNames source.names ≠ ns ∧ "src" :: source.names ≠ ns
  | _ => False

namespace RewriteCache

/-- **A cache keeps the rewritten source of a path**, which was made from a content in the
generation of the cache. The source and its record are in reach. -/
structure Keeps (c : RewriteCache) (l : Location) (source : Path) (content : Fingerprint)
    (rewritten : Bytes) (d : Disk) : Prop where
  /-- The path of the cache leads to one place. -/
  houses : d.Houses c.root l
  /-- There are no links in the directories. -/
  plain : d.PlainIn l
  /-- The path leads there. -/
  there : d.LeadsTo c.root l
  /-- The path of the source has names. -/
  named : source.names ≠ []
  /-- The record tells the content and the generation. -/
  record : ∃ body,
    d.InReach c.root l (c.recordPath source) ("meta" :: recordNames source.names) body
      ∧ EntryRecord.decode? body = some ⟨content, c.generation⟩
  /-- The rewritten source is in reach. -/
  source : d.InReach c.root l (c.sourcePath source) ("src" :: source.names) rewritten

variable {c : RewriteCache} {l : Location} {source : Path} {content : Fingerprint}
  {rewritten : Bytes} {d d' : Disk}

/-- **The path of a record does not ask for a directory.** -/
theorem recordPath_ends (c : RewriteCache) (source : Path) :
    (c.recordPath source).asksForDirectory = false := by
  obtain ⟨n, ends⟩ := c.exists_recordPath_endsIn source
  exact ends.asksForDirectory

/-- **Nor does the path of a rewritten source**, if there are names. -/
theorem sourcePath_ends (c : RewriteCache) (named : source.names ≠ []) :
    (c.sourcePath source).asksForDirectory = false := by
  obtain ⟨n, ends⟩ := c.exists_sourcePath_endsIn source named
  exact ends.asksForDirectory

namespace Keeps

/-- **What is kept is read.** -/
theorem read (keeps : c.Keeps l source content rewritten d) : c.read d source = .ok rewritten :=
  RewriteCache.read_eq_ok_iff.2 (keeps.source.read keeps.plain keeps.there)

/-- **What is kept is valid.** -/
theorem hasValid (keeps : c.Keeps l source content rewritten d) :
    c.hasValid d source content = true := by
  obtain ⟨body, reach, told⟩ := keeps.record
  exact hasValid_iff.2 ⟨⟨body, reach.read keeps.plain keeps.there, told⟩, rewritten, keeps.read⟩

/-- **What is valid and read is kept.** -/
theorem of_valid (house : d.Houses c.root l) (plain : d.PlainIn l) (named : source.names ≠ [])
    (valid : c.hasValid d source content = true) (kept : c.read d source = .ok rewritten) :
    c.Keeps l source content rewritten d := by
  obtain ⟨⟨body, found, told⟩, -⟩ := hasValid_iff.1 valid
  obtain ⟨record, there⟩ := Disk.InReach.of_read house plain (c.recordPath_liesAt source)
    (.record _) (c.recordPath_ends source) found
  obtain ⟨beside, -⟩ := Disk.InReach.of_read house plain (c.sourcePath_liesAt source) (.source _)
    (c.sourcePath_ends named) (RewriteCache.read_eq_ok_iff.1 kept)
  exact ⟨house, plain, there, named, ⟨body, record, told⟩, beside⟩

/-- **What has been stored is kept**, if the length of the content is a word. -/
theorem of_stored (house : d.Houses c.root l) (plain : d.PlainIn l) (named : source.names ≠ [])
    (short : content.length < UInt64.size)
    (stored : d.applyAll (c.storeChanges source content rewritten) = (.ok (), d')) :
    c.Keeps l source content rewritten d' := by
  obtain ⟨m, first, rest⟩ := Disk.applyAll_cons_ok stored
  obtain ⟨m', second, rest⟩ := Disk.applyAll_cons_ok rest
  obtain rfl : m' = d' := by cases rest; rfl
  have steady :=
    Disk.steady_storeFile house plain (c.sourcePath_liesAt source) (.source _) rewritten
  rw [first] at steady
  obtain ⟨beside, -⟩ := Disk.InReach.of_stored house plain (c.sourcePath_liesAt source) (.source _)
    (c.sourcePath_ends named) first
  -- The record is stored behind the rewritten source, which stays in reach.
  have house' := steady.houses house
  have plain' := steady.plainIn plain
  have steady' := Disk.steady_storeFile house' plain' (c.recordPath_liesAt source) (.record _)
    (EntryRecord.toJson ⟨content, c.generation⟩).toBytes
  rw [second] at steady'
  obtain ⟨record, there⟩ := Disk.InReach.of_stored house' plain' (c.recordPath_liesAt source)
    (.record _) (c.recordPath_ends source) second
  have beside' := beside.storeFile house' plain' (c.recordPath_liesAt source) (.record _) (by simp)
    (EntryRecord.toJson ⟨content, c.generation⟩).toBytes
  rw [second] at beside'
  refine ⟨steady'.houses house', steady'.plainIn plain', there, named, ⟨_, record, ?_⟩, beside'⟩
  rw [EntryRecord.decode?_toBytes]
  exact if_pos short

/-- **A cache that keeps something is open.** -/
theorem isOpen (keeps : c.Keeps l source content rewritten d) : c.IsOpen l d := by
  have names : ∀ n ∈ source.names, Path.IsName n := fun _ => Path.isName_of_mem_names
  obtain ⟨body, record, -⟩ := keeps.record
  have beside := keeps.source
  have sourceDir : c.sourceDir.EndsIn "src" := Path.endsIn_child _ (by constructor <;> decide)
  have recordDir : c.recordDir.EndsIn "meta" := Path.endsIn_child _ (by constructor <;> decide)
  -- The directories can be looked up since the longer paths in them can be.
  refine ⟨keeps.houses, keeps.plain, keeps.there, ?_, ?_, ?_, ?_⟩
  · have usable := beside.usable
    rw [sourcePath, namesOf_eq] at usable
    exact usable.of_join (Path.isAbsolute_intercalate names) sourceDir.text_ne_empty
  · have usable := record.usable
    rw [recordPath_eq] at usable
    exact usable.of_join (Path.isAbsolute_intercalate (isName_of_mem_recordNames names))
      recordDir.text_ne_empty
  · obtain ⟨n, ns, eq⟩ := List.exists_cons_of_ne_nil keeps.named
    rw [eq] at beside
    exact beside.directory keeps.plain
  · have some_name : recordNames source.names ≠ [] := by
      rw [recordNames]
      exact List.append_ne_nil_of_right_ne_nil _ (List.cons_ne_nil _ _)
    obtain ⟨n, ns, eq⟩ := List.exists_cons_of_ne_nil some_name
    rw [eq] at record
    exact record.directory keeps.plain

/-- **What is kept stays** as long as the directories of the cache hold the same and its path leads
to its place. -/
theorem of_same (keeps : c.Keeps l source content rewritten d) (there : d'.LeadsTo c.root l)
    (same : ∀ ns, Owned ns → d'.get? (l ++ ns) = d.get? (l ++ ns)) :
    c.Keeps l source content rewritten d' := by
  obtain ⟨body, record, told⟩ := keeps.record
  exact ⟨there.houses (fun _ _ => Iff.rfl) rfl, keeps.plain.of_same same, there, keeps.named,
    ⟨body, record.of_same keeps.plain same, told⟩, keeps.source.of_same keeps.plain same⟩

/-- **What is kept stays when something is stored for other paths.** -/
theorem performs (keeps : c.Keeps l source content rewritten d)
    (run : Disk.Performs (Change.StoresBeside c.root source) d d') :
    c.Keeps l source content rewritten d' := by
  induction run with
  | done => exact keeps
  | step change beside rest ih =>
      cases change with
      | ensureDirectory p => cases beside
      | removeTree p => cases beside
      | storeFile p b =>
          obtain ⟨ns, own, at_, noRecord, noSource⟩ := beside
          have steady := Disk.steady_storeFile keeps.houses keeps.plain at_ own b
          obtain ⟨body, record, told⟩ := keeps.record
          exact ih ⟨steady.houses keeps.houses, steady.plainIn keeps.plain,
            keeps.there.storeFile keeps.houses keeps.plain at_ own b, keeps.named,
            ⟨body, record.storeFile keeps.houses keeps.plain at_ own noRecord b, told⟩,
            keeps.source.storeFile keeps.houses keeps.plain at_ own noSource b⟩

end Keeps

/-- **Storing a rewritten source stores beside what is kept for paths of other names.** -/
theorem storeChanges_beside (c : RewriteCache) {source source' : Path}
    (other : source.names ≠ source'.names) (content : Fingerprint) (rewritten : Bytes) :
    ∀ change ∈ c.storeChanges source' content rewritten, change.StoresBeside c.root source := by
  intro change mem
  simp only [storeChanges, List.mem_cons, List.not_mem_nil, or_false] at mem
  rcases mem with rfl | rfl
  · exact ⟨_, .source _, c.sourcePath_liesAt source', by simp, by simpa using other⟩
  · refine ⟨_, .record _, c.recordPath_liesAt source', fun same => other ?_, by simp⟩
    exact recordNames_injective (fun _ => Path.isName_of_mem_names)
      (fun _ => Path.isName_of_mem_names) (List.cons.inj same).2

end RewriteCache

/-! ## Answers from the cache -/

namespace Active

variable {a a' : Active} {l place : Location} {d d' : Disk} {p : Path} {raw rewritten : Bytes}
  {res : Resolved}

/-- **What is kept for a file in scope is loaded**, and nothing is changed. -/
theorem resolve_of_keeps (place_eq : d.normalize p = place) (read : d.read place.path = .ok raw)
    (covers : a.scope.covers place = true)
    (keeps : a.cache.Keeps l place.path (Fingerprint.of raw) rewritten d) :
    a.resolve d p = (.ok ⟨p, rewritten, .cacheHit⟩, a.countHit, d) := by
  subst place_eq
  unfold resolve
  simp only [read, covers, keeps.hasValid, keeps.read, Bool.not_true, Bool.false_eq_true, if_false,
    if_true]

/-- **A file out of scope is loaded as it is**, and nothing is changed. -/
theorem resolve_of_passed (place_eq : d.normalize p = place) (read : d.read place.path = .ok raw)
    (passes : a.scope.covers place = false) :
    a.resolve d p = (.ok ⟨p, raw, .outOfScope⟩, a.countPassed, d) := by
  subst place_eq
  unfold resolve
  simp only [read, passes, Bool.not_false, if_true]

/-- **What is loaded for a file in scope is kept** from then on. -/
theorem keeps_of_resolve (h : a.resolve d p = (.ok res, a', d'))
    (inScope : res.origin ≠ .outOfScope)
    (place_eq : d.normalize p = place) (read : d.read place.path = .ok raw)
    (house : d.Houses a.cache.root l) (plain : d.PlainIn l) (short : raw.size < UInt64.size) :
    a.scope.covers place = true
      ∧ a.cache.Keeps l place.path (Fingerprint.of raw) res.bytes d' := by
  subst place_eq
  have named : (d.normalize p).path.names ≠ [] := by
    rw [Disk.names_path fun _ => Disk.isName_of_mem_normalize]
    exact Disk.ne_nil_of_read read
  unfold resolve at h
  simp only [read] at h
  split at h
  · cases h
    exact absurd rfl inScope
  rename_i covered
  refine ⟨by simpa using covered, ?_⟩
  split at h
  · -- It is in the cache already.
    rename_i valid
    split at h
    · cases h
    · rename_i bytes kept
      cases h
      exact .of_valid house plain named valid kept
  · -- The pipeline has run, and its output has been stored.
    unfold rewrite at h
    split at h
    · cases h
    · rename_i output run
      split at h
      · cases h
      · rename_i d₁ written
        cases h
        refine .of_stored house plain named short ?_
        unfold RewriteCache.write RewriteCache.perform at written
        split at written
        · rename_i stored
          cases written
          exact stored
        · cases written

end Active

end Seams
