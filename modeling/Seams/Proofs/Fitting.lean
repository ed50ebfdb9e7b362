import Mathlib.Data.List.Basic
import Mathlib.Tactic.Common
import Seams.Proofs.Overlap
import Seams.Proofs.Reach

/-! # Caches that fit
A cache that has been made to fit the axes fits them until it is made to fit others. Its records of
the axes and its list of further names are found, whatever is kept in it or dropped, so a resolver
with the same axes that is locked later finds no axis changed and changes nothing.
Main definitions:
* **`Change.OffList`** — a change whose path does not lead through the list of further names;
* **`RewriteCache.Fitted`** — a cache fits the values of the axes. -/

namespace Seams

open RewriteCache (Owned)

/-! ## Changes beside the settings -/

/-- **The path of a change does not lead through the list of further names** in a cache. -/
def Change.OffList (root : Path) (change : Change) : Prop :=
  ∃ ns, change.path.LiesAt root ns ∧ (ns = [] ∨ Owned ns)
    ∧ ¬ ["conf", "function_blacklist.txt"] <+: ns

namespace RewriteCache

variable (c : RewriteCache)

/-- **Opening a cache leads past the list.** -/
theorem openChanges_offList : ∀ change ∈ c.openChanges, change.OffList c.root := by
  intro change mem
  simp only [openChanges, List.mem_cons, List.not_mem_nil, or_false] at mem
  rcases mem with rfl | rfl | rfl | rfl
  · exact ⟨[], .self _, .inl rfl, by simp⟩
  · exact ⟨_, c.sourceDir_liesAt, .inr (.source _), by simp⟩
  · exact ⟨_, c.recordDir_liesAt, .inr (.record _), by simp⟩
  · exact ⟨_, c.axisDir_liesAt, .inr (.axis _), by simp⟩

/-- **Clearing a cache leads past the list.** -/
theorem clearChanges_offList : ∀ change ∈ c.clearChanges, change.OffList c.root := by
  intro change mem
  simp only [clearChanges, List.mem_cons, List.not_mem_nil, or_false] at mem
  rcases mem with rfl | rfl | rfl | rfl
  · exact ⟨_, c.sourceDir_liesAt, .inr (.source _), by simp⟩
  · exact ⟨_, c.sourceDir_liesAt, .inr (.source _), by simp⟩
  · exact ⟨_, c.recordDir_liesAt, .inr (.record _), by simp⟩
  · exact ⟨_, c.recordDir_liesAt, .inr (.record _), by simp⟩

/-- **Keeping a rewritten source leads past the list.** -/
theorem storeChanges_offList (source : Path) (content : Fingerprint) (rewritten : Bytes) :
    ∀ change ∈ c.storeChanges source content rewritten, change.OffList c.root := by
  intro change mem
  simp only [storeChanges, List.mem_cons, List.not_mem_nil, or_false] at mem
  rcases mem with rfl | rfl
  · exact ⟨_, c.sourcePath_liesAt source, .inr (.source _), by simp⟩
  · exact ⟨_, c.recordPath_liesAt source, .inr (.record _), by simp⟩

/-- **Recording axes leads past the list.** -/
theorem recordChanges_offList (s : AxisSnapshot) (axes : List Axis) :
    ∀ change ∈ c.recordChanges s axes, change.OffList c.root := by
  intro change mem
  obtain ⟨a, -, rfl⟩ := List.mem_map.1 mem
  refine ⟨_, c.axisPath_liesAt a, .inr (.axis _), ?_⟩
  cases a <;> simp [Axis.fileName, Axis.name]

/-- **Making a cache fit leads past the list.** -/
theorem reconcileChanges_offList (d : Disk) (s : AxisSnapshot) :
    ∀ change ∈ c.reconcileChanges d s, change.OffList c.root := by
  intro change mem
  unfold reconcileChanges at mem
  split at mem
  · cases mem
  · exact (List.mem_append.1 mem).elim (c.clearChanges_offList change)
      (c.recordChanges_offList s _ change)

end RewriteCache

namespace Disk

variable {root : Path} {l : Location} {d d' : Disk}

/-- **Nothing among the settings is in the directories of rewritten sources and of records.** -/
theorem not_keptAt_conf (l : Location) (ns : List String) : ¬ KeptAt l [] (l ++ "conf" :: ns) := by
  rintro (below | below | ⟨a, absurdity, -⟩)
  · simpa using (List.prefix_append_right_inj l).1 below
  · simpa using (List.prefix_append_right_inj l).1 below
  · cases absurdity

/-- **The list of further names stays as it is**, or stays away, when a cache is used. -/
theorem Performs.same_list
    (run : Performs (fun change => change.Touches root l (KeptAt l Axis.all) ∧ change.OffList root)
      d d')
    (house : d.Houses root l) (plain : d.PlainIn l) (avoids : d.Avoids root (listAt l)) :
    d'.get? (listAt l) = d.get? (listAt l) := by
  induction run with
  | done => rfl
  | @step d d' change allowed rest ih =>
      obtain ⟨touches, ns, at_, own, apart⟩ := allowed
      obtain ⟨steady, -⟩ := spares_apply house plain touches
      have off : ¬ d.OnWay change.path (listAt l) := by
        refine avoids.not_onWay house plain at_ (fun pre within ne => ?_) fun pre within _ here => ?_
        · rcases own with rfl | own
          · exact absurd (List.prefix_nil.1 within) ne
          · exact own.of_le ne within
        · rw [← List.append_cancel_left here] at within
          exact apart within
      rw [ih (steady.houses house) (steady.plainIn plain) (avoids.congr steady),
        same_apply house plain touches (not_keptAt_listAt l _) off]

end Disk

/-! ## Caches that fit -/

/-- **The record of an axis is in reach and tells the value** of that axis. -/
def RewriteCache.Tells (c : RewriteCache) (l : Location) (s : AxisSnapshot) (a : Axis) (d : Disk) :
    Prop :=
  ∃ body, d.InReach c.root l (c.axisPath a) ["conf", a.fileName] body
    ∧ (JsonValue.read? body).bind JsonValue.texts? = some (s.values a)

/-- **A cache fits the values of the axes**, and its list of further names can be read. -/
structure RewriteCache.Fitted (c : RewriteCache) (l : Location) (s : AxisSnapshot) (d : Disk) :
    Prop where
  /-- The path leads to one place. -/
  houses : d.Houses c.root l
  /-- There are no links in the directories. -/
  plain : d.PlainIn l
  /-- The path does not lead through the list. -/
  avoids : d.Avoids c.root (Disk.listAt l)
  /-- The values are recorded. -/
  axes : ∀ a, c.Tells l s a d
  /-- The path of the list can be looked up. -/
  usable : Disk.Usable c.blacklistPath
  /-- There is no list, or it is text. -/
  list : d.get? (Disk.listAt l) = none ∨ ∃ content text,
    d.get? (Disk.listAt l) = some (.file content) ∧ content.text? = some text

namespace RewriteCache

variable {c : RewriteCache} {l : Location} {s : AxisSnapshot} {d d' opened : Disk}

/-- **The path of the record of an axis does not ask for a directory.** -/
theorem axisPath_ends (a : Axis) : (c.axisPath a).asksForDirectory = false := by
  have isName : Path.IsName a.fileName := by cases a <;> constructor <;> decide
  exact (Path.endsIn_child _ isName).asksForDirectory

/-- **Nor does the path of the list.** -/
theorem blacklistPath_ends : c.blacklistPath.asksForDirectory = false :=
  (Path.endsIn_child _ (by constructor <;> decide)).asksForDirectory

/-- **The record of an axis stays** when other files of the cache are stored or removed. -/
theorem Tells.performs {a : Axis} (tells : c.Tells l s a d) (house : d.Houses c.root l)
    (plain : d.PlainIn l) (run : Disk.Performs (·.Touches c.root l (Disk.KeptAt l [])) d d') :
    c.Tells l s a d' := by
  obtain ⟨body, reach, told⟩ := tells
  refine ⟨body, reach.congr plain fun pre e ne within _ there => ?_, told⟩
  obtain ⟨first, rest, rfl⟩ := List.exists_cons_of_ne_nil ne
  obtain ⟨rfl, -⟩ := List.cons_prefix_cons.1 within
  exact run.kept house plain there (Disk.not_keptAt_conf l rest)

/-- **A cache that fits does so still** when other files of it are stored or removed. -/
theorem Fitted.performs (fitted : c.Fitted l s d)
    (run : Disk.Performs (fun change => change.Touches c.root l (Disk.KeptAt l [])
      ∧ change.OffList c.root) d d') : c.Fitted l s d' := by
  have touching := run.mono fun _ => And.left
  obtain ⟨steady, -⟩ := touching.spares fitted.houses fitted.plain
  have wider := run.mono fun change allowed =>
    And.intro (Disk.touches_mono (fun _ => Disk.KeptAt.all) allowed.1) allowed.2
  refine ⟨steady.houses fitted.houses, steady.plainIn fitted.plain, fitted.avoids.congr steady,
    fun a => (fitted.axes a).performs fitted.houses fitted.plain touching, fitted.usable, ?_⟩
  rw [wider.same_list fitted.houses fitted.plain fitted.avoids]
  exact fitted.list

/-- **A cache that fits does so still** as long as its directories hold the same and its path leads
to its place. -/
theorem Fitted.of_same (fitted : c.Fitted l s d) (there : d'.LeadsTo c.root l)
    (same : ∀ ns, Owned ns → d'.get? (l ++ ns) = d.get? (l ++ ns)) : c.Fitted l s d' := by
  have list := fitted.list
  have there_list : d'.get? (Disk.listAt l) = d.get? (Disk.listAt l) := same _ (.axis _)
  rw [← there_list] at list
  refine ⟨there.houses (fun _ _ => Iff.rfl) rfl, fitted.plain.of_same same,
    ⟨d', l, .refl d', there, fun absurdity => ?_⟩, fun a => ?_, fitted.usable, list⟩
  · -- The list is no directory, so the path does not lead through it.
    rw [absurdity] at list
    rcases list with none | ⟨_, _, file, -⟩
    · cases none
    · cases file
  · obtain ⟨body, reach, told⟩ := fitted.axes a
    exact ⟨body, reach.of_same fitted.plain same, told⟩

/-- **No axis of a cache that fits has changed**, if its path leads to its place. -/
theorem Fitted.changedAxes (fitted : c.Fitted l s d) (there : d.LeadsTo c.root l) :
    c.changedAxes d s = [] := by
  refine List.filter_eq_nil_iff.2 fun a _ => ?_
  obtain ⟨body, reach, told⟩ := fitted.axes a
  rw [recordedAxis?, reach.read fitted.plain there]
  simp [told]

/-! ## Reading the list of further names -/

/-- **The path of the list leads to what there is at its place**, if it can be looked up. -/
theorem find_blacklistPath (plain : d.PlainIn l) (there : d.LeadsTo c.root l)
    (conf : d.get? (l ++ ["conf"]) = some .directory) (usable : Disk.Usable c.blacklistPath) :
    d.find true c.blacklistPath = .ok (match d.get? (Disk.listAt l) with
      | some e => .present (Disk.listAt l) e
      | none => .vacant (Disk.listAt l)) := by
  have own : Owned ["conf", "function_blacklist.txt"] := .axis _
  have deeper : Disk.listAt l = l ++ ["conf"] ++ ["function_blacklist.txt"] := by
    simp [Disk.listAt]
  have short : "function_blacklist.txt".utf8ByteSize ≤ Disk.nameLimit := by decide
  refine Disk.find_of_names usable there c.blacklistPath_liesAt own.ne_nil fun k => ?_
  rw [blacklistPath_ends]
  refine .enter (n := "conf") (by decide) conf ?_
  -- The last step depends on what there is at the place, which may be anything but a link.
  cases found : d.get? (Disk.listAt l) with
  | none =>
      rw [deeper] at found ⊢
      exact .vacant (n := "function_blacklist.txt") short found
  | some e =>
      cases e with
      | file content =>
          rw [deeper] at found ⊢
          exact .file (n := "function_blacklist.txt") short found
      | directory =>
          rw [deeper] at found ⊢
          exact .enter (n := "function_blacklist.txt") short found .here
      | link t => exact absurd found (plain _ t own)

/-- **The list is read where there is one that is text, or none.** -/
theorem Fitted.extraBlacklist (fitted : c.Fitted l s d) (there : d.LeadsTo c.root l) :
    ∃ names, c.extraBlacklist d = .ok names := by
  obtain ⟨body, reach, -⟩ := fitted.axes .patcherList
  have found := find_blacklistPath fitted.plain there (reach.directory fitted.plain) fitted.usable
  unfold RewriteCache.extraBlacklist Disk.readText Disk.read Disk.present
  rcases fitted.list with none | ⟨content, text, holds, isText⟩
  · rw [none] at found
    exact ⟨[], by simp only [found]⟩
  · rw [holds] at found
    exact ⟨listedNames text, by simp only [found, isText]⟩

/-- **Where the list has been read there is none, or it is text.** -/
theorem list_of_extraBlacklist (plain : d.PlainIn l) (there : d.LeadsTo c.root l)
    (conf : d.get? (l ++ ["conf"]) = some .directory) {names : List String}
    (h : c.extraBlacklist d = .ok names) :
    Disk.Usable c.blacklistPath ∧ (d.get? (Disk.listAt l) = none ∨ ∃ content text,
      d.get? (Disk.listAt l) = some (.file content) ∧ content.text? = some text) := by
  unfold RewriteCache.extraBlacklist Disk.readText Disk.read Disk.present at h
  -- Only a path that can be looked up is told to lead nowhere.
  cases found : d.find true c.blacklistPath with
  | error e =>
      rw [found] at h
      cases e <;> cases h
      have usable := Disk.usable_of_find_notFound
        (c.blacklistPath_liesAt.text_ne_empty (List.cons_ne_nil _ _)) found
      rw [find_blacklistPath plain there conf usable] at found
      cases found
  | ok t =>
      have usable := (Disk.find_eq_ok_iff.1 found).1
      refine ⟨usable, ?_⟩
      rw [find_blacklistPath plain there conf usable] at found h
      cases holds : d.get? (Disk.listAt l) with
      | none => exact .inl rfl
      | some e =>
          rw [holds] at h
          cases e with
          | file content =>
              cases isText : content.text? with
              | none =>
                  simp only [isText] at h
                  cases h
              | some text => exact .inr ⟨content, text, rfl, isText⟩
          | directory => cases h
          | link t => cases h

/-! ## Locking makes a cache fit -/

/-- **An axis that has not changed is recorded.** -/
theorem tells_of_notMem_changedAxes (house : d.Houses c.root l) (plain : d.PlainIn l) {a : Axis}
    (unchanged : a ∉ c.changedAxes d s) : c.Tells l s a d := by
  have recorded : c.recordedAxis? d a = some (s.values a) := by
    by_contra other
    exact unchanged (List.mem_filter.2 ⟨a.mem_all, by simpa using other⟩)
  unfold recordedAxis? at recorded
  split at recorded
  · rename_i body read
    obtain ⟨reach, -⟩ := Disk.InReach.of_read house plain (c.axisPath_liesAt a) (.axis _)
      (axisPath_ends a) read
    exact ⟨body, reach, recorded⟩
  · cases recorded

/-- **Recording the values of some axes** records them and keeps the other records. -/
theorem tells_of_recorded (house : d.Houses c.root l) (plain : d.PlainIn l) {axes : List Axis}
    (recorded : d.applyAll (c.recordChanges s axes) = (.ok (), d')) {a : Axis}
    (told : a ∉ axes → c.Tells l s a d) : c.Tells l s a d' := by
  induction axes generalizing d with
  | nil =>
      cases recorded
      exact told List.not_mem_nil
  | cons b axes ih =>
      obtain ⟨m, first, rest⟩ := Disk.applyAll_cons_ok recorded
      have steady := Disk.steady_storeFile house plain (c.axisPath_liesAt b) (.axis _)
        (JsonValue.list ((s.values b).map .text)).toBytes
      rw [first] at steady
      refine ih (steady.houses house) (steady.plainIn plain) rest fun notLater => ?_
      -- Each axis has a file of its own, so one record does not replace another.
      by_cases same : a = b
      · subst same
        obtain ⟨reach, -⟩ := Disk.InReach.of_stored house plain (c.axisPath_liesAt a) (.axis _)
          (axisPath_ends a) first
        exact ⟨_, reach, JsonValue.read?_texts _⟩
      · obtain ⟨body, reach, tells⟩ := told fun mem => (List.mem_cons.1 mem).elim same notLater
        have kept := reach.storeFile house plain (c.axisPath_liesAt b) (.axis _)
          (fun eq => same (Axis.fileName_injective (by simpa using eq)))
          (JsonValue.list ((s.values b).map .text)).toBytes
        rw [first] at kept
        exact ⟨body, kept, tells⟩

/-- **Making a cache fit records the values of all axes.** -/
theorem tells_of_reconciled (house : d.Houses c.root l) (plain : d.PlainIn l)
    (fits : d.applyAll (c.reconcileChanges d s) = (.ok (), d')) (a : Axis) : c.Tells l s a d' := by
  unfold reconcileChanges at fits
  split at fits
  · rename_i unchanged
    cases fits
    exact tells_of_notMem_changedAxes house plain (by rw [unchanged]; exact List.not_mem_nil)
  · obtain ⟨m, cleared, recorded⟩ := Disk.applyAll_append_ok fits
    have run := Disk.Performs.applyAll d (c.clearChanges_touches l [])
    rw [cleared] at run
    obtain ⟨steady, -⟩ := run.spares house plain
    -- The records of axes are not cleared, and those of the axes that have changed are stored.
    exact tells_of_recorded (steady.houses house) (steady.plainIn plain) recorded fun kept =>
      (tells_of_notMem_changedAxes house plain kept).performs house plain run

end RewriteCache

/-- **A cache fits once a resolver is locked.** -/
theorem Resolver.Activates.fitted {r r' : Resolver} {d opened d' : Disk} {root : Path}
    {l : Location} {names : List String} {a : Active}
    (act : r.Activates d root names opened a r' d') (house : d.Houses root l)
    (plain : d.PlainIn l) : (r.cacheIn root).Fitted l (AxisSnapshot.of r.config) d' := by
  have isOpen := RewriteCache.isOpen_of_opened (c := r.cacheIn root) house plain act.opens
  obtain ⟨-, conf⟩ := Disk.directories_of_opened (c := r.cacheIn root) house plain act.opens
    (.axis _)
  obtain ⟨usable, list⟩ := RewriteCache.list_of_extraBlacklist isOpen.plain isOpen.there conf
    act.listed
  -- The cache is opened, so its path leads to its place, but not through the list.
  have avoids : opened.Avoids root (Disk.listAt l) := by
    refine ⟨opened, l, .refl _, isOpen.there, fun absurdity => ?_⟩
    rw [absurdity] at list
    rcases list with none | ⟨_, _, file, -⟩
    · cases none
    · cases file
  have run := Disk.Performs.applyAll opened fun change mem =>
    And.intro (Disk.touches_mono (fun _ => Disk.KeptAt.all)
      ((r.cacheIn root).reconcileChanges_touches l opened (AxisSnapshot.of r.config) change mem))
      (RewriteCache.reconcileChanges_offList _ _ _ change mem)
  rw [act.reconciles] at run
  obtain ⟨steady, -⟩ := (run.mono fun _ => And.left).spares isOpen.houses isOpen.plain
  refine ⟨steady.houses isOpen.houses, steady.plainIn isOpen.plain, avoids.congr steady,
    RewriteCache.tells_of_reconciled isOpen.houses isOpen.plain act.reconciles, usable, ?_⟩
  rw [run.same_list isOpen.houses isOpen.plain avoids]
  exact list

/-! ## Locking again changes nothing -/

/-- **Opening a cache that fits and is open changes nothing.** -/
theorem RewriteCache.Fitted.opens {c : RewriteCache} {l : Location} {s : AxisSnapshot} {d : Disk}
    (fitted : c.Fitted l s d) (isOpen : c.IsOpen l d) :
    d.applyAll c.openChanges = (.ok (), d) := by
  obtain ⟨body, reach, -⟩ := fitted.axes .patcherList
  have axes : Disk.Usable c.axisDir := by
    have ends : c.axisDir.EndsIn "conf" := Path.endsIn_child _ (by constructor <;> decide)
    exact Disk.Usable.of_join (q := ⟨Axis.fileName .patcherList⟩) reach.usable rfl
      ends.text_ne_empty
  have top : d.apply (.ensureDirectory c.root) = (.ok (), d) := by
    by_cases empty : c.root.text = ""
    · simp [Disk.apply, Disk.makeAll, empty]
    · exact Disk.apply_ensureDirectory_self
        (Disk.Usable.of_join (q := ⟨"src"⟩) isOpen.sources rfl empty) isOpen.there
  have sourceDir := Disk.apply_ensureDirectory_self isOpen.sources
    (isOpen.there.child c.sourceDir_liesAt (by decide) isOpen.sourceDir)
  have recordDir := Disk.apply_ensureDirectory_self isOpen.records
    (isOpen.there.child c.recordDir_liesAt (by decide) isOpen.recordDir)
  have axisDir := Disk.apply_ensureDirectory_self axes
    (isOpen.there.child c.axisDir_liesAt (by decide) (reach.directory fitted.plain))
  simp only [openChanges, Disk.applyAll, top, sourceDir, recordDir, axisDir]

/-- **No axis has changed where a cache fits**, and nothing is changed. -/
theorem RewriteCache.Fitted.reconcile {c : RewriteCache} {l : Location} {s : AxisSnapshot}
    {d : Disk} (fitted : c.Fitted l s d) (there : d.LeadsTo c.root l) :
    c.reconcile d s = (.ok [], d) :=
  reconcile_of_unchanged (fitted.changedAxes there)

namespace Resolver

variable {r : Resolver} {root : Path} {l : Location} {d : Disk}

/-- **Locking a resolver leaves a cache that fits it and is open as it is**, whether it succeeds or
not. -/
theorem activate_of_fitted (fitted : (r.cacheIn root).Fitted l (AxisSnapshot.of r.config) d)
    (isOpen : (r.cacheIn root).IsOpen l d) (dir : r.config.cacheDir = some root) :
    (r.activate d).2 = d := by
  have opens := fitted.opens isOpen
  rcases activate_snd dir d with same | same | ⟨opened, opens', same⟩
  · exact same
  · rw [same, opens]
  · rw [opens] at opens'
    cases opens'
    rw [same, RewriteCache.reconcileChanges_of_unchanged (fitted.changedAxes isOpen.there),
      Disk.applyAll]

/-- **The blacklist of a configuration that is not locked can be extended.** -/
theorem extendBlacklist_of_unlocked {c : Configuration} (unlocked : c.isLocked = false)
    (names : List String) : ∃ c', extendBlacklist c names = .ok c' := by
  rw [extendBlacklist_eq, if_neg (by simp [unlocked])]
  exact ⟨_, rfl⟩

/-- **A resolver that a cache fits is locked without an axis changed**, if it can be used at all. -/
theorem activate_ok_of_fitted
    (fitted : (r.cacheIn root).Fitted l (AxisSnapshot.of r.config) d)
    (isOpen : (r.cacheIn root).IsOpen l d) (checked : r.checkConfig = .ok root)
    (unlocked : r.isLocked = false) :
    ∃ a r', r.activate d = (.ok (a, r'), d) ∧ r'.active = some a ∧ a.changedAxes = []
      ∧ a.cache = r.cacheIn root
      ∧ a.scope = Scope.of d r.config.includePaths r.config.excludePaths := by
  have created : RewriteCache.create d root (AxisSnapshot.of r.config).generation
      = (.ok (r.cacheIn root), d) := by
    have opens := fitted.opens isOpen
    rw [cacheIn] at opens ⊢
    simp only [RewriteCache.create, opens]
  obtain ⟨names, listed⟩ := fitted.extraBlacklist isOpen.there
  obtain ⟨config, extended⟩ := extendBlacklist_of_unlocked unlocked names
  have reconciled := fitted.reconcile isOpen.there
  unfold activate
  simp only [checked, created, listed, extended, reconciled]
  obtain rfl := extendBlacklist_ok extended
  exact ⟨_, _, rfl, rfl, rfl, rfl, rfl⟩

end Resolver

end Seams
