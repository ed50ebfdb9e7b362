import Mathlib.Data.List.Basic
import Mathlib.Tactic.Common
import Seams.Proofs.Footprint
import Seams.Proofs.Records

/-! # Cache directories that overlap with sources
Nothing keeps a cache directory apart from the sources. What is in its way is lost when the cache
is made to fit and cleared; these are exactly the files that the cache takes for its own.
Main definitions:
* **`RewriteCache.IsOpen`** — the directories of a cache are there;
* **`Action`** — what can be done, and **`Resolver.after`** — a resolver and a disk afterwards. -/

namespace Seams

open RewriteCache (Owned)

/-! ## Files that are lost -/

/-- **Each axis is recorded in a file of its own.** -/
theorem Axis.fileName_injective {a b : Axis} (h : a.fileName = b.fileName) : a = b := by
  revert h
  cases a <;> cases b <;> decide

namespace Disk

variable {d d' : Disk}

/-- **Changes that store no file bring none.** -/
theorem Performs.file_before {f : Location} {content : Bytes}
    (run : Performs (fun change => ∀ p b, change ≠ .storeFile p b) d d')
    (after : d'.get? f = some (.file content)) : d.get? f = some (.file content) := by
  induction run with
  | done => exact after
  | step change storesNone rest ih =>
      rename_i d d'
      have middle := ih after
      cases change with
      | ensureDirectory p => exact (makeAll_grows d p _).file_iff.1 middle
      | storeFile p b => exact absurd rfl (storesNone p b)
      | removeTree p =>
          simp only [apply] at middle
          split at middle
          · rename_i cut removed
            unfold removeAll at removed
            split at removed <;> cases removed
            exact (InPlace.file_of_cut middle).1
          · exact middle
          · exact middle

variable {root : Path} {l : Location}

/-- **A directory of a cache is removed with all that is below it**, if it is there. -/
theorem removeTree_directory {p : Path} {x : String} (usable : Usable p)
    (there : d.LeadsTo root l) (at_ : p.LiesAt root [x]) (short : x.utf8ByteSize ≤ nameLimit)
    (holds : d.get? (l ++ [x]) = some .directory) :
    d.apply (.removeTree p) = (.ok (), d.cut (l ++ [x])) := by
  have found : d.find false p = .ok (.present (l ++ [x]) .directory) :=
    find_of_names usable there at_ (List.cons_ne_nil _ _) fun _ => .enter short holds .here
  simp only [apply, removeAll, found]

/-- **A directory that is created is there**, and nothing else is added. -/
theorem ensureDirectory_ok {p : Path} {ns : List String} (house : d.Houses root l)
    (plain : d.PlainIn l) (at_ : p.LiesAt root ns) (own : Owned ns)
    (h : d.apply (.ensureDirectory p) = (.ok (), d')) :
    Grows d d' ∧ d'.LeadsTo root l ∧ d'.get? (l ++ ns) = some .directory := by
  rw [apply] at h
  have grown := makeAll_grows d p (p.text.utf8ByteSize + 2)
  rw [h] at grown
  have isThere := (makeAll_ok h).resolve_left (at_.text_ne_empty own.ne_nil)
  have house' := grown.steady.houses house
  have plain' := grown.steady.plainIn plain
  exact ⟨grown, (get?_of_isDirectory house' plain' at_ own isThere).2⟩

end Disk

namespace RewriteCache

variable {c : RewriteCache} {l f : Location} {content : Bytes} {d d' opened : Disk}

/-- **A cache that is opened.** Its path leads to its place, and its directories are there. -/
structure IsOpen (c : RewriteCache) (l : Location) (d : Disk) : Prop where
  /-- The path leads to one place. -/
  houses : d.Houses c.root l
  /-- There are no links in the directories. -/
  plain : d.PlainIn l
  /-- The path leads there. -/
  there : d.LeadsTo c.root l
  /-- The path of the directory of rewritten sources can be looked up. -/
  sources : Disk.Usable c.sourceDir
  /-- So can that of the directory of records. -/
  records : Disk.Usable c.recordDir
  /-- The directory of rewritten sources is there. -/
  sourceDir : d.get? (l ++ ["src"]) = some .directory
  /-- So is the directory of records. -/
  recordDir : d.get? (l ++ ["meta"]) = some .directory

/-- **Opening a cache opens it.** -/
theorem isOpen_of_opened (house : d.Houses c.root l) (plain : d.PlainIn l)
    (opens : d.applyAll c.openChanges = (.ok (), opened)) : c.IsOpen l opened := by
  have grown := c.grows_of_opened opens
  obtain ⟨usable, there, src⟩ := Disk.directory_of_applyAll c.openChanges_ensure opens house plain
    (by simp [openChanges]) c.sourceDir_liesAt (.source _)
  obtain ⟨usable', -, meta_⟩ := Disk.directory_of_applyAll c.openChanges_ensure opens house plain
    (by simp [openChanges]) c.recordDir_liesAt (.record _)
  exact ⟨grown.steady.houses house, grown.steady.plainIn plain, there, usable, usable', src, meta_⟩

/-- **Clearing a cache that is open loses all files** among the rewritten sources and the records,
if it succeeds. -/
theorem IsOpen.clear_loses (isOpen : c.IsOpen l d)
    (cleared : d.applyAll c.clearChanges = (.ok (), d'))
    (below : l ++ ["src"] <+: f ∨ l ++ ["meta"] <+: f) : d'.get? f ≠ some (.file content) := by
  obtain ⟨d₁, first, rest⟩ := Disk.applyAll_cons_ok cleared
  obtain ⟨d₂, second, rest⟩ := Disk.applyAll_cons_ok rest
  obtain ⟨d₃, third, rest⟩ := Disk.applyAll_cons_ok rest
  obtain ⟨d₄, fourth, rest⟩ := Disk.applyAll_cons_ok rest
  obtain rfl : d₄ = d' := by cases rest; rfl
  have ne : f ≠ [] := by
    rintro rfl
    rcases below with below | below <;> simpa using List.prefix_nil.1 below
  -- The rewritten sources are removed, and their directory is created again.
  rw [Disk.removeTree_directory isOpen.sources isOpen.there c.sourceDir_liesAt (by decide)
    isOpen.sourceDir] at first
  obtain rfl : d.cut (l ++ ["src"]) = d₁ := congrArg Prod.snd first
  have steady : Disk.Steady d (d.cut (l ++ ["src"])) := Disk.Steady.cut fun ns t => by
    rw [List.append_assoc]
    exact isOpen.plain _ t (.source ns)
  obtain ⟨grown, there, -⟩ := Disk.ensureDirectory_ok (steady.houses isOpen.houses)
    (steady.plainIn isOpen.plain) c.sourceDir_liesAt (.source _) second
  have recordDir : d₂.get? (l ++ ["meta"]) = some .directory := by
    refine grown.kept _ _ ?_
    rw [Disk.get?_cut_apart d, isOpen.recordDir]
    intro within
    have := (List.prefix_append_right_inj l).1 within
    simp at this
  -- The records are removed, and their directory is created again.
  rw [Disk.removeTree_directory isOpen.records there c.recordDir_liesAt (by decide) recordDir]
    at third
  obtain rfl : d₂.cut (l ++ ["meta"]) = d₃ := congrArg Prod.snd third
  have grown' := Disk.makeAll_grows (d₂.cut (l ++ ["meta"])) c.recordDir
    (c.recordDir.text.utf8ByteSize + 2)
  rw [Disk.apply] at fourth
  rw [fourth] at grown'
  intro left
  have before := grown'.file_iff.1 left
  rcases below with below | below
  · have before' := grown.file_iff.1 (Disk.InPlace.file_of_cut before).1
    rw [Disk.get?_cut_below d ne below] at before'
    cases before'
  · rw [Disk.get?_cut_below d₂ ne below] at before
    cases before

/-- **Clearing a cache brings no file.** -/
theorem clear_brings_nothing (cleared : d.applyAll c.clearChanges = (.ok (), d'))
    (after : d'.get? f = some (.file content)) : d.get? f = some (.file content) := by
  have run : Disk.Performs (fun change => ∀ p b, change ≠ .storeFile p b) d
      (d.applyAll c.clearChanges).2 := .applyAll d (by simp [clearChanges])
  rw [cleared] at run
  exact run.file_before after

/-- **Recording the values of some axes spares all files but their records.** -/
theorem record_spares (house : d.Houses c.root l) (plain : d.PlainIn l) {s : AxisSnapshot}
    {axes : List Axis} (recorded : d.applyAll (c.recordChanges s axes) = (.ok (), d')) :
    Disk.Spares (fun m => ∃ a ∈ axes, m = l ++ ["conf", a.fileName]) d d' := by
  have run : Disk.Performs (·.Touches c.root l fun m => ∃ a ∈ axes, m = l ++ ["conf", a.fileName]) d
      (d.applyAll (c.recordChanges s axes)).2 := by
    refine .applyAll d fun change mem => ?_
    obtain ⟨a, among, rfl⟩ := List.mem_map.1 mem
    exact ⟨_, .axis _, c.axisPath_liesAt a, fun _ => ⟨a, among, rfl⟩⟩
  rw [recorded] at run
  exact (run.spares house plain).2

/-- **The values of some axes are recorded** where that succeeds. -/
theorem get?_of_recorded (house : d.Houses c.root l) (plain : d.PlainIn l) {s : AxisSnapshot}
    {axes : List Axis} (recorded : d.applyAll (c.recordChanges s axes) = (.ok (), d')) {a : Axis}
    (mem : a ∈ axes) : d'.get? (l ++ ["conf", a.fileName])
      = some (.file (JsonValue.list ((s.values a).map .text)).toBytes) := by
  induction axes generalizing d with
  | nil => cases mem
  | cons b axes ih =>
      obtain ⟨m, first, rest⟩ := Disk.applyAll_cons_ok recorded
      obtain ⟨grown, grows, ⟨e, failed⟩ | ⟨-, -, stored⟩⟩ := Disk.apply_storeFile house plain
        (c.axisPath_liesAt b) (.axis _) (JsonValue.list ((s.values b).map .text)).toBytes
      · rw [failed] at first
        cases first
      rw [stored] at first
      have put : grown.put _ (.file _) = m := congrArg Prod.snd first
      have steady : Disk.Steady d m := by
        rw [← put]
        exact grows.steady.trans (Disk.Steady.put (by simp)
          (fun t => grows.steady.plainIn plain _ t (.axis _)) (by simp))
      have house' := steady.houses house
      have plain' := steady.plainIn plain
      by_cases later : a ∈ axes
      · exact ih house' plain' rest later
      -- The record is not written again, so it is the one that has just been stored.
      obtain rfl : a = b := (List.mem_cons.1 mem).resolve_right later
      refine (record_spares house' plain' rest _ _ ?_).2 ?_
      · rintro ⟨b, among, same⟩
        have names : a.fileName = b.fileName := by simpa using same
        rw [Axis.fileName_injective names] at later
        exact later among
      · rw [← put]
        exact Disk.get?_put_self _ _ (by simp)

/-- **An axis has changed** if a file stands for its record and does not tell its value. -/
theorem mem_changedAxes (house : d.Houses c.root l) (plain : d.PlainIn l) {s : AxisSnapshot}
    {a : Axis} (there : d.get? (l ++ ["conf", a.fileName]) = some (.file content))
    (untold : (JsonValue.read? content).bind JsonValue.texts? ≠ some (s.values a)) :
    a ∈ c.changedAxes d s := by
  refine List.mem_filter.2 ⟨a.mem_all, ?_⟩
  suffices unrecorded : c.recordedAxis? d a ≠ some (s.values a) by simpa using unrecorded
  intro recorded
  unfold recordedAxis? at recorded
  split at recorded
  · rename_i body read
    have same := Disk.get?_of_read house plain (c.axisPath_liesAt a) (.axis _) read
    rw [there] at same
    cases same
    exact untold recorded
  · cases recorded

/-- **What a cache that is open takes for its own is lost** when it is made to fit and cleared. -/
theorem IsOpen.fit_loses (isOpen : c.IsOpen l opened) {config : Configuration} {fitted : Disk}
    (there : opened.get? f = some (.file content)) (claimed : config.Claims l f content)
    (fits : opened.applyAll (c.reconcileChanges opened (AxisSnapshot.of config))
      = (.ok (), fitted))
    (cleared : fitted.applyAll c.clearChanges = (.ok (), d')) :
    d'.get? f ≠ some (.file content) := by
  unfold reconcileChanges at fits
  split at fits
  · rename_i unchanged
    cases fits
    rcases claimed with below | below | ⟨a, rfl, untold⟩
    · exact isOpen.clear_loses cleared (.inl below)
    · exact isOpen.clear_loses cleared (.inr below)
    · have changed := mem_changedAxes (c := c) isOpen.houses isOpen.plain there untold
      rw [unchanged] at changed
      cases changed
  · -- The cache is cleared and the axes are recorded; it is cleared once more after that.
    obtain ⟨m, first, recorded⟩ := Disk.applyAll_append_ok fits
    have run := Disk.Performs.applyAll opened (c.clearChanges_touches l [])
    rw [first] at run
    have steady := (run.spares isOpen.houses isOpen.plain).1
    have house := steady.houses isOpen.houses
    have plain := steady.plainIn isOpen.plain
    intro left
    have before := clear_brings_nothing cleared left
    have lost (below : l ++ ["src"] <+: f ∨ l ++ ["meta"] <+: f) : False := by
      refine isOpen.clear_loses first below ((record_spares house plain recorded _ _ ?_).1 before)
      rintro ⟨a, -, rfl⟩
      rcases below with below | below <;> simp at below
    -- A record that has been replaced is not cleared, but it is another one now.
    rcases claimed with below | below | ⟨a, rfl, untold⟩
    · exact lost (.inl below)
    · exact lost (.inr below)
    · have changed := mem_changedAxes (c := c) isOpen.houses isOpen.plain there untold
      rw [get?_of_recorded house plain recorded changed] at before
      cases before
      exact untold (JsonValue.read?_texts _)

end RewriteCache

/-! ## Whatever is done -/

/-- **What can be done**: a resolver is used, or a command is given. -/
inductive Action where
  /-- The resolver is locked. -/
  | lock
  /-- A path is resolved. -/
  | resolve (path : Path)
  /-- The cache is cleared. -/
  | clear
  /-- A command is given, with the configuration of the resolver. -/
  | command (colours : Bool) (command : CommandLine.Command)

namespace Resolver

/-- **What an action does** to a resolver that has been set up with a configuration, and to a
disk. -/
def act (c : Configuration) (state : Resolver × Disk) : Action → Resolver × Disk
  | .lock => (state.1.lock state.2).2
  | .resolve p => (state.1.resolve state.2 p).2
  | .clear => (state.1.clearCache state.2).2
  | .command colours command => (state.1, (CommandLine.runCommand colours state.2 c command).2)

/-- **A resolver and a disk after some actions.** -/
def after (r : Resolver) (d : Disk) (actions : List Action) : Resolver × Disk :=
  actions.foldl (act r.config) (r, d)

variable {c : Configuration} {root : Path} {l f : Location} {content : Bytes} {r : Resolver}
  {d : Disk}

/-- **An action spares a file** that the cache does not take for its own. -/
theorem act_spares (dir : c.cacheDir = some root) (free : ¬ c.Claims l f content)
    (uses : r.Uses c root) (intact : d.Intact root l f content) (action : Action) :
    (act c (r, d) action).1.Uses c root ∧ (act c (r, d) action).2.Intact root l f content := by
  cases action with
  | lock => exact lock_spares dir free uses intact
  | resolve p => exact resolve_spares dir free uses intact p
  | clear => exact clearCache_spares dir free uses intact
  | command colours command =>
      exact ⟨uses, CommandLine.runCommand_spares dir free intact colours command⟩

/-- **Whatever is done, a file is spared** that the cache does not take for its own. -/
theorem foldl_act_spares (dir : c.cacheDir = some root) (free : ¬ c.Claims l f content)
    (actions : List Action) (uses : r.Uses c root) (intact : d.Intact root l f content) :
    (actions.foldl (act c) (r, d)).2.Intact root l f content := by
  induction actions generalizing r d with
  | nil => exact intact
  | cons action actions ih =>
      obtain ⟨uses', intact'⟩ := act_spares dir free uses intact action
      exact ih uses' intact'

/-- **What clearing the cache does first**, with a resolver that is not in use yet: the cache is
opened and made to fit, and then it is cleared. -/
theorem clearCache_ok (unused : r.active = none) (dir : r.config.cacheDir = some root)
    (ok : (r.clearCache d).1 = .ok ()) : ∃ opened fitted,
      d.applyAll (r.cacheIn root).openChanges = (.ok (), opened)
        ∧ opened.applyAll ((r.cacheIn root).reconcileChanges opened (AxisSnapshot.of r.config))
          = (.ok (), fitted)
        ∧ fitted.applyAll (r.cacheIn root).clearChanges = (.ok (), (r.clearCache d).2.2) := by
  unfold clearCache activeState at ok ⊢
  simp only [unused] at ok ⊢
  rcases activated : r.activate d with ⟨result, fitted⟩
  rw [activated] at ok
  cases result with
  | error e => cases ok
  | ok state =>
      obtain ⟨a, r'⟩ := state
      obtain ⟨names, opened, act⟩ := activates_of_ok dir activated
      refine ⟨opened, fitted, act.opens, act.reconciles, ?_⟩
      simp only [act.cache, RewriteCache.clear, RewriteCache.perform] at ok ⊢
      rcases cleared : fitted.applyAll (r.cacheIn root).clearChanges with ⟨result, d'⟩
      rw [cleared] at ok
      cases result with
      | error e => cases ok
      | ok u => rfl

/-- **A file that the cache takes for its own is lost when the cache is cleared.** -/
theorem clearCache_loses (unused : r.active = none) (dir : r.config.cacheDir = some root)
    (intact : d.Intact root l f content) (claimed : r.config.Claims l f content)
    (ok : (r.clearCache d).1 = .ok ()) : (r.clearCache d).2.2.get? f ≠ some (.file content) := by
  obtain ⟨opened, fitted, opens, fits, cleared⟩ := clearCache_ok unused dir ok
  have isOpen : (r.cacheIn root).IsOpen l opened :=
    RewriteCache.isOpen_of_opened intact.houses intact.plain opens
  have grown := (r.cacheIn root).grows_of_opened opens
  exact isOpen.fit_loses (grown.file_iff.2 intact.there) claimed fits cleared

/-- **Nothing is done without a directory for the cache.** -/
theorem act_of_nowhere (unused : r.active = none) (nowhere : r.config.cacheDir = none)
    (action : Action) : act r.config (r, d) action = (r, d) := by
  have unset : r.config.requireCacheDir = .error (.missingSetting "cache_dir") := by
    rw [Configuration.requireCacheDir, nowhere]
  have stuck (r : Resolver) (unused : r.active = none)
      (unset : r.config.requireCacheDir = .error (.missingSetting "cache_dir")) :
      r.activeState d = (.error (.config (.missingSetting "cache_dir")), d) := by
    rw [activeState, unused]
    simp only [activate, checkConfig, unset]
  have here := stuck r unused unset
  have anew := stuck (.of r.config) rfl unset
  cases action with
  | lock => simp only [act, lock, here]
  | resolve p => simp only [act, resolve, here]
  | clear => simp only [act, clearCache, here]
  | command colours command =>
      cases command <;>
        simp only [act, CommandLine.runCommand, CommandLine.patchCommand,
          CommandLine.statusCommand, CommandLine.warmCommand, CommandLine.clearCommand,
          Disk.statusOf, unset, resolve, lock, clearCache, anew]

/-- **Exactly the files that the cache does not take for its own are safe.** Whatever is done with
the resolver and with commands, and however the cache directory overlaps with the sources, such a
file stays as it is; and any other one is lost by some of it, as far as the cache can be cleared at
all. -/
theorem after_keeps_iff (unused : r.active = none) (there : d.get? f = some (.file content)) :
    (r.config.cacheDir = none → ∀ actions, (r.after d actions).2.get? f = some (.file content))
      ∧ ∀ root l, r.config.cacheDir = some root → d.Houses root l → d.PlainIn l →
        (¬ r.config.Claims l f content →
            ∀ actions, (r.after d actions).2.get? f = some (.file content))
          ∧ (r.config.Claims l f content → (r.clearCache d).1 = .ok () →
            ∃ actions, (r.after d actions).2.get? f ≠ some (.file content)) := by
  refine ⟨fun nowhere actions => ?_, fun root l dir houses plain => ⟨fun free actions => ?_,
    fun claimed ok => ?_⟩⟩
  · -- No action gets as far as to open a cache.
    have still : r.after d actions = (r, d) := by
      unfold after
      induction actions with
      | nil => rfl
      | cons action actions ih => rwa [List.foldl_cons, act_of_nowhere unused nowhere]
    rwa [still]
  · exact (foldl_act_spares dir free actions (.inl ⟨unused, rfl⟩) ⟨houses, plain, there⟩).there
  · exact ⟨[.clear], clearCache_loses unused dir ⟨houses, plain, there⟩ claimed ok⟩

/-- **A project that is its own cache directory**: the settings in `/w` name the directory that they
are in. -/
def ownCache : Resolver :=
  .of ⟨some ⟨"/w/."⟩, [⟨"/w/src"⟩], [], ["function"], .ofList ["rand"], .empty, "", false, false⟩

/-- **The only source of that project.** -/
def ownSource : Disk :=
  ⟨[(["w"], .directory), (["w", "src"], .directory),
    (["w", "src", "Main.php"], .file (bytesOf "<?php rand();"))], []⟩

/-- **The source is lost**, for it is where the cache keeps rewritten sources. -/
theorem after_keeps_iff_own :
    ∃ actions, (ownCache.after ownSource actions).2.get? ["w", "src", "Main.php"]
      ≠ some (.file (bytesOf "<?php rand();")) := by
  have led : ownSource.LeadsTo ⟨"/w/."⟩ ["w"] := rfl
  have plain : ownSource.PlainIn ["w"] := Disk.plainIn_of_entries (by simp [ownSource]) _
  have claimed : ownCache.config.Claims ["w"] ["w", "src", "Main.php"]
      (bytesOf "<?php rand();") := .inl (by decide)
  have ok : (ownCache.clearCache ownSource).1.toOption = some () := by decide +kernel
  exact ((after_keeps_iff rfl rfl).2 _ _ rfl (led.houses (fun _ _ => Iff.rfl) rfl) plain).2
    claimed (ok_of_toOption ok)

end Resolver

end Seams
