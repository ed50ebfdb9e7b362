import Mathlib.Data.List.Basic
import Mathlib.Tactic.Common
import Seams.CommandLine.Commands
import Seams.Proofs.Lineup
import Seams.Proofs.Reconciling
import Seams.Proofs.Retries

/-! # The state of a cache
To ask for the state of a cache opens it, as locking a resolver does, and leaves it at that. So the
axes that are told to have changed are those for which the next lock makes the cache fit, and to ask
again tells the same. Once a resolver is locked no axis has changed any more, unless what is cleared
for it holds the records of axes, over links.
Main definitions:
* **`StatusReport.of`** — what is told of a cache that is open;
* **`Disk.Told`** — what comes of asking for the state of a cache. -/

namespace Seams

namespace RewriteCache

variable {root : Path} {generation : UInt64} {d d' : Disk} {p : Path} {e : Fault}

/-- **A cache is opened** if its directories can be created. -/
theorem create_of_opened
    (opens : d.applyAll (⟨root, generation⟩ : RewriteCache).openChanges = (.ok (), d')) :
    create d root generation = (.ok ⟨root, generation⟩, d') := by
  simp only [create, opens]

/-- **A cache cannot be opened** if one of its directories cannot be created. -/
theorem create_of_failed
    (fails : d.applyAll (⟨root, generation⟩ : RewriteCache).openChanges = (.error (p, e), d')) :
    create d root generation = (.error (.unwritable p e), d') := by
  simp only [create, fails]

end RewriteCache

open CommandLine (statusCommand statusText)
open RewriteCache (create_of_opened create_of_failed)

/-- **What is told of a cache that is open**, in a directory. -/
def StatusReport.of (config : Configuration) (root : Path) (opened : Disk) : StatusReport :=
  ⟨root, AxisSnapshot.of config,
    ((Resolver.of config).cacheIn root).changedAxes opened (AxisSnapshot.of config),
    ((Resolver.of config).cacheIn root).count opened⟩

namespace Disk

variable {config : Configuration} {root p : Path} {e : Fault} {d after : Disk}
  {report : StatusReport}

/-! ## Asking for the state of a cache -/

/-- **The state of a cache that can be opened is told**, as it is then. -/
theorem statusOf_of_opened (dir : config.cacheDir = some root)
    (opens : d.applyAll ((Resolver.of config).cacheIn root).openChanges = (.ok (), after)) :
    d.statusOf config = (.ok (.of config root after), after) := by
  have created : RewriteCache.create d root (AxisSnapshot.of config).generation
      = (.ok ⟨root, (AxisSnapshot.of config).generation⟩, after) := create_of_opened opens
  simp only [statusOf, Configuration.requireCacheDir, dir, created]
  rfl

/-- **The state of a cache that cannot be opened is not told.** -/
theorem statusOf_of_failed (dir : config.cacheDir = some root)
    (fails : d.applyAll ((Resolver.of config).cacheIn root).openChanges = (.error (p, e), after)) :
    d.statusOf config = (.error (.cache (.unwritable p e)), after) := by
  have created : RewriteCache.create d root (AxisSnapshot.of config).generation
      = (.error (.unwritable p e), after) := create_of_failed fails
  simp only [statusOf, Configuration.requireCacheDir, dir, created]

/-- **There is no state where no directory is set.** -/
theorem statusOf_of_unset (unset : config.cacheDir = none) (d : Disk) :
    d.statusOf config = (.error (.config (.missingSetting "cache_dir")), d) := by
  simp only [statusOf, Configuration.requireCacheDir, unset]

/-- **What comes of asking for the state of a cache**, and of the disk. -/
inductive Told (config : Configuration) (d : Disk) : Except ResolveError StatusReport × Disk → Prop
  /-- No directory is set. -/
  | unset (unset : config.cacheDir = none) :
      Told config d (.error (.config (.missingSetting "cache_dir")), d)
  /-- A directory of the cache cannot be created. -/
  | failed {root p : Path} {e : Fault} {after : Disk} (dir : config.cacheDir = some root)
      (fails : d.applyAll ((Resolver.of config).cacheIn root).openChanges
        = (.error (p, e), after)) :
      Told config d (.error (.cache (.unwritable p e)), after)
  /-- The cache is opened. -/
  | opened {root : Path} {after : Disk} (dir : config.cacheDir = some root)
      (opens : d.applyAll ((Resolver.of config).cacheIn root).openChanges = (.ok (), after)) :
      Told config d (.ok (.of config root after), after)

theorem told (d : Disk) (config : Configuration) : Told config d (d.statusOf config) := by
  cases dir : config.cacheDir with
  | none =>
      rw [statusOf_of_unset dir]
      exact .unset dir
  | some root =>
      rcases opens : d.applyAll ((Resolver.of config).cacheIn root).openChanges
        with ⟨⟨p, e⟩ | u, after⟩
      · rw [statusOf_of_failed dir opens]
        exact .failed dir opens
      · rw [statusOf_of_opened dir opens]
        exact .opened dir opens

/-- **A state that is told is that of a cache that has been opened.** -/
theorem opened_of_statusOf (tells : d.statusOf config = (.ok report, after)) :
    ∃ root, config.cacheDir = some root
      ∧ d.applyAll ((Resolver.of config).cacheIn root).openChanges = (.ok (), after)
      ∧ report = .of config root after := by
  have told := d.told config
  rw [tells] at told
  cases told with
  | opened dir opens => exact ⟨_, dir, opens, rfl⟩

/-- **To ask for the state of a cache only adds directories**, whether it is told or not. -/
theorem statusOf_grows (d : Disk) (config : Configuration) : Grows d (d.statusOf config).2 := by
  generalize asked : d.statusOf config = answer
  have told := d.told config
  rw [asked] at told
  cases told with
  | unset => exact .refl d
  | @failed root p e after dir fails =>
      have grown := applyAll_grows ((Resolver.of config).cacheIn root).openChanges_ensure d
      rwa [fails] at grown
  | opened dir opens => exact RewriteCache.grows_of_opened _ opens

/-- **To ask again tells the same** and adds nothing. -/
theorem statusOf_again (tells : d.statusOf config = (.ok report, after)) :
    after.statusOf config = (.ok report, after) := by
  obtain ⟨root, dir, opens, rfl⟩ := opened_of_statusOf tells
  exact statusOf_of_opened dir
    (applyAll_again ((Resolver.of config).cacheIn root).openChanges_ensure opens (.refl _))

/-- **A state that could not be told is not told the next time**, and nothing is added then. -/
theorem statusOf_fails_again {cause : ResolveError}
    (failed : d.statusOf config = (.error cause, after)) :
    ∃ cause', after.statusOf config = (.error cause', after) := by
  have told := d.told config
  rw [failed] at told
  cases told with
  | unset unset => exact ⟨_, statusOf_of_unset unset _⟩
  | failed dir fails =>
      obtain ⟨e', again⟩ := applyAll_fails_again
        ((Resolver.of config).cacheIn _).openChanges_ensure fails
      exact ⟨_, statusOf_of_failed dir again⟩

end Disk

namespace Resolver

variable {r now : Resolver} {root : Path} {d after fitted opened : Disk} {a : Active} {l : Location}

/-! ## Locking a resolver -/

/-- **A resolver is locked as well once its cache has been opened.** -/
theorem activate_of_opened
    (opens : d.applyAll (r.cacheIn root).openChanges = (.ok (), opened))
    (usable : r.checkConfig = .ok root) : r.activate opened = r.activate d := by
  have again := Disk.applyAll_again (r.cacheIn root).openChanges_ensure opens (.refl _)
  have created : RewriteCache.create d root (AxisSnapshot.of r.config).generation
      = (.ok ⟨root, (AxisSnapshot.of r.config).generation⟩, opened) := create_of_opened opens
  have created' : RewriteCache.create opened root (AxisSnapshot.of r.config).generation
      = (.ok ⟨root, (AxisSnapshot.of r.config).generation⟩, opened) := create_of_opened again
  simp only [activate, usable, created, created']

/-- **The axes for which a lock makes the cache fit** are those that have changed once it is
open. -/
theorem changedAxes_of_activate (dir : r.config.cacheDir = some root)
    (opens : d.applyAll (r.cacheIn root).openChanges = (.ok (), opened))
    (locks : r.activate d = (.ok (a, now), fitted)) :
    now.changedAxes = (r.cacheIn root).changedAxes opened (AxisSnapshot.of r.config) := by
  unfold activate at locks
  split at locks
  · cases locks
  rename_i dir' checked
  obtain rfl : root = dir' := Option.some.inj (dir.symm.trans (checkConfig_ok checked))
  simp only at locks
  split at locks
  · cases locks
  rename_i cache opened' created
  obtain ⟨rfl, opens'⟩ := RewriteCache.create_ok _ created
  obtain rfl : opened = opened' := congrArg Prod.snd (opens.symm.trans opens')
  split at locks
  · cases locks
  split at locks
  · cases locks
  split at locks
  · cases locks
  rename_i changed fitted' reconciled
  obtain ⟨rfl, -⟩ := RewriteCache.reconcile_ok _ reconciled
  cases locks
  rfl

/-- **A resolver that can be locked finds a cache that can be opened**, and the state of the cache
can be told. It makes no difference whether it has been told already. -/
theorem exists_opened_of_lock {start : Disk} (unused : r.active = none)
    (same : start = d ∨ start = (d.statusOf r.config).2)
    (locks : r.lock start = (.ok (), now, fitted)) :
    ∃ root opened a, r.config.cacheDir = some root
      ∧ d.applyAll (r.cacheIn root).openChanges = (.ok (), opened)
      ∧ r.activate d = (.ok (a, now), fitted) := by
  obtain ⟨a, activated⟩ := exists_activate_of_lock unused locks
  obtain ⟨root, usable⟩ := exists_checkConfig activated
  have dir := checkConfig_ok usable
  obtain ⟨names, opened, act⟩ := activates_of_ok dir activated
  rcases same with rfl | rfl
  · exact ⟨root, opened, a, dir, act.opens, activated⟩
  rcases told : d.statusOf r.config with ⟨e | report, after⟩
  · -- The cache could not have been opened then.
    rw [told] at act
    obtain ⟨e', again⟩ := Disk.statusOf_fails_again told
    rw [Disk.statusOf_of_opened dir act.opens] at again
    cases again
  · rw [told] at activated
    obtain ⟨root', dir', opens, -⟩ := Disk.opened_of_statusOf told
    obtain rfl : root = root' := Option.some.inj (dir.symm.trans dir')
    rw [activate_of_opened (r := r) opens usable] at activated
    exact ⟨root, after, a, dir, opens, activated⟩

/-- **Once a resolver is locked no axis has changed**, where there are no links in the directories
of its cache. -/
theorem statusOf_of_activate (dir : r.config.cacheDir = some root)
    (locks : r.activate d = (.ok (a, now), fitted)) (house : d.Houses root l)
    (plain : d.PlainIn l) :
    fitted.statusOf r.config = (.ok (.of r.config root fitted), fitted)
      ∧ (StatusReport.of r.config root fitted).changed = [] := by
  obtain ⟨names, opened, act⟩ := activates_of_ok dir locks
  have fits := act.fitted house plain
  have isOpen := (RewriteCache.isOpen_of_opened (c := r.cacheIn root) house plain
    act.opens).reconciled act.reconciles
  have again : fitted.applyAll ((of r.config).cacheIn root).openChanges = (.ok (), fitted) :=
    fits.opens isOpen
  exact ⟨Disk.statusOf_of_opened dir again, fits.changedAxes isOpen.there⟩

/-- **The state of a cache tells what the next lock does.** To ask for it adds directories at most:
every file is as it was. To ask again tells the same and adds nothing, and where it has not been
told it is not told the next time. A resolver of this configuration that is locked then, or could
have been locked before, makes its cache fit for the axes that are told to have changed, and the
command prints what is told. If there are none, the same is told once the resolver is locked; and in
any case no axis is told to have changed then, if there are no links in the directories of the
cache. -/
theorem status_predicts_lock (config : Configuration) (d : Disk) :
    Disk.Grows d (d.statusOf config).2
      ∧ (∀ report after, d.statusOf config = (.ok report, after) →
        after.statusOf config = (.ok report, after)
          ∧ ∀ colours, statusCommand colours after config
            = ((statusCommand colours d config).1, after))
      ∧ (∀ cause after, d.statusOf config = (.error cause, after) →
        ∃ cause', after.statusOf config = (.error cause', after))
      ∧ ∀ r : Resolver, r.config = config → r.active = none →
        ∀ start now fitted, start = d ∨ start = (d.statusOf config).2 →
        r.lock start = (.ok (), now, fitted) →
        ∃ report after, d.statusOf config = (.ok report, after)
          ∧ (∀ colours, statusCommand colours d config
            = (.success (bytesOf (statusText colours report)) "", after))
          ∧ report.changed = now.changedAxes
          ∧ (now.changedAxes = [] → fitted.statusOf config = (.ok report, fitted))
          ∧ ∀ root l, config.cacheDir = some root → d.Houses root l → d.PlainIn l →
            ∃ told, fitted.statusOf config = (.ok told, fitted) ∧ told.changed = [] := by
  refine ⟨Disk.statusOf_grows d config, fun report after told => ?_,
    fun cause after => Disk.statusOf_fails_again, ?_⟩
  · have again := Disk.statusOf_again told
    exact ⟨again, fun colours => by simp only [statusCommand, told, again]⟩
  rintro r rfl unused start now fitted same locks
  obtain ⟨root, opened, a, dir, opens, activated⟩ := exists_opened_of_lock unused same locks
  have changed := changedAxes_of_activate dir opens activated
  have told := Disk.statusOf_of_opened dir opens
  refine ⟨_, opened, told, fun colours => by simp only [statusCommand, told], changed.symm,
    fun unchanged => ?_, fun root' l dir' house plain => ?_⟩
  · -- The lock has only opened the cache.
    obtain ⟨names, opened', act⟩ := activates_of_ok dir activated
    obtain rfl : opened = opened' := congrArg Prod.snd (opens.symm.trans act.opens)
    have fits := act.reconciles
    rw [RewriteCache.reconcileChanges_of_unchanged (changed.symm.trans unchanged)] at fits
    cases fits
    exact Disk.statusOf_again told
  · obtain rfl : root = root' := Option.some.inj (dir.symm.trans dir')
    obtain ⟨again, none⟩ := statusOf_of_activate dir activated house plain
    exact ⟨_, again, none⟩

/-- **The disk of a cache that fits a resolver without further functions.** -/
def plainUsed : Disk := ((of { randOnly with whitelist := .ofList [] }).lock sourceless).2.2

/-- **The state of a cache tells that one axis has changed**, and that none has any more once a
resolver is locked. -/
theorem status_predicts_lock_plain :
    ∃ report after now fitted told, plainUsed.statusOf randOnly = (.ok report, after)
      ∧ report.changed = [.functionWhitelist]
      ∧ after.statusOf randOnly = (.ok report, after)
      ∧ (of randOnly).lock after = (.ok (), now, fitted)
      ∧ now.changedAxes = [.functionWhitelist]
      ∧ fitted.statusOf randOnly = (.ok told, fitted) ∧ told.changed = [] := by
  obtain ⟨locks, changed, led, plain⟩ :
      ((of randOnly).lock (plainUsed.statusOf randOnly).2).1.toOption = some ()
        ∧ ((of randOnly).lock (plainUsed.statusOf randOnly).2).2.1.changedAxes
          = [.functionWhitelist]
        ∧ plainUsed.LeadsTo ⟨"/c"⟩ ["c"]
        ∧ ∀ e ∈ plainUsed.entries, e.2.isLink = false := by
    decide +kernel
  obtain ⟨-, again, -, predicts⟩ := status_predicts_lock randOnly plainUsed
  rcases result : (of randOnly).lock (plainUsed.statusOf randOnly).2 with ⟨outcome, now, fitted⟩
  simp only [result] at locks changed
  have locked : (of randOnly).lock (plainUsed.statusOf randOnly).2 = (.ok (), now, fitted) := by
    rw [result, ok_of_toOption locks]
  obtain ⟨report, after, told, -, same, -, fits⟩ := predicts (of randOnly) rfl rfl _ now fitted
    (.inr rfl) locked
  obtain ⟨told', tells, none⟩ := fits ⟨"/c"⟩ ["c"] rfl
    (led.houses (fun _ _ => Iff.rfl) rfl) (Disk.plainIn_of_entries (fun e mem t isLink => by
      have := plain e mem
      rw [isLink] at this
      cases this) _)
  rw [told] at locked
  exact ⟨report, after, now, fitted, told', told, same.trans changed, (again report after told).1,
    locked, changed, tells, none⟩

/-- **A lock that leaves some axes changed**: it succeeds, and these are told afterwards. -/
def LeavesChanged (config : Configuration) (d : Disk) (axes : List Axis) : Prop :=
  ∃ now fitted report after, (of config).lock d = (.ok (), now, fitted)
    ∧ now.changedAxes = [.functionWhitelist]
    ∧ fitted.statusOf config = (.ok report, after) ∧ report.changed = axes

/-- **A lock leaves some axes changed** if these can be computed. -/
theorem leavesChanged_of {config : Configuration} {axes : List Axis}
    (computed : ((of config).lock d).1.toOption = some ()
      ∧ ((of config).lock d).2.1.changedAxes = [.functionWhitelist]
      ∧ (((of config).lock d).2.2.statusOf config).1.toOption.map StatusReport.changed
        = some axes) : LeavesChanged config d axes := by
  obtain ⟨locks, changed, tells⟩ := computed
  obtain ⟨report, told, after⟩ := Option.map_eq_some_iff.1 tells
  exact ⟨_, _, report, _, eq_of_toOption locks, changed, eq_of_toOption told, after⟩

/-- **A cache that fits a resolver without further functions**, with its records of axes among the
rewritten sources, over a link. -/
def linkedUsed : Disk :=
  ((of { randOnly with whitelist := .ofList [] }).lock RewriteCache.linkedOpened).2.2

/-- **A resolver whose cache is reached through its directory of rewritten sources.** -/
def windingConfig : Configuration := { randOnly with cacheDir := some ⟨"/c/src/../c"⟩ }

/-- **A cache that fits such a resolver without further functions**, where that directory is a link
to another one. -/
def windingUsed : Disk :=
  ⟨(["c"], .directory) :: (["z"], .directory) :: (["c", "src"], .link ⟨"/z"⟩)
    :: (["c", "meta"], .directory) :: (["c", "conf"], .directory)
    :: Axis.all.map fun a => (["c", "conf", a.fileName], .file (JsonValue.list
      (((AxisSnapshot.of { randOnly with whitelist := .ofList [] }).values a).map .text)).toBytes),
    []⟩

/-- **Why a cache cannot be used**, if the state of it is not told for that. -/
def refusal? : Except ResolveError StatusReport × Disk → Option CacheError
  | (.error (.cache e), _) => some e
  | _ => none

theorem eq_of_refusal? {x : Except ResolveError StatusReport × Disk} {e : CacheError}
    (refused : refusal? x = some e) : x = (.error (.cache e), x.2) := by
  unfold refusal? at refused
  split at refused <;> cases refused
  rfl

/-- **A disk with a file**, in the way of a directory. -/
def blocked : Disk := ⟨[(["f"], .file (bytesOf ""))], []⟩

/-- **A resolver whose cache is to be kept below that file**, on a way through a directory that is
missing. -/
def blockedConfig : Configuration := { randOnly with cacheDir := some ⟨"/x/../f/c/d"⟩ }

/-- **Over links axes may be told to have changed once a resolver is locked**: the records of axes
are cleared with the rewritten sources, or the path of the cache leads elsewhere once these are
cleared. And where the state of a cache cannot be told, the reason may be another one the next time:
a directory on the way has been created in between. -/
theorem not_status_predicts_lock :
    LeavesChanged randOnly linkedUsed [.patcherList, .includePaths, .excludePaths]
      ∧ LeavesChanged windingConfig windingUsed [.patcherList, .includePaths, .excludePaths]
      ∧ ∃ after again,
        blocked.statusOf blockedConfig
            = (.error (.cache (.unwritable ⟨"/x/../f/c/d"⟩ .exists)), after)
          ∧ after.statusOf blockedConfig
            = (.error (.cache (.unwritable ⟨"/x/../f/c/d"⟩ .notDirectory)), again) := by
  obtain ⟨first, second⟩ :
      refusal? (blocked.statusOf blockedConfig) = some (.unwritable ⟨"/x/../f/c/d"⟩ .exists)
        ∧ refusal? ((blocked.statusOf blockedConfig).2.statusOf blockedConfig)
          = some (.unwritable ⟨"/x/../f/c/d"⟩ .notDirectory) := by
    decide +kernel
  exact ⟨leavesChanged_of (by decide +kernel), leavesChanged_of (by decide +kernel), _, _,
    eq_of_refusal? first, eq_of_refusal? second⟩

end Resolver

end Seams
