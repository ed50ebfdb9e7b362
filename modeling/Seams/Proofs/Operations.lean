import Mathlib.Data.List.Basic
import Mathlib.Tactic.Common
import Seams.Proofs.CacheFiles
import Seams.Resolver

/-! # What caches and resolvers do to a disk
Every operation of a cache is a list of changes, so what the operations of a resolver do to a disk
is told by the changes that they consist of.
Main definitions:
* **`Disk.KeptAt`** — the places at which a cache keeps its files;
* **`Resolver.cacheIn`** — the cache of a resolver in a directory;
* **`Resolver.extended`** — the configuration of a resolver once it is locked;
* **`Resolver.Activates`** — a resolver is locked on a disk. -/

namespace Seams

/-! ## What the operations of a cache change -/

/-- **The places at which the cache at a place keeps its files**, as far as the given axes go. -/
def Disk.KeptAt (l : Location) (axes : List Axis) (m : Location) : Prop :=
  l ++ ["src"] <+: m ∨ l ++ ["meta"] <+: m ∨ ∃ a ∈ axes, m = l ++ ["conf", a.fileName]

/-- **There are no other axes.** -/
theorem Axis.mem_all (a : Axis) : a ∈ Axis.all := by
  cases a <;> decide

/-- **A place where a cache keeps a file is one whatever the axes are.** -/
theorem Disk.KeptAt.all {l : Location} {axes : List Axis} {m : Location}
    (h : Disk.KeptAt l axes m) : Disk.KeptAt l Axis.all m :=
  h.imp_right fun h => h.imp_right fun ⟨a, _, eq⟩ => ⟨a, a.mem_all, eq⟩

/-- **A result that can be had is one.** -/
theorem ok_of_toOption {ε α : Type} {x : Except ε α} {a : α} (h : x.toOption = some a) :
    x = .ok a := by
  cases x with
  | error e => cases h
  | ok b =>
      cases h
      rfl

/-- **Where the result of a step can be had, it is what the step gives**, with what comes along. -/
theorem eq_of_toOption {ε α β : Type} {x : Except ε α × β} {a : α}
    (h : x.1.toOption = some a) : x = (.ok a, x.2) :=
  Prod.ext (ok_of_toOption h) rfl

namespace RewriteCache

variable (c : RewriteCache) (l : Location)

/-- **Opening a cache only creates directories.** -/
theorem openChanges_ensure : ∀ change ∈ c.openChanges, ∃ p, change = .ensureDirectory p := by
  intro change h
  simp only [openChanges, List.mem_cons, List.not_mem_nil, or_false] at h
  rcases h with rfl | rfl | rfl | rfl <;> exact ⟨_, rfl⟩

/-- **A cache that is opened only adds directories.** -/
theorem grows_of_opened {d d' : Disk} (opens : d.applyAll c.openChanges = (.ok (), d')) :
    Disk.Grows d d' := by
  have grown := Disk.applyAll_grows c.openChanges_ensure d
  rwa [opens] at grown

/-- **Opening a cache brings nothing.** -/
theorem openChanges_harmless : ∀ change ∈ c.openChanges, change.Harmless c.root := by
  intro change h
  obtain ⟨p, rfl⟩ := c.openChanges_ensure change h
  trivial

/-- **Opening a cache touches no file.** -/
theorem openChanges_touches (touched : Location → Prop) :
    ∀ change ∈ c.openChanges, change.Touches c.root l touched := by
  intro change h
  obtain ⟨p, rfl⟩ := c.openChanges_ensure change h
  trivial

/-- **Clearing a cache brings nothing.** -/
theorem clearChanges_harmless : ∀ change ∈ c.clearChanges, change.Harmless c.root := by
  intro change h
  simp only [clearChanges, List.mem_cons, List.not_mem_nil, or_false] at h
  rcases h with rfl | rfl | rfl | rfl
  · exact ⟨_, .source _, c.sourceDir_liesAt⟩
  · trivial
  · exact ⟨_, .record _, c.recordDir_liesAt⟩
  · trivial

/-- **Clearing a cache touches what it keeps.** -/
theorem clearChanges_touches (axes : List Axis) :
    ∀ change ∈ c.clearChanges, change.Touches c.root l (Disk.KeptAt l axes) := by
  intro change h
  simp only [clearChanges, List.mem_cons, List.not_mem_nil, or_false] at h
  rcases h with rfl | rfl | rfl | rfl
  · exact ⟨_, .source _, c.sourceDir_liesAt, fun m below => .inl below⟩
  · trivial
  · exact ⟨_, .record _, c.recordDir_liesAt, fun m below => .inr (.inl below)⟩
  · trivial

/-- **Recording axes brings nothing.** -/
theorem recordChanges_harmless (s : AxisSnapshot) (axes : List Axis) :
    ∀ change ∈ c.recordChanges s axes, change.Harmless c.root := by
  intro change h
  obtain ⟨a, -, rfl⟩ := List.mem_map.1 h
  exact ⟨_, .axis _, c.axisPath_liesAt a, by simp, by simp⟩

/-- **Recording axes touches their records.** -/
theorem recordChanges_touches (s : AxisSnapshot) (axes : List Axis) :
    ∀ change ∈ c.recordChanges s axes, change.Touches c.root l (Disk.KeptAt l axes) := by
  intro change h
  obtain ⟨a, ha, rfl⟩ := List.mem_map.1 h
  exact ⟨_, .axis _, c.axisPath_liesAt a, fun _ => .inr (.inr ⟨a, ha, rfl⟩)⟩

/-- **Making a cache fit brings nothing.** -/
theorem reconcileChanges_harmless (d : Disk) (s : AxisSnapshot) :
    ∀ change ∈ c.reconcileChanges d s, change.Harmless c.root := by
  intro change h
  unfold reconcileChanges at h
  split at h
  · cases h
  · rcases List.mem_append.1 h with h | h
    · exact c.clearChanges_harmless change h
    · exact c.recordChanges_harmless s _ change h

/-- **Making a cache fit touches what it keeps**, and the records of the axes that have changed. -/
theorem reconcileChanges_touches (d : Disk) (s : AxisSnapshot) :
    ∀ change ∈ c.reconcileChanges d s,
      change.Touches c.root l (Disk.KeptAt l (c.changedAxes d s)) := by
  intro change h
  unfold reconcileChanges at h
  split at h
  · cases h
  · rcases List.mem_append.1 h with h | h
    · exact c.clearChanges_touches l _ change h
    · exact c.recordChanges_touches l s _ change h

/-- **Keeping a rewritten source touches what is kept.** -/
theorem storeChanges_touches (source : Path) (content : Fingerprint) (rewritten : Bytes)
    (axes : List Axis) : ∀ change ∈ c.storeChanges source content rewritten,
      change.Touches c.root l (Disk.KeptAt l axes) := by
  intro change h
  simp only [storeChanges, List.mem_cons, List.not_mem_nil, or_false] at h
  have below (x : String) (ns : List String) : l ++ [x] <+: l ++ x :: ns :=
    (List.prefix_append_right_inj l).2 (by simp)
  rcases h with rfl | rfl
  · exact ⟨_, .source _, c.sourcePath_liesAt source, fun _ => .inl (below _ _)⟩
  · exact ⟨_, .record _, c.recordPath_liesAt source, fun _ => .inr (.inl (below _ _))⟩

/-! ## Outcomes -/

/-- **A cache is opened by its changes.** -/
theorem create_snd (d : Disk) (root : Path) (generation : UInt64) :
    (create d root generation).2
      = (d.applyAll (⟨root, generation⟩ : RewriteCache).openChanges).2 := by
  unfold create
  simp only
  split <;> rename_i e <;> rw [e]

/-- **A cache that is opened is the one in the directory.** -/
theorem create_ok {d d' : Disk} {root : Path} {generation : UInt64}
    (h : create d root generation = (.ok c, d')) :
    c = ⟨root, generation⟩ ∧ d.applyAll c.openChanges = (.ok (), d') := by
  unfold create at h
  simp only at h
  split at h
  · rename_i e
    cases h
    exact ⟨rfl, e⟩
  · cases h

/-- **A cache is cleared by its changes.** -/
theorem clear_snd (d : Disk) : (c.clear d).2 = (d.applyAll c.clearChanges).2 :=
  Disk.InOrder.perform_snd d _

/-- **A cache is made to fit by its changes.** -/
theorem reconcile_snd (d : Disk) (s : AxisSnapshot) :
    (c.reconcile d s).2 = (d.applyAll (c.reconcileChanges d s)).2 := by
  rw [← Disk.InOrder.perform_snd]
  unfold reconcile
  split <;> rename_i e <;> rw [e]

/-- **A cache that is made to fit tells the axes that had changed.** -/
theorem reconcile_ok {d d' : Disk} {s : AxisSnapshot} {axes : List Axis}
    (h : c.reconcile d s = (.ok axes, d')) :
    axes = c.changedAxes d s ∧ d.applyAll (c.reconcileChanges d s) = (.ok (), d') := by
  unfold reconcile perform at h
  split at h
  · rename_i e
    split at e
    · rename_i e'
      cases e
      cases h
      exact ⟨rfl, e'⟩
    · cases e
  · cases h

variable {c}

/-- **Nothing has to be changed to make a cache fit** if no axis has changed. -/
theorem reconcileChanges_of_unchanged {d : Disk} {s : AxisSnapshot}
    (unchanged : c.changedAxes d s = []) : c.reconcileChanges d s = [] := by
  unfold reconcileChanges
  rw [unchanged]

/-- **To make a cache fit changes nothing** if no axis has changed. -/
theorem reconcile_of_unchanged {d : Disk} {s : AxisSnapshot}
    (unchanged : c.changedAxes d s = []) : c.reconcile d s = (.ok [], d) := by
  unfold reconcile perform
  rw [reconcileChanges_of_unchanged unchanged, unchanged]
  rfl

end RewriteCache

/-! ## The list of further names -/

/-- **The place of the list of further names for the blacklist**, in a cache at a place. -/
def Disk.listAt (l : Location) : Location := l ++ ["conf", "function_blacklist.txt"]

/-- **The names that a cache at a place lists for the blacklist**, if there is a list. -/
def Disk.listedIn (d : Disk) (l : Location) : List String :=
  match d.get? (listAt l) with
  | some (.file content) => (content.text?.map RewriteCache.listedNames).getD []
  | _ => []

namespace Disk

variable {c : RewriteCache} {l : Location} {d d' : Disk}

/-- **What a cache lists depends on the file that holds the list.** -/
theorem listedIn_congr (same : ∀ content,
    d'.get? (listAt l) = some (.file content) ↔ d.get? (listAt l) = some (.file content)) :
    d'.listedIn l = d.listedIn l := by
  unfold listedIn
  split
  · rename_i content there
    rw [(same content).1 there]
  · rename_i none
    split
    · rename_i content there
      exact absurd ((same content).2 there) (none content)
    · rfl

/-- **The list is no file that a cache writes.** -/
theorem not_keptAt_listAt (l : Location) (axes : List Axis) : ¬ KeptAt l axes (listAt l) := by
  rintro (below | below | ⟨a, -, eq⟩)
  · have := (List.prefix_append_right_inj l).1 below
    simp at this
  · have := (List.prefix_append_right_inj l).1 below
    simp at this
  · have := List.append_cancel_left eq
    cases a <;> simp [Axis.fileName, Axis.name] at this

/-- **The directories of a cache are there once it is opened.** -/
theorem directories_of_opened (house : d.Houses c.root l) (plain : d.PlainIn l)
    (h : d.applyAll c.openChanges = (.ok (), d')) {x : String} (own : RewriteCache.Owned [x]) :
    d'.LeadsTo c.root l ∧ d'.get? (l ++ [x]) = some .directory := by
  have ensured {p : Path} (mem : .ensureDirectory p ∈ c.openChanges) (at_ : p.LiesAt c.root [x]) :=
    (directory_of_applyAll c.openChanges_ensure h house plain mem at_ own).2
  cases own with
  | source => exact ensured (by simp [RewriteCache.openChanges]) c.sourceDir_liesAt
  | record => exact ensured (by simp [RewriteCache.openChanges]) c.recordDir_liesAt
  | axis => exact ensured (by simp [RewriteCache.openChanges]) c.axisDir_liesAt

/-- **The further names for the blacklist are those that the cache lists.** -/
theorem listedIn_of_opened (house : d.Houses c.root l) (plain : d.PlainIn l)
    (h : d.applyAll c.openChanges = (.ok (), d')) {names : List String}
    (listed : c.extraBlacklist d' = .ok names) : names = d'.listedIn l := by
  have grown := c.grows_of_opened h
  have house' := grown.steady.houses house
  have plain' := grown.steady.plainIn plain
  obtain ⟨there, conf⟩ := directories_of_opened house plain h (.axis _)
  have own : RewriteCache.Owned ["conf", "function_blacklist.txt"] := .axis _
  unfold RewriteCache.extraBlacklist readText at listed
  unfold listedIn
  split at listed
  · rename_i text found
    split at found
    · cases found
    · rename_i content read
      rw [listAt, get?_of_read house' plain' c.blacklistPath_liesAt own read]
      split at found
      · rename_i s decoded
        cases found
        cases listed
        simp [decoded]
      · cases found
  · rename_i missing
    cases listed
    split
    · -- The list would have been read.
      rename_i content holds
      split at missing
      · rename_i read
        cases missing
        have ends : c.blacklistPath.EndsIn "function_blacklist.txt" :=
          Path.endsIn_child _ (by constructor <;> decide)
        refine absurd read ?_
        refine read_ne_notFound house' plain' there c.blacklistPath_liesAt own holds ?_
        intro k
        have deeper : l ++ ["conf", "function_blacklist.txt"]
            = l ++ ["conf"] ++ ["function_blacklist.txt"] := by simp
        rw [listAt, deeper] at holds
        rw [ends.asksForDirectory, deeper]
        exact Leads.enter (n := "conf") (by decide) conf
          (Leads.file (n := "function_blacklist.txt") (by decide) holds)
      · split at missing <;> cases missing
    · rfl
  · cases listed

end Disk

/-! ## Locking -/

namespace Resolver

/-- **The cache of a resolver**, in a directory. -/
def cacheIn (r : Resolver) (root : Path) : RewriteCache :=
  ⟨root, (AxisSnapshot.of r.config).generation⟩

/-- **The configuration of a resolver with further names on the blacklist.** -/
def extended (r : Resolver) (names : List String) : Configuration :=
  { r.config with blacklist := r.config.blacklist.insertAll names }

/-- **The pipeline of a resolver that is locked**, with further names on the blacklist. -/
def pipelineWith (r : Resolver) (names : List String) : Pipeline :=
  ⟨choose (r.extended names) r.registered r.config.patcherList, r.config.verifyOutput⟩

/-- **What extending the blacklist comes to**: a locked configuration refuses the first name, and
any other one takes them all and stays the same otherwise. -/
theorem extendBlacklist_eq (c : Configuration) (names : List String) :
    extendBlacklist c names
      = if c.isLocked = true ∧ names ≠ [] then .error (.locked "add to blacklist")
        else .ok { c with blacklist := c.blacklist.insertAll names } := by
  induction names generalizing c with
  | nil => simp [extendBlacklist, NameSet.insertAll]
  | cons name names ih =>
      rw [extendBlacklist, Configuration.addBlacklist, Configuration.change]
      cases locked : c.isLocked with
      | true => simp
      | false =>
          simp only [Bool.false_eq_true, if_false, false_and]
          rw [ih, if_neg (by simp), NameSet.insertAll, NameSet.insertAll, List.foldl_cons]

/-- **Extending the blacklist changes nothing else.** -/
theorem extendBlacklist_ok {c c' : Configuration} {names : List String}
    (h : extendBlacklist c names = .ok c') :
    c' = { c with blacklist := c.blacklist.insertAll names } := by
  rw [extendBlacklist_eq] at h
  split at h
  · cases h
  · exact (Except.ok.inj h).symm

/-- **A resolver is locked on a disk.** The cache is opened, the names that it lists are put on the
blacklist, and it is made to fit. -/
structure Activates (r : Resolver) (d : Disk) (root : Path) (names : List String) (opened : Disk)
    (a : Active) (r' : Resolver) (d' : Disk) : Prop where
  /-- The cache is opened. -/
  opens : d.applyAll (r.cacheIn root).openChanges = (.ok (), opened)
  /-- The names are those that it lists. -/
  listed : (r.cacheIn root).extraBlacklist opened = .ok names
  /-- The cache is made to fit. -/
  reconciles : opened.applyAll
    ((r.cacheIn root).reconcileChanges opened (AxisSnapshot.of r.config)) = (.ok (), d')
  /-- The cache is in use. -/
  cache : a.cache = r.cacheIn root
  /-- The patchers are in use. -/
  pipeline : a.pipeline = r.pipelineWith names
  /-- The configuration is locked, with the further names. -/
  config : r'.config = (r.extended names).lock
  /-- The state is in use. -/
  active : r'.active = some a

/-- **A resolver is in use as another one is set up**, with further names on the blacklist. -/
def BuiltFrom (r r₀ : Resolver) (root : Path) (names : List String) : Prop :=
  r.config = (r₀.extended names).lock ∧
    ∃ a, r.active = some a ∧ a.cache = r₀.cacheIn root ∧ a.pipeline = r₀.pipelineWith names

variable {r r' : Resolver} {d d' : Disk} {root : Path} {a : Active}

/-- **The configuration names the directory of the cache** if it can be used at all. -/
theorem checkConfig_ok {dir : Path} (h : r.checkConfig = .ok dir) :
    r.config.cacheDir = some dir := by
  unfold checkConfig Configuration.requireCacheDir at h
  split at h
  · cases h
  · rename_i dir' found
    split at found
    · cases found
      split at h
      · cases h
      split at h
      · cases h
      · cases h
        assumption
    · cases found

/-- **A resolver that has been locked could be used**, in some directory. -/
theorem exists_checkConfig (h : r.activate d = (.ok (a, r'), d')) :
    ∃ root, r.checkConfig = .ok root := by
  unfold activate at h
  split at h
  · cases h
  · exact ⟨_, by assumption⟩

/-- **What locking a resolver does, if it succeeds.** -/
theorem activates_of_ok (dir : r.config.cacheDir = some root)
    (h : r.activate d = (.ok (a, r'), d')) :
    ∃ names opened, r.Activates d root names opened a r' d' := by
  unfold activate at h
  split at h
  · cases h
  rename_i dir' checked
  obtain rfl : root = dir' := Option.some.inj (dir.symm.trans (checkConfig_ok checked))
  simp only at h
  split at h
  · cases h
  rename_i cache opened created
  obtain ⟨rfl, opens⟩ := RewriteCache.create_ok _ created
  split at h
  · cases h
  rename_i names listed
  split at h
  · cases h
  rename_i config extended
  obtain rfl := extendBlacklist_ok extended
  split at h
  · cases h
  rename_i changed fitted reconciled
  obtain ⟨-, reconciles⟩ := RewriteCache.reconcile_ok _ reconciled
  cases h
  exact ⟨names, opened, opens, listed, reconciles, rfl, rfl, rfl, rfl⟩

/-- **What a resolver begins with.** Its scope is taken from the disk on which it is locked, and
nothing has been counted. -/
theorem scope_counts_of_activate (h : r.activate d = (.ok (a, r'), d')) :
    a.scope = Scope.of d' r.config.includePaths r.config.excludePaths ∧ a.counts = {} := by
  unfold activate at h
  split at h
  · cases h
  simp only at h
  split at h
  · cases h
  split at h
  · cases h
  split at h
  · cases h
  rename_i config extended
  obtain rfl := extendBlacklist_ok extended
  split at h
  · cases h
  cases h
  exact ⟨rfl, rfl⟩

/-- **What locking a resolver does to the disk, whether it succeeds or not**: nothing, or the cache
is opened, and perhaps made to fit as well. -/
theorem activate_snd (dir : r.config.cacheDir = some root) (d : Disk) :
    (r.activate d).2 = d ∨ (r.activate d).2 = (d.applyAll (r.cacheIn root).openChanges).2
      ∨ ∃ opened, d.applyAll (r.cacheIn root).openChanges = (.ok (), opened)
        ∧ (r.activate d).2 = (opened.applyAll
          ((r.cacheIn root).reconcileChanges opened (AxisSnapshot.of r.config))).2 := by
  unfold activate
  split
  · exact .inl rfl
  rename_i dir' checked
  obtain rfl : root = dir' := Option.some.inj (dir.symm.trans (checkConfig_ok checked))
  refine .inr ?_
  simp only
  split
  · rename_i created
    have opens := RewriteCache.create_snd d root (AxisSnapshot.of r.config).generation
    rw [created] at opens
    exact .inl opens
  rename_i cache opened created
  obtain ⟨rfl, opens⟩ := RewriteCache.create_ok _ created
  rw [cacheIn, opens]
  split
  · exact .inl rfl
  split
  · exact .inl rfl
  refine .inr ⟨opened, rfl, ?_⟩
  rw [← RewriteCache.reconcile_snd]
  split <;> rename_i reconciled <;> rw [reconciled]

/-- **Locking a resolver performs changes** that satisfy what opening and fitting satisfy. -/
theorem activate_performs (dir : r.config.cacheDir = some root) (d : Disk)
    {allowed : Change → Prop} (opening : ∀ change ∈ (r.cacheIn root).openChanges, allowed change)
    (fitting : ∀ opened, d.applyAll (r.cacheIn root).openChanges = (.ok (), opened) →
      ∀ change ∈ (r.cacheIn root).reconcileChanges opened (AxisSnapshot.of r.config),
        allowed change) :
    Disk.Performs allowed d (r.activate d).2 := by
  rcases activate_snd dir d with same | same | ⟨opened, opens, same⟩
  · rw [same]
    exact .done d
  · rw [same]
    exact .applyAll d opening
  · have first := Disk.Performs.applyAll d opening
    rw [opens] at first
    rw [same]
    exact first.trans (.applyAll _ (fitting opened opens))

/-- **The further names are those that the cache listed before.** -/
theorem Activates.names_eq {names : List String} {opened : Disk} {l : Location}
    (act : r.Activates d root names opened a r' d') (house : d.Houses root l)
    (plain : d.PlainIn l) : names = d.listedIn l := by
  have same : opened.listedIn l = d.listedIn l :=
    Disk.listedIn_congr fun _ => ((r.cacheIn root).grows_of_opened act.opens).file_iff
  rw [← same]
  exact Disk.listedIn_of_opened (c := r.cacheIn root) house plain act.opens act.listed

end Resolver

/-! ## Resolving -/

namespace RewriteCache

variable {c : RewriteCache} {d : Disk} {source : Path} {content : Fingerprint} {rewritten : Bytes}

/-- **A rewritten source is read from its path.** -/
theorem read_eq_ok_iff :
    c.read d source = .ok rewritten ↔ d.read (c.sourcePath source) = .ok rewritten := by
  unfold read
  constructor
  · intro h
    split at h
    · rename_i found
      cases h
      exact found
    · cases h
    · cases h
  · intro h
    rw [h]

/-- **What is kept for a source is valid** if its record tells so and there is a file beside it. -/
theorem hasValid_iff : c.hasValid d source content = true ↔
    (∃ body, d.read (c.recordPath source) = .ok body
        ∧ EntryRecord.decode? body = some ⟨content, c.generation⟩)
      ∧ ∃ rewritten, c.read d source = .ok rewritten := by
  simp only [hasValid, Bool.and_eq_true, beq_iff_eq, Disk.isFile_iff, read_eq_ok_iff]
  refine and_congr_left fun _ => ?_
  unfold recordAt? EntryRecord.decode?
  constructor
  · intro h
    split at h
    · rename_i body found
      exact ⟨body, found, h⟩
    · cases h
  · rintro ⟨body, found, decoded⟩
    rw [found]
    exact decoded

end RewriteCache

/-- **What a cache in good order gives back fits what it is asked for.** -/
theorem Disk.InOrder.hit {c : RewriteCache} {l : Location} {good : EntryRecord → Bytes → Prop}
    {d : Disk} (order : InOrder c.root l good d) {source : Path} {content : Fingerprint}
    {rewritten : Bytes} (valid : c.hasValid d source content = true)
    (read : c.read d source = .ok rewritten) : good ⟨content, c.generation⟩ rewritten := by
  obtain ⟨⟨body, found, decoded⟩, -⟩ := RewriteCache.hasValid_iff.1 valid
  have beside := RewriteCache.read_eq_ok_iff.1 read
  exact order.fits source body _ rewritten
    (get?_of_read order.houses order.plain (c.recordPath_liesAt source) (.record _) found) decoded
    (get?_of_read order.houses order.plain (c.sourcePath_liesAt source) (.source _) beside)

namespace Active

variable {a a' : Active} {d d' : Disk} {p : Path} {res : Resolved}

/-- **Where what is loaded comes from.** -/
theorem resolve_ok (h : a.resolve d p = (.ok res, a', d')) :
    ∃ raw, d.read (d.normalize p).path = .ok raw
      ∧ (res.origin = .outOfScope ∧ res.bytes = raw
        ∨ res.origin = .cacheHit
          ∧ a.cache.hasValid d (d.normalize p).path (Fingerprint.of raw) = true
          ∧ a.cache.read d (d.normalize p).path = .ok res.bytes
        ∨ ∃ output, a.pipeline.run raw = .ok output ∧ res.bytes = output.source
          ∧ res.origin = if output.patched then .patched else .unchanged) := by
  unfold resolve at h
  simp only at h
  split at h
  · cases h
  rename_i raw read
  refine ⟨raw, read, ?_⟩
  split at h
  · cases h
    exact .inl ⟨rfl, rfl⟩
  split at h
  · rename_i valid
    split at h
    · cases h
    · rename_i bytes kept
      cases h
      exact .inr (.inl ⟨rfl, valid, kept⟩)
  · unfold rewrite at h
    refine .inr (.inr ?_)
    split at h
    · cases h
    · rename_i output run
      split at h
      · cases h
      · cases h
        exact ⟨output, run, rfl, rfl⟩

/-- **Resolving only counts.** What is in use stays in use. -/
theorem resolve_state (a : Active) (d : Disk) (p : Path) :
    (a.resolve d p).2.1.cache = a.cache ∧ (a.resolve d p).2.1.pipeline = a.pipeline
      ∧ (a.resolve d p).2.1.scope = a.scope := by
  unfold resolve
  simp only
  split
  · exact ⟨rfl, rfl, rfl⟩
  split
  · exact ⟨rfl, rfl, rfl⟩
  split
  · split <;> exact ⟨rfl, rfl, rfl⟩
  · exact ⟨rfl, rfl, rfl⟩

/-- **Resolving keeps what the pipeline makes of the content**, or leaves the disk as it is. -/
theorem resolve_disk (a : Active) (d : Disk) (p : Path) :
    (a.resolve d p).2.2 = d ∨ ∃ raw output, d.read (d.normalize p).path = .ok raw
      ∧ a.pipeline.run raw = .ok output ∧ (a.resolve d p).2.2
        = (a.cache.write d (d.normalize p).path (Fingerprint.of raw) output.source).2 := by
  unfold resolve
  simp only
  split
  · exact .inl rfl
  rename_i raw read
  split
  · exact .inl rfl
  split
  · split <;> exact .inl rfl
  · unfold rewrite
    split
    · exact .inl rfl
    · rename_i output run
      refine .inr ⟨raw, output, read, run, ?_⟩
      split <;> rename_i written <;> rw [written]

end Active

end Seams
