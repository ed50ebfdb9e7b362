import Mathlib.Data.List.Basic
import Mathlib.Tactic.Common
import Seams.Proofs.Coherence
import Seams.Proofs.Fitting
import Seams.Proofs.Locking
import Seams.Proofs.Partial

/-! # Sessions that are cut short
Sessions use one cache directory, one after the other, and each of them may be killed at any time.
The cache is cleared before the values of the axes are recorded, and what is kept in it afterwards
is of the generation of these values; so the records of sources are never of another generation than
that of the values that are recorded, whatever mixture of values a session has left behind.
Main definitions:
* **`Resolver.changes`** — the changes of the disk that a request consists of;
* **`Disk.InStep`** — the records of sources are of the generation of the values that are recorded;
* **`RewriteCache.UpToDate`** — a cache is used in the generation of the values that are recorded;
* **`Reachable`** — what sessions over one cache directory can come to. -/

namespace Seams

open RewriteCache (Owned)

/-! ## What requests change -/

namespace Active

/-- **The changes for which a path is resolved**: what is rewritten is kept. -/
def resolveChanges (a : Active) (d : Disk) (p : Path) : List Change :=
  match d.read (d.normalize p).path with
  | .error _ => []
  | .ok raw =>
    if !a.scope.covers (d.normalize p) then []
    else if a.cache.hasValid d (d.normalize p).path (Fingerprint.of raw) then []
    else match a.pipeline.run raw with
      | .error _ => []
      | .ok output =>
        a.cache.storeChanges (d.normalize p).path (Fingerprint.of raw) output.source

/-- **A path is resolved by these changes.** -/
theorem resolve_applyAll (a : Active) (d : Disk) (p : Path) :
    (a.resolve d p).2.2 = (d.applyAll (a.resolveChanges d p)).2 := by
  unfold resolve resolveChanges
  simp only
  generalize d.read (d.normalize p).path = content
  cases content with
  | error e => rfl
  | ok raw =>
      simp only
      split
      · rfl
      split
      · split <;> rfl
      · unfold rewrite
        generalize a.pipeline.run raw = ran
        cases ran with
        | error e => rfl
        | ok output =>
            simp only
            rw [← Disk.InOrder.perform_snd, ← RewriteCache.write]
            split <;> rename_i written <;> rw [written]

/-- **What is kept when a path is resolved**, if anything is. -/
theorem resolveChanges_cases (a : Active) (d : Disk) (p : Path) : a.resolveChanges d p = []
    ∨ ∃ source content rewritten,
      a.resolveChanges d p = a.cache.storeChanges source content rewritten := by
  unfold resolveChanges
  split
  · exact .inl rfl
  split
  · exact .inl rfl
  split
  · exact .inl rfl
  split
  · exact .inl rfl
  · exact .inr ⟨_, _, _, rfl⟩

/-- **The changes of a request to a resolver that is in use.** -/
def useChanges (a : Active) (d : Disk) : Request → List Change
  | .resolve p => a.resolveChanges d p
  | .clear => a.cache.clearChanges
  | _ => []

end Active

namespace Resolver

variable {r r' : Resolver} {d d' : Disk} {a : Active}

/-- **The changes that make a cache fit that has been opened**, as far as locking gets. -/
def fitChanges (r : Resolver) (root : Path) (opened : Disk) : List Change :=
  match (r.cacheIn root).extraBlacklist opened with
  | .error _ => []
  | .ok names =>
    match extendBlacklist r.config names with
    | .error _ => []
    | .ok _ => (r.cacheIn root).reconcileChanges opened (AxisSnapshot.of r.config)

/-- **The changes for which a resolver is locked**, unless it is in use. -/
def lockChanges (r : Resolver) (d : Disk) : List Change :=
  match r.active, r.checkConfig with
  | none, .ok root => (r.cacheIn root).openChanges
      ++ r.fitChanges root (d.applyAll (r.cacheIn root).openChanges).2
  | _, _ => []

/-- **The changes of the disk that a request consists of**: the resolver is locked, if that has not
been done yet, and then it is used. -/
def changes (r : Resolver) (d : Disk) (request : Request) : List Change :=
  if request.uses then
    r.lockChanges d ++ match r.activeState d with
      | (.ok (a, _), d') => a.useChanges d' request
      | (.error _, _) => []
  else []

/-- **A resolver is locked by its changes**, which succeed if it can be locked. -/
theorem activate_applyAll {root : Path} (unused : r.active = none)
    (checked : r.checkConfig = .ok root) (d : Disk) :
    (d.applyAll (r.lockChanges d)).2 = (r.activate d).2
      ∧ ∀ x, (r.activate d).1 = .ok x → (d.applyAll (r.lockChanges d)).1 = .ok () := by
  have changes : r.lockChanges d = (r.cacheIn root).openChanges
      ++ r.fitChanges root (d.applyAll (r.cacheIn root).openChanges).2 := by
    simp only [lockChanges, unused, checked]
  rw [changes, Disk.applyAll_append]
  unfold activate RewriteCache.create fitChanges
  rw [checked]
  simp only
  rw [← cacheIn]
  generalize d.applyAll (r.cacheIn root).openChanges = opens
  rcases opens with ⟨⟨q, e⟩ | u, opened⟩
  · exact ⟨rfl, fun x h => by cases h⟩
  · simp only
    generalize (r.cacheIn root).extraBlacklist opened = listed
    cases listed with
    | error e => exact ⟨rfl, fun x h => by cases h⟩
    | ok names =>
        simp only
        generalize extendBlacklist r.config names = extended
        cases extended with
        | error e => exact ⟨rfl, fun x h => by cases h⟩
        | ok config =>
            simp only
            rw [← RewriteCache.reconcile_snd]
            rcases fits : (r.cacheIn root).reconcile opened (AxisSnapshot.of r.config)
              with ⟨e | changed, fitted⟩
            · exact ⟨rfl, fun x h => by cases h⟩
            · obtain ⟨-, made⟩ := RewriteCache.reconcile_ok _ fits
              exact ⟨rfl, fun x h => by rw [made]⟩

/-- **A request to a resolver that can be taken into use**: it is locked by its changes, and then it
is used by those of the request. -/
theorem serve_applyAll {request : Request} (uses : request.uses = true)
    (passed : r.activeState d = (.ok (a, r'), d')) :
    d.applyAll (r.lockChanges d) = (.ok (), d')
      ∧ (r.serve d request).2.2 = (d'.applyAll (a.useChanges d' request)).2 := by
  constructor
  · unfold activeState at passed
    split at passed
    · rename_i active
      cases passed
      simp only [lockChanges, active, Disk.applyAll]
    · rename_i unused
      obtain ⟨root, checked⟩ := exists_checkConfig passed
      obtain ⟨disk, succeeds⟩ := activate_applyAll unused checked d
      rw [passed] at disk succeeds
      exact Prod.ext (succeeds _ rfl) disk
  · cases request with
    | lock => simp only [serve, lock, passed, Active.useChanges, Disk.applyAll]
    | resolve p =>
        rw [Active.useChanges, ← a.resolve_applyAll]
        simp only [serve, resolve, passed]
    | clear =>
        rw [Active.useChanges, ← a.cache.clear_snd]
        simp only [serve, clearCache, passed]
    | configure s => cases uses
    | freeze => cases uses
    | register p => cases uses
    | outside d => cases uses

/-- **A request to a resolver that cannot be taken into use** does what locking does. -/
theorem serve_applyAll_of_failed {request : Request} {e : ResolveError}
    (uses : request.uses = true) (failed : r.activeState d = (.error e, d')) :
    (r.serve d request).2.2 = (d.applyAll (r.lockChanges d)).2 := by
  rw [serve_of_failed uses failed]
  unfold activeState at failed
  split at failed
  · cases failed
  · rename_i unused
    cases checked : r.checkConfig with
    | ok root => rw [(activate_applyAll unused checked d).1, failed]
    | error e =>
        unfold activate at failed
        rw [checked] at failed
        cases failed
        simp only [lockChanges, unused, checked, Disk.applyAll]

/-- **A request is served by its changes.** -/
theorem serve_changes {request : Request} (uses : request.uses = true) (r : Resolver) (d : Disk) :
    (r.serve d request).2.2 = (d.applyAll (r.changes d request)).2 := by
  rw [changes, if_pos uses, Disk.applyAll_append]
  rcases state : r.activeState d with ⟨e | ⟨a, r'⟩, d'⟩
  · rw [serve_applyAll_of_failed uses state]
    simp only
    rcases d.applyAll (r.lockChanges d) with ⟨e | u, m⟩ <;> rfl
  · obtain ⟨locks, used⟩ := serve_applyAll uses state
    rw [used, locks]

/-- **A request for which a resolver is not used leaves the disk as it is**, but for what happens to
the disk meanwhile. -/
theorem serve_disk {request : Request} (others : request.uses = false) (r : Resolver) (d : Disk) :
    (r.serve d request).2.2 = d
      ∨ ∃ d', request = .outside d' ∧ (r.serve d request).2.2 = d' := by
  cases request with
  | configure s =>
      rw [serve]
      split <;> exact .inl rfl
  | freeze => exact .inl rfl
  | register p =>
      rw [serve]
      split <;> exact .inl rfl
  | outside d' => exact .inr ⟨d', rfl, rfl⟩
  | lock => cases others
  | resolve p => cases others
  | clear => cases others

end Resolver

/-! ## Records of axes -/

/-- **Snapshots with the same values are the same.** -/
theorem AxisSnapshot.ext_values {s s' : AxisSnapshot} (h : ∀ a, s.values a = s'.values a) :
    s = s' := by
  cases s
  cases s'
  simpa [AxisSnapshot.values] using
    ⟨h .patcherList, h .functionWhitelist, h .includePaths, h .excludePaths⟩

namespace Disk

variable {l : Location} {d m : Disk} {s s' : AxisSnapshot}

/-- **The value that is recorded of an axis**, in a cache at a place, if one is. -/
def axisAt? (d : Disk) (l : Location) (a : Axis) : Option (List String) :=
  match d.get? (l ++ ["conf", a.fileName]) with
  | some (.file body) => (JsonValue.read? body).bind JsonValue.texts?
  | _ => none

/-- **These values of the axes are recorded**, in a cache at a place. -/
def AxesAre (l : Location) (s : AxisSnapshot) (d : Disk) : Prop :=
  ∀ a, d.axisAt? l a = some (s.values a)

/-- **No other values are recorded.** -/
theorem AxesAre.unique (are : d.AxesAre l s) (are' : d.AxesAre l s') : s = s' :=
  AxisSnapshot.ext_values fun a => Option.some.inj ((are a).symm.trans (are' a))

/-- **What is recorded depends on the files that hold it.** -/
theorem axisAt?_congr {a : Axis}
    (same : ∀ body, m.get? (l ++ ["conf", a.fileName]) = some (.file body)
      ↔ d.get? (l ++ ["conf", a.fileName]) = some (.file body)) :
    m.axisAt? l a = d.axisAt? l a := by
  unfold axisAt?
  split
  · rename_i body there
    rw [(same body).1 there]
  · rename_i none
    split
    · rename_i body there
      exact absurd ((same body).2 there) (none body)
    · rfl

/-- **The records of sources are in step**: where values of all axes are recorded, the records that
can be read are of the generation of these values. -/
def InStep (l : Location) (d : Disk) : Prop :=
  ∀ s, d.AxesAre l s → d.RecordsAre l fun r => r.generation = s.generation

/-- **A cache at a place is in order for sessions**: there are no links in its directories, and the
records of sources are in step. -/
structure Consistent (l : Location) (d : Disk) : Prop where
  /-- There are no links in the directories. -/
  plain : d.PlainIn l
  /-- The records of sources are in step. -/
  inStep : d.InStep l

variable {root : Path} {changes : List Change}

/-- **However far changes have been made that touch no record of an axis, the same values are
recorded.** -/
theorem Partly.axisAt? (run : d.Partly changes m) (house : d.Houses root l) (plain : d.PlainIn l)
    (touches : ∀ change ∈ changes, change.Touches root l (KeptAt l [])) (a : Axis) :
    m.axisAt? l a = d.axisAt? l a := by
  have lasting : ¬ Temporary (l ++ ["conf", a.fileName]) := by
    have ends : l ++ ["conf", a.fileName] = (l ++ ["conf"]) ++ [a.name ++ ".json"] := by
      simp [Axis.fileName]
    rw [ends]
    exact not_temporary_json _ _
  exact axisAt?_congr fun body =>
    (run.spares house plain touches).2 _ body (not_keptAt_conf l _) lasting

/-- **However far changes have been made that touch no record of an axis, a cache is in order**, as
long as they bring no records but those in step. -/
theorem Partly.consistent (run : d.Partly changes m) (cons : d.Consistent l)
    (house : d.Houses root l)
    (touches : ∀ change ∈ changes, change.Touches root l (KeptAt l []))
    (brings : ∀ s, d.AxesAre l s → ∀ change ∈ changes,
      change.BringsOnly root l fun r => r.generation = s.generation) : m.Consistent l := by
  obtain ⟨steady, -⟩ := run.spares house cons.plain touches
  refine ⟨steady.plainIn cons.plain, fun s recorded => ?_⟩
  have before : d.AxesAre l s := fun a => by
    rw [← run.axisAt? house cons.plain touches a]
    exact recorded a
  exact run.recordsAre house cons.plain touches (brings s before) (cons.inStep s before)

/-- **Nothing is left to be made of no changes.** -/
theorem Partly.eq_of_nil (run : d.Partly [] m) : m = d := by
  cases run
  rfl

end Disk

namespace RewriteCache

variable {c : RewriteCache} {l : Location} {d m : Disk} {s : AxisSnapshot}

/-! ## What the operations of a cache bring -/

/-- **Opening a cache brings no records.** -/
theorem openChanges_brings (c : RewriteCache) (l : Location) (good : EntryRecord → Prop) :
    ∀ change ∈ c.openChanges, change.BringsOnly c.root l good := by
  intro change mem
  obtain ⟨p, rfl⟩ := c.openChanges_ensure change mem
  trivial

/-- **Clearing a cache brings no records.** -/
theorem clearChanges_brings (c : RewriteCache) (l : Location) (good : EntryRecord → Prop) :
    ∀ change ∈ c.clearChanges, change.BringsOnly c.root l good := by
  intro change mem
  simp only [clearChanges, List.mem_cons, List.not_mem_nil, or_false] at mem
  rcases mem with rfl | rfl | rfl | rfl <;> trivial

/-- **Recording axes brings no records of sources.** -/
theorem recordChanges_brings (c : RewriteCache) (l : Location) (good : EntryRecord → Prop)
    (s : AxisSnapshot) (axes : List Axis) :
    ∀ change ∈ c.recordChanges s axes, change.BringsOnly c.root l good := by
  intro change mem
  obtain ⟨a, -, rfl⟩ := List.mem_map.1 mem
  refine ⟨_, .axis _, c.axisPath_liesAt a, .inl fun source same => ?_⟩
  have names := List.append_cancel_left same
  simp at names

/-- **Keeping a rewritten source brings a record of the generation** in which the cache is used. -/
theorem storeChanges_brings (c : RewriteCache) (l : Location) (source : Path)
    (content : Fingerprint) (rewritten : Bytes) :
    ∀ change ∈ c.storeChanges source content rewritten,
      change.BringsOnly c.root l fun r => r.generation = c.generation := by
  intro change mem
  simp only [storeChanges, List.mem_cons, List.not_mem_nil, or_false] at mem
  rcases mem with rfl | rfl
  · exact ⟨_, .source _, c.sourcePath_liesAt source,
      .inl fun other => Disk.recordAt_ne_sourceAt l other source⟩
  · refine ⟨_, .record _, c.recordPath_liesAt source, .inr fun r decoded => ?_⟩
    rw [EntryRecord.decode?_toBytes] at decoded
    split at decoded
    · cases decoded
      rfl
    · cases decoded

/-! ## How far a cache has been made to fit -/

/-- **An axis that is told is recorded.** -/
theorem Tells.axisAt? {a : Axis} (tells : c.Tells l s a d) (plain : d.PlainIn l) :
    d.axisAt? l a = some (s.values a) := by
  obtain ⟨body, reach, told⟩ := tells
  rw [Disk.axisAt?, reach.holds plain]
  exact told

/-- **A cache is in order however far it has been made to fit.** When the values are recorded there
are no records of sources left. -/
theorem IsOpen.consistent_of_partly (isOpen : c.IsOpen l d) (cons : d.Consistent l)
    (run : d.Partly (c.reconcileChanges d s) m) : m.Consistent l := by
  unfold reconcileChanges at run
  split at run
  · rwa [run.eq_of_nil]
  rcases run.append with clearing | ⟨empty, clears, recording⟩
  · exact clearing.consistent cons isOpen.houses (c.clearChanges_touches l [])
      fun s _ => c.clearChanges_brings l _
  · have cleared := Disk.Performs.applyAll d (c.clearChanges_touches l [])
    rw [clears] at cleared
    obtain ⟨steady, -⟩ := cleared.spares isOpen.houses isOpen.plain
    have house := steady.houses isOpen.houses
    have plain := steady.plainIn isOpen.plain
    have none : empty.RecordsAre l fun _ => False := fun source body r there _ =>
      isOpen.clear_loses clears (.inr ((List.prefix_append_right_inj l).2 (by simp))) there
    have touches := c.recordChanges_touches l s (c.changedAxes d s)
    have left := recording.recordsAre house plain touches (c.recordChanges_brings l _ s _) none
    exact ⟨(recording.spares house plain touches).1.plainIn plain,
      fun _ _ source body r there decoded => (left source body r there decoded).elim⟩

/-- **A cache is used in the generation of the values that are recorded.** -/
def UpToDate (c : RewriteCache) (l : Location) (d : Disk) : Prop :=
  ∃ s : AxisSnapshot, c.generation = s.generation ∧ d.AxesAre l s

end RewriteCache

/-! ## How far requests have been served -/

/-- **A resolver in use keeps a cache in order and up to date**, however far a request is served. -/
theorem Active.consistent_of_partly {a : Active} {l : Location} {d m : Disk} {request : Request}
    (house : d.Houses a.cache.root l) (cons : d.Consistent l) (current : a.cache.UpToDate l d)
    (run : d.Partly (a.useChanges d request) m) : m.Consistent l ∧ a.cache.UpToDate l m := by
  obtain ⟨s, generation, recorded⟩ := current
  suffices spared : (∀ change ∈ a.useChanges d request,
        change.Touches a.cache.root l (Disk.KeptAt l []))
      ∧ ∀ change ∈ a.useChanges d request,
        change.BringsOnly a.cache.root l fun r => r.generation = a.cache.generation by
    obtain ⟨touches, brings⟩ := spared
    refine ⟨run.consistent cons house touches fun s' recorded' => ?_, s, generation, fun x => ?_⟩
    · rw [recorded'.unique recorded, ← generation]
      exact brings
    · rw [run.axisAt? house cons.plain touches x]
      exact recorded x
  unfold useChanges
  split
  · rename_i p
    rcases a.resolveChanges_cases d p with nothing | ⟨source, content, rewritten, stored⟩
    · rw [nothing]
      exact ⟨by simp, by simp⟩
    · rw [stored]
      exact ⟨a.cache.storeChanges_touches l source content rewritten [],
        a.cache.storeChanges_brings l source content rewritten⟩
  · exact ⟨a.cache.clearChanges_touches l [], a.cache.clearChanges_brings l _⟩
  · exact ⟨by simp, by simp⟩

namespace Resolver

variable {r r' : Resolver} {l : Location} {d d' m : Disk} {a : Active}

/-- **A cache is in order however far a resolver has been locked.** -/
theorem consistent_of_lock_partly (cons : d.Consistent l)
    (houses : ∀ root, r.config.cacheDir = some root → d.Houses root l)
    (run : d.Partly (r.lockChanges d) m) : m.Consistent l := by
  unfold lockChanges at run
  split at run
  · rename_i root unused checked
    have house : d.Houses (r.cacheIn root).root l := houses root (checkConfig_ok checked)
    have opening {m : Disk} (run : d.Partly (r.cacheIn root).openChanges m) : m.Consistent l :=
      run.consistent cons house ((r.cacheIn root).openChanges_touches l _)
        fun s _ => (r.cacheIn root).openChanges_brings l _
    rcases run.append with first | ⟨opened, opens, fitting⟩
    · exact opening first
    · have whole := Disk.Partly.applyAll d (r.cacheIn root).openChanges
      rw [opens] at whole fitting
      have isOpen := RewriteCache.isOpen_of_opened house cons.plain opens
      unfold fitChanges at fitting
      split at fitting
      · rw [fitting.eq_of_nil]
        exact opening whole
      split at fitting
      · rw [fitting.eq_of_nil]
        exact opening whole
      · exact isOpen.consistent_of_partly (opening whole) fitting
  · rwa [run.eq_of_nil]

/-- **A resolver in use uses the cache directory that is configured, and is up to date.** -/
def Current (r : Resolver) (l : Location) (d : Disk) : Prop :=
  ∀ a, r.active = some a → r.config.cacheDir = some a.cache.root ∧ a.cache.UpToDate l d

/-- **A resolver that is taken into use** uses the cache directory that is configured, and the cache
is up to date. -/
theorem upToDate_of_activeState (cons : d.Consistent l)
    (houses : ∀ root, r.config.cacheDir = some root → d.Houses root l) (current : r.Current l d)
    (passed : r.activeState d = (.ok (a, r'), d')) :
    r'.config.cacheDir = some a.cache.root ∧ d'.Houses a.cache.root l
      ∧ a.cache.UpToDate l d' := by
  unfold activeState at passed
  split at passed
  · rename_i active
    cases passed
    obtain ⟨dir, upToDate⟩ := current a active
    exact ⟨dir, houses _ dir, upToDate⟩
  · obtain ⟨root, checked⟩ := exists_checkConfig passed
    have dir := checkConfig_ok checked
    obtain ⟨names, opened, act⟩ := activates_of_ok dir passed
    have house : d.Houses (r.cacheIn root).root l := houses root dir
    have isOpen := RewriteCache.isOpen_of_opened house cons.plain act.opens
    have run := Disk.Performs.applyAll opened ((r.cacheIn root).reconcileChanges_touches l opened
      (AxisSnapshot.of r.config))
    rw [act.reconciles] at run
    obtain ⟨steady, -⟩ := run.spares isOpen.houses isOpen.plain
    rw [act.cache]
    refine ⟨?_, steady.houses isOpen.houses, AxisSnapshot.of r.config, rfl, fun x => ?_⟩
    · rw [act.config]
      exact dir
    · exact (RewriteCache.tells_of_reconciled isOpen.houses isOpen.plain act.reconciles x).axisAt?
        (steady.plainIn isOpen.plain)

/-- **A cache is in order however far a request has been served.** -/
theorem consistent_of_partly {request : Request} (cons : d.Consistent l) (current : r.Current l d)
    (houses : request.uses = true → ∀ root, r.config.cacheDir = some root → d.Houses root l)
    (run : d.Partly (r.changes d request) m) : m.Consistent l := by
  unfold changes at run
  split at run
  · rename_i uses
    rcases run.append with locking | ⟨d', locks, using_⟩
    · exact consistent_of_lock_partly cons (houses uses) locking
    · have lock := consistent_of_lock_partly cons (houses uses) (.applyAll d (r.lockChanges d))
      rw [locks] at lock
      split at using_
      · rename_i passed
        obtain ⟨locks', -⟩ := serve_applyAll uses passed
        rw [locks'] at locks
        cases locks
        obtain ⟨-, house, upToDate⟩ := upToDate_of_activeState cons (houses uses) current passed
        exact (Active.consistent_of_partly house lock upToDate using_).1
      · rwa [using_.eq_of_nil]
  · rwa [run.eq_of_nil]

/-- **A resolver stays up to date**, whatever is asked of it. -/
theorem Current.serve {request : Request} (current : r.Current l d) (locked : r.LockedInUse)
    (cons : d.Consistent l)
    (houses : request.uses = true → ∀ root, r.config.cacheDir = some root → d.Houses root l)
    (same : request.uses = false → ∀ s, d.AxesAre l s → (r.serve d request).2.2.AxesAre l s) :
    (r.serve d request).2.1.Current l (r.serve d request).2.2 := by
  cases uses : request.uses with
  | false =>
      -- What is in use stays in use, and what is recorded stays recorded.
      intro a active
      rw [serve_active uses] at active
      obtain ⟨dir, s, generation, recorded⟩ := current a active
      have inUse : r.InUse a r.config := ⟨rfl, a.counts, active⟩
      have isLocked := locked (by rw [active]; rfl)
      refine ⟨?_, s, generation, same uses s recorded⟩
      rw [(inUse.serve isLocked d request).config]
      exact dir
  | true =>
      rcases state : r.activeState d with ⟨e | ⟨a, r'⟩, d'⟩
      · rw [serve_of_failed uses state]
        intro a active
        rw [activeState, active] at state
        cases state
      · obtain ⟨dir, house, upToDate⟩ := upToDate_of_activeState cons (houses uses) current state
        obtain ⟨locks, used⟩ := serve_applyAll uses state
        have lock := consistent_of_lock_partly cons (houses uses) (.applyAll d (r.lockChanges d))
        rw [locks] at lock
        obtain ⟨-, upToDate'⟩ := Active.consistent_of_partly house lock upToDate
          (.applyAll d' (a.useChanges d' request))
        have inUse := inUse_of_uses uses locked state
        intro b active
        obtain ⟨n, active'⟩ := inUse.active
        rw [active'] at active
        cases active
        rw [inUse.config, used]
        exact ⟨dir, upToDate'⟩

end Resolver

/-! ## Sessions -/

/-- **What has happened to a disk has left the records alone**: those of the sources and those of
the axes are the same, and there are no links in the directories of the cache. -/
structure Disk.LeavesRecords (l : Location) (d d' : Disk) : Prop where
  /-- There are no links in the directories. -/
  plain : d'.PlainIn l
  /-- The records of sources are the same. -/
  sources : ∀ source, d'.get? (recordAt l source) = d.get? (recordAt l source)
  /-- The records of axes are the same. -/
  axes : ∀ a : Axis, d'.get? (l ++ ["conf", a.fileName]) = d.get? (l ++ ["conf", a.fileName])

namespace Disk.LeavesRecords

variable {l : Location} {d d' : Disk}

/-- **The same values are recorded.** -/
theorem axesAre (left : d.LeavesRecords l d') {s : AxisSnapshot} :
    d'.AxesAre l s ↔ d.AxesAre l s :=
  forall_congr' fun a => by rw [axisAt?, axisAt?, left.axes]

/-- **The cache is in order still.** -/
theorem consistent (left : d.LeavesRecords l d') (cons : d.Consistent l) : d'.Consistent l := by
  refine ⟨left.plain, fun s recorded source body r there decoded => ?_⟩
  rw [left.sources] at there
  exact cons.inStep s (left.axesAre.1 recorded) source body r there decoded

end Disk.LeavesRecords

/-- **A request is one over the cache directory at a place**: a resolver that is used for it is
configured for this directory, by whatever path, and what happens to the disk meanwhile leaves the
records alone. -/
def Resolver.Over (r : Resolver) (l : Location) (d : Disk) : Request → Prop
  | .outside d' => d.LeavesRecords l d'
  | request => request.uses = true → ∀ root, r.config.cacheDir = some root → d.Houses root l

namespace Resolver.Over

variable {r : Resolver} {l : Location} {d : Disk} {request : Request}

/-- **The path of the cache leads to its place, or nowhere**, when a resolver is used. -/
theorem houses (isOver : r.Over l d request) :
    request.uses = true → ∀ root, r.config.cacheDir = some root → d.Houses root l := by
  cases request with
  | outside d' => exact fun uses => by cases uses
  | _ => exact isOver

/-- **The cache is in order when a request has been served**, and where the resolver is not used,
the same values are recorded. -/
theorem consistent (isOver : r.Over l d request) (cons : d.Consistent l) (current : r.Current l d) :
    (r.serve d request).2.2.Consistent l
      ∧ (request.uses = false → ∀ s, d.AxesAre l s → (r.serve d request).2.2.AxesAre l s) := by
  cases uses : request.uses with
  | true =>
      rw [serve_changes uses]
      exact ⟨consistent_of_partly cons current isOver.houses (.applyAll d _), fun no => by cases no⟩
  | false =>
      rcases r.serve_disk uses d with still | ⟨d', rfl, outside⟩
      · rw [still]
        exact ⟨cons, fun _ _ recorded => recorded⟩
      · have left : d.LeavesRecords l d' := isOver
        rw [outside]
        exact ⟨left.consistent cons, fun _ s recorded => left.axesAre.2 recorded⟩

end Resolver.Over

/-- **What sessions over the cache directory at a place can come to**, one after the other: the
session that is alive, if there is one, and the disk. -/
inductive Reachable (l : Location) : Option Resolver → Disk → Prop where
  /-- In the beginning there is nothing at the place. -/
  | absent {d : Disk} (nothing : ∀ ns, d.get? (l ++ ns) = none) : Reachable l none d
  /-- A session begins, with any configuration. -/
  | begins {d : Disk} (c : Configuration) (h : Reachable l none d) : Reachable l (some (.of c)) d
  /-- A request is served in the session, whether it succeeds or not. -/
  | serves {r : Resolver} {d : Disk} (request : Request) (isOver : r.Over l d request)
      (h : Reachable l (some r) d) :
      Reachable l (some (r.serve d request).2.1) (r.serve d request).2.2
  /-- The session is killed while a request is served, before, between or within its changes. -/
  | killed {r : Resolver} {d m : Disk} (request : Request) (isOver : r.Over l d request)
      (part : d.Partly (r.changes d request) m) (h : Reachable l (some r) d) : Reachable l none m
  /-- The session ends. -/
  | ends {r : Resolver} {d : Disk} (h : Reachable l (some r) d) : Reachable l none d

namespace Reachable

variable {l : Location} {session : Option Resolver} {d : Disk}

/-- **What holds all along**: the cache is in order, and a session in use is locked and up to
date. -/
structure Invariant (l : Location) (session : Option Resolver) (d : Disk) : Prop where
  /-- The cache is in order. -/
  consistent : d.Consistent l
  /-- A session in use is locked and up to date. -/
  current : ∀ r, session = some r → r.LockedInUse ∧ r.Current l d

/-- **What holds all along holds all along.** -/
theorem invariant (h : Reachable l session d) : Invariant l session d := by
  induction h with
  | absent nothing =>
      refine ⟨⟨fun ns t _ => ?_, fun s recorded => ?_⟩, fun r absurdity => by cases absurdity⟩
      · simp [nothing ns]
      · have unrecorded := recorded .patcherList
        rw [Disk.axisAt?, nothing] at unrecorded
        cases unrecorded
  | begins c h ih =>
      refine ⟨ih.consistent, fun r begun => ?_⟩
      cases begun
      exact ⟨fun used => (by cases used), fun a active => (by cases active)⟩
  | @serves r d request isOver h ih =>
      obtain ⟨locked, current⟩ := ih.current r rfl
      obtain ⟨consistent, same⟩ := isOver.consistent ih.consistent current
      refine ⟨consistent, fun r' served => ?_⟩
      cases served
      exact ⟨locked.serve d request, current.serve locked ih.consistent isOver.houses same⟩
  | @killed r d m request isOver part h ih =>
      obtain ⟨-, current⟩ := ih.current r rfl
      exact ⟨Resolver.consistent_of_partly ih.consistent current isOver.houses part,
        fun r absurdity => by cases absurdity⟩
  | ends h ih => exact ⟨ih.consistent, fun r absurdity => by cases absurdity⟩

/-- **Records never run ahead of the cache.** Sessions use one cache directory, which is not there
in the beginning, one after the other, each with any configuration; any of them may be killed at any
time, and what else happens to the disk leaves the records alone. Whatever the sessions come to,
where values of all axes are recorded, the record of each source that can be read is of the
generation of these values, be there a rewritten source beside it or not. -/
theorem generation_eq (h : Reachable l session d) {s : AxisSnapshot}
    (recorded : ∀ a, d.axisAt? l a = some (s.values a)) {source : Path} {body : Bytes}
    {r : EntryRecord} (there : d.get? (Disk.recordAt l source) = some (.file body))
    (decoded : EntryRecord.decode? body = some r) : r.generation = s.generation :=
  h.invariant.consistent.inStep s recorded source body r there decoded

/-- **The disk when a session without patchers has resolved a source.** -/
def keptDisk : Disk := (World.plainResolver.serve World.pair.disk (.resolve ⟨"/s/a.php"⟩)).2.2

/-- **The configuration of a session that patches more.** -/
def widerConfig : Configuration :=
  { World.plainResolver.config with includePaths := [⟨"/s"⟩, ⟨"/t"⟩] }

/-- **The disk when that session has been killed** after it has opened the cache, and before it has
cleared it. -/
def killedDisk : Disk :=
  (keptDisk.applyAll (((Resolver.of widerConfig).changes keptDisk .lock).take 4)).2

/-- **What the session before has kept is there, with the values that it has recorded.** -/
theorem generation_eq_killed :
    killedDisk.get? (Disk.sourceAt ["c"] ⟨"/s/a.php"⟩) = some (.file (bytesOf "old"))
      ∧ ∃ body r, killedDisk.get? (Disk.recordAt ["c"] ⟨"/s/a.php"⟩) = some (.file body)
        ∧ EntryRecord.decode? body = some r
        ∧ r.generation = (AxisSnapshot.of World.plainResolver.config).generation := by
  have nothing (ns : List String) : World.pair.disk.get? (["c"] ++ ns) = none :=
    Disk.get?_of_entries (l := []) (by decide) ns
  have isOver : World.plainResolver.Over ["c"] World.pair.disk (.resolve ⟨"/s/a.php"⟩) := by
    intro _ root dir
    cases dir
    exact World.houses_pair
  have ended : Reachable ["c"] none keptDisk :=
    .ends (.serves _ isOver (.begins World.plainResolver.config (.absent nothing)))
  have led : keptDisk.LeadsTo ⟨"/c"⟩ ["c"] := by decide +kernel
  have isOver' : (Resolver.of widerConfig).Over ["c"] keptDisk .lock := by
    intro _ root dir
    cases dir
    exact led.houses (fun _ _ => Iff.rfl) rfl
  have killed : Reachable ["c"] none killedDisk :=
    .killed .lock isOver' (.take keptDisk _ 4) (.begins widerConfig ended)
  obtain ⟨kept, recorded, readable⟩ :
      killedDisk.get? (Disk.sourceAt ["c"] ⟨"/s/a.php"⟩) = some (.file (bytesOf "old"))
        ∧ (∀ a ∈ Axis.all, killedDisk.axisAt? ["c"] a
          = some ((AxisSnapshot.of World.plainResolver.config).values a))
        ∧ (match killedDisk.get? (Disk.recordAt ["c"] ⟨"/s/a.php"⟩) with
          | some (.file body) => (EntryRecord.decode? body).isSome
          | _ => false) = true := by
    decide +kernel
  refine ⟨kept, ?_⟩
  split at readable
  · rename_i body there
    obtain ⟨r, decoded⟩ := Option.isSome_iff_exists.1 readable
    exact ⟨body, r, there, decoded,
      generation_eq killed (fun a => recorded a a.mem_all) there decoded⟩
  · cases readable

end Reachable

end Seams
