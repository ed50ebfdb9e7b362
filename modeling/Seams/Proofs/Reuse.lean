import Mathlib.Data.List.Basic
import Mathlib.Tactic.Common
import Seams.Proofs.Coherence
import Seams.Proofs.Entries

/-! # Reuse of what a cache keeps
What has been loaded for a file in scope is loaded from the cache from then on, by the resolver that
has loaded it and by one that is set up in the same way later, as long as the file is the same, the
cache is left to resolvers with the same axes, and nobody clears it. A resolver that is locked later
takes the scope from the disk as it is then, so the file may be out of scope for it.
Main definitions:
* **`World.fileRead`** — the file that a path names for a resolver;
* **`World.KeptAt`** — the cache is left to resolvers with the axes of one of them;
* **`World.QuietAt`** — nothing is cleared, and the file is the same;
* **`Resolver.Answers`** — a resolver answers without any work. -/

namespace Seams

/-! ## Calls -/

/-- **Who is called** in an event. -/
def Event.caller {ι : Type} : Event ι → Option ι
  | .lock i | .resolve i _ | .clear i => some i
  | .outside _ => none

/-- **What an event does to a disk** once the resolver that is called is in use. -/
def Event.effect {ι : Type} (a : Active) (d : Disk) : Event ι → Disk
  | .lock _ => d
  | .resolve _ p => (a.resolve d p).2.2
  | .clear _ => (a.cache.clear d).2
  | .outside d' => d'

/-- **What a call does to the disk is beside the settings** of the cache. -/
theorem Event.effect_performs {ι : Type} {e : Event ι} {i : ι} (call : e.caller = some i)
    (a : Active) (l : Location) (d : Disk) :
    Disk.Performs (fun change => change.Touches a.cache.root l (Disk.KeptAt l [])
      ∧ change.OffList a.cache.root) d (e.effect a d) := by
  cases e with
  | outside d' => cases call
  | lock i => exact .done d
  | clear i =>
      rw [effect, RewriteCache.clear_snd]
      exact .applyAll d fun change mem =>
        ⟨a.cache.clearChanges_touches l [] change mem, a.cache.clearChanges_offList change mem⟩
  | resolve i p =>
      rcases a.resolve_disk d p with same | ⟨raw, output, -, -, written⟩
      · rw [effect, same]
        exact .done d
      · rw [effect, written, RewriteCache.write, Disk.InOrder.perform_snd]
        exact .applyAll d fun change mem =>
          ⟨a.cache.storeChanges_touches l _ _ _ [] change mem,
            a.cache.storeChanges_offList _ _ _ change mem⟩

namespace Resolver

variable {r r' r₀ : Resolver} {d d' : Disk} {root : Path} {l : Location} {a : Active}

/-- **A resolver that has been locked could be used.** -/
theorem checkConfig_of_activate (h : r.activate d = (.ok (a, r'), d'))
    (dir : r.config.cacheDir = some root) : r.checkConfig = .ok root := by
  unfold activate at h
  split at h
  · cases h
  · rename_i dir' checked
    rw [checked, ← Option.some.inj (dir.symm.trans (checkConfig_ok checked))]

/-- **The axes of a resolver in use are those with which it was set up.** -/
theorem BuiltFrom.snapshot {names : List String} (built : r.BuiltFrom r₀ root names) :
    AxisSnapshot.of r.config = AxisSnapshot.of r₀.config := by
  rw [built.1]
  rfl

/-- **Locking a resolver keeps a cache fitted** to its axes, whether it succeeds or not. -/
theorem activate_fitted (fitted : (r.cacheIn root).Fitted l (AxisSnapshot.of r.config) d)
    (dir : r.config.cacheDir = some root) :
    (r.cacheIn root).Fitted l (AxisSnapshot.of r.config) (r.activate d).2 := by
  have opening := Disk.Performs.applyAll d fun change mem =>
    And.intro ((r.cacheIn root).openChanges_touches l (Disk.KeptAt l []) change mem)
      ((r.cacheIn root).openChanges_offList change mem)
  have opened := fitted.performs opening
  rcases activate_snd dir d with same | same | ⟨o, opens, same⟩
  · rwa [same]
  · rwa [same]
  · -- The cache is opened, and then no axis has changed.
    have isOpen := RewriteCache.isOpen_of_opened (c := r.cacheIn root) fitted.houses fitted.plain
      opens
    rw [opens] at opened
    rw [same, RewriteCache.reconcileChanges_of_unchanged (opened.changedAxes isOpen.there),
      Disk.applyAll]
    exact opened

/-- **A resolver answers without any work**: it loads something for a path, runs no pipeline, and
leaves the disk as it is. -/
def Answers (r : Resolver) (d : Disk) (p : Path) (res : Resolved) : Prop :=
  ∃ r', r.resolve d p = (.ok res, r', d) ∧ r'.counts.pipelineRuns = r.counts.pipelineRuns

/-- **A resolver in use answers as its active state does.** -/
theorem answers_of_active {p : Path} {res : Resolved} {a' : Active} (active : r.active = some a)
    (resolved : a.resolve d p = (.ok res, a', d))
    (runs : a'.counts.pipelineRuns = a.counts.pipelineRuns) : r.Answers d p res := by
  refine ⟨{ r with active := some a' }, ?_, ?_⟩
  · rw [resolve, activeState, active]
    simp only [resolved]
  · rw [counts, counts, active]
    exact runs

end Resolver

namespace World

variable {ι : Type} {w : World ι}

section

variable [DecidableEq ι]

/-- **What a call does**: the resolver is taken into use, and then it only counts, and the disk is
changed as it says. -/
theorem step_call {e : Event ι} {i : ι} (call : e.caller = some i) :
    match (w.resolvers i).activeState w.disk with
    | (.error _, d) => w.step e = w.update i (w.resolvers i) d
    | (.ok (a, r), d) => r.active = some a → ∃ a', a'.cache = a.cache ∧ a'.pipeline = a.pipeline
      ∧ a'.scope = a.scope ∧ w.step e = w.update i { r with active := some a' } (e.effect a d) := by
  cases e with
  | outside d => cases call
  | lock j =>
      obtain rfl := Option.some.inj call
      rw [step, Resolver.lock]
      split
      · rename_i failed
        simp only [failed]
      · rename_i a r d used
        intro active
        refine ⟨a, rfl, rfl, rfl, ?_⟩
        simp only [used, Event.effect]
        rw [← active]
  | resolve j p =>
      obtain rfl := Option.some.inj call
      rw [step, Resolver.resolve]
      split
      · rename_i failed
        simp only [failed]
      · rename_i a r d used
        intro _
        obtain ⟨cache, pipeline, scope⟩ := a.resolve_state d p
        refine ⟨_, cache, pipeline, scope, ?_⟩
        simp only [used, Event.effect]
  | clear j =>
      obtain rfl := Option.some.inj call
      rw [step, Resolver.clearCache]
      split
      · rename_i failed
        simp only [failed]
      · rename_i a r d used
        intro active
        refine ⟨a, rfl, rfl, rfl, ?_⟩
        simp only [used, Event.effect]
        rw [← active]

/-- **A condition on what happens holds throughout a run.** -/
def Throughout (condition : World ι → Event ι → Prop) : World ι → List (Event ι) → Prop
  | _, [] => True
  | w, e :: es => condition w e ∧ Throughout condition (w.step e) es

end

/-! ## Caches that are left to resolvers with the same axes -/

/-- **A cache is left to resolvers with the axes of one of them** in an event, once that one is in
use. Others are locked with the same axes only, and changes from outside leave the files of the
cache as they are and its path leading there. Before, they need only bring no links into it. -/
def KeptAt (root : Path) (l : Location) (i : ι) (w : World ι) : Event ι → Prop
  | .outside d =>
    if (w.resolvers i).active.isSome then
      d.LeadsTo root l ∧ ∀ ns, RewriteCache.Owned ns → d.get? (l ++ ns) = w.disk.get? (l ++ ns)
    else d.Houses root l ∧ d.PlainIn l
  | .lock j | .resolve j _ | .clear j =>
    (w.resolvers i).active.isSome → (w.resolvers j).active = none →
      AxisSnapshot.of (w.resolvers j).config = AxisSnapshot.of (w.resolvers i).config

/-- **A resolver that is locked in a call has the same axes**, if the other one is in use. -/
theorem KeptAt.same_axes {root : Path} {l : Location} {i j : ι} {e : Event ι}
    (kept : w.KeptAt root l i e) (call : e.caller = some j)
    (inUse : (w.resolvers i).active.isSome) (unused : (w.resolvers j).active = none) :
    AxisSnapshot.of (w.resolvers j).config = AxisSnapshot.of (w.resolvers i).config := by
  cases e with
  | outside d => cases call
  | lock k =>
      cases call
      exact kept inUse unused
  | resolve k p =>
      cases call
      exact kept inUse unused
  | clear k =>
      cases call
      exact kept inUse unused

/-- **A resolver is ready**: once it is in use, its cache fits it. All resolvers are as they are set
up or in use so. -/
structure Ready (root : Path) (l : Location) (setup : ι → Resolver) (i : ι) (w : World ι) :
    Prop where
  /-- The resolvers are as they are set up or in use so. -/
  built : ∀ j, w.resolvers j = setup j ∨ ∃ names, (w.resolvers j).BuiltFrom (setup j) root names
  /-- The path of the cache leads to one place. -/
  houses : w.disk.Houses root l
  /-- There are no links in the directories. -/
  plain : w.disk.PlainIn l
  /-- The cache fits the resolver once it is in use. -/
  fitted : (w.resolvers i).active.isSome → (setup i).checkConfig = .ok root
    ∧ ((setup i).cacheIn root).Fitted l (AxisSnapshot.of (setup i).config) w.disk

namespace Ready

variable {root : Path} {l : Location} {setup : ι → Resolver} {i : ι}

/-- **The axes of a resolver are those with which it was set up.** -/
theorem snapshot (ready : Ready root l setup i w) (j : ι) :
    AxisSnapshot.of (w.resolvers j).config = AxisSnapshot.of (setup j).config := by
  rcases ready.built j with eq | ⟨names, built⟩
  · rw [eq]
  · exact built.snapshot

/-- **A resolver that is not in use is as it was set up.** -/
theorem unused (ready : Ready root l setup i w) {j : ι} (unused : (w.resolvers j).active = none) :
    w.resolvers j = setup j := by
  rcases ready.built j with eq | ⟨names, -, a, active, -⟩
  · exact eq
  · rw [unused] at active
    cases active

/-- **A resolver in use uses the cache with which it was set up.** -/
theorem cache_eq (ready : Ready root l setup i w) (up : SetUp root setup) {j : ι} {a : Active}
    (active : (w.resolvers j).active = some a) : a.cache = (setup j).cacheIn root := by
  rcases ready.built j with eq | ⟨names, -, a', active', cache, -⟩
  · rw [eq, up.fresh j] at active
    cases active
  · rw [active] at active'
    cases active'
    exact cache

variable [DecidableEq ι]

/-- **A call that is made of what stays beside the settings leaves a resolver ready.** -/
theorem update (ready : Ready root l setup i w) {j : ι} {r : Resolver} {d : Disk}
    (built : r = setup j ∨ ∃ names, r.BuiltFrom (setup j) root names)
    (used : r.active.isSome → (w.resolvers j).active.isSome)
    (run : Disk.Performs (fun change => change.Touches root l (Disk.KeptAt l [])
      ∧ change.OffList root) w.disk d) : Ready root l setup i (w.update j r d) := by
  obtain ⟨steady, -⟩ := (run.mono fun _ => And.left).spares ready.houses ready.plain
  refine ⟨fun k => ?_, steady.houses ready.houses, steady.plainIn ready.plain, fun inUse => ?_⟩
  · -- Of the resolvers, only the one that is called may have changed.
    by_cases h : k = j
    · rw [h, resolvers_update_self]
      exact built
    · rw [resolvers_update_of_ne w h]
      exact ready.built k
  · have before : (w.resolvers i).active.isSome := by
      by_cases h : i = j
      · rw [h, resolvers_update_self] at inUse
        rw [h]
        exact used inUse
      · rwa [resolvers_update_of_ne w h] at inUse
    obtain ⟨checked, fitted⟩ := ready.fitted before
    exact ⟨checked, fitted.performs run⟩

/-- **Taking a resolver into use leaves a resolver ready**, if it has the same axes or the other one
is not in use. -/
theorem activeState (ready : Ready root l setup i w) (up : SetUp root setup) {j : ι}
    (same : (w.resolvers i).active.isSome → (w.resolvers j).active = none →
      AxisSnapshot.of (w.resolvers j).config = AxisSnapshot.of (w.resolvers i).config) :
    match (w.resolvers j).activeState w.disk with
    | (.error _, d) => Ready root l setup i (w.update j (w.resolvers j) d)
    | (.ok (a, r), d) => r.active = some a ∧ Ready root l setup i (w.update j r d) := by
  unfold Resolver.activeState
  cases active : (w.resolvers j).active with
  | some a =>
      refine ⟨active, ?_⟩
      rwa [update_eq_self]
  | none =>
      have eq := ready.unused active
      have dir : (w.resolvers j).config.cacheDir = some root := by rw [eq, up.dir j]
      have run := Resolver.activate_performs dir w.disk
        (RewriteCache.openChanges_touches _ l (Disk.KeptAt l Axis.all))
        fun opened _ change mem => Disk.touches_mono (fun _ => Disk.KeptAt.all)
          (RewriteCache.reconcileChanges_touches _ l opened _ change mem)
      obtain ⟨steady, -⟩ := run.spares ready.houses ready.plain
      have houses := steady.houses ready.houses
      have plain := steady.plainIn ready.plain
      -- The cache fits the other resolver still, for it is locked with the same axes.
      have fitted (inUse : (w.resolvers i).active.isSome) : (setup i).checkConfig = .ok root
          ∧ ((setup i).cacheIn root).Fitted l (AxisSnapshot.of (setup i).config)
            ((w.resolvers j).activate w.disk).2 := by
        obtain ⟨checked, fitted⟩ := ready.fitted inUse
        have axes := (same inUse active).trans (ready.snapshot i)
        have cache : (w.resolvers j).cacheIn root = (setup i).cacheIn root := by
          rw [Resolver.cacheIn, axes]
          rfl
        rw [← cache, ← axes] at fitted ⊢
        exact ⟨checked, Resolver.activate_fitted fitted dir⟩
      rcases activated : (w.resolvers j).activate w.disk with ⟨result, d⟩
      rw [activated] at houses plain fitted
      have built (r : Resolver)
          (now : r = setup j ∨ ∃ names, r.BuiltFrom (setup j) root names) (k : ι) :
          (w.update j r d).resolvers k = setup k
            ∨ ∃ names, ((w.update j r d).resolvers k).BuiltFrom (setup k) root names := by
        by_cases h : k = j
        · rw [h, resolvers_update_self]
          exact now
        · rw [resolvers_update_of_ne w h]
          exact ready.built k
      cases result with
      | error e =>
          refine ⟨built _ (.inl eq), houses, plain, fun inUse => fitted ?_⟩
          by_cases h : i = j
          · rwa [h, resolvers_update_self, ← h] at inUse
          · rwa [resolvers_update_of_ne w h] at inUse
      | ok state =>
          obtain ⟨a, r⟩ := state
          obtain ⟨names, opened, act⟩ := Resolver.activates_of_ok dir activated
          refine ⟨act.active, built r ?_, houses, plain, fun inUse => ?_⟩
          · rw [eq] at act
            exact .inr ⟨names, act.config, a, act.active, act.cache, act.pipeline⟩
          · by_cases h : i = j
            · subst h
              have checked := Resolver.checkConfig_of_activate activated dir
              have fitted := act.fitted ready.houses ready.plain
              rw [eq] at checked fitted
              exact ⟨checked, fitted⟩
            · rw [resolvers_update_of_ne w h] at inUse
              exact fitted inUse

/-- **A change from outside leaves a resolver ready** as long as the cache is left alone. -/
theorem outside (ready : Ready root l setup i w) {d : Disk}
    (kept : w.KeptAt root l i (.outside d)) : Ready root l setup i (w.step (.outside d)) := by
  rw [KeptAt] at kept
  split at kept
  · rename_i inUse
    obtain ⟨checked, fitted⟩ := ready.fitted inUse
    have fitted' := fitted.of_same kept.1 kept.2
    exact ⟨ready.built, fitted'.houses, fitted'.plain, fun _ => ⟨checked, fitted'⟩⟩
  · rename_i unused
    exact ⟨ready.built, kept.1, kept.2, fun inUse => absurd inUse unused⟩

/-- **A step leaves a resolver ready** as long as the cache is left to resolvers with its axes. -/
theorem step (ready : Ready root l setup i w) (up : SetUp root setup) (e : Event ι)
    (kept : w.KeptAt root l i e) : Ready root l setup i (w.step e) := by
  cases called : e.caller with
  | none =>
      cases e with
      | outside d => exact ready.outside kept
      | lock j => cases called
      | resolve j p => cases called
      | clear j => cases called
  | some j =>
      have state := ready.activeState up (kept.same_axes called)
      have call := w.step_call called
      split at state <;> rename_i eq <;> rw [eq] at call
      · rw [call]
        exact state
      · rename_i a r d
        obtain ⟨active, ready'⟩ := state
        obtain ⟨a', cache, pipeline, -, after⟩ := call active
        have active' : ((w.update j r d).resolvers j).active = some a := by
          rw [resolvers_update_self, active]
        have root_eq : a.cache.root = root := by
          rw [ready'.cache_eq up active']
          rfl
        have run := Event.effect_performs called a l d
        rw [root_eq] at run
        rw [after, ← update_update w j r _ d]
        refine ready'.update ?_ (fun _ => by rw [active']; rfl) run
        rcases ready'.built j with eq | ⟨names, config, a₀, active₀, cache₀, pipeline₀⟩
        · rw [eq, up.fresh j] at active'
          cases active'
        · rw [active'] at active₀
          cases active₀
          rw [resolvers_update_self] at config
          exact .inr ⟨names, config, a', rfl, cache.trans cache₀, pipeline.trans pipeline₀⟩

/-- **A run leaves a resolver ready** as long as the cache is left to resolvers with its axes. -/
theorem run (ready : Ready root l setup i w) (up : SetUp root setup) {events : List (Event ι)}
    (kept : w.Throughout (KeptAt root l i) events) : Ready root l setup i (w.run events) := by
  induction events generalizing w with
  | nil => exact ready
  | cons e es ih => exact ih (ready.step up e kept.1) kept.2

end Ready

/-! ## Files that stay the same -/

/-- **The file that a path names for a resolver**: its place, and the content that is read there. -/
def fileRead (w : World ι) (i : ι) (p : Path) : Option (Location × Bytes) :=
  match (w.resolvers i).activeState w.disk with
  | (.ok _, d) => (d.read (d.normalize p).path).toOption.map fun raw => (d.normalize p, raw)
  | (.error _, _) => none

/-- **The file is read on the disk as it is** once the resolver is in use. -/
theorem fileRead_of_active {i : ι} {p : Path} {a : Active} {place : Location} {raw : Bytes}
    (active : (w.resolvers i).active = some a) (file : w.fileRead i p = some (place, raw)) :
    w.disk.normalize p = place ∧ w.disk.read place.path = .ok raw := by
  rw [fileRead, Resolver.activeState, active] at file
  obtain ⟨_, read, eq⟩ := Option.map_eq_some_iff.1 file
  cases eq
  exact ⟨rfl, ok_of_toOption read⟩

/-- **A rewritten source is ready for a resolver**: it is in use with the file in its scope, and its
cache keeps what was made of the content. -/
structure Warm (root : Path) (l : Location) (setup : ι → Resolver) (i : ι) (place : Location)
    (raw rewritten : Bytes) (w : World ι) : Prop extends Ready root l setup i w where
  /-- The file is in the scope of the resolver, which is in use. -/
  inUse : ∃ a, (w.resolvers i).active = some a ∧ a.scope.covers place = true
  /-- The cache keeps what was made of the content. -/
  keeps : ((setup i).cacheIn root).Keeps l place.path (Fingerprint.of raw) rewritten w.disk

namespace Warm

variable {root : Path} {l place : Location} {setup : ι → Resolver} {i : ι} {raw rewritten : Bytes}
  {p : Path}

/-- **The cache fits.** -/
theorem fits (warm : Warm root l setup i place raw rewritten w) :
    (setup i).checkConfig = .ok root
      ∧ ((setup i).cacheIn root).Fitted l (AxisSnapshot.of (setup i).config) w.disk := by
  obtain ⟨a, active, -⟩ := warm.inUse
  exact warm.fitted (by rw [active]; rfl)

/-- **Resolvers with the same axes use the same cache.** -/
theorem cacheIn_eq (warm : Warm root l setup i place raw rewritten w) {j : ι}
    (same : AxisSnapshot.of (w.resolvers j).config = AxisSnapshot.of (w.resolvers i).config) :
    (setup j).cacheIn root = (setup i).cacheIn root := by
  rw [warm.snapshot, warm.snapshot] at same
  rw [Resolver.cacheIn, same]
  rfl

/-- **Taking a resolver with the same axes into use changes nothing.** -/
theorem activeState_snd (warm : Warm root l setup i place raw rewritten w) (up : SetUp root setup)
    {j : ι} (same : (w.resolvers j).active = none →
      AxisSnapshot.of (w.resolvers j).config = AxisSnapshot.of (w.resolvers i).config) :
    ((w.resolvers j).activeState w.disk).2 = w.disk := by
  unfold Resolver.activeState
  cases active : (w.resolvers j).active with
  | some a => rfl
  | none =>
      have cache := warm.cacheIn_eq (same active)
      have axes := (warm.snapshot j).symm.trans ((same active).trans (warm.snapshot i))
      have eq := warm.unused active
      obtain ⟨-, fitted⟩ := warm.fits
      rw [← cache, ← axes, ← eq] at fitted
      have isOpen := warm.keeps.isOpen
      rw [← cache, ← eq] at isOpen
      exact Resolver.activate_of_fitted fitted isOpen (by rw [eq, up.dir j])

/-- **What is kept stays when a resolver resolves something**, unless that is the same file and the
resolver has other axes. -/
theorem resolve_keeps (warm : Warm root l setup i place raw rewritten w)
    (place_eq : w.disk.normalize p = place) (read : w.disk.read place.path = .ok raw) {j : ι}
    {a : Active}
    (cache : a.cache = (setup j).cacheIn root) {q : Path}
    (same : w.disk.normalize q = place →
      AxisSnapshot.of (w.resolvers j).config = AxisSnapshot.of (w.resolvers i).config) :
    ((setup i).cacheIn root).Keeps l place.path (Fingerprint.of raw) rewritten
      (a.resolve w.disk q).2.2 := by
  have keeps := warm.keeps
  by_cases here : w.disk.normalize q = place
  · -- The same file is loaded from the cache, or as it is.
    rw [← warm.cacheIn_eq (same here), ← cache] at keeps ⊢
    cases covers : a.scope.covers place with
    | true =>
        rw [Active.resolve_of_keeps here read covers keeps]
        exact keeps
    | false =>
        rw [Active.resolve_of_passed here read covers]
        exact keeps
  · rcases a.resolve_disk w.disk q with unchanged | ⟨raw', output, read', -, written⟩
    · rw [unchanged]
      exact keeps
    · -- Another file has other names.
      have other : place.path.names ≠ (w.disk.normalize q).path.names := by
        subst place_eq
        rw [Disk.names_path fun _ => Disk.isName_of_mem_normalize,
          Disk.names_path fun _ => Disk.isName_of_mem_normalize]
        exact fun eq => here eq.symm
      rw [written, RewriteCache.write, Disk.InOrder.perform_snd]
      refine keeps.performs (.applyAll w.disk fun change mem => ?_)
      have beside := a.cache.storeChanges_beside other _ _ change mem
      rw [cache] at beside
      exact beside

/-- **What a resolver answers once a rewritten source is ready for it**, and what another one that
is set up in the same way does. -/
theorem answers (warm : Warm root l setup i place raw rewritten w) (up : SetUp root setup)
    (file : w.fileRead i p = some (place, raw)) :
    (w.resolvers i).Answers w.disk p ⟨p, rewritten, .cacheHit⟩
      ∧ ((setup i).isLocked = false → ∃ r, (setup i).lock w.disk = (.ok (), r, w.disk)
        ∧ r.changedAxes = []
        ∧ r.Answers w.disk p
          (if (Scope.of w.disk (setup i).config.includePaths
              (setup i).config.excludePaths).covers place
            then ⟨p, rewritten, .cacheHit⟩ else ⟨p, raw, .outOfScope⟩)) := by
  obtain ⟨a, active, covers⟩ := warm.inUse
  obtain ⟨place_eq, read⟩ := fileRead_of_active active file
  have keeps := warm.keeps
  obtain ⟨checked, fitted⟩ := warm.fits
  refine ⟨?_, fun unlocked => ?_⟩
  · rw [← warm.cache_eq up active] at keeps
    exact Resolver.answers_of_active active (Active.resolve_of_keeps place_eq read covers keeps) rfl
  · obtain ⟨b, r, activated, active', unchanged, cache, scope⟩ :=
      Resolver.activate_ok_of_fitted fitted keeps.isOpen checked unlocked
    refine ⟨r, ?_, ?_, ?_⟩
    · rw [Resolver.lock, Resolver.activeState, up.fresh i]
      simp only [activated]
    · rw [Resolver.changedAxes, active']
      exact unchanged
    · rw [← scope]
      rw [← cache] at keeps
      split
      · rename_i inScope
        exact Resolver.answers_of_active active'
          (Active.resolve_of_keeps place_eq read inScope keeps) rfl
      · rename_i passes
        exact Resolver.answers_of_active active'
          (Active.resolve_of_passed place_eq read (Bool.eq_false_iff.2 passes)) rfl

end Warm

variable [DecidableEq ι]

/-- **Nothing is cleared in an event, and a path names the same file afterwards.** The file is
resolved only by resolvers with the axes of the one for which it does. -/
def QuietAt (i : ι) (p : Path) (place : Location) (raw : Bytes) (w : World ι) (e : Event ι) :
    Prop :=
  (w.step e).fileRead i p = some (place, raw) ∧
    match e with
    | .clear _ => False
    | .resolve j q => w.disk.normalize q = place →
      AxisSnapshot.of (w.resolvers j).config = AxisSnapshot.of (w.resolvers i).config
    | _ => True

section

variable {root : Path} {l place : Location} {setup : ι → Resolver} {i : ι} {raw rewritten : Bytes}
  {p : Path}

/-- **A rewritten source stays ready in a step** as long as the cache is left to resolvers with the
same axes, nothing is cleared and the file is the same. -/
theorem Warm.step (warm : Warm root l setup i place raw rewritten w) (up : SetUp root setup)
    (file : w.fileRead i p = some (place, raw)) {e : Event ι} (kept : w.KeptAt root l i e)
    (quiet : w.QuietAt i p place raw e) : Warm root l setup i place raw rewritten (w.step e) := by
  have ready := warm.toReady.step up e kept
  obtain ⟨a₀, active₀, covers⟩ := warm.inUse
  obtain ⟨place_eq, read⟩ := fileRead_of_active active₀ file
  have inUse : (w.resolvers i).active.isSome := by rw [active₀]; rfl
  cases called : e.caller with
  | none =>
      cases e with
      | outside d =>
          rw [KeptAt, if_pos inUse] at kept
          exact ⟨ready, ⟨a₀, active₀, covers⟩, warm.keeps.of_same kept.1 kept.2⟩
      | lock j => cases called
      | resolve j q => cases called
      | clear j => cases called
  | some j =>
      have unchanged := warm.activeState_snd up (kept.same_axes called inUse)
      have state := warm.activeState up (kept.same_axes called)
      have call := w.step_call called
      rcases eq : (w.resolvers j).activeState w.disk with ⟨error | ⟨a, r⟩, d⟩
      -- Taking a resolver into use changes nothing, whether it succeeds or not.
      all_goals
        rw [eq] at unchanged state call
        obtain rfl : d = w.disk := unchanged
      · have same : w.step e = w := by
          rw [show w.step e = _ from call, update_eq_self]
        rw [same]
        exact warm
      · obtain ⟨active, ready'⟩ := state
        obtain ⟨a', -, -, scope, after⟩ := call active
        refine ⟨ready, ?_, ?_⟩
        · rw [after]
          by_cases same : i = j
          · subst same
            rw [Resolver.activeState, active₀] at eq
            cases eq
            exact ⟨a', by rw [resolvers_update_self], by rw [scope, covers]⟩
          · rw [resolvers_update_of_ne w same]
            exact ⟨a₀, active₀, covers⟩
        · rw [after, update_disk]
          cases e with
          | outside d => cases called
          | lock k => exact warm.keeps
          | clear k => exact quiet.2.elim
          | resolve k q =>
              cases called
              exact warm.resolve_keeps place_eq read
                (ready'.cache_eq up (by rw [resolvers_update_self, active])) quiet.2

/-- **A rewritten source stays ready in a run.** -/
theorem Warm.run (warm : Warm root l setup i place raw rewritten w) (up : SetUp root setup)
    (file : w.fileRead i p = some (place, raw)) {events : List (Event ι)}
    (kept : w.Throughout (KeptAt root l i) events)
    (quiet : w.Throughout (QuietAt i p place raw) events) :
    Warm root l setup i place raw rewritten (w.run events)
      ∧ (w.run events).fileRead i p = some (place, raw) := by
  induction events generalizing w with
  | nil => exact ⟨warm, file⟩
  | cons e es ih => exact ih (warm.step up file kept.1 quiet.1) quiet.1.1 kept.2 quiet.2

/-- **Once a file in scope has been resolved, its rewritten source is ready.** -/
theorem Ready.resolved (ready : Ready root l setup i w) (up : SetUp root setup)
    (kept : w.KeptAt root l i (.resolve i p)) (file : w.fileRead i p = some (place, raw))
    (short : raw.size < UInt64.size) {res : Resolved}
    (loaded : ((w.resolvers i).resolve w.disk p).1 = .ok res) (inScope : res.origin ≠ .outOfScope) :
    Warm root l setup i place raw res.bytes (w.step (.resolve i p)) := by
  have ready' := ready.step up _ kept
  have state := ready.activeState up (j := i) (kept.same_axes rfl)
  rw [fileRead] at file
  rw [Resolver.resolve] at loaded
  rcases eq : (w.resolvers i).activeState w.disk with ⟨error | ⟨a, r⟩, d⟩
  · rw [eq] at loaded
    cases loaded
  rw [eq] at state file loaded
  obtain ⟨active, opened⟩ := state
  obtain ⟨_, read, eq'⟩ := Option.map_eq_some_iff.1 file
  cases eq'
  have cache := opened.cache_eq up (j := i) (a := a) (by rw [resolvers_update_self, active])
  have root_eq : a.cache.root = root := by rw [cache]; rfl
  rcases resolved : a.resolve d p with ⟨result, a', d'⟩
  simp only [resolved] at loaded
  subst loaded
  have house : d.Houses a.cache.root l := by rw [root_eq]; exact opened.houses
  obtain ⟨covers, keeps⟩ := Active.keeps_of_resolve resolved inScope rfl (ok_of_toOption read) house
    opened.plain short
  obtain ⟨-, -, scope⟩ := a.resolve_state d p
  rw [resolved] at scope
  have after : w.step (.resolve i p) = w.update i { r with active := some a' } d' := by
    rw [World.step, Resolver.resolve, eq]
    simp only [resolved]
  refine ⟨ready', ⟨a', by rw [after, resolvers_update_self], by rw [scope, covers]⟩, ?_⟩
  rw [after, update_disk, ← cache]
  exact keeps

/-- **A condition holds throughout a run in two parts** if it does throughout both. -/
theorem throughout_append {condition : World ι → Event ι → Prop} {events more : List (Event ι)} :
    w.Throughout condition (events ++ more)
      ↔ w.Throughout condition events ∧ (w.run events).Throughout condition more := by
  induction events generalizing w with
  | nil => exact (and_iff_right trivial).symm
  | cons e es ih =>
      rw [List.cons_append, Throughout, Throughout, ih, and_assoc]
      rfl

end

/-- **What has been loaded for a file in scope is loaded from the cache from then on.** Resolvers
use one cache, which has no links in its directories. Once one of them is in use, others are locked
with the same axes only, and nobody else changes the cache. After that one has loaded a file in
scope, nothing is cleared, and the path names the same file. Then it loads the same from the cache,
without running its pipeline. Another one that is set up in the same way finds no axis changed when
it is locked; it loads the same from the cache as well, if the file is in the scope that it takes
from the disk as it is then, and loads the file as it is if not. -/
theorem resolve_reuses {root : Path} {l place : Location} {i : ι} {p : Path} {raw : Bytes}
    {res : Resolved} (up : SetUp root w.resolvers) (houses : w.disk.Houses root l)
    (plain : w.disk.PlainIn l) {before between : List (Event ι)}
    (kept : w.Throughout (KeptAt root l i) (before ++ .resolve i p :: between))
    (loaded : (((w.run before).resolvers i).resolve (w.run before).disk p).1 = .ok res)
    (inScope : res.origin ≠ .outOfScope) (file : (w.run before).fileRead i p = some (place, raw))
    (short : raw.size < UInt64.size)
    (quiet : (w.run before).Throughout (QuietAt i p place raw) (.resolve i p :: between)) :
    ∃ now, now = w.run (before ++ .resolve i p :: between)
      ∧ (now.resolvers i).Answers now.disk p ⟨p, res.bytes, .cacheHit⟩
      ∧ ((w.resolvers i).isLocked = false →
        ∃ r, (w.resolvers i).lock now.disk = (.ok (), r, now.disk) ∧ r.changedAxes = []
          ∧ r.Answers now.disk p
            (if (Scope.of now.disk (w.resolvers i).config.includePaths
                (w.resolvers i).config.excludePaths).covers place
              then ⟨p, res.bytes, .cacheHit⟩ else ⟨p, raw, .outOfScope⟩)) := by
  have start : Ready root l w.resolvers i w := by
    refine ⟨fun _ => .inl rfl, houses, plain, fun inUse => ?_⟩
    rw [up.fresh i] at inUse
    cases inUse
  -- Up to the call for the file the cache comes to fit, and from there on what it keeps stays.
  obtain ⟨first, second, third⟩ := throughout_append.1 kept
  have warm := (start.run up first).resolved up second file short loaded inScope
  obtain ⟨warm', file'⟩ := warm.run up quiet.1.1 third quiet.2
  have now_eq : w.run (before ++ .resolve i p :: between)
      = ((w.run before).step (.resolve i p)).run between := by
    rw [run, List.foldl_append]
    rfl
  rw [← now_eq] at warm' file'
  exact ⟨_, rfl, warm'.answers up file'⟩

/-- **A source that one of the two has loaded is in the cache for both.** -/
theorem resolve_reuses_pair :
    ∃ now, now = pair.run ([] ++ [.resolve true ⟨"/s/a.php"⟩])
      ∧ (now.resolvers true).Answers now.disk ⟨"/s/a.php"⟩
        ⟨⟨"/s/a.php"⟩, bytesOf "old", .cacheHit⟩
      ∧ ∃ r, (pair.resolvers true).lock now.disk = (.ok (), r, now.disk) ∧ r.changedAxes = []
        ∧ r.Answers now.disk ⟨"/s/a.php"⟩ ⟨⟨"/s/a.php"⟩, bytesOf "old", .cacheHit⟩ := by
  obtain ⟨loaded, file, stays, covers⟩ :
      (((pair.run []).resolvers true).resolve (pair.run []).disk ⟨"/s/a.php"⟩).1.toOption
        = some ⟨⟨"/s/a.php"⟩, bytesOf "old", .unchanged⟩
      ∧ (pair.run []).fileRead true ⟨"/s/a.php"⟩ = some (["s", "a.php"], bytesOf "old")
      ∧ ((pair.run []).step (.resolve true ⟨"/s/a.php"⟩)).fileRead true ⟨"/s/a.php"⟩
        = some (["s", "a.php"], bytesOf "old")
      ∧ (Scope.of (pair.run ([] ++ [.resolve true ⟨"/s/a.php"⟩])).disk
        (pair.resolvers true).config.includePaths
        (pair.resolvers true).config.excludePaths).covers ["s", "a.php"] = true := by
    decide +kernel
  have kept : pair.Throughout (KeptAt ⟨"/c"⟩ ["c"] true) ([] ++ [.resolve true ⟨"/s/a.php"⟩]) :=
    ⟨fun _ _ => rfl, trivial⟩
  have quiet : (pair.run []).Throughout (QuietAt true ⟨"/s/a.php"⟩ ["s", "a.php"] (bytesOf "old"))
      [.resolve true ⟨"/s/a.php"⟩] :=
    ⟨⟨stays, fun _ => rfl⟩, trivial⟩
  obtain ⟨now, now_eq, again, other⟩ := resolve_reuses (i := true) (p := ⟨"/s/a.php"⟩)
    ⟨fun _ => rfl, fun _ => rfl⟩ houses_pair (Disk.plainIn_of_entries (by simp [pair]) _) kept
    (ok_of_toOption loaded) (by decide) file (by decide) quiet
  obtain ⟨r, locked, unchanged, answers⟩ := other rfl
  rw [← now_eq] at covers
  rw [if_pos covers] at answers
  exact ⟨now, now_eq, again, r, locked, unchanged, answers⟩

/-- **Where what is loaded in a run comes from**, one source after the other. -/
def origins : World ι → List (Event ι) → List (Option Origin)
  | _, [] => []
  | w, .resolve i p :: es =>
    (((w.resolvers i).resolve w.disk p).1.toOption.map (·.origin))
      :: origins (w.step (.resolve i p)) es
  | w, e :: es => origins (w.step e) es

/-- **Two resolvers that exclude what a link leads to**, on a way over the cache that is there only
once a source is kept. -/
def detour : World Bool :=
  ⟨fun _ => .of ⟨some ⟨"/c"⟩, [⟨"/s"⟩], [⟨"/c/src/s/../../../l"⟩], [], .empty, .empty, "", false,
    false⟩, pair.disk.put ["l"] (.link ⟨"/s"⟩)⟩

/-- **Two resolvers with records that are kept among the sources**, for the directory of the records
is a link. The name of one source is that of the record of the other one. -/
def mixed : World Bool :=
  let sources := pair.disk.put ["s", "a.php.json"] (.file (bytesOf "new"))
  let opened := World.run ⟨pair.resolvers, sources⟩ [.lock true]
  ⟨pair.resolvers, opened.disk.put ["c", "meta"] (.link ⟨"src"⟩)⟩

/-- **Two resolvers with the same axes**, where the cache of one is among the sources that the other
one keeps. -/
def nested : World Bool :=
  ⟨fun inner => .of ⟨some ⟨if inner then "/c/src" else "/c"⟩, [⟨"/src"⟩], [], [], .empty, .empty,
    "", false, false⟩, ⟨[(["src"], .directory), (["src", "a.php"], .file (bytesOf "old"))], []⟩⟩

/-- **What has been loaded is not always reused**. What is kept may bring the file out of scope for
a resolver that is locked later. Links in the directories of the cache may bring a source in the
place of the record of another one. A resolver with another cache may clear this one. -/
theorem not_reused :
    detour.origins [.resolve true ⟨"/s/a.php"⟩, .resolve true ⟨"/s/a.php"⟩,
        .resolve false ⟨"/s/a.php"⟩] = [some .unchanged, some .cacheHit, some .outOfScope]
      ∧ mixed.origins [.resolve true ⟨"/s/a.php"⟩, .resolve true ⟨"/s/a.php"⟩,
          .resolve true ⟨"/s/a.php.json"⟩, .resolve true ⟨"/s/a.php"⟩]
        = [some .unchanged, some .cacheHit, some .unchanged, some .unchanged]
      ∧ AxisSnapshot.of (nested.resolvers true).config
        = AxisSnapshot.of (nested.resolvers false).config
      ∧ nested.origins [.resolve false ⟨"/src/a.php"⟩, .resolve false ⟨"/src/a.php"⟩, .lock true,
          .resolve false ⟨"/src/a.php"⟩] = [some .unchanged, some .cacheHit, some .unchanged] := by
  refine ⟨?_, ?_, rfl, ?_⟩ <;> decide +kernel

end World

end Seams
