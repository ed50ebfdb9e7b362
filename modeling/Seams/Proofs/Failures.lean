import Mathlib.Data.List.Basic
import Mathlib.Tactic.Common
import Seams.Proofs.Locking

/-! # Locks that fail
A resolver is locked step by step: its settings are checked, its cache is opened, further names are
put on the blacklist of a copy of its configuration, the cache is made to fit, and only then are the
registered patchers taken away from it and the copy put in place. Every step that can fail comes
before every step that changes the resolver, so a resolver that cannot be locked stays as it is, and
once the cause is gone nothing tells it from one that has never failed.
Main definitions:
* **`Resolver.Stage`**, **`Resolver.Progress`** — how far the locking of a resolver has come;
* **`Resolver.Progress.advance`** — the next step, which changes the resolver in place;
* **`Resolver.Progress.Becomes`** — what comes of some steps. -/

namespace Seams

namespace Resolver

/-! ## Step by step -/

/-- **How far the locking of a resolver has come.** -/
inductive Stage where
  /-- Nothing has been done. -/
  | begun
  /-- The settings can be used. -/
  | checked (root : Path)
  /-- The cache is open. -/
  | opened (cache : RewriteCache)
  /-- Some names are still to be put on the blacklist of a copy of the configuration. -/
  | merging (cache : RewriteCache) (copy : Configuration) (names : List String)
  /-- The cache fits, some patchers are picked, and others are still to be picked. -/
  | picking (cache : RewriteCache) (copy : Configuration) (changed : List Axis)
      (picked : List Patcher) (names : List String)
  /-- The resolver is in use. -/
  | inUse
  /-- The resolver cannot be locked. -/
  | failed (cause : ResolveError)

/-- **A stage before anything is taken from the resolver.** -/
def Stage.Early : Stage → Prop
  | .picking .. | .inUse => False
  | _ => True

/-- **A resolver that is being locked**, on a disk. -/
structure Progress where
  /-- The resolver, as it is by now. -/
  resolver : Resolver
  /-- The disk, as it is by now. -/
  disk : Disk
  /-- How far its locking has come. -/
  stage : Stage

namespace Progress

/-- **The settings are checked.** -/
def check (r : Resolver) (d : Disk) : Progress :=
  match r.checkConfig with
  | .error e => ⟨r, d, .failed (.config e)⟩
  | .ok root => ⟨r, d, .checked root⟩

/-- **The cache is opened.** -/
def openCache (r : Resolver) (d : Disk) (root : Path) : Progress :=
  match RewriteCache.create d root (AxisSnapshot.of r.config).generation with
  | (.error e, d) => ⟨r, d, .failed (.cache e)⟩
  | (.ok cache, d) => ⟨r, d, .opened cache⟩

/-- **The further names for the blacklist are read.** -/
def readList (r : Resolver) (d : Disk) (cache : RewriteCache) : Progress :=
  match cache.extraBlacklist d with
  | .error e => ⟨r, d, .failed (.cache e)⟩
  | .ok names => ⟨r, d, .merging cache r.config names⟩

/-- **A name is put on the blacklist of the copy**, or the cache is made to fit if there is none
left. -/
def merge (r : Resolver) (d : Disk) (cache : RewriteCache) (copy : Configuration) :
    List String → Progress
  | [] =>
    match cache.reconcile d (AxisSnapshot.of r.config) with
    | (.error e, d) => ⟨r, d, .failed (.cache e)⟩
    | (.ok changed, d) => ⟨r, d, .picking cache copy changed [] copy.patcherList⟩
  | name :: names =>
    match copy.addBlacklist name with
    | .error e => ⟨r, d, .failed (.config e)⟩
    | .ok copy => ⟨r, d, .merging cache copy names⟩

/-- **A patcher is picked**, and is no longer registered then; if there is none left to pick, the
copy is locked and put in place, and the resolver is in use. -/
def pick (r : Resolver) (d : Disk) (cache : RewriteCache) (copy : Configuration)
    (changed : List Axis) (picked : List Patcher) : List String → Progress
  | [] =>
    ⟨⟨copy.lock, r.registered, some
      { scope := Scope.of d copy.includePaths copy.excludePaths
        cache := cache
        pipeline := ⟨picked, copy.verifyOutput⟩
        changedAxes := changed
        counts := {} }⟩, d, .inUse⟩
  | name :: names =>
    match r.registered.find? (·.name == name) with
    | some p =>
      ⟨{ r with registered := r.registered.eraseP (·.name == name) }, d,
        .picking cache copy changed (picked ++ [p]) names⟩
    | none => ⟨r, d, .picking cache copy changed (picked ++ (builtIn? copy name).toList) names⟩

/-- **The next step of locking a resolver.** What has been done by the time a step fails is not
undone. -/
def advance (p : Progress) : Progress :=
  match p.stage with
  | .begun => check p.resolver p.disk
  | .checked root => openCache p.resolver p.disk root
  | .opened cache => readList p.resolver p.disk cache
  | .merging cache copy names => merge p.resolver p.disk cache copy names
  | .picking cache copy changed picked names =>
    pick p.resolver p.disk cache copy changed picked names
  | .inUse | .failed _ => p

/-- **What comes of some steps.** -/
inductive Becomes : Progress → Progress → Prop where
  /-- Nothing is done. -/
  | refl (p : Progress) : Becomes p p
  /-- A step, and then others. -/
  | step {p q : Progress} (rest : Becomes p.advance q) : Becomes p q

variable {p q q' : Progress} {r : Resolver} {d : Disk}

/-- **Some steps, and then others.** -/
theorem Becomes.trans (h : p.Becomes q) (h' : q.Becomes q') : p.Becomes q' := by
  induction h with
  | refl => exact h'
  | step rest ih => exact .step (ih h')

/-- **The names are put on the blacklist of the copy**, one after the other. -/
theorem becomes_of_merging (r : Resolver) (d : Disk) (cache : RewriteCache) (copy : Configuration)
    (names : List String) : Becomes ⟨r, d, .merging cache copy names⟩
      (match extendBlacklist copy names with
        | .error e => ⟨r, d, .failed (.config e)⟩
        | .ok copy => ⟨r, d, .merging cache copy []⟩) := by
  induction names generalizing copy with
  | nil =>
      rw [extendBlacklist]
      exact .refl _
  | cons name names ih =>
      refine .step ?_
      change Becomes (merge r d cache copy (name :: names)) _
      unfold merge
      dsimp only
      rw [extendBlacklist]
      cases copy.addBlacklist name with
      | error e => exact .refl _
      | ok copy => exact ih copy

/-- **The patchers are picked one after the other**, and then the resolver is in use with them. -/
theorem becomes_of_picking (r : Resolver) (d : Disk) (cache : RewriteCache) (copy : Configuration)
    (changed : List Axis) (picked : List Patcher) (names : List String) :
    Becomes ⟨r, d, .picking cache copy changed picked names⟩
      ⟨⟨copy.lock, unused r.registered names, some
        { scope := Scope.of d copy.includePaths copy.excludePaths
          cache := cache
          pipeline := ⟨picked ++ choose copy r.registered names, copy.verifyOutput⟩
          changedAxes := changed
          counts := {} }⟩, d, .inUse⟩ := by
  induction names generalizing r picked with
  | nil =>
      refine .step ?_
      rw [choose, List.append_nil]
      exact .refl _
  | cons name names ih =>
      refine .step ?_
      change Becomes (pick r d cache copy changed picked (name :: names)) _
      unfold pick
      dsimp only
      rw [choose, unused]
      cases found : r.registered.find? (·.name == name) with
      | some p =>
          have rest := ih { r with registered := r.registered.eraseP (·.name == name) }
            (picked ++ [p])
          rwa [List.append_assoc] at rest
      | none =>
          -- Nothing of that name is registered, so nothing is taken away.
          have kept : r.registered.eraseP (·.name == name) = r.registered :=
            List.eraseP_of_forall_not (List.find?_eq_none.1 found)
          have rest := ih r (picked ++ (builtIn? copy name).toList)
          rw [kept]
          rw [List.append_assoc] at rest
          cases built : builtIn? copy name with
          | some p =>
              rw [built] at rest
              exact rest
          | none =>
              rw [built] at rest
              exact rest

/-- **Locking a resolver step by step comes to what locking it at once comes to.** -/
theorem becomes_activate (r : Resolver) (d : Disk) : Becomes ⟨r, d, .begun⟩
    (match r.activate d with
      | (.error e, d) => ⟨r, d, .failed e⟩
      | (.ok (_, r), d) => ⟨r, d, .inUse⟩) := by
  refine .step ?_
  change Becomes (check r d) _
  unfold check activate
  cases r.checkConfig with
  | error e => exact .refl _
  | ok root =>
  refine .step ?_
  change Becomes (openCache r d root) _
  unfold openCache
  dsimp only
  rcases RewriteCache.create d root (AxisSnapshot.of r.config).generation with ⟨e | cache, d⟩
  · exact .refl _
  refine .step ?_
  change Becomes (readList r d cache) _
  unfold readList
  dsimp only
  cases cache.extraBlacklist d with
  | error e => exact .refl _
  | ok names =>
  refine (becomes_of_merging r d cache r.config names).trans ?_
  dsimp only
  cases extendBlacklist r.config names with
  | error e => exact .refl _
  | ok copy =>
  refine .step ?_
  change Becomes (merge r d cache copy []) _
  unfold merge
  dsimp only
  rcases cache.reconcile d (AxisSnapshot.of r.config) with ⟨e | changed, d⟩
  · exact .refl _
  · exact becomes_of_picking r d cache copy changed [] copy.patcherList

/-! ## Nothing is taken before a failure -/

/-- **A step at an early stage leaves the resolver as it is.** -/
theorem advance_resolver (early : p.stage.Early) : p.advance.resolver = p.resolver := by
  obtain ⟨r, d, stage⟩ := p
  cases stage with
  | begun =>
      change (check r d).resolver = r
      unfold check
      split <;> rfl
  | checked root =>
      change (openCache r d root).resolver = r
      unfold openCache
      split <;> rfl
  | opened cache =>
      change (readList r d cache).resolver = r
      unfold readList
      split <;> rfl
  | merging cache copy names =>
      change (merge r d cache copy names).resolver = r
      unfold merge
      split <;> split <;> rfl
  | failed e => rfl
  | picking => exact early.elim
  | inUse => exact early.elim

/-- **A late stage leads to late stages only**, so nothing fails any more. -/
theorem early_of_advance (early : p.advance.stage.Early) : p.stage.Early := by
  obtain ⟨r, d, stage⟩ := p
  cases stage with
  | picking cache copy changed picked names =>
      change (pick r d cache copy changed picked names).stage.Early at early
      unfold pick at early
      split at early
      · exact early
      · split at early <;> exact early
  | inUse => exact early
  | begun | checked | opened | merging | failed => trivial

/-- **A late stage leads to late stages only**, however many steps are made. -/
theorem Becomes.early (h : p.Becomes q) (early : q.stage.Early) : p.stage.Early := by
  induction h with
  | refl => exact early
  | step rest ih => exact early_of_advance (ih early)

/-- **As long as the stage is early, the resolver is as it was.** -/
theorem Becomes.resolver_eq (h : p.Becomes q) (early : q.stage.Early) :
    q.resolver = p.resolver := by
  induction h with
  | refl => rfl
  | step rest ih => rw [ih early, advance_resolver (early_of_advance (rest.early early))]

end Progress

variable {r r' : Resolver} {d d' : Disk} {a : Active} {e : ResolveError}

/-- **A resolver that cannot be taken into use is not in use.** -/
theorem active_of_failed (failed : r.activeState d = (.error e, d')) : r.active = none := by
  unfold activeState at failed
  split at failed
  · cases failed
  · assumption

/-- **A resolver that cannot be taken into use cannot be locked**, with the same error. -/
theorem activate_of_failed (failed : r.activeState d = (.error e, d')) :
    r.activate d = (.error e, d') := by
  rwa [activeState_of_unused (active_of_failed failed)] at failed

/-- **Where locking fails, the resolver is as it was at every stage** that is passed on the way. -/
theorem becomes_of_failed (failed : r.activeState d = (.error e, d')) :
    Progress.Becomes ⟨r, d, .begun⟩ ⟨r, d', .failed e⟩
      ∧ ∀ p : Progress, Progress.Becomes ⟨r, d, .begun⟩ p → p.Becomes ⟨r, d', .failed e⟩ →
        p.resolver = r := by
  have fails := Progress.becomes_activate r d
  rw [activate_of_failed failed] at fails
  exact ⟨fails, fun p reached rest => reached.resolver_eq (rest.early trivial)⟩

/-! ## Nothing tells a failure later on -/

/-- **A request that does not take a resolver into use does not look at the disk.** -/
theorem serve_resolver_of_not_uses {request : Request} (others : request.uses = false)
    (d d' : Disk) : (r.serve d request).2.1 = (r.serve d' request).2.1 := by
  cases request with
  | configure s =>
      rw [serve, serve]
      cases s.apply r.config <;> rfl
  | freeze => rfl
  | register p =>
      rw [serve, serve]
      cases r.register p <;> rfl
  | outside disk => rfl
  | lock => cases others
  | resolve p => cases others
  | clear => cases others

/-- **As long as a resolver is not in use, the requests that would have taken it into use have left
no trace**: it is as if they had not been made, on whatever disk. -/
theorem serveAll_of_unused (locked : r.LockedInUse) (requests : List Request) (d d' : Disk)
    (unused : (r.serveAll d requests).1.active = none) :
    (r.serveAll d' (requests.filter (!·.uses))).1 = (r.serveAll d requests).1 := by
  induction requests generalizing r d d' with
  | nil => rfl
  | cons request requests ih =>
      rw [serveAll_cons] at unused ⊢
      cases uses : request.uses with
      | true =>
          rw [List.filter_cons_of_neg (by simp [uses])]
          rcases state : r.activeState d with ⟨e | ⟨a, r'⟩, after⟩
          · rw [serve_of_failed uses state] at unused ⊢
            exact ih locked _ _ unused
          · -- What is in use stays in use.
            obtain ⟨-, isLocked⟩ := inUse_of_activeState locked state
            have inUse := (inUse_of_uses uses locked state).serveAll isLocked
              (r.serve d request).2.2 requests
            obtain ⟨n, active⟩ := inUse.active
            rw [active] at unused
            cases unused
      | false =>
          rw [List.filter_cons_of_pos (by simp [uses]), serveAll_cons,
            serve_resolver_of_not_uses uses d' d]
          exact ih (locked.serve d request) _ _ unused

/-- **What locking a resolver that fails does to the disk**: the list of further names stays, and
so does every file that is not one that the cache keeps. -/
theorem spares_of_failed {root : Path} {l : Location} (dir : r.config.cacheDir = some root)
    (house : d.Houses root l) (plain : d.PlainIn l)
    (failed : r.activeState d = (.error e, d')) :
    d'.listedIn l = d.listedIn l ∧ Disk.Spares (Disk.KeptAt l Axis.all) d d' := by
  have performed := activate_performs dir d (RewriteCache.openChanges_touches _ l _)
    fun opened _ change mem => Disk.touches_mono (fun _ => Disk.KeptAt.all)
      (RewriteCache.reconcileChanges_touches _ l opened _ change mem)
  rw [activate_of_failed failed] at performed
  obtain ⟨-, spared⟩ := performed.spares house plain
  exact ⟨Disk.listedIn_congr fun _ => spared _ _ (Disk.not_keptAt_listAt l _), spared⟩

/-- **What a resolver is in use with** depends on how it is set up, on what the cache lists and on
where its directories are. -/
theorem built_of_passed {root : Path} {l : Location} (unused : r.active = none)
    (dir : r.config.cacheDir = some root) (house : d.Houses root l) (plain : d.PlainIn l)
    (passed : r.activeState d = (.ok (a, r'), d')) :
    r'.config = (r.extended (d.listedIn l)).lock ∧ a.pipeline = r.pipelineWith (d.listedIn l)
      ∧ a.scope = Scope.of d' r.config.includePaths r.config.excludePaths := by
  rw [activeState_of_unused unused] at passed
  obtain ⟨names, opened, act⟩ := activates_of_ok dir passed
  obtain rfl := act.names_eq house plain
  exact ⟨act.config, act.pipeline, (scope_counts_of_activate passed).1⟩

/-- **A lock that fails leaves a resolver as it was.** A resolver has been asked for whatever anybody
likes, and a request that would take it into use fails, at whatever stage. Then it is not in use,
and its configuration, the lock on it included, and its registered patchers are what they were
before the request; so they were at every stage that was passed on the way, though locking changes a
resolver in place. On whatever disk, repaired in whatever way, it is from then on the same resolver
as one that was set up in the same way and has never been asked for anything that could have failed.
The failure leaves the disk alone but for directories and what the cache keeps: the list of further
names is the same. Once the resolver can be taken into use, its blacklist and its patchers depend on
how it is set up and on that list alone, and its scope on where its directories are. -/
theorem failed_lock_leaves {c : Configuration} {start before after : Disk} (earlier : List Request)
    (attempt : Request) (reached : (of c).serveAll start earlier = (r, before))
    (uses : attempt.uses = true) (failed : r.activeState before = (.error e, after)) :
    r.serve before attempt = (.error e, r, after) ∧ r.active = none
      ∧ Progress.Becomes ⟨r, before, .begun⟩ ⟨r, after, .failed e⟩
      ∧ (∀ p : Progress, Progress.Becomes ⟨r, before, .begun⟩ p →
        p.Becomes ⟨r, after, .failed e⟩ → p.resolver = r)
      ∧ (∀ (repaired : Disk) (later : List Request),
        (of c).serveAll start (earlier ++ attempt :: .outside repaired :: later)
          = (of c).serveAll start (earlier.filter (!·.uses) ++ .outside repaired :: later))
      ∧ ∀ (root : Path) (l : Location), r.config.cacheDir = some root →
        (before.Houses root l → before.PlainIn l → after.listedIn l = before.listedIn l
          ∧ Disk.Spares (Disk.KeptAt l Axis.all) before after)
        ∧ ∀ (repaired disk : Disk) (a : Active) (now : Resolver), repaired.Houses root l →
          repaired.PlainIn l → r.activeState repaired = (.ok (a, now), disk) →
          now.config = (r.extended (repaired.listedIn l)).lock
            ∧ a.pipeline = r.pipelineWith (repaired.listedIn l)
            ∧ a.scope = Scope.of disk r.config.includePaths r.config.excludePaths := by
  have unused := active_of_failed failed
  obtain ⟨fails, asBefore⟩ := becomes_of_failed failed
  refine ⟨serve_of_failed uses failed, unused, fails, asBefore, fun repaired later => ?_,
    fun root l dir => ⟨fun house plain => spares_of_failed dir house plain failed,
      fun repaired disk a now house plain passed => built_of_passed unused dir house plain passed⟩⟩
  have fresh : (of c).LockedInUse := fun isUsed => by cases isUsed
  have traceless : ((of c).serveAll start (earlier.filter (!·.uses))).1 = r := by
    rw [serveAll_of_unused fresh earlier start start, reached]
    rw [reached]
    exact unused
  -- Both histories come to the same resolver, and then the disk is replaced by the same one.
  calc (of c).serveAll start (earlier ++ attempt :: .outside repaired :: later)
      = r.serveAll repaired later := by
        rw [serveAll_append, reached, serveAll_cons, serve_of_failed uses failed]
        rfl
    _ = (of c).serveAll start (earlier.filter (!·.uses) ++ .outside repaired :: later) := by
        rw [serveAll_append, serveAll_cons, traceless]
        rfl

/-- **A disk on which the values of an axis cannot be recorded**, since there is a directory in the
place of the record. -/
def obstructed : Disk :=
  ⟨[(["s"], .directory), (["c"], .directory), (["c", "conf"], .directory),
    (["c", "conf", "patcher_list.json"], .directory)], []⟩

/-- **A resolver that has failed at the last stage twice** is locked on a disk without the obstacle,
with the name that was put on its blacklist meanwhile. -/
theorem failed_lock_leaves_recordless :
    ∃ r before after e, (of randOnly).serveAll obstructed [.lock, .configure (.blacklisted "time")]
        = (r, before)
      ∧ r.serve before (.resolve ⟨"/s/a.php"⟩) = (.error e, r, after)
      ∧ e.message = "cache I/O failed on /c/conf/patcher_list.json: Is a directory (os error 21)"
      ∧ ∃ now disk, (of randOnly).serveAll obstructed ([.lock, .configure (.blacklisted "time")]
          ++ .resolve ⟨"/s/a.php"⟩ :: .outside sourceless :: [.lock]) = (now, disk)
        ∧ now.pipelineNames = ["function"] ∧ now.config.blacklist.contains "time" = true := by
  generalize reached : (of randOnly).serveAll obstructed
    [.lock, .configure (.blacklisted "time")] = w
  have told : (match (w.1.activeState w.2).1 with
      | .error e => e.message
      | .ok _ => "")
        = "cache I/O failed on /c/conf/patcher_list.json: Is a directory (os error 21)" := by
    rw [← reached]
    decide +kernel
  rcases failed : w.1.activeState w.2 with ⟨e | state, after⟩
  · rw [failed] at told
    obtain ⟨served, -, -, -, traceless, -⟩ := failed_lock_leaves
      [.lock, .configure (.blacklisted "time")] (.resolve ⟨"/s/a.php"⟩) reached rfl failed
    refine ⟨w.1, w.2, after, e, rfl, served, told, _, _, (traceless sourceless [.lock]).trans
      Prod.mk.eta.symm, ?_⟩
    decide +kernel
  · rw [failed] at told
    simp at told

end Resolver

end Seams
