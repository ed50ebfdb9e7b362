import Mathlib.Data.List.Basic
import Mathlib.Tactic.Common
import Seams.Proofs.Operations

/-! # Locks are final
A resolver is locked when it is first used, and nothing unlocks it. Every change of its settings
fails from then on, and so does every further patcher, whatever else would be wrong with it; what is
in use stays in use, and only the counts go on.
Main definitions:
* **`Configuration.Setting`** — a change of a configuration;
* **`Request`** — what is asked of a resolver, and **`Resolver.serve`** — what comes of it;
* **`Resolver.serveAll`** — a resolver and a disk after some requests;
* **`Resolver.InUse`** — a resolver is in use with a configuration. -/

namespace Seams

/-! ## Settings -/

namespace Configuration

/-- **A change of a configuration.** -/
inductive Setting where
  /-- Where rewritten sources are kept. -/
  | cacheDir (dir : Path)
  /-- What is rewritten. -/
  | includePaths (paths : List Path)
  /-- What is not rewritten all the same. -/
  | excludePaths (paths : List Path)
  /-- The patchers. -/
  | patcherList (names : List String)
  /-- Further functions that are redirected. -/
  | whitelisted (names : List String)
  /-- A function that is not redirected. -/
  | blacklisted (name : String)
  /-- A function that is taken off the blacklist. -/
  | unblacklisted (name : String)
  /-- The class that signals an exit. -/
  | exitClass (name : String)
  /-- Whether rewritten sources are validated. -/
  | verifyOutput (verify : Bool)

namespace Setting

/-- **The configuration after a change.** -/
def apply (c : Configuration) : Setting → Except ConfigError Configuration
  | cacheDir dir => c.setCacheDir dir
  | includePaths paths => c.setIncludePaths paths
  | excludePaths paths => c.setExcludePaths paths
  | patcherList names => c.setPatcherList names
  | whitelisted names => c.addWhitelist names
  | blacklisted name => c.addBlacklist name
  | unblacklisted name => c.removeBlacklist name
  | exitClass name => c.setExitClass name
  | verifyOutput verify => c.setVerifyOutput verify

/-- **What cannot be done** where a change is refused. -/
def operation : Setting → String
  | cacheDir _ => "change cache_dir"
  | includePaths _ => "change include_paths"
  | excludePaths _ => "change exclude_paths"
  | patcherList _ => "change patcher list"
  | whitelisted _ => "add to whitelist"
  | blacklisted _ => "add to blacklist"
  | unblacklisted _ => "remove from blacklist"
  | exitClass _ => "change exit exception classname"
  | verifyOutput _ => "change output verification"

/-- **A locked configuration refuses every change**, before it looks at what is asked for. -/
theorem apply_of_locked {c : Configuration} (locked : c.isLocked = true) (s : Setting) :
    s.apply c = .error (.locked s.operation) := by
  cases s with
  | unblacklisted name => exact if_pos locked
  | _ => exact if_pos locked

end Setting

end Configuration

open Configuration (Setting)

/-! ## Requests -/

/-- **What is asked of a resolver**, and what happens to the disk meanwhile. -/
inductive Request where
  /-- A setting is changed. -/
  | configure (setting : Setting)
  /-- The configuration is locked, and the resolver is not used. -/
  | freeze
  /-- A patcher is made available. -/
  | register (patcher : Patcher)
  /-- The resolver is locked. -/
  | lock
  /-- A path is resolved. -/
  | resolve (path : Path)
  /-- The cache is cleared. -/
  | clear
  /-- The disk is another one. -/
  | outside (disk : Disk)

/-- **A request for which a resolver is taken into use.** -/
def Request.uses : Request → Bool
  | .lock | .resolve _ | .clear => true
  | _ => false

namespace Active

/-- **Resolving only counts.** -/
theorem exists_resolve_eq (a : Active) (d : Disk) (p : Path) :
    ∃ n, (a.resolve d p).2.1 = { a with counts := n } := by
  unfold resolve
  simp only
  split
  · exact ⟨a.counts, rfl⟩
  split
  · exact ⟨_, rfl⟩
  split
  · split
    · exact ⟨a.counts, rfl⟩
    · exact ⟨_, rfl⟩
  · exact ⟨_, rfl⟩

end Active

namespace Resolver

/-- **What comes of a request**: what is loaded, if that is asked for, or why it fails, and the
resolver and the disk afterwards. -/
def serve (r : Resolver) (d : Disk) :
    Request → Except ResolveError (Option Resolved) × Resolver × Disk
  | .configure s =>
    match s.apply r.config with
    | .error e => (.error (.config e), r, d)
    | .ok c => (.ok none, { r with config := c }, d)
  | .freeze => (.ok none, { r with config := r.config.lock }, d)
  | .register p =>
    match r.register p with
    | .error e => (.error (.config e), r, d)
    | .ok r => (.ok none, r, d)
  | .lock =>
    let (result, r, d) := r.lock d
    (result.map fun _ => none, r, d)
  | .resolve p =>
    let (result, r, d) := r.resolve d p
    (result.map some, r, d)
  | .clear =>
    let (result, r, d) := r.clearCache d
    (result.map fun _ => none, r, d)
  | .outside d => (.ok none, r, d)

/-- **A resolver and a disk after some requests**, whether they succeed or not. -/
def serveAll (r : Resolver) (d : Disk) (requests : List Request) : Resolver × Disk :=
  requests.foldl (fun state request => (state.1.serve state.2 request).2) (r, d)

/-- **Requests in two parts.** -/
theorem serveAll_append (r : Resolver) (d : Disk) (requests others : List Request) :
    r.serveAll d (requests ++ others)
      = (r.serveAll d requests).1.serveAll (r.serveAll d requests).2 others :=
  List.foldl_append

/-- **One request, and then the others.** -/
theorem serveAll_cons (r : Resolver) (d : Disk) (request : Request) (requests : List Request) :
    r.serveAll d (request :: requests)
      = (r.serve d request).2.1.serveAll (r.serve d request).2.2 requests := rfl

variable {r r' : Resolver} {d d' : Disk} {a : Active} {c : Configuration}

/-! ## Resolvers in use -/

/-- **A resolver in use is locked**, if it is in use. -/
def LockedInUse (r : Resolver) : Prop := r.active.isSome = true → r.config.isLocked = true

/-- **A resolver is in use with a configuration.** Only the counts may be others than they were. -/
structure InUse (r : Resolver) (a : Active) (c : Configuration) : Prop where
  /-- The configuration. -/
  config : r.config = c
  /-- What is in use. -/
  active : ∃ n, r.active = some { a with counts := n }

/-- **A resolver that is not in use is locked for its active state.** -/
theorem activeState_of_unused (unused : r.active = none) (d : Disk) :
    r.activeState d = r.activate d := by
  rw [activeState, unused]

/-- **A resolver that is taken into use is in use and locked**, if that is so of all that are in
use already. -/
theorem inUse_of_activeState (locked : r.LockedInUse)
    (h : r.activeState d = (.ok (a, r'), d')) :
    r'.InUse a r'.config ∧ r'.config.isLocked = true := by
  unfold activeState at h
  split at h
  · rename_i a' active
    cases h
    exact ⟨⟨rfl, a.counts, active⟩, locked (by rw [active]; rfl)⟩
  · unfold activate at h
    -- Of all the ends of locking a resolver, only one is a success.
    split at h
    · cases h
    simp only at h
    split at h
    · cases h
    split at h
    · cases h
    split at h
    · cases h
    split at h
    · cases h
    · cases h
      exact ⟨⟨rfl, _, rfl⟩, rfl⟩

namespace InUse

/-- **A resolver in use has its active state at hand**: nothing is built, and nothing is changed. -/
theorem exists_activeState (inUse : r.InUse a c) (d : Disk) :
    ∃ n, r.active = some { a with counts := n }
      ∧ r.activeState d = (.ok ({ a with counts := n }, r), d) := by
  obtain ⟨n, active⟩ := inUse.active
  exact ⟨n, active, by rw [activeState, active]⟩

/-- **Locking a resolver in use does nothing.** -/
theorem lock_eq (inUse : r.InUse a c) (d : Disk) : r.lock d = (.ok (), r, d) := by
  obtain ⟨n, -, state⟩ := inUse.exists_activeState d
  rw [lock, state]

/-- **A resolver in use refuses every change of its settings.** -/
theorem serve_configure (inUse : r.InUse a c) (locked : c.isLocked = true) (d : Disk)
    (s : Setting) : r.serve d (.configure s) = (.error (.config (.locked s.operation)), r, d) := by
  rw [← inUse.config] at locked
  simp only [serve, s.apply_of_locked locked]

/-- **A resolver in use refuses every further patcher.** -/
theorem serve_register (inUse : r.InUse a c) (locked : c.isLocked = true) (d : Disk)
    (p : Patcher) :
    r.serve d (.register p) = (.error (.config (.locked "register a patcher")), r, d) := by
  rw [← inUse.config] at locked
  simp only [serve, register, if_pos locked]

/-- **A request leaves a resolver in use as it is**, but for the counts. -/
theorem serve (inUse : r.InUse a c) (locked : c.isLocked = true) (d : Disk) (request : Request) :
    (r.serve d request).2.1.InUse a c := by
  cases request with
  | configure s =>
      rw [inUse.serve_configure locked]
      exact inUse
  | register p =>
      rw [inUse.serve_register locked]
      exact inUse
  | freeze =>
      -- The configuration is locked already.
      have same : r.config.lock = r.config := by
        rw [inUse.config, Configuration.lock, ← locked]
      refine ⟨?_, inUse.active⟩
      rw [← inUse.config]
      exact same
  | lock =>
      simp only [Resolver.serve, inUse.lock_eq]
      exact inUse
  | resolve p =>
      obtain ⟨n, -, state⟩ := inUse.exists_activeState d
      obtain ⟨m, counted⟩ := Active.exists_resolve_eq { a with counts := n } d p
      simp only [Resolver.serve, resolve, state]
      exact ⟨inUse.config, m, by simp only [counted]⟩
  | clear =>
      obtain ⟨n, -, state⟩ := inUse.exists_activeState d
      simp only [Resolver.serve, clearCache, state]
      exact inUse
  | outside d' => exact inUse

/-- **Requests leave a resolver in use as it is**, but for the counts. -/
theorem serveAll (inUse : r.InUse a c) (locked : c.isLocked = true) (d : Disk)
    (requests : List Request) : (r.serveAll d requests).1.InUse a c := by
  induction requests generalizing r d with
  | nil => exact inUse
  | cons request requests ih => exact ih (inUse.serve locked d request) _

end InUse

/-! ## From the first use on -/

/-- **A request for which a resolver is taken into use leaves it in use.** -/
theorem inUse_of_uses {request : Request} (uses : request.uses = true) (locked : r.LockedInUse)
    (passed : r.activeState d = (.ok (a, r'), d')) :
    (r.serve d request).2.1.InUse a r'.config := by
  obtain ⟨inUse, -⟩ := inUse_of_activeState locked passed
  cases request with
  | lock =>
      simp only [serve, lock, passed]
      exact inUse
  | resolve p =>
      obtain ⟨n, counted⟩ := a.exists_resolve_eq d' p
      simp only [serve, resolve, passed]
      exact ⟨rfl, n, by simp only [counted]⟩
  | clear =>
      simp only [serve, clearCache, passed]
      exact inUse
  | configure s => cases uses
  | freeze => cases uses
  | register p => cases uses
  | outside d => cases uses

/-- **Where a resolver cannot be taken into use, it stays as it is.** -/
theorem serve_of_failed {request : Request} {e : ResolveError} (uses : request.uses = true)
    (failed : r.activeState d = (.error e, d')) : r.serve d request = (.error e, r, d') := by
  cases request with
  | lock =>
      simp only [serve, lock, failed]
      rfl
  | resolve p =>
      simp only [serve, resolve, failed]
      rfl
  | clear =>
      simp only [serve, clearCache, failed]
      rfl
  | configure s => cases uses
  | freeze => cases uses
  | register p => cases uses
  | outside d => cases uses

/-- **Other requests do not take a resolver into use.** -/
theorem serve_active {request : Request} (others : request.uses = false) (d : Disk) :
    (r.serve d request).2.1.active = r.active := by
  cases request with
  | configure s =>
      rw [serve]
      split <;> rfl
  | freeze => rfl
  | register p =>
      simp only [serve, register]
      split
      · rfl
      · rename_i registered
        split at registered
        · cases registered
        · cases registered
          rfl
  | outside d' => rfl
  | lock => cases others
  | resolve p => cases others
  | clear => cases others

/-- **Whatever is asked of a resolver, it is locked once it is in use.** -/
theorem LockedInUse.serve (locked : r.LockedInUse) (d : Disk) (request : Request) :
    (r.serve d request).2.1.LockedInUse := by
  cases inUse : r.active with
  | some a =>
      -- What is in use stays in use, with the same configuration.
      have here : r.InUse a r.config := ⟨rfl, a.counts, inUse⟩
      have isLocked := locked (by rw [inUse]; rfl)
      intro _
      rw [(here.serve isLocked d request).config]
      exact isLocked
  | none =>
      cases uses : request.uses with
      | false =>
          intro isUsed
          rw [serve_active uses, inUse] at isUsed
          cases isUsed
      | true =>
          rcases state : r.activeState d with ⟨e | ⟨a, r'⟩, d'⟩
          · rw [serve_of_failed uses state]
            exact locked
          · obtain ⟨-, isLocked⟩ := inUse_of_activeState locked state
            intro _
            rw [(inUse_of_uses uses locked state).config]
            exact isLocked

/-- **Whatever is asked of a resolver in a row, it is locked once it is in use.** -/
theorem LockedInUse.serveAll (locked : r.LockedInUse) (d : Disk) (requests : List Request) :
    (r.serveAll d requests).1.LockedInUse := by
  induction requests generalizing r d with
  | nil => exact locked
  | cons request requests ih => exact ih (locked.serve d request) _

/-- **The lock is final.** A resolver is set up and asked for whatever anybody likes, until one
request takes it into use. From then on, whatever is asked of it and whatever happens to the disk,
its configuration, its patchers, its scope, its cache and the axes that had changed stay what they
were when it was locked; every change of a setting and every further patcher is refused because it
is locked; and to lock it again changes neither the resolver, its counts included, nor the disk. -/
theorem lock_final {c : Configuration} {d d' disk : Disk} (earlier : List Request)
    (first : Request) (later : List Request) {a : Active} {r now : Resolver}
    (uses : first.uses = true)
    (passed : ((of c).serveAll d earlier).1.activeState ((of c).serveAll d earlier).2
      = (.ok (a, r), d'))
    (after : (of c).serveAll d (earlier ++ first :: later) = (now, disk)) :
    now.config = r.config ∧ now.isLocked = true
      ∧ now.pipelineNames = r.pipelineNames ∧ now.changedAxes = r.changedAxes
      ∧ (∃ b, now.active = some b ∧ b.scope = a.scope ∧ b.cache = a.cache
        ∧ b.pipeline = a.pipeline)
      ∧ (∀ s : Setting, now.serve disk (.configure s)
        = (.error (.config (.locked s.operation)), now, disk))
      ∧ (∀ p, now.serve disk (.register p)
        = (.error (.config (.locked "register a patcher")), now, disk))
      ∧ now.lock disk = (.ok (), now, disk) := by
  have fresh : (of c).LockedInUse := fun isUsed => by cases isUsed
  have before := fresh.serveAll d earlier
  obtain ⟨⟨-, n, active⟩, isLocked⟩ := inUse_of_activeState before passed
  have inUse : now.InUse a r.config := by
    have used := (inUse_of_uses uses before passed).serveAll isLocked
      (((of c).serveAll d earlier).1.serve ((of c).serveAll d earlier).2 first).2.2 later
    rwa [← serveAll_cons, ← serveAll_append, after] at used
  obtain ⟨m, active'⟩ := inUse.active
  refine ⟨inUse.config, ?_, ?_, ?_, ⟨_, active', rfl, rfl, rfl⟩,
    inUse.serve_configure isLocked disk, inUse.serve_register isLocked disk, inUse.lock_eq disk⟩
  · rw [Resolver.isLocked, inUse.config]
    exact isLocked
  · rw [pipelineNames, pipelineNames, active, active']
    rfl
  · rw [changedAxes, changedAxes, active, active']
    rfl

/-- **A resolver that redirects the calls of `rand`.** -/
def randOnly : Configuration :=
  ⟨some ⟨"/c"⟩, [⟨"/s"⟩], [], ["function"], .ofList ["rand"], .ofList ["exit__"], "", false, false⟩

/-- **A disk without sources.** -/
def sourceless : Disk := ⟨[(["s"], .directory)], []⟩

/-- **A resolver that is asked for a file that is missing is locked all the same**: the name that
must stay on the blacklist is not even told to be protected. -/
theorem lock_final_missing :
    ∃ now disk, (of randOnly).serveAll sourceless
        ([.configure (.blacklisted "time")]
          ++ .resolve ⟨"/s/a.php"⟩ :: [.configure (.patcherList []), .clear]) = (now, disk)
      ∧ now.isLocked = true ∧ now.pipelineNames = ["function"]
      ∧ now.config.blacklist.contains "time" = true
      ∧ now.serve disk (.configure (.unblacklisted "exit__"))
        = (.error (.config (.locked "remove from blacklist")), now, disk) := by
  generalize before : (of randOnly).serveAll sourceless [.configure (.blacklisted "time")] = w
  have passes : (w.1.activeState w.2).1.toOption.map
      (fun x => (x.2.pipelineNames, x.2.config.blacklist.contains "time"))
        = some (["function"], true) := by
    rw [← before]
    decide +kernel
  obtain ⟨⟨a, r⟩, passed, eq⟩ := Option.map_eq_some_iff.1 passes
  obtain ⟨names, listed⟩ := Prod.mk.inj eq
  have locked : w.1.activeState w.2 = (.ok (a, r), (w.1.activeState w.2).2) :=
    eq_of_toOption passed
  rw [← before] at locked
  obtain ⟨config, isLocked, pipeline, -, -, refused, -⟩ :=
    lock_final [.configure (.blacklisted "time")] (.resolve ⟨"/s/a.php"⟩)
      [.configure (.patcherList []), .clear] rfl locked Prod.mk.eta.symm
  exact ⟨_, _, Prod.mk.eta.symm, isLocked, pipeline.trans names, by rw [config, listed], refused _⟩

end Resolver

end Seams
