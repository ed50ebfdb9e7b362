import Seams.Pipeline
import Seams.RewriteCache
import Seams.Scope

/-! # Resolvers
A resolver answers what is loaded in place of a file: the file itself if it is out of scope, else
the rewritten source, from the cache or fresh. It may be set up until it is first used; then its
configuration is locked and the cache is made to fit it.
Main definitions:
* **`Resolver`** — a configuration, registered patchers, and what is in use once it is locked;
* **`Resolver.lock`** — begin to use it;
* **`Resolver.resolve`** — what is loaded for a path;
* **`Resolver.register`**, **`Resolver.clearCache`**, **`Resolver.inScope`** — the rest. -/

namespace Seams

/-- Why a path cannot be resolved. -/
inductive ResolveError where
  /-- The configuration cannot be used. -/
  | config (cause : ConfigError)
  /-- The cache cannot be used. -/
  | cache (cause : CacheError)
  /-- The source cannot be read. -/
  | unreadable (path : Path) (cause : Fault)
  /-- The source cannot be rewritten. -/
  | patch (path : Path) (cause : PatchError)

/-- What is told to the user. -/
def ResolveError.message : ResolveError → String
  | config cause => cause.message
  | cache cause => cause.message
  | unreadable path cause => s!"can't read source {path.text}: {cause.message}"
  | patch path cause => s!"failed to patch {path.text}: {cause.message}"

/-- Where what is loaded comes from. -/
inductive Origin where
  /-- The file is out of scope and loaded as it is. -/
  | outOfScope
  /-- The rewritten source was in the cache. -/
  | cacheHit
  /-- The source was rewritten. -/
  | patched
  /-- There was nothing to rewrite. -/
  | unchanged
  deriving DecidableEq, Repr

/-- What is loaded for a path. -/
structure Resolved where
  /-- The path. -/
  path : Path
  /-- The source. -/
  bytes : Bytes
  /-- Where it comes from. -/
  origin : Origin
  deriving DecidableEq

/-- How often what has happened. -/
structure Counts where
  /-- Rewritten sources found in the cache. -/
  cacheHits : Nat := 0
  /-- Rewritten sources not found in the cache. -/
  cacheMisses : Nat := 0
  /-- Sources given to the pipeline. -/
  pipelineRuns : Nat := 0
  /-- Sources out of scope. -/
  passedThrough : Nat := 0
  deriving DecidableEq, Repr

/-- What is in use once a resolver is locked. -/
structure Active where
  /-- What is rewritten. -/
  scope : Scope
  /-- The cache. -/
  cache : RewriteCache
  /-- The patchers. -/
  pipeline : Pipeline
  /-- The axes that had changed. -/
  changedAxes : List Axis
  /-- How often what has happened since. -/
  counts : Counts

namespace Active

/-- The active state after one more source out of scope. -/
def countPassed (a : Active) : Active :=
  { a with counts := { a.counts with passedThrough := a.counts.passedThrough + 1 } }

/-- The active state after one more hit. -/
def countHit (a : Active) : Active :=
  { a with counts := { a.counts with cacheHits := a.counts.cacheHits + 1 } }

/-- The active state after one more run of the pipeline for lack of a cached source. -/
def countRun (a : Active) : Active :=
  { a with counts := { a.counts with
      cacheMisses := a.counts.cacheMisses + 1
      pipelineRuns := a.counts.pipelineRuns + 1 } }

/-- Rewrite a source and keep the result. -/
def rewrite (a : Active) (d : Disk) (requested : Path) (place : Location) (raw : Bytes) :
    Except ResolveError Resolved × Disk :=
  match a.pipeline.run raw with
  | .error e => (.error (.patch requested e), d)
  | .ok output =>
    match a.cache.write d place.path (Fingerprint.of raw) output.source with
    | (.error e, d) => (.error (.cache e), d)
    | (.ok (), d) =>
      (.ok ⟨requested, output.source, if output.patched then .patched else .unchanged⟩, d)

/-- What is loaded for a path. -/
def resolve (a : Active) (d : Disk) (requested : Path) :
    Except ResolveError Resolved × Active × Disk :=
  let place := d.normalize requested
  match d.read place.path with
  | .error e => (.error (.unreadable requested e), a, d)
  | .ok raw =>
    if !a.scope.covers place then (.ok ⟨requested, raw, .outOfScope⟩, a.countPassed, d)
    else if a.cache.hasValid d place.path (Fingerprint.of raw) then
      match a.cache.read d place.path with
      | .error e => (.error (.cache e), a, d)
      | .ok bytes => (.ok ⟨requested, bytes, .cacheHit⟩, a.countHit, d)
    else
      let (result, d) := a.rewrite d requested place raw
      (result, a.countRun, d)

end Active

/-- A configuration, registered patchers, and what is in use once it is locked. -/
structure Resolver where
  /-- The configuration. -/
  config : Configuration
  /-- Patchers in addition to those that are built in, or in place of them. -/
  registered : List Patcher
  /-- What is in use, once the resolver is locked. -/
  active : Option Active

namespace Resolver

/-- A resolver that nobody has used yet. -/
def of (config : Configuration) : Resolver := ⟨config, [], none⟩

/-- Whether the configuration is locked. -/
def isLocked (r : Resolver) : Bool := r.config.isLocked

/-- Make a patcher available under its name, in place of an earlier one of that name. -/
def register (r : Resolver) (p : Patcher) : Except ConfigError Resolver :=
  if r.config.isLocked then .error (.locked "register a patcher")
  else .ok { r with registered := r.registered.filter (·.name != p.name) ++ [p] }

/-! ## Locking -/

/-- The patcher of a name that is built in. -/
def builtIn? (c : Configuration) (name : String) : Option Patcher :=
  if name = Redirect.exitsName then some Redirect.exits
  else if name = Redirect.callsName then some (Redirect.calls c.whitelist c.blacklist)
  else if name = Redirect.methodsName then some Redirect.methods
  else none

/-- The patchers of the given names. Each registered one is used once; where a name comes again, or
is not registered, the one that is built in is used, if there is one. -/
def choose (c : Configuration) (registered : List Patcher) : List String → List Patcher
  | [] => []
  | name :: names =>
    match registered.find? (·.name == name) with
    | some p => p :: choose c (registered.eraseP (·.name == name)) names
    | none =>
      match builtIn? c name with
      | some p => p :: choose c registered names
      | none => choose c registered names

/-- What is left of the registered patchers when those of the given names are in use. -/
def unused (registered : List Patcher) : List String → List Patcher
  | [] => registered
  | name :: names => unused (registered.eraseP (·.name == name)) names

/-- The first listed patcher that is neither registered nor built in. -/
def unknown? (c : Configuration) (registered : List Patcher) : Option String :=
  c.patcherList.find? fun name =>
    !registered.any (·.name == name) && !Configuration.builtIn.contains name

/-- What must be set is set, and each patcher that is listed is there. The result is where
rewritten sources are kept. -/
def checkConfig (r : Resolver) : Except ConfigError Path :=
  match r.config.requireCacheDir with
  | .error e => .error e
  | .ok dir =>
    if r.config.includePaths.isEmpty then .error (.missingSetting "include_paths")
    else match unknown? r.config r.registered with
      | some name => .error (.unknownPatcher name)
      | none => .ok dir

/-- The configuration with further names on the blacklist. -/
def extendBlacklist (c : Configuration) : List String → Except ConfigError Configuration
  | [] => .ok c
  | name :: names =>
    match c.addBlacklist name with
    | .error e => .error e
    | .ok c => extendBlacklist c names

/-- Lock a resolver that is not locked yet: open the cache, extend the blacklist by what the cache
directory lists, and make the cache fit. A resolver that cannot be locked stays as it is. -/
def activate (r : Resolver) (d : Disk) : Except ResolveError (Active × Resolver) × Disk :=
  match r.checkConfig with
  | .error e => (.error (.config e), d)
  | .ok dir =>
    -- Taken before the blacklist grows: the names that the directory lists are no part of it.
    let snapshot := AxisSnapshot.of r.config
    match RewriteCache.create d dir snapshot.generation with
    | (.error e, d) => (.error (.cache e), d)
    | (.ok cache, d) =>
      match cache.extraBlacklist d with
      | .error e => (.error (.cache e), d)
      | .ok names =>
        match extendBlacklist r.config names with
        | .error e => (.error (.config e), d)
        | .ok config =>
          match cache.reconcile d snapshot with
          | (.error e, d) => (.error (.cache e), d)
          | (.ok changed, d) =>
            let active : Active :=
              { scope := Scope.of d config.includePaths config.excludePaths
                cache := cache
                pipeline := ⟨choose config r.registered config.patcherList, config.verifyOutput⟩
                changedAxes := changed
                counts := {} }
            (.ok (active, ⟨config.lock, unused r.registered config.patcherList, some active⟩), d)

/-- The active state, for which the resolver is locked if it is not locked yet. -/
def activeState (r : Resolver) (d : Disk) : Except ResolveError (Active × Resolver) × Disk :=
  match r.active with
  | some a => (.ok (a, r), d)
  | none => r.activate d

/-- Lock the resolver. -/
def lock (r : Resolver) (d : Disk) : Except ResolveError Unit × Resolver × Disk :=
  match r.activeState d with
  | (.error e, d) => (.error e, r, d)
  | (.ok (_, r), d) => (.ok (), r, d)

/-! ## Use -/

/-- What is loaded for a path. -/
def resolve (r : Resolver) (d : Disk) (p : Path) : Except ResolveError Resolved × Resolver × Disk :=
  match r.activeState d with
  | (.error e, d) => (.error e, r, d)
  | (.ok (a, r), d) =>
    let (result, a, d) := a.resolve d p
    (result, { r with active := some a }, d)

/-- Drop all rewritten sources. -/
def clearCache (r : Resolver) (d : Disk) : Except ResolveError Unit × Resolver × Disk :=
  match r.activeState d with
  | (.error e, d) => (.error e, r, d)
  | (.ok (a, r), d) =>
    let (result, d) := a.cache.clear d
    (result.mapError .cache, r, d)

/-- Whether a path is in scope, as it is now or would be if the resolver were locked now. -/
def inScope (r : Resolver) (d : Disk) (p : Path) : Bool :=
  match r.active with
  | some a => a.scope.holds d p
  | none => (Scope.of d r.config.includePaths r.config.excludePaths).holds d p

/-- How often what has happened. -/
def counts (r : Resolver) : Counts := (r.active.map Active.counts).getD {}

/-- The axes that had changed when the resolver was locked. -/
def changedAxes (r : Resolver) : List Axis := (r.active.map Active.changedAxes).getD []

/-- The names of the patchers in use. -/
def pipelineNames (r : Resolver) : List String :=
  (r.active.map fun a => a.pipeline.names).getD []

end Resolver

end Seams
