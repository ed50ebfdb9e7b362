import Seams.CommandLine.Failure
import Seams.CommandLine.Style
import Seams.Diff.Compact
import Seams.Diff.Lines

/-! # Commands
What each command prints, and what it does to the disk.
Main definitions:
* **`Outcome`** — what has been printed, and whether the command has failed;
* **`patchCommand`**, **`scopeCommand`**, **`statusCommand`**, **`warmCommand`**,
  **`clearCommand`** — the commands;
* **`StatusReport`**, **`Disk.statusOf`** — the state of a cache;
* **`WarmSummary`**, **`warm`** — how a cache is filled. -/

namespace Seams

namespace CommandLine

/-- What has been printed, and the exit code. -/
structure Outcome where
  /-- The exit code. -/
  code : Nat
  /-- What is printed as the result. -/
  output : Bytes
  /-- What is printed beside it. -/
  remarks : String

namespace Outcome

/-- The outcome of a command that has succeeded. -/
def success (output : Bytes) (remarks : String) : Outcome := ⟨0, output, remarks⟩

/-- The outcome of a command that has failed after some output. -/
def failure (output remarks message : String) (causes : List String) : Outcome :=
  ⟨1, bytesOf output, remarks ++ failureText message causes⟩

/-- The outcome of a command that has failed before any output. -/
def ofResolveError (e : ResolveError) : Outcome := failure "" "" e.message e.causes

end Outcome

/-! ## Single paths -/

/-- How the origin of a source is told. -/
def originText (colours : Bool) : Origin → String
  | .outOfScope => Style.dimmed.paint colours "out of scope"
  | .cacheHit => Style.cyan.paint colours "cache hit"
  | .patched => Style.green.paint colours "patched"
  | .unchanged => "unchanged"

/-- A line of a difference, ended if it is not. -/
def diffLine (colours : Bool) (l : Diff.Line String) : String :=
  let ended (line : String) : String := if Diff.isEnded line then line else line ++ "\n"
  match l with
  | .same line => " " ++ ended line
  | .removed line => Style.red.paint colours ("-" ++ ended line)
  | .added line => Style.green.paint colours ("+" ++ ended line)

/-- How a source differs from the one that is loaded in its place. -/
def diffText (colours : Bool) (file : Path) (source rewritten : Bytes) : String :=
  if source == rewritten then Style.dimmed.paint colours "No changes" ++ "\n"
  else
    Style.dimmed.paint colours s!"--- {file.text} (original)" ++ "\n"
      ++ Style.dimmed.paint colours s!"+++ {file.text} (rewritten)" ++ "\n"
      ++ String.join ((Diff.report (Diff.lines source.lossyText)
          (Diff.lines rewritten.lossyText)).map (diffLine colours))

/-- Print the source that is loaded for a file, or how it differs from the file. -/
def patchCommand (colours : Bool) (d : Disk) (config : Configuration) (file : Path)
    (diff : Bool) : Outcome × Disk :=
  match (Resolver.of config).resolve d file with
  | (.error e, _, d) => (.ofResolveError e, d)
  | (.ok resolved, _, d) =>
    let remark := file.text ++ ": " ++ originText colours resolved.origin ++ "\n"
    if diff then
      match d.read file with
      | .error e => (.failure "" remark s!"reading {file.text}" [e.message], d)
      | .ok source => (.success (bytesOf (diffText colours file source resolved.bytes)) remark, d)
    else (.success resolved.bytes remark, d)

/-- Tell whether a path is in scope. -/
def scopeCommand (colours : Bool) (d : Disk) (config : Configuration) (path : Path) : Outcome :=
  if (Resolver.of config).inScope d path then
    .success (bytesOf (Style.green.paint colours "✓" ++ s!" {path.text}: in scope\n")) ""
  else .success (bytesOf (Style.cyan.paint colours "⊘" ++ s!" {path.text}: out of scope\n")) ""

/-! ## The state of a cache -/

end CommandLine

/-- The state of a cache, compared with a configuration. -/
structure StatusReport where
  /-- The directory of the cache. -/
  dir : Path
  /-- The values of the axes in the configuration. -/
  snapshot : AxisSnapshot
  /-- The axes whose recorded values are others. -/
  changed : List Axis
  /-- The number of rewritten sources. -/
  count : Nat

/-- The state of the cache of a configuration, created as needed. -/
def Disk.statusOf (d : Disk) (config : Configuration) : Except ResolveError StatusReport × Disk :=
  match config.requireCacheDir with
  | .error e => (.error (.config e), d)
  | .ok dir =>
    let snapshot := AxisSnapshot.of config
    match RewriteCache.create d dir snapshot.generation with
    | (.error e, d) => (.error (.cache e), d)
    | (.ok cache, d) => (.ok ⟨dir, snapshot, cache.changedAxes d snapshot, cache.count d⟩, d)

namespace CommandLine

/-- The line for an axis. -/
def axisLine (colours : Bool) (r : StatusReport) (a : Axis) : String :=
  if r.changed.contains a then
    Style.yellow.paint colours "✗"
      ++ s!" {a.name}: changed ({(r.snapshot.values a).length} entries)\n"
  else Style.green.paint colours "✓" ++ s!" {a.name}: up to date\n"

/-- What is told of the state of a cache. -/
def statusText (colours : Bool) (r : StatusReport) : String :=
  s!"Cache: {r.dir.text}\n" ++ "Generation: "
    ++ Text.hexPadded 16 r.snapshot.generation.toNat ++ "\n\n"
    ++ String.join (Axis.all.map (axisLine colours r)) ++ s!"\nCached rewrites: {r.count}\n"
    ++ (if r.changed.isEmpty then ""
      else Style.dimmed.paint colours
        "The next load will clear the cache and record the new configuration." ++ "\n")

/-- Tell the state of the cache. -/
def statusCommand (colours : Bool) (d : Disk) (config : Configuration) : Outcome × Disk :=
  match d.statusOf config with
  | (.error e, d) => (.ofResolveError e, d)
  | (.ok r, d) => (.success (bytesOf (statusText colours r)) "", d)

/-! ## Filling and emptying a cache -/

end CommandLine

/-- What happened when a cache was filled. -/
structure WarmSummary where
  /-- The number of sources that were rewritten. -/
  patched : Nat := 0
  /-- The number of sources where there was nothing to rewrite. -/
  unchanged : Nat := 0
  /-- The number of sources that were there already. -/
  cached : Nat := 0
  /-- What went wrong, in order. -/
  failures : List String := []
  deriving DecidableEq, Repr

namespace WarmSummary

/-- The summary with one more source. -/
def count (s : WarmSummary) : Origin → WarmSummary
  | .patched => { s with patched := s.patched + 1 }
  | .unchanged => { s with unchanged := s.unchanged + 1 }
  | .cacheHit => { s with cached := s.cached + 1 }
  | .outOfScope => s

/-- The summary with one more failure. -/
def fail (s : WarmSummary) (message : String) : WarmSummary :=
  { s with failures := s.failures ++ [message] }

end WarmSummary

namespace Resolver

/-- Whether a path is of a kind that is rewritten. -/
def isSourcePath (p : Path) : Bool := p.extension? == some "php"

/-- Resolve what a walk has met, unless it is no source or out of scope. -/
def warmEntry (state : Resolver × Disk × WarmSummary)
    (entry : Except WalkFault (Path × Bool)) : Resolver × Disk × WarmSummary :=
  let (r, d, s) := state
  match entry with
  | .error e => (r, d, s.fail e.message)
  | .ok (p, isFile) =>
    if isFile && isSourcePath p && r.inScope d p then
      match r.resolve d p with
      | (.ok resolved, r, d) => (r, d, s.count resolved.origin)
      | (.error e, r, d) => (r, d, s.fail (p.text ++ ": " ++ e.message))
    else (r, d, s)

/-- Resolve all sources below a path. -/
def warmBelow (state : Resolver × Disk × WarmSummary) (root : Path) :
    Resolver × Disk × WarmSummary :=
  (state.2.1.below true root).foldl warmEntry state

/-- Resolve all sources below the included paths of a resolver that is locked. -/
def warm (r : Resolver) (d : Disk) : Resolver × Disk × WarmSummary :=
  r.config.includePaths.foldl warmBelow (r, d, {})

end Resolver

namespace CommandLine

/-- The lines for the axes that had changed when the cache was opened. -/
def changedText (colours : Bool) (axes : List Axis) : String :=
  String.join (axes.map fun a =>
    Style.yellow.paint colours "⊙" ++ s!" {a.name} changed, cache cleared\n")

/-- What is told after filling a cache. -/
def summaryText (colours : Bool) (s : WarmSummary) : String :=
  s!"\nSummary:\n  Patched: {s.patched}\n  Unchanged: {s.unchanged}\n  Already cached: {s.cached}\n"
    ++ (if s.failures.isEmpty then ""
      else "  " ++ Style.red.paint colours "Failed" ++ s!": {s.failures.length}\n")

/-- Fill the cache. -/
def warmCommand (colours : Bool) (d : Disk) (config : Configuration) : Outcome × Disk :=
  match (Resolver.of config).lock d with
  | (.error e, _, d) => (.ofResolveError e, d)
  | (.ok (), r, d) =>
    let (_, d, s) := r.warm d
    let output := changedText colours r.changedAxes ++ summaryText colours s
    let remarks := String.join (s.failures.map fun m =>
      Style.red.paint colours "✗" ++ " " ++ m ++ "\n")
    if s.failures.isEmpty then (.success (bytesOf output) remarks, d)
    else
      (.failure output remarks s!"{s.failures.length} file(s) could not be resolved" [], d)

/-- Empty the cache. -/
def clearCommand (colours : Bool) (d : Disk) (config : Configuration) : Outcome × Disk :=
  match (Resolver.of config).clearCache d with
  | (.error e, _, d) => (.ofResolveError e, d)
  | (.ok (), _, d) =>
    (.success (bytesOf (Style.green.paint colours "✓" ++ " cache cleared\n")) "", d)

end CommandLine

end Seams
