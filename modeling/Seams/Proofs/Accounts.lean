import Mathlib.Data.List.Basic
import Mathlib.Tactic.Common
import Seams.Proofs.Generations
import Seams.Proofs.Lineup
import Seams.Proofs.Spellings

/-! # What a resolver counts
A path is resolved in one of six ways, and each is counted in one way or not at all. Only where the
pipeline has run and rewritten the source may the disk be changed; so where it fails, what the cache
keeps is there still when the old content comes back. A source that does not fit the grammar is
never loaded by a resolver with patchers, unless the cache holds something for its very content; and
a cache that is left to resolvers never does.
Main definitions:
* **`Active.Resolves`** — the ways in which a path is resolved;
* **`Counts.tally`** — how an answer is counted;
* **`Resolver.Accounts`** — what is counted, changed and kept when a path is resolved;
* **`Resolver.Balanced`** — the pipeline has run as often as something was missing in the cache. -/

namespace Seams

/-! ## The ways in which a path is resolved -/

/-- **The counts after an answer.** Each answer is counted once, but for those that tell of a source
that cannot be read or of settings that cannot be used. -/
def Counts.tally (n : Counts) : Except ResolveError Resolved → Counts
  | .ok res =>
    match res.origin with
    | .outOfScope => { n with passedThrough := n.passedThrough + 1 }
    | .cacheHit => { n with cacheHits := n.cacheHits + 1 }
    | .patched | .unchanged =>
      { n with cacheMisses := n.cacheMisses + 1, pipelineRuns := n.pipelineRuns + 1 }
  | .error (.patch _ _) | .error (.cache _) =>
    { n with cacheMisses := n.cacheMisses + 1, pipelineRuns := n.pipelineRuns + 1 }
  | .error (.unreadable _ _) | .error (.config _) => n

/-- **An answer that leaves the disk as it is**: the source cannot be read or cannot be rewritten, or
it is out of scope, or it is in the cache. -/
def ResolveError.Quiet : Except ResolveError Resolved → Prop
  | .ok res => res.origin = .outOfScope ∨ res.origin = .cacheHit
  | .error (.unreadable _ _) | .error (.patch _ _) => True
  | .error (.cache _) | .error (.config _) => False

/-- **Where misses and runs are counted alike they are so after an answer.** -/
theorem Counts.balanced_tally {n : Counts} (balanced : n.cacheMisses = n.pipelineRuns)
    (answer : Except ResolveError Resolved) :
    (n.tally answer).cacheMisses = (n.tally answer).pipelineRuns := by
  unfold tally
  split
  · split <;> simp only [balanced]
  all_goals simp only [balanced]

namespace Active

/-- **The ways in which a path is resolved.** -/
inductive Resolves (a : Active) (d : Disk) (p : Path) :
    Except ResolveError Resolved → Active → Disk → Prop where
  /-- The source cannot be read. -/
  | unread {cause : Fault} (read : d.read (d.normalize p).path = .error cause) :
      Resolves a d p (.error (.unreadable p cause)) a d
  /-- The source is out of scope. -/
  | passed {raw : Bytes} (read : d.read (d.normalize p).path = .ok raw)
      (outside : a.scope.covers (d.normalize p) = false) :
      Resolves a d p (.ok ⟨p, raw, .outOfScope⟩) a.countPassed d
  /-- There is something in the cache. -/
  | hit {raw bytes : Bytes} (read : d.read (d.normalize p).path = .ok raw)
      (covers : a.scope.covers (d.normalize p) = true)
      (valid : a.cache.hasValid d (d.normalize p).path (Fingerprint.of raw) = true)
      (kept : a.cache.read d (d.normalize p).path = .ok bytes) :
      Resolves a d p (.ok ⟨p, bytes, .cacheHit⟩) a.countHit d
  /-- The source cannot be rewritten. -/
  | failed {raw : Bytes} {cause : PatchError} (read : d.read (d.normalize p).path = .ok raw)
      (covers : a.scope.covers (d.normalize p) = true)
      (missed : a.cache.hasValid d (d.normalize p).path (Fingerprint.of raw) = false)
      (runs : a.pipeline.run raw = .error cause) :
      Resolves a d p (.error (.patch p cause)) a.countRun d
  /-- What is made of the source cannot be kept. -/
  | unkept {raw : Bytes} {output : PatchOutput} {cause : CacheError} {d' : Disk}
      (read : d.read (d.normalize p).path = .ok raw)
      (covers : a.scope.covers (d.normalize p) = true)
      (missed : a.cache.hasValid d (d.normalize p).path (Fingerprint.of raw) = false)
      (runs : a.pipeline.run raw = .ok output)
      (written : a.cache.write d (d.normalize p).path (Fingerprint.of raw) output.source
        = (.error cause, d')) :
      Resolves a d p (.error (.cache cause)) a.countRun d'
  /-- The source is rewritten. -/
  | rewritten {raw : Bytes} {output : PatchOutput} {d' : Disk}
      (read : d.read (d.normalize p).path = .ok raw)
      (covers : a.scope.covers (d.normalize p) = true)
      (missed : a.cache.hasValid d (d.normalize p).path (Fingerprint.of raw) = false)
      (runs : a.pipeline.run raw = .ok output)
      (written : a.cache.write d (d.normalize p).path (Fingerprint.of raw) output.source
        = (.ok (), d')) :
      Resolves a d p (.ok ⟨p, output.source, if output.patched then .patched else .unchanged⟩)
        a.countRun d'

variable {a a' : Active} {d d' : Disk} {p : Path} {answer : Except ResolveError Resolved}

/-- **A path is resolved in one of these ways.** What is valid in a cache can be read, so no answer
tells that it cannot be. -/
theorem resolves (a : Active) (d : Disk) (p : Path) :
    a.Resolves d p (a.resolve d p).1 (a.resolve d p).2.1 (a.resolve d p).2.2 := by
  unfold resolve
  simp only
  cases read : d.read (d.normalize p).path with
  | error cause => exact .unread read
  | ok raw =>
      simp only
      cases covers : a.scope.covers (d.normalize p) with
      | false => exact .passed read covers
      | true =>
          cases valid : a.cache.hasValid d (d.normalize p).path (Fingerprint.of raw) with
          | true =>
              obtain ⟨-, bytes, kept⟩ := RewriteCache.hasValid_iff.1 valid
              simp only [kept, Bool.not_true, Bool.false_eq_true, if_false, if_true]
              exact .hit read covers valid kept
          | false =>
              simp only [Bool.not_true, Bool.false_eq_true, if_false, rewrite]
              cases runs : a.pipeline.run raw with
              | error cause => exact .failed read covers valid runs
              | ok output =>
                  simp only
                  rcases written : a.cache.write d (d.normalize p).path (Fingerprint.of raw)
                    output.source with ⟨cause | ⟨⟨⟩⟩, d'⟩
                  · exact .unkept read covers valid runs written
                  · exact .rewritten read covers valid runs written

namespace Resolves

/-- **The answer is counted**, and nothing else is changed in what is in use. -/
theorem counts_eq (h : a.Resolves d p answer a' d') :
    a' = { a with counts := a.counts.tally answer } := by
  cases h with
  | unread | passed | hit | failed | unkept => rfl
  | @rewritten raw output => cases patched : output.patched <;> rfl

/-- **A resolver in use does not find fault with its settings.** -/
theorem ne_config (h : a.Resolves d p answer a' d') (cause : ConfigError) :
    answer ≠ .error (.config cause) := by
  cases h <;> exact fun absurdity => by cases absurdity

/-- **The disk is changed only for a source that has been rewritten.** -/
theorem disk_eq (h : a.Resolves d p answer a' d') (quiet : ResolveError.Quiet answer) : d' = d := by
  cases h with
  | unread | passed | hit | failed => rfl
  | unkept => exact quiet.elim
  | @rewritten raw output =>
      unfold ResolveError.Quiet at quiet
      cases patched : output.patched <;> simp [patched] at quiet

/-- **Where a source cannot be rewritten it is in scope.** -/
theorem covers_of_patch {q : Path} {cause : PatchError}
    (h : a.Resolves d p (.error (.patch q cause)) a' d') :
    a.scope.covers (d.normalize p) = true := by
  cases h with
  | failed read covers => exact covers

end Resolves

/-- **What is valid in the cache is loaded.** -/
theorem resolve_of_valid {place : Location} {raw bytes : Bytes} (place_eq : d.normalize p = place)
    (read : d.read place.path = .ok raw) (covers : a.scope.covers place = true)
    (valid : a.cache.hasValid d place.path (Fingerprint.of raw) = true)
    (kept : a.cache.read d place.path = .ok bytes) :
    (a.resolve d p).1 = .ok ⟨p, bytes, .cacheHit⟩ := by
  subst place_eq
  unfold resolve
  simp only [read, covers, valid, kept, Bool.not_true, Bool.false_eq_true, if_false, if_true]

end Active

/-- **A pipeline with patchers rewrites no source that does not fit the grammar.** -/
theorem Pipeline.run_of_malformed {pipeline : Pipeline} {raw : Bytes} {cause : SyntaxError}
    (ne : pipeline.patchers ≠ []) (malformed : Script.parse raw = .error cause) :
    pipeline.run raw = .error (.malformed cause) := by
  have some : pipeline.patchers.isEmpty = false := by
    rw [Bool.eq_false_iff, Ne, List.isEmpty_iff]
    exact ne
  rw [run, some, malformed]
  rfl

/-- **A source that does not fit the grammar is told to be so** by patchers exactly if there is
nothing in the cache for its content. -/
theorem Active.Resolves.malformed_iff {a a' : Active} {d d' : Disk} {p : Path}
    {answer : Except ResolveError Resolved} (h : a.Resolves d p answer a' d')
    (ne : a.pipeline.patchers ≠ []) {raw : Bytes} {cause : SyntaxError}
    (read : d.read (d.normalize p).path = .ok raw)
    (covers : a.scope.covers (d.normalize p) = true)
    (malformed : Script.parse raw = .error cause) :
    answer = .error (.patch p (.malformed cause))
      ↔ a.cache.hasValid d (d.normalize p).path (Fingerprint.of raw) = false := by
  have ran := Pipeline.run_of_malformed ne malformed
  cases h with
  | unread read' =>
      rw [read] at read'
      cases read'
  | passed read' outside =>
      rw [covers] at outside
      cases outside
  | hit read' _ valid =>
      obtain rfl := Except.ok.inj (read.symm.trans read')
      rw [valid]
      exact iff_of_false (fun absurdity => by cases absurdity) Bool.noConfusion
  | failed read' _ missed runs =>
      obtain rfl := Except.ok.inj (read.symm.trans read')
      obtain rfl := Except.error.inj (ran.symm.trans runs)
      exact iff_of_true rfl missed
  | unkept read' _ _ runs =>
      obtain rfl := Except.ok.inj (read.symm.trans read')
      rw [ran] at runs
      cases runs
  | rewritten read' _ _ runs =>
      obtain rfl := Except.ok.inj (read.symm.trans read')
      rw [ran] at runs
      cases runs

/-- **What a cache gives back depends on two files.** -/
theorem RewriteCache.hasValid_congr {c : RewriteCache} {d d' : Disk} {source : Path}
    {content : Fingerprint} (record : d'.read (c.recordPath source) = d.read (c.recordPath source))
    (kept : d'.read (c.sourcePath source) = d.read (c.sourcePath source))
    (valid : c.hasValid d source content = true) : c.hasValid d' source content = true := by
  rw [hasValid_iff, record]
  obtain ⟨told, rewritten, read⟩ := hasValid_iff.1 valid
  refine ⟨told, rewritten, ?_⟩
  rwa [read_eq_ok_iff, kept, ← read_eq_ok_iff]

namespace Resolver

/-! ## What a call accounts for -/

/-- **What is counted, changed and kept when a path is resolved** by a resolver in use. -/
structure Accounts (r : Resolver) (a : Active) (d : Disk) (p : Path) : Prop where
  /-- The answer is counted, and the resolver stays as it is otherwise. -/
  counts : (r.resolve d p).2.1
    = { r with active := some { a with counts := a.counts.tally (r.resolve d p).1 } }
  /-- The settings are not found fault with. -/
  settled : ∀ cause, (r.resolve d p).1 ≠ .error (.config cause)
  /-- No file is changed unless a source has been rewritten. -/
  quiet : ResolveError.Quiet (r.resolve d p).1 → (r.resolve d p).2.2 = d
  /-- Where the source cannot be rewritten, what is in the cache for another content is loaded once
  that content is back, as long as the two files of the cache are the same. -/
  restored : ∀ q cause, (r.resolve d p).1 = .error (.patch q cause) → ∀ old bytes,
    a.cache.hasValid d (d.normalize p).path (Fingerprint.of old) = true →
    a.cache.read d (d.normalize p).path = .ok bytes → ∀ d' : Disk,
      d'.normalize p = d.normalize p → d'.read (d.normalize p).path = .ok old →
      d'.read (a.cache.recordPath (d.normalize p).path)
        = (r.resolve d p).2.2.read (a.cache.recordPath (d.normalize p).path) →
      d'.read (a.cache.sourcePath (d.normalize p).path)
        = (r.resolve d p).2.2.read (a.cache.sourcePath (d.normalize p).path) →
      ((r.resolve d p).2.1.resolve d' p).1 = .ok ⟨p, bytes, .cacheHit⟩
  /-- If any patcher is listed, a source in scope that does not fit the grammar is told to be so
  exactly if there is nothing in the cache for its content. -/
  malformed : r.config.patcherList ≠ [] → ∀ raw cause, d.read (d.normalize p).path = .ok raw →
    a.scope.covers (d.normalize p) = true → Script.parse raw = .error cause →
    ((r.resolve d p).1 = .error (.patch p (.malformed cause))
      ↔ a.cache.hasValid d (d.normalize p).path (Fingerprint.of raw) = false)

/-- **The pipeline has run as often as something was missing in the cache**, and it has patchers if
any are listed. -/
structure Balanced (r : Resolver) : Prop where
  /-- Misses and runs are counted alike. -/
  counts : ∀ a, r.active = some a → a.counts.cacheMisses = a.counts.pipelineRuns
  /-- There are patchers. -/
  patchers : ∀ a, r.active = some a → r.config.patcherList ≠ [] → a.pipeline.patchers ≠ []

variable {r r' : Resolver} {a : Active} {d d' : Disk} {p : Path}

/-- **A resolver in use that is balanced accounts for whatever it resolves.** -/
theorem Balanced.accounts (balanced : r.Balanced) (active : r.active = some a) (d : Disk)
    (p : Path) : r.Accounts a d p := by
  have resolves := a.resolves d p
  have eq := resolve_of_active active d p
  have answer : (r.resolve d p).1 = (a.resolve d p).1 := by rw [eq]
  have inUse : (r.resolve d p).2.1.active = some (a.resolve d p).2.1 := by rw [eq]
  have after : (r.resolve d p).2.2 = (a.resolve d p).2.2 := by rw [eq]
  refine ⟨?_, ?_, ?_, ?_, ?_⟩
  · rw [eq, ← resolves.counts_eq]
  · rw [answer]
    exact resolves.ne_config
  · rw [answer, after]
    exact resolves.disk_eq
  · intro q cause failed old bytes valid kept d' place_eq read record source
    rw [answer] at failed
    rw [after, resolves.disk_eq (by rw [failed]; trivial)] at record source
    rw [failed] at resolves
    rw [resolve_of_active inUse]
    simp only
    obtain ⟨cache, -, scope⟩ := a.resolve_state d p
    refine Active.resolve_of_valid place_eq read ?_ ?_ ?_
    · rw [scope]
      exact resolves.covers_of_patch
    · rw [cache]
      exact RewriteCache.hasValid_congr record source valid
    · rw [cache]
      exact RewriteCache.read_eq_ok_iff.2 (source.trans (RewriteCache.read_eq_ok_iff.1 kept))
  · intro listed raw cause read covers malformed
    rw [answer]
    exact resolves.malformed_iff (balanced.patchers a active listed) read covers malformed

/-! ## Resolvers in use -/

/-- **A resolver that is not in use is balanced.** -/
theorem balanced_of_unused (unused : r.active = none) : r.Balanced := by
  refine ⟨fun a active => ?_, fun a active => ?_⟩ <;>
  · rw [unused] at active
    cases active

/-- **A patcher is chosen for the first name that is listed**, if it is known. -/
theorem choose_ne_nil {c : Configuration} {registered : List Patcher} {name : String}
    {names : List String} (known : (!registered.any (·.name == name)
      && !Configuration.builtIn.contains name) = false) :
    choose c registered (name :: names) ≠ [] := by
  rw [choose]
  cases found : registered.find? (·.name == name) with
  | some p => exact List.cons_ne_nil _ _
  | none =>
      have absent : registered.any (·.name == name) = false :=
        List.any_eq_false.2 (List.find?_eq_none.1 found)
      rw [absent, Bool.not_false, Bool.true_and, Bool.not_eq_false', List.contains_iff_mem] at known
      obtain ⟨p, built⟩ := Option.isSome_iff_exists.1 (isSome_builtIn?_iff (c := c).2 known)
      simp only [built]
      exact List.cons_ne_nil _ _

/-- **A resolver that is taken into use is balanced**, and so is one that is in use. -/
theorem Balanced.activeState (balanced : r.Balanced)
    (passed : r.activeState d = (.ok (a, r'), d')) : r'.active = some a ∧ r'.Balanced := by
  unfold Resolver.activeState at passed
  cases active : r.active with
  | some b =>
      rw [active] at passed
      cases passed
      exact ⟨active, balanced⟩
  | none =>
      rw [active] at passed
      obtain ⟨root, names, opened, act⟩ := exists_activates passed
      have known := List.find?_eq_none.1 (unknown?_of_activate passed)
      refine ⟨act.active, fun b inUse => ?_, fun b inUse listed => ?_⟩ <;>
        obtain rfl := Option.some.inj (act.active.symm.trans inUse)
      · rw [(scope_counts_of_activate passed).2]
      · have list : r'.config.patcherList = r.config.patcherList := by rw [act.config]; rfl
        rw [list] at listed
        rw [act.pipeline, pipelineWith]
        obtain ⟨name, rest, eq⟩ := List.exists_cons_of_ne_nil listed
        rw [eq] at known ⊢
        exact choose_ne_nil (Bool.eq_false_iff.2 (known name List.mem_cons_self))

/-- **A resolver in use stays balanced** when misses and runs are counted alike. -/
theorem Balanced.count (balanced : r.Balanced) (active : r.active = some a) {n : Counts}
    (alike : n.cacheMisses = n.pipelineRuns) :
    Balanced { r with active := some { a with counts := n } } := by
  refine ⟨fun b inUse => ?_, fun b inUse => ?_⟩ <;> obtain rfl := Option.some.inj inUse
  · exact alike
  · exact balanced.patchers a active

/-- **A resolver stays balanced** when it is locked, resolves a path or clears its cache. -/
theorem Balanced.use (balanced : r.Balanced) (d : Disk) (p : Path) :
    (r.lock d).2.1.Balanced ∧ (r.resolve d p).2.1.Balanced ∧ (r.clearCache d).2.1.Balanced := by
  unfold lock resolve clearCache
  rcases passed : r.activeState d with ⟨e | ⟨a, r'⟩, d'⟩
  · exact ⟨balanced, balanced, balanced⟩
  · obtain ⟨active, balanced'⟩ := balanced.activeState passed
    have alike := Counts.balanced_tally (balanced'.counts a active) (a.resolve d' p).1
    simp only
    rw [(a.resolves d' p).counts_eq]
    exact ⟨balanced', balanced'.count active alike, balanced'⟩

end Resolver

/-! ## Runs -/

namespace AxisSnapshot

variable {s t : AxisSnapshot}

/-- **Texts have parts if there are any.** -/
theorem parts_eq_nil_iff {values : List String} : parts values = [] ↔ values = [] := by
  cases values with
  | nil => exact iff_of_true rfl rfl
  | cons v vs =>
      rw [parts, List.flatMap_cons, List.append_eq_nil_iff]
      refine iff_of_false (fun none => List.splitOn_ne_nil _ _ none.1) (List.cons_ne_nil v vs)

/-- **Where two snapshots have the same bytes**, both list a patcher or none does. -/
theorem patcherList_eq_nil_iff (same : s.bytes = t.bytes) :
    s.patcherList = [] ↔ t.patcherList = [] := by
  have alike := bytes_eq_iff.1 same .patcherList
  rw [← parts_eq_nil_iff, ← parts_eq_nil_iff]
  exact iff_of_eq (congrArg (· = []) alike)

end AxisSnapshot

namespace World

variable {ι : Type} [DecidableEq ι] {w : World ι} {root : Path} {l : Location} {i : ι} {a : Active}

/-- **Resolvers stay balanced in a step.** -/
theorem balanced_step (balanced : ∀ j, (w.resolvers j).Balanced) (e : Event ι) (j : ι) :
    ((w.step e).resolvers j).Balanced := by
  have update (k : ι) {r : Resolver} (d : Disk) (used : r.Balanced) :
      ((w.update k r d).resolvers j).Balanced := by
    by_cases same : j = k
    · rw [same, resolvers_update_self]
      exact used
    · rw [resolvers_update_of_ne w same]
      exact balanced j
  cases e with
  | outside d => exact balanced j
  | lock k => exact update k _ ((balanced k).use w.disk ⟨""⟩).1
  | resolve k p => exact update k _ ((balanced k).use w.disk p).2.1
  | clear k => exact update k _ ((balanced k).use w.disk ⟨""⟩).2.2

/-- **Resolvers stay balanced in a run.** -/
theorem balanced_run (balanced : ∀ j, (w.resolvers j).Balanced) (events : List (Event ι)) (j : ι) :
    ((w.run events).resolvers j).Balanced := by
  induction events generalizing w with
  | nil => exact balanced j
  | cons e es ih => exact ih (balanced_step balanced e)

/-- **A cache that is left to resolvers keeps nothing for a source that does not fit the grammar**,
as far as a resolver can tell that lists a patcher. -/
theorem hasValid_of_malformed (up : SetUp root w.resolvers) (houses : w.disk.Houses root l)
    (plain : w.disk.PlainIn l)
    (none : ∀ source body, w.disk.get? (Disk.recordAt l source) ≠ some (.file body))
    {events : List (Event ι)} (closed : w.Sealed root l events)
    (active : ((w.run events).resolvers i).active = some a)
    (listed : (w.resolvers i).config.patcherList ≠ []) {raw : Bytes} {cause : SyntaxError}
    (malformed : Script.parse raw = .error cause)
    (fingerprints : ∀ other ∈ w.contents events,
      Fingerprint.of other = Fingerprint.of raw → other = raw)
    (generations : ∀ j, (AxisSnapshot.of (w.resolvers j).config).generation
        = (AxisSnapshot.of (w.resolvers i).config).generation →
      (AxisSnapshot.of (w.resolvers j).config).bytes
        = (AxisSnapshot.of (w.resolvers i).config).bytes) (source : Path) :
    a.cache.hasValid (w.run events).disk source (Fingerprint.of raw) = false := by
  have start : Invariant root l w.resolvers (· = w.disk.listedIn l) w [] :=
    .initial houses plain none rfl
  have inv := start.run up (start.tame_of_sealed up closed)
  obtain ⟨_, -, -, cache, -⟩ := inv.in_use up active
  obtain rfl : a.cache.root = root := inv.cache_root up active
  refine Bool.eq_false_iff.2 fun valid => ?_
  obtain ⟨-, rewritten, kept⟩ := RewriteCache.hasValid_iff.1 valid
  -- Whatever is kept was made by a resolver of the same generation, of the same content.
  obtain ⟨j, b, other, output, inUse, generation, seen, same, ran, -⟩ := inv.order.hit valid kept
  obtain rfl : other = raw := fingerprints other (by simpa using seen) same
  obtain ⟨_, -, config, cache', -⟩ := inv.in_use up inUse
  rw [cache, cache'] at generation
  have lists : (w.resolvers j).config.patcherList ≠ [] :=
    mt (AxisSnapshot.patcherList_eq_nil_iff (generations j generation)).1 listed
  have balanced := balanced_run (fun k => Resolver.balanced_of_unused (up.fresh k)) events j
  have patchers := balanced.patchers b inUse (by rw [config]; exact lists)
  rw [Pipeline.run_of_malformed patchers malformed] at ran
  cases ran

/-- **Resolving accounts for what it does.** Resolvers are set up and used in any order, while the
disk changes in any way. Whatever one that is in use then resolves on whatever disk, its answer is
counted in one way, or not at all if a source cannot be read; no file is changed unless a source has
been rewritten; where a source cannot be rewritten, what the cache holds for an earlier content is
loaded when that is back; and where a patcher is listed, a source in scope that does not fit the
grammar is told to be so exactly if the cache holds nothing for its content. So there are as many
misses as runs. And if the resolvers use one cache, which has no links in its directories and no
records to begin with, and nobody else changes its files, then such a source is never loaded,
provided that no other content that is read has its fingerprint, and no snapshot of axes with other
bytes the generation of the resolver. -/
theorem resolve_accounts (fresh : ∀ j, (w.resolvers j).active = none) (events : List (Event ι))
    (active : ((w.run events).resolvers i).active = some a) :
    (∀ d p, ((w.run events).resolvers i).Accounts a d p)
      ∧ (∀ j, ((w.run events).resolvers j).counts.cacheMisses
        = ((w.run events).resolvers j).counts.pipelineRuns)
      ∧ ∀ (root : Path) (l : Location) (p : Path) (raw : Bytes) (cause : SyntaxError),
        SetUp root w.resolvers → w.disk.Houses root l → w.disk.PlainIn l →
        (∀ source body, w.disk.get? (Disk.recordAt l source) ≠ some (.file body)) →
        w.Sealed root l events → (w.resolvers i).config.patcherList ≠ [] →
        (∀ other ∈ w.contents events, Fingerprint.of other = Fingerprint.of raw → other = raw) →
        (∀ j, (AxisSnapshot.of (w.resolvers j).config).generation
            = (AxisSnapshot.of (w.resolvers i).config).generation →
          (AxisSnapshot.of (w.resolvers j).config).bytes
            = (AxisSnapshot.of (w.resolvers i).config).bytes) →
        (w.run events).disk.read ((w.run events).disk.normalize p).path = .ok raw →
        a.scope.covers ((w.run events).disk.normalize p) = true → Script.parse raw = .error cause →
        (((w.run events).resolvers i).resolve (w.run events).disk p).1
          = .error (.patch p (.malformed cause)) := by
  have balanced := balanced_run (fun j => Resolver.balanced_of_unused (fresh j)) events
  refine ⟨fun d p => (balanced i).accounts active d p, fun j => ?_, ?_⟩
  · cases inUse : ((w.run events).resolvers j).active with
    | none =>
        rw [Resolver.counts, inUse]
        rfl
    | some b =>
        rw [Resolver.counts, inUse]
        exact (balanced j).counts b inUse
  · intro root l p raw cause up houses plain none closed listed fingerprints generations read covers
      malformed
    have start : Invariant root l w.resolvers (· = w.disk.listedIn l) w [] :=
      .initial houses plain none rfl
    have inv := start.run up (start.tame_of_sealed up closed)
    obtain ⟨_, -, config, -⟩ := inv.in_use up active
    refine (((balanced i).accounts active _ p).malformed ?_ raw cause read covers malformed).2
      (hasValid_of_malformed up houses plain none closed active listed malformed fingerprints
        generations _)
    rw [config]
    exact listed

/-- **A resolver that redirects the calls of `rand`**, and a source that does not fit the grammar. -/
def broken : World Unit :=
  ⟨fun _ => .of Resolver.randOnly,
    ⟨[(["s"], .directory), (["s", "a.php"], .file (bytesOf "<?php rand("))], []⟩⟩

/-- **The source is resolved in vain each time**, and each time that is counted. -/
theorem resolve_accounts_broken :
    ∃ now cause, now = broken.run [.resolve () ⟨"/s/a.php"⟩]
      ∧ ((now.resolvers ()).resolve now.disk ⟨"/s/a.php"⟩).1
        = .error (.patch ⟨"/s/a.php"⟩ (.malformed cause))
      ∧ (now.resolvers ()).counts.cacheMisses = 1 ∧ (now.resolvers ()).counts.pipelineRuns = 1 := by
  obtain ⟨contents, read, scope, misses⟩ :
      broken.contents [.resolve () ⟨"/s/a.php"⟩] = [bytesOf "<?php rand("]
        ∧ ((broken.run [.resolve () ⟨"/s/a.php"⟩]).disk.read
          ((broken.run [.resolve () ⟨"/s/a.php"⟩]).disk.normalize ⟨"/s/a.php"⟩).path).toOption
          = some (bytesOf "<?php rand(")
        ∧ ((broken.run [.resolve () ⟨"/s/a.php"⟩]).resolvers ()).active.map (fun a => a.scope.covers
          ((broken.run [.resolve () ⟨"/s/a.php"⟩]).disk.normalize ⟨"/s/a.php"⟩)) = some true
        ∧ ((broken.run [.resolve () ⟨"/s/a.php"⟩]).resolvers ()).counts.cacheMisses = 1 := by
    decide +kernel
  obtain ⟨a, active, covers⟩ := Option.map_eq_some_iff.1 scope
  have malformed : (Script.parse (bytesOf "<?php rand(")).toOption.isNone = true := by
    decide +kernel
  cases parsed : Script.parse (bytesOf "<?php rand(") with
  | ok s =>
      rw [parsed] at malformed
      cases malformed
  | error cause =>
      have links : broken.disk.SameLinks (broken.disk.put ["c"] .directory) :=
        (Disk.Grows.put_directory (by decide +kernel)).steady.links
      have led : (broken.disk.put ["c"] .directory).LeadsTo ⟨"/c"⟩ ["c"] := rfl
      obtain ⟨-, balanced, told⟩ := resolve_accounts (fun _ => rfl) _ active
      refine ⟨_, cause, rfl, told ⟨"/c"⟩ ["c"] _ _ cause ⟨fun _ => rfl, fun _ => rfl⟩
        (led.houses links rfl) (Disk.plainIn_of_entries (by simp [broken]) _)
        (Disk.no_records_of_entries (by decide)) ⟨trivial, trivial⟩ (by decide) ?_
        (fun _ _ => rfl) (ok_of_toOption read) covers parsed, misses,
        (balanced ()).symm.trans misses⟩
      intro other seen _
      rw [contents] at seen
      exact List.mem_singleton.1 seen

/-- **The resolver and the source, and something in the cache that was not made of the source.** -/
def foreign : World Unit :=
  let cache := (Resolver.of Resolver.randOnly).cacheIn ⟨"/c"⟩
  ⟨broken.resolvers, (cache.write (broken.run [.lock ()]).disk ⟨"/s/a.php"⟩
    (Fingerprint.of (bytesOf "<?php rand(")) (bytesOf "old")).2⟩

/-- **The resolver and a source that fits the grammar still, and one that reads as the record of the
other one will.** The directory of the records is a link, so that it is kept as that record. -/
def forged : World Unit :=
  let record : EntryRecord := ⟨Fingerprint.of (bytesOf "<?php rand("),
    (AxisSnapshot.of Resolver.randOnly).generation⟩
  let sources := (broken.disk.put ["s", "a.php"] (.file (bytesOf "<?php echo 1;"))).put
    ["s", "a.php.json"] (.file record.toJson.toBytes)
  let opened := World.run ⟨broken.resolvers, sources⟩ [.lock ()]
  ⟨broken.resolvers, opened.disk.put ["c", "meta"] (.link ⟨"src"⟩)⟩

/-- **A source that does not fit the grammar may be loaded all the same**, though a patcher is
listed: from a cache in which somebody else has put something, and from one in whose directories
there are links. -/
theorem loads_malformed :
    (Script.parse (bytesOf "<?php rand(")).toOption.isNone = true
      ∧ Resolver.randOnly.patcherList = ["function"]
      ∧ foreign.disk.read ⟨"/s/a.php"⟩ = .ok (bytesOf "<?php rand(")
      ∧ ((foreign.resolvers ()).resolve foreign.disk ⟨"/s/a.php"⟩).1.toOption
        = some ⟨⟨"/s/a.php"⟩, bytesOf "old", .cacheHit⟩
      ∧ ∃ kept now, kept = forged.run [.resolve () ⟨"/s/a.php"⟩, .resolve () ⟨"/s/a.php.json"⟩]
        ∧ now = kept.step (.outside (kept.disk.put ["s", "a.php"]
          (.file (bytesOf "<?php rand("))))
        ∧ ((now.resolvers ()).resolve now.disk ⟨"/s/a.php"⟩).1.toOption
          = some ⟨⟨"/s/a.php"⟩, bytesOf "<?php echo 1;", .cacheHit⟩ := by
  refine ⟨by decide +kernel, rfl, ok_of_toOption (by decide +kernel), by decide +kernel, _, _, rfl,
    rfl, ?_⟩
  decide +kernel

end World

end Seams
