import Mathlib.Data.List.Basic
import Mathlib.Tactic.Common
import Seams.Proofs.Coherence
import Seams.Proofs.Rewriting

/-! # Whose blacklist decides
The blacklist of a resolver is no axis, so a rewritten source stays in the cache when the blacklist
changes. What comes out of the cache was made by a resolver with the same axes, and its blacklist is
the one that decided which calls are redirected.
Main definitions:
* **`World.blacklist`** — the names on the blacklist of a resolver as it is now. -/

namespace Seams

/-! ## The pipeline that redirects calls -/

/-- **Calls by a name are not redirected** exactly if it is on the blacklist or not whitelisted. -/
theorem Redirect.isRedirected_eq_false_iff {whitelist blacklist : NameSet} {word : String} :
    isRedirected whitelist blacklist word = false
      ↔ (whitelist.contains word = true → blacklist.contains word = true) := by
  rw [isRedirected]
  cases blacklist.contains word <;> cases whitelist.contains word <;> decide

namespace Resolver

/-- **The pipeline of a resolver that lists nothing but the redirection of calls**, which nobody has
replaced. -/
theorem pipelineWith_calls {r : Resolver} (list : r.config.patcherList = [Redirect.callsName])
    (builtIn : ∀ q ∈ r.registered, q.name ≠ Redirect.callsName) (names : List String) :
    r.pipelineWith names
      = ⟨[Redirect.calls r.config.whitelist (r.config.blacklist.insertAll names)],
          r.config.verifyOutput⟩ := by
  have unregistered : r.registered.find? (·.name == Redirect.callsName) = none := by
    rw [List.find?_eq_none]
    intro q mem
    rw [beq_iff_eq]
    exact builtIn q mem
  have chosen : choose (r.extended names) r.registered [Redirect.callsName]
      = [Redirect.calls r.config.whitelist (r.config.blacklist.insertAll names)] := by
    rw [choose, unregistered]
    rfl
  rw [pipelineWith, list, chosen]

end Resolver

/-! ## Sessions with different blacklists -/

namespace World

open Redirect

variable {ι : Type}

/-- **The names on the blacklist of a resolver** as it is now. Once it is in use, the names that the
cache listed then are among them. -/
def blacklist (w : World ι) (i : ι) : NameSet := (w.resolvers i).config.blacklist

variable [DecidableEq ι] {root : Path} {l : Location} {w : World ι}

/-- **What is loaded was made with the blacklist of the resolver that made it.** Resolvers use one
cache, which has no links in its directories and no records to begin with, in any order and with any
configurations; other files change meanwhile, the list in the cache among them. If one of them that
redirects calls alone loads a path in scope, then a resolver in use has made the result of a content
that was read, which has the fingerprint of the present one: the resolver itself, unless the result
comes from the cache, and then one of the same generation. If that one has the same axes, the calls
that are redirected are those by whitelisted names that are not on its blacklist. So no call by a
name on the blacklist of the resolver that loads is redirected exactly if the other one has the
whitelisted ones among these names on its own blacklist, and the content is as it was exactly if it
has all whitelisted names there. -/
theorem resolve_redirects (up : SetUp root w.resolvers) (houses : w.disk.Houses root l)
    (plain : w.disk.PlainIn l)
    (none : ∀ source body, w.disk.get? (Disk.recordAt l source) ≠ some (.file body))
    (builtIn : ∀ j, ∀ q ∈ (w.resolvers j).registered, q.name ≠ Redirect.callsName)
    {events : List (Event ι)} (tame : w.Tame root l (fun _ => True) events) {i : ι} {p : Path}
    (list : (w.resolvers i).config.patcherList = [Redirect.callsName]) {res : Resolved}
    (loaded : (((w.run events).resolvers i).resolve (w.run events).disk p).1 = .ok res)
    (inScope : res.origin ≠ .outOfScope) {whitelist : NameSet}
    (listed : whitelist = (w.resolvers i).config.whitelist) {w' : World ι}
    (after : w' = w.run (events ++ [.resolve i p])) :
    ∃ raw j raw', (w.run events).contentRead (.resolve i p) = some raw
      ∧ (res.origin = .cacheHit ∨ j = i ∧ raw' = raw)
      ∧ raw' ∈ w.contents (events ++ [.resolve i p])
      ∧ Fingerprint.of raw' = Fingerprint.of raw ∧ (w'.resolvers j).isLocked = true
      ∧ (AxisSnapshot.of (w.resolvers j).config).generation
          = (AxisSnapshot.of (w.resolvers i).config).generation
      ∧ (AxisSnapshot.of (w.resolvers j).config = AxisSnapshot.of (w.resolvers i).config →
          ∃ s, Script.parse raw' = .ok s
            ∧ res.bytes = redirecting s (isRedirected whitelist (w'.blacklist j))
            ∧ ((∀ word ∈ callees s, (w'.blacklist i).contains word = true →
                  isRedirected whitelist (w'.blacklist j) word = false)
                ↔ ∀ word ∈ callees s, whitelist.contains word = true →
                  (w'.blacklist i).contains word = true → (w'.blacklist j).contains word = true)
            ∧ (res.bytes = raw' ↔ ∀ word ∈ callees s, whitelist.contains word = true →
                (w'.blacklist j).contains word = true)) := by
  have start : Invariant root l w.resolvers (fun _ => True) w [] :=
    .initial houses plain none trivial
  have inv := start.run up tame
  have inv' := inv.step up (.resolve i p) trivial
  have next : (w.run events).step (.resolve i p) = w' := by
    rw [after, run_concat]
  rcases resolved : ((w.run events).resolvers i).resolve (w.run events).disk p with ⟨result, r, d⟩
  rw [resolved] at loaded
  obtain rfl : result = .ok res := loaded
  obtain ⟨a, raw, active, read, way⟩ := inv.loaded up resolved inScope
  have state : (w'.resolvers i).active = some a := by
    rw [← next, step, resolved]
    simpa using active
  rw [next] at inv' way
  -- The result was made by a resolver in use, the one that loads it or another one.
  obtain ⟨j, b, raw', output, active', origin, seen, fingerprint, generation, run, bytes⟩ :
      ∃ j b raw' output, (w'.resolvers j).active = some b
        ∧ (res.origin = .cacheHit ∨ j = i ∧ raw' = raw)
        ∧ raw' ∈ w.contents (events ++ [.resolve i p])
        ∧ Fingerprint.of raw' = Fingerprint.of raw ∧ b.cache.generation = a.cache.generation
        ∧ b.pipeline.run raw' = .ok output ∧ res.bytes = output.source := by
    rw [contents_append, read]
    rcases way with ⟨output, run, bytes⟩ | ⟨hit, j, b, raw', output, active', generation, seen,
      same, run, bytes⟩
    · refine ⟨i, a, raw, output, state, .inr ⟨rfl, rfl⟩, ?_, rfl, rfl, run, bytes⟩
      exact List.mem_append_right _ (by simp)
    · refine ⟨j, b, raw', output, active', .inl hit, ?_, same, generation, run, bytes⟩
      exact List.mem_append_left _ (by simpa using seen)
  obtain ⟨_, -, -, cache, -⟩ := inv'.in_use up state
  obtain ⟨names, -, config, cache', pipeline⟩ := inv'.in_use up active'
  rw [cache, cache'] at generation
  refine ⟨raw, j, raw', read, origin, seen, fingerprint, ?_, generation, fun snapshot => ?_⟩
  · rw [Resolver.isLocked, config]
    rfl
  have list' : (w.resolvers j).config.patcherList = [Redirect.callsName] :=
    (congrArg AxisSnapshot.patcherList snapshot).trans list
  have listed' : (w.resolvers j).config.whitelist = whitelist := by
    rw [listed]
    exact NameSet.ext (congrArg AxisSnapshot.functionWhitelist snapshot)
  rw [pipeline, Resolver.pipelineWith_calls list' (builtIn j), listed'] at run
  obtain ⟨s, parsed, eq⟩ := run_calls run
  have extended : w'.blacklist j = (w.resolvers j).config.blacklist.insertAll names := by
    rw [blacklist, config]
    rfl
  rw [← extended, ← bytes] at eq
  refine ⟨s, parsed, eq, ?_, ?_⟩
  · simp only [isRedirected_eq_false_iff]
    exact ⟨fun h word mem white own => h word mem own white,
      fun h word mem own white => h word mem white own⟩
  · rw [eq, redirecting_eq_iff parsed]
    simp only [isRedirected_eq_false_iff]

/-- **A resolver that redirects `rand`**, unless it is on the blacklist. It keeps what is below `/s`
in `/c`. -/
def randResolver (blacklist : NameSet) : Resolver :=
  .of ⟨some ⟨"/c"⟩, [⟨"/s"⟩], [], ["function"], .ofList ["rand"], blacklist, "", false, false⟩

/-- **Two resolvers and a source that calls `rand`**, which one of the two has on its blacklist. -/
def randPair : World Bool :=
  ⟨fun strict => randResolver (if strict then .ofList ["rand"] else .empty),
    ⟨[(["s"], .directory), (["s", "a.php"], .file (bytesOf "<?php rand();"))], []⟩⟩

/-- **The cache of the two is at one place**, though it is not there yet. -/
theorem houses_randPair : randPair.disk.Houses ⟨"/c"⟩ ["c"] := by
  have links : randPair.disk.SameLinks (randPair.disk.put ["c"] .directory) :=
    (Disk.Grows.put_directory (by decide +kernel)).steady.links
  have led : (randPair.disk.put ["c"] .directory).LeadsTo ⟨"/c"⟩ ["c"] := rfl
  exact led.houses links rfl

/-- **The one that has the name on its blacklist loads what the other one has made**, in which the
call is redirected. -/
theorem resolve_redirects_rand :
    ∃ w, w = randPair.run ([.resolve false ⟨"/s/a.php"⟩] ++ [.resolve true ⟨"/s/a.php"⟩])
      ∧ ∃ j s, Script.parse (bytesOf "<?php rand();") = .ok s
        ∧ bytesOf "<?php \\__FuncProxy__::rand();"
          = redirecting s (isRedirected (.ofList ["rand"]) (w.blacklist j))
        ∧ ¬ ∀ word ∈ callees s, (NameSet.ofList ["rand"]).contains word = true →
          (w.blacklist j).contains word = true := by
  have loaded : (((randPair.run [.resolve false ⟨"/s/a.php"⟩]).resolvers true).resolve
      (randPair.run [.resolve false ⟨"/s/a.php"⟩]).disk ⟨"/s/a.php"⟩).1.toOption
        = some ⟨⟨"/s/a.php"⟩, bytesOf "<?php \\__FuncProxy__::rand();", .cacheHit⟩ := by
    decide +kernel
  have tame : randPair.Tame ⟨"/c"⟩ ["c"] (fun _ => True) [.resolve false ⟨"/s/a.php"⟩] :=
    ⟨trivial, trivial⟩
  obtain ⟨raw, j, raw', -, -, seen, -, -, -, decided⟩ :=
    resolve_redirects ⟨fun _ => rfl, fun _ => rfl⟩ houses_randPair
      (Disk.plainIn_of_entries (by simp [randPair]) _)
      (Disk.no_records_of_entries (by decide)) (fun _ q mem => absurd mem List.not_mem_nil)
      tame rfl (ok_of_toOption loaded) (by decide) rfl rfl
  have contents : randPair.contents ([.resolve false ⟨"/s/a.php"⟩] ++ [.resolve true ⟨"/s/a.php"⟩])
      = [bytesOf "<?php rand();", bytesOf "<?php rand();"] := by decide +kernel
  obtain rfl : raw' = bytesOf "<?php rand();" := by
    rw [contents] at seen
    simpa using seen
  obtain ⟨s, parsed, bytes, -, kept⟩ := decided rfl
  refine ⟨_, rfl, j, s, parsed, bytes, fun all => ?_⟩
  exact absurd (kept.2 all) (by decide)

end World

end Seams
