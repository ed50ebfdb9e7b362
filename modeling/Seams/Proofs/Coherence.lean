import Mathlib.Data.List.Basic
import Mathlib.Tactic.Common
import Seams.Proofs.Sessions

/-! # Coherence of a shared cache
Resolvers that agree on everything that the axes do not tell may share a cache: what one of them
loads is what its own pipeline makes of the content that it reads, even if it comes from the cache
and another one has put it there.
Main definitions:
* **`World.Agree`** — resolvers agree on what the axes do not tell;
* **`World.Sealed`** — a run in which the files of the cache are changed by the resolvers only. -/

namespace Seams

/-! ## Patchers by their names -/

/-- **Erasing the first of some elements leaves the others of them.** -/
theorem filter_eraseP_self {α : Type} (p : α → Bool) (xs : List α) :
    (xs.eraseP p).filter p = (xs.filter p).tail := by
  induction xs with
  | nil => rfl
  | cons x xs ih =>
      by_cases h : p x
      · rw [List.eraseP_cons_of_pos h, List.filter_cons_of_pos h, List.tail_cons]
      · rw [List.eraseP_cons_of_neg h, List.filter_cons_of_neg h, List.filter_cons_of_neg h, ih]

/-- **Erasing one of some elements leaves all of others.** -/
theorem filter_eraseP_of_disjoint {α : Type} {p q : α → Bool}
    (disjoint : ∀ x, p x = true → q x = false) (xs : List α) :
    (xs.eraseP p).filter q = xs.filter q := by
  induction xs with
  | nil => rfl
  | cons x xs ih =>
      by_cases h : p x
      · rw [List.eraseP_cons_of_pos h, List.filter_cons_of_neg (by simp [disjoint x h])]
      · rw [List.eraseP_cons_of_neg h, List.filter_cons, List.filter_cons, ih]

namespace Resolver

/-- **Which patchers are chosen depends on what each name stands for**, and on the two sets of names
that the built-in ones take. -/
theorem choose_congr {c c' : Configuration} (whitelist : c.whitelist = c'.whitelist)
    (blacklist : c.blacklist = c'.blacklist) {registered registered' : List Patcher}
    {names : List String} (same : ∀ name ∈ names,
      registered.filter (·.name == name) = registered'.filter (·.name == name)) :
    choose c registered names = choose c' registered' names := by
  induction names generalizing registered registered' with
  | nil => rfl
  | cons name names ih =>
      have first := same name List.mem_cons_self
      have found : registered.find? (·.name == name) = registered'.find? (·.name == name) := by
        rw [← List.head?_filter, ← List.head?_filter, first]
      have others := fun n hn => same n (List.mem_cons_of_mem name hn)
      have builtIn : builtIn? c name = builtIn? c' name := by
        rw [builtIn?, builtIn?, whitelist, blacklist]
      rw [choose, choose, ← found]
      cases registered.find? (·.name == name) with
      | some p =>
          simp only [List.cons.injEq, true_and]
          refine ih fun n hn => ?_
          by_cases e : n = name
          · subst e
            rw [filter_eraseP_self, filter_eraseP_self, first]
          · have disjoint (p : Patcher) (h : (p.name == name) = true) : (p.name == n) = false := by
              rw [beq_iff_eq] at h
              rw [beq_eq_false_iff_ne, h]
              exact Ne.symm e
            rw [filter_eraseP_of_disjoint disjoint, filter_eraseP_of_disjoint disjoint, others n hn]
      | none =>
          simp only [← builtIn]
          rw [ih others]

/-- **Resolvers with the same axes have the same pipeline**, if they agree on what the axes do not
tell. -/
theorem pipelineWith_congr {r r' : Resolver}
    (snapshot : AxisSnapshot.of r.config = AxisSnapshot.of r'.config)
    (blacklist : r.config.blacklist = r'.config.blacklist)
    (verify : r.config.verifyOutput = r'.config.verifyOutput)
    (patchers : ∀ name ∈ r.config.patcherList,
      r.registered.filter (·.name == name) = r'.registered.filter (·.name == name))
    (names : List String) : r.pipelineWith names = r'.pipelineWith names := by
  have list : r.config.patcherList = r'.config.patcherList :=
    congrArg AxisSnapshot.patcherList snapshot
  have whitelist : r.config.whitelist = r'.config.whitelist :=
    NameSet.ext (congrArg AxisSnapshot.functionWhitelist snapshot)
  have same : (r.extended names).whitelist = (r'.extended names).whitelist := whitelist
  have extended_eq : (r.extended names).blacklist = (r'.extended names).blacklist := by
    rw [extended, extended, blacklist]
  have chosen : choose (r.extended names) r.registered r.config.patcherList
      = choose (r'.extended names) r'.registered r.config.patcherList :=
    choose_congr same extended_eq patchers
  rw [pipelineWith, pipelineWith, verify, ← list, chosen]

end Resolver

/-! ## Coherence -/

namespace World

variable {ι : Type}

/-- **Resolvers agree on what the axes do not tell**: the blacklist, whether the output is
validated, and what the names of patchers stand for. -/
structure Agree (setup : ι → Resolver) : Prop where
  /-- The blacklist is the same. -/
  blacklist : ∀ i j, (setup i).config.blacklist = (setup j).config.blacklist
  /-- The output is validated by all or by none. -/
  verify : ∀ i j, (setup i).config.verifyOutput = (setup j).config.verifyOutput
  /-- A name that two of them list stands for the same registered patchers. -/
  patchers : ∀ i j, ∀ name ∈ (setup i).config.patcherList, name ∈ (setup j).config.patcherList →
    (setup i).registered.filter (·.name == name) = (setup j).registered.filter (·.name == name)

variable [DecidableEq ι] {root : Path} {l : Location} {w : World ι} {setup : ι → Resolver}
  {seen : List Bytes}

/-- **The files of the cache are changed by the resolvers only**, and its path leads where it did.
Other files, directories and links may change in any way. -/
def SealedAt (root : Path) (l : Location) (w : World ι) : Event ι → Prop
  | .outside d =>
    d.Houses root l ∧ ∀ ns, RewriteCache.Owned ns → d.get? (l ++ ns) = w.disk.get? (l ++ ns)
  | _ => True

/-- **The files of the cache are changed by the resolvers only** in a run. -/
def Sealed (root : Path) (l : Location) : World ι → List (Event ι) → Prop
  | _, [] => True
  | w, e :: es => w.SealedAt root l e ∧ Sealed root l (w.step e) es

/-- **A run in which the cache is sealed leaves it to the resolvers**, and what it lists stays. -/
theorem Invariant.tame_of_sealed {names : List String}
    (inv : Invariant root l setup (· = names) w seen) (up : SetUp root setup)
    {events : List (Event ι)} (closed : w.Sealed root l events) :
    w.Tame root l (· = names) events := by
  induction events generalizing w seen with
  | nil => trivial
  | cons e es ih =>
      have tame : w.TameAt root l (· = names) e := by
        cases e with
        | outside d =>
            obtain ⟨houses, same⟩ := closed.1
            refine ⟨⟨houses, fun ns t ne => ?_, fun ns first => ?_⟩, ?_⟩
            · rw [same ns ne]
              exact inv.order.plain ns t ne
            · obtain ⟨rest, rfl⟩ | ⟨rest, rfl⟩ := first.imp List.head?_eq_some_iff.1
                List.head?_eq_some_iff.1
              · exact same _ (.record rest)
              · exact same _ (.source rest)
            · rw [Disk.listedIn_congr fun content => ?_]
              · exact inv.listed
              · rw [Disk.listAt, same _ (.axis _)]
        | lock i => trivial
        | resolve i p => trivial
        | clear i => trivial
      exact ⟨tame, ih (inv.step up e tame) closed.2⟩

/-- **The contents that are read in a run and a step after it.** -/
theorem contents_append (w : World ι) (events : List (Event ι)) (e : Event ι) :
    w.contents (events ++ [e]) = w.contents events ++ ((w.run events).contentRead e).toList := by
  induction events generalizing w with
  | nil => simp [contents, run]
  | cons e' es ih =>
      rw [List.cons_append, contents, contents, ih, List.append_assoc]
      rfl

/-- **A shared cache is coherent.** Resolvers use one cache, which has no links in its directories
and no records to begin with, in any order and with any configurations, as long as they agree on
what the axes do not tell; other files change meanwhile. Then whatever one of them loads for a path
in scope is what its own pipeline makes of the content of the file, provided that no two contents
that are read have the same fingerprint, and no two snapshots of axes the same generation. -/
theorem resolve_coherent (up : SetUp root w.resolvers) (agree : Agree w.resolvers)
    (houses : w.disk.Houses root l) (plain : w.disk.PlainIn l)
    (none : ∀ source body, w.disk.get? (Disk.recordAt l source) ≠ some (.file body))
    {events : List (Event ι)} (closed : w.Sealed root l events) {i : ι} {p : Path}
    (fingerprints : ∀ raw ∈ w.contents (events ++ [.resolve i p]),
      ∀ raw' ∈ w.contents (events ++ [.resolve i p]),
        Fingerprint.of raw = Fingerprint.of raw' → raw = raw')
    (generations : ∀ j k, (AxisSnapshot.of (w.resolvers j).config).generation
        = (AxisSnapshot.of (w.resolvers k).config).generation →
      AxisSnapshot.of (w.resolvers j).config = AxisSnapshot.of (w.resolvers k).config)
    {res : Resolved}
    (loaded : (((w.run events).resolvers i).resolve (w.run events).disk p).1 = .ok res)
    (inScope : res.origin ≠ .outOfScope) :
    ∃ a raw output, ((w.run (events ++ [.resolve i p])).resolvers i).active = some a
      ∧ (w.run events).contentRead (.resolve i p) = some raw
      ∧ a.pipeline.run raw = .ok output ∧ res.bytes = output.source := by
  have start : Invariant root l w.resolvers (· = w.disk.listedIn l) w [] :=
    .initial houses plain none rfl
  have inv := start.run up (start.tame_of_sealed up closed)
  have inv' := inv.step up (.resolve i p) trivial
  have after : w.run (events ++ [.resolve i p]) = (w.run events).step (.resolve i p) :=
    w.run_concat events _
  rcases resolved : ((w.run events).resolvers i).resolve (w.run events).disk p with ⟨result, r, d⟩
  rw [resolved] at loaded
  obtain rfl : result = .ok res := loaded
  obtain ⟨a, raw, active, read, ⟨output, run, bytes⟩ | ⟨-, made⟩⟩ := inv.loaded up resolved inScope
  all_goals
    have state : (w.run (events ++ [.resolve i p])).resolvers i = r := by
      rw [after, step, resolved]
      exact resolvers_update_self _ _ _ _
  · exact ⟨a, raw, output, by rw [state, active], read, run, bytes⟩
  · obtain ⟨j, a', raw', output, active', generation, read', fingerprint, run, bytes⟩ := made
    -- The content is the one that was read before.
    have same : raw' = raw := by
      refine fingerprints raw' ?_ raw ?_ fingerprint
      · rw [contents_append]
        exact List.mem_append_left _ (by simpa using read')
      · rw [contents_append, read]
        exact List.mem_append_right _ (by simp)
    -- The two resolvers are in use as they are set up.
    rw [← after] at active'
    rw [← after] at inv'
    obtain ⟨_, rfl, -, cache, pipeline⟩ := inv'.in_use up active'
    obtain ⟨_, rfl, -, cache', pipeline'⟩ :=
      inv'.in_use up (i := i) (a := a) (by rw [state, active])
    have snapshot := generations j i (by
      rw [cache, cache'] at generation
      exact generation)
    refine ⟨a, raw, output, by rw [state, active], read, ?_, bytes⟩
    rw [pipeline', ← same, ← Resolver.pipelineWith_congr snapshot (agree.blacklist j i)
      (agree.verify j i) ?_, ← pipeline, run]
    intro name listed
    refine agree.patchers j i name listed ?_
    have list : (w.resolvers j).config.patcherList = (w.resolvers i).config.patcherList :=
      congrArg AxisSnapshot.patcherList snapshot
    rwa [← list]

/-- **A resolver that keeps what is below `/s` in `/c`** and has no patchers. -/
def plainResolver : Resolver :=
  .of ⟨some ⟨"/c"⟩, [⟨"/s"⟩], [], [], .empty, .empty, "", false, false⟩

/-- **Two resolvers and a source.** -/
def pair : World Bool :=
  ⟨fun _ => plainResolver, ⟨[(["s"], .directory), (["s", "a.php"], .file (bytesOf "old"))], []⟩⟩

/-- **The source is edited, and one of the two resolves it.** -/
def pairEvents : List (Event Bool) :=
  [.outside (pair.disk.put ["s", "a.php"] (.file (bytesOf "new"))), .resolve true ⟨"/s/a.php"⟩]

/-- **The cache of the two is at one place**, though it is not there yet. -/
theorem houses_pair : pair.disk.Houses ⟨"/c"⟩ ["c"] := by
  have links : pair.disk.SameLinks (pair.disk.put ["c"] .directory) :=
    (Disk.Grows.put_directory (by decide +kernel)).steady.links
  have led : (pair.disk.put ["c"] .directory).LeadsTo ⟨"/c"⟩ ["c"] := rfl
  exact led.houses links rfl

/-- **The other one loads from the cache what its pipeline makes of the source.** -/
theorem resolve_coherent_pair :
    ∃ a raw output,
      ((pair.run (pairEvents ++ [.resolve false ⟨"/s/a.php"⟩])).resolvers false).active = some a
        ∧ (pair.run pairEvents).contentRead (.resolve false ⟨"/s/a.php"⟩) = some raw
        ∧ a.pipeline.run raw = .ok output ∧ bytesOf "new" = output.source := by
  have contents : pair.contents (pairEvents ++ [.resolve false ⟨"/s/a.php"⟩])
      = [bytesOf "new", bytesOf "new"] := by decide +kernel
  have loaded : (((pair.run pairEvents).resolvers false).resolve (pair.run pairEvents).disk
      ⟨"/s/a.php"⟩).1.toOption = some ⟨⟨"/s/a.php"⟩, bytesOf "new", .cacheHit⟩ := by
    decide +kernel
  have old : pair.disk.get? ["s", "a.php"] = some (.file (bytesOf "old")) := by decide +kernel
  have edited : Disk.Steady pair.disk
      (pair.disk.put ["s", "a.php"] (.file (bytesOf "new"))) :=
    .put (by simp) (fun t => by simp [old]) (by simp)
  have closed : pair.Sealed ⟨"/c"⟩ ["c"] pairEvents := by
    refine ⟨⟨edited.houses houses_pair, fun ns ne => ?_⟩, trivial, trivial⟩
    rw [Disk.get?_put_of_ne]
    simp
  have same : ∀ raw ∈ pair.contents (pairEvents ++ [.resolve false ⟨"/s/a.php"⟩]),
      ∀ raw' ∈ pair.contents (pairEvents ++ [.resolve false ⟨"/s/a.php"⟩]),
        Fingerprint.of raw = Fingerprint.of raw' → raw = raw' := by
    rw [contents]
    intro raw h raw' h' _
    simp only [List.mem_cons, List.not_mem_nil, or_false, or_self] at h h'
    rw [h, h']
  exact resolve_coherent ⟨fun _ => rfl, fun _ => rfl⟩
    ⟨fun _ _ => rfl, fun _ _ => rfl, fun _ _ _ _ _ => rfl⟩ houses_pair
    (Disk.plainIn_of_entries (by simp [pair]) _) (Disk.no_records_of_entries (by decide))
    closed same (fun _ _ _ => rfl) (ok_of_toOption loaded) (by decide)

end World

end Seams
