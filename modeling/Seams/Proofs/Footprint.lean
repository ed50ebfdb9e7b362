import Mathlib.Data.List.Basic
import Mathlib.Tactic.Common
import Seams.CommandLine.Program
import Seams.Proofs.Operations

/-! # Files that a cache spares
A cache takes for its own what is in its directories of rewritten sources and of records, and the
records of the axes that have changed, whoever put it there. Every other file stays as it is, when
a resolver is used and when a command is given, whether that succeeds or not.
Main definitions:
* **`Configuration.Claims`** — the cache of a configuration takes a file for its own;
* **`Disk.Intact`** — a file is there still, and the cache is where it was. -/

namespace Seams

open RewriteCache (Owned)

/-- **The cache of a configuration takes a file for its own**, if it is at a place: the file is
among the rewritten sources or the records, or it stands for the record of an axis and does not tell
the value of that axis. -/
def Configuration.Claims (c : Configuration) (l f : Location) (content : Bytes) : Prop :=
  l ++ ["src"] <+: f ∨ l ++ ["meta"] <+: f
    ∨ ∃ a : Axis, f = l ++ ["conf", a.fileName]
      ∧ (JsonValue.read? content).bind JsonValue.texts? ≠ some ((AxisSnapshot.of c).values a)

/-! ## Files that stay -/

namespace Disk

/-- **A file is there still**, and the cache is where it was. -/
structure Intact (root : Path) (l f : Location) (content : Bytes) (d : Disk) : Prop where
  /-- The path of the cache leads to one place. -/
  houses : d.Houses root l
  /-- There are no links in its directories. -/
  plain : d.PlainIn l
  /-- The file is there. -/
  there : d.get? f = some (.file content)

variable {root : Path} {l f : Location} {content : Bytes} {d d' : Disk}

/-- **Changes that touch other files leave a file as it is.** -/
theorem Intact.performs (intact : Intact root l f content d)
    (run : Performs (·.Touches root l (· ≠ f)) d d') : Intact root l f content d' := by
  obtain ⟨steady, spared⟩ := run.spares intact.houses intact.plain
  refine ⟨steady.houses intact.houses, steady.plainIn intact.plain, ?_⟩
  exact (spared f content (by simp)).2 intact.there

/-- **The record of an axis is read** from a cache that is opened, if its path can be looked up. -/
theorem read_axisPath {c : RewriteCache} (house : d.Houses c.root l) (plain : d.PlainIn l)
    (opens : d.applyAll c.openChanges = (.ok (), d')) {a : Axis} (usable : Usable (c.axisPath a))
    (holds : d'.get? (l ++ ["conf", a.fileName]) = some (.file content)) :
    d'.read (c.axisPath a) = .ok content := by
  obtain ⟨there, conf⟩ := directories_of_opened house plain opens (.axis _)
  have isName : Path.IsName a.fileName := by cases a <;> constructor <;> decide
  have short : a.fileName.utf8ByteSize ≤ nameLimit := by cases a <;> decide
  have ends : (c.axisPath a).EndsIn a.fileName := Path.endsIn_child _ isName
  refine read_eq_ok_iff.2 ⟨l ++ ["conf", a.fileName], ?_⟩
  refine find_of_names usable there (c.axisPath_liesAt a) (List.cons_ne_nil _ _) fun k => ?_
  have deeper : l ++ ["conf", a.fileName] = l ++ ["conf"] ++ [a.fileName] := by simp
  rw [deeper] at holds ⊢
  rw [ends.asksForDirectory]
  exact Leads.enter (n := "conf") (by decide) conf (Leads.file short holds)

end Disk

namespace RewriteCache

variable {c : Configuration} {cache : RewriteCache} {l f : Location} {content : Bytes} {d d' : Disk}

/-- **Changes in the directories of rewritten sources and of records** touch no file that the cache
does not take for its own. -/
theorem spares_of_touches (free : ¬ c.Claims l f content) {root : Path} {changes : List Change}
    (touches : ∀ change ∈ changes, change.Touches root l (Disk.KeptAt l [])) :
    ∀ change ∈ changes, change.Touches root l (· ≠ f) := by
  intro change mem
  refine Disk.touches_mono ?_ (touches change mem)
  rintro m (below | below | ⟨a, absurdity, -⟩) rfl
  · exact free (.inl below)
  · exact free (.inr (.inl below))
  · cases absurdity

/-- **Making a cache fit touches no file that it does not take for its own.** A record that tells
the value of its axis is not written again, or it cannot be. -/
theorem reconcileChanges_spares (free : ¬ c.Claims l f content)
    (intact : d.Intact cache.root l f content)
    (opens : d.applyAll cache.openChanges = (.ok (), d')) :
    ∀ change ∈ cache.reconcileChanges d' (AxisSnapshot.of c),
      change.Touches cache.root l (· ≠ f) := by
  have grown := cache.grows_of_opened opens
  intro change mem
  unfold reconcileChanges at mem
  split at mem
  · cases mem
  rcases List.mem_append.1 mem with mem | mem
  · exact spares_of_touches free (cache.clearChanges_touches l []) change mem
  · obtain ⟨a, changed, rfl⟩ := List.mem_map.1 mem
    refine ⟨_, .axis _, cache.axisPath_liesAt a, fun usable same => ?_⟩
    have there := grown.file_iff.2 intact.there
    rw [← same] at there
    have read := Disk.read_axisPath intact.houses intact.plain opens usable there
    refine free (.inr (.inr ⟨a, same.symm, fun told => ?_⟩))
    -- The record tells the value, so the axis has not changed.
    have recorded : cache.recordedAxis? d' a = some ((AxisSnapshot.of c).values a) := by
      rw [recordedAxis?, read]
      exact told
    have listed := (List.mem_filter.1 changed).2
    rw [recorded] at listed
    simp at listed

end RewriteCache

/-! ## Resolvers that spare a file -/

namespace Resolver

/-- **A resolver has a configuration**, and a cache in a directory once it is in use. -/
def Uses (r : Resolver) (c : Configuration) (root : Path) : Prop :=
  r.active = none ∧ r.config = c
    ∨ ∃ a, r.active = some a ∧ a.cache = ⟨root, (AxisSnapshot.of c).generation⟩

variable {c : Configuration} {root : Path} {l f : Location} {content : Bytes} {r : Resolver}
  {d : Disk}

/-- **Locking spares a file** that the cache does not take for its own, whether it succeeds or
not. -/
theorem activate_spares (dir : c.cacheDir = some root) (free : ¬ c.Claims l f content)
    (config : r.config = c) (intact : d.Intact root l f content) :
    (r.activate d).2.Intact root l f content := by
  subst config
  exact intact.performs (activate_performs dir d (RewriteCache.openChanges_touches _ l _)
    fun _ opens => RewriteCache.reconcileChanges_spares free intact opens)

/-- **Taking a resolver into use spares a file.** -/
theorem activeState_spares (dir : c.cacheDir = some root) (free : ¬ c.Claims l f content)
    (uses : r.Uses c root) (intact : d.Intact root l f content) :
    (r.activeState d).2.Intact root l f content
      ∧ ∀ a r', (r.activeState d).1 = .ok (a, r') →
        r'.active = some a ∧ a.cache = ⟨root, (AxisSnapshot.of c).generation⟩ := by
  unfold activeState
  rcases uses with ⟨unused, config⟩ | ⟨a, active, cache⟩
  · rw [unused]
    refine ⟨activate_spares dir free config intact, fun a r' ok => ?_⟩
    rcases activated : r.activate d with ⟨result, d'⟩
    rw [activated] at ok
    obtain rfl : result = .ok (a, r') := ok
    subst config
    obtain ⟨names, opened, act⟩ := activates_of_ok dir activated
    exact ⟨act.active, act.cache⟩
  · rw [active]
    refine ⟨intact, fun a' r' ok => ?_⟩
    cases ok
    exact ⟨active, cache⟩

/-- **Locking a resolver spares a file.** -/
theorem lock_spares (dir : c.cacheDir = some root) (free : ¬ c.Claims l f content)
    (uses : r.Uses c root) (intact : d.Intact root l f content) :
    (r.lock d).2.1.Uses c root ∧ (r.lock d).2.2.Intact root l f content := by
  obtain ⟨spared, inUse⟩ := activeState_spares dir free uses intact
  unfold lock
  split
  · rename_i state
    rw [state] at spared
    exact ⟨uses, spared⟩
  · rename_i a r' d' state
    rw [state] at spared inUse
    exact ⟨.inr ⟨a, inUse a r' rfl⟩, spared⟩

/-- **Resolving a path spares a file.** -/
theorem resolve_spares (dir : c.cacheDir = some root) (free : ¬ c.Claims l f content)
    (uses : r.Uses c root) (intact : d.Intact root l f content) (p : Path) :
    (r.resolve d p).2.1.Uses c root ∧ (r.resolve d p).2.2.Intact root l f content := by
  obtain ⟨spared, inUse⟩ := activeState_spares dir free uses intact
  unfold resolve
  split
  · rename_i state
    rw [state] at spared
    exact ⟨uses, spared⟩
  · rename_i a r' d' state
    rw [state] at spared inUse
    obtain ⟨-, cache⟩ := inUse a r' rfl
    obtain ⟨cache', -, -⟩ := a.resolve_state d' p
    have disk := a.resolve_disk d' p
    rcases resolved : a.resolve d' p with ⟨result, a', d''⟩
    rw [resolved] at cache' disk
    simp only at cache' disk ⊢
    refine ⟨.inr ⟨a', rfl, cache'.trans cache⟩, ?_⟩
    rcases disk with same | ⟨raw, output, -, -, written⟩
    · rw [same]
      exact spared
    · -- The result of the pipeline is kept, in the cache that has been in use from the start.
      obtain rfl : a.cache.root = root := by rw [cache]
      rw [written, RewriteCache.write, Disk.InOrder.perform_snd]
      exact spared.performs (.applyAll d' (RewriteCache.spares_of_touches free
        (a.cache.storeChanges_touches l _ _ _ [])))

/-- **Clearing the cache spares a file.** -/
theorem clearCache_spares (dir : c.cacheDir = some root) (free : ¬ c.Claims l f content)
    (uses : r.Uses c root) (intact : d.Intact root l f content) :
    (r.clearCache d).2.1.Uses c root ∧ (r.clearCache d).2.2.Intact root l f content := by
  obtain ⟨spared, inUse⟩ := activeState_spares dir free uses intact
  unfold clearCache
  split
  · rename_i state
    rw [state] at spared
    exact ⟨uses, spared⟩
  · rename_i a r' d' state
    rw [state] at spared inUse
    obtain ⟨active, cache⟩ := inUse a r' rfl
    refine ⟨.inr ⟨a, active, cache⟩, ?_⟩
    obtain rfl : a.cache.root = root := by rw [cache]
    show (a.cache.clear d').2.Intact a.cache.root l f content
    rw [RewriteCache.clear_snd]
    exact spared.performs (.applyAll d' (RewriteCache.spares_of_touches free
      (a.cache.clearChanges_touches l [])))

/-- **Resolving what a walk meets spares a file.** -/
theorem warmEntry_spares (dir : c.cacheDir = some root) (free : ¬ c.Claims l f content)
    {state : Resolver × Disk × WarmSummary} (uses : state.1.Uses c root)
    (intact : state.2.1.Intact root l f content) (entry : Except WalkFault (Path × Bool)) :
    (warmEntry state entry).1.Uses c root
      ∧ (warmEntry state entry).2.1.Intact root l f content := by
  obtain ⟨r, d, s⟩ := state
  cases entry with
  | error e => exact ⟨uses, intact⟩
  | ok entry =>
      have spared := resolve_spares dir free uses intact entry.1
      simp only at uses intact
      unfold warmEntry
      simp only
      split
      · split <;> rename_i resolved <;> rw [resolved] at spared <;> exact spared
      · exact ⟨uses, intact⟩

/-- **Filling the cache spares a file.** -/
theorem warm_spares (dir : c.cacheDir = some root) (free : ¬ c.Claims l f content)
    (uses : r.Uses c root) (intact : d.Intact root l f content) :
    (r.warm d).2.1.Intact root l f content := by
  -- What holds of a resolver and a disk on the way, over the entries and over the paths.
  have entries (es : List (Except WalkFault (Path × Bool))) :
      ∀ state : Resolver × Disk × WarmSummary, state.1.Uses c root →
        state.2.1.Intact root l f content → (es.foldl warmEntry state).1.Uses c root
          ∧ (es.foldl warmEntry state).2.1.Intact root l f content := by
    induction es with
    | nil => exact fun _ uses intact => ⟨uses, intact⟩
    | cons e es ih =>
        intro state uses intact
        obtain ⟨uses', intact'⟩ := warmEntry_spares dir free uses intact e
        exact ih _ uses' intact'
  have paths (ps : List Path) :
      ∀ state : Resolver × Disk × WarmSummary, state.1.Uses c root →
        state.2.1.Intact root l f content →
          (ps.foldl warmBelow state).2.1.Intact root l f content := by
    induction ps with
    | nil => exact fun _ _ intact => intact
    | cons p ps ih =>
        intro state uses intact
        obtain ⟨uses', intact'⟩ := entries (state.2.1.below true p) state uses intact
        exact ih _ uses' intact'
  exact paths r.config.includePaths (r, d, {}) uses intact

end Resolver

/-! ## Commands that spare a file -/

namespace CommandLine

variable {c : Configuration} {root : Path} {l f : Location} {content : Bytes} {d : Disk}

/-- **A command spares a file** that the cache does not take for its own. -/
theorem runCommand_spares (dir : c.cacheDir = some root) (free : ¬ c.Claims l f content)
    (intact : d.Intact root l f content) (colours : Bool) (command : Command) :
    (runCommand colours d c command).2.Intact root l f content := by
  have uses : (Resolver.of c).Uses c root := .inl ⟨rfl, rfl⟩
  cases command with
  | patch file diff =>
      have spared := (Resolver.resolve_spares dir free uses intact file).2
      unfold runCommand patchCommand
      simp only
      split
      · rename_i resolved
        rwa [resolved] at spared
      · rename_i resolved
        rw [resolved] at spared
        split
        · split <;> exact spared
        · exact spared
  | scope path => exact intact
  | status =>
      have opened : (RewriteCache.create d root (AxisSnapshot.of c).generation).2.Intact root l f
          content := by
        rw [RewriteCache.create_snd]
        exact intact.performs (.applyAll d (RewriteCache.openChanges_touches _ l _))
      unfold runCommand statusCommand Disk.statusOf Configuration.requireCacheDir
      simp only [dir]
      rcases created : RewriteCache.create d root (AxisSnapshot.of c).generation with ⟨result, d'⟩
      rw [created] at opened
      cases result <;> exact opened
  | warm =>
      obtain ⟨uses', spared⟩ := Resolver.lock_spares dir free uses intact
      unfold runCommand warmCommand
      simp only
      split
      · rename_i locked
        rwa [locked] at spared
      · rename_i r' d' locked
        rw [locked] at uses' spared
        have warmed := Resolver.warm_spares dir free uses' spared
        split <;> exact warmed
  | clear =>
      have spared := (Resolver.clearCache_spares dir free uses intact).2
      unfold runCommand clearCommand
      simp only
      split <;> rename_i cleared <;> rwa [cleared] at spared

end CommandLine

end Seams
