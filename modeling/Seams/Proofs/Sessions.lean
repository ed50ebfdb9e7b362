import Mathlib.Data.List.Basic
import Mathlib.Logic.Function.Basic
import Mathlib.Tactic.Common
import Seams.Proofs.Operations

/-! # Resolvers that share a cache
Several resolvers use one cache directory, in any order, while other files change. Whatever comes
out of the cache was put there by a resolver that is in use, of the same generation, for a content
with the same fingerprint.
Main definitions:
* **`World`** — resolvers and the disk that they share, and **`World.step`** — what a call or a
  change from outside does to them;
* **`World.Made`** — what a resolver in use makes of a content that has been read;
* **`World.Invariant`** — all that is kept in the cache was made so;
* **`World.contents`** — the contents that are read in a run;
* **`World.Tame`** — a run in which the cache is left to the resolvers. -/

namespace Seams

/-- **Resolvers and the disk that they share.** -/
structure World (ι : Type) where
  /-- The resolvers. -/
  resolvers : ι → Resolver
  /-- The disk. -/
  disk : Disk

/-- **What can happen**: a call on a resolver, or a change of the disk from outside. -/
inductive Event (ι : Type) where
  /-- A resolver is locked. -/
  | lock (i : ι)
  /-- A path is resolved. -/
  | resolve (i : ι) (p : Path)
  /-- The cache is cleared. -/
  | clear (i : ι)
  /-- The disk is another one. -/
  | outside (d : Disk)

namespace World

variable {ι : Type}

/-! ## What is kept in the cache -/

/-- **What a resolver in use makes of a content that has been read**, with a record that fits. -/
def Made (w : World ι) (seen : List Bytes) (r : EntryRecord) (rewritten : Bytes) : Prop :=
  ∃ j a raw output, (w.resolvers j).active = some a ∧ a.cache.generation = r.generation
    ∧ raw ∈ seen ∧ Fingerprint.of raw = r.source ∧ a.pipeline.run raw = .ok output
    ∧ rewritten = output.source

/-- **What is in use in a world is in use in another one.** -/
def Keeps (w w' : World ι) : Prop :=
  ∀ j a, (w.resolvers j).active = some a →
    ∃ a', (w'.resolvers j).active = some a' ∧ a'.cache = a.cache ∧ a'.pipeline = a.pipeline

/-- **What has been made stays made**, as long as what is in use is so. -/
theorem Made.mono {w w' : World ι} {seen seen' : List Bytes} {r : EntryRecord} {rewritten : Bytes}
    (h : w.Made seen r rewritten) (keeps : w.Keeps w') (more : seen ⊆ seen') :
    w'.Made seen' r rewritten := by
  obtain ⟨j, a, raw, output, active, generation, read, fingerprint, run, eq⟩ := h
  obtain ⟨a', active', cache, pipeline⟩ := keeps j a active
  refine ⟨j, a', raw, output, active', ?_, more read, fingerprint, ?_, eq⟩
  · rw [cache, generation]
  · rw [pipeline, run]

/-- **What holds all along.** The resolvers are as they are set up or in use so, with the names on
the blacklist that were listed, which have some property all along; and all that is kept in the
cache was made by a resolver in use. -/
structure Invariant (root : Path) (l : Location) (setup : ι → Resolver)
    (property : List String → Prop) (w : World ι) (seen : List Bytes) : Prop where
  /-- The resolvers are as they are set up or in use so. -/
  built : ∀ i, w.resolvers i = setup i
    ∨ ∃ names, property names ∧ (w.resolvers i).BuiltFrom (setup i) root names
  /-- What is listed has the property. -/
  listed : property (w.disk.listedIn l)
  /-- What is kept was made. -/
  order : Disk.InOrder root l (w.Made seen) w.disk

/-- **Resolvers are set up for a cache in a directory** and not in use yet. -/
structure SetUp (root : Path) (setup : ι → Resolver) : Prop where
  /-- The directory is set. -/
  dir : ∀ i, (setup i).config.cacheDir = some root
  /-- None is in use. -/
  fresh : ∀ i, (setup i).active = none

variable {root : Path} {l : Location} {setup : ι → Resolver} {property : List String → Prop}
  {w : World ι} {seen : List Bytes}

/-- **In the beginning nothing is kept.** -/
theorem Invariant.initial (houses : w.disk.Houses root l) (plain : w.disk.PlainIn l)
    (none : ∀ source body, w.disk.get? (Disk.recordAt l source) ≠ some (.file body))
    (listed : property (w.disk.listedIn l)) :
    Invariant root l w.resolvers property w [] where
  built _ := .inl rfl
  listed := listed
  order := .of_no_records houses plain none

/-- **A resolver in use is so as it is set up**, with names that were listed. -/
theorem Invariant.in_use (inv : Invariant root l setup property w seen) (up : SetUp root setup)
    {i : ι} {a : Active} (active : (w.resolvers i).active = some a) :
    ∃ names, property names ∧ (w.resolvers i).config = ((setup i).extended names).lock
      ∧ a.cache = (setup i).cacheIn root ∧ a.pipeline = (setup i).pipelineWith names := by
  rcases inv.built i with eq | ⟨names, holds, config, a', active', cache, pipeline⟩
  · rw [eq, up.fresh i] at active
    cases active
  · rw [active'] at active
    cases active
    exact ⟨names, holds, config, cache, pipeline⟩

/-- **A resolver in use uses the cache in the directory.** -/
theorem Invariant.cache_root (inv : Invariant root l setup property w seen) (up : SetUp root setup)
    {i : ι} {a : Active} (active : (w.resolvers i).active = some a) : a.cache.root = root := by
  obtain ⟨names, -, -, cache, -⟩ := inv.in_use up active
  rw [cache]
  rfl

/-! ## What happens -/

variable [DecidableEq ι]

/-- **The world with another state of a resolver, on another disk.** -/
def update (w : World ι) (i : ι) (r : Resolver) (d : Disk) : World ι :=
  ⟨Function.update w.resolvers i r, d⟩

@[simp] theorem update_disk (w : World ι) (i : ι) (r : Resolver) (d : Disk) :
    (w.update i r d).disk = d := rfl

@[simp] theorem resolvers_update_self (w : World ι) (i : ι) (r : Resolver) (d : Disk) :
    (w.update i r d).resolvers i = r := by
  simp [update]

@[simp] theorem resolvers_update_of_ne (w : World ι) {i j : ι} (h : j ≠ i) (r : Resolver)
    (d : Disk) : (w.update i r d).resolvers j = w.resolvers j := by
  simp [update, h]

@[simp] theorem update_update (w : World ι) (i : ι) (r r' : Resolver) (d d' : Disk) :
    (w.update i r d).update i r' d' = w.update i r' d' := by
  simp [update]

/-- **Nothing happens where a resolver and the disk stay as they are.** -/
theorem update_eq_self (w : World ι) (i : ι) : w.update i (w.resolvers i) w.disk = w := by
  simp [update]

/-- **The world after an event.** -/
def step (w : World ι) : Event ι → World ι
  | .lock i =>
    let (_, r, d) := (w.resolvers i).lock w.disk
    w.update i r d
  | .resolve i p =>
    let (_, r, d) := (w.resolvers i).resolve w.disk p
    w.update i r d
  | .clear i =>
    let (_, r, d) := (w.resolvers i).clearCache w.disk
    w.update i r d
  | .outside d => { w with disk := d }

/-- **The world after several events.** -/
def run (w : World ι) (events : List (Event ι)) : World ι := events.foldl step w

/-- **One more event is one more step.** -/
theorem run_concat (w : World ι) (events : List (Event ι)) (e : Event ι) :
    w.run (events ++ [e]) = (w.run events).step e := by
  rw [run, List.foldl_append]
  rfl

/-- **The content that is read in an event**: that of the file which a resolver resolves. -/
def contentRead (w : World ι) : Event ι → Option Bytes
  | .resolve i p =>
    match (w.resolvers i).activeState w.disk with
    | (.ok _, d) => (d.read (d.normalize p).path).toOption
    | (.error _, _) => none
  | _ => none

/-- **The contents that are read in a run.** -/
def contents (w : World ι) : List (Event ι) → List Bytes
  | [] => []
  | e :: es => (w.contentRead e).toList ++ contents (w.step e) es

/-- **The cache is left to the resolvers in an event**: a change from outside leaves it alone, and
what is listed has the property still. -/
def TameAt (root : Path) (l : Location) (property : List String → Prop) (w : World ι) :
    Event ι → Prop
  | .outside d => Disk.LeavesCache root l w.disk d ∧ property (d.listedIn l)
  | _ => True

/-- **The cache is left to the resolvers in a run.** -/
def Tame (root : Path) (l : Location) (property : List String → Prop) :
    World ι → List (Event ι) → Prop
  | _, [] => True
  | w, e :: es => w.TameAt root l property e ∧ Tame root l property (w.step e) es

/-- **A resolver may get another state**, as long as it is in use as it is set up and what is kept
has been made. -/
theorem Invariant.update (inv : Invariant root l setup property w seen) {i : ι} {r : Resolver}
    {d : Disk} {seen' : List Bytes}
    (built : r = setup i ∨ ∃ names, property names ∧ r.BuiltFrom (setup i) root names)
    (listed : property (d.listedIn l))
    (order : Disk.InOrder root l ((w.update i r d).Made seen') d) :
    Invariant root l setup property (w.update i r d) seen' where
  built j := by
    by_cases h : j = i
    · rw [h, resolvers_update_self]
      exact built
    · rw [resolvers_update_of_ne w h]
      exact inv.built j
  listed := listed
  order := order

/-- **What is in use stays in use** if the resolver that gets another state is in use with the same
cache and the same pipeline, or was not in use. -/
theorem keeps_update {i : ι} {r : Resolver} {d : Disk}
    (same : ∀ a, (w.resolvers i).active = some a →
      ∃ a', r.active = some a' ∧ a'.cache = a.cache ∧ a'.pipeline = a.pipeline) :
    w.Keeps (w.update i r d) := by
  intro j a active
  by_cases h : j = i
  · rw [h] at active ⊢
    rw [resolvers_update_self]
    exact same a active
  · rw [resolvers_update_of_ne w h]
    exact ⟨a, active, rfl, rfl⟩

/-- **A run of changes that touches what a cache keeps leaves its list alone.** -/
theorem listedIn_of_performs {d d' : Disk} (house : d.Houses root l) (plain : d.PlainIn l)
    (h : Disk.Performs (·.Touches root l (Disk.KeptAt l Axis.all)) d d') :
    d'.listedIn l = d.listedIn l :=
  Disk.listedIn_congr fun _ => (h.spares house plain).2 _ _ (Disk.not_keptAt_listAt l _)

/-- **Taking a resolver into use keeps the invariant**, whether it succeeds or not. -/
theorem Invariant.activeState (inv : Invariant root l setup property w seen)
    (up : SetUp root setup) (i : ι) :
    match (w.resolvers i).activeState w.disk with
    | (.error _, d) => Invariant root l setup property (w.update i (w.resolvers i) d) seen
    | (.ok (a, r), d) =>
      r.active = some a ∧ Invariant root l setup property (w.update i r d) seen := by
  unfold Resolver.activeState
  cases active : (w.resolvers i).active with
  | some a =>
      refine ⟨active, ?_⟩
      rwa [update_eq_self]
  | none =>
      -- The resolver is not in use, so it is as it is set up.
      have eq : w.resolvers i = setup i := by
        rcases inv.built i with eq | ⟨names, -, -, a, active', -⟩
        · exact eq
        · rw [active] at active'
          cases active'
      have keeps (r : Resolver) (d : Disk) : w.Keeps (w.update i r d) :=
        keeps_update fun a active' => by
          rw [active] at active'
          cases active'
      have dir : (w.resolvers i).config.cacheDir = some root := by rw [eq, up.dir i]
      have order := inv.order.performs (Resolver.activate_performs dir w.disk
        (RewriteCache.openChanges_harmless _)
        fun opened _ => RewriteCache.reconcileChanges_harmless _ opened _)
      have listed := listedIn_of_performs inv.order.houses inv.order.plain
        (Resolver.activate_performs dir w.disk (RewriteCache.openChanges_touches _ l _)
          fun opened _ change h => Disk.touches_mono (fun _ => Disk.KeptAt.all)
            (RewriteCache.reconcileChanges_touches _ l opened _ change h))
      rcases activated : (w.resolvers i).activate w.disk with ⟨result, d⟩
      rw [activated] at order listed
      cases result with
      | error e =>
          refine inv.update (.inl eq) ?_ ?_
          · rw [listed]
            exact inv.listed
          · exact order.mono fun r b made => made.mono (keeps _ _) (List.Subset.refl _)
      | ok state =>
          obtain ⟨a, r⟩ := state
          obtain ⟨names, opened, act⟩ := Resolver.activates_of_ok dir activated
          refine ⟨act.active, inv.update (.inr ⟨names, ?_, ?_⟩) ?_ ?_⟩
          · rw [act.names_eq inv.order.houses inv.order.plain]
            exact inv.listed
          · rw [eq] at act
            exact ⟨act.config, a, act.active, act.cache, act.pipeline⟩
          · rw [listed]
            exact inv.listed
          · exact order.mono fun r b made => made.mono (keeps _ _) (List.Subset.refl _)

/-- **Clearing the cache keeps the invariant.** -/
theorem Invariant.clear (inv : Invariant root l setup property w seen) (up : SetUp root setup)
    (i : ι) : Invariant root l setup property (w.step (.clear i)) seen := by
  have state := inv.activeState up i
  rw [World.step, Resolver.clearCache]
  split at state
  · rename_i eq
    simp only [eq]
    exact state
  · rename_i a r d eq
    simp only [eq]
    obtain ⟨active, inv'⟩ := state
    obtain rfl : a.cache.root = root := inv'.cache_root up (i := i) (by simpa using active)
    have order := inv'.order
    have listed := listedIn_of_performs order.houses order.plain
      (.applyAll d (a.cache.clearChanges_touches l Axis.all))
    rw [← update_update w i r r d, RewriteCache.clear_snd]
    refine inv'.update ?_ ?_ ?_
    · simpa using inv'.built i
    · rw [listed]
      exact inv'.listed
    · have order := order.performs (.applyAll d a.cache.clearChanges_harmless)
      refine order.mono fun e b made => made.mono (keeps_update fun a' active' => ?_)
        (List.Subset.refl _)
      exact ⟨a', by simpa using active', rfl, rfl⟩

/-- **Resolving keeps the invariant**, with the content that is read. -/
theorem Invariant.resolve (inv : Invariant root l setup property w seen) (up : SetUp root setup)
    (i : ι) (p : Path) : Invariant root l setup property (w.step (.resolve i p))
      (seen ++ (w.contentRead (.resolve i p)).toList) := by
  have state := inv.activeState up i
  rw [contentRead, World.step, Resolver.resolve]
  split at state
  · rename_i eq
    simp only [eq, Option.toList_none, List.append_nil]
    exact state
  · rename_i a r d eq
    simp only [eq]
    obtain ⟨active, inv'⟩ := state
    obtain rfl : a.cache.root = root := inv'.cache_root up (i := i) (by simpa using active)
    obtain ⟨cache, pipeline, -⟩ := a.resolve_state d p
    have disk := a.resolve_disk d p
    rcases resolved : a.resolve d p with ⟨result, a', d'⟩
    rw [resolved] at cache pipeline disk
    simp only at cache pipeline disk ⊢
    have keeps : (w.update i r d).Keeps
        ((w.update i r d).update i { r with active := some a' } d') := by
      refine keeps_update fun a₀ active₀ => ⟨a', rfl, ?_⟩
      rw [resolvers_update_self, active] at active₀
      cases active₀
      exact ⟨cache, pipeline⟩
    have order := inv'.order.mono fun e b made =>
      made.mono keeps (List.subset_append_left seen (d.read (d.normalize p).path).toOption.toList)
    rw [← update_update w i r _ d]
    refine inv'.update ?_ ?_ ?_
    · obtain ⟨names, holds, config, cache₀, pipeline₀⟩ :=
        inv'.in_use up (i := i) (a := a) (by simpa using active)
      rw [resolvers_update_self] at config
      exact .inr ⟨names, holds, config, a', rfl, cache.trans cache₀, pipeline.trans pipeline₀⟩
    · rcases disk with same | ⟨raw, output, -, -, written⟩
      · rw [same]
        exact inv'.listed
      · rw [written, RewriteCache.write, Disk.InOrder.perform_snd, listedIn_of_performs
          inv'.order.houses inv'.order.plain
          (.applyAll d (a.cache.storeChanges_touches l _ _ _ Axis.all))]
        exact inv'.listed
    · rcases disk with same | ⟨raw, output, read, run, written⟩
      · rw [same]
        rwa [same] at order
      · rw [written] at order ⊢
        rw [read] at order ⊢
        refine order.write _ _ _ fun _ => ?_
        refine ⟨i, a', raw, output, ?_, ?_, ?_, rfl, ?_, rfl⟩
        · simp
        · rw [cache]
        · simp [Except.toOption]
        · rw [pipeline, run]

/-- **A step keeps the invariant**, with the content that is read in it. -/
theorem Invariant.step (inv : Invariant root l setup property w seen) (up : SetUp root setup)
    (e : Event ι) (tame : w.TameAt root l property e) :
    Invariant root l setup property (w.step e) (seen ++ (w.contentRead e).toList) := by
  cases e with
  | outside d =>
      rw [show w.contentRead (.outside d) = none from rfl, Option.toList_none, List.append_nil]
      exact ⟨inv.built, tame.2, inv.order.congr tame.1⟩
  | lock i =>
      rw [show w.contentRead (.lock i) = none from rfl, Option.toList_none, List.append_nil]
      have state := inv.activeState up i
      rw [World.step, Resolver.lock]
      split at state <;> rename_i eq <;> simp only [eq]
      · exact state
      · exact state.2
  | clear i =>
      rw [show w.contentRead (.clear i) = none from rfl, Option.toList_none, List.append_nil]
      exact inv.clear up i
  | resolve i p => exact inv.resolve up i p

/-- **A run keeps the invariant**, with the contents that are read in it. -/
theorem Invariant.run (inv : Invariant root l setup property w seen) (up : SetUp root setup)
    {events : List (Event ι)} (tame : w.Tame root l property events) :
    Invariant root l setup property (w.run events) (seen ++ w.contents events) := by
  induction events generalizing w seen with
  | nil =>
      rw [contents, List.append_nil]
      exact inv
  | cons e es ih =>
      have next := ih (inv.step up e tame.1) tame.2
      rw [List.append_assoc] at next
      exact next

/-- **Where what is loaded comes from**, if the path is in scope: the pipeline of the resolver makes
it of the content that is read, or a resolver in use has made it of a content that was read, and
the record fits. -/
theorem Invariant.loaded (inv : Invariant root l setup property w seen) (up : SetUp root setup)
    {i : ι} {p : Path} {res : Resolved} {r : Resolver} {d : Disk}
    (h : (w.resolvers i).resolve w.disk p = (.ok res, r, d)) (ne : res.origin ≠ .outOfScope) :
    ∃ a raw, r.active = some a ∧ w.contentRead (.resolve i p) = some raw
      ∧ ((∃ output, a.pipeline.run raw = .ok output ∧ res.bytes = output.source)
        ∨ res.origin = .cacheHit ∧ (w.step (.resolve i p)).Made seen
            ⟨Fingerprint.of raw, a.cache.generation⟩ res.bytes) := by
  have state := inv.activeState up i
  rw [contentRead, World.step, h]
  rw [Resolver.resolve] at h
  split at state
  · rename_i eq
    rw [eq] at h
    cases h
  · rename_i a₀ r₀ d₀ eq
    rw [eq] at h
    rw [eq]
    obtain ⟨active, inv'⟩ := state
    obtain rfl : a₀.cache.root = root := inv'.cache_root up (i := i) (by simpa using active)
    obtain ⟨cache, pipeline, -⟩ := a₀.resolve_state d₀ p
    rcases resolved : a₀.resolve d₀ p with ⟨result, a, d'⟩
    rw [resolved] at cache pipeline
    simp only [resolved] at cache pipeline h ⊢
    cases h
    obtain ⟨raw, read, passed | ⟨hit, valid, kept⟩ | ⟨output, run, bytes, -⟩⟩ :=
      Active.resolve_ok resolved
    · exact absurd passed.1 ne
    · refine ⟨a, raw, rfl, by rw [read]; rfl, .inr ⟨hit, ?_⟩⟩
      have made := inv'.order.hit valid kept
      rw [cache, ← update_update w i r₀ _ d₀]
      refine made.mono (keeps_update fun a₁ active₁ => ⟨a, rfl, ?_⟩) (List.Subset.refl _)
      rw [resolvers_update_self, active] at active₁
      cases active₁
      exact ⟨cache, pipeline⟩
    · refine ⟨a, raw, rfl, by rw [read]; rfl, .inl ⟨output, ?_, bytes⟩⟩
      rw [pipeline, run]

end World

end Seams
