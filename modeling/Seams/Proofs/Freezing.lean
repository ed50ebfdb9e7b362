import Mathlib.Data.List.Basic
import Mathlib.Tactic.Common
import Seams.Proofs.Accounts
import Seams.Proofs.Failures
import Seams.Proofs.Validation

/-! # Configurations that are locked early
A configuration may be locked before the resolver that has it is used. The resolver then refuses the
further names that its cache lists for the blacklist, though it puts them on a copy of its own, so
it cannot be locked as long as there are any. Where there are none, nothing tells whether its
configuration was locked early.
Main definitions:
* **`Resolver.frozen`** — a resolver whose configuration is locked;
* **`Resolver.furtherNames`** — the names that are read when a resolver is locked on a disk;
* **`Resolver.NeverNamed`** — there are none whenever a resolver is taken into use;
* **`Resolver.answersTo`** — the answers to some requests. -/

namespace Seams

/-- **A request that leaves the settings of a resolver alone.** -/
def Request.leavesSettings : Request → Bool
  | .configure _ | .freeze | .register _ => false
  | _ => true

namespace Resolver

/-- **A resolver whose configuration is locked**, in use or not. -/
def frozen (r : Resolver) : Resolver := { r with config := r.config.lock }

/-- **The names that are read when a resolver is locked on a disk**: none if its settings cannot be
used, if its cache cannot be opened or if the list of names cannot be read. -/
def furtherNames (r : Resolver) (d : Disk) : List String :=
  match r.checkConfig with
  | .error _ => []
  | .ok root =>
    match RewriteCache.create d root (AxisSnapshot.of r.config).generation with
    | (.error _, _) => []
    | (.ok cache, opened) => (cache.extraBlacklist opened).toOption.getD []

/-- **The answers to some requests**, one after the other. -/
def answersTo (r : Resolver) (d : Disk) :
    List Request → List (Except ResolveError (Option Resolved))
  | [] => []
  | request :: requests =>
    (r.serve d request).1
      :: answersTo (r.serve d request).2.1 (r.serve d request).2.2 requests

variable {r : Resolver} {d : Disk}

/-! ## Locking a resolver whose configuration is locked -/

/-- **A configuration that was locked early makes no difference** where no further names are read. -/
theorem activate_frozen (nameless : r.furtherNames d = []) :
    r.frozen.activate d = r.activate d := by
  have checks : r.frozen.checkConfig = r.checkConfig := rfl
  have snapshot : AxisSnapshot.of r.frozen.config = AxisSnapshot.of r.config := rfl
  unfold activate
  rw [checks]
  unfold furtherNames at nameless
  cases checked : r.checkConfig with
  | error e => rfl
  | ok root =>
  simp only [checked] at nameless
  simp only [snapshot]
  rcases created : RewriteCache.create d root (AxisSnapshot.of r.config).generation
    with ⟨e | cache, opened⟩
  · rfl
  simp only [created] at nameless
  simp only
  cases listed : cache.extraBlacklist opened with
  | error e => rfl
  | ok names =>
  obtain rfl : names = [] := by rwa [listed] at nameless
  simp only [extendBlacklist]
  rcases cache.reconcile opened (AxisSnapshot.of r.config) with ⟨e | changed, after⟩
  · rfl
  · -- The patchers are chosen in the same way.
    have chosen := choose_lock r.config r.registered r.config.patcherList
    simp only [← chosen]
    rfl

/-- **Where further names are read**, the settings have passed and the cache has been opened. -/
theorem exists_of_furtherNames (some : r.furtherNames d ≠ []) :
    ∃ root cache opened names, r.checkConfig = .ok root
      ∧ RewriteCache.create d root (AxisSnapshot.of r.config).generation = (.ok cache, opened)
      ∧ cache.extraBlacklist opened = .ok names ∧ names ≠ [] := by
  unfold furtherNames at some
  split at some
  · exact absurd rfl some
  rename_i root checked
  split at some
  · exact absurd rfl some
  rename_i cache opened created
  cases listed : cache.extraBlacklist opened with
  | error e =>
      rw [listed] at some
      exact absurd rfl some
  | ok names =>
      rw [listed] at some
      exact ⟨root, cache, opened, names, checked, created, listed, some⟩

/-- **The names that are read** where the settings pass and the cache can be opened. -/
theorem furtherNames_of_listed {root : Path} {cache : RewriteCache} {opened : Disk}
    {names : List String} (checked : r.checkConfig = .ok root)
    (created : RewriteCache.create d root (AxisSnapshot.of r.config).generation
      = (.ok cache, opened))
    (listed : cache.extraBlacklist opened = .ok names) : r.furtherNames d = names := by
  simp only [furtherNames, checked, created, listed]
  rfl

/-- **A resolver whose configuration was locked early cannot be locked where further names are
read.** -/
theorem activate_frozen_of_names {root : Path} {cache : RewriteCache} {opened : Disk}
    {names : List String} (checked : r.checkConfig = .ok root)
    (created : RewriteCache.create d root (AxisSnapshot.of r.config).generation
      = (.ok cache, opened))
    (listed : cache.extraBlacklist opened = .ok names) (some : names ≠ []) :
    r.frozen.activate d = (.error (.config (.locked "add to blacklist")), opened) := by
  have checks : r.frozen.checkConfig = .ok root := checked
  have snapshot : AxisSnapshot.of r.frozen.config = AxisSnapshot.of r.config := rfl
  have refused : extendBlacklist r.frozen.config names = .error (.locked "add to blacklist") := by
    rw [extendBlacklist_eq, if_pos ⟨rfl, some⟩]
  unfold activate
  simp only [checks, snapshot, created, listed, refused]

/-- **A resolver is locked** if its cache can be opened and made to fit, and the further names that
it lists can be put on the blacklist. -/
theorem lock_ok {root : Path} {cache : RewriteCache} {opened after : Disk} {names : List String}
    {changed : List Axis} (unused : r.active = none) (unlocked : r.config.isLocked = false)
    (checked : r.checkConfig = .ok root)
    (created : RewriteCache.create d root (AxisSnapshot.of r.config).generation
      = (.ok cache, opened))
    (listed : cache.extraBlacklist opened = .ok names)
    (fitted : cache.reconcile opened (AxisSnapshot.of r.config) = (.ok changed, after)) :
    (r.lock d).1 = .ok () := by
  have extended := extendBlacklist_eq r.config names
  rw [if_neg (by simp [unlocked])] at extended
  unfold lock
  rw [activeState_of_unused unused]
  simp only [activate, checked, created, listed, extended, fitted]

variable {r' : Resolver} {d' : Disk} {a : Active} {attempt request : Request}
  {requests : List Request}

/-- **Once a resolver is taken into use, no answer finds fault with its settings.** -/
theorem serve_ne_config (uses : attempt.uses = true)
    (passed : r.activeState d = (.ok (a, r'), d')) (cause : ConfigError) :
    (r.serve d attempt).1 ≠ .error (.config cause) := by
  intro same
  cases attempt with
  | lock =>
      simp only [serve, lock, passed] at same
      cases same
  | resolve p =>
      have answer := (a.resolves d' p).ne_config cause
      simp only [serve, resolve, passed] at same
      cases resolved : (a.resolve d' p).1 with
      | error e =>
          rw [resolved] at answer same
          cases same
          exact answer rfl
      | ok loaded =>
          rw [resolved] at same
          cases same
  | clear =>
      simp only [serve, clearCache, passed] at same
      cases cleared : (a.cache.clear d').1 with
      | error e =>
          rw [cleared] at same
          cases same
      | ok u =>
          rw [cleared] at same
          cases same
  | configure | freeze | register | outside => cases uses

/-- **Where further names are read, the configuration that was locked early is found fault with**,
and the one that was not locked is not. -/
theorem serve_frozen_of_names (unlocked : r.config.isLocked = false) (unused : r.active = none)
    (some : r.furtherNames d ≠ []) (uses : attempt.uses = true) :
    (∃ opened, r.frozen.serve d attempt
        = (.error (.config (.locked "add to blacklist")), r.frozen, opened))
      ∧ ∀ operation, (r.serve d attempt).1 ≠ .error (.config (.locked operation)) := by
  obtain ⟨root, cache, opened, names, checked, created, listed, some⟩ := exists_of_furtherNames some
  have refused := activate_frozen_of_names checked created listed some
  rw [← activeState_of_unused (r := r.frozen) unused] at refused
  refine ⟨⟨opened, serve_of_failed uses refused⟩, fun operation => ?_⟩
  rcases state : r.activeState d with ⟨e | ⟨a, r'⟩, after⟩
  · rw [serve_of_failed uses state]
    intro same
    cases same
    -- The settings have been checked, and the configuration is not locked.
    have failed := activate_of_failed state
    rcases config_of_activate (congrArg Prod.fst failed) with unchecked | ⟨locked, -⟩
    · rw [checked] at unchecked
      cases unchecked
    · rw [unlocked] at locked
      cases locked
  · exact serve_ne_config uses state _

/-- **Where no further names are read, a request tells nothing of a configuration that was locked
early.** It leaves both resolvers as they are, or takes both into use as the same one. -/
theorem serve_frozen (unused : r.active = none) (leaves : request.leavesSettings = true)
    (nameless : request.uses = true → r.furtherNames d = []) :
    ((r.serve d request).2.1 = r
        ∧ r.frozen.serve d request = ((r.serve d request).1, r.frozen, (r.serve d request).2.2))
      ∨ r.frozen.serve d request = r.serve d request
        ∧ ∃ a c, (r.serve d request).2.1.InUse a c ∧ c.isLocked = true := by
  cases uses : request.uses with
  | false =>
      -- Only the disk is another one.
      cases request with
      | outside d' => exact .inl ⟨rfl, rfl⟩
      | configure | freeze | register => cases leaves
      | lock | resolve | clear => cases uses
  | true =>
      have same := activate_frozen (nameless uses)
      rw [← activeState_of_unused unused, ← activeState_of_unused (r := r.frozen) unused] at same
      rcases state : r.activeState d with ⟨e | ⟨a, r'⟩, after⟩
      · rw [serve_of_failed uses state, serve_of_failed uses (same.trans state)]
        exact .inl ⟨rfl, rfl⟩
      · have fresh : r.LockedInUse := fun isUsed => by
          rw [unused] at isUsed
          cases isUsed
        obtain ⟨-, locked⟩ := inUse_of_activeState fresh state
        refine .inr ⟨?_, a, r'.config, inUse_of_uses uses fresh state, locked⟩
        cases request with
        | lock => simp only [serve, lock, same, state]
        | resolve p => simp only [serve, resolve, same, state]
        | clear => simp only [serve, clearCache, same, state]
        | configure | freeze | register | outside => cases uses

/-! ## Whatever is asked for -/

/-- **Whenever a request would take a resolver into use, no further names are read.** -/
def NeverNamed (r : Resolver) (d : Disk) (requests : List Request) : Prop :=
  ∀ earlier attempt later, requests = earlier ++ attempt :: later → attempt.uses = true →
    (r.serveAll d earlier).1.active = none →
    (r.serveAll d earlier).1.furtherNames (r.serveAll d earlier).2 = []

theorem neverNamed_nil : r.NeverNamed d [] := by
  intro earlier attempt later eq
  simp at eq

/-- **No further names are read** when the first request is made and when the others are. -/
theorem neverNamed_cons : r.NeverNamed d (request :: requests)
    ↔ (request.uses = true → r.active = none → r.furtherNames d = [])
      ∧ (r.serve d request).2.1.NeverNamed (r.serve d request).2.2 requests := by
  constructor
  · intro never
    refine ⟨never [] request requests rfl, fun earlier attempt later eq => ?_⟩
    exact never (request :: earlier) attempt later (by rw [eq, List.cons_append])
  · rintro ⟨first, others⟩ earlier attempt later eq
    cases earlier with
    | nil =>
        obtain ⟨rfl, -⟩ := List.cons.inj eq
        exact first
    | cons q earlier =>
        obtain ⟨rfl, rest⟩ := List.cons.inj eq
        exact others earlier attempt later rest

/-- **A resolver in use reads no names any more.** -/
theorem InUse.neverNamed {c : Configuration} (inUse : r.InUse a c) (locked : c.isLocked = true)
    (d : Disk) (requests : List Request) : r.NeverNamed d requests := by
  intro earlier attempt later eq uses unused
  obtain ⟨n, active⟩ := (inUse.serveAll locked d earlier).active
  rw [active] at unused
  cases unused

/-- **Two resolvers are alike**: they are the same, or none of them is in use and the configuration
of the second one was locked early. -/
def Alike (r s : Resolver) : Prop := s = r ∨ r.active = none ∧ s = r.frozen

/-- **A request tells nothing of a configuration that was locked early**, if no further names are
read. -/
theorem Alike.serve {s : Resolver} (alike : r.Alike s) (leaves : request.leavesSettings = true)
    (nameless : request.uses = true → r.active = none → r.furtherNames d = []) :
    (s.serve d request).1 = (r.serve d request).1
      ∧ (s.serve d request).2.2 = (r.serve d request).2.2
      ∧ (r.serve d request).2.1.Alike (s.serve d request).2.1 := by
  rcases alike with rfl | ⟨unused, rfl⟩
  · exact ⟨rfl, rfl, .inl rfl⟩
  rcases serve_frozen unused leaves fun uses => nameless uses unused with ⟨kept, same⟩ | ⟨same, -⟩
  · rw [same, kept]
    exact ⟨rfl, rfl, .inr ⟨unused, rfl⟩⟩
  · rw [same]
    exact ⟨rfl, rfl, .inl rfl⟩

/-- **Requests tell nothing of a configuration that was locked early**, if no further names are
read. -/
theorem Alike.serveAll {s : Resolver} (alike : r.Alike s)
    (leave : ∀ request ∈ requests, request.leavesSettings = true)
    (never : r.NeverNamed d requests) :
    s.answersTo d requests = r.answersTo d requests
      ∧ (s.serveAll d requests).2 = (r.serveAll d requests).2
      ∧ (r.serveAll d requests).1.Alike (s.serveAll d requests).1 := by
  induction requests generalizing r s d with
  | nil => exact ⟨rfl, rfl, alike⟩
  | cons request requests ih =>
      obtain ⟨nameless, others⟩ := neverNamed_cons.1 never
      obtain ⟨answer, disk, alike'⟩ := alike.serve (leave _ List.mem_cons_self) nameless
      have rest := ih alike' (fun q mem => leave q (List.mem_cons_of_mem _ mem)) others
      rw [serveAll_cons, serveAll_cons, answersTo, answersTo, answer, disk]
      exact ⟨congrArg _ rest.1, rest.2⟩

/-- **Where the answers are the same no further names have been read.** -/
theorem neverNamed_of_answersTo_eq (unlocked : r.config.isLocked = false) (unused : r.active = none)
    (leave : ∀ request ∈ requests, request.leavesSettings = true)
    (same : r.frozen.answersTo d requests = r.answersTo d requests) : r.NeverNamed d requests := by
  induction requests generalizing d with
  | nil => exact neverNamed_nil
  | cons request requests ih =>
      rw [answersTo, answersTo] at same
      obtain ⟨first, others⟩ := List.cons.inj same
      have leave' := fun q mem => leave q (List.mem_cons_of_mem request mem)
      have nameless : request.uses = true → r.active = none → r.furtherNames d = [] := by
        intro uses _
        by_contra some
        obtain ⟨⟨opened, refused⟩, differs⟩ := serve_frozen_of_names unlocked unused some uses
        rw [refused] at first
        exact differs _ first.symm
      refine neverNamed_cons.2 ⟨nameless, ?_⟩
      rcases serve_frozen unused (leave _ List.mem_cons_self) fun uses => nameless uses unused
        with ⟨kept, served⟩ | ⟨-, a, c, inUse, locked⟩
      · rw [served, kept] at others
        rw [kept]
        exact ih leave' others
      · exact inUse.neverNamed locked _ _

/-- **A configuration that is locked early.** A resolver of a configuration and one of the same
configuration that was locked before are asked for the same things. They answer the same just if
the configuration had been locked anyway, or no names are listed for the blacklist whenever the
first one is taken into use. In that case they have the same in use in the end, with the same
blacklist and on the same disk. Where names are listed, the one that was locked early cannot be
taken into use because it is locked, and stays as it is; the other one is never told so. -/
theorem frozen_early_iff (c : Configuration) (d : Disk) (requests : List Request)
    (leave : ∀ request ∈ requests, request.leavesSettings = true) :
    ((of c.lock).answersTo d requests = (of c).answersTo d requests
        ↔ c.isLocked = true ∨ (of c).NeverNamed d requests)
      ∧ ((of c.lock).answersTo d requests = (of c).answersTo d requests →
        ((of c.lock).serveAll d requests).1.active = ((of c).serveAll d requests).1.active
          ∧ ((of c.lock).serveAll d requests).1.config.blacklist
            = ((of c).serveAll d requests).1.config.blacklist
          ∧ ((of c.lock).serveAll d requests).2 = ((of c).serveAll d requests).2)
      ∧ ∀ disk attempt, c.isLocked = false → attempt.uses = true →
        (of c).furtherNames disk ≠ [] →
        (∃ opened, (of c.lock).serve disk attempt
            = (.error (.config (.locked "add to blacklist")), of c.lock, opened))
          ∧ ∀ operation, ((of c).serve disk attempt).1 ≠ .error (.config (.locked operation)) := by
  have frozen : of c.lock = (of c).frozen := rfl
  have never (same : (of c.lock).answersTo d requests = (of c).answersTo d requests) :
      c.isLocked = true ∨ (of c).NeverNamed d requests := by
    cases isLocked : c.isLocked with
    | true => exact .inl rfl
    | false => exact .inr (neverNamed_of_answersTo_eq (r := of c) isLocked rfl leave same)
  have alike (when : c.isLocked = true ∨ (of c).NeverNamed d requests) :
      (of c.lock).answersTo d requests = (of c).answersTo d requests
        ∧ ((of c.lock).serveAll d requests).2 = ((of c).serveAll d requests).2
        ∧ ((of c).serveAll d requests).1.Alike ((of c.lock).serveAll d requests).1 := by
    rcases when with isLocked | nameless
    · have same : c.lock = c := by
        cases c
        cases isLocked
        rfl
      rw [same]
      exact ⟨rfl, rfl, .inl rfl⟩
    · exact Alike.serveAll (.inr ⟨rfl, frozen⟩) leave nameless
  refine ⟨⟨never, fun when => (alike when).1⟩, fun same => ?_,
    fun disk attempt unlocked uses some =>
      serve_frozen_of_names (r := of c) unlocked rfl some uses⟩
  obtain ⟨-, disk, same | ⟨unused, same⟩⟩ := alike (never same)
  · exact ⟨by rw [same], by rw [same], disk⟩
  · rw [same]
    exact ⟨rfl, rfl, disk⟩

/-- **A cache that lists a function for the blacklist.** -/
def listingTime : Disk :=
  ⟨[(["c"], .directory), (["c", "conf"], .directory),
    (["c", "conf", "function_blacklist.txt"], .file (bytesOf "time")), (["s"], .directory)], []⟩

/-- **A text of one line lists one name.** -/
theorem listedNames_time : RewriteCache.listedNames "time" = ["time"] := by
  have parts : "time".splitOn "\n" = ["time"] := by
    unfold String.splitOn
    rw [if_neg (by decide)]
    -- None of the four characters ends the line.
    iterate 4 rw [String.splitOnAux, if_neg (by decide +kernel), if_neg (by decide +kernel)]
    rw [String.splitOnAux, if_pos (by decide +kernel)]
    decide +kernel
  rw [RewriteCache.listedNames, parts]
  decide +kernel

/-- **One name is read** when a resolver is locked on that cache, which can be made to fit. -/
theorem furtherNames_listingTime :
    (of randOnly).furtherNames listingTime = ["time"]
      ∧ ((of randOnly).lock listingTime).1 = .ok () := by
  have passes : (match RewriteCache.create listingTime ⟨"/c"⟩
        (AxisSnapshot.of randOnly).generation with
      | (.error _, _) => (none, false)
      | (.ok cache, opened) => ((opened.readText cache.blacklistPath).toOption,
          (cache.reconcile opened (AxisSnapshot.of randOnly)).1.toOption.isSome))
        = (some "time", true) := by decide +kernel
  split at passes
  · cases passes
  rename_i cache opened created
  obtain ⟨read, fits⟩ := Prod.mk.inj passes
  obtain ⟨changed, fitting⟩ := Option.isSome_iff_exists.1 fits
  have listed : cache.extraBlacklist opened = .ok ["time"] := by
    unfold RewriteCache.extraBlacklist
    simp only [ok_of_toOption read, listedNames_time]
  have checked : (of randOnly).checkConfig = .ok ⟨"/c"⟩ := rfl
  exact ⟨furtherNames_of_listed checked created listed,
    lock_ok rfl rfl checked created listed (eq_of_toOption fitting)⟩

/-- **A list of one function keeps a resolver that was locked early from ever being used**; without
the list it is as good as the other one. -/
theorem frozen_early_listed :
    ((of randOnly).lock listingTime).1 = .ok ()
      ∧ (∃ opened, (of randOnly.lock).serve listingTime .lock
        = (.error (.config (.locked "add to blacklist")), of randOnly.lock, opened))
      ∧ (of randOnly.lock).answersTo listingTime [.lock] ≠ (of randOnly).answersTo listingTime [.lock]
      ∧ (of randOnly.lock).answersTo sourceless [.lock]
        = (of randOnly).answersTo sourceless [.lock] := by
  obtain ⟨listed, locked⟩ := furtherNames_listingTime
  have nameless : (of randOnly).furtherNames sourceless = [] := by decide +kernel
  obtain ⟨iff, -, refused⟩ := frozen_early_iff randOnly listingTime [.lock] (by decide)
  obtain ⟨iff', -⟩ := frozen_early_iff randOnly sourceless [.lock] (by decide)
  refine ⟨locked, (refused listingTime .lock rfl rfl (by rw [listed]; decide)).1,
    fun same => ?_, iff'.2 (.inr (neverNamed_cons.2 ⟨fun _ _ => nameless, neverNamed_nil⟩))⟩
  rcases iff.1 same with isLocked | never
  · cases isLocked
  · cases listed.symm.trans ((neverNamed_cons.1 never).1 rfl rfl)

end Resolver

end Seams
