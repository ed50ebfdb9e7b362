import Mathlib.Data.List.Basic
import Mathlib.Data.List.Duplicate
import Mathlib.Data.List.ReduceOption
import Mathlib.Tactic.Common
import Seams.Proofs.Coherence
import Seams.Proofs.ExitSignal

/-! # The patchers in use
A configuration lists patchers by their names. A name stands for the patcher that was offered last
under it, or else for the one that is built in. A resolver can be locked if each listed name stands
for some patcher. It takes a registered patcher away when it puts it in use, though, so a name that
is listed again gets what is built in under it, or nothing.
Main definitions:
* **`Resolver.standing?`** — what a name stands for;
* **`Resolver.Registers`** — a resolver has registered what it was offered, less what it has taken;
* **`Resolver.runners`** — what runs each entry of a list. -/

namespace Seams

namespace Resolver

/-! ## What a name stands for -/

/-- **What a name stands for**: the patcher that was offered last under it, or else the one that is
built in. -/
def standing? (c : Configuration) (offered : List Patcher) (name : String) : Option Patcher :=
  (offered.reverse.find? (·.name == name)).or (builtIn? c name)

/-- **The offers that a configuration admits**: none if it is locked. -/
def admitted (c : Configuration) (offered : List Patcher) : List Patcher :=
  if c.isLocked then [] else offered

/-- **What runs each entry of a list**: the first entry of a name is run by what the name stands for,
any other by what is built in. -/
def runners (c : Configuration) (offered : List Patcher) :
    List String → List String → List (Option Patcher)
  | _, [] => []
  | earlier, name :: names =>
    (if name ∈ earlier then builtIn? c name else standing? c offered name)
      :: runners c offered (name :: earlier) names

/-- **The patchers that are registered are those that were offered**, the last one of each name, but
for the names that have been taken. -/
def Registers (registered offered : List Patcher) (taken : List String) : Prop :=
  ∀ name, registered.filter (·.name == name)
    = if name ∈ taken then [] else (offered.reverse.find? (·.name == name)).toList

variable {c : Configuration} {registered offered : List Patcher} {earlier names : List String}
  {r : Resolver}

/-- **A patcher that is built in has one of three names.** -/
theorem isSome_builtIn?_iff {name : String} :
    (builtIn? c name).isSome = true ↔ name ∈ Configuration.builtIn := by
  unfold builtIn? Configuration.builtIn
  split_ifs with exits calls methods <;> simp_all

/-- **A patcher that a name stands for has that name.** -/
theorem name_of_standing? {name : String} {p : Patcher}
    (h : standing? c offered name = some p) : p.name = name := by
  rcases Option.or_eq_some_iff.1 h with found | ⟨-, built⟩
  · have named := List.find?_some found
    rwa [beq_iff_eq] at named
  · exact name_of_builtIn? built

/-- **A name stands for something** if something was offered under it, or it is built in. -/
theorem isSome_standing?_iff {name : String} : (standing? c offered name).isSome = true
    ↔ (∃ p ∈ offered, p.name = name) ∨ name ∈ Configuration.builtIn := by
  rw [standing?, Option.isSome_or, Bool.or_eq_true, isSome_builtIn?_iff, List.find?_isSome]
  simp

/-! ## Offers -/

namespace Registers

/-- **The registered patcher of a name**, unless it has been taken. -/
theorem find?_eq (registers : Registers registered offered earlier) (name : String) :
    registered.find? (·.name == name)
      = if name ∈ earlier then none else offered.reverse.find? (·.name == name) := by
  rw [← List.head?_filter, registers name]
  split
  · rfl
  · cases offered.reverse.find? (·.name == name) <;> rfl

/-- **Taking the patcher of a name** leaves the others. -/
theorem take (registers : Registers registered offered earlier) (name : String) :
    Registers (registered.eraseP (·.name == name)) offered (name :: earlier) := by
  intro other
  by_cases same : other = name
  · subst same
    rw [filter_eraseP_self, registers other, if_pos List.mem_cons_self]
    split
    · rfl
    · cases offered.reverse.find? (·.name == other) <;> rfl
  · have disjoint (p : Patcher) (named : (p.name == name) = true) : (p.name == other) = false := by
      rw [beq_iff_eq] at named
      rw [beq_eq_false_iff_ne, named]
      exact Ne.symm same
    simp only [filter_eraseP_of_disjoint disjoint, registers other, List.mem_cons, same, false_or]

/-- **One more patcher is registered** in place of an earlier one of its name. -/
theorem register (registers : Registers registered offered []) (p : Patcher) :
    Registers (registered.filter (·.name != p.name) ++ [p]) (offered ++ [p]) [] := by
  intro name
  simp only [List.filter_append, List.filter_filter, List.reverse_append, List.reverse_singleton,
    List.singleton_append, List.not_mem_nil, if_false]
  by_cases same : p.name = name
  · subst same
    simp
  · have others : (fun q : Patcher => q.name == name && q.name != p.name) = (·.name == name) := by
      funext q
      by_cases named : q.name = name
      · simp [named, Ne.symm same]
      · simp [named]
    have old := registers name
    rw [if_neg List.not_mem_nil] at old
    rw [others, old, List.find?_cons_of_neg (by simpa using same)]
    simp [same]

end Registers

/-- **A locked configuration refuses every offer.** -/
theorem serveAll_offers_of_locked (locked : r.config.isLocked = true) (d : Disk)
    (offered : List Patcher) : (r.serveAll d (offered.map .register)).1 = r := by
  induction offered with
  | nil => rfl
  | cons p offered ih =>
      have refused : r.serve d (.register p)
          = (.error (.config (.locked "register a patcher")), r, d) := by
        simp only [serve, Resolver.register, if_pos locked]
      rw [List.map_cons, serveAll_cons, refused]
      exact ih

/-- **Offers are registered**, as long as the configuration is not locked, and change nothing
else. -/
theorem exists_serveAll_offers (unlocked : r.config.isLocked = false)
    (registers : Registers r.registered offered []) (d : Disk) (further : List Patcher) :
    ∃ registered, (r.serveAll d (further.map .register)).1 = ⟨r.config, registered, r.active⟩
      ∧ Registers registered (offered ++ further) [] := by
  induction further generalizing r offered with
  | nil => exact ⟨r.registered, rfl, by rwa [List.append_nil]⟩
  | cons p further ih =>
      have accepted : r.serve d (.register p) = (.ok none,
          { r with registered := r.registered.filter (·.name != p.name) ++ [p] }, d) := by
        simp [serve, Resolver.register, unlocked]
      rw [List.map_cons, serveAll_cons, accepted]
      obtain ⟨registered, served, registers⟩ := ih
        (r := { r with registered := r.registered.filter (·.name != p.name) ++ [p] })
        unlocked (registers.register p)
      refine ⟨registered, served, ?_⟩
      rwa [List.append_assoc] at registers

/-- **What a resolver has registered when it is offered patchers**, from the beginning. -/
theorem exists_registers (c : Configuration) (offered : List Patcher) (d : Disk) :
    ∃ registered, ((of c).serveAll d (offered.map .register)).1 = ⟨c, registered, none⟩
      ∧ Registers registered (admitted c offered) [] := by
  have none : Registers [] [] [] := fun name => rfl
  unfold admitted
  cases locked : c.isLocked with
  | true => exact ⟨[], serveAll_offers_of_locked locked d offered, none⟩
  | false => exact exists_serveAll_offers (r := of c) locked none d offered

/-! ## Choosing -/

/-- **The patchers that are chosen are what runs the entries**, where anything does. -/
theorem choose_eq_reduceOption (c : Configuration)
    (registers : Registers registered offered earlier) (names : List String) :
    choose c registered names = (runners c offered earlier names).reduceOption := by
  induction names generalizing registered earlier with
  | nil => rfl
  | cons name names ih =>
      have rest := ih (registers.take name)
      have found := registers.find?_eq name
      rw [choose, runners]
      cases stands : registered.find? (·.name == name) with
      | some p =>
          rw [stands] at found
          split at found
          · cases found
          · rename_i first
            rw [if_neg first, standing?, ← found]
            exact congrArg (p :: ·) rest
      | none =>
          -- Nothing of that name is registered, so nothing is taken away.
          rw [List.eraseP_of_forall_not (List.find?_eq_none.1 stands)] at rest
          have built : (if name ∈ earlier then builtIn? c name else standing? c offered name)
              = builtIn? c name := by
            rw [stands] at found
            split
            · rfl
            · rename_i first
              rw [if_neg first] at found
              rw [standing?, ← found, Option.none_or]
          rw [built]
          cases builtIn? c name with
          | some p => exact congrArg (p :: ·) rest
          | none => exact rest

/-- **The patchers that are chosen do not depend on whether the configuration is locked.** -/
theorem choose_lock (c : Configuration) (registered : List Patcher) (names : List String) :
    choose c.lock registered names = choose c registered names := by
  refine choose_congr ?_ ?_ fun _ _ => ?_ <;> rfl

/-- **Every entry of a list has its place among what runs them.** -/
theorem length_runners (c : Configuration) (offered : List Patcher) (earlier names : List String) :
    (runners c offered earlier names).length = names.length := by
  induction names generalizing earlier with
  | nil => rfl
  | cons name names ih => rw [runners, List.length_cons, List.length_cons, ih]

/-- **The names of the patchers are the list** if something runs each entry, and only then. -/
theorem names_reduceOption_eq_iff :
    (runners c offered earlier names).reduceOption.map (·.name) = names
      ↔ ∀ runner ∈ runners c offered earlier names, runner.isSome = true := by
  constructor
  · intro same
    have length := congrArg List.length same
    rw [List.length_map, ← length_runners c offered earlier] at length
    exact List.reduceOption_length_eq_iff.1 length
  · intro all
    induction names generalizing earlier with
    | nil => rfl
    | cons name names ih =>
        rw [runners] at all ⊢
        obtain ⟨p, runs⟩ := Option.isSome_iff_exists.1 (all _ List.mem_cons_self)
        have named : p.name = name := by
          split at runs
          · exact name_of_builtIn? runs
          · exact name_of_standing? runs
        rw [runs, List.reduceOption_cons_of_some, List.map_cons, named,
          ih fun runner mem => all runner (List.mem_cons_of_mem _ mem)]

/-- **A name is listed again** behind some earlier ones. -/
def Again (earlier names : List String) (name : String) : Prop :=
  name ∈ earlier ∧ name ∈ names ∨ List.Duplicate name names

/-- **What holds of the names that are listed again**, entry by entry. -/
theorem forall_again_cons {property : String → Prop} {name : String} :
    (∀ n, Again earlier (name :: names) n → property n)
      ↔ (name ∈ earlier → property name) ∧ ∀ n, Again (name :: earlier) names n → property n := by
  constructor
  · intro all
    refine ⟨fun mem => all name (.inl ⟨mem, List.mem_cons_self⟩), fun n again => all n ?_⟩
    rcases again with ⟨mem, later⟩ | twice
    · rcases List.mem_cons.1 mem with rfl | mem
      · exact .inr (List.duplicate_cons_self_iff.2 later)
      · exact .inl ⟨mem, .tail _ later⟩
    · exact .inr (twice.duplicate_cons name)
  · rintro ⟨here, there⟩ n (⟨mem, later⟩ | twice)
    · rcases List.mem_cons.1 later with rfl | later
      · exact here mem
      · exact there n (.inl ⟨.tail _ mem, later⟩)
    · rcases List.duplicate_cons_iff.1 twice with ⟨rfl, later⟩ | twice
      · exact there _ (.inl ⟨List.mem_cons_self, later⟩)
      · exact there n (.inr twice)

/-- **Where nothing is missing, nothing is left out.** -/
theorem map_some_reduceOption {α : Type} {xs : List (Option α)}
    (all : ∀ x ∈ xs, x.isSome = true) : xs.reduceOption.map some = xs := by
  induction xs with
  | nil => rfl
  | cons x xs ih =>
      obtain ⟨a, rfl⟩ := Option.isSome_iff_exists.1 (all x List.mem_cons_self)
      rw [List.reduceOption_cons_of_some, List.map_cons, ih fun y mem => all y (.tail _ mem)]

/-- **Something runs each entry** if the names that are listed again are built in, and only then, as
long as each name stands for something. -/
theorem isSome_runners_iff (known : ∀ name ∈ names, (standing? c offered name).isSome = true) :
    (∀ runner ∈ runners c offered earlier names, runner.isSome = true)
      ↔ ∀ name, Again earlier names name → name ∈ Configuration.builtIn := by
  induction names generalizing earlier with
  | nil => simp [runners, Again, List.not_duplicate_nil]
  | cons name names ih =>
      rw [runners, List.forall_mem_cons, ih fun n mem => known n (.tail _ mem), forall_again_cons]
      refine and_congr_left fun _ => ?_
      split
      · rename_i again
        rw [isSome_builtIn?_iff]
        exact ⟨fun own _ => own, fun own => own again⟩
      · rename_i first
        exact ⟨fun _ again => absurd again first, fun _ => known name List.mem_cons_self⟩

/-- **Each entry is run by what its name stands for** if nothing was offered under the names that
are listed again. -/
theorem runners_eq_map
    (builtIn : ∀ name, Again earlier names name → ∀ p ∈ offered, p.name ≠ name) :
    runners c offered earlier names = names.map (standing? c offered) := by
  induction names generalizing earlier with
  | nil => rfl
  | cons name names ih =>
      obtain ⟨here, there⟩ := forall_again_cons.1 builtIn
      rw [runners, List.map_cons, ih there]
      split
      · rename_i again
        have missing : offered.reverse.find? (·.name == name) = none := by
          simpa using here again
        rw [standing?, missing, Option.none_or]
      · rfl

/-! ## Locking -/

/-- **The first listed patcher that there is not** is the first name that stands for nothing. -/
theorem unknown?_eq (registers : Registers registered offered []) (c : Configuration) :
    unknown? c registered = c.patcherList.find? fun name => (standing? c offered name).isNone := by
  unfold unknown?
  congr 1
  funext name
  have found := registers.find?_eq name
  rw [if_neg List.not_mem_nil] at found
  have known : registered.any (·.name == name)
      = (offered.reverse.find? (·.name == name)).isSome := by
    rw [← found, Bool.eq_iff_iff, List.find?_isSome, List.any_eq_true]
  have own : Configuration.builtIn.contains name = (builtIn? c name).isSome := by
    rw [Bool.eq_iff_iff, isSome_builtIn?_iff, List.contains_iff_mem]
  rw [known, own, standing?]
  cases offered.reverse.find? (·.name == name) <;> cases builtIn? c name <;> rfl

/-- **The blacklist cannot be extended only if the configuration is locked.** -/
theorem extendBlacklist_error {c : Configuration} {names : List String} {e : ConfigError}
    (h : extendBlacklist c names = .error e) : e = .locked "add to blacklist" := by
  rw [extendBlacklist_eq] at h
  split at h
  · exact (Except.error.inj h).symm
  · cases h

/-- **Locking a resolver fails for want of a patcher** if its settings are checked so far, and only
then. -/
theorem activate_unknownPatcher_iff {d : Disk} {name : String} :
    (r.activate d).1 = .error (.config (.unknownPatcher name))
      ↔ r.config.cacheDir ≠ none ∧ r.config.includePaths ≠ []
        ∧ unknown? r.config r.registered = some name := by
  have checks : r.checkConfig = .error (.unknownPatcher name)
      ↔ r.config.cacheDir ≠ none ∧ r.config.includePaths ≠ []
        ∧ unknown? r.config r.registered = some name := by
    unfold checkConfig Configuration.requireCacheDir
    cases r.config.cacheDir <;> cases r.config.includePaths <;>
      cases unknown? r.config r.registered <;> simp
  rw [← checks]
  unfold activate
  cases r.checkConfig with
  | error e => simp
  | ok root =>
      refine iff_of_false ?_ (by simp)
      simp only
      split
      · simp
      split
      · simp
      split
      · rename_i refused
        simp [extendBlacklist_error refused]
      split <;> simp

/-- **Once a resolver is locked, there is a patcher of each name that is listed.** -/
theorem unknown?_of_activate {d d' : Disk} {a : Active} {now : Resolver}
    (activated : r.activate d = (.ok (a, now), d')) : unknown? r.config r.registered = none := by
  obtain ⟨root, checked⟩ := exists_checkConfig activated
  unfold checkConfig at checked
  split at checked
  · cases checked
  split at checked
  · cases checked
  split at checked
  · cases checked
  · assumption

/-- **Locking a resolver that is not in use** fails as taking it into use does. -/
theorem lock_fst (unused : r.active = none) (d : Disk) :
    (r.lock d).1 = (r.activate d).1.map fun _ => () := by
  rw [lock, activeState_of_unused unused]
  rcases r.activate d with ⟨e | ⟨a, r'⟩, after⟩ <;> rfl

/-- **A resolver that is locked is in use** from then on. -/
theorem exists_activate_of_lock {now : Resolver} {d d' : Disk} (unused : r.active = none)
    (locks : r.lock d = (.ok (), now, d')) : ∃ a, r.activate d = (.ok (a, now), d') := by
  rw [lock, activeState_of_unused unused] at locks
  rcases activated : r.activate d with ⟨e | ⟨a, r'⟩, after⟩
  · rw [activated] at locks
    cases locks
  · rw [activated] at locks
    cases locks
    exact ⟨a, rfl⟩

/-- **The patchers in use are those that run the entries of the list**, and the list is as it
was. -/
theorem patchers_of_activate {d d' : Disk} {a : Active} {now : Resolver}
    (registers : Registers r.registered offered [])
    (activated : r.activate d = (.ok (a, now), d')) :
    now.active = some a ∧ now.config.patcherList = r.config.patcherList
      ∧ a.pipeline.patchers
        = (runners now.config offered [] r.config.patcherList).reduceOption := by
  obtain ⟨root, names, opened, act⟩ := exists_activates activated
  refine ⟨act.active, by rw [act.config]; rfl, ?_⟩
  -- The built-in patchers are the ones of the configuration as it is once it is locked.
  rw [← choose_eq_reduceOption now.config registers, act.config, act.pipeline, choose_lock]
  rfl

/-- **Once a resolver is locked, each listed name stands for something.** -/
theorem known_of_activate {d d' : Disk} {a : Active} {now : Resolver}
    (registers : Registers r.registered offered [])
    (activated : r.activate d = (.ok (a, now), d')) :
    ∀ name ∈ r.config.patcherList, (standing? now.config offered name).isSome = true := by
  intro name mem
  have missing := (unknown?_eq registers r.config).symm.trans (unknown?_of_activate activated)
  have stands := List.find?_eq_none.1 missing name mem
  rw [Bool.not_eq_true, Option.isNone_eq_false_iff] at stands
  rwa [isSome_standing?_iff, ← isSome_standing?_iff (c := r.config)]

/-- **What is in use once a resolver is locked.** Some patchers are offered to a resolver that has
any configuration, and it is locked. It fails for want of a patcher exactly if there is a directory
for the cache and something to rewrite, but a listed name stands for nothing; the error tells the
first one that does. If it succeeds, the list is as it was, and the patchers in use are those that
run its entries. Their names are the list exactly if each name that is listed twice is built in; and
if nothing was offered under such a name, each entry is run by what its name stands for. -/
theorem lock_lineup (c : Configuration) (offered : List Patcher) (d : Disk) :
    (∀ name, (((of c).serveAll d (offered.map .register)).1.lock d).1
        = .error (.config (.unknownPatcher name))
      ↔ c.cacheDir ≠ none ∧ c.includePaths ≠ []
        ∧ (c.patcherList.find? fun n => (standing? c (admitted c offered) n).isNone) = some name)
      ∧ ∀ now d', ((of c).serveAll d (offered.map .register)).1.lock d = (.ok (), now, d') →
        now.config.patcherList = c.patcherList
          ∧ (∃ a, now.active = some a ∧ a.pipeline.patchers
            = (runners now.config (admitted c offered) [] c.patcherList).reduceOption)
          ∧ (now.pipelineNames = now.config.patcherList
            ↔ ∀ name, List.Duplicate name c.patcherList → name ∈ Configuration.builtIn)
          ∧ ((∀ name, List.Duplicate name c.patcherList → ∀ p ∈ admitted c offered, p.name ≠ name) →
            ∃ a, now.active = some a ∧ a.pipeline.patchers.map some
              = c.patcherList.map (standing? now.config (admitted c offered))) := by
  obtain ⟨registered, served, registers⟩ := exists_registers c offered d
  rw [served]
  refine ⟨fun name => ?_, fun now d' locks => ?_⟩
  · rw [← unknown?_eq registers c,
      ← activate_unknownPatcher_iff (r := ⟨c, registered, none⟩) (d := d), lock_fst rfl]
    cases (activate ⟨c, registered, none⟩ d).1 <;> simp [Except.map]
  · obtain ⟨a, activated⟩ := exists_activate_of_lock rfl locks
    obtain ⟨active, list, patchers⟩ := patchers_of_activate registers activated
    have known := known_of_activate registers activated
    -- No entry is behind another list, so a name is listed again if it is listed twice.
    have again (name : String) :
        Again [] c.patcherList name ↔ List.Duplicate name c.patcherList := by
      simp [Again]
    refine ⟨list, ⟨a, active, patchers⟩, ?_, fun builtIn => ⟨a, active, ?_⟩⟩
    · have names : now.pipelineNames
          = (runners now.config (admitted c offered) [] c.patcherList).reduceOption.map
            (·.name) := by
        rw [pipelineNames, active, ← patchers]
        rfl
      rw [names, list, names_reduceOption_eq_iff, isSome_runners_iff known]
      exact forall_congr' fun name => by rw [again]
    · rw [patchers, runners_eq_map fun name mem => builtIn name ((again name).1 mem)]
      refine map_some_reduceOption fun runner mem => ?_
      obtain ⟨name, listed, rfl⟩ := List.mem_map.1 mem
      exact known name listed

/-- **A patcher that does nothing**, under a name that is not built in. -/
def idle : Patcher := ⟨"idle", fun _ edits => .ok edits⟩

/-- **A resolver that lists a patcher twice.** -/
def idleTwice : Configuration := { randOnly with patcherList := ["idle", "idle"] }

/-- **A patcher that is listed twice is in use once**: locking succeeds, and the patchers in use are
not the list. -/
theorem lock_lineup_idleTwice : ∃ now disk,
    ((of idleTwice).serveAll sourceless ([idle].map .register)).1.lock sourceless
        = (.ok (), now, disk)
      ∧ now.config.patcherList = ["idle", "idle"]
      ∧ now.pipelineNames = ["idle"] ∧ now.pipelineNames ≠ now.config.patcherList := by
  obtain ⟨-, inUse⟩ := lock_lineup idleTwice [idle] sourceless
  generalize locks : ((of idleTwice).serveAll sourceless ([idle].map .register)).1.lock sourceless
    = w at inUse ⊢
  have passes : w.1.toOption = some () ∧ w.2.1.pipelineNames = ["idle"] := by
    rw [← locks]
    decide +kernel
  have locked : w = (.ok (), w.2.1, w.2.2) := eq_of_toOption passes.1
  obtain ⟨list, -, names, -⟩ := inUse w.2.1 w.2.2 locked
  refine ⟨w.2.1, w.2.2, locked, list, passes.2, fun same => ?_⟩
  have twice : List.Duplicate "idle" idleTwice.patcherList :=
    List.duplicate_iff_two_le_count.2 (by decide)
  exact absurd (names.1 same "idle" twice) (by decide)

end Resolver

end Seams
