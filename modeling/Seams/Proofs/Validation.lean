import Mathlib.Data.List.Basic
import Mathlib.Data.List.TakeWhile
import Mathlib.Tactic.Common
import Seams.Proofs.Lineup

/-! # Settings that are validated
A settings file is checked as a whole before it is used, and all that is wrong with it is told at
once, in a fixed order. A configuration that is made of settings with which nothing is wrong keeps
what has been checked, whatever its paths are taken from. So a resolver that has it never misses a
setting.
Main definitions:
* **`relisted`** — the entries of a list that are listed further in front as well;
* **`SettingsFile.Sound`** — nothing is wrong with the settings of a file. -/

namespace Seams

/-- **Nothing is left of a text without white space at its ends** exactly if there is nothing else
in it. -/
theorem Text.isBlankText_iff {s : String} : isBlankText s = true ↔ trim s = "" := by
  have whole (cs : List Char) :
      (∀ c ∈ cs.dropWhile isBlank, isBlank c = true) ↔ ∀ c ∈ cs, isBlank c = true := by
    refine ⟨fun rest c mem => ?_, fun all c mem => all c ((List.dropWhile_sublist _).subset mem)⟩
    rw [← List.takeWhile_append_dropWhile (p := isBlank) (l := cs), List.mem_append] at mem
    exact mem.elim List.mem_takeWhile_imp (rest c)
  rw [trim, isBlankText, List.all_eq_true, ← String.toList_inj, String.toList_ofList, trimChars,
    String.toList_empty, List.reverse_eq_nil_iff, List.dropWhile_eq_nil_iff, ← whole]
  simp only [List.mem_reverse]

/-! ## Entries that are listed again -/

/-- **The entries of a list that are listed further in front as well**, each as often as that is so
and in order. -/
def relisted (names : List String) : List String :=
  (names.zipIdx.filter fun entry => entry.1 ∈ names.take entry.2).map Prod.fst

/-- **What has occurred before is what is listed further in front**, where some entries have been
passed already. -/
theorem repeated_eq {before passed names : List String}
    (met : ∀ name, name ∈ before ↔ name ∈ passed) :
    repeated before names = ((names.zipIdx passed.length).filter fun entry =>
      entry.1 ∈ (passed ++ names).take entry.2).map Prod.fst := by
  induction names generalizing before passed with
  | nil => rfl
  | cons name names ih =>
      have first : (passed ++ name :: names).take passed.length = passed := List.take_left
      have added (x : String) : x ∈ name :: before ↔ x ∈ passed ++ [name] := by
        rw [List.mem_cons, List.mem_append, List.mem_singleton, met, or_comm]
      have later := ih added
      rw [List.length_append, List.length_singleton, List.append_assoc, List.singleton_append]
        at later
      rw [repeated, List.zipIdx_cons, List.filter_cons]
      simp only [first]
      by_cases again : name ∈ passed
      · -- What is met again has been met, so nothing is added to it.
        have kept (x : String) : x ∈ before ↔ x ∈ passed ++ [name] := by
          rw [List.mem_append, List.mem_singleton, met]
          exact ⟨.inl, fun h => h.elim id fun eq => eq ▸ again⟩
        have same := ih kept
        rw [List.length_append, List.length_singleton, List.append_assoc, List.singleton_append]
          at same
        rw [if_pos (by simpa using (met name).2 again), if_pos (by simpa using again),
          List.map_cons, same]
      · rw [if_neg (by simpa using fun h => again ((met name).1 h)), if_neg (by simpa using again),
          later]

/-- **The entries that have occurred before** are those that are listed further in front as well. -/
theorem repeated_eq_relisted (names : List String) : repeated [] names = relisted names :=
  repeated_eq fun _ => Iff.rfl

/-- **Nothing has occurred before** exactly if each entry is listed once. -/
theorem repeated_eq_nil_iff {before names : List String} :
    repeated before names = [] ↔ names.Nodup ∧ ∀ name ∈ names, name ∉ before := by
  induction names generalizing before with
  | nil => simp [repeated]
  | cons name names ih =>
      rw [repeated]
      split
      · rename_i again
        simp only [reduceCtorEq, false_iff, not_and]
        intro _ apart
        exact apart name List.mem_cons_self (by simpa using again)
      · rename_i fresh
        rw [ih, List.nodup_cons]
        simp only [List.mem_cons, not_or, forall_eq_or_imp]
        constructor
        · rintro ⟨once, apart⟩
          exact ⟨⟨fun mem => (apart name mem).1 rfl, once⟩, by simpa using fresh,
            fun x mem => (apart x mem).2⟩
        · rintro ⟨⟨off, once⟩, -, apart⟩
          exact ⟨once, fun x mem => ⟨fun eq => off (eq ▸ mem), apart x mem⟩⟩

/-! ## All that is wrong with settings -/

namespace SettingsFile

/-- **What is wrong with a list of settings**, if one of its entries is blank. -/
def blankEntry (field : String) (entries : List String) : List SettingsIssue :=
  if ∃ entry ∈ entries, Text.trim entry = "" then [.emptyEntry field] else []

/-- **Nothing is wrong with the settings of a file.** -/
structure Sound (f : SettingsFile) : Prop where
  /-- It is said where rewritten sources are kept. -/
  cacheDir : ∃ dir, f.cacheDir = some dir ∧ Text.trim dir ≠ ""
  /-- It is said what is rewritten. -/
  included : f.includePaths ≠ []
  /-- No entry of a list is blank. -/
  entries : ∀ entry ∈ f.includePaths ++ f.excludePaths ++ f.patcherList.getD []
    ++ f.functionsToPatch, Text.trim entry ≠ ""
  /-- No patcher is listed again. -/
  once : (f.patcherList.getD []).Nodup
  /-- The class that signals an exit is not blank. -/
  exitClass : ∀ name, f.exitClass = some name → Text.trim name ≠ ""

/-- **A list has a blank entry** if white space is all that one of them holds. -/
theorem any_isBlankText_iff {entries : List String} :
    entries.any Text.isBlankText = true ↔ ∃ entry ∈ entries, Text.trim entry = "" := by
  rw [List.any_eq_true]
  exact exists_congr fun entry => and_congr_right fun _ => Text.isBlankText_iff

/-- **All that is wrong with settings**, in order. -/
theorem issues_eq (f : SettingsFile) : f.issues
    = (if f.cacheDir = none ∨ f.cacheDir.map Text.trim = some "" then [.missing "cache_dir"]
        else [])
      ++ (if f.includePaths = [] then [.missing "include_paths"] else [])
      ++ blankEntry "include_paths" f.includePaths ++ blankEntry "exclude_paths" f.excludePaths
      ++ blankEntry "patcher_list" (f.patcherList.getD [])
      ++ blankEntry "functions_to_patch" f.functionsToPatch
      ++ (relisted (f.patcherList.getD [])).map .duplicate
      ++ (if f.exitClass.map Text.trim = some "" then [.emptyEntry "exit_exception_classname"]
        else []) := by
  have dir : Text.isBlankText (f.cacheDir.getD "") = true
      ↔ f.cacheDir = none ∨ f.cacheDir.map Text.trim = some "" := by
    cases f.cacheDir with
    | none => simp [Text.isBlankText]
    | some dir => simp [Text.isBlankText_iff]
  have exitClass : f.exitClass.any Text.isBlankText = true
      ↔ f.exitClass.map Text.trim = some "" := by
    cases f.exitClass with
    | none => simp
    | some name => simp [Text.isBlankText_iff]
  have one (field : String) (entries : List String) :
      (if entries.any Text.isBlankText then some (SettingsIssue.emptyEntry field)
        else none).toList = blankEntry field entries := by
    simp only [blankEntry, any_isBlankText_iff]
    split <;> rfl
  rw [issues, List.filterMap_eq_flatMap_toList, repeated_eq_relisted]
  simp only [lists, List.flatMap_cons, List.flatMap_nil, one, dir, exitClass, List.isEmpty_iff,
    List.append_assoc, List.append_nil]

/-- **Nothing is wrong with a list** exactly if no entry is blank. -/
theorem blankEntry_eq_nil_iff {field : String} {entries : List String} :
    blankEntry field entries = [] ↔ ∀ entry ∈ entries, Text.trim entry ≠ "" := by
  rw [blankEntry]
  split
  · rename_i blank
    obtain ⟨entry, mem, eq⟩ := blank
    exact iff_of_false (List.cons_ne_nil _ _) fun worded => worded entry mem eq
  · rename_i worded
    exact iff_of_true rfl fun entry mem eq => worded ⟨entry, mem, eq⟩

/-- **Settings with which nothing is wrong** are those that have no issues. -/
theorem issues_eq_nil_iff {f : SettingsFile} : f.issues = [] ↔ f.Sound := by
  have once : relisted (f.patcherList.getD []) = [] ↔ (f.patcherList.getD []).Nodup := by
    rw [← repeated_eq_relisted, repeated_eq_nil_iff]
    exact and_iff_left fun _ _ => List.not_mem_nil
  rw [issues_eq]
  simp only [List.append_eq_nil_iff, blankEntry_eq_nil_iff, List.map_eq_nil_iff, once,
    ite_eq_right_iff, List.cons_ne_nil, imp_false, not_or]
  constructor
  · rintro ⟨⟨⟨⟨⟨⟨⟨⟨given, worded⟩, included⟩, first⟩, second⟩, third⟩, fourth⟩, once⟩, exitClass⟩
    refine ⟨?_, included, ?_, once, fun name set blank => exitClass ?_⟩
    · obtain ⟨dir, set⟩ := Option.ne_none_iff_exists'.1 given
      exact ⟨dir, set, fun blank => worded (by rw [set, Option.map_some, blank])⟩
    · simp only [List.mem_append, or_imp, forall_and]
      exact ⟨⟨⟨first, second⟩, third⟩, fourth⟩
    · rw [set, Option.map_some, blank]
  · rintro ⟨⟨dir, set, worded⟩, included, entries, once, exitClass⟩
    simp only [List.mem_append, or_imp, forall_and] at entries
    obtain ⟨⟨⟨first, second⟩, third⟩, fourth⟩ := entries
    refine ⟨⟨⟨⟨⟨⟨⟨⟨?_, ?_⟩, included⟩, first⟩, second⟩, third⟩, fourth⟩, once⟩, fun blank => ?_⟩
    · rw [set]
      exact Option.some_ne_none dir
    · rw [set, Option.map_some]
      exact fun blank => worded (Option.some.inj blank)
    · obtain ⟨name, named, eq⟩ := Option.map_eq_some_iff.1 blank
      exact exitClass name named eq

end SettingsFile

/-! ## Resolvers that find fault with their settings -/

namespace Resolver

variable {r : Resolver} {d : Disk}

/-- **A resolver finds fault with its settings** when they are checked, or because its configuration
is locked and the cache lists further names. -/
theorem config_of_activate {cause : ConfigError}
    (failed : (r.activate d).1 = .error (.config cause)) : r.checkConfig = .error cause
      ∨ r.config.isLocked = true ∧ cause = .locked "add to blacklist" := by
  unfold activate at failed
  split at failed
  · rename_i e checked
    cases failed
    exact .inl checked
  simp only at failed
  split at failed
  · cases failed
  split at failed
  · cases failed
  split at failed
  · rename_i e refused
    cases failed
    rw [extendBlacklist_eq] at refused
    split at refused
    · rename_i locked
      cases refused
      exact .inr ⟨locked.1, rfl⟩
    · cases refused
  split at failed <;> cases failed

/-- **Locking a resolver never fails for want of a setting** where the settings that are needed are
given. -/
theorem lock_ne_missingSetting {dir : Path} (given : r.config.cacheDir = some dir)
    (included : r.config.includePaths ≠ []) (setting : String) :
    (r.lock d).1 ≠ .error (.config (.missingSetting setting)) := by
  intro failed
  cases inUse : r.active with
  | some a =>
      rw [lock, activeState, inUse] at failed
      cases failed
  | none =>
      rw [lock_fst inUse] at failed
      have cause : (r.activate d).1 = .error (.config (.missingSetting setting)) := by
        cases eq : (r.activate d).1 with
        | error e =>
            rw [eq] at failed
            cases failed
            rfl
        | ok state =>
            rw [eq] at failed
            cases failed
      rcases config_of_activate cause with checked | ⟨-, absurdity⟩
      · simp only [checkConfig, Configuration.requireCacheDir, given, List.isEmpty_iff, included,
          if_false] at checked
        split at checked <;> cases checked
      · cases absurdity

end Resolver

/-! ## What passes -/

namespace SettingsFile

/-- **What has been checked is kept** when a configuration is made of the settings. -/
theorem Sound.exists_ofFile {f : SettingsFile} (sound : f.Sound) (home : Path)
    (base : Option Path) : ∃ c, Configuration.ofFile home base f = .ok c
      ∧ (∃ dir, c.cacheDir = some dir) ∧ c.includePaths ≠ []
      ∧ c.includePaths.length = f.includePaths.length ∧ c.patcherList.Nodup := by
  obtain ⟨dir, set, -⟩ := sound.cacheDir
  refine ⟨_, Configuration.ofFile_eq home base f, ⟨Configuration.resolvePath home base dir, ?_⟩, ?_,
    ?_, ?_⟩
  · exact Option.map_eq_some_iff.2 ⟨dir, set, rfl⟩
  · exact fun none => sound.included (List.map_eq_nil_iff.1 none)
  · exact List.length_map _
  · -- The list is the one of the file, or the usual one, on which nothing is listed again.
    have once := sound.once
    show (f.patcherList.getD Configuration.initial.patcherList).Nodup
    cases listed : f.patcherList with
    | none =>
        show Configuration.builtIn.Nodup
        decide
    | some names => rwa [listed] at once

/-- **Validation tells all that is wrong, and what passes can be locked.** Of any settings it tells
these issues in this order: that the directory of the cache is absent or blank, that nothing is to
be rewritten, each of the four lists that has a blank entry, each patcher that is listed further in
front as well, as often as that is so, and that the class which signals an exit is blank. There are
none exactly if nothing is wrong with the settings; else the file is refused with all of them. A
configuration that is made of settings that pass has a directory for its cache, as many entries to
rewrite as the file and at least one, and no patcher twice, whatever the home directory and the base
directory are. So a resolver that has it never fails for want of a setting when it is locked. -/
theorem validation_exact (f : SettingsFile) :
    (f.issues = (if f.cacheDir = none ∨ f.cacheDir.map Text.trim = some ""
          then [.missing "cache_dir"] else [])
        ++ (if f.includePaths = [] then [.missing "include_paths"] else [])
        ++ blankEntry "include_paths" f.includePaths ++ blankEntry "exclude_paths" f.excludePaths
        ++ blankEntry "patcher_list" (f.patcherList.getD [])
        ++ blankEntry "functions_to_patch" f.functionsToPatch
        ++ (relisted (f.patcherList.getD [])).map .duplicate
        ++ (if f.exitClass.map Text.trim = some "" then [.emptyEntry "exit_exception_classname"]
          else []))
      ∧ (f.issues = [] ↔ f.Sound)
      ∧ ∀ (home : Path) (base : Option Path),
        (f.issues ≠ [] → ∀ text, ofToml? text = some f →
          Configuration.ofText home base text = .error (.invalid none f.issues))
        ∧ (f.issues = [] → ∃ c, Configuration.ofFile home base f = .ok c
          ∧ (∀ text, ofToml? text = some f → Configuration.ofText home base text = .ok c)
          ∧ (∃ dir, c.cacheDir = some dir) ∧ c.includePaths ≠ []
          ∧ c.includePaths.length = f.includePaths.length ∧ c.patcherList.Nodup
          ∧ ∀ r : Resolver, r.config = c → ∀ (d : Disk) (setting : String),
            (r.lock d).1 ≠ .error (.config (.missingSetting setting))) := by
  refine ⟨f.issues_eq, issues_eq_nil_iff, fun home base => ⟨fun wrong text read => ?_,
    fun passed => ?_⟩⟩
  · rw [Configuration.ofText, read]
    cases issues : f.issues with
    | nil => exact absurd issues wrong
    | cons first rest => simp only [issues]
  · obtain ⟨c, made, ⟨dir, given⟩, included, length, once⟩ :=
      (issues_eq_nil_iff.1 passed).exists_ofFile home base
    refine ⟨c, made, fun text read => ?_, ⟨dir, given⟩, included, length, once,
      fun r config d setting => ?_⟩
    · simp only [Configuration.ofText, read, passed, made]
    · subst config
      exact Resolver.lock_ne_missingSetting given included setting

/-- **Settings with white space at the ends of their paths**, one of which is below the home
directory. -/
def padded : SettingsFile :=
  ⟨some " ~/cache", ["app ", "/s"], [], some ["method", "exit"], ["rand"], none, true⟩

/-- **White space at the ends is nothing wrong**, and two paths to rewrite are two afterwards. -/
theorem validation_exact_padded : padded.issues = [] ∧ ∃ c,
    Configuration.ofFile ⟨"/h"⟩ (some ⟨"/b"⟩) padded = .ok c ∧ c.includePaths.length = 2
      ∧ ∀ d setting, ((Resolver.of c).lock d).1 ≠ .error (.config (.missingSetting setting)) := by
  have passed : padded.issues = [] := by decide +kernel
  obtain ⟨-, -, loaded⟩ := validation_exact padded
  obtain ⟨c, made, -, -, -, length, -, locks⟩ := (loaded ⟨"/h"⟩ (some ⟨"/b"⟩)).2 passed
  exact ⟨passed, c, made, length, locks (Resolver.of c) rfl⟩

/-- **All that is wrong is told at once**: what is missing, what is blank, and a patcher that is
listed three times, twice. -/
example : (⟨none, [], [""], some ["exit", "exit", "", "exit"], [], some " ", false⟩
      : SettingsFile).issues
    = [.missing "cache_dir", .missing "include_paths", .emptyEntry "exclude_paths",
      .emptyEntry "patcher_list", .duplicate "exit", .duplicate "exit",
      .emptyEntry "exit_exception_classname"] := by decide +kernel

end SettingsFile

end Seams
