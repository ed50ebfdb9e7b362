import Mathlib.Tactic.Common
import Seams.Proofs.Folding
import Seams.Proofs.Locking
import Seams.Proofs.Proposals

/-! # The exit signal is not redirected
The function that signals an exit is on the blacklist from the beginning, and no change of a
configuration takes it off, whatever the case of the name and the white space around it. A resolver
that is locked builds the patcher that redirects calls from such a blacklist. So that patcher edits
no token that reads as the signal, whatever is on the whitelist.
Main definitions:
* **`Resolver.Guards`** — the signal is on the blacklist of a resolver, and each patcher in use is a
  registered one or the one that is built from the lists. -/

namespace Seams

/-! ## Names in a set -/

namespace NameSet

variable {s : NameSet} {name x : String}

/-- **A name is in a set up to its case.** -/
theorem contains_iff : s.contains name = true ↔ Text.foldCase name ∈ s.toList := by
  rw [contains, List.contains_iff_mem]

/-- **Inserting a name adds it alone**, unless it is nothing but white space. -/
theorem mem_insert : x ∈ (s.insert name).toList
    ↔ x ∈ s.toList ∨ (x = foldName name ∧ foldName name ≠ "") := by
  rw [insert]
  split
  · rename_i blank
    simp [blank]
  · rename_i worded
    split
    · rename_i there
      constructor
      · exact .inl
      · rintro (mem | ⟨rfl, -⟩)
        · exact mem
        · exact there
    · rw [mem_placeName, or_comm, and_iff_left worded]

/-- **Removing a name removes it alone.** -/
theorem mem_remove : x ∈ (s.remove name).toList ↔ x ∈ s.toList ∧ x ≠ foldName name := by
  rw [remove, List.mem_filter, bne_iff_ne]

/-- **Inserting names adds each of them**, and nothing else. -/
theorem mem_insertAll {names : List String} : x ∈ (s.insertAll names).toList
    ↔ x ∈ s.toList ∨ ∃ name ∈ names, x = foldName name ∧ foldName name ≠ "" := by
  induction names generalizing s with
  | nil => simp [insertAll]
  | cons name names ih =>
      rw [insertAll, List.foldl_cons]
      show x ∈ ((s.insert name).insertAll names).toList ↔ _
      rw [ih, mem_insert, List.exists_mem_cons_iff, or_assoc]

end NameSet

/-! ## Configurations -/

namespace Configuration

variable {c c' : Configuration}

/-- **What a change does if it is allowed.** -/
theorem eq_of_change {operation : String} {f : Configuration → Configuration}
    (h : c.change operation f = .ok c') : c' = f c := by
  unfold change at h
  split at h
  · cases h
  · exact (Except.ok.inj h).symm

/-- **No change takes the exit signal off the blacklist.** -/
theorem Setting.apply_keeps_signal {s : Setting} (h : s.apply c = .ok c')
    (signal : Registry.exitFunction ∈ c.blacklist.toList) :
    Registry.exitFunction ∈ c'.blacklist.toList := by
  cases s with
  | blacklisted name =>
      rw [apply] at h
      rw [eq_of_change h]
      show Registry.exitFunction ∈ (c.blacklist.insert name).toList
      exact NameSet.mem_insert.2 (.inl signal)
  | unblacklisted name =>
      rw [apply, removeBlacklist] at h
      split at h
      · cases h
      split at h
      · cases h
      · rename_i other
        cases h
        exact NameSet.mem_remove.2 ⟨signal, Ne.symm other⟩
  | _ =>
      rw [apply] at h
      rw [eq_of_change h]
      exact signal

/-- **What the settings of a file come to**: what it does not set is as usual. -/
theorem ofFile_eq (home : Path) (base : Option Path) (f : SettingsFile) :
    ofFile home base f = .ok { initial with
      cacheDir := f.cacheDir.map (resolvePath home base)
      includePaths := f.includePaths.map (resolvePath home base)
      excludePaths := f.excludePaths.map (resolvePath home base)
      patcherList := f.patcherList.getD initial.patcherList
      whitelist := initial.whitelist.insertAll f.functionsToPatch
      exitClass := f.exitClass.getD initial.exitClass
      verifyOutput := f.verifyOutput } := by
  have unlocked : initial.isLocked = false := rfl
  unfold ofFile
  simp only [setCacheDir, setIncludePaths, setExcludePaths, setPatcherList, addWhitelist,
    setExitClass, setVerifyOutput, change, unlocked, Bool.false_eq_true, if_false, bind,
    Except.bind]
  cases f.cacheDir <;> cases f.patcherList <;> cases f.exitClass <;> rfl

/-- **The exit signal is on the blacklist from the beginning.** -/
theorem signal_mem_initial : Registry.exitFunction ∈ initial.blacklist.toList := by
  simp only [initial, Redirect.usualBlacklist, NameSet.ofList, NameSet.mem_insertAll]
  exact .inr ⟨"exit__", by decide, by decide +kernel, by decide +kernel⟩

/-- **A settings file leaves the exit signal on the blacklist.** -/
theorem signal_mem_of_ofText {home : Path} {base : Option Path} {text : String}
    (h : ofText home base text = .ok c) : Registry.exitFunction ∈ c.blacklist.toList := by
  unfold ofText at h
  split at h
  · cases h
  · split at h
    · rw [ofFile_eq] at h
      rw [← Except.ok.inj h]
      exact signal_mem_initial
    · cases h

end Configuration

/-! ## Patchers in use -/

namespace Resolver

variable {r r' : Resolver} {d d' : Disk} {a : Active}

/-- **A patcher that is built in has the name that is asked for.** -/
theorem name_of_builtIn? {c : Configuration} {name : String} {p : Patcher}
    (h : builtIn? c name = some p) : p.name = name := by
  unfold builtIn? at h
  split_ifs at h with exits calls methods
  · rw [exits, ← Option.some.inj h]
    rfl
  · rw [calls, ← Option.some.inj h]
    rfl
  · rw [methods, ← Option.some.inj h]
    rfl

/-- **A chosen patcher is registered, or built in under its name.** -/
theorem mem_choose {c : Configuration} {registered : List Patcher} {names : List String}
    {p : Patcher} (mem : p ∈ choose c registered names) :
    p ∈ registered ∨ builtIn? c p.name = some p := by
  induction names generalizing registered with
  | nil => exact absurd mem List.not_mem_nil
  | cons name names ih =>
      rw [choose] at mem
      split at mem
      · rename_i q found
        rcases List.mem_cons.1 mem with rfl | mem
        · exact .inl (List.mem_of_find?_eq_some found)
        · exact (ih mem).imp_left List.mem_of_mem_eraseP
      · split at mem
        · rename_i q built
          rcases List.mem_cons.1 mem with rfl | mem
          · exact .inr (by rw [name_of_builtIn? built, built])
          · exact ih mem
        · exact ih mem

/-- **What locking a resolver does, if it succeeds**: there is a directory for the cache. -/
theorem exists_activates (h : r.activate d = (.ok (a, r'), d')) :
    ∃ root names opened, r.Activates d root names opened a r' d' := by
  cases checked : r.checkConfig with
  | error e =>
      rw [activate, checked] at h
      cases h
  | ok root => exact ⟨root, activates_of_ok (checkConfig_ok checked) h⟩

/-! ## Whatever is asked of a resolver -/

/-- **The exit signal is on the blacklist** of a resolver, and what is in use is made of custom
patchers and those that are built from its lists. -/
structure Guards (custom : Patcher → Prop) (r : Resolver) : Prop where
  /-- The signal is on the blacklist. -/
  signal : Registry.exitFunction ∈ r.config.blacklist.toList
  /-- The resolver is locked once it is in use. -/
  locked : r.LockedInUse
  /-- Before that the registered patchers are custom ones. -/
  registered : r.active = none → ∀ p ∈ r.registered, custom p
  /-- From then on each patcher is a custom one, or the one that is built in under its name. -/
  built : ∀ a, r.active = some a → ∀ p ∈ a.pipeline.patchers,
    custom p ∨ builtIn? r.config p.name = some p

namespace Guards

/-- **A resolver that nobody has used yet is guarded** if the signal is on its blacklist. -/
theorem of_signal {c : Configuration} (custom : Patcher → Prop)
    (signal : Registry.exitFunction ∈ c.blacklist.toList) : (of c).Guards custom where
  signal := signal
  locked := fun isUsed => by cases isUsed
  registered := fun _ _ mem => absurd mem List.not_mem_nil
  built := fun _ here => by cases here

variable {custom : Patcher → Prop}

/-- **A resolver in use stays guarded** as long as only the counts change. -/
theorem of_inUse {b : Active} (h : r.Guards custom) (active : r.active = some b)
    (inUse : r'.InUse b r.config) : r'.Guards custom := by
  obtain ⟨n, active'⟩ := inUse.active
  have isLocked := h.locked (by rw [active]; rfl)
  refine ⟨?_, fun _ => ?_, fun none => ?_, fun a here p mem => ?_⟩
  · rw [inUse.config]
    exact h.signal
  · rw [inUse.config]
    exact isLocked
  · rw [active'] at none
    cases none
  · rw [active'] at here
    cases here
    rw [inUse.config]
    exact h.built b active p mem

/-- **A resolver is guarded when it is taken into use.** -/
theorem of_activate (h : r.Guards custom) (unused : r.active = none)
    (passed : r.activate d = (.ok (a, r'), d')) : r'.Guards custom := by
  obtain ⟨root, names, opened, act⟩ := exists_activates passed
  refine ⟨?_, fun _ => ?_, fun none => ?_, fun b here p mem => ?_⟩
  · rw [act.config]
    exact NameSet.mem_insertAll.2 (.inl h.signal)
  · rw [act.config]
    rfl
  · rw [act.active] at none
    cases none
  · rw [act.active] at here
    cases here
    rw [act.pipeline] at mem
    rw [act.config]
    exact (mem_choose mem).imp_left (h.registered unused p)

/-- **A resolver that is not in use stays guarded** by requests that do not take it into use. -/
theorem serve_unused (h : r.Guards custom) (unused : r.active = none) {request : Request}
    (others : request.uses = false) (allowed : ∀ p, request = .register p → custom p) (d : Disk) :
    (r.serve d request).2.1.Guards custom := by
  have still : (r.serve d request).2.1.active = none := (serve_active others d).trans unused
  -- Only the blacklist and what is registered can have changed.
  have rest (signal : Registry.exitFunction ∈ (r.serve d request).2.1.config.blacklist.toList)
      (registered : ∀ p ∈ (r.serve d request).2.1.registered, custom p) :
      (r.serve d request).2.1.Guards custom :=
    ⟨signal, h.locked.serve d request, fun _ => registered, fun a here => by
      rw [still] at here
      cases here⟩
  cases request with
  | configure s =>
      cases applied : s.apply r.config with
      | error e =>
          simp only [serve, applied]
          exact h
      | ok c =>
          simp only [serve, applied] at rest ⊢
          exact rest (s.apply_keeps_signal applied h.signal) (h.registered unused)
  | freeze => exact rest h.signal (h.registered unused)
  | register p =>
      cases made : r.register p with
      | error e =>
          simp only [serve, made]
          exact h
      | ok r' =>
          simp only [serve, made] at rest ⊢
          unfold register at made
          split at made
          · cases made
          · cases made
            refine rest h.signal fun q mem => ?_
            rcases List.mem_append.1 mem with mem | mem
            · exact h.registered unused q (List.mem_of_mem_filter mem)
            · exact List.mem_singleton.1 mem ▸ allowed p rfl
  | outside d' => exact h
  | lock => cases others
  | resolve p => cases others
  | clear => cases others

/-- **Whatever is asked of a resolver, it stays guarded**, if the patchers that are registered are
custom ones. -/
theorem serve (h : r.Guards custom) {request : Request}
    (allowed : ∀ p, request = .register p → custom p) (d : Disk) :
    (r.serve d request).2.1.Guards custom := by
  -- What is in use stays as it is; else the request takes the resolver into use, or it does not.
  cases active : r.active with
  | some b =>
      have inUse : r.InUse b r.config := ⟨rfl, b.counts, active⟩
      exact h.of_inUse active (inUse.serve (h.locked (by rw [active]; rfl)) d request)
  | none =>
      cases uses : request.uses with
      | false => exact h.serve_unused active uses allowed d
      | true =>
          rcases state : r.activeState d with ⟨e | ⟨a, r'⟩, d'⟩
          · rw [serve_of_failed uses state]
            exact h
          · have passed : r.activate d = (.ok (a, r'), d') := by
              rw [← state, activeState, active]
            obtain ⟨root, names, opened, act⟩ := exists_activates passed
            exact (h.of_activate active passed).of_inUse act.active
              (inUse_of_uses uses h.locked state)

/-- **Whatever is asked of a resolver in a row, it stays guarded.** -/
theorem serveAll (h : r.Guards custom) {requests : List Request}
    (allowed : ∀ p, .register p ∈ requests → custom p) (d : Disk) :
    (r.serveAll d requests).1.Guards custom := by
  induction requests generalizing r d with
  | nil => exact h
  | cons request requests ih =>
      refine ih (h.serve (fun p eq => allowed p (eq ▸ List.mem_cons_self)) d) ?_ _
      exact fun p mem => allowed p (List.mem_cons_of_mem _ mem)

end Guards

end Resolver

/-! ## Calls of the exit signal -/

namespace Redirect

variable {whitelist blacklist : NameSet} {s : Script} {edits edits' : EditSet} {n : Nat}

/-- **A call changes only the edit for its own name**, and only if the name is redirected. -/
theorem get?_collectCall {call : Match}
    (h : collectCall whitelist blacklist s call edits = .ok edits') :
    edits'.get? n = edits.get? n
      ∨ ∃ word, site? s call = some (n, word) ∧ isRedirected whitelist blacklist word = true := by
  rcases collectCall_ok h with ⟨rfl, -⟩ | ⟨⟨m, word⟩, e, here, redirected, position, -, inserted⟩
  · exact .inl rfl
  · rw [(EditSet.get?_insert inserted).2 n]
    by_cases same : e.position = n
    · exact .inr ⟨word, by rw [here, ← same, position], redirected⟩
    · exact .inl (if_neg same)

/-- **Calls change only the edits for their own names**, and only for names that are redirected. -/
theorem get?_collectCalls {calls : List Match}
    (h : collectCalls whitelist blacklist s calls edits = .ok edits') :
    edits'.get? n = edits.get? n ∨ ∃ word, (n, word) ∈ calls.filterMap (site? s)
      ∧ isRedirected whitelist blacklist word = true := by
  induction calls generalizing edits with
  | nil =>
      cases h
      exact .inl rfl
  | cons call rest ih =>
      rw [collectCalls] at h
      split at h
      · cases h
      · rename_i next collected
        -- The edit has come with a later call, or else with this one.
        rcases ih h with same | ⟨word, mem, redirected⟩
        · rw [same]
          rcases get?_collectCall collected with same | ⟨word, here, redirected⟩
          · exact .inl same
          · exact .inr ⟨word, List.mem_filterMap.2 ⟨call, List.mem_cons_self, here⟩, redirected⟩
        · obtain ⟨other, there, here⟩ := List.mem_filterMap.1 mem
          refine .inr ⟨word, List.mem_filterMap.2 ⟨other, ?_, here⟩, redirected⟩
          exact List.mem_cons_of_mem _ there

/-- **No token that reads as a name on the blacklist is edited** by the patcher that redirects
calls, whatever case it is in. -/
theorem get?_calls_of_listed {source : Bytes} (parsed : Script.parse source = .ok s) {name : String}
    (listed : blacklist.contains name = true)
    (collected : (calls whitelist blacklist).collect s edits = .ok edits') {t : Token}
    (there : s.tokens.tokens[n]? = some t)
    (reads : (s.tokens.textOf t).sameIgnoringCase (bytesOf name) = true) :
    edits'.get? n = edits.get? n := by
  rcases get?_collectCalls collected with same | ⟨word, mem, redirected⟩
  · exact same
  · obtain ⟨t', there', text⟩ := text_of_mem_sites parsed mem
    obtain rfl : t' = t := Option.some.inj (there'.symm.trans there)
    rw [text, sameIgnoringCase_bytesOf_iff] at reads
    have kept : isRedirected whitelist blacklist name = false := by
      rw [isRedirected, listed]
      rfl
    rw [isRedirected_congr reads, kept] at redirected
    cases redirected

end Redirect

namespace Resolver

/-- **The exit signal is never redirected.** A configuration is the initial one, or that of a
settings file, and whatever is asked of a resolver with it, successful or not: any changes of the
settings in any order, with names in any case and with any white space around them. Then the signal
is on the blacklist, in whatever case it is looked up. And once the resolver is in use, whatever
names the cache directory lists, a patcher under the name of the one that redirects calls is the
built-in one for the lists of the configuration, unless another one was registered; and over every
source that fits the grammar and whatever was collected before, it leaves the edits for each token
that reads as the signal, in any case, as they are. -/
theorem exit_signal_kept {c : Configuration}
    (reached : c = .initial ∨ ∃ home base text, Configuration.ofText home base text = .ok c)
    {d d' : Disk} {requests : List Request} {r : Resolver}
    (after : (of c).serveAll d requests = (r, d')) :
    (∀ name, Text.foldCase name = Registry.exitFunction →
        r.config.blacklist.contains name = true)
      ∧ ∀ a, r.active = some a → ∀ p ∈ a.pipeline.patchers, p.name = Redirect.callsName →
        .register p ∉ requests →
        p = Redirect.calls r.config.whitelist r.config.blacklist
          ∧ ∀ source s, Script.parse source = .ok s →
            ∀ edits edits', p.collect s edits = .ok edits' →
              ∀ n t, s.tokens.tokens[n]? = some t →
                (s.tokens.textOf t).sameIgnoringCase (bytesOf Registry.exitFunction) = true →
                  edits'.get? n = edits.get? n := by
  have signal : Registry.exitFunction ∈ c.blacklist.toList := by
    rcases reached with rfl | ⟨home, base, text, read⟩
    · exact Configuration.signal_mem_initial
    · exact Configuration.signal_mem_of_ofText read
  have guarded := (Guards.of_signal (fun p => .register p ∈ requests) signal).serveAll
    (fun _ mem => mem) d
  rw [after] at guarded
  have listed : ∀ name, Text.foldCase name = Registry.exitFunction →
      r.config.blacklist.contains name = true := by
    intro name eq
    rw [NameSet.contains_iff, eq]
    exact guarded.signal
  refine ⟨listed, fun a active p mem named unregistered => ?_⟩
  have built : p = Redirect.calls r.config.whitelist r.config.blacklist := by
    have here := (guarded.built a active p mem).resolve_left unregistered
    rw [named] at here
    exact (Option.some.inj here).symm
  refine ⟨built, fun source s parsed edits edits' collected n t there reads => ?_⟩
  rw [built] at collected
  exact Redirect.get?_calls_of_listed parsed (listed _ (by decide +kernel)) collected there reads

/-- **Settings that put the exit signal on the whitelist.** -/
def signalSettings : String :=
  "cache_dir = \"/c\"\ninclude_paths = [\"/s\"]\npatcher_list = [\"function\"]\n"
    ++ "functions_to_patch = [\" EXIT__\"]"

/-- **Whatever is tried**, the signal is not redirected, and other names are. -/
def signalRequests : List Request :=
  [.configure (.unblacklisted "\tExit__ "), .configure (.whitelisted ["exit__"]), .lock]

/-- **A source that signals an exit.** -/
def signalSource : Bytes := bytesOf "<?php EXIT__(); rand();"

/-- **The signal is on both lists**, and of two calls only that of `rand` is redirected. -/
theorem exit_signal_kept_whitelisted :
    ∃ c r d' a p, Configuration.ofText ⟨"/"⟩ none signalSettings = .ok c
      ∧ (of c).serveAll sourceless signalRequests = (r, d')
      ∧ r.active = some a ∧ a.pipeline.patchers = [p]
      ∧ r.config.whitelist.contains "EXIT__" = true ∧ r.config.blacklist.contains "EXIT__" = true
      ∧ ∃ s edits, Script.parse signalSource = .ok s ∧ p.collect s .empty = .ok edits
        ∧ edits.toList.map Edit.position = [7] ∧ edits.get? 2 = none := by
  generalize made : Script.withTree signalSource (Node.ofSource signalSource) = s
  have parsed : Script.parse signalSource = .ok s := by
    rw [← made]
    exact Script.ofTree_of_clean (by decide +kernel)
  -- One evaluation for all that depends on the settings.
  have computed : (Configuration.ofText ⟨"/"⟩ none signalSettings).toOption.map (fun c =>
      let r := ((of c).serveAll sourceless signalRequests).1
      (r.config.whitelist.contains "EXIT__", r.active.map fun a => a.pipeline.names,
        ((Redirect.calls r.config.whitelist r.config.blacklist).collect s .empty).toOption.map
          fun edits => edits.toList.map Edit.position))
      = some (true, some [Redirect.callsName], some [7]) := by
    rw [← made]
    decide +kernel
  have token : (s.tokens.tokens[2]?).map (fun t =>
      (s.tokens.textOf t).sameIgnoringCase (bytesOf Registry.exitFunction)) = some true := by
    rw [← made]
    decide +kernel
  obtain ⟨c, result, eq⟩ := Option.map_eq_some_iff.1 computed
  have read := ok_of_toOption result
  rcases after : (of c).serveAll sourceless signalRequests with ⟨r, d'⟩
  simp only [after, Prod.mk.injEq] at eq
  obtain ⟨whitelisted, names, found⟩ := eq
  obtain ⟨a, active, named⟩ := Option.map_eq_some_iff.1 names
  obtain ⟨p, alone, named⟩ := List.map_eq_singleton_iff.1 named
  obtain ⟨edits, collected, positions⟩ := Option.map_eq_some_iff.1 found
  obtain ⟨t, there, reads⟩ := Option.map_eq_some_iff.1 token
  obtain ⟨listed, kept⟩ := exit_signal_kept (.inr ⟨_, _, _, read⟩) after
  obtain ⟨built, untouched⟩ := kept a active p (alone ▸ List.mem_singleton_self p) named
    (by simp [signalRequests])
  have collected : p.collect s .empty = .ok edits := built ▸ ok_of_toOption collected
  exact ⟨c, r, d', a, p, read, after, active, alone, whitelisted,
    listed "EXIT__" (by decide +kernel), s, edits, parsed, collected, positions,
    untouched _ s parsed _ edits collected 2 t there reads⟩

end Resolver

end Seams
