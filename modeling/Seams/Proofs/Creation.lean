import Mathlib.Data.List.Basic
import Mathlib.Tactic.Common
import Seams.Proofs.Changes

/-! # Directories that are created on the way
A change creates the directories that are missing on the way to its path, and no others. So a place
that no path of a cache leads through never becomes a directory, whatever is done with the cache.
Main definitions:
* **`Disk.OnWay`** — a directory is missing at a place on the way to a path;
* **`Disk.Avoids`** — the path of a cache does not lead through a place. -/

namespace Seams

namespace Path

/-! ## Paths above other paths -/

/-- **Without its last step, a list of pieces is the beginning of it.** -/
theorem withoutLastStep_prefix {pieces kept : List String}
    (h : withoutLastStep pieces = some kept) : kept <+: pieces := by
  unfold withoutLastStep at h
  split at h
  · cases h
  · rename_i last above behind
    obtain rfl := Option.some.inj h
    rw [← List.reverse_suffix, List.reverse_reverse]
    have front : last :: above <:+ pieces.reverse := by
      rw [← behind]
      exact List.dropWhile_suffix _
    exact (List.dropWhile_suffix _).trans ((List.suffix_cons last above).trans front)

/-- **Pieces from the top are steps from there.** -/
theorem steps_top {ss : List String} (free : ∀ s ∈ ss, '/' ∉ s.toList) :
    (⟨"/" ++ "/".intercalate ss⟩ : Path).steps = ss.filterMap stepOf := by
  have slash := pieces_slash "" ("/".intercalate ss)
  rw [String.empty_append] at slash
  rw [← steps_intercalate free, steps, steps, slash, List.filterMap_append]
  rfl

/-- **The path above another one takes the first of its steps**, from where it starts. -/
theorem steps_of_parent {p above : Path} (h : p.parent? = some above) :
    above.isAbsolute = p.isAbsolute ∧ above.steps <+: p.steps := by
  have free {ss : List String} (within : ss ⊆ p.pieces) : ∀ s ∈ ss, '/' ∉ s.toList :=
    fun s hs => slash_notMem_of_mem_pieces (within hs)
  unfold parent? at h
  split at h
  · -- The path starts at the top.
    rename_i rest pieces
    rw [pieces] at free
    obtain ⟨kept, without, rfl⟩ := Option.map_eq_some_iff.1 h
    have within := withoutLastStep_prefix without
    have ne : rest ≠ [] := by
      rintro rfl
      cases without
    refine ⟨?_, ?_⟩
    · rw [isAbsolute_iff.2 ⟨rest, ne, pieces⟩]
      simp [isAbsolute]
    · rw [steps_top (free fun s hs => List.mem_cons_of_mem _ (within.subset hs)), steps, pieces]
      exact within.filterMap stepOf
  · -- The path starts at a dot.
    rename_i rest pieces
    rw [pieces] at free
    rw [isAbsolute_eq_false pieces (by decide)]
    split at h
    · rename_i kept without
      obtain rfl := Option.some.inj h
      have within := withoutLastStep_prefix without
      have free' := free (List.cons_subset_cons _ within.subset)
      refine ⟨isAbsolute_eq_false (pieces_intercalate (List.cons_ne_nil _ _) free') (by decide), ?_⟩
      rw [steps_intercalate free', steps, pieces]
      exact within.filterMap stepOf
    · obtain rfl := Option.some.inj h
      exact ⟨rfl, List.nil_prefix⟩
  · -- The first piece is a step, or the only one.
    rename_i notTop notDot
    obtain ⟨kept, without, rfl⟩ := Option.map_eq_some_iff.1 h
    have within := withoutLastStep_prefix without
    have free' := free within.subset
    refine ⟨?_, ?_⟩
    · obtain ⟨first, rest, pieces⟩ := List.exists_cons_of_ne_nil (pieces_ne_nil p)
      have ne : first ≠ "" := by
        rintro rfl
        exact notTop rest pieces
      rw [isAbsolute_eq_false pieces ne]
      cases kept with
      | nil => rfl
      | cons s ss =>
          rw [pieces] at within
          obtain ⟨rfl, -⟩ := List.cons_prefix_cons.1 within
          exact isAbsolute_eq_false (pieces_intercalate (List.cons_ne_nil _ _) free') ne
    · rw [steps_intercalate free', steps]
      exact within.filterMap stepOf

end Path

namespace Disk

open RewriteCache (Owned)

/-! ## What becomes a directory -/

/-- **Where a way ends without an entry there is a directory on a disk with the same links** on
which it leads to a directory. -/
theorem Leads.directory_of_vacant {d d' : Disk} (links : SameLinks d d') {k k' : Nat}
    {l place m : Location} {steps : List Step} {dir : Bool}
    (h : d.Leads false k l steps dir (.vacant place))
    (h' : d'.Leads true k' l steps true (.present m .directory)) :
    d'.get? place = some .directory := by
  -- Both ways cross the same links, so they part only where the first one ends.
  generalize e : Target.vacant place = found at h
  induction h generalizing k' with
  | here => cases e
  | up way ih =>
      cases h' with
      | up way' => exact ih way' e
  | vacant short none =>
      cases e
      cases h' with
      | enter short' there' way' => exact there'
      | cross short' there' go' ne' way' =>
          rw [(links _ _).2 there'] at none
          cases none
  | enter short there way ih =>
      cases h' with
      | enter short' there' way' => exact ih way' e
      | cross short' there' go' ne' way' =>
          rw [(links _ _).2 there'] at there
          cases there
  | file => cases e
  | link => cases e
  | cross short there go ne way ih =>
      cases h' with
      | enter short' there' way' =>
          rw [(links _ _).1 there] at there'
          cases there'
      | cross short' there' go' ne' way' =>
          rw [(links _ _).1 there] at there'
          cases there'
          rw [Bool.true_or] at way'
          exact ih way' e

/-- **A directory is missing at a place on the way to a path**: one of the paths above it, or the
path itself, leads there when some of the directories have been created. -/
def OnWay (d : Disk) (p : Path) (m : Location) : Prop :=
  ∃ d₁ q, Grows d d₁ ∧ q.isAbsolute = p.isAbsolute ∧ q.steps <+: p.steps
    ∧ d₁.find false q = .ok (.vacant m)

variable {d d' : Disk} {p : Path} {m : Location}

/-- **What is missing later on the way has been missing all along.** -/
theorem OnWay.of_grows (grows : Grows d d') (h : d'.OnWay p m) : d.OnWay p m := by
  obtain ⟨d₁, q, grows', start, within, found⟩ := h
  exact ⟨d₁, q, grows.trans grows', start, within, found⟩

/-- **What is missing on the way to the path above is missing on the way.** -/
theorem OnWay.of_parent {above : Path} (parent : p.parent? = some above) (h : d.OnWay above m) :
    d.OnWay p m := by
  obtain ⟨start, within⟩ := Path.steps_of_parent parent
  obtain ⟨d₁, q, grows, start', within', found⟩ := h
  exact ⟨d₁, q, grows, start'.trans start, within'.trans within, found⟩

/-- **A directory that is created was missing.** -/
theorem makeDirectory_added (h : d.makeDirectory p = .ok d')
    (after : d'.get? m = some .directory) : d.get? m = some .directory ∨ d.OnWay p m := by
  unfold makeDirectory at h
  split at h
  · cases h
  · cases h
  · rename_i place found
    cases h
    by_cases here : m = place
    · rw [here]
      exact .inr ⟨d, p, Grows.refl d, rfl, List.prefix_rfl, found⟩
    · rw [get?_put_of_ne d _ here] at after
      exact .inl after

/-- **The directories that are created are those that were missing on the way.** -/
theorem makeAll_added (n : Nat) (after : (d.makeAll p n).2.get? m = some .directory) :
    d.get? m = some .directory ∨ d.OnWay p m := by
  -- By the number of directories above that are still tried: each is created, if at all, once the
  -- one above it is there.
  induction n generalizing d p with
  | zero => exact .inl after
  | succ n ih =>
      unfold makeAll at after
      split at after
      · exact .inl after
      split at after
      · rename_i made
        exact makeDirectory_added made after
      · split at after
        · exact .inl after
        · rename_i above parent
          have grown := makeAll_grows d above n
          have first : (d.makeAll above n).2.get? m = some .directory →
              d.get? m = some .directory ∨ d.OnWay p m :=
            fun h => (ih h).imp_right (.of_parent parent)
          split at after <;> rename_i made <;> rw [made] at grown first
          · exact first after
          · split at after
            · rename_i made'
              unfold makeIfAbsent at made'
              split at made'
              · rename_i made''
                cases made'
                exact (makeDirectory_added made'' after).elim first fun h => .inr (h.of_grows grown)
              · split at made' <;> cases made'
                exact first after
            · exact first after
      · split at after <;> exact .inl after

/-- **Replacing a file puts it at some place.** -/
theorem replaceFile_put {content : Bytes} (h : d.replaceFile p content = .ok d') :
    ∃ place, d' = d.put place (.file content) := by
  unfold replaceFile at h
  split at h
  · cases h
  · split at h <;> cases h
    exact ⟨_, rfl⟩
  · split at h
    · cases h
    split at h
    · cases h
    split at h <;> cases h
    exact ⟨_, rfl⟩

/-- **The directories that are created when a file is stored are those that were missing on the way
to the path above.** -/
theorem storeFile_added {content : Bytes}
    (after : (d.apply (.storeFile p content)).2.get? m = some .directory) :
    d.get? m = some .directory ∨ ∃ above, p.parent? = some above ∧ d.OnWay above m := by
  simp only [apply] at after
  split at after
  · exact .inl after
  rename_i above parent
  have first : (d.makeAll above (above.text.utf8ByteSize + 2)).2.get? m = some .directory →
      d.get? m = some .directory ∨ ∃ above, p.parent? = some above ∧ d.OnWay above m :=
    fun h => (makeAll_added _ h).imp_right fun way => ⟨above, parent, way⟩
  split at after <;> rename_i made <;> rw [made] at first
  · exact first after
  · split at after
    · rename_i stored
      obtain ⟨place, rfl⟩ := replaceFile_put stored
      by_cases here : m = place
      · subst here
        by_cases top : m = []
        · rw [top, get?_top]
          exact .inl rfl
        · rw [get?_put_self _ _ top] at after
          cases after
      · rw [get?_put_of_ne _ _ here] at after
        exact first after
    · exact first after

/-- **The directories that a change creates are those that were missing on the way.** -/
theorem apply_added {change : Change} (after : (d.apply change).2.get? m = some .directory) :
    d.get? m = some .directory ∨ d.OnWay change.path m := by
  cases change with
  | ensureDirectory p => exact makeAll_added _ after
  | removeTree p =>
      refine .inl ?_
      simp only [apply] at after
      split at after
      · rename_i d' removed
        unfold removeAll at removed
        split at removed <;> cases removed
        rename_i place entry _ found
        by_cases top : m = []
        · rw [top, get?_top]
        · by_cases below : place <+: m
          · rw [get?_cut_below d top below] at after
            cases after
          · rwa [get?_cut_apart d below] at after
      · exact after
      · exact after
  | storeFile p content =>
      refine (storeFile_added after).imp_right fun added => ?_
      obtain ⟨above, parent, way⟩ := added
      exact way.of_parent parent

/-! ## Places that are avoided -/

/-- **The path of a cache does not lead through a place**: on a disk with the same links it leads
somewhere though there is no directory at the place. -/
def Avoids (root : Path) (m : Location) (d : Disk) : Prop :=
  ∃ d₀ l, Steady d d₀ ∧ d₀.LeadsTo root l ∧ d₀.get? m ≠ some .directory

variable {root : Path} {l : Location}

/-- **What a path leads through depends on the links.** -/
theorem Avoids.congr (avoids : d.Avoids root m) (steady : Steady d d') : d'.Avoids root m := by
  obtain ⟨d₀, l, steady₀, there, apart⟩ := avoids
  exact ⟨d₀, l, steady.symm.trans steady₀, there, apart⟩

/-- **A place that the path of a cache does not lead through is on no way to a path below it**,
unless the names behind lead there. -/
theorem Avoids.not_onWay (avoids : d.Avoids root m) (house : d.Houses root l) (plain : d.PlainIn l)
    {ns : List String} (at_ : p.LiesAt root ns) (own : ∀ pre, pre <+: ns → pre ≠ [] → Owned pre)
    (apart : ∀ pre, pre <+: ns → pre ≠ [] → m ≠ l ++ pre) : ¬ d.OnWay p m := by
  rintro ⟨d₁, q, grows, start, within, found⟩
  obtain ⟨d₀, l₀, steady, there, free⟩ := avoids
  have steady₁ := grows.steady.symm.trans steady
  rw [at_.steps] at within
  by_cases above : q.steps <+: root.steps
  · -- The directory would be on the way of the path of the cache itself.
    obtain ⟨rest, steps⟩ := above
    obtain ⟨-, way⟩ := find_eq_ok_iff.1 found
    have start₁ : d₁.start q = d₀.start root := by
      rw [Disk.start, Disk.start, start, at_.start, steady₁.current]
    rw [start₁] at way
    have onward := walk_eq_ok_iff.1 there
    rw [← steps] at onward
    by_cases last : rest = []
    · rw [last, List.append_nil] at onward
      exact free (way.directory_of_vacant steady₁.links onward)
    · obtain ⟨k, m', front, -⟩ := onward.exists_directory last
      exact free (way.directory_of_vacant steady₁.links front)
  · -- It would be below the cache.
    obtain ⟨more, steps⟩ := (List.prefix_or_prefix_of_prefix within
      (List.prefix_append root.steps (ns.map Step.name))).resolve_left above
    rw [← steps, List.prefix_append_right_inj] at within
    obtain ⟨pre, prefixed, rfl⟩ := List.prefix_map_iff.1 within
    have ne : pre ≠ [] := by
      rintro rfl
      rw [List.map_nil, List.append_nil] at steps
      rw [steps] at above
      exact above List.prefix_rfl
    have below := leadsBelow_of_find (grows.steady.houses house) (grows.steady.plainIn plain)
      ⟨start.trans at_.start, steps.symm⟩ (own pre prefixed ne) found
    rcases below.target with ⟨_, eq, -⟩ | ⟨eq, -⟩ <;> cases eq
    exact apart pre prefixed ne rfl

end Disk

end Seams
