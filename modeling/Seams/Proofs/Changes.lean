import Mathlib.Data.List.Basic
import Mathlib.Tactic.Common
import Seams.Proofs.Walks

/-! # What changes do to a disk
A change creates directories on its way, whether it succeeds or not. Besides, it puts one file at
one place or cuts one place off, if it succeeds. Below a directory without links, that place is
told by the names in the path.
Main definitions:
* **`Disk.Grows`** — a disk has got further directories, and nothing else;
* **`Disk.Steady`** — two disks hold the same links and have the same current directory. -/

namespace Seams

namespace Disk

open RewriteCache (Owned)

/-! ## Steady disks -/

/-- **What decides where paths lead is the same on two disks.** -/
structure Steady (d d' : Disk) : Prop where
  /-- Relative paths start at the same place. -/
  current : d'.current = d.current
  /-- The links are the same. -/
  links : SameLinks d d'

namespace Steady

variable {d d' d'' : Disk} {p : Path} {l : Location}

theorem refl (d : Disk) : Steady d d := ⟨rfl, fun _ _ => Iff.rfl⟩

theorem trans (h : Steady d d') (h' : Steady d' d'') : Steady d d'' :=
  ⟨h'.current.trans h.current, fun l t => (h.links l t).trans (h'.links l t)⟩

theorem symm (h : Steady d d') : Steady d' d := ⟨h.current.symm, fun l t => (h.links l t).symm⟩

/-- **On steady disks a path leads to the same place or nowhere.** -/
theorem houses (h : Steady d d') (house : d.Houses p l) : d'.Houses p l :=
  house.congr h.links h.current

/-- **On steady disks there are links in the same directories.** -/
theorem plainIn (h : Steady d d') (plain : d.PlainIn l) : d'.PlainIn l :=
  fun ns t own e => plain ns t own ((h.links _ t).2 e)

/-- **Putting a file or a directory somewhere else than on a link keeps a disk steady.** -/
theorem put {e : Entry} (ne : l ≠ []) (free : ∀ t, d.get? l ≠ some (.link t))
    (new : ∀ t, e ≠ .link t) : Steady d (d.put l e) := by
  refine ⟨rfl, fun m t => ?_⟩
  by_cases hm : m = l
  · subst hm
    rw [get?_put_self d e ne]
    exact ⟨fun h => absurd h (free t), fun h => absurd (Option.some.inj h) (new t)⟩
  · rw [get?_put_of_ne d e hm]

/-- **Cutting a place off keeps a disk steady** if there are no links at it and below it. -/
theorem cut (plain : ∀ ns t, d.get? (l ++ ns) ≠ some (.link t)) : Steady d (d.cut l) := by
  refine ⟨rfl, fun m t => ?_⟩
  by_cases hm : l <+: m
  · obtain ⟨ns, rfl⟩ := hm
    by_cases ne : l ++ ns = []
    · rw [ne, get?_top, get?_top]
    · rw [get?_cut_below d ne (List.prefix_append l ns)]
      exact ⟨fun h => absurd h (plain ns t), fun h => by cases h⟩
  · rw [get?_cut_apart d hm]

end Steady

/-! ## Growing disks -/

/-- **A disk has got further directories**, where there was nothing, and is the same otherwise. -/
structure Grows (d d' : Disk) : Prop where
  /-- Relative paths start at the same place. -/
  current : d'.current = d.current
  /-- What there was is there. -/
  kept : ∀ l e, d.get? l = some e → d'.get? l = some e
  /-- What there is was there, or is a directory. -/
  added : ∀ l e, d'.get? l = some e → d.get? l = some e ∨ e = .directory

namespace Grows

variable {d d' d'' : Disk}

theorem refl (d : Disk) : Grows d d := ⟨rfl, fun _ _ h => h, fun _ _ h => .inl h⟩

theorem trans (h : Grows d d') (h' : Grows d' d'') : Grows d d'' where
  current := h'.current.trans h.current
  kept l e he := h'.kept l e (h.kept l e he)
  added l e he := by
    rcases h'.added l e he with there | new
    · exact h.added l e there
    · exact .inr new

/-- **A growing disk stays steady.** -/
theorem steady (h : Grows d d') : Steady d d' where
  current := h.current
  links l t := ⟨h.kept l _, fun e => (h.added l _ e).resolve_right (by simp)⟩

/-- **A growing disk holds the same files.** -/
theorem file_iff (h : Grows d d') {l : Location} {content : Bytes} :
    d'.get? l = some (.file content) ↔ d.get? l = some (.file content) :=
  ⟨fun e => (h.added l _ e).resolve_right (by simp), h.kept l _⟩

/-- **A directory where there was nothing.** -/
theorem put_directory {l : Location} (free : d.get? l = none) :
    Grows d (d.put l .directory) := by
  have ne : l ≠ [] := by
    rintro rfl
    rw [get?_top] at free
    cases free
  refine ⟨rfl, fun m e he => ?_, fun m e he => ?_⟩
  · rw [get?_put_of_ne d _ ?_, he]
    rintro rfl
    rw [free] at he
    cases he
  · by_cases hm : m = l
    · subst hm
      rw [get?_put_self d _ ne] at he
      exact .inr (Option.some.inj he).symm
    · rw [get?_put_of_ne d _ hm] at he
      exact .inl he

end Grows

/-! ## Creating directories -/

/-- **Where a way ends without an entry there is none.** -/
theorem Leads.get?_of_vacant {d : Disk} {follow : Bool} {k : Nat} {l place : Location}
    {steps : List Step} {dir : Bool} (h : d.Leads follow k l steps dir (.vacant place)) :
    d.get? place = none := by
  generalize e : Target.vacant place = found at h
  induction h with
  | here => cases e
  | up way ih => exact ih e
  | vacant short none =>
      cases e
      exact none
  | enter short there way ih => exact ih e
  | file => cases e
  | link => cases e
  | cross short there go ne way ih => exact ih e

/-- **A directory is created where there was nothing**, and the path leads to it then. -/
theorem makeDirectory_ok {d d' : Disk} {p : Path} (h : d.makeDirectory p = .ok d') :
    Grows d d' ∧ d'.isDirectory p = true := by
  unfold makeDirectory at h
  split at h
  · cases h
  · cases h
  · rename_i place found
    cases h
    obtain ⟨usable, way⟩ := find_eq_ok_iff.1 found
    have free := way.get?_of_vacant
    refine ⟨Grows.put_directory free, ?_⟩
    have found' : (d.put place .directory).find true p = .ok (.present place .directory) :=
      find_eq_ok_iff.2 ⟨usable, way.put_directory free _⟩
    simp [isDirectory, present, found']

theorem makeIfAbsent_ok {d d' : Disk} {p : Path} (h : d.makeIfAbsent p = .ok d') :
    Grows d d' ∧ d'.isDirectory p = true := by
  unfold makeIfAbsent at h
  split at h
  · rename_i made
    cases h
    exact makeDirectory_ok made
  · split at h
    · rename_i there
      cases h
      exact ⟨Grows.refl _, there⟩
    · cases h

/-- **Creating a directory with what is missing above it only adds directories.** -/
theorem makeAll_grows (d : Disk) (p : Path) (n : Nat) : Grows d (d.makeAll p n).2 := by
  induction n generalizing d p with
  | zero => exact Grows.refl d
  | succ n ih =>
      unfold makeAll
      split
      · exact Grows.refl d
      split
      · rename_i made
        exact (makeDirectory_ok made).1
      · split
        · exact Grows.refl d
        · rename_i above _
          have grown := ih d above
          split
          · rename_i made
            rw [made] at grown
            exact grown
          · rename_i made
            rw [made] at grown
            split
            · rename_i made'
              exact grown.trans (makeIfAbsent_ok made').1
            · exact grown
      · split <;> exact Grows.refl d

/-- **Where it succeeds, the path leads to a directory**, unless it is empty. -/
theorem makeAll_ok {d d' : Disk} {p : Path} {n : Nat} (h : d.makeAll p n = (.ok (), d')) :
    p.text = "" ∨ d'.isDirectory p = true := by
  cases n with
  | zero => cases h
  | succ n =>
      unfold makeAll at h
      split at h
      · rename_i empty
        exact .inl (by simpa using empty)
      refine .inr ?_
      split at h
      · rename_i made
        cases h
        exact (makeDirectory_ok made).2
      · split at h
        · cases h
        · split at h
          · cases h
          · split at h
            · rename_i made
              cases h
              exact (makeIfAbsent_ok made).2
            · cases h
      · split at h
        · rename_i there
          cases h
          exact there
        · cases h

/-- **A path below another one that leads to a directory names the place of one.** -/
theorem get?_of_isDirectory {d : Disk} {p root : Path} {l : Location} {ns : List String}
    (house : d.Houses root l) (plain : d.PlainIn l) (at_ : p.LiesAt root ns) (own : Owned ns)
    (h : d.isDirectory p = true) :
    Usable p ∧ d.LeadsTo root l ∧ d.get? (l ++ ns) = some .directory := by
  unfold isDirectory present at h
  split at h
  · rename_i place there
    split at there
    · cases there
    · cases there
    · rename_i found
      cases there
      have below := leadsBelow_of_find house plain at_ own found
      rcases below.target with ⟨_, e, holds⟩ | ⟨e, -⟩ <;> cases e
      exact ⟨below.usable, below.root, holds⟩
  · cases h

/-- **Creating directories only adds directories.** -/
theorem applyAll_grows {changes : List Change}
    (ensure : ∀ change ∈ changes, ∃ p, change = .ensureDirectory p) (d : Disk) :
    Grows d (d.applyAll changes).2 := by
  induction changes generalizing d with
  | nil => exact Grows.refl d
  | cons change changes ih =>
      obtain ⟨p, rfl⟩ := ensure change List.mem_cons_self
      have first := makeAll_grows d p (p.text.utf8ByteSize + 2)
      rcases made : d.makeAll p (p.text.utf8ByteSize + 2) with ⟨result, d'⟩
      rw [made] at first
      rw [applyAll, apply, made]
      cases result with
      | error e => exact first
      | ok u => exact first.trans (ih (fun c h => ensure c (List.mem_cons_of_mem _ h)) d')

/-- **Where creating directories succeeds, they are there afterwards.** -/
theorem directory_of_applyAll {changes : List Change}
    (ensure : ∀ change ∈ changes, ∃ p, change = .ensureDirectory p) {d d' : Disk}
    (h : d.applyAll changes = (.ok (), d')) {p root : Path} {l : Location} {ns : List String}
    (house : d.Houses root l) (plain : d.PlainIn l) (mem : .ensureDirectory p ∈ changes)
    (at_ : p.LiesAt root ns) (own : Owned ns) :
    Usable p ∧ d'.LeadsTo root l ∧ d'.get? (l ++ ns) = some .directory := by
  induction changes generalizing d with
  | nil => cases mem
  | cons change changes ih =>
      have others := fun c hc => ensure c (List.mem_cons_of_mem change hc)
      obtain ⟨q, rfl⟩ := ensure change List.mem_cons_self
      have first := makeAll_grows d q (q.text.utf8ByteSize + 2)
      rw [applyAll, apply] at h
      rcases made : d.makeAll q (q.text.utf8ByteSize + 2) with ⟨result, d₁⟩
      rw [made] at h first
      cases result with
      | error e => cases h
      | ok u =>
          have house := first.steady.houses house
          have plain := first.steady.plainIn plain
          rcases List.mem_cons.1 mem with eq | mem
          · cases eq
            have isThere := (makeAll_ok made).resolve_left (at_.text_ne_empty own.ne_nil)
            obtain ⟨usable, there, holds⟩ := get?_of_isDirectory house plain at_ own isThere
            have grown := applyAll_grows others d₁
            simp only at h
            rw [h] at grown
            have there := there.mono grown.current (fun m => grown.kept m _)
              (fun m t => grown.kept m _)
            exact ⟨usable, there, grown.kept _ _ holds⟩
          · exact ih others h house plain mem

/-- **Where there is a directory already, nothing changes.** -/
theorem makeAll_of_leadsTo {d : Disk} {p : Path} {m : Location} (usable : Usable p)
    (there : d.LeadsTo p m) (n : Nat) : d.makeAll p (n + 1) = (.ok (), d) := by
  have way := walk_eq_ok_iff.1 there
  obtain ⟨place, e, found⟩ := way.unfollowed p.asksForDirectory
  have made : d.makeDirectory p = .error .exists := by
    rw [makeDirectory, find_eq_ok_iff.2 ⟨usable, found⟩]
  have found' : d.find true p = .ok (.present m .directory) :=
    find_eq_ok_iff.2 ⟨usable, way.asking _⟩
  have isThere : d.isDirectory p = true := by simp [isDirectory, present, found']
  unfold makeAll
  rw [made, if_neg (by simpa using usable.ne_empty)]
  simp [isThere]

/-! ## Storing files -/

/-- **Replacing a file below a directory without links puts it at the place that the names in the
path name**, where there is no directory. -/
theorem replaceFile_ok {d d' : Disk} {p root : Path} {l : Location} {ns : List String}
    {content : Bytes} (house : d.Houses root l) (plain : d.PlainIn l) (at_ : p.LiesAt root ns)
    (own : Owned ns) (h : d.replaceFile p content = .ok d') :
    (∃ t, d.LeadsBelow false p root l ns t) ∧ d.get? (l ++ ns) ≠ some .directory
      ∧ d' = d.put (l ++ ns) (.file content) := by
  unfold replaceFile at h
  split at h
  · cases h
  · rename_i place found
    have below := leadsBelow_of_find house plain at_ own found
    rcases below.target with ⟨_, there, -⟩ | ⟨there, free⟩ <;> cases there
    split at h
    · cases h
    · cases h
      exact ⟨⟨_, below⟩, by simp [free], rfl⟩
  · rename_i place entry found
    have below := leadsBelow_of_find house plain at_ own found
    rcases below.target with ⟨_, there, holds⟩ | ⟨there, -⟩ <;> cases there
    split at h
    · cases h
    split at h
    · cases h
    split at h
    · cases h
    · rename_i file
      cases h
      exact ⟨⟨_, below⟩, by simpa [holds] using file, rfl⟩

/-- **What storing a file below a directory without links does.** Directories are created on the
way; if it succeeds, the file is put at the place that the names in the path name. -/
theorem apply_storeFile {d : Disk} {p root : Path} {l : Location} {ns : List String}
    (house : d.Houses root l) (plain : d.PlainIn l) (at_ : p.LiesAt root ns) (own : Owned ns)
    (content : Bytes) :
    ∃ grown, Grows d grown ∧ ((∃ e, d.apply (.storeFile p content) = (.error e, grown))
      ∨ (∃ t, grown.LeadsBelow false p root l ns t)
        ∧ grown.get? (l ++ ns) ≠ some .directory
        ∧ d.apply (.storeFile p content) = (.ok (), grown.put (l ++ ns) (.file content))) := by
  simp only [apply]
  cases above : p.parent? with
  | none => exact ⟨d, Grows.refl d, .inl ⟨_, rfl⟩⟩
  | some q =>
      have grown := makeAll_grows d q (q.text.utf8ByteSize + 2)
      rcases made : d.makeAll q (q.text.utf8ByteSize + 2) with ⟨result, d'⟩
      rw [made] at grown
      refine ⟨d', grown, ?_⟩
      cases result with
      | error e => exact .inl ⟨e, by simp only [made]⟩
      | ok u =>
          cases stored : d'.replaceFile p content with
          | error e => exact .inl ⟨e, by simp only [made, stored]⟩
          | ok d'' =>
              obtain ⟨below, apart, rfl⟩ := replaceFile_ok (grown.steady.houses house)
                (grown.steady.plainIn plain) at_ own stored
              exact .inr ⟨below, apart, by simp only [made, stored]⟩

/-- **A file is stored over another one.** -/
theorem apply_storeFile_over {d : Disk} {p : Path} {n : String} {place : Location} {old : Bytes}
    (ends : p.EndsIn n) (h : d.find false p = .ok (.present place (.file old))) (content : Bytes) :
    d.apply (.storeFile p content) = (.ok (), d.put place (.file content)) := by
  obtain ⟨usable, way⟩ := find_eq_ok_iff.1 h
  obtain ⟨above, parent, is⟩ := ends.exists_parent
  rw [ends.asksForDirectory, is.steps] at way
  obtain ⟨k, m, front, back⟩ := way.exists_directory (List.cons_ne_nil _ _)
  have start : d.start p = d.start above := by rw [Disk.start, Disk.start, is.start]
  rw [start] at front
  -- The directory above is there, so nothing has to be created.
  have made : d.makeAll above (above.text.utf8ByteSize + 2) = (.ok (), d) := by
    by_cases empty : above.text = ""
    · simp [makeAll, empty]
    · obtain ⟨tail, text⟩ := is.text
      exact makeAll_of_leadsTo (usable.of_beginning empty text) (walk_eq_ok_iff.2 front) _
  have last : place.getLast? = some n := by
    cases back with
    | enter short there way => cases way
    | file => simp
    | cross short there go => cases go
  have stored : d.replaceFile p content = .ok (d.put place (.file content)) := by
    rw [replaceFile, h]
    simp [ends.endsInSlash, ends.asksForDirectory, ends.getLast?_steps, last]
  simp only [apply, parent, made, stored]

/-! ## Removing directories -/

/-- **What removing a directory below a directory without links does**: nothing, or what the names
in the path name is cut off. -/
theorem apply_removeTree {d : Disk} {p root : Path} {l : Location} {ns : List String}
    (house : d.Houses root l) (plain : d.PlainIn l) (at_ : p.LiesAt root ns) (own : Owned ns) :
    (d.apply (.removeTree p)).2 = d ∨ d.apply (.removeTree p) = (.ok (), d.cut (l ++ ns)) := by
  simp only [apply]
  split
  · rename_i d' removed
    unfold removeAll at removed
    split at removed
    · cases removed
    · cases removed
    · cases removed
    · rename_i place entry _ found
      have below := leadsBelow_of_find house plain at_ own found
      rcases below.target with ⟨_, there, -⟩ | ⟨there, -⟩ <;> cases there
      cases removed
      exact .inr rfl
  · exact .inl rfl
  · exact .inl rfl

/-! ## Runs of changes -/

/-- **Changes that succeed one after the other**: the first, and then the others. -/
theorem applyAll_cons_ok {d d' : Disk} {change : Change} {changes : List Change}
    (h : d.applyAll (change :: changes) = (.ok (), d')) :
    ∃ m, d.apply change = (.ok (), m) ∧ m.applyAll changes = (.ok (), d') := by
  rw [applyAll] at h
  split at h
  · rename_i m first
    exact ⟨m, first, h⟩
  · cases h

/-- **Changes in two parts**: the second is made if the first succeeds. -/
theorem applyAll_append (d : Disk) (changes others : List Change) :
    d.applyAll (changes ++ others) = match d.applyAll changes with
      | (.ok (), m) => m.applyAll others
      | (.error e, m) => (.error e, m) := by
  induction changes generalizing d with
  | nil => rfl
  | cons change changes ih =>
      rw [List.cons_append, applyAll, applyAll]
      rcases d.apply change with ⟨_ | _, m⟩
      · rfl
      · exact ih m

/-- **Changes that succeed in two parts.** -/
theorem applyAll_append_ok {d d' : Disk} {changes others : List Change}
    (h : d.applyAll (changes ++ others) = (.ok (), d')) :
    ∃ m, d.applyAll changes = (.ok (), m) ∧ m.applyAll others = (.ok (), d') := by
  rw [applyAll_append] at h
  split at h
  · rename_i m first
    exact ⟨m, first, h⟩
  · cases h

/-- **A disk becomes another one by allowed changes**, each of which succeeds or fails. -/
inductive Performs (allowed : Change → Prop) : Disk → Disk → Prop where
  /-- Nothing is changed. -/
  | done (d : Disk) : Performs allowed d d
  /-- A change, and then others. -/
  | step {d d' : Disk} (change : Change) (ok : allowed change)
      (rest : Performs allowed (d.apply change).2 d') : Performs allowed d d'

namespace Performs

variable {allowed allowed' : Change → Prop} {d d' d'' : Disk}

theorem trans (h : Performs allowed d d') (h' : Performs allowed d' d'') :
    Performs allowed d d'' := by
  induction h with
  | done => exact h'
  | step change ok rest ih => exact .step change ok (ih h')

theorem mono (h : Performs allowed d d') (wider : ∀ change, allowed change → allowed' change) :
    Performs allowed' d d' := by
  induction h with
  | done => exact .done _
  | step change ok rest ih => exact .step change (wider change ok) ih

/-- **Changes one after the other**, up to the first that fails. -/
theorem applyAll (d : Disk) {changes : List Change} (ok : ∀ change ∈ changes, allowed change) :
    Performs allowed d (d.applyAll changes).2 := by
  induction changes generalizing d with
  | nil => exact .done d
  | cons change changes ih =>
      rcases done : d.apply change with ⟨result, d'⟩
      have first : (d.apply change).2 = d' := by rw [done]
      refine .step change (ok change List.mem_cons_self) ?_
      rw [first, Disk.applyAll, done]
      cases result with
      | error e => exact .done _
      | ok u => exact ih d' fun change h => ok change (List.mem_cons_of_mem _ h)

end Performs

/-- **Files are left as they are**, but for those at the places that are touched. -/
def Spares (touched : Location → Prop) (d d' : Disk) : Prop :=
  ∀ m content, ¬ touched m → (d'.get? m = some (.file content) ↔ d.get? m = some (.file content))

end Disk

/-- **A change touches only some places** below the place of a path. -/
def Change.Touches (root : Path) (l : Location) (touched : Location → Prop) :
    Change → Prop
  | .ensureDirectory _ => True
  | .removeTree p => ∃ ns, RewriteCache.Owned ns ∧ p.LiesAt root ns ∧ ∀ m, l ++ ns <+: m → touched m
  | .storeFile p _ =>
    ∃ ns, RewriteCache.Owned ns ∧ p.LiesAt root ns ∧ (Disk.Usable p → touched (l ++ ns))

namespace Disk

variable {root : Path} {l : Location} {touched : Location → Prop} {d d' d'' : Disk}

/-- **A change that touches some places touches no more than others that they are among.** -/
theorem touches_mono {touched' : Location → Prop} (wider : ∀ m, touched m → touched' m)
    {change : Change} (h : change.Touches root l touched) : change.Touches root l touched' := by
  cases change with
  | ensureDirectory p => trivial
  | removeTree p =>
      obtain ⟨ns, own, at_, all⟩ := h
      exact ⟨ns, own, at_, fun m below => wider m (all m below)⟩
  | storeFile p content =>
      obtain ⟨ns, own, at_, here⟩ := h
      exact ⟨ns, own, at_, fun usable => wider _ (here usable)⟩

theorem Spares.trans (h : Spares touched d d') (h' : Spares touched d' d'') :
    Spares touched d d'' :=
  fun m content free => (h' m content free).trans (h m content free)

/-- **Files at places that a change does not touch stay**, and so do the links. -/
theorem spares_apply (house : d.Houses root l) (plain : d.PlainIn l) {change : Change}
    (touches : change.Touches root l touched) :
    Steady d (d.apply change).2 ∧ Spares touched d (d.apply change).2 := by
  have of_grows {d d' : Disk} (grows : Grows d d') : Steady d d' ∧ Spares touched d d' :=
    ⟨grows.steady, fun _ _ _ => grows.file_iff⟩
  cases change with
  | ensureDirectory p => exact of_grows (makeAll_grows d p _)
  | removeTree p =>
      obtain ⟨ns, own, at_, all⟩ := touches
      rcases apply_removeTree house plain at_ own with same | removed
      · rw [same]
        exact of_grows (Grows.refl d)
      · rw [removed]
        refine ⟨Steady.cut fun ms t => ?_, fun m content free => ?_⟩
        · rw [List.append_assoc]
          exact plain _ t (own.append ms)
        · rw [get?_cut_apart d fun below => free (all m below)]
  | storeFile p content =>
      obtain ⟨ns, own, at_, here⟩ := touches
      obtain ⟨grown, grows, ⟨e, failed⟩ | ⟨⟨_, below⟩, apart, stored⟩⟩ :=
        apply_storeFile house plain at_ own content
      · rw [failed]
        exact of_grows grows
      · rw [stored]
        obtain ⟨steady, spared⟩ := of_grows grows
        refine ⟨steady.trans (Steady.put (by simp [own.ne_nil]) ?_ (by simp)), spared.trans ?_⟩
        · exact fun t => grows.steady.plainIn plain ns t own
        · intro m content' free
          rw [get?_put_of_ne grown]
          rintro rfl
          exact free (here below.usable)

/-- **Files at places that no change of a run touches stay**, and so do the links. -/
theorem Performs.spares (h : Performs (·.Touches root l touched) d d') (house : d.Houses root l)
    (plain : d.PlainIn l) : Steady d d' ∧ Spares touched d d' := by
  induction h with
  | done d => exact ⟨Steady.refl d, fun _ _ _ => Iff.rfl⟩
  | step change touches rest ih =>
      obtain ⟨steady, spared⟩ := spares_apply house plain touches
      obtain ⟨steady', spared'⟩ := ih (steady.houses house) (steady.plainIn plain)
      exact ⟨steady.trans steady', spared.trans spared'⟩

end Disk

end Seams
