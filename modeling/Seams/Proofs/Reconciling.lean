import Mathlib.Data.List.Basic
import Mathlib.Tactic.Common
import Seams.Proofs.Emptying
import Seams.Proofs.Fitting
import Seams.Proofs.TornWrites

/-! # Making a cache fit, and then fit again
A cache that has been made to fit the values of the axes tells exactly which axes have changed when
it is to fit others, whatever has been kept in it since. If there are none nothing is changed, else
nothing that has been kept is left.
Main definitions:
* **`AxisSnapshot.differing`** — the axes whose values are not the same;
* **`RewriteCache.writeAll`** — a disk after some writes;
* **`RewriteCache.IsFirm`** — the path of a cache does not lead through what is cleared. -/

namespace Seams

open RewriteCache (Owned Write)

/-- **The axes whose values are not the same**, in order. -/
def AxisSnapshot.differing (s s' : AxisSnapshot) : List Axis :=
  Axis.all.filter fun a => s.values a != s'.values a

/-- **A change that stores a file** in a directory of the cache at a path. -/
def Change.Stores (root : Path) (change : Change) : Prop :=
  ∃ p content ns, change = .storeFile p content ∧ Owned ns ∧ p.LiesAt root ns

namespace Disk

variable {root p : Path} {l : Location} {x : String} {d d' : Disk}

/-- **A directory of a cache is removed with all that is below it, and created again**, if the path
of the cache does not lead through it. -/
theorem renewDirectory (usable : Usable p) (there : d.LeadsTo root l)
    (firm : (d.cut (l ++ [x])).LeadsTo root l) (at_ : p.LiesAt root [x])
    (short : x.utf8ByteSize ≤ nameLimit) (holds : d.get? (l ++ [x]) = some .directory) :
    d.applyAll [.removeTree p, .ensureDirectory p]
      = (.ok (), (d.cut (l ++ [x])).put (l ++ [x]) .directory) := by
  have removed := removeTree_directory usable there at_ short holds
  have free : (d.cut (l ++ [x])).get? (l ++ [x]) = none :=
    get?_cut_below d (by simp) List.prefix_rfl
  have found : (d.cut (l ++ [x])).find false p = .ok (.vacant (l ++ [x])) :=
    find_of_names usable firm at_ (List.cons_ne_nil _ _) fun _ => .vacant short free
  have made : (d.cut (l ++ [x])).makeDirectory p
      = .ok ((d.cut (l ++ [x])).put (l ++ [x]) .directory) := by
    rw [makeDirectory, found]
  have created : (d.cut (l ++ [x])).apply (.ensureDirectory p)
      = (.ok (), (d.cut (l ++ [x])).put (l ++ [x]) .directory) := by
    simp only [apply, makeAll, made, beq_iff_eq, if_neg usable.ne_empty]
  simp only [applyAll, removed, created]

/-- **Further directories take nothing away**, whatever is cut off. -/
theorem Grows.kept_cut (grows : Grows d d') {m q : Location} {e : Entry}
    (h : (d.cut q).get? m = some e) : (d'.cut q).get? m = some e := by
  obtain ⟨before, apart⟩ := get?_of_cut h
  by_cases top : m = []
  · rwa [top] at h ⊢
  · rw [get?_cut_apart d' (apart top)]
    exact grows.kept _ _ before

end Disk

namespace RewriteCache

variable {c : RewriteCache} {l : Location} {s s' : AxisSnapshot} {d d' d₁ d₂ d₃ : Disk}
  {axes : List Axis}

/-! ## Writes -/

/-- **A disk after some writes**, each of which may succeed or fail. -/
def writeAll (root : Path) (d : Disk) (writes : List Write) : Disk :=
  writes.foldl (fun d w => ((w.cache root).write d w.source w.content w.rewritten).2) d

/-- **Keeping a rewritten source only stores files.** -/
theorem storeChanges_stores (c : RewriteCache) (source : Path) (content : Fingerprint)
    (rewritten : Bytes) :
    ∀ change ∈ c.storeChanges source content rewritten, change.Stores c.root := by
  intro change mem
  simp only [storeChanges, List.mem_cons, List.not_mem_nil, or_false] at mem
  rcases mem with rfl | rfl
  · exact ⟨_, _, _, rfl, .source _, c.sourcePath_liesAt source⟩
  · exact ⟨_, _, _, rfl, .record _, c.recordPath_liesAt source⟩

/-- **Writes only store files**, and none among the settings. -/
theorem writeAll_performs (root : Path) (l : Location) (writes : List Write) (d : Disk) :
    Disk.Performs (fun change => change.Stores root ∧ change.Touches root l (Disk.KeptAt l [])) d
      (writeAll root d writes) := by
  induction writes generalizing d with
  | nil => exact .done d
  | cons w writes ih =>
      rw [writeAll, List.foldl_cons]
      refine .trans ?_ (ih _)
      rw [write, Disk.InOrder.perform_snd]
      have touches := (w.cache root).storeChanges_touches l w.source w.content w.rewritten []
      exact .applyAll d fun change mem => ⟨(w.cache root).storeChanges_stores _ _ _ change mem,
        touches change mem⟩

/-- **Recording axes only stores files.** -/
theorem recordChanges_stores (s : AxisSnapshot) (axes : List Axis) :
    ∀ change ∈ c.recordChanges s axes, change.Stores c.root := by
  intro change mem
  obtain ⟨a, -, rfl⟩ := List.mem_map.1 mem
  exact ⟨_, _, _, rfl, .axis _, c.axisPath_liesAt a⟩

/-- **What is left to do when the rewritten sources have been removed** brings none of them. -/
theorem clearChanges_tail_touches (c : RewriteCache) (l : Location) :
    ∀ change ∈ c.clearChanges.tail,
      change.Touches c.root l fun q => ¬ l ++ ["src"] <+: q := by
  intro change mem
  simp only [clearChanges, List.tail_cons, List.mem_cons, List.not_mem_nil, or_false] at mem
  rcases mem with rfl | rfl | rfl
  · trivial
  · refine ⟨_, .record _, c.recordDir_liesAt, fun q below within => ?_⟩
    rcases List.prefix_or_prefix_of_prefix below within with apart | apart <;>
      simpa using (List.prefix_append_right_inj l).1 apart
  · trivial

namespace IsOpen

/-- **A cache stays open when a file is stored in it.** -/
theorem apply (isOpen : c.IsOpen l d) {change : Change} (stores : change.Stores c.root) :
    c.IsOpen l (d.apply change).2 := by
  obtain ⟨p, content, ns, rfl, own, at_⟩ := stores
  have steady := Disk.steady_storeFile isOpen.houses isOpen.plain at_ own content
  have kept {m : Location} (there : d.get? m = some .directory) :=
    Disk.kept_storeFile isOpen.houses isOpen.plain at_ own content there fun _ _ => rfl
  exact ⟨steady.houses isOpen.houses, steady.plainIn isOpen.plain,
    isOpen.there.storeFile isOpen.houses isOpen.plain at_ own content, isOpen.sources,
    isOpen.records, kept isOpen.sourceDir, kept isOpen.recordDir⟩

/-- **A cache stays open when files are stored in it.** -/
theorem performs (isOpen : c.IsOpen l d) (run : Disk.Performs (·.Stores c.root) d d') :
    c.IsOpen l d' := by
  induction run with
  | done => exact isOpen
  | step change stores rest ih => exact ih (isOpen.apply stores)

/-- **A cache is open still once it is cleared**, and its directory of rewritten sources holds no
files. -/
theorem cleared (isOpen : c.IsOpen l d) (clears : d.applyAll c.clearChanges = (.ok (), d')) :
    c.IsOpen l d' ∧ d'.BareAt (l ++ ["src"]) := by
  obtain ⟨d₁, first, rest⟩ := Disk.applyAll_cons_ok clears
  -- The rewritten sources are removed, and nothing brings any of them again.
  rw [Disk.removeTree_directory isOpen.sources isOpen.there c.sourceDir_liesAt (by decide)
    isOpen.sourceDir] at first
  obtain rfl : d.cut (l ++ ["src"]) = d₁ := congrArg Prod.snd first
  have steady : Disk.Steady d (d.cut (l ++ ["src"])) := Disk.Steady.cut fun ns t => by
    rw [List.append_assoc]
    exact isOpen.plain _ t (.source ns)
  have house₁ := steady.houses isOpen.houses
  have plain₁ := steady.plainIn isOpen.plain
  have bare : d'.BareAt (l ++ ["src"]) := by
    have run := Disk.Performs.applyAll (d.cut (l ++ ["src"])) (c.clearChanges_tail_touches l)
    rw [clearChanges, List.tail_cons, rest] at run
    exact (Disk.bareAt_cut (by simp) d).performs run house₁ plain₁
  -- Each directory is there again, for its creation has succeeded.
  obtain ⟨d₂, second, rest⟩ := Disk.applyAll_cons_ok rest
  obtain ⟨d₃, third, rest⟩ := Disk.applyAll_cons_ok rest
  obtain ⟨d₄, fourth, rest⟩ := Disk.applyAll_cons_ok rest
  obtain rfl : d₄ = d' := by cases rest; rfl
  obtain ⟨grown, there, src⟩ := Disk.ensureDirectory_ok house₁ plain₁ c.sourceDir_liesAt
    (.source _) second
  have house₂ := grown.steady.houses house₁
  have plain₂ := grown.steady.plainIn plain₁
  have recordDir : d₂.get? (l ++ ["meta"]) = some .directory := by
    refine grown.kept _ _ ?_
    rw [Disk.get?_cut_apart d, isOpen.recordDir]
    exact fun within => by simpa using (List.prefix_append_right_inj l).1 within
  rw [Disk.removeTree_directory isOpen.records there c.recordDir_liesAt (by decide) recordDir]
    at third
  obtain rfl : d₂.cut (l ++ ["meta"]) = d₃ := congrArg Prod.snd third
  have steady₃ : Disk.Steady d₂ (d₂.cut (l ++ ["meta"])) := Disk.Steady.cut fun ns t => by
    rw [List.append_assoc]
    exact plain₂ _ t (.record ns)
  obtain ⟨grown', there', meta_⟩ := Disk.ensureDirectory_ok (steady₃.houses house₂)
    (steady₃.plainIn plain₂) c.recordDir_liesAt (.record _) fourth
  refine ⟨⟨grown'.steady.houses (steady₃.houses house₂),
    grown'.steady.plainIn (steady₃.plainIn plain₂), there', isOpen.sources, isOpen.records,
    grown'.kept _ _ ?_, meta_⟩, bare⟩
  rw [Disk.get?_cut_apart d₂, src]
  exact fun within => by simpa using (List.prefix_append_right_inj l).1 within

/-- **A cache is open still once it is made to fit.** -/
theorem reconciled (isOpen : c.IsOpen l d)
    (fits : d.applyAll (c.reconcileChanges d s) = (.ok (), d')) : c.IsOpen l d' := by
  unfold reconcileChanges at fits
  split at fits
  · cases fits
    exact isOpen
  · obtain ⟨m, clears, recorded⟩ := Disk.applyAll_append_ok fits
    have run := Disk.Performs.applyAll m (c.recordChanges_stores s (c.changedAxes d s))
    rw [recorded] at run
    exact (isOpen.cleared clears).1.performs run

/-- **Nothing that has been kept is left** where a cache has been made to fit and an axis had
changed. -/
theorem reconciled_bare (isOpen : c.IsOpen l d)
    (fits : d.applyAll (c.reconcileChanges d s) = (.ok (), d')) (changed : c.changedAxes d s ≠ []) :
    d'.BareAt (l ++ ["src"]) := by
  unfold reconcileChanges at fits
  split at fits
  · contradiction
  · obtain ⟨m, clears, recorded⟩ := Disk.applyAll_append_ok fits
    obtain ⟨isOpen', bare⟩ := isOpen.cleared clears
    have run : Disk.Performs (·.Touches c.root l fun q => ¬ l ++ ["src"] <+: q) m
        (m.applyAll (c.recordChanges s (c.changedAxes d s))).2 := by
      refine .applyAll m fun change mem => ?_
      obtain ⟨a, -, rfl⟩ := List.mem_map.1 mem
      exact ⟨_, .axis _, c.axisPath_liesAt a, fun _ within => by
        simpa using (List.prefix_append_right_inj l).1 within⟩
    rw [recorded] at run
    exact bare.performs run isOpen'.houses isOpen'.plain

/-- **Nothing is valid and nothing is counted** in a cache that is open and holds no rewritten
source. -/
theorem empty_of_bare (isOpen : c.IsOpen l d) (bare : d.BareAt (l ++ ["src"])) :
    c.count d = 0 ∧ ∀ (generation : UInt64) (source : Path) (content : Fingerprint),
      (⟨c.root, generation⟩ : RewriteCache).hasValid d source content = false := by
  refine ⟨?_, fun generation source content => ?_⟩
  · rw [count, Disk.filesBelow_of_bare isOpen.houses isOpen.plain bare (.source _) false
      c.sourceDir_liesAt]
    rfl
  · rw [← Bool.not_eq_true]
    intro valid
    obtain ⟨-, rewritten, read⟩ := hasValid_iff.1 valid
    have there := Disk.get?_of_read isOpen.houses isOpen.plain
      ((⟨c.root, generation⟩ : RewriteCache).sourcePath_liesAt source) (.source _)
      (read_eq_ok_iff.1 read)
    have below : l ++ ["src"] <+: l ++ "src" :: source.names :=
      (List.prefix_append_right_inj l).2 (by simp)
    cases (bare _ _ below there).1

end IsOpen

/-! ## Caches that can be made to fit -/

/-- **The path of a cache does not lead through what is cleared**: it leads to its place without the
directories of rewritten sources and of records as well. -/
def IsFirm (c : RewriteCache) (l : Location) (d : Disk) : Prop :=
  ((d.cut (l ++ ["src"])).cut (l ++ ["meta"])).LeadsTo c.root l

/-- **A cache that is open can be cleared**, if its path does not lead through what is cleared. -/
theorem IsOpen.clears (isOpen : c.IsOpen l d) (firm : c.IsFirm l d) :
    ∃ d', d.applyAll c.clearChanges = (.ok (), d') := by
  have firm₁ : (d.cut (l ++ ["src"])).LeadsTo c.root l :=
    firm.mono rfl (fun m h => (Disk.get?_of_cut h).1) fun m t h => (Disk.get?_of_cut h).1
  have first := Disk.renewDirectory isOpen.sources isOpen.there firm₁ c.sourceDir_liesAt (by decide)
    isOpen.sourceDir
  -- The directory of records is still there, and the path still leads past it.
  have grows := Disk.Grows.put_directory
    (Disk.get?_cut_below d (m := l ++ ["src"]) (by simp) List.prefix_rfl)
  have there := firm₁.mono grows.current (fun m => grows.kept m _) fun m t => grows.kept m _
  have holds : ((d.cut (l ++ ["src"])).put (l ++ ["src"]) .directory).get? (l ++ ["meta"])
      = some .directory := by
    refine grows.kept _ _ ?_
    rw [Disk.get?_cut_apart d, isOpen.recordDir]
    exact fun within => by simpa using (List.prefix_append_right_inj l).1 within
  have firm₂ : (((d.cut (l ++ ["src"])).put (l ++ ["src"]) .directory).cut
      (l ++ ["meta"])).LeadsTo c.root l :=
    Disk.LeadsTo.mono firm rfl (fun m => grows.kept_cut) fun m t => grows.kept_cut
  have second := Disk.renewDirectory isOpen.records there firm₂ c.recordDir_liesAt (by decide) holds
  have both := Disk.applyAll_append d [.removeTree c.sourceDir, .ensureDirectory c.sourceDir]
    [.removeTree c.recordDir, .ensureDirectory c.recordDir]
  rw [first] at both
  exact ⟨_, both.trans second⟩

/-- **The path of the record of an axis ends in its name.** -/
theorem axisPath_endsIn (c : RewriteCache) (a : Axis) : (c.axisPath a).EndsIn a.fileName :=
  Path.endsIn_child _ (by cases a <;> constructor <;> decide)

/-- **The values of axes can be recorded** over values that are recorded. -/
theorem exists_recorded (house : d.Houses c.root l) (plain : d.PlainIn l)
    (there : d.LeadsTo c.root l) (s : AxisSnapshot) {axes : List Axis}
    (reach : ∀ a ∈ axes, ∃ body, d.InReach c.root l (c.axisPath a) ["conf", a.fileName] body) :
    ∃ d', d.applyAll (c.recordChanges s axes) = (.ok (), d') := by
  induction axes generalizing d with
  | nil => exact ⟨d, rfl⟩
  | cons b axes ih =>
      obtain ⟨old, found⟩ := reach b List.mem_cons_self
      have stored := Disk.apply_storeFile_over (c.axisPath_endsIn b)
        (found.find plain there false) (JsonValue.list ((s.values b).map .text)).toBytes
      have steady := Disk.steady_storeFile house plain (c.axisPath_liesAt b) (.axis _)
        (JsonValue.list ((s.values b).map .text)).toBytes
      have onward := there.storeFile house plain (c.axisPath_liesAt b) (.axis _)
        (JsonValue.list ((s.values b).map .text)).toBytes
      rw [stored] at steady onward
      obtain ⟨d', rest⟩ := ih (steady.houses house) (steady.plainIn plain) onward fun a mem => by
        by_cases same : a = b
        · subst same
          exact ⟨_, (Disk.InReach.of_stored house plain (c.axisPath_liesAt a) (.axis _)
            (axisPath_ends a) stored).1⟩
        · obtain ⟨body, reach⟩ := reach a (List.mem_cons_of_mem _ mem)
          have kept := reach.storeFile house plain (c.axisPath_liesAt b) (.axis _)
            (fun eq => same (Axis.fileName_injective (by simpa using eq)))
            (JsonValue.list ((s.values b).map .text)).toBytes
          rw [stored] at kept
          exact ⟨body, kept⟩
      refine ⟨d', ?_⟩
      rw [recordChanges, List.map_cons, Disk.applyAll, stored]
      exact rest

/-- **A cache that is open and fits some values can be made to fit others**, if its path does not
lead through what is cleared. -/
theorem IsOpen.exists_reconciled (isOpen : c.IsOpen l d) (firm : c.IsFirm l d)
    (tells : ∀ a, c.Tells l s a d) (s' : AxisSnapshot) :
    ∃ d', c.reconcile d s' = (.ok (c.changedAxes d s'), d') := by
  suffices done : ∃ d', d.applyAll (c.reconcileChanges d s') = (.ok (), d') by
    obtain ⟨d', done⟩ := done
    refine ⟨d', ?_⟩
    unfold reconcile perform
    rw [done]
  unfold reconcileChanges
  split
  · exact ⟨d, rfl⟩
  · obtain ⟨m, clears⟩ := isOpen.clears firm
    have isOpen' := (isOpen.cleared clears).1
    have run := Disk.Performs.applyAll d (c.clearChanges_touches l [])
    rw [clears] at run
    have reach (a : Axis) (_ : a ∈ c.changedAxes d s') : ∃ body,
        m.InReach c.root l (c.axisPath a) ["conf", a.fileName] body := by
      obtain ⟨body, reach, -⟩ := (tells a).performs isOpen.houses isOpen.plain run
      exact ⟨body, reach⟩
    obtain ⟨d', recorded⟩ := exists_recorded isOpen'.houses isOpen'.plain isOpen'.there s' reach
    refine ⟨d', ?_⟩
    rw [Disk.applyAll_append, clears]
    exact recorded

/-! ## What has changed -/

/-- **An axis without a record has changed**, and so has one whose record cannot be read. -/
theorem mem_changedAxes_of_untold {a : Axis} (untold : ∀ body, d.read (c.axisPath a) = .ok body →
    (JsonValue.read? body).bind JsonValue.texts? = none) (s : AxisSnapshot) :
    a ∈ c.changedAxes d s := by
  have unrecorded : c.recordedAxis? d a = none := by
    unfold recordedAxis?
    split
    · rename_i body read
      exact untold body read
    · rfl
  exact List.mem_filter.2 ⟨a.mem_all, by simp [unrecorded]⟩

/-- **Where the values of all axes are told, those have changed whose values are not the same.** -/
theorem changedAxes_of_tells (isOpen : c.IsOpen l d) (tells : ∀ a, c.Tells l s a d)
    (s' : AxisSnapshot) : c.changedAxes d s' = s.differing s' := by
  refine List.filter_congr fun a _ => ?_
  obtain ⟨body, reach, told⟩ := tells a
  rw [recordedAxis?, reach.read isOpen.plain isOpen.there]
  simp [told, bne]

/-- **No axis differs from itself.** -/
theorem differing_self (s : AxisSnapshot) : s.differing s = [] :=
  List.filter_eq_nil_iff.2 fun a _ => by simp

/-- **Making a cache fit is exact, and once is enough.** A cache is open and has been made to fit
some values; whatever is kept in it then, the axes that have changed for others are those whose
values are not the same. To make the cache fit tells these axes: it changes nothing if there are
none, else nothing is valid or counted any more, and no axis has changed afterwards. It succeeds if
the path of the cache does not lead through what is cleared. An axis without a record that can be
read has changed in any case. -/
theorem reconcile_exact (s' : AxisSnapshot) (isOpen : c.IsOpen l d)
    (first : c.reconcile d s = (.ok axes, d₁)) (writes : List Write)
    (after : writeAll c.root d₁ writes = d₂) :
    c.changedAxes d₂ s' = s.differing s'
      ∧ (s.differing s' = [] → c.reconcile d₂ s' = (.ok [], d₂))
      ∧ (c.IsFirm l d₂ → ∃ d₃, c.reconcile d₂ s' = (.ok (s.differing s'), d₃))
      ∧ (∀ found d₃, c.reconcile d₂ s' = (.ok found, d₃) →
        found = s.differing s' ∧ c.changedAxes d₃ s' = []
          ∧ (found ≠ [] → c.count d₃ = 0 ∧ ∀ generation source content,
            (⟨c.root, generation⟩ : RewriteCache).hasValid d₃ source content = false))
      ∧ ∀ (d : Disk) (a : Axis), (∀ body, d.read (c.axisPath a) = .ok body →
        (JsonValue.read? body).bind JsonValue.texts? = none) → a ∈ c.changedAxes d s' := by
  obtain ⟨-, fits⟩ := c.reconcile_ok first
  have isOpen₁ := isOpen.reconciled fits
  have run := writeAll_performs c.root l writes d₁
  rw [after] at run
  have isOpen₂ := isOpen₁.performs (run.mono fun _ => And.left)
  have tells (a : Axis) : c.Tells l s a d₂ :=
    (tells_of_reconciled isOpen.houses isOpen.plain fits a).performs isOpen₁.houses isOpen₁.plain
      (run.mono fun _ => And.right)
  have changed := changedAxes_of_tells isOpen₂ tells s'
  refine ⟨changed, fun same => ?_, fun firm => ?_, fun found d₃ second => ?_,
    fun d a untold => mem_changedAxes_of_untold untold s'⟩
  · exact reconcile_of_unchanged (changed.trans same)
  · rw [← changed]
    exact isOpen₂.exists_reconciled firm tells s'
  · obtain ⟨rfl, fits'⟩ := c.reconcile_ok second
    have isOpen₃ := isOpen₂.reconciled fits'
    refine ⟨changed, ?_, fun some => isOpen₃.empty_of_bare (isOpen₂.reconciled_bare fits' some)⟩
    rw [changedAxes_of_tells isOpen₃
      (tells_of_reconciled isOpen₂.houses isOpen₂.plain fits'), differing_self]

/-- **Values with characters that are escaped.** -/
def quotedAxes : AxisSnapshot := ⟨["function"], ["rand", "\"\\\n"], ["/s"], []⟩

/-- **Values of which one is another.** -/
def emojiAxes : AxisSnapshot := { quotedAxes with functionWhitelist := ["rand", "😀"] }

/-- **A cache in `/c`.** -/
def smallCache : RewriteCache := ⟨⟨"/c"⟩, 7⟩

/-- **The disk once that cache is opened.** -/
def smallOpened : Disk := (emptyCache.applyAll smallCache.openChanges).2

/-- **The disk once it has been made to fit the first values, and a source is kept.** -/
def smallWritten : Disk :=
  writeAll ⟨"/c"⟩ (smallCache.reconcile smallOpened quotedAxes).2 [rivals false]

/-- **A source that has been kept is dropped when another function is redirected.** -/
theorem reconcile_exact_emoji :
    smallCache.hasValid smallWritten ⟨"/s/a.php"⟩ ⟨0, 3⟩ = true
      ∧ ∃ d, smallCache.reconcile smallWritten emojiAxes = (.ok [.functionWhitelist], d)
        ∧ smallCache.hasValid d ⟨"/s/a.php"⟩ ⟨0, 3⟩ = false ∧ smallCache.count d = 0
        ∧ smallCache.changedAxes d emojiAxes = [] := by
  obtain ⟨led, opened, fitted, firm, kept⟩ :
      emptyCache.LeadsTo ⟨"/c"⟩ ["c"]
        ∧ (emptyCache.applyAll smallCache.openChanges).1.toOption = some ()
        ∧ (smallCache.reconcile smallOpened quotedAxes).1.toOption = some Axis.all
        ∧ smallCache.IsFirm ["c"] smallWritten
        ∧ smallCache.hasValid smallWritten ⟨"/s/a.php"⟩ ⟨0, 3⟩ = true := by
    unfold IsFirm
    decide +kernel
  have isOpen : smallCache.IsOpen ["c"] smallOpened :=
    isOpen_of_opened (led.houses (fun _ _ => Iff.rfl) rfl)
      (Disk.plainIn_of_entries (by simp [emptyCache]) _) (eq_of_toOption opened)
  have first : smallCache.reconcile smallOpened quotedAxes
      = (.ok Axis.all, (smallCache.reconcile smallOpened quotedAxes).2) :=
    eq_of_toOption fitted
  have differing : quotedAxes.differing emojiAxes = [.functionWhitelist] := by decide
  obtain ⟨-, -, succeeds, told, -⟩ := reconcile_exact emojiAxes isOpen first [rivals false]
    (Eq.refl smallWritten)
  obtain ⟨d, second⟩ := succeeds firm
  obtain ⟨-, unchanged, dropped⟩ := told _ _ second
  rw [differing] at second dropped
  obtain ⟨none, invalid⟩ := dropped (by decide)
  exact ⟨kept, d, second, invalid _ _ _, none, unchanged⟩

/-- **No values at all.** -/
def noAxes : AxisSnapshot := ⟨[], [], [], []⟩

/-- **The values where one function is redirected.** -/
def randAxes : AxisSnapshot := { noAxes with functionWhitelist := ["rand"] }

/-- **A cache that keeps the records of axes among the rewritten sources**, over a link. -/
def linkedOpened : Disk :=
  ⟨[(["c", "meta"], .directory), (["c", "src"], .directory), (["c"], .directory),
    (["c", "conf"], .link ⟨"src"⟩)], []⟩

/-- **The disk once it has been made to fit.** -/
def linkedFitted : Disk := (smallCache.reconcile linkedOpened noAxes).2

/-- **The disk once it has been made to fit again.** -/
def linkedAgain : Disk := (smallCache.reconcile linkedFitted randAxes).2

/-- **A cache with records of axes without values**, and a link to a directory in which rewritten
sources are kept. -/
def windingOpened : Disk :=
  ⟨(["k"], .link ⟨"/c/src/x"⟩) :: (["c"], .directory) :: (["c", "src"], .directory)
    :: (["c", "src", "x"], .directory) :: (["c", "meta"], .directory) :: (["c", "conf"], .directory)
    :: Axis.all.map fun a => (["c", "conf", a.fileName], .file (bytesOf "[]")), []⟩

/-- **That cache, by a path that leads through the directory.** -/
def windingCache : RewriteCache := ⟨⟨"/k/../.."⟩, 7⟩

/-- **Where links lead into what is cleared, making a cache fit is not exact.** Over a link, the
values that have been recorded are dropped when the cache is cleared. And where the path of the
cache leads through what is cleared, an axis has changed, yet the cache cannot be made to fit. -/
theorem reconcile_linked :
    ((create linkedOpened ⟨"/c"⟩ 7).1.toOption = some smallCache
      ∧ smallCache.reconcile linkedOpened noAxes = (.ok Axis.all, linkedFitted)
      ∧ smallCache.reconcile linkedFitted randAxes = (.ok [.functionWhitelist], linkedAgain)
      ∧ smallCache.changedAxes linkedAgain randAxes = [.patcherList, .includePaths, .excludePaths])
    ∧ (create windingOpened ⟨"/k/../.."⟩ 7).1.toOption = some windingCache
      ∧ windingCache.reconcile windingOpened noAxes = (.ok [], windingOpened)
      ∧ windingCache.changedAxes windingOpened randAxes = [.functionWhitelist]
      ∧ (windingCache.reconcile windingOpened randAxes).1.toOption = none := by
  obtain ⟨opened, fitted, again, changed⟩ :
      (create linkedOpened ⟨"/c"⟩ 7).1.toOption = some smallCache
        ∧ (smallCache.reconcile linkedOpened noAxes).1.toOption = some Axis.all
        ∧ (smallCache.reconcile linkedFitted randAxes).1.toOption = some [.functionWhitelist]
        ∧ smallCache.changedAxes linkedAgain randAxes
          = [.patcherList, .includePaths, .excludePaths] := by
    decide +kernel
  obtain ⟨opened', unchanged, differs, fails⟩ :
      (create windingOpened ⟨"/k/../.."⟩ 7).1.toOption = some windingCache
        ∧ windingCache.changedAxes windingOpened noAxes = []
        ∧ windingCache.changedAxes windingOpened randAxes = [.functionWhitelist]
        ∧ (windingCache.reconcile windingOpened randAxes).1.toOption = none := by
    decide +kernel
  exact ⟨⟨opened, eq_of_toOption fitted, eq_of_toOption again, changed⟩, opened',
    reconcile_of_unchanged unchanged, differs, fails⟩

end RewriteCache

end Seams
