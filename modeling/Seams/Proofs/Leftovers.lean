import Mathlib.Data.List.Basic
import Mathlib.Tactic.Common
import Seams.Proofs.Reuse
import Seams.Proofs.Room

/-! # What is left in a cache
What has been kept for a source stays in the cache when the source is gone, and what is kept for a
file stands in the way of what is to be kept below a directory of the same name, as a directory does
the other way round. Nothing else that has been left keeps a file from being loaded.
Main definitions:
* **`Disk.Traces`** — all that is in a cache has been kept for sources that were read;
* **`Disk.Blocks`** — what has been left stands in the way of a source;
* **`World.placesRead`** — the places of the files that are read in a run;
* **`World.UndisturbedAt`** — a run in which nothing but the sources is changed from outside. -/

namespace Seams

open RewriteCache (Owned recordNames)

/-- **No name on the way to a place ends like that of a record.** -/
def Location.Ordinary (place : Location) : Prop := ∀ n ∈ place, ¬ ".json".toList <:+ n.toList

instance (place : Location) : Decidable place.Ordinary :=
  inferInstanceAs (Decidable (∀ n ∈ place, ¬ ".json".toList <:+ n.toList))

/-- **No record is on the way to a source** whose names do not end like that of a record. -/
theorem Location.Ordinary.no_record_above {place : Location} (ordinary : place.Ordinary)
    (q : Location) : ¬ recordNames q <+: place.dropLast := by
  intro within
  have last : q.getLast?.getD "" ++ ".json" ∈ recordNames q :=
    List.mem_append_right _ (List.mem_singleton_self _)
  refine ordinary _ ((within.trans (List.dropLast_prefix _)).subset last) ?_
  rw [String.toList_append]
  exact List.suffix_append _ _

/-! ## What is kept for sources -/

/-- **Names lead to what is kept for one of some sources.** -/
inductive KeptFor (seen : List Location) : List String → Prop where
  /-- To the rewritten source. -/
  | source {place : Location} (mem : place ∈ seen) : KeptFor seen ("src" :: place)
  /-- To its record. -/
  | record {place : Location} (mem : place ∈ seen) : KeptFor seen ("meta" :: recordNames place)

/-- **What is kept for some sources is kept for more of them.** -/
theorem KeptFor.mono {seen seen' : List Location} {ns : List String} (h : KeptFor seen ns)
    (more : seen ⊆ seen') : KeptFor seen' ns := by
  cases h with
  | source mem => exact .source (more mem)
  | record mem => exact .record (more mem)

/-- **A rewritten source is kept for the source of its names.** -/
theorem KeptFor.mem {seen : List Location} {place : Location} (h : KeptFor seen ("src" :: place)) :
    place ∈ seen := by
  generalize e : "src" :: place = ns at h
  cases h with
  | source mem => rwa [(List.cons.inj e).2]
  | record mem => exact absurd (List.cons.inj e).1 (by decide)

/-- **A record is kept for a source.** -/
theorem KeptFor.exists_mem {seen : List Location} {ns : List String}
    (h : KeptFor seen ("meta" :: ns)) : ∃ place ∈ seen, ns = recordNames place := by
  generalize e : "meta" :: ns = names at h
  cases h with
  | source mem => exact absurd (List.cons.inj e).1 (by decide)
  | record mem => exact ⟨_, mem, (List.cons.inj e).2⟩

/-- **A change brings nothing but what is kept for some sources**, and the settings. -/
def Change.KeepsFor (root : Path) (seen : List Location) : Change → Prop
  | .ensureDirectory p => ∃ ns, p.LiesAt root ns ∧ (ns = [] ∨ ∃ x, Owned [x] ∧ ns = [x])
  | .removeTree p => ∃ ns, Owned ns ∧ p.LiesAt root ns
  | .storeFile p _ => ∃ n ns, p.EndsIn n ∧ p.LiesAt root ns ∧ Owned ns
    ∧ ((∃ rest, ns = "conf" :: rest) ∨ KeptFor seen ns)

namespace RewriteCache

variable {c : RewriteCache} {seen : List Location}

/-- **Opening a cache creates its directories.** -/
theorem openChanges_keepsFor : ∀ change ∈ c.openChanges, change.KeepsFor c.root seen := by
  intro change mem
  simp only [openChanges, List.mem_cons, List.not_mem_nil, or_false] at mem
  rcases mem with rfl | rfl | rfl | rfl
  · exact ⟨[], .self _, .inl rfl⟩
  · exact ⟨_, c.sourceDir_liesAt, .inr ⟨_, .source _, rfl⟩⟩
  · exact ⟨_, c.recordDir_liesAt, .inr ⟨_, .record _, rfl⟩⟩
  · exact ⟨_, c.axisDir_liesAt, .inr ⟨_, .axis _, rfl⟩⟩

/-- **Making a cache fit removes what is kept**, and brings settings. -/
theorem reconcileChanges_keepsFor (d : Disk) (s : AxisSnapshot) :
    ∀ change ∈ c.reconcileChanges d s, change.KeepsFor c.root seen := by
  intro change mem
  unfold reconcileChanges at mem
  split at mem
  · cases mem
  rcases List.mem_append.1 mem with mem | mem
  · simp only [clearChanges, List.mem_cons, List.not_mem_nil, or_false] at mem
    rcases mem with rfl | rfl | rfl | rfl
    · exact ⟨_, .source _, c.sourceDir_liesAt⟩
    · exact ⟨_, c.sourceDir_liesAt, .inr ⟨_, .source _, rfl⟩⟩
    · exact ⟨_, .record _, c.recordDir_liesAt⟩
    · exact ⟨_, c.recordDir_liesAt, .inr ⟨_, .record _, rfl⟩⟩
  · obtain ⟨a, -, rfl⟩ := List.mem_map.1 mem
    exact ⟨_, _, axisPath_endsIn c a, c.axisPath_liesAt a, .axis _, .inl ⟨_, rfl⟩⟩

/-- **Keeping a rewritten source brings what is kept for it.** -/
theorem storeChanges_keepsFor {place : Location} (names : ∀ n ∈ place, Path.IsName n)
    (ne : place ≠ []) (mem : place ∈ seen) (content : Fingerprint) (rewritten : Bytes) :
    ∀ change ∈ c.storeChanges place.path content rewritten, change.KeepsFor c.root seen := by
  intro change stored
  have at_source := c.sourcePath_liesAt place.path
  have at_record := c.recordPath_liesAt place.path
  obtain ⟨n, ends⟩ := c.exists_sourcePath_endsIn place.path (by rwa [Disk.names_path names])
  obtain ⟨n', ends'⟩ := c.exists_recordPath_endsIn place.path
  rw [Disk.names_path names] at at_source at_record
  simp only [storeChanges, List.mem_cons, List.not_mem_nil, or_false] at stored
  rcases stored with rfl | rfl
  · exact ⟨n, _, ends, at_source, .source _, .inr (.source mem)⟩
  · exact ⟨n', _, ends', at_record, .record _, .inr (.record mem)⟩

end RewriteCache

/-! ## Traces of sources -/

namespace Disk

variable {root p : Path} {l place : Location} {seen seen' : List Location} {d d' : Disk}

/-- **The path of a cache does not lead through what is in it.** -/
def Straight (root : Path) (l : Location) (d : Disk) : Prop :=
  ∀ x y rest, x = "src" ∨ x = "meta" → d.Avoids root (l ++ x :: y :: rest)

/-- **All that is in a cache has been kept for sources** that were read: the files are those that
are kept for them, and the directories are on their way. -/
structure Traces (root : Path) (l : Location) (seen : List Location) (d : Disk) : Prop where
  /-- The path of the cache leads to one place. -/
  houses : d.Houses root l
  /-- There are no links in the directories. -/
  plain : d.PlainIn l
  /-- The path does not lead through what is in them. -/
  straight : d.Straight root l
  /-- The files are kept for the sources. -/
  file : ∀ x rest content, x = "src" ∨ x = "meta" →
    d.get? (l ++ x :: rest) = some (.file content) → KeptFor seen (x :: rest)
  /-- The directories are on their way. -/
  directory : ∀ x y rest, x = "src" ∨ x = "meta" →
    d.get? (l ++ x :: y :: rest) = some .directory →
      ∃ ns, KeptFor seen ns ∧ x :: y :: rest <+: ns.dropLast

/-- **Names that lead to rewritten sources or to records lead into a directory of the cache.** -/
theorem owned_of_kind {x : String} (kind : x = "src" ∨ x = "meta") (rest : List String) :
    Owned (x :: rest) := by
  rcases kind with rfl | rfl
  · exact .source rest
  · exact .record rest

namespace Traces

/-- **Where nothing is in a cache, there are no traces.** -/
theorem of_absent (house : d.Houses root l) (straight : d.Straight root l)
    (absent : ∀ ns, Owned ns → d.get? (l ++ ns) = none) : d.Traces root l [] where
  houses := house
  plain ns t own there := by
    rw [absent ns own] at there
    cases there
  straight := straight
  file x rest content kind there := by
    rw [absent _ (owned_of_kind kind rest)] at there
    cases there
  directory x y rest kind there := by
    rw [absent _ (owned_of_kind kind _)] at there
    cases there

/-- **Traces of some sources are traces of more of them.** -/
theorem mono (traces : d.Traces root l seen) (more : seen ⊆ seen') : d.Traces root l seen' where
  houses := traces.houses
  plain := traces.plain
  straight := traces.straight
  file x rest content kind there := (traces.file x rest content kind there).mono more
  directory x y rest kind there := by
    obtain ⟨ns, kept, within⟩ := traces.directory x y rest kind there
    exact ⟨ns, kept.mono more, within⟩

/-- **The traces stay** as long as the directories of the cache hold the same. -/
theorem of_same (traces : d.Traces root l seen) (house : d'.Houses root l)
    (straight : d'.Straight root l)
    (same : ∀ ns, Owned ns → d'.get? (l ++ ns) = d.get? (l ++ ns)) : d'.Traces root l seen where
  houses := house
  plain := traces.plain.of_same same
  straight := straight
  file x rest content kind there := by
    rw [same _ (owned_of_kind kind rest)] at there
    exact traces.file x rest content kind there
  directory x y rest kind there := by
    rw [same _ (owned_of_kind kind _)] at there
    exact traces.directory x y rest kind there

/-- **What is on the way to a path in a cache is named by its first names.** -/
theorem prefix_of_onWay (traces : d.Traces root l seen) {x y : String} {ns rest : List String}
    (kind : x = "src" ∨ x = "meta") (at_ : p.LiesAt root ns)
    (own : ∀ pre, pre <+: ns → pre ≠ [] → Owned pre) (way : d.OnWay p (l ++ x :: y :: rest)) :
    x :: y :: rest <+: ns := by
  obtain ⟨pre, -, within, here⟩ :=
    way.below (traces.straight x y rest kind) traces.houses traces.plain at_ own
  rwa [List.append_cancel_left here]

/-- **A steady disk has traces only of the sources if its files and directories are such.** -/
theorem of_steady (traces : d.Traces root l seen) (steady : Steady d d')
    (file : ∀ x rest content, x = "src" ∨ x = "meta" →
      d'.get? (l ++ x :: rest) = some (.file content) → KeptFor seen (x :: rest))
    (directory : ∀ x y rest, x = "src" ∨ x = "meta" →
      d'.get? (l ++ x :: y :: rest) = some .directory →
        ∃ ns, KeptFor seen ns ∧ x :: y :: rest <+: ns.dropLast) : d'.Traces root l seen :=
  ⟨steady.houses traces.houses, steady.plainIn traces.plain,
    fun x y rest kind => (traces.straight x y rest kind).congr steady, file, directory⟩

/-- **A file that is stored for a source, or for a setting, leaves traces only of the sources.** -/
theorem storeFile (traces : d.Traces root l seen) {n : String} {ns : List String}
    (ends : p.EndsIn n) (at_ : p.LiesAt root ns) (own : Owned ns)
    (brings : (∃ rest, ns = "conf" :: rest) ∨ KeptFor seen ns) (content : Bytes) :
    (d.apply (.storeFile p content)).2.Traces root l seen := by
  have kept_of {x : String} {rest : List String} (kind : x = "src" ∨ x = "meta")
      (within : x :: rest <+: ns) : KeptFor seen ns := by
    refine brings.resolve_left ?_
    rintro ⟨others, rfl⟩
    obtain ⟨rfl, -⟩ := List.cons_prefix_cons.1 within
    rcases kind with kind | kind <;> simp at kind
  refine traces.of_steady (steady_storeFile traces.houses traces.plain at_ own content)
    (fun x rest other kind there => ?_) fun x y rest kind there => ?_
  · obtain ⟨grown, grows, ⟨_, failed⟩ | ⟨-, -, stored⟩⟩ :=
      apply_storeFile traces.houses traces.plain at_ own content
    · rw [failed] at there
      exact traces.file x rest other kind (grows.file_iff.1 there)
    · rw [stored] at there
      by_cases here : x :: rest = ns
      · rw [here]
        exact kept_of kind ⟨[], by rw [List.append_nil, here]⟩
      · rw [get?_put_of_ne _ _ fun e => here (List.append_cancel_left e)] at there
        exact traces.file x rest other kind (grows.file_iff.1 there)
  · -- Directories are created on the way to the path above only, which has all names but the last.
    rcases storeFile_added there with before | ⟨above, parent, way⟩
    · exact traces.directory x y rest kind before
    · obtain ⟨above', parent', is⟩ := ends.exists_parent
      obtain rfl := Option.some.inj (parent.symm.trans parent')
      rw [← List.dropLast_append_getLast own.ne_nil] at at_
      obtain ⟨-, at_above, -⟩ := at_.above is
      have within := traces.prefix_of_onWay kind at_above
        (fun pre le ne => own.of_le ne (le.trans (List.dropLast_prefix ns))) way
      exact ⟨ns, kept_of kind (within.trans (List.dropLast_prefix ns)), within⟩

/-- **A change that brings nothing else leaves traces only of the sources.** -/
theorem apply (traces : d.Traces root l seen) {change : Change}
    (keeps : change.KeepsFor root seen) : (d.apply change).2.Traces root l seen := by
  cases change with
  | ensureDirectory p =>
      obtain ⟨ns, at_, short⟩ := keeps
      have grown := makeAll_grows d p (p.text.utf8ByteSize + 2)
      refine traces.of_steady grown.steady (fun x rest content kind there =>
        traces.file x rest content kind (grown.file_iff.1 there)) fun x y rest kind there => ?_
      rcases makeAll_added _ there with before | way
      · exact traces.directory x y rest kind before
      · -- At most one name leads to the path, and two would lead to what has been created.
        have within := traces.prefix_of_onWay kind at_ (fun pre le ne => ?_) way
        · rcases short with rfl | ⟨z, -, rfl⟩ <;> simpa using within.length_le
        · rcases short with rfl | ⟨z, own, rfl⟩
          · exact absurd (List.prefix_nil.1 le) ne
          · exact own.of_le ne le
  | removeTree p =>
      obtain ⟨ns, own, at_⟩ := keeps
      rcases apply_removeTree traces.houses traces.plain at_ own with same | removed
      · rwa [same]
      rw [removed]
      refine traces.of_steady (Steady.cut fun ms t => ?_)
        (fun x rest content kind there => traces.file x rest content kind (get?_of_cut there).1)
        fun x y rest kind there => traces.directory x y rest kind (get?_of_cut there).1
      rw [List.append_assoc]
      exact traces.plain _ t (own.append ms)
  | storeFile p content =>
      obtain ⟨n, ns, ends, at_, own, brings⟩ := keeps
      exact traces.storeFile ends at_ own brings content

/-- **Changes that bring nothing else leave traces only of the sources.** -/
theorem performs (traces : d.Traces root l seen) (run : Performs (·.KeepsFor root seen) d d') :
    d'.Traces root l seen := by
  induction run with
  | done => exact traces
  | step change keeps rest ih => exact ih (traces.apply keeps)

end Traces

/-! ## What has been left in the way -/

/-- **What has been left in a cache stands in the way of a source**: a file where a directory is
needed, or a directory where the rewritten source is to be. -/
def Blocks (d : Disk) (l place : Location) : Prop :=
  (∃ q content, q ≠ [] ∧ q <+: place.dropLast ∧ d.get? (l ++ "src" :: q) = some (.file content))
    ∨ d.get? (l ++ "src" :: place) = some .directory

namespace Traces

/-- **There is room for a record**, as long as the names of the records are not among those of the
sources. -/
theorem recordRoom (traces : d.Traces root l seen) (plainNames : ∀ q ∈ seen, q.Ordinary)
    (plainName : place.Ordinary) (short : ∀ n ∈ recordNames place, n.utf8ByteSize ≤ nameLimit) :
    d.HasRoom l ("meta" :: recordNames place) := by
  have ne := RewriteCache.recordNames_ne_nil
  refine ⟨List.forall_mem_cons.2 ⟨by decide, short⟩, fun pre content some_name within there => ?_,
    fun there => ?_⟩
  · -- The file would be a record on the way to this one.
    obtain ⟨x, ns, rfl⟩ := List.exists_cons_of_ne_nil some_name
    rw [List.dropLast_cons_of_ne_nil (ne place)] at within
    obtain ⟨rfl, within'⟩ := List.cons_prefix_cons.1 within
    obtain ⟨q, -, rfl⟩ := (traces.file "meta" ns content (.inr rfl) there).exists_mem
    rw [RewriteCache.dropLast_recordNames] at within'
    exact plainName.no_record_above q within'
  · -- The directory would be on the way to the record of a source.
    obtain ⟨y, rest, eq⟩ := List.exists_cons_of_ne_nil (ne place)
    rw [eq] at there
    obtain ⟨ns, kept, within⟩ := traces.directory "meta" y rest (.inr rfl) there
    rw [← eq] at within
    cases kept with
    | @source q _ =>
        have first := within.trans (List.dropLast_prefix _)
        exact absurd (List.cons_prefix_cons.1 first).1 (by decide)
    | @record q mem =>
        rw [List.dropLast_cons_of_ne_nil (ne q), List.cons_prefix_cons,
          RewriteCache.dropLast_recordNames] at within
        exact (plainNames q mem).no_record_above place within.2

end Traces

/-- **There is room for a rewritten source exactly if its names are not too long and nothing stands
in its way.** -/
theorem sourceRoom_iff (sourceDir : d.get? (l ++ ["src"]) = some .directory) (ne : place ≠ []) :
    d.HasRoom l ("src" :: place)
      ↔ (∀ n ∈ place, n.utf8ByteSize ≤ nameLimit) ∧ ¬ d.Blocks l place := by
  have way : ("src" :: place).dropLast = "src" :: place.dropLast :=
    List.dropLast_cons_of_ne_nil ne
  constructor
  · rintro ⟨short, free, apart⟩
    refine ⟨(List.forall_mem_cons.1 short).2, ?_⟩
    rintro (⟨q, content, -, within, there⟩ | there)
    · refine free ("src" :: q) content (List.cons_ne_nil _ _) ?_ there
      rw [way, List.cons_prefix_cons]
      exact ⟨rfl, within⟩
    · exact apart there
  · rintro ⟨short, free⟩
    refine ⟨List.forall_mem_cons.2 ⟨by decide, short⟩,
      fun pre content some_name within there => ?_, fun there => free (.inr there)⟩
    rw [way] at within
    obtain ⟨x, q, rfl⟩ := List.exists_cons_of_ne_nil some_name
    obtain ⟨rfl, within'⟩ := List.cons_prefix_cons.1 within
    by_cases top : q = []
    · rw [top, sourceDir] at there
      cases there
    · exact free (.inl ⟨q, content, top, within', there⟩)

end Disk

namespace RewriteCache

open Disk (Usable)

variable {c : RewriteCache} {l place : Location} {seen : List Location} {d : Disk}

/-- **The names of a source are not too long** if those of its record are not. -/
theorem Within.short (within : c.Within place) (ne : place ≠ []) :
    ∀ n ∈ place, n.utf8ByteSize ≤ Disk.nameLimit := by
  intro n mem
  -- The last name is shorter than that of the record, and the others are the same.
  rw [← List.dropLast_append_getLast ne] at mem
  rcases List.mem_append.1 mem with mem | mem
  · exact within.names n (List.mem_append_left _ mem)
  · have longer := within.names _ (List.mem_append_right _ (List.mem_singleton_self _))
    rw [List.getLast?_eq_getLast_of_ne_nil ne, Option.getD_some, String.utf8ByteSize_append]
      at longer
    rw [List.mem_singleton.1 mem]
    omega

/-- **There is room for a source exactly if it is within the limits of the cache and nothing stands
in its way**, as long as the names of the records are not among those of the sources. -/
theorem IsOpen.hasRoom_iff (isOpen : c.IsOpen l d) (traces : d.Traces c.root l seen)
    (plainNames : ∀ q ∈ seen, q.Ordinary) (plainName : place.Ordinary)
    (names : ∀ n ∈ place, Path.IsName n) (ne : place ≠ []) (usable : Usable place.path) :
    c.HasRoom l place.path d ↔ c.Within place ∧ ¬ d.Blocks l place := by
  have source := Disk.sourceRoom_iff isOpen.sourceDir ne
  constructor
  · rintro ⟨-, usable', room, room'⟩
    rw [Disk.names_path names] at room room'
    exact ⟨⟨usable'.short, (List.forall_mem_cons.1 room'.short).2⟩, (source.1 room).2⟩
  · rintro ⟨within, free⟩
    obtain ⟨usable', usable''⟩ := (isOpen.usable_iff names usable).2 within.path
    refine ⟨usable', usable'', ?_, ?_⟩ <;> rw [Disk.names_path names]
    · exact source.2 ⟨within.short ne, free⟩
    · exact traces.recordRoom plainNames plainName within.names

end RewriteCache

/-! ## Answers -/

namespace Active

variable {a : Active} {l place : Location} {d : Disk} {p : Path} {raw : Bytes}
  {output : PatchOutput}

end Active

/-! ## Runs -/

namespace World

variable {ι : Type} {w : World ι} {root : Path} {l place : Location} {setup : ι → Resolver}
  {seen : List Location}

/-- **The place of the file that is read in an event.** -/
def placeRead (w : World ι) : Event ι → Option Location
  | .resolve i p => (w.fileRead i p).map Prod.fst
  | _ => none

/-- **Only the sources are changed from outside in an event.** The path of the cache leads where it
did and not through what is in the cache, and its directories hold the same. Nothing is cleared. -/
def UndisturbedAt (root : Path) (l : Location) (w : World ι) : Event ι → Prop
  | .outside d => d.Houses root l ∧ d.Straight root l ∧ (w.disk.LeadsTo root l → d.LeadsTo root l)
    ∧ ∀ ns, Owned ns → d.get? (l ++ ns) = w.disk.get? (l ++ ns)
  | .clear _ => False
  | _ => True

/-- **A cache is in order**: it fits the resolvers in use and is open for them, and all that is in
it has been kept for sources that were read. -/
structure InOrder (root : Path) (l : Location) (setup : ι → Resolver) (seen : List Location)
    (w : World ι) : Prop where
  /-- It fits the resolvers in use. -/
  ready : ∀ i, Ready root l setup i w
  /-- It is open for them. -/
  isOpen : ∀ i, (w.resolvers i).active.isSome → ((setup i).cacheIn root).IsOpen l w.disk
  /-- All that is in it has been kept for the sources. -/
  traces : w.disk.Traces root l seen

/-- **Resolvers have the same axes.** -/
def SameAxes (setup : ι → Resolver) : Prop :=
  ∀ i j, AxisSnapshot.of (setup i).config = AxisSnapshot.of (setup j).config

namespace InOrder

/-- **The cache is left to resolvers with the axes of each of them** where only the sources are
changed. -/
theorem keptAt (order : InOrder root l setup seen w) (axes : SameAxes setup) {e : Event ι}
    (undisturbed : w.UndisturbedAt root l e) (i : ι) : w.KeptAt root l i e := by
  have ready := order.ready i
  have same (j : ι) : AxisSnapshot.of (w.resolvers j).config
      = AxisSnapshot.of (w.resolvers i).config :=
    (ready.snapshot j).trans ((axes j i).trans (ready.snapshot i).symm)
  cases e with
  | outside d =>
      obtain ⟨house, -, there, same⟩ := undisturbed
      rw [KeptAt]
      split
      · rename_i inUse
        exact ⟨there (order.isOpen i inUse).there, same⟩
      · exact ⟨house, order.traces.plain.of_same same⟩
  | lock j => exact fun _ _ => same j
  | resolve j p => exact fun _ _ => same j
  | clear j => exact undisturbed.elim

/-- **Taking a resolver into use leaves traces only of the sources.** -/
theorem activeState_traces (order : InOrder root l setup seen w) (up : SetUp root setup) (j : ι) :
    ((w.resolvers j).activeState w.disk).2.Traces root l seen := by
  unfold Resolver.activeState
  cases active : (w.resolvers j).active with
  | some a => exact order.traces
  | none =>
      have eq := (order.ready j).unused active
      have dir : (w.resolvers j).config.cacheDir = some root := by rw [eq, up.dir j]
      exact order.traces.performs (Resolver.activate_performs dir w.disk
        RewriteCache.openChanges_keepsFor fun opened _ =>
          RewriteCache.reconcileChanges_keepsFor opened _)

/-- **Taking a resolver into use opens the cache**, or leaves it open for those that are in use. -/
theorem activeState_isOpen (order : InOrder root l setup seen w) (up : SetUp root setup)
    (axes : SameAxes setup) (j i : ι)
    (used : (w.resolvers i).active.isSome
      ∨ ((w.resolvers j).activeState w.disk).1.isOk = true) :
    ((setup i).cacheIn root).IsOpen l ((w.resolvers j).activeState w.disk).2 := by
  have ready := order.ready j
  unfold Resolver.activeState at used ⊢
  cases active : (w.resolvers j).active with
  | some a =>
      exact (order.isOpen j (by rw [active]; rfl)).of_root rfl
  | none =>
      have eq := ready.unused active
      have dir : (w.resolvers j).config.cacheDir = some root := by rw [eq, up.dir j]
      by_cases inUse : ∃ k, (w.resolvers k).active.isSome
      · -- The cache fits one that is in use, and so it fits this one.
        obtain ⟨k, inUse⟩ := inUse
        have isOpen := order.isOpen k inUse
        have same := (axes k j).trans (ready.snapshot j).symm
        have cache : (w.resolvers j).cacheIn root = (setup k).cacheIn root := by
          rw [Resolver.cacheIn, Resolver.cacheIn, same]
        obtain ⟨-, fitted⟩ := (order.ready k).fitted inUse
        rw [← cache, same] at fitted
        simp only
        rw [Resolver.activate_of_fitted fitted (isOpen.of_root rfl) dir]
        exact isOpen.of_root rfl
      · rw [active] at used
        rcases used with used | used
        · exact absurd ⟨i, used⟩ inUse
        · simp only at used ⊢
          rcases activated : (w.resolvers j).activate w.disk with ⟨_ | ⟨a, r⟩, d⟩
          · rw [activated] at used
            cases used
          · obtain ⟨names, opened, act⟩ := Resolver.activates_of_ok dir activated
            have isOpen := RewriteCache.isOpen_of_opened (c := (w.resolvers j).cacheIn root)
              ready.houses ready.plain act.opens
            exact (isOpen.reconciled act.reconciles).of_root rfl

/-- **What an event does once the resolver that is called is in use** leaves the cache open, and
traces only of the sources and of the file that is read. -/
theorem effect {a : Active} {d : Disk} {e : Event ι} {j : ι}
    (called : e.caller = some j) (undisturbed : w.UndisturbedAt root l e)
    (read : ∀ p raw, e = .resolve j p → d.read (d.normalize p).path = .ok raw →
      d.normalize p ∈ seen)
    (cache : a.cache.root = root) (isOpen : a.cache.IsOpen l d) (traces : d.Traces root l seen) :
    a.cache.IsOpen l (e.effect a d) ∧ (e.effect a d).Traces root l seen := by
  cases e with
  | outside d' => cases called
  | clear i => exact undisturbed.elim
  | lock i => exact ⟨isOpen, traces⟩
  | resolve i p =>
      cases called
      rw [Event.effect]
      rcases a.resolve_disk d p with same | ⟨raw, output, found, -, written⟩
      · rw [same]
        exact ⟨isOpen, traces⟩
      · rw [written]
        refine ⟨isOpen.write _ _ _, ?_⟩
        rw [RewriteCache.write, Disk.InOrder.perform_snd]
        have stored := RewriteCache.storeChanges_keepsFor (c := a.cache)
          (fun _ => Disk.isName_of_mem_normalize) (Disk.ne_nil_of_read found)
          (read p raw rfl found) (Fingerprint.of raw) output.source
        rw [cache] at stored
        exact traces.performs (.applyAll d stored)

variable [DecidableEq ι]

/-- **An event keeps a cache in order** where only the sources are changed. -/
theorem step (order : InOrder root l setup seen w) (up : SetUp root setup) (axes : SameAxes setup)
    (e : Event ι) (undisturbed : w.UndisturbedAt root l e) :
    InOrder root l setup (seen ++ (w.placeRead e).toList) (w.step e) := by
  have ready (i : ι) := (order.ready i).step up e (order.keptAt axes undisturbed i)
  have more : seen ⊆ seen ++ (w.placeRead e).toList := List.subset_append_left _ _
  cases called : e.caller with
  | none =>
      cases e with
      | outside d =>
          obtain ⟨house, straight, there, same⟩ := undisturbed
          refine ⟨ready, fun i inUse => ?_, (order.traces.mono more).of_same house straight same⟩
          have isOpen := order.isOpen i inUse
          exact ⟨house, isOpen.plain.of_same same, there isOpen.there, isOpen.sources,
            isOpen.records, (same _ (.source _)).trans isOpen.sourceDir,
            (same _ (.record _)).trans isOpen.recordDir⟩
      | lock j => cases called
      | resolve j p => cases called
      | clear j => cases called
  | some j =>
      have traces := (order.activeState_traces up j).mono more
      have opens := order.activeState_isOpen up axes j
      have state := (order.ready j).activeState up (j := j) fun _ _ => rfl
      have call := w.step_call called
      rcases eq : (w.resolvers j).activeState w.disk with ⟨error | ⟨a, r⟩, d⟩ <;>
        rw [eq] at traces opens state call
      · have after : w.step e = w.update j (w.resolvers j) d := call
        rw [after] at ready ⊢
        refine ⟨ready, fun i inUse => opens i (.inl ?_), traces⟩
        by_cases h : i = j
        · rwa [h, resolvers_update_self, ← h] at inUse
        · rwa [resolvers_update_of_ne w h] at inUse
      · obtain ⟨active, used⟩ := state
        obtain ⟨a', -, -, -, after⟩ := call active
        have cache := used.cache_eq up (j := j) (a := a) (by rw [resolvers_update_self, active])
        have root_eq : a.cache.root = root := by rw [cache]; rfl
        obtain ⟨isOpen, traces'⟩ := effect called undisturbed
          (fun p raw is found => by
            subst is
            rw [placeRead, fileRead, eq]
            simp [found, Except.toOption])
          root_eq ((opens j (.inr rfl)).of_root (by rw [cache])) traces
        rw [after] at ready ⊢
        refine ⟨ready, fun i _ => ?_, ?_⟩ <;> rw [update_disk]
        · exact isOpen.of_root root_eq.symm
        · exact traces'

end InOrder

variable [DecidableEq ι]

/-- **The places of the files that are read in a run.** -/
def placesRead : World ι → List (Event ι) → List Location
  | _, [] => []
  | w, e :: es => (w.placeRead e).toList ++ placesRead (w.step e) es

/-- **A run keeps a cache in order** where only the sources are changed. -/
theorem InOrder.run (order : InOrder root l setup seen w) (up : SetUp root setup)
    (axes : SameAxes setup) {events : List (Event ι)}
    (undisturbed : w.Throughout (UndisturbedAt root l) events) :
    InOrder root l setup (seen ++ w.placesRead events) (w.run events) := by
  induction events generalizing w seen with
  | nil =>
      rw [placesRead, List.append_nil]
      exact order
  | cons e es ih =>
      rw [placesRead, ← List.append_assoc]
      exact ih (order.step up axes e undisturbed.1) undisturbed.2

/-- **A resolver for a single file.** -/
def lone : World Unit :=
  ⟨fun _ => .of ⟨some ⟨"/c"⟩, [⟨"/s"⟩], [], [], .empty, .empty, "", false, false⟩,
    ⟨[(["s"], .directory), (["s", "a"], .file (bytesOf "old"))], []⟩⟩

end World

end Seams
