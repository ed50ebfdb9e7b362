import Mathlib.Data.List.Basic
import Mathlib.Logic.Function.Basic
import Mathlib.Tactic.Common
import Seams.Proofs.Operations

/-! # Writers that get in each other's way
To keep a rewritten source is to store it, and then to store its record. Several writers at work on
one cache may take turns between the two, and each may stop for good after the first. What is valid
then is something that has been kept only where the writers of a source agree.
Main definitions:
* **`RewriteCache.Write`** — a rewritten source that is to be kept;
* **`Race`** — a disk, and what each of several writers has left to do;
* **`Race.run`** — what becomes of it when the writers take turns;
* **`RewriteCache.Whole`** — whatever the turns are, what is valid has been kept;
* **`RewriteCache.Agree`** — what one writer keeps is also kept with the records of the others. -/

namespace Seams

/-! ## Turns -/

/-- **A disk, and what each of several writers has left to do.** -/
structure Race (ι : Type) where
  /-- The disk. -/
  disk : Disk
  /-- The changes that are left. -/
  left : ι → List Change

namespace Race

variable {ι : Type} [DecidableEq ι]

/-- **A writer takes its turn.** It makes the next of its changes, and gives up if that fails. -/
def move (r : Race ι) (i : ι) : Race ι :=
  match r.left i with
  | [] => r
  | change :: changes =>
    match r.disk.apply change with
    | (.ok (), d) => ⟨d, Function.update r.left i changes⟩
    | (.error _, d) => ⟨d, Function.update r.left i []⟩

/-- **Writers take their turns**, one after the other. Those who are given too few stop half way. -/
def run (r : Race ι) (turns : List ι) : Race ι := turns.foldl move r

theorem run_append (r : Race ι) (turns others : List ι) :
    r.run (turns ++ others) = (r.run turns).run others :=
  List.foldl_append

/-- **A turn makes one of the changes that are left, or none**, and adds none to them. -/
theorem move_spec (r : Race ι) (i : ι) :
    ((r.move i).disk = r.disk ∨ ∃ change ∈ r.left i, (r.move i).disk = (r.disk.apply change).2)
      ∧ ∀ j, (r.move i).left j ⊆ r.left j := by
  have fewer {changes : List Change} (less : changes ⊆ r.left i) (j : ι) :
      Function.update r.left i changes j ⊆ r.left j := by
    by_cases same : j = i
    · subst same
      rwa [Function.update_self]
    · rw [Function.update_of_ne same]
      exact List.Subset.refl _
  unfold move
  split
  · exact ⟨.inl rfl, fun _ => List.Subset.refl _⟩
  · rename_i change changes left
    rw [left]
    split
    · rename_i d' applied
      refine ⟨.inr ⟨change, List.mem_cons_self, by rw [applied]⟩, fewer ?_⟩
      rw [left]
      exact List.subset_cons_self _ _
    · rename_i e d' applied
      exact ⟨.inr ⟨change, List.mem_cons_self, by rw [applied]⟩, fewer (List.nil_subset _)⟩

/-- **A turn makes the first of the changes that are left.** -/
theorem move_disk {r : Race ι} {i : ι} {change : Change} {changes : List Change}
    (left : r.left i = change :: changes) : (r.move i).disk = (r.disk.apply change).2 := by
  unfold move
  rw [left]
  simp only
  split <;> rename_i applied <;> rw [applied]

/-- **A writer that is let alone does what it would do at once.** -/
theorem run_alone (r : Race ι) (i : ι) :
    r.run (List.replicate (r.left i).length i)
      = ⟨(r.disk.applyAll (r.left i)).2, Function.update r.left i []⟩ := by
  -- Turns that come after a failure do nothing.
  have idle (n : Nat) (r : Race ι) (done : r.left i = []) : r.run (List.replicate n i) = r := by
    induction n with
    | zero => rfl
    | succ n ih =>
        have still : r.move i = r := by rw [move, done]
        rw [List.replicate_succ, run, List.foldl_cons, still]
        exact ih
  generalize e : r.left i = changes
  induction changes generalizing r with
  | nil =>
      have same : Function.update r.left i [] = r.left := by rw [← e, Function.update_eq_self]
      rw [same]
      rfl
  | cons change changes ih =>
      rw [List.length_cons, List.replicate_succ, run, List.foldl_cons, Disk.applyAll]
      rcases applied : r.disk.apply change with ⟨result, d⟩
      cases result with
      | error fault =>
          have stopped : r.move i = ⟨d, Function.update r.left i []⟩ := by
            simp only [move, e, applied]
          rw [stopped]
          exact idle _ _ (Function.update_self ..)
      | ok u =>
          have gone : r.move i = ⟨d, Function.update r.left i changes⟩ := by
            simp only [move, e, applied]
          rw [gone]
          have rest := ih ⟨d, Function.update r.left i changes⟩ (Function.update_self ..)
          rwa [Function.update_idem] at rest

end Race

/-! ## What is kept -/

namespace RewriteCache

/-- **A rewritten source that is to be kept.** -/
structure Write where
  /-- The generation in which it was rewritten. -/
  generation : UInt64
  /-- The source. -/
  source : Path
  /-- The content that it was made from. -/
  content : Fingerprint
  /-- What it was rewritten to. -/
  rewritten : Bytes

namespace Write

/-- **The cache that a writer uses**, in a directory. -/
def cache (w : Write) (root : Path) : RewriteCache := ⟨root, w.generation⟩

/-- **What a writer does** to keep a rewritten source. -/
def changes (w : Write) (root : Path) : List Change :=
  (w.cache root).storeChanges w.source w.content w.rewritten

/-- **The record that a writer stores.** -/
def record (w : Write) : EntryRecord := ⟨w.content, w.generation⟩

end Write

end RewriteCache

open RewriteCache (Write)

variable {ι : Type} {writes : ι → Write} {root : Path} {l : Location} {d d' : Disk}

/-- **All that is kept is the work of some writers.** Each rewritten source is one that has been
kept for that source, and each record is one that has been stored for it; the two need not be of one
writer. -/
structure Disk.WrittenBy (writes : ι → Write) (root : Path) (l : Location) (d : Disk) : Prop
    extends InPlace root l d where
  /-- The rewritten sources are of some writers. -/
  sources : ∀ source content, d.get? (sourceAt l source) = some (.file content) →
    ∃ i, (writes i).source.names = source.names ∧ content = (writes i).rewritten
  /-- The records are of some writers. -/
  records : ∀ source body, d.get? (recordAt l source) = some (.file body) →
    ∃ j, (writes j).source.names = source.names ∧ body = (writes j).record.toJson.toBytes

namespace Disk.WrittenBy

/-- **Further directories leave all that is kept as it is.** -/
theorem grows (written : WrittenBy writes root l d) (grows : Grows d d') :
    WrittenBy writes root l d' where
  toInPlace := written.toInPlace.grows grows
  sources source content there := written.sources source content (grows.file_iff.1 there)
  records source body there := written.records source body (grows.file_iff.1 there)

/-- **A change that a writer makes keeps its work**, or nothing, if it fails. -/
theorem apply (written : WrittenBy writes root l d) {i : ι} {change : Change}
    (own : change ∈ (writes i).changes root) : WrittenBy writes root l (d.apply change).2 := by
  have either : change = .storeFile (((writes i).cache root).sourcePath (writes i).source)
        (writes i).rewritten
      ∨ change = .storeFile (((writes i).cache root).recordPath (writes i).source)
        (writes i).record.toJson.toBytes :=
    (List.mem_cons.1 own).imp_right List.mem_singleton.1
  rcases either with rfl | rfl
  · -- A rewritten source is put where rewritten sources of its names are; no record changes.
    obtain ⟨grown, grows, ⟨e, failed⟩ | ⟨stored, -, place⟩⟩ :=
      InPlace.storeSource (c := (writes i).cache root) written.toInPlace (writes i).source
        (writes i).rewritten
    · rw [failed]
      exact written.grows grows
    · rw [stored]
      refine ⟨place, fun source content there => ?_, fun source body there => ?_⟩
      · by_cases same : sourceAt l source = sourceAt l (writes i).source
        · rw [same, get?_put_self _ _ (sourceAt_ne_nil _ _)] at there
          cases there
          exact ⟨i, (names_eq_of_sourceAt_eq same).symm, rfl⟩
        · rw [get?_put_of_ne _ _ same] at there
          exact (written.grows grows).sources source content there
      · rw [get?_put_of_ne _ _ (recordAt_ne_sourceAt _ _ _)] at there
        exact (written.grows grows).records source body there
  · -- A record is put where records of its names are; no rewritten source changes.
    obtain ⟨grown, grows, ⟨e, failed⟩ | ⟨stored, -, place⟩⟩ :=
      InPlace.storeRecord (c := (writes i).cache root) written.toInPlace (writes i).source
        (writes i).record.toJson.toBytes
    · rw [failed]
      exact written.grows grows
    · rw [stored]
      refine ⟨place, fun source content there => ?_, fun source body there => ?_⟩
      · rw [get?_put_of_ne _ _ (recordAt_ne_sourceAt _ _ _).symm] at there
        exact (written.grows grows).sources source content there
      · by_cases same : recordAt l source = recordAt l (writes i).source
        · rw [same, get?_put_self _ _ (recordAt_ne_nil _ _)] at there
          cases there
          exact ⟨i, (names_eq_of_recordAt_eq same).symm, rfl⟩
        · rw [get?_put_of_ne _ _ same] at there
          exact (written.grows grows).records source body there

/-- **However the writers take turns, all that is kept is their work.** -/
theorem run [DecidableEq ι] {r : Race ι} (written : WrittenBy writes root l r.disk)
    (own : ∀ i, r.left i ⊆ (writes i).changes root) (turns : List ι) :
    WrittenBy writes root l (r.run turns).disk := by
  induction turns generalizing r with
  | nil => exact written
  | cons i turns ih =>
      obtain ⟨disk, fewer⟩ := r.move_spec i
      refine ih ?_ fun j => List.Subset.trans (fewer j) (own j)
      rcases disk with same | ⟨change, left, same⟩
      · rwa [same]
      · rw [same]
        exact written.apply (own i left)

/-- **What is valid is made of the work of two writers** of the source: one has stored the record,
and one what is read. -/
theorem valid {c : RewriteCache} (written : WrittenBy writes c.root l d) {source : Path}
    {content : Fingerprint} (valid : c.hasValid d source content = true) :
    ∃ i j, (writes i).source.names = source.names ∧ (writes j).source.names = source.names
      ∧ (writes j).record = ⟨content, c.generation⟩
      ∧ c.read d source = .ok (writes i).rewritten := by
  obtain ⟨⟨body, found, decoded⟩, rewritten, read⟩ := RewriteCache.hasValid_iff.1 valid
  have record := get?_of_read written.houses written.plain (c.recordPath_liesAt source)
    (.record _) found
  have beside := get?_of_read written.houses written.plain (c.sourcePath_liesAt source)
    (.source _) (RewriteCache.read_eq_ok_iff.1 read)
  obtain ⟨j, names, rfl⟩ := written.records source body record
  obtain ⟨i, names', rfl⟩ := written.sources source rewritten beside
  rw [EntryRecord.decode?_toBytes] at decoded
  split at decoded
  · exact ⟨i, j, names', names, Option.some.inj decoded, read⟩
  · cases decoded

end Disk.WrittenBy

namespace RewriteCache

/-- **Some writers are at work on a cache in a directory.** -/
def race (writes : ι → Write) (root : Path) (d : Disk) : Race ι :=
  ⟨d, fun i => (writes i).changes root⟩

/-- **What is valid has been kept, whatever the turns are.** Where there is something valid for a
content of a source, what is read is what a writer keeps for that content of that source. Sources of
the same names are kept at the same place, so they count as one. -/
def Whole [DecidableEq ι] (writes : ι → Write) (root : Path) (d : Disk) : Prop :=
  ∀ (turns : List ι) (source : Path) (content : Fingerprint) (generation : UInt64),
    (⟨root, generation⟩ : RewriteCache).hasValid ((race writes root d).run turns).disk source
      content = true →
    ∃ k, (writes k).source.names = source.names ∧ (writes k).record = ⟨content, generation⟩
      ∧ (⟨root, generation⟩ : RewriteCache).read ((race writes root d).run turns).disk source
        = .ok (writes k).rewritten

/-- **The writers of a source agree.** What one of them keeps is also kept with the record of any
other one. -/
def Agree (writes : ι → Write) : Prop :=
  ∀ i j, (writes i).source.names = (writes j).source.names →
    ∃ k, (writes k).source.names = (writes j).source.names
      ∧ (writes k).record = (writes j).record ∧ (writes k).rewritten = (writes i).rewritten

/-- **Where the writers of a source agree, what is valid has been kept.** -/
theorem Agree.whole [DecidableEq ι] (agree : Agree writes)
    (written : d.WrittenBy writes root l) : Whole writes root d := by
  intro turns source content generation valid
  have now : ((race writes root d).run turns).disk.WrittenBy writes root l :=
    written.run (fun i => List.Subset.refl _) turns
  obtain ⟨i, j, names, names', record, read⟩ :=
    Disk.WrittenBy.valid (c := ⟨root, generation⟩) now valid
  obtain ⟨k, names'', record', rewritten⟩ := agree i j (names.trans names'.symm)
  refine ⟨k, names''.trans names', record'.trans record, ?_⟩
  rw [read, rewritten]

end RewriteCache

/-! ## What is in the way of another writer -/

namespace Disk

open RewriteCache (Owned)

variable {c : RewriteCache} {source : Path} {content : Bytes}

/-- **A rewritten source is found where it is.** -/
structure SourceInReach (c : RewriteCache) (l : Location) (d : Disk) (source : Path)
    (content : Bytes) : Prop where
  /-- The source has names, so that the path ends in one. -/
  named : source.names ≠ []
  /-- The path can be looked up. -/
  usable : Usable (c.sourcePath source)
  /-- The path of the cache leads to its place. -/
  there : d.LeadsTo c.root l
  /-- The rewritten source is there. -/
  holds : d.get? (sourceAt l source) = some (.file content)
  /-- The directories on the way are there. -/
  way : ∃ k, d.Leads false k l (("src" :: source.names).map .name) false
    (.present (sourceAt l source) (.file content))

/-- **Nothing is stored at a path that ends in a slash.** -/
theorem endsInSlash_of_stored {p : Path} (h : d.apply (.storeFile p content) = (.ok (), d')) :
    p.endsInSlash = false := by
  by_contra slash
  rw [Bool.not_eq_false] at slash
  have refused (d : Disk) : ∃ e, d.replaceFile p content = .error e := by
    unfold replaceFile
    split
    · exact ⟨_, rfl⟩
    · exact ⟨_, if_pos slash⟩
    · exact ⟨_, if_pos slash⟩
  rw [apply] at h
  split at h
  · cases h
  split at h
  · cases h
  rename_i made _
  obtain ⟨e, failed⟩ := refused made
  simp only [failed] at h
  cases h

/-- **A source without names is not kept.** -/
theorem names_ne_nil_of_stored
    (h : d.apply (.storeFile (c.sourcePath source) content) = (.ok (), d')) :
    source.names ≠ [] := by
  intro nil
  have ends : c.sourceDir.EndsIn "src" := Path.endsIn_child _ (by constructor <;> decide)
  have slash : (c.sourcePath source).endsInSlash = true := by
    have empty : "/".intercalate ([] : List String) = "" := rfl
    have relative : (⟨""⟩ : Path).isAbsolute = false := rfl
    rw [RewriteCache.sourcePath, RewriteCache.namesOf_eq, nil, empty, Path.join, relative,
      ends.endsInSlash]
    simp [ends.text_ne_empty, Path.endsInSlash]
  rw [endsInSlash_of_stored h] at slash
  cases slash

namespace SourceInReach

/-- **A rewritten source that has been stored is found where it is.** -/
theorem of_stored (place : InPlace c.root l d)
    (h : d.apply (.storeFile (c.sourcePath source) content) = (.ok (), d')) :
    InPlace c.root l d' ∧ SourceInReach c l d' source content := by
  have named := names_ne_nil_of_stored h
  obtain ⟨n, ends⟩ := c.exists_sourcePath_endsIn source named
  obtain ⟨grown, grows, ⟨e, failed⟩ | ⟨⟨t, below⟩, apart, stored⟩⟩ := apply_storeFile place.houses
    place.plain (c.sourcePath_liesAt source) (.source _) content
  · rw [failed] at h
    cases h
  rw [stored] at h
  obtain rfl : grown.put (sourceAt l source) (.file content) = d' := congrArg Prod.snd h
  have place' := place.grows grows
  refine ⟨place'.put (.source _) apart ?_, ⟨named, below.usable, ?_, ?_, ?_⟩⟩
  · exact fun source' e => absurd e (recordAt_ne_sourceAt l source' source)
  · exact place'.leadsTo_put below.root (.source _) apart content
  · exact get?_put_self grown _ (sourceAt_ne_nil l source)
  · obtain ⟨k, way⟩ := below.way
    rw [ends.asksForDirectory] at way
    exact ⟨k, way.put_file (place'.plain.along (.source _)) (List.cons_ne_nil _ _) apart content
      false⟩

/-- **It is found from any path of the same names** that can be looked up. -/
theorem find {o : RewriteCache} {source' : Path} (reach : SourceInReach c l d source content)
    (plain : d.PlainIn l) (root : o.root = c.root) (same : source'.names = source.names)
    (usable : Usable (o.sourcePath source')) (follow : Bool) :
    d.find follow (o.sourcePath source')
      = .ok (.present (sourceAt l source) (.file content)) := by
  have named' : source'.names ≠ [] := by
    rw [same]
    exact reach.named
  obtain ⟨n, ends⟩ := o.exists_sourcePath_endsIn source' named'
  have at_ := o.sourcePath_liesAt source'
  rw [root, same] at at_
  refine find_of_names usable reach.there at_ (List.cons_ne_nil _ _) fun k => ?_
  obtain ⟨k, way⟩ := reach.way
  rw [ends.asksForDirectory]
  exact way.names_congr (plain.along (.source _)) (List.cons_ne_nil _ _) (fun _ _ _ => id)
    reach.holds

/-- **It is read.** -/
theorem read (reach : SourceInReach c l d source content) (plain : d.PlainIn l) :
    c.read d source = .ok content := by
  rw [RewriteCache.read_eq_ok_iff, read_eq_ok_iff]
  exact ⟨_, reach.find plain rfl rfl reach.usable true⟩

/-- **Another one of the same names is stored over it**, from any path that can be looked up. -/
theorem store_over {o : RewriteCache} {source' : Path}
    (reach : SourceInReach c l d source content) (plain : d.PlainIn l) (root : o.root = c.root)
    (same : source'.names = source.names) (usable : Usable (o.sourcePath source'))
    (content' : Bytes) : d.apply (.storeFile (o.sourcePath source') content')
      = (.ok (), d.put (sourceAt l source) (.file content')) := by
  have named' : source'.names ≠ [] := by
    rw [same]
    exact reach.named
  obtain ⟨n, ends⟩ := o.exists_sourcePath_endsIn source' named'
  exact apply_storeFile_over ends (reach.find plain root same usable false) content'

/-- **It is still found when the record has been stored**, and so is the record. -/
theorem record_stored {body : Bytes} (reach : SourceInReach c l d source content)
    (place : InPlace c.root l d)
    (h : d.apply (.storeFile (c.recordPath source) body) = (.ok (), d')) :
    InPlace c.root l d' ∧ SourceInReach c l d' source content
      ∧ d'.get? (recordAt l source) = some (.file body) := by
  obtain ⟨grown, grows, ⟨e, failed⟩ | ⟨stored, there, place'⟩⟩ := place.storeRecord source body
  · rw [failed] at h
    cases h
  rw [stored] at h
  obtain rfl : grown.put (recordAt l source) (.file body) = d' := congrArg Prod.snd h
  have apart : ∀ m, m <+: sourceAt l source → m ≠ recordAt l source := by
    rintro m within rfl
    have within' := (List.prefix_append_right_inj l).1 within
    simp at within'
  have holds : (grown.put (recordAt l source) (.file body)).get? (sourceAt l source)
      = some (.file content) := by
    rw [get?_put_of_ne _ _ (apart _ List.prefix_rfl)]
    exact grows.kept _ _ reach.holds
  refine ⟨place', ⟨reach.named, reach.usable, there, holds, ?_⟩,
    get?_put_self grown _ (recordAt_ne_nil l source)⟩
  obtain ⟨k, way⟩ := reach.way
  refine ⟨k, way.names_congr (place.plain.along (.source _)) (List.cons_ne_nil _ _) ?_ holds⟩
  intro pre _ within dir
  rw [get?_put_of_ne _ _ (apart _ ((List.prefix_append_right_inj l).2 within))]
  exact grows.kept _ _ dir

end SourceInReach

end Disk

/-! ## When nothing is torn -/

namespace RewriteCache

/-- **A cache without files is the work of any writers.** -/
theorem written_of_empty (houses : d.Houses root l) (plain : d.PlainIn l)
    (noRecords : ∀ source body, d.get? (Disk.recordAt l source) ≠ some (.file body))
    (noSources : ∀ source content, d.get? (Disk.sourceAt l source) ≠ some (.file content)) :
    d.WrittenBy writes root l where
  toInPlace := .of_no_records houses plain noRecords
  sources source content there := absurd there (noSources source content)
  records source body there := absurd there (noRecords source body)

/-- **One writer does all that it has to do, and another one stops half way.** -/
theorem run_half [DecidableEq ι] {i j : ι} (ne : i ≠ j)
    (h : d.applyAll ((writes j).changes root) = (.ok (), d')) :
    ((race writes root d).run [j, j, i]).disk
      = (d'.apply (.storeFile (((writes i).cache root).sourcePath (writes i).source)
          (writes i).rewritten)).2 := by
  have both : (race writes root d).run [j, j]
      = ⟨d', Function.update (race writes root d).left j []⟩ := by
    have alone := Race.run_alone (race writes root d) j
    have done : (race writes root d).disk.applyAll ((race writes root d).left j) = (.ok (), d') := h
    have two : List.replicate ((race writes root d).left j).length j = [j, j] := rfl
    rw [two, done] at alone
    exact alone
  have left : Function.update (race writes root d).left j [] i = (writes i).changes root :=
    Function.update_of_ne ne ..
  have split : (race writes root d).run ([j, j] ++ [i])
      = (⟨d', Function.update (race writes root d).left j []⟩ : Race ι).move i := by
    rw [Race.run_append, both]
    rfl
  exact (congrArg Race.disk split).trans (Race.move_disk left)

/-- **One writer comes in the way of another one.** When one has kept a rewritten source and another
one has stored its own over it and stopped, the record of the first is valid. -/
theorem exists_torn [DecidableEq ι] (place : d.InPlace root l) {i j : ι} (ne : i ≠ j)
    (same : (writes i).source.names = (writes j).source.names)
    (short : (writes j).content.length < UInt64.size)
    (alone : ∀ i, (d.applyAll ((writes i).changes root)).1 = .ok ()) :
    ∃ turns, ((writes j).cache root).hasValid ((race writes root d).run turns).disk
        (writes j).source (writes j).content = true
      ∧ ((writes j).cache root).read ((race writes root d).run turns).disk (writes j).source
        = .ok (writes i).rewritten := by
  have succeeds (i : ι) : ∃ d', d.applyAll ((writes i).changes root) = (.ok (), d') := by
    have ok := alone i
    rcases done : d.applyAll ((writes i).changes root) with ⟨result, d'⟩
    rw [done] at ok
    cases ok
    exact ⟨d', rfl⟩
  -- The one keeps its source and its record.
  obtain ⟨d₂, done⟩ := succeeds j
  obtain ⟨d₁, first, rest⟩ := Disk.applyAll_cons_ok done
  obtain ⟨_, second, rest⟩ := Disk.applyAll_cons_ok rest
  cases rest
  obtain ⟨place₁, reach₁⟩ := Disk.SourceInReach.of_stored (c := (writes j).cache root) place first
  obtain ⟨place₂, reach₂, record₂⟩ := reach₁.record_stored place₁ second
  -- The other one could store its own, so it can still.
  obtain ⟨d', done'⟩ := succeeds i
  obtain ⟨m, other, -⟩ := Disk.applyAll_cons_ok done'
  have usable := (Disk.SourceInReach.of_stored (c := (writes i).cache root) place other).2.usable
  have third := reach₂.store_over (o := (writes i).cache root) place₂.plain rfl same usable
    (writes i).rewritten
  -- It would be the same if the one stored it, so it is found from the path of the one.
  have whose := reach₂.store_over place₂.plain rfl rfl reach₂.usable (writes i).rewritten
  obtain ⟨place₃, reach₃⟩ := Disk.SourceInReach.of_stored place₂ whose
  have turns : ((race writes root d).run [j, j, i]).disk
      = d₂.put (Disk.sourceAt l (writes j).source) (.file (writes i).rewritten) := by
    rw [run_half ne done, third]
  -- The record of the one is still there.
  have record₃ : (d₂.put (Disk.sourceAt l (writes j).source) (.file (writes i).rewritten)).get?
      (Disk.recordAt l (writes j).source) = some (.file (writes j).record.toJson.toBytes) := by
    rw [Disk.get?_put_of_ne _ _ (Disk.recordAt_ne_sourceAt _ _ _)]
    exact record₂
  have read := Disk.read_eq_ok_iff.2 ⟨_, place₃.find_record reach₃.there record₃ true⟩
  refine ⟨[j, j, i], ?_, ?_⟩
  · rw [turns]
    refine hasValid_iff.2 ⟨⟨_, read, ?_⟩, _, reach₃.read place₃.plain⟩
    rw [EntryRecord.decode?_toBytes]
    exact if_pos short
  · rw [turns]
    exact reach₃.read place₃.plain

/-- **What is valid has been kept, whatever the turns are, exactly if the writers of a source
agree**, as far as each writer would succeed alone. A writer that stops half way leaves its rewritten
source beside the record of another one, which is taken for valid if it is what is asked for. -/
theorem whole_iff_agree [DecidableEq ι] (houses : d.Houses root l) (plain : d.PlainIn l)
    (noRecords : ∀ source body, d.get? (Disk.recordAt l source) ≠ some (.file body))
    (noSources : ∀ source content, d.get? (Disk.sourceAt l source) ≠ some (.file content)) :
    (Agree writes → Whole writes root d)
      ∧ ((∀ i, (writes i).content.length < UInt64.size) →
        (∀ i, (d.applyAll ((writes i).changes root)).1 = .ok ()) →
        Whole writes root d → Agree writes) := by
  have written : d.WrittenBy writes root l := written_of_empty houses plain noRecords noSources
  refine ⟨fun agree => agree.whole written, fun short alone whole i j same => ?_⟩
  by_cases one : i = j
  · exact ⟨j, rfl, rfl, by rw [one]⟩
  · obtain ⟨turns, valid, read⟩ := exists_torn written.toInPlace one same (short j) alone
    obtain ⟨k, names, record, read'⟩ := whole turns _ _ _ valid
    -- Whatever has been kept with that record is what is read.
    have bytes := read.symm.trans read'
    exact ⟨k, names, record, (Except.ok.inj bytes).symm⟩

/-- **Two writers of one source**, which has changed between them. -/
def rivals : Bool → Write
  | false => ⟨7, ⟨"/s/a.php"⟩, ⟨0, 3⟩, bytesOf "old"⟩
  | true => ⟨7, ⟨"/s/a.php"⟩, ⟨1, 3⟩, bytesOf "new"⟩

/-- **A directory for the cache of the two**, with nothing in it. -/
def emptyCache : Disk := ⟨[(["c"], .directory)], []⟩

/-- **What is valid is not always what the two have kept.** -/
theorem whole_iff_agree_rivals : ¬ Whole rivals ⟨"/c"⟩ emptyCache := by
  have led : emptyCache.LeadsTo ⟨"/c"⟩ ["c"] := rfl
  have short (i : Bool) : (rivals i).content.length < UInt64.size := by
    cases i <;> decide
  have alone (i : Bool) : (emptyCache.applyAll ((rivals i).changes ⟨"/c"⟩)).1 = .ok () := by
    refine ok_of_toOption ?_
    cases i <;> decide +kernel
  intro whole
  have agree := (whole_iff_agree (led.houses (fun _ _ => Iff.rfl) rfl)
    (Disk.plainIn_of_entries (by simp [emptyCache]) _) (Disk.no_records_of_entries (by decide))
    (Disk.no_sources_of_entries (by decide))).2 short alone whole
  obtain ⟨k, -, record, rewritten⟩ := agree true false rfl
  cases k with
  | false =>
      have same : bytesOf "old" = bytesOf "new" := rewritten
      exact absurd same (by decide)
  | true =>
      have same : (⟨⟨1, 3⟩, 7⟩ : EntryRecord) = ⟨⟨0, 3⟩, 7⟩ := record
      exact absurd same (by decide)

end RewriteCache

end Seams
