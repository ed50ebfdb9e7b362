import Mathlib.Data.List.Basic
import Mathlib.Tactic.Common
import Seams.Proofs.Changes
import Seams.Proofs.Records

/-! # The files of a cache
What is kept for a source is a record and the rewritten source beside it. The two are stored one
after the other, yet the record never tells of a rewritten source that is not the one beside it:
where a record was there before, the new one can be stored as well.
Main definitions:
* **`Disk.recordAt`**, **`Disk.sourceAt`** — the places of what is kept for a source;
* **`Disk.InOrder`** — each record fits the rewritten source beside it;
* **`Change.Harmless`** — a change that brings no record and no rewritten source. -/

namespace Seams

namespace Disk

open RewriteCache (Owned recordNames)

/-! ## Places -/

/-- **The place of the record of a source**, in a cache at a place. -/
def recordAt (l : Location) (source : Path) : Location := l ++ "meta" :: recordNames source.names

/-- **The place of the rewritten source**, in a cache at a place. -/
def sourceAt (l : Location) (source : Path) : Location := l ++ "src" :: source.names

/-- **The record depends on the names of the source only.** -/
theorem recordAt_congr (l : Location) {source source' : Path} (h : source.names = source'.names) :
    recordAt l source = recordAt l source' := by
  rw [recordAt, recordAt, h]

/-- **The place of the rewritten source depends on the names of the source only.** -/
theorem sourceAt_congr (l : Location) {source source' : Path} (h : source.names = source'.names) :
    sourceAt l source = sourceAt l source' := by
  rw [sourceAt, sourceAt, h]

/-- **There is a place for a record.** -/
theorem recordAt_ne_nil (l : Location) (source : Path) : recordAt l source ≠ [] := by
  simp [recordAt]

/-- **There is a place for a rewritten source.** -/
theorem sourceAt_ne_nil (l : Location) (source : Path) : sourceAt l source ≠ [] := by
  simp [sourceAt]

/-- **Records and rewritten sources are at different places.** -/
theorem recordAt_ne_sourceAt (l : Location) (source source' : Path) :
    recordAt l source ≠ sourceAt l source' := by
  intro e
  have := List.append_cancel_left e
  simp at this

/-- **Sources with the same record have the same names.** -/
theorem names_eq_of_recordAt_eq {l : Location} {source source' : Path}
    (h : recordAt l source = recordAt l source') : source.names = source'.names :=
  RewriteCache.recordNames_injective (fun _ => Path.isName_of_mem_names)
    (fun _ => Path.isName_of_mem_names) (List.cons.inj (List.append_cancel_left h)).2

/-- **Sources that are kept at the same place have the same names.** -/
theorem names_eq_of_sourceAt_eq {l : Location} {source source' : Path}
    (h : sourceAt l source = sourceAt l source') : source.names = source'.names :=
  (List.cons.inj (List.append_cancel_left h)).2

/-- **Where no entry is in a directory, there is nothing below it.** -/
theorem get?_of_entries {d : Disk} {l : Location} {x : String}
    (h : ∀ e ∈ d.entries, (l ++ [x]).isPrefixOf e.1 = false) (ns : List String) :
    d.get? (l ++ x :: ns) = none := by
  rw [get?, if_neg (by simp), List.lookup_eq_none_iff]
  intro e mem
  rw [bne_iff_ne]
  rintro same
  have below : l ++ [x] <+: e.1 := by
    rw [← same]
    exact (List.prefix_append_right_inj l).2 (by simp)
  have apart := h e mem
  rw [ List.isPrefixOf_iff_prefix.2 below] at apart
  cases apart

/-- **Where no entry is in the directory of records, there is no record.** -/
theorem no_records_of_entries {d : Disk} {l : Location}
    (h : ∀ e ∈ d.entries, (l ++ ["meta"]).isPrefixOf e.1 = false) (source : Path) (body : Bytes) :
    d.get? (recordAt l source) ≠ some (.file body) := by
  rw [recordAt, get?_of_entries h]
  simp

/-- **Where no entry is in the directory of rewritten sources, there is none.** -/
theorem no_sources_of_entries {d : Disk} {l : Location}
    (h : ∀ e ∈ d.entries, (l ++ ["src"]).isPrefixOf e.1 = false) (source : Path) (content : Bytes) :
    d.get? (sourceAt l source) ≠ some (.file content) := by
  rw [sourceAt, get?_of_entries h]
  simp

/-! ## Caches in place -/

variable {root : Path} {l : Location} {good : EntryRecord → Bytes → Prop} {d d' : Disk}

/-- **The record of a source is found where it is.** The text of its path is one that can be looked
up, and the directories on the way are there. -/
def RecordInReach (root : Path) (l : Location) (d : Disk) (source : Path) (body : Bytes) : Prop :=
  Usable ((⟨root, 0⟩ : RewriteCache).recordPath source)
    ∧ ∃ k, d.Leads false k l (("meta" :: recordNames source.names).map .name) false
        (.present (recordAt l source) (.file body))

/-- **A cache is in place.** It is at one place, there are no links in it, and its records are found
where they are. -/
structure InPlace (root : Path) (l : Location) (d : Disk) : Prop where
  /-- The path of the cache leads to one place. -/
  houses : d.Houses root l
  /-- There are no links in its directories. -/
  plain : d.PlainIn l
  /-- The records are found where they are. -/
  reach : ∀ source body, d.get? (recordAt l source) = some (.file body) →
    RecordInReach root l d source body

/-- **What has happened to a disk has left the cache alone**: its path leads where it did, there are
no links in it, and its records and rewritten sources are the same. -/
structure LeavesCache (root : Path) (l : Location) (d d' : Disk) : Prop where
  /-- The path of the cache leads to one place still. -/
  houses : d'.Houses root l
  /-- There are no links in its directories. -/
  plain : d'.PlainIn l
  /-- What is kept is the same. -/
  same : ∀ ns : List String, ns.head? = some "meta" ∨ ns.head? = some "src" →
    d'.get? (l ++ ns) = d.get? (l ++ ns)

namespace InPlace

/-- **A cache without records is in place.** -/
theorem of_no_records (houses : d.Houses root l) (plain : d.PlainIn l)
    (none : ∀ source body, d.get? (recordAt l source) ≠ some (.file body)) : InPlace root l d :=
  ⟨houses, plain, fun source body there => absurd there (none source body)⟩

/-- **A cache stays in place as long as its records are left alone.** -/
theorem congr (place : InPlace root l d) (left : LeavesCache root l d d') : InPlace root l d' where
  houses := left.houses
  plain := left.plain
  reach source body there := by
    rw [recordAt, left.same _ (.inl rfl)] at there
    obtain ⟨usable, k, way⟩ := place.reach source body there
    refine ⟨usable, k, way.names_congr (place.plain.along (.record _)) (List.cons_ne_nil _ _) ?_ ?_⟩
    · intro pre ne within holds
      rw [left.same pre (.inl ?_), holds]
      obtain ⟨first, rest, rfl⟩ := List.exists_cons_of_ne_nil ne
      obtain ⟨rfl, -⟩ := List.cons_prefix_cons.1 within
      rfl
    · rwa [left.same _ (.inl rfl)]

/-- **Further directories leave a cache in place.** -/
theorem grows (place : InPlace root l d) (grows : Grows d d') : InPlace root l d' where
  houses := grows.steady.houses place.houses
  plain := grows.steady.plainIn place.plain
  reach source body there := by
    obtain ⟨usable, k, way⟩ := place.reach source body (grows.file_iff.1 there)
    exact ⟨usable, k, way.names_congr (place.plain.along (.record _)) (List.cons_ne_nil _ _)
      (fun _ _ _ => grows.kept _ _) there⟩

/-- **Files that are left when something is cut off were there before**, and are not below what is
cut off. -/
theorem file_of_cut {m q : Location} {content : Bytes}
    (h : (d.cut q).get? m = some (.file content)) :
    d.get? m = some (.file content) ∧ ¬ q <+: m := by
  obtain ⟨before, apart⟩ := get?_of_cut h
  refine ⟨before, apart ?_⟩
  rintro rfl
  cases before

/-- **Cutting something off below its place leaves a cache in place.** -/
theorem cut (place : InPlace root l d) {ns : List String} (own : Owned ns) :
    InPlace root l (d.cut (l ++ ns)) := by
  have steady : Steady d (d.cut (l ++ ns)) := by
    refine Steady.cut fun ms t => ?_
    rw [List.append_assoc]
    exact place.plain _ t (own.append ms)
  refine ⟨steady.houses place.houses, steady.plainIn place.plain, ?_⟩
  intro source body there
  obtain ⟨before, apart⟩ := file_of_cut there
  obtain ⟨usable, k, way⟩ := place.reach source body before
  refine ⟨usable, k,
    way.names_congr (place.plain.along (.record _)) (List.cons_ne_nil _ _) ?_ there⟩
  intro pre _ within holds
  rw [get?_cut_apart d, holds]
  intro below
  exact apart (below.trans ((List.prefix_append_right_inj l).2 within))

/-- **A file below its place leaves a cache in place.** If it is a record, it must be in reach. -/
theorem put (place : InPlace root l d) {ns : List String} (own : Owned ns)
    (apart : d.get? (l ++ ns) ≠ some .directory) {content : Bytes}
    (new : ∀ source, recordAt l source = l ++ ns →
      RecordInReach root l (d.put (l ++ ns) (.file content)) source content) :
    InPlace root l (d.put (l ++ ns) (.file content)) := by
  have steady : Steady d (d.put (l ++ ns) (.file content)) :=
    Steady.put (by simp [own.ne_nil]) (fun t => place.plain ns t own) (by simp)
  refine ⟨steady.houses place.houses, steady.plainIn place.plain, ?_⟩
  intro source body there
  by_cases same : recordAt l source = l ++ ns
  · rw [same, get?_put_self d _ (by simp [own.ne_nil])] at there
    cases there
    exact new source same
  · have before := there
    rw [get?_put_of_ne d _ same] at before
    obtain ⟨usable, k, way⟩ := place.reach source body before
    refine ⟨usable, k,
      way.names_congr (place.plain.along (.record _)) (List.cons_ne_nil _ _) ?_ there⟩
    intro pre _ _ holds
    rw [get?_put_of_ne d, holds]
    intro e
    rw [← e] at apart
    exact apart holds

/-! ## Storing what is kept -/

variable {c : RewriteCache}

/-- **The path of the cache leads to its place still** when a file has been put where there was no
directory. -/
theorem leadsTo_put (place : InPlace root l d) (there : d.LeadsTo root l) {ns : List String}
    (own : Owned ns) (apart : d.get? (l ++ ns) ≠ some .directory) (content : Bytes) :
    (d.put (l ++ ns) (.file content)).LeadsTo root l := by
  refine there.mono rfl (fun m holds => ?_) (fun m t holds => ?_)
  · rw [get?_put_of_ne d, holds]
    intro e
    rw [e] at holds
    exact apart holds
  · rw [get?_put_of_ne d, holds]
    intro e
    rw [e] at holds
    exact place.plain ns t own holds

/-- **What storing a rewritten source does**: directories are created, and if it succeeds, the
source is put at its place. -/
theorem storeSource (place : InPlace c.root l d) (source : Path) (content : Bytes) :
    ∃ grown, Grows d grown
      ∧ ((∃ e, d.apply (.storeFile (c.sourcePath source) content) = (.error e, grown))
        ∨ d.apply (.storeFile (c.sourcePath source) content)
            = (.ok (), grown.put (sourceAt l source) (.file content))
          ∧ (grown.put (sourceAt l source) (.file content)).LeadsTo c.root l
          ∧ InPlace c.root l (grown.put (sourceAt l source) (.file content))) := by
  obtain ⟨grown, grows, failed | ⟨⟨t, below⟩, apart, stored⟩⟩ :=
    apply_storeFile place.houses place.plain (c.sourcePath_liesAt source) (.source _)
      content
  · exact ⟨grown, grows, .inl failed⟩
  · have place := place.grows grows
    refine ⟨grown, grows, .inr ⟨stored, ?_, ?_⟩⟩
    · exact place.leadsTo_put below.root (.source _) apart content
    · refine place.put (.source _) apart ?_
      intro source' e
      exact absurd e (recordAt_ne_sourceAt l source' source)

/-- **What storing a record does**: directories are created, and if it succeeds, the record is put
at its place. -/
theorem storeRecord (place : InPlace c.root l d) (source : Path) (body : Bytes) :
    ∃ grown, Grows d grown
      ∧ ((∃ e, d.apply (.storeFile (c.recordPath source) body) = (.error e, grown))
        ∨ d.apply (.storeFile (c.recordPath source) body)
            = (.ok (), grown.put (recordAt l source) (.file body))
          ∧ (grown.put (recordAt l source) (.file body)).LeadsTo c.root l
          ∧ InPlace c.root l (grown.put (recordAt l source) (.file body))) := by
  obtain ⟨grown, grows, failed | ⟨⟨t, below⟩, apart, stored⟩⟩ :=
    apply_storeFile place.houses place.plain (c.recordPath_liesAt source) (.record _)
      body
  · exact ⟨grown, grows, .inl failed⟩
  · have place := place.grows grows
    refine ⟨grown, grows, .inr ⟨stored, ?_, ?_⟩⟩
    · exact place.leadsTo_put below.root (.record _) apart body
    · refine place.put (.record _) apart ?_
      intro source' e
      have names := names_eq_of_recordAt_eq (show recordAt l source' = recordAt l source from e)
      obtain ⟨n, ends⟩ := c.exists_recordPath_endsIn source
      obtain ⟨k, way⟩ := below.way
      rw [ends.asksForDirectory] at way
      rw [RecordInReach, RewriteCache.recordPath_eq, recordAt, names]
      refine ⟨?_, k,
        way.put_file (place.plain.along (.record _)) (List.cons_ne_nil _ _) apart body false⟩
      have usable := below.usable
      rwa [RewriteCache.recordPath_eq] at usable

/-- **A record is found**, as long as the path of the cache leads to its place. -/
theorem find_record (place : InPlace c.root l d) (there : d.LeadsTo c.root l) {source : Path}
    {body : Bytes} (h : d.get? (recordAt l source) = some (.file body)) (follow : Bool) :
    d.find follow (c.recordPath source) = .ok (.present (recordAt l source) (.file body)) := by
  obtain ⟨usable, k, way⟩ := place.reach source body h
  obtain ⟨n, ends⟩ := c.exists_recordPath_endsIn source
  refine find_of_names usable there (c.recordPath_liesAt source) (List.cons_ne_nil _ _) ?_
  intro j
  rw [ends.asksForDirectory]
  exact way.names_congr (place.plain.along (.record _)) (List.cons_ne_nil _ _) (fun _ _ _ => id) h

/-- **A record is stored over another one**, as long as the path of the cache leads to its place. -/
theorem storeRecord_over (place : InPlace c.root l d) (there : d.LeadsTo c.root l) {source : Path}
    {old : Bytes} (h : d.get? (recordAt l source) = some (.file old)) (body : Bytes) :
    d.apply (.storeFile (c.recordPath source) body)
      = (.ok (), d.put (recordAt l source) (.file body)) := by
  obtain ⟨n, ends⟩ := c.exists_recordPath_endsIn source
  exact apply_storeFile_over ends (place.find_record there h false) body

end InPlace

/-! ## Order -/

/-- **A cache is in good order.** It is in place, and each of its records that can be read fits the
rewritten source beside it. -/
structure InOrder (root : Path) (l : Location) (good : EntryRecord → Bytes → Prop) (d : Disk) :
    Prop extends InPlace root l d where
  /-- The records fit the rewritten sources beside them. -/
  fits : ∀ source body r content, d.get? (recordAt l source) = some (.file body) →
    EntryRecord.decode? body = some r → d.get? (sourceAt l source) = some (.file content) →
    good r content

namespace InOrder

/-- **A cache without records is in good order.** -/
theorem of_no_records (houses : d.Houses root l) (plain : d.PlainIn l)
    (none : ∀ source body, d.get? (recordAt l source) ≠ some (.file body)) :
    InOrder root l good d where
  toInPlace := .of_no_records houses plain none
  fits source body _ _ there := absurd there (none source body)

/-- **A cache that is in good order by one measure is so by a wider one.** -/
theorem mono (order : InOrder root l good d) {good' : EntryRecord → Bytes → Prop}
    (wider : ∀ r content, good r content → good' r content) : InOrder root l good' d where
  toInPlace := order.toInPlace
  fits source body r content there decoded beside :=
    wider r content (order.fits source body r content there decoded beside)

/-- **A cache stays in good order if it stays in place and gets no files.** -/
theorem of_kept (order : InOrder root l good d) (place : InPlace root l d')
    (kept : ∀ m content, d'.get? m = some (.file content) →
      (∃ source, m = recordAt l source ∨ m = sourceAt l source) →
        d.get? m = some (.file content)) : InOrder root l good d' where
  toInPlace := place
  fits source body r content there decoded beside :=
    order.fits source body r content (kept _ _ there ⟨source, .inl rfl⟩) decoded
      (kept _ _ beside ⟨source, .inr rfl⟩)

/-- **A cache stays in good order as long as it is left alone.** -/
theorem congr (order : InOrder root l good d) (left : LeavesCache root l d d') :
    InOrder root l good d' := by
  refine order.of_kept (order.toInPlace.congr left) ?_
  rintro m content there ⟨source, rfl | rfl⟩
  · rwa [recordAt, left.same _ (.inl rfl)] at there
  · rwa [sourceAt, left.same _ (.inr rfl)] at there

/-- **Further directories leave a cache in good order.** -/
theorem grows (order : InOrder root l good d) (grows : Grows d d') : InOrder root l good d' :=
  order.of_kept (order.toInPlace.grows grows) fun _ _ there _ => grows.file_iff.1 there

/-- **Cutting something off below its place leaves a cache in good order.** -/
theorem cut (order : InOrder root l good d) {ns : List String} (own : Owned ns) :
    InOrder root l good (d.cut (l ++ ns)) :=
  order.of_kept (order.toInPlace.cut own) fun _ _ there _ =>
    (InPlace.file_of_cut there).1

/-- **A file that is put beside what is kept leaves a cache in good order.** -/
theorem put (order : InOrder root l good d) {ns : List String} (own : Owned ns)
    (apart : d.get? (l ++ ns) ≠ some .directory) (noRecord : ns.head? ≠ some "meta")
    (noSource : ns.head? ≠ some "src") (content : Bytes) :
    InOrder root l good (d.put (l ++ ns) (.file content)) := by
  have otherRecord (source : Path) : recordAt l source ≠ l ++ ns := by
    intro e
    exact noRecord (by rw [← List.append_cancel_left e]; rfl)
  have otherSource (source : Path) : sourceAt l source ≠ l ++ ns := by
    intro e
    exact noSource (by rw [← List.append_cancel_left e]; rfl)
  refine order.of_kept (order.toInPlace.put own apart fun source e => ?_) ?_
  · exact absurd e (otherRecord source)
  · rintro m content' there ⟨source, rfl | rfl⟩
    · rwa [get?_put_of_ne d _ (otherRecord source)] at there
    · rwa [get?_put_of_ne d _ (otherSource source)] at there

end InOrder

end Disk

/-- **A change brings no record and no rewritten source.** It creates directories, removes something
in the cache, or stores a file in the cache that is neither. -/
def Change.Harmless (root : Path) : Change → Prop
  | .ensureDirectory _ => True
  | .removeTree p => ∃ ns, RewriteCache.Owned ns ∧ p.LiesAt root ns
  | .storeFile p _ =>
    ∃ ns, RewriteCache.Owned ns ∧ p.LiesAt root ns ∧ ns.head? ≠ some "meta" ∧ ns.head? ≠ some "src"

namespace Disk.InOrder

variable {root : Path} {l : Location} {good : EntryRecord → Bytes → Prop} {d : Disk}

/-- **A change that brings nothing leaves a cache in good order**, whether it succeeds or not. -/
theorem apply (order : InOrder root l good d) {change : Change} (harmless : change.Harmless root) :
    InOrder root l good (d.apply change).2 := by
  cases change with
  | ensureDirectory p => exact order.grows (makeAll_grows d p _)
  | removeTree p =>
      obtain ⟨ns, own, at_⟩ := harmless
      rcases apply_removeTree order.houses order.plain at_ own with same | removed
      · rwa [same]
      · rw [removed]
        exact order.cut own
  | storeFile p content =>
      obtain ⟨ns, own, at_, noRecord, noSource⟩ := harmless
      obtain ⟨grown, grows, ⟨e, failed⟩ | ⟨-, apart, stored⟩⟩ :=
        apply_storeFile order.houses order.plain at_ own content
      · rw [failed]
        exact order.grows grows
      · rw [stored]
        exact (order.grows grows).put own apart noRecord noSource content

/-- **Changes that bring nothing leave a cache in good order.** -/
theorem performs {d' : Disk} (order : InOrder root l good d)
    (h : Performs (Change.Harmless root) d d') : InOrder root l good d' := by
  induction h with
  | done => exact order
  | step change harmless rest ih => exact ih (order.apply harmless)

/-- **The outcome of the changes of a cache is theirs.** -/
theorem perform_snd (d : Disk) (changes : List Change) :
    (RewriteCache.perform d changes).2 = (d.applyAll changes).2 := by
  unfold RewriteCache.perform
  split <;> rename_i e <;> rw [e]

/-- **Keeping a rewritten source leaves a cache in good order**, even if it fails half way. The
record is not left behind beside another source: if there is one, the new one is stored too. -/
theorem write {c : RewriteCache} (order : InOrder c.root l good d) (source : Path)
    (content : Fingerprint) (rewritten : Bytes)
    (new : content.length < UInt64.size → good ⟨content, c.generation⟩ rewritten) :
    InOrder c.root l good (c.write d source content rewritten).2 := by
  rw [RewriteCache.write, perform_snd, RewriteCache.storeChanges, Disk.applyAll]
  obtain ⟨grown, grows, ⟨e, failed⟩ | ⟨stored, there, place⟩⟩ :=
    order.toInPlace.storeSource source rewritten
  · rw [failed]
    exact order.grows grows
  have order := order.grows grows
  rw [stored]
  simp only [Disk.applyAll]
  -- What the other sources have is as it was.
  have others {d' : Disk} (source' : Path) (ne : source'.names ≠ source.names) {record : Bytes}
      {r : EntryRecord} {b : Bytes} (decoded : EntryRecord.decode? record = some r)
      (thereBefore : d'.get? (recordAt l source') = some (.file record))
      (besideBefore : d'.get? (sourceAt l source') = some (.file b))
      (grows : Grows (grown.put (sourceAt l source) (.file rewritten)) d') : good r b := by
    have record' := grows.file_iff.1 thereBefore
    have source'' := grows.file_iff.1 besideBefore
    rw [get?_put_of_ne grown _ (recordAt_ne_sourceAt l source' source)] at record'
    rw [get?_put_of_ne grown _ fun e => ne (names_eq_of_sourceAt_eq e)] at source''
    exact order.fits source' record r b record' decoded source''
  obtain ⟨grown', grows', ⟨e, failed⟩ | ⟨stored', there', place'⟩⟩ :=
    place.storeRecord source (EntryRecord.toJson ⟨content, c.generation⟩).toBytes
  · rw [failed]
    refine ⟨place.grows grows', ?_⟩
    intro source' record r b thereNow decoded besideNow
    by_cases same : source'.names = source.names
    · -- The record that is there would have been replaced.
      have record' := grows'.file_iff.1 thereNow
      rw [recordAt_congr l same] at record'
      rw [place.storeRecord_over there record'] at failed
      cases failed
    · exact others source' same decoded thereNow besideNow grows'
  · rw [stored']
    simp only
    refine ⟨place', ?_⟩
    intro source' record r b thereNow decoded besideNow
    by_cases same : source'.names = source.names
    · rw [recordAt_congr l same, get?_put_self grown' _ (recordAt_ne_nil l source)] at thereNow
      rw [sourceAt_congr l same,
        get?_put_of_ne grown' _ (recordAt_ne_sourceAt l source source).symm] at besideNow
      have source'' := grows'.file_iff.1 besideNow
      rw [get?_put_self grown _ (sourceAt_ne_nil l source)] at source''
      cases thereNow
      cases source''
      rw [EntryRecord.decode?_toBytes] at decoded
      split at decoded
      · rename_i short
        cases decoded
        exact new short
      · cases decoded
    · rw [get?_put_of_ne grown' _ fun e => same (names_eq_of_recordAt_eq e)] at thereNow
      rw [get?_put_of_ne grown' _ (recordAt_ne_sourceAt l source source').symm] at besideNow
      exact others source' same decoded thereNow besideNow grows'

end Disk.InOrder

end Seams
