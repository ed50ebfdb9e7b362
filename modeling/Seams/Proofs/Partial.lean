import Mathlib.Data.List.Basic
import Mathlib.Tactic.Common
import Seams.Proofs.Creation
import Seams.Proofs.Overlap

/-! # Changes that are cut short
A program can be killed at any time, also in the middle of a change. What it leaves behind is then
partly as before and partly as it would be afterwards, and there may be files with temporary names
in which something was to be written.
Main definitions:
* **`Disk.Temporary`** — places with temporary names;
* **`Disk.Midway`** — a disk in the middle of a change;
* **`Disk.Partly`** — how far a list of changes has been made;
* **`Disk.RecordsAre`** — the records of all sources that can be read have a property. -/

namespace Seams

namespace Disk

open RewriteCache (Owned recordNames)

/-! ## Temporary names -/

/-- **A place with a temporary name**, as a file has in which something is written before it is
moved to its place. -/
def Temporary (q : Location) : Prop :=
  ∃ front cs, cs.length = 6 ∧ (∀ c ∈ cs, c.isAlphanum = true)
    ∧ q = front ++ [".tmp" ++ String.ofList cs]

/-- **A place with a name that ends in `.json` is not temporary.** -/
theorem not_temporary_json (front : Location) (s : String) :
    ¬ Temporary (front ++ [s ++ ".json"]) := by
  rintro ⟨front', cs, length, alphanumeric, same⟩
  have names : s ++ ".json" = ".tmp" ++ String.ofList cs := by
    simpa using (List.append_inj' same rfl).2
  have chars : s.toList ++ ['.', 'j', 's', 'o', 'n'] = ['.', 't', 'm', 'p'] ++ cs := by
    have texts := congrArg String.toList names
    simp only [String.toList_append, String.toList_ofList] at texts
    exact texts
  -- The last five characters are among the six, so one of the six is a dot.
  have five : s.toList.length = 5 := by
    have lengths := congrArg List.length chars
    simp only [List.length_append, List.length_cons, List.length_nil, length] at lengths
    omega
  have dots := congrArg (List.drop 5) chars
  rw [List.drop_left' five] at dots
  have tail : (['.', 't', 'm', 'p'] ++ cs).drop 5 = cs.drop 1 := rfl
  have dot : '.' ∈ cs.drop 1 := by
    rw [← tail, ← dots]
    decide
  exact absurd (alphanumeric _ (List.mem_of_mem_drop dot)) (by decide)

variable {root p : Path} {l q : Location} {d d' m : Disk} {change : Change}
  {changes others : List Change} {touched : Location → Prop} {content : Bytes}

/-! ## In the middle of a change -/

/-- **A disk in the middle of a change.** Each place is as before or as afterwards, whatever has
been done first; and where there was nothing, there may be a file with a temporary name. -/
structure Midway (d : Disk) (change : Change) (m : Disk) : Prop where
  /-- Relative paths start at the same place. -/
  current : m.current = d.current
  /-- Each place is as before or as afterwards, or there is a file with a temporary name. -/
  places : ∀ q, m.get? q = d.get? q ∨ m.get? q = (d.apply change).2.get? q
    ∨ Temporary q ∧ d.get? q = none ∧ ∃ content, m.get? q = some (.file content)

/-- **A change leaves relative paths where they start.** -/
theorem current_apply (d : Disk) (change : Change) : (d.apply change).2.current = d.current := by
  cases change with
  | ensureDirectory p => exact (makeAll_grows d p _).current
  | removeTree p =>
      simp only [apply]
      split
      · rename_i removed
        unfold removeAll at removed
        split at removed <;> cases removed
        rfl
      · rfl
      · rfl
  | storeFile p content =>
      simp only [apply]
      split
      · rfl
      rename_i above _
      have grown := (makeAll_grows d above (above.text.utf8ByteSize + 2)).current
      split <;> rename_i made <;> rw [made] at grown
      · exact grown
      split
      · rename_i replaced
        obtain ⟨place, rfl⟩ := replaceFile_put replaced
        exact grown
      · exact grown

/-- **A change that is made is a middle**, whether it succeeds or not. -/
theorem Midway.whole (d : Disk) (change : Change) : d.Midway change (d.apply change).2 :=
  ⟨current_apply d change, fun _ => .inr (.inl rfl)⟩

namespace Midway

/-- **In the middle of a change the links are the same.** -/
theorem steady (mid : d.Midway change m) (house : d.Houses root l) (plain : d.PlainIn l)
    (touches : change.Touches root l touched) : Steady d m := by
  refine ⟨mid.current, fun q t => ?_⟩
  rcases mid.places q with same | same | ⟨-, free, content, there⟩
  · rw [same]
  · rw [same]
    exact (spares_apply house plain touches).1.links q t
  · simp [free, there]

/-- **A file that there is in the middle of a change was there before, or is there afterwards**,
unless its name is temporary. -/
theorem file (mid : d.Midway change m) (lasting : ¬ Temporary q)
    (there : m.get? q = some (.file content)) :
    d.get? q = some (.file content) ∨ (d.apply change).2.get? q = some (.file content) := by
  rcases mid.places q with same | same | ⟨temporary, -⟩
  · exact .inl (same ▸ there)
  · exact .inr (same ▸ there)
  · exact absurd temporary lasting

/-- **In the middle of a change, files at places that it does not touch are as they were.** -/
theorem spares (mid : d.Midway change m) (house : d.Houses root l) (plain : d.PlainIn l)
    (touches : change.Touches root l touched) (free : ¬ touched q) (lasting : ¬ Temporary q) :
    m.get? q = some (.file content) ↔ d.get? q = some (.file content) := by
  have spared := (spares_apply house plain touches).2 q content free
  rcases mid.places q with same | same | ⟨temporary, -⟩
  · rw [same]
  · rw [same]
    exact spared
  · exact absurd temporary lasting

end Midway

/-! ## Changes that are made in part -/

/-- **How far a list of changes has been made.** It may stop before or in the middle of any of
them. -/
inductive Partly : Disk → List Change → Disk → Prop where
  /-- No more of the changes is made. -/
  | rest (d : Disk) (changes : List Change) : Partly d changes d
  /-- The first of the changes is made in part. -/
  | within {d m : Disk} {change : Change} (changes : List Change) (mid : d.Midway change m) :
      Partly d (change :: changes) m
  /-- The first of the changes succeeds, and more of them are made. -/
  | next {d d' m : Disk} {change : Change} {changes : List Change}
      (ok : d.apply change = (.ok (), d')) (more : Partly d' changes m) :
      Partly d (change :: changes) m

namespace Partly

/-- **Changes that are made in two parts**: it may stop in the first, or the first succeeds and it
may stop in the second. -/
theorem append (h : d.Partly (changes ++ others) m) : d.Partly changes m
    ∨ ∃ d', d.applyAll changes = (.ok (), d') ∧ d'.Partly others m := by
  induction changes generalizing d with
  | nil => exact .inr ⟨d, rfl, h⟩
  | cons change changes ih =>
      cases h with
      | rest => exact .inl (.rest _ _)
      | within _ mid => exact .inl (.within _ mid)
      | @next _ d₁ _ _ _ ok more =>
          rcases ih more with first | ⟨d', first, second⟩
          · exact .inl (.next ok first)
          · refine .inr ⟨d', ?_, second⟩
            rw [applyAll, ok]
            exact first

/-- **The first of some changes are a part of them.** -/
theorem take (d : Disk) (changes : List Change) (n : Nat) :
    d.Partly changes (d.applyAll (changes.take n)).2 := by
  induction changes generalizing d n with
  | nil =>
      rw [List.take_nil]
      exact .rest d []
  | cons change changes ih =>
      cases n with
      | zero => exact .rest d _
      | succ n =>
          have mid := Midway.whole d change
          rcases applied : d.apply change with ⟨result, d'⟩
          rw [applied] at mid
          rw [List.take_succ_cons, Disk.applyAll, applied]
          cases result with
          | error e => exact .within _ mid
          | ok u => exact .next applied (ih d' n)

/-- **Changes that are made one after the other, up to the first that fails, are made in part.** -/
theorem applyAll (d : Disk) (changes : List Change) : d.Partly changes (d.applyAll changes).2 := by
  have all := take d changes changes.length
  rwa [List.take_length] at all

/-- **However far changes have been made, the links are the same**, and files at places that none of
them touches are as they were. -/
theorem spares (h : d.Partly changes m) (house : d.Houses root l) (plain : d.PlainIn l)
    (touches : ∀ change ∈ changes, change.Touches root l touched) :
    Steady d m ∧ ∀ q content, ¬ touched q → ¬ Temporary q →
      (m.get? q = some (.file content) ↔ d.get? q = some (.file content)) := by
  induction h with
  | rest => exact ⟨.refl _, fun _ _ _ _ => Iff.rfl⟩
  | within changes mid =>
      have here := touches _ List.mem_cons_self
      exact ⟨mid.steady house plain here, fun q content free lasting =>
        mid.spares house plain here free lasting⟩
  | next ok more ih =>
      obtain ⟨steady, spared⟩ := spares_apply house plain (touches _ List.mem_cons_self)
      rw [ok] at steady spared
      obtain ⟨steady', spared'⟩ := ih (steady.houses house) (steady.plainIn plain)
        fun change mem => touches change (List.mem_cons_of_mem _ mem)
      exact ⟨steady.trans steady', fun q content free lasting =>
        (spared' q content free lasting).trans (spared q content free)⟩

end Partly

/-! ## Records -/

/-- **The records of all sources that can be read have a property.** -/
def RecordsAre (l : Location) (good : EntryRecord → Prop) (d : Disk) : Prop :=
  ∀ source body r, d.get? (recordAt l source) = some (.file body) →
    EntryRecord.decode? body = some r → good r

/-- **The place of a record is not temporary.** -/
theorem not_temporary_recordAt (l : Location) (source : Path) :
    ¬ Temporary (recordAt l source) := by
  have ends : recordAt l source
      = (l ++ "meta" :: source.names.dropLast) ++ [source.names.getLast?.getD "" ++ ".json"] := by
    simp [recordAt, recordNames]
  rw [ends]
  exact not_temporary_json _ _

end Disk

/-- **The records that a change stores have a property**, if it stores any. -/
def Change.BringsOnly (root : Path) (l : Location) (good : EntryRecord → Prop) : Change → Prop
  | .storeFile p body => ∃ ns, RewriteCache.Owned ns ∧ p.LiesAt root ns
      ∧ ((∀ source, Disk.recordAt l source ≠ l ++ ns)
        ∨ ∀ r, EntryRecord.decode? body = some r → good r)
  | _ => True

namespace Disk

open RewriteCache (Owned)

variable {root p : Path} {l q : Location} {d d' m : Disk} {change : Change} {changes : List Change}
  {touched : Location → Prop} {content : Bytes} {good : EntryRecord → Prop}

/-- **A file that is stored is the only one that comes.** -/
theorem file_of_storeFile {ns : List String} {b : Bytes} (house : d.Houses root l)
    (plain : d.PlainIn l) (at_ : p.LiesAt root ns) (own : Owned ns)
    (after : (d.apply (.storeFile p content)).2.get? q = some (.file b)) :
    d.get? q = some (.file b) ∨ q = l ++ ns ∧ b = content := by
  obtain ⟨grown, grows, ⟨e, failed⟩ | ⟨-, -, stored⟩⟩ := apply_storeFile house plain at_ own content
  · rw [failed] at after
    exact .inl (grows.file_iff.1 after)
  · rw [stored] at after
    by_cases here : q = l ++ ns
    · subst here
      rw [get?_put_self _ _ (by simp [own.ne_nil])] at after
      cases after
      exact .inr ⟨rfl, rfl⟩
    · rw [get?_put_of_ne _ _ here] at after
      exact .inl (grows.file_iff.1 after)

/-- **A change that stores no file brings none.** -/
theorem file_before_apply (storesNone : ∀ p b, change ≠ .storeFile p b)
    (after : (d.apply change).2.get? q = some (.file content)) :
    d.get? q = some (.file content) :=
  (Performs.step change storesNone (.done _) :
    Performs (fun change => ∀ p b, change ≠ .storeFile p b) d _).file_before after

/-- **Records that have a property keep it** when only such records are stored. -/
theorem RecordsAre.apply (are : d.RecordsAre l good) (house : d.Houses root l)
    (plain : d.PlainIn l) (brings : change.BringsOnly root l good) :
    (d.apply change).2.RecordsAre l good := by
  intro source body r after decoded
  cases change with
  | storeFile p content =>
      obtain ⟨ns, own, at_, which⟩ := brings
      rcases file_of_storeFile house plain at_ own after with before | ⟨here, rfl⟩
      · exact are source body r before decoded
      · exact which.elim (fun other => absurd here (other source)) fun kept => kept r decoded
  | ensureDirectory p =>
      exact are source body r (file_before_apply (by simp) after) decoded
  | removeTree p =>
      exact are source body r (file_before_apply (by simp) after) decoded

/-- **Records that have a property keep it**, however far changes have been made. -/
theorem Partly.recordsAre (h : d.Partly changes m) (house : d.Houses root l) (plain : d.PlainIn l)
    (touches : ∀ change ∈ changes, change.Touches root l touched)
    (brings : ∀ change ∈ changes, change.BringsOnly root l good) (are : d.RecordsAre l good) :
    m.RecordsAre l good := by
  induction h with
  | rest => exact are
  | within changes mid =>
      intro source body r there decoded
      rcases mid.file (not_temporary_recordAt l source) there with before | after
      · exact are source body r before decoded
      · exact are.apply house plain (brings _ List.mem_cons_self) source body r after decoded
  | next ok more ih =>
      obtain ⟨steady, -⟩ := spares_apply house plain (touches _ List.mem_cons_self)
      have are' := are.apply house plain (brings _ List.mem_cons_self)
      rw [ok] at steady are'
      exact ih (steady.houses house) (steady.plainIn plain)
        (fun change mem => touches change (List.mem_cons_of_mem _ mem))
        (fun change mem => brings change (List.mem_cons_of_mem _ mem)) are'

end Disk

end Seams
