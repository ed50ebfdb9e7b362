import Mathlib.Data.List.Dedup
import Mathlib.Tactic.Common
import Seams.Proofs.Census

/-! # Caches as tables
A cache answers as a table would that is written and cleared in the same way: what is valid is what
was written last, what is read is what was written last, and what is counted is for how many sources
something was written. Caches of all generations in one directory share one table.
Main definitions:
* **`RewriteCache.Call`** — a call of a cache, and **`RewriteCache.Answer`** — what it is answered;
* **`RewriteCache.Table`** — what has been written since the cache was last cleared;
* **`RewriteCache.answers`** — the answers to calls one after the other;
* **`RewriteCache.Holds`** — a cache holds a table. -/

namespace Seams

open RewriteCache (Owned)

namespace RewriteCache

/-! ## Calls -/

/-- **A call of a cache** in the generation of who calls. -/
inductive Call where
  /-- The cache is opened. -/
  | opens (generation : UInt64)
  /-- A rewritten source is kept. -/
  | write (generation : UInt64) (place : Location) (content : Fingerprint) (rewritten : Bytes)
  /-- All rewritten sources are dropped. -/
  | clear (generation : UInt64)
  /-- Whether there is a rewritten source that was made from a content. -/
  | hasValid (generation : UInt64) (place : Location) (content : Fingerprint)
  /-- The rewritten source of a place. -/
  | read (generation : UInt64) (place : Location)
  /-- The number of rewritten sources. -/
  | count (generation : UInt64)

/-- **A call for sources as there can be some**: they are at places that are made of names, and what
is kept was made from a content whose length is a word. -/
def Call.Regular : Call → Prop
  | .write _ place content _ => (∀ n ∈ place, Path.IsName n) ∧ content.length < UInt64.size
  | .hasValid _ place _ | .read _ place => ∀ n ∈ place, Path.IsName n
  | _ => True

/-- **What a call is answered.** -/
inductive Answer where
  /-- It is done. -/
  | done
  /-- It has failed. -/
  | failed
  /-- Whether there is what was asked for. -/
  | verdict (valid : Bool)
  /-- What was found, if anything. -/
  | found (rewritten : Option Bytes)
  /-- How many there are. -/
  | number (n : Nat)
  deriving DecidableEq

/-- **The answer to a call that changes something.** -/
def Answer.of {ε α : Type} : Except ε α → Answer
  | .ok _ => .done
  | .error _ => .failed

/-- **What a call does to the cache in a directory.** -/
def serve (root : Path) (d : Disk) : Call → Answer × Disk
  | .opens g =>
    let (result, d) := create d root g
    (.of result, d)
  | .write g place content rewritten =>
    let (result, d) := (⟨root, g⟩ : RewriteCache).write d place.path content rewritten
    (.of result, d)
  | .clear g =>
    let (result, d) := (⟨root, g⟩ : RewriteCache).clear d
    (.of result, d)
  | .hasValid g place content =>
    (.verdict ((⟨root, g⟩ : RewriteCache).hasValid d place.path content), d)
  | .read g place => (.found ((⟨root, g⟩ : RewriteCache).read d place.path).toOption, d)
  | .count g => (.number ((⟨root, g⟩ : RewriteCache).count d), d)

/-! ## Tables -/

/-- **What has been written since the cache was last cleared**, the latest first: for which place,
what it was made from and in which generation, and the rewritten source. -/
abbrev Table := List (Location × EntryRecord × Bytes)

/-- **What a call does to a table.** Whatever is written for a place hides what was written for it
before. -/
def Table.serve (t : Table) : Call → Answer × Table
  | .opens _ => (.done, t)
  | .write g place content rewritten => (.done, (place, ⟨content, g⟩, rewritten) :: t)
  | .clear _ => (.done, [])
  | .hasValid g place content =>
    (.verdict ((t.lookup place).any fun entry => entry.1 == ⟨content, g⟩), t)
  | .read _ place => (.found ((t.lookup place).map Prod.snd), t)
  | .count _ => (.number (t.map Prod.fst).dedup.length, t)

/-- **The answers to calls one after the other.** -/
def answers {σ : Type} (serve : σ → Call → Answer × σ) (state : σ) : List Call → List Answer
  | [] => []
  | call :: calls => (serve state call).1 :: answers serve (serve state call).2 calls

/-! ## Tables that are held -/

/-- **A cache holds a table**: it keeps what was written last for each place, and no other rewritten
source. -/
structure Holds (root : Path) (l : Location) (t : Table) (d : Disk) : Prop where
  /-- The cache is open. -/
  isOpen : ∀ g, (⟨root, g⟩ : RewriteCache).IsOpen l d
  /-- Its place is tidy. -/
  tidy : d.Tidy l
  /-- What was written last is kept. -/
  keeps : ∀ place record rewritten, t.lookup place = some (record, rewritten) →
    (⟨root, record.generation⟩ : RewriteCache).Keeps l place.path record.source rewritten d
  /-- There is no other rewritten source. -/
  only : ∀ place content, d.get? (l ++ "src" :: place) = some (.file content) →
    place ∈ t.map Prod.fst
  /-- The places are made of names. -/
  names : ∀ place ∈ t.map Prod.fst, ∀ n ∈ place, Path.IsName n

variable {root : Path} {l place : Location} {t : Table} {d d' : Disk} {g : UInt64}
  {content : Fingerprint} {rewritten : Bytes}

/-- **Something is found in a table for the places for which something was written.** -/
theorem mem_places_iff :
    place ∈ t.map Prod.fst ↔ ∃ record rewritten, t.lookup place = some (record, rewritten) := by
  rw [← Prod.exists (p := fun entry => t.lookup place = some entry), ← Option.isSome_iff_exists,
    List.lookup_isSome_iff, List.mem_map]
  exact exists_congr fun entry => and_congr_right fun _ => by rw [beq_iff_eq, eq_comm]

/-- **What is kept stays when directories are created.** -/
theorem Keeps.grows {c : RewriteCache} {source : Path}
    (keeps : c.Keeps l source content rewritten d) (grows : Disk.Grows d d') :
    c.Keeps l source content rewritten d' := by
  obtain ⟨body, record, told⟩ := keeps.record
  exact ⟨grows.steady.houses keeps.houses, grows.steady.plainIn keeps.plain,
    keeps.there.mono grows.current (fun m => grows.kept m _) fun m t => grows.kept m _,
    keeps.named, ⟨body, record.congr keeps.plain fun _ _ _ _ _ => grows.kept _ _, told⟩,
    keeps.source.congr keeps.plain fun _ _ _ _ _ => grows.kept _ _⟩

/-- **Among the rewritten sources, only the one that is kept is new.** -/
theorem Writes.source_cases {c : RewriteCache} {source : Path} {m : Disk} {bytes : Bytes}
    (writes : c.Writes l source content rewritten d m d')
    (there : d'.get? (l ++ "src" :: place) = some (.file bytes)) :
    place = source.names ∨ d.get? (l ++ "src" :: place) = some (.file bytes) := by
  have ne : "src" :: place ≠ [] := List.cons_ne_nil _ _
  -- The record is stored last, and beside all rewritten sources.
  have before : m.get? (l ++ "src" :: place) = some (.file bytes) := by
    rcases writes.recordStored.get?_cases ("src" :: place) ne with
      ⟨here, -⟩ | ⟨above, -⟩ | same
    · simp at here
    · exact absurd above (not_prefix_dropLast (by decide) _ _)
    · rwa [same] at there
  rcases writes.sourceStored.get?_cases ("src" :: place) ne with
    ⟨here, -⟩ | ⟨-, directory⟩ | same
  · exact .inl (List.cons.inj here).2
  · rw [directory] at before
    cases before
  · exact .inr (same.symm.trans before)

namespace Holds

/-! ### Questions -/

/-- **What is read was written.** -/
theorem mem_of_read (holds : Holds root l t d) (names : ∀ n ∈ place, Path.IsName n)
    (h : (⟨root, g⟩ : RewriteCache).read d place.path = .ok rewritten) :
    place ∈ t.map Prod.fst := by
  have isOpen := holds.isOpen g
  have there := Disk.get?_of_read isOpen.houses isOpen.plain
    (sourcePath_liesAt ⟨root, g⟩ place.path) (.source _) (read_eq_ok_iff.1 h)
  rw [Disk.names_path names] at there
  exact holds.only place rewritten there

/-- **What is valid is what was written last.** -/
theorem hasValid (holds : Holds root l t d) (names : ∀ n ∈ place, Path.IsName n) :
    (⟨root, g⟩ : RewriteCache).hasValid d place.path content
      = (t.lookup place).any fun entry => entry.1 == ⟨content, g⟩ := by
  rw [Bool.eq_iff_iff, hasValid_iff]
  cases found : t.lookup place with
  | none =>
      refine iff_of_false ?_ (by simp)
      rintro ⟨-, rewritten, read⟩
      obtain ⟨record, rewritten, found'⟩ := mem_places_iff.1 (holds.mem_of_read names read)
      rw [found] at found'
      cases found'
  | some entry =>
      obtain ⟨record, rewritten⟩ := entry
      have keeps := holds.keeps place record rewritten found
      obtain ⟨body, reach, told⟩ := keeps.record
      rw [Option.any_some, beq_iff_eq]
      constructor
      · rintro ⟨⟨body', read, told'⟩, -⟩
        obtain rfl : body = body' := Except.ok.inj
          ((reach.read keeps.plain keeps.there).symm.trans read)
        exact Option.some.inj (told.symm.trans told')
      · rintro rfl
        exact hasValid_iff.1 keeps.hasValid

/-- **What is read is what was written last.** -/
theorem read (holds : Holds root l t d) (names : ∀ n ∈ place, Path.IsName n) :
    ((⟨root, g⟩ : RewriteCache).read d place.path).toOption
      = (t.lookup place).map Prod.snd := by
  cases found : t.lookup place with
  | none =>
      cases read : (⟨root, g⟩ : RewriteCache).read d place.path with
      | error e => rfl
      | ok rewritten =>
          obtain ⟨record, rewritten, found'⟩ := mem_places_iff.1 (holds.mem_of_read names read)
          rw [found] at found'
          cases found'
  | some entry =>
      obtain ⟨record, rewritten⟩ := entry
      -- The path of a rewritten source is the same in all generations.
      have kept := read_eq_ok_iff.1 (holds.keeps place record rewritten found).read
      have read : (⟨root, g⟩ : RewriteCache).read d place.path = .ok rewritten :=
        read_eq_ok_iff.2 kept
      rw [read]
      rfl

/-- **What is counted are the places for which something was written.** -/
theorem count (holds : Holds root l t d) :
    (⟨root, g⟩ : RewriteCache).count d = (t.map Prod.fst).dedup.length := by
  have nodup := List.nodup_dedup (t.map Prod.fst)
  refine (holds.isOpen g).count_eq holds.tidy nodup (fun place mem => ?_) (fun place mem => ?_)
    fun place content there => ?_
  · exact holds.names place (List.mem_dedup.1 mem)
  · obtain ⟨record, rewritten, found⟩ := mem_places_iff.1 (List.mem_dedup.1 mem)
    have keeps := holds.keeps place record rewritten found
    have named := keeps.named
    have source := keeps.source
    rw [Disk.names_path (holds.names place (List.mem_dedup.1 mem))] at named source
    exact ⟨named, rewritten, source⟩
  · exact List.mem_dedup.2 (holds.only place content there)

/-! ### Changes -/

/-- **A cache that is opened anew holds what it held.** -/
theorem opens {c : RewriteCache} (holds : Holds root l t d)
    (h : create d root g = (.ok c, d')) : Holds root l t d' := by
  obtain ⟨rfl, opened⟩ := c.create_ok h
  have isOpen := holds.isOpen g
  -- Only directories are created, and no file is among them.
  have grows := (⟨root, g⟩ : RewriteCache).grows_of_opened opened
  have tidy := holds.tidy.applyAll (⟨root, g⟩ : RewriteCache).openChanges
  rw [opened] at tidy
  exact ⟨fun _ => (isOpen_of_opened isOpen.houses isOpen.plain opened).of_root rfl, tidy,
    fun place record rewritten found => (holds.keeps place record rewritten found).grows grows,
    fun place content there => holds.only place content (grows.file_iff.1 there), holds.names⟩

/-- **A rewritten source that is kept is written to the table.** -/
theorem write (holds : Holds root l t d) (names : ∀ n ∈ place, Path.IsName n)
    (short : content.length < UInt64.size)
    (h : (⟨root, g⟩ : RewriteCache).write d place.path content rewritten = (.ok (), d')) :
    Holds root l ((place, ⟨content, g⟩, rewritten) :: t) d' := by
  have isOpen := holds.isOpen g
  have stored := write_ok.1 h
  have isOpen' := isOpen.write place.path content rewritten
  rw [h] at isOpen'
  have tidy := holds.tidy.applyAll
    ((⟨root, g⟩ : RewriteCache).storeChanges place.path content rewritten)
  rw [stored] at tidy
  obtain ⟨m, writes⟩ := isOpen.writes h
  refine ⟨fun _ => isOpen'.of_root rfl, tidy, fun other record bytes found => ?_,
    fun other bytes there => ?_, ?_⟩
  · -- What is written is looked up first, and what was written for other places is left alone.
    rw [List.lookup_cons] at found
    by_cases same : other = place
    · subst same
      rw [beq_self_eq_true] at found
      cases found
      obtain ⟨_, first, -⟩ := Disk.applyAll_cons_ok stored
      exact .of_stored isOpen.houses isOpen.plain (Disk.names_ne_nil_of_stored first) short stored
    · rw [beq_eq_false_iff_ne.2 same] at found
      have mem := mem_places_iff.2 ⟨record, bytes, found⟩
      have apart : other.path.names ≠ place.path.names := by
        rwa [Disk.names_path names, Disk.names_path (holds.names other mem)]
      have run := Disk.Performs.applyAll d
        (storeChanges_beside ⟨root, g⟩ apart content rewritten)
      rw [stored] at run
      exact (holds.keeps other record bytes found).performs run
  · rcases writes.source_cases there with here | before
    · rw [here, Disk.names_path names]
      exact List.mem_cons_self
    · exact List.mem_cons_of_mem _ (holds.only other bytes before)
  · rw [List.map_cons, List.forall_mem_cons]
    exact ⟨names, holds.names⟩

/-- **A cache that is cleared holds nothing.** -/
theorem clear (holds : Holds root l t d)
    (h : (⟨root, g⟩ : RewriteCache).clear d = (.ok (), d')) : Holds root l [] d' := by
  have cleared := perform_ok.1 h
  obtain ⟨isOpen, bare⟩ := (holds.isOpen g).cleared cleared
  have tidy := holds.tidy.applyAll (⟨root, g⟩ : RewriteCache).clearChanges
  rw [cleared] at tidy
  refine ⟨fun _ => isOpen.of_root rfl, tidy, (fun place record bytes found => by cases found),
    fun place content there => ?_, fun place mem => absurd mem List.not_mem_nil⟩
  have below : l ++ ["src"] <+: l ++ "src" :: place :=
    (List.prefix_append_right_inj l).2 (by simp)
  cases (bare _ _ below there).1

/-- **A cache that is opened where nothing is holds nothing.** -/
theorem of_absent {c : RewriteCache} (houses : d.Houses root l)
    (absent : ∀ ns, d.get? (l ++ ns) = none) (h : create d root g = (.ok c, d')) :
    Holds root l [] d' := by
  obtain ⟨rfl, opened⟩ := c.create_ok h
  have plain : d.PlainIn l := fun ns t _ there => by
    rw [absent] at there
    cases there
  have grows := (⟨root, g⟩ : RewriteCache).grows_of_opened opened
  have tidy := (Disk.Tidy.of_absent absent).applyAll (⟨root, g⟩ : RewriteCache).openChanges
  rw [opened] at tidy
  have isOpen : (⟨root, g⟩ : RewriteCache).IsOpen l d' := isOpen_of_opened houses plain opened
  refine ⟨fun _ => isOpen.of_root rfl, tidy, fun place record bytes found => ?_,
    fun place content there => ?_, fun place mem => absurd mem List.not_mem_nil⟩
  · rw [List.lookup_nil] at found
    cases found
  · have before := grows.file_iff.1 there
    rw [absent] at before
    cases before

/-- **A cache answers a call as the table does that it holds**, and holds what becomes of it, unless
the call fails. -/
theorem serve (holds : Holds root l t d) {call : Call} (regular : call.Regular)
    (ok : (RewriteCache.serve root d call).1 ≠ .failed) :
    (RewriteCache.serve root d call).1 = (t.serve call).1
      ∧ Holds root l (t.serve call).2 (RewriteCache.serve root d call).2 := by
  cases call with
  | opens g =>
      simp only [RewriteCache.serve] at ok ⊢
      rcases opened : create d root g with ⟨_ | c, d'⟩ <;> rw [opened] at ok
      · exact absurd rfl ok
      · exact ⟨rfl, holds.opens opened⟩
  | write g place content rewritten =>
      simp only [RewriteCache.serve] at ok ⊢
      rcases written : (⟨root, g⟩ : RewriteCache).write d place.path content rewritten with
        ⟨_ | c, d'⟩ <;> rw [written] at ok
      · exact absurd rfl ok
      · exact ⟨rfl, holds.write regular.1 regular.2 written⟩
  | clear g =>
      simp only [RewriteCache.serve] at ok ⊢
      rcases cleared : (⟨root, g⟩ : RewriteCache).clear d with ⟨_ | c, d'⟩ <;>
        rw [cleared] at ok
      · exact absurd rfl ok
      · exact ⟨rfl, holds.clear cleared⟩
  | hasValid g place content => exact ⟨congrArg Answer.verdict (holds.hasValid regular), holds⟩
  | read g place => exact ⟨congrArg Answer.found (holds.read regular), holds⟩
  | count g => exact ⟨congrArg Answer.number holds.count, holds⟩

/-- **A cache answers calls as the table does that it holds**, unless one of them fails. -/
theorem answers (holds : Holds root l t d) {calls : List Call}
    (regular : ∀ call ∈ calls, call.Regular)
    (ok : .failed ∉ RewriteCache.answers (RewriteCache.serve root) d calls) :
    RewriteCache.answers (RewriteCache.serve root) d calls
      = RewriteCache.answers Table.serve t calls := by
  induction calls generalizing t d with
  | nil => rfl
  | cons call calls ih =>
      rw [RewriteCache.answers, List.mem_cons, not_or] at ok
      obtain ⟨first, rest⟩ := List.forall_mem_cons.1 regular
      obtain ⟨answer, holds'⟩ := holds.serve first (Ne.symm ok.1)
      rw [RewriteCache.answers, RewriteCache.answers, answer, ih holds' rest ok.2]

end Holds

/-- **A cache answers calls as a table would.** A cache is opened where there is nothing, and then
called in any order and in any generations; it may be opened again in between. As long as no call
fails, a source is valid exactly if it was written last with the same content in the same
generation, what is read is what was written last, and nothing is read if nothing was written; and
as many sources are counted as something was written for. Here only what has been written since the
cache was last cleared counts. -/
theorem answers_eq_table {c : RewriteCache} (houses : d.Houses root l)
    (absent : ∀ ns, d.get? (l ++ ns) = none) (opened : create d root g = (.ok c, d'))
    {calls : List Call} (regular : ∀ call ∈ calls, call.Regular)
    (ok : .failed ∉ answers (serve root) d' calls) :
    answers (serve root) d' calls = answers Table.serve [] calls :=
  (Holds.of_absent houses absent opened).answers regular ok

/-- **A disk without a cache**, or anything else. -/
def noCache : Disk := ⟨[], []⟩

/-- **Calls in two generations**: a source is written in one and then in the other, one is written
beside it, and all are dropped in the end. -/
def callsOfTwo : List Call :=
  [.write 7 ["s", "a.php"] ⟨0, 3⟩ (bytesOf "old"), .opens 8,
    .write 7 ["s", "a"] ⟨1, 3⟩ (bytesOf "new"), .count 7, .hasValid 7 ["s", "a.php"] ⟨0, 3⟩,
    .write 8 ["s", "a.php"] ⟨0, 3⟩ (bytesOf "newer"), .hasValid 7 ["s", "a.php"] ⟨0, 3⟩,
    .hasValid 8 ["s", "a.php"] ⟨0, 3⟩, .read 7 ["s", "a.php"], .count 7,
    .read 7 ["s"], .clear 7, .read 8 ["s", "a.php"], .count 8]

/-- **What one generation writes hides what another has written.** -/
theorem answers_eq_table_hidden :
    ∃ d, create noCache ⟨"/c"⟩ 7 = (.ok smallCache, d)
      ∧ answers (serve ⟨"/c"⟩) d callsOfTwo
        = [.done, .done, .done, .number 2, .verdict true, .done, .verdict false, .verdict true,
          .found (some (bytesOf "newer")), .number 2, .found none, .done, .found none,
          .number 0] := by
  obtain ⟨led, opened, ok⟩ :
      emptyCache.LeadsTo ⟨"/c"⟩ ["c"]
        ∧ (create noCache ⟨"/c"⟩ 7).1.toOption = some smallCache
        ∧ .failed ∉ answers (serve ⟨"/c"⟩) (create noCache ⟨"/c"⟩ 7).2 callsOfTwo := by
    decide +kernel
  -- Neither disk holds a link, so the path of the cache leads to the same place on both.
  have links : noCache.SameLinks emptyCache :=
    Disk.sameLinks_of_entries (by simp [noCache]) (by simp [emptyCache])
  have houses : noCache.Houses ⟨"/c"⟩ ["c"] := led.houses links rfl
  have absent (ns : Location) : noCache.get? (["c"] ++ ns) = none := by
    simp [Disk.get?, noCache]
  have names : Path.IsName "s" ∧ Path.IsName "a" ∧ Path.IsName "a.php" :=
    ⟨by constructor <;> decide, by constructor <;> decide, by constructor <;> decide⟩
  have regular : ∀ call ∈ callsOfTwo, call.Regular := by
    simp [callsOfTwo, Call.Regular, names, UInt64.size]
  refine ⟨_, eq_of_toOption opened, ?_⟩
  rw [answers_eq_table houses absent (eq_of_toOption opened) regular ok]
  decide +kernel

end RewriteCache

end Seams
