import Mathlib.Data.List.Dedup
import Mathlib.Data.List.Nodup
import Mathlib.Data.List.Perm.Subperm
import Mathlib.Tactic.Common
import Seams.Proofs.Room

/-! # Files in a directory of a cache
A walk lists each file of a directory of a cache once, as long as no entry is listed twice and all
have names that are steps. It lists all files that are in reach, for it goes deeper than any of them
lies.
Main definitions:
* **`Disk.Tidy`** — what is below a place is listed once and has names that are steps;
* **`Disk.filesWithin`** — the files that a walk finds. -/

namespace Seams

open RewriteCache (Owned)

namespace Path

variable {p : Path} {x n : String} {ns : List String}

/-- **A name does not start at the top.** -/
theorem IsName.isAbsolute (isName : IsName n) : (⟨n⟩ : Path).isAbsolute = false := by
  have relative := isAbsolute_intercalate (List.forall_mem_singleton.2 isName)
  rwa [String.intercalate_singleton] at relative

/-- **A step by a name is one by a name that is a step.** -/
theorem isName_of_mem_steps (mem : .name n ∈ p.steps) : IsName n :=
  isName_of_mem_names (List.mem_filterMap.2 ⟨_, mem, rfl⟩)

/-- **Names are parted by slashes** in the path of an entry some directories below. -/
theorem text_descend (ends : p.EndsIn x) (names : ∀ m ∈ n :: ns, IsName m) :
    (p.descend (n :: ns)).text = p.text ++ "/" ++ "/".intercalate (n :: ns) := by
  induction ns generalizing p x n with
  | nil =>
      rw [String.intercalate_singleton]
      exact text_join ends (names n List.mem_cons_self).isAbsolute
  | cons m ns ih =>
      obtain ⟨isName, names⟩ := List.forall_mem_cons.1 names
      rw [show p.descend (n :: m :: ns) = (p.child n).descend (m :: ns) from rfl,
        ih (endsIn_child p isName) names, child, text_join ends isName.isAbsolute,
        String.intercalate_cons_cons]
      simp only [String.append_assoc]

/-- **The path of an entry some directories below is the one taken from the path** by the names, if
there are any. -/
theorem descend_eq_join (ends : p.EndsIn x) (names : ∀ n ∈ ns, IsName n) (ne : ns ≠ []) :
    p.descend ns = p.join ⟨"/".intercalate ns⟩ := by
  obtain ⟨n, ns, rfl⟩ := List.exists_cons_of_ne_nil ne
  refine congrArg Path.mk (?_ : (p.descend (n :: ns)).text = (p.join _).text)
  rw [text_descend ends names, text_join ends (isAbsolute_intercalate names)]

end Path

namespace Disk

variable {root p q : Path} {l m : Location} {ns ms : List String} {d d' : Disk}

/-- **A path in front of one that can be looked up can be looked up**, if it ends in a name. -/
theorem Usable.of_descend {x : String} (usable : Usable (p.descend ns)) (ends : p.EndsIn x)
    (names : ∀ n ∈ ns, Path.IsName n) : Usable p := by
  cases ns with
  | nil => exact usable
  | cons n ns =>
      have text := Path.text_descend ends names
      rw [String.append_assoc] at text
      exact usable.of_beginning ends.text_ne_empty text

/-! ## Tidy places -/

/-- **What is below a place is listed once**, and all of it has names that are steps. -/
structure Tidy (l : Location) (d : Disk) : Prop where
  /-- The names are steps. -/
  named : d.NamedBelow l
  /-- No place is listed twice. -/
  once : ((d.entries.map Prod.fst).filter l.isPrefixOf).Nodup

namespace Tidy

/-- **A place where there is nothing and below which there is nothing is tidy.** -/
theorem of_absent (absent : ∀ ns, d.get? (l ++ ns) = none) : d.Tidy l where
  named ns n e there := by
    rw [List.append_assoc, absent] at there
    cases there
  once := by
    have none_listed : (d.entries.map Prod.fst).filter l.isPrefixOf = [] := by
      refine List.filter_eq_nil_iff.2 fun place listed below => ?_
      obtain ⟨ns, rfl⟩ := List.isPrefixOf_iff_prefix.1 below
      obtain ⟨⟨place, e⟩, mem, eq⟩ := List.mem_map.1 listed
      have here := absent ns
      rw [get?] at here
      split at here
      · cases here
      · rw [List.lookup_eq_none_iff] at here
        exact absurd eq.symm (by simpa using here _ mem)
    rw [none_listed]
    exact List.nodup_nil

/-- **A tidy place stays so when an entry is put somewhere**, if its name is a step. -/
theorem put (tidy : d.Tidy l) (e : Entry) (isName : ∀ n ∈ m.getLast?, Path.IsName n) :
    (d.put m e).Tidy l where
  named ns n e' there := by
    by_cases here : l ++ ns ++ [n] = m
    · rw [← here, List.getLast?_concat] at isName
      exact isName n rfl
    · rw [get?_put_of_ne _ _ here] at there
      exact tidy.named ns n e' there
  once := by
    have others : (d.entries.filter (·.1 != m)).map Prod.fst
        = (d.entries.map Prod.fst).filter (· != m) := by
      rw [List.filter_map]
      rfl
    have rest := tidy.once.filter (· != m)
    rw [List.filter_comm] at rest
    rw [Disk.put, List.map_cons, others, List.filter_cons]
    split
    · exact List.nodup_cons.2 ⟨by simp, rest⟩
    · exact rest

/-- **A tidy place stays so when something is cut.** -/
theorem cut (tidy : d.Tidy l) (m : Location) : (d.cut m).Tidy l where
  named ns n e there := tidy.named ns n e (get?_of_cut there).1
  once := by
    have sub : ((d.cut m).entries.map Prod.fst).Sublist (d.entries.map Prod.fst) :=
      List.filter_sublist.map Prod.fst
    exact tidy.once.sublist (sub.filter _)

/-- **Creating a directory keeps places tidy.** -/
theorem makeDirectory (tidy : d.Tidy l) (h : d.makeDirectory p = .ok d') : d'.Tidy l := by
  unfold Disk.makeDirectory at h
  split at h
  · cases h
  · cases h
  · rename_i place found
    cases h
    exact tidy.put _ ((find_eq_ok_iff.1 found).2.named_of_vacant fun n => Path.isName_of_mem_steps)

/-- **Creating directories keeps places tidy**, whether it succeeds or not. -/
theorem makeAll (tidy : d.Tidy l) (n : Nat) : (d.makeAll p n).2.Tidy l := by
  -- By the number of directories above that are still tried.
  induction n generalizing d p with
  | zero => exact tidy
  | succ n ih =>
      unfold Disk.makeAll
      split
      · exact tidy
      split
      · rename_i made
        exact tidy.makeDirectory made
      · split
        · exact tidy
        · rename_i above parent
          have first : (d.makeAll above n).2.Tidy l := ih tidy
          split <;> rename_i made <;> rw [made] at first
          · exact first
          · split
            · rename_i made'
              unfold makeIfAbsent at made'
              split at made'
              · rename_i made''
                cases made'
                exact first.makeDirectory made''
              · split at made' <;> cases made'
                exact first
            · exact first
      · split <;> exact tidy

/-- **Replacing a file keeps places tidy.** -/
theorem replaceFile {content : Bytes} (tidy : d.Tidy l) (h : d.replaceFile p content = .ok d') :
    d'.Tidy l := by
  unfold Disk.replaceFile at h
  split at h
  · cases h
  · rename_i place found
    split at h <;> cases h
    exact tidy.put _ ((find_eq_ok_iff.1 found).2.named_of_vacant fun n => Path.isName_of_mem_steps)
  · rename_i place entry found
    split at h
    · cases h
    split at h
    · cases h
    rename_i fits
    split at h <;> cases h
    have step : p.steps.getLast? = place.getLast?.map Step.name := by
      simp only [Bool.or_eq_true, bne_iff_ne, not_or, not_not] at fits
      exact fits.2
    refine tidy.put _ fun n last => Path.isName_of_mem_steps (p := p) (List.mem_of_getLast? ?_)
    rw [step, last]
    rfl

/-- **Changes keep places tidy**, whether they succeed or not. -/
theorem apply (tidy : d.Tidy l) (change : Change) : (d.apply change).2.Tidy l := by
  cases change with
  | ensureDirectory p => exact tidy.makeAll _
  | removeTree p =>
      simp only [Disk.apply]
      split
      · rename_i removed
        unfold removeAll at removed
        split at removed <;> cases removed
        exact tidy.cut _
      · exact tidy
      · exact tidy
  | storeFile p content =>
      simp only [Disk.apply]
      split
      · exact tidy
      rename_i above parent
      have first := tidy.makeAll (p := above) (above.text.utf8ByteSize + 2)
      split <;> rename_i made <;> rw [made] at first
      · exact first
      · split
        · rename_i stored
          exact first.replaceFile stored
        · exact first

/-- **Changes one after the other keep places tidy.** -/
theorem applyAll (tidy : d.Tidy l) (changes : List Change) : (d.applyAll changes).2.Tidy l := by
  induction changes generalizing d with
  | nil => exact tidy
  | cons change changes ih =>
      have first := tidy.apply change
      unfold Disk.applyAll
      split <;> rename_i applied <;> rw [applied] at first
      · exact ih first
      · exact first

/-- **The names in a directory of a tidy place are listed once.** -/
theorem nodup_names (tidy : d.Tidy l) (ns : List String) : (d.names (l ++ ns)).Nodup := by
  -- A name in the directory is the last one of a place that is listed there, and places with the
  -- same last name there are the same.
  let last (place : Location) : Option String :=
    if place.dropLast = l ++ ns then place.getLast? else none
  have listed : (d.entries.map Prod.fst).filterMap last
      = ((d.entries.map Prod.fst).filter l.isPrefixOf).filterMap last := by
    rw [List.filterMap_filter]
    refine List.filterMap_congr fun place _ => ?_
    split
    · rfl
    · rename_i apart
      refine if_neg fun inside => apart (List.isPrefixOf_iff_prefix.2 ?_)
      exact (List.prefix_append l ns).trans (inside ▸ List.dropLast_prefix place)
  have nodup : ((d.entries.map Prod.fst).filterMap last).Nodup := by
    rw [listed]
    refine tidy.once.filterMap fun place place' n mem mem' => ?_
    simp only [last, Option.mem_def] at mem mem'
    split at mem
    · rename_i inside
      split at mem'
      · rename_i inside'
        rw [← List.dropLast_append_getLast? n mem, ← List.dropLast_append_getLast? n mem', inside,
          inside']
      · cases mem'
    · cases mem
  rw [List.filterMap_map] at nodup
  exact (List.mergeSort_perm _ _).nodup_iff.2 nodup

end Tidy

/-! ## Walks -/

/-- **The files that a walk finds.** -/
def filesWithin (d : Disk) (follow : Bool) (fuel : Nat) (above : List (Location × Path))
    (p : Path) : List Path :=
  (d.belowWithin follow fuel above p).filterMap fun
    | .ok (q, true) => some q
    | _ => none

/-- **A walk finds what it tells to be a file.** -/
theorem mem_filesWithin {follow : Bool} {fuel : Nat} {above : List (Location × Path)} :
    q ∈ d.filesWithin follow fuel above p
      ↔ .ok (q, true) ∈ d.belowWithin follow fuel above p := by
  rw [filesWithin, List.mem_filterMap]
  constructor
  · rintro ⟨found, mem, eq⟩
    split at eq
    · cases eq
      exact mem
    · cases eq
  · exact fun mem => ⟨_, mem, rfl⟩

/-- **A walk finds each file once** in a tidy place. -/
theorem nodup_filesWithin (house : d.Houses root l) (plain : d.PlainIn l) (tidy : d.Tidy l)
    {follow : Bool} {fuel : Nat} (at_ : p.LiesAt root ns) (own : Owned ns)
    (above : List (Location × Path)) : (d.filesWithin follow fuel above p).Nodup := by
  -- By the depth of the walk; files in different entries of a directory have different paths.
  induction fuel generalizing p ns above with
  | zero => simp [filesWithin, belowWithin]
  | succ fuel ih =>
      unfold filesWithin belowWithin
      split
      · simp
      · simp
      · rename_i place found
        rcases (leadsBelow_of_find house plain at_ own found).target with ⟨_, e, -⟩ | ⟨e, -⟩ <;>
          cases e
        simp only
        split
        · simp
        rw [belowNames_eq_flatMap, List.filterMap_cons_none rfl, List.filterMap_flatMap,
          List.nodup_flatMap]
        have isName (n : String) (listed : n ∈ d.names (l ++ ns)) : Path.IsName n := by
          obtain ⟨e, there⟩ := exists_get?_of_mem_names listed
          exact tidy.named ns n e there
        refine ⟨fun n listed => ih (at_.child (isName n listed)) (own.append [n]) _, ?_⟩
        refine (tidy.nodup_names ns).imp_of_mem fun {n n'} listed listed' ne => ?_
        -- The first step behind the directory tells from which of its entries a file was found.
        refine List.disjoint_left.2 fun q mem mem' => ne ?_
        have step {n : String} (listed : n ∈ d.names (l ++ ns))
            (mem : q ∈ d.filesWithin follow fuel ((l ++ ns, p) :: above) (p.child n)) :
            ∃ ms, q.steps = p.steps ++ .name n :: ms := by
          have at_child := at_.child (isName n listed)
          obtain ⟨ms, content, rfl, names, -⟩ := exists_of_mem_belowWithin house plain
            (fun ms m e there => tidy.named (ns ++ [n] ++ ms) m e (by simpa using there))
            at_child (own.append [n]) (mem_filesWithin.1 mem)
          refine ⟨ms.map .name, ?_⟩
          have steps := ((Path.LiesAt.self p).child (isName n listed)).descend names
          simpa using steps.steps
        obtain ⟨ms, steps⟩ := step listed mem
        obtain ⟨ms', steps'⟩ := step listed' mem'
        rw [steps, List.append_cancel_left_eq, List.cons_eq_cons] at steps'
        simpa using steps'.1
      · simp
      · simp

/-- **A directory on the way to a file in reach is found.** -/
theorem InReach.find_directory {content : Bytes} (reach : d.InReach root l q (ns ++ ms) content)
    (plain : d.PlainIn l) (there : d.LeadsTo root l) (usable : Usable p) (at_ : p.LiesAt root ns)
    (own : Owned ns) (ne : ms ≠ []) (follow : Bool) :
    d.find follow p = .ok (.present (l ++ ns) .directory) := by
  obtain ⟨k, way⟩ := reach.way
  rw [List.map_append] at way
  obtain ⟨j, place, front, -⟩ := way.exists_directory (by simpa using ne)
  rcases front.of_plain (plain.along own) own.ne_nil with ⟨_, eq, holds⟩ | ⟨eq, -⟩ <;> cases eq
  exact find_of_names usable there at_ own.ne_nil fun k =>
    (front.asking p.asksForDirectory).names_congr (plain.along own) own.ne_nil (fun _ _ _ => id)
      holds

/-- **There is something everywhere on the way to a file in reach.** -/
theorem InReach.exists_get? {content : Bytes} (reach : d.InReach root l q ms content)
    (plain : d.PlainIn l) (ne : ns ≠ []) (within : ns <+: ms) : ∃ e, d.get? (l ++ ns) = some e := by
  obtain ⟨k, way⟩ := reach.way
  obtain ⟨-, dirs⟩ := way.of_names (plain.along reach.own)
  rcases List.eq_nil_or_concat' ms with rfl | ⟨front, last, rfl⟩
  · exact absurd rfl reach.own.ne_nil
  rcases List.prefix_concat_iff.1 within with rfl | within
  · exact ⟨_, reach.holds plain⟩
  · exact ⟨_, dirs ns ne (by rwa [List.dropLast_concat])⟩

/-- **An entry of a directory is among its names.** -/
theorem mem_names {n : String} {e : Entry} (there : d.get? (l ++ [n]) = some e) :
    n ∈ d.names l := by
  refine List.mem_mergeSort.2 (List.mem_filterMap.2 ⟨_, mem_entries there (by simp), ?_⟩)
  rw [List.dropLast_concat, if_pos rfl, List.getLast?_concat]

/-- **A walk finds all files in reach** that lie no deeper than it goes. -/
theorem InReach.mem_filesWithin {content : Bytes}
    (reach : d.InReach root l (p.descend ms) (ns ++ ms) content) (plain : d.PlainIn l)
    (there : d.LeadsTo root l) {x : String} (ends : p.EndsIn x) (at_ : p.LiesAt root ns)
    (own : Owned ns) (names : ∀ m ∈ ms, Path.IsName m) {fuel : Nat} (enough : ms.length < fuel)
    (above : List (Location × Path)) : p.descend ms ∈ d.filesWithin false fuel above p := by
  -- By the names on the way, each of which is walked one level deeper.
  induction ms generalizing p ns x fuel above with
  | nil =>
      obtain ⟨fuel, rfl⟩ := Nat.exists_eq_succ_of_ne_zero (Nat.ne_of_gt enough)
      rw [List.append_nil] at reach
      have found := reach.find plain there (false || above.isEmpty)
      rw [Disk.mem_filesWithin, belowWithin, show p.descend [] = p from rfl] at *
      rw [found]
      exact List.mem_singleton_self _
  | cons n ms ih =>
      obtain ⟨fuel, rfl⟩ := Nat.exists_eq_succ_of_ne_zero (Nat.ne_of_gt (Nat.zero_lt_of_lt enough))
      have usable := reach.usable.of_descend ends names
      have found (follow : Bool) :=
        reach.find_directory plain there usable at_ own (List.cons_ne_nil _ _) follow
      obtain ⟨isName, names⟩ := List.forall_mem_cons.1 names
      have listed : n ∈ d.names (l ++ ns) := by
        have within : ns ++ [n] <+: ns ++ n :: ms := by simp
        obtain ⟨e, there⟩ := reach.exists_get? plain (by simp) within
        rw [← List.append_assoc] at there
        exact mem_names there
      have entered : above.find? (fun a => false && decide (a.1 = l ++ ns)) = none :=
        List.find?_eq_none.2 (by simp)
      rw [Disk.mem_filesWithin, belowWithin, found, found]
      simp only
      rw [entered, belowNames_eq_flatMap]
      refine List.mem_cons_of_mem _ (List.mem_flatMap.2 ⟨n, listed, ?_⟩)
      rw [← Disk.mem_filesWithin]
      refine ih ?_ (Path.endsIn_child p isName) (at_.child isName) (own.append [n]) names
        (Nat.lt_of_succ_lt_succ enough) _
      rwa [List.append_assoc]

/-- **A place is no deeper below another one than there are entries**, if there is something
everywhere on the way. -/
theorem length_le_of_way (way : ∀ pre, pre ≠ [] → pre <+: ns → ∃ e, d.get? (l ++ pre) = some e) :
    ns.length ≤ d.entries.length := by
  -- The places on the way are all listed, and they differ in length.
  let places := (List.range ns.length).map fun i => l ++ ns.take (i + 1)
  have nodup : places.Nodup := by
    refine List.nodup_range.map_on fun i here j here' eq => ?_
    have length := congrArg List.length eq
    rw [List.mem_range] at here here'
    simp only [List.length_append, List.length_take] at length
    omega
  have listed : places ⊆ d.entries.map Prod.fst := by
    intro place mem
    obtain ⟨i, here, rfl⟩ := List.mem_map.1 mem
    rw [List.mem_range] at here
    have ne : ns.take (i + 1) ≠ [] := by simpa using List.ne_nil_of_length_pos (by omega)
    obtain ⟨e, there⟩ := way _ ne (List.take_prefix _ _)
    exact List.mem_map.2 ⟨_, mem_entries there (by simpa using fun _ => ne), rfl⟩
  have shorter := (nodup.subperm listed).length_le
  simpa [places] using shorter

/-- **A file in reach lies no deeper than there are entries.** -/
theorem InReach.length_le {content : Bytes} (reach : d.InReach root l q ns content)
    (plain : d.PlainIn l) : ns.length ≤ d.entries.length :=
  length_le_of_way fun _ ne within => reach.exists_get? plain ne within

end Disk

/-! ## Counts -/

namespace RewriteCache

variable {c : RewriteCache} {l : Location} {d : Disk}

/-- **The path of a rewritten source is some directories below that of the directory** of rewritten
sources. -/
theorem sourcePath_eq_descend (c : RewriteCache) {place : Location}
    (names : ∀ n ∈ place, Path.IsName n) (ne : place ≠ []) :
    c.sourcePath place.path = c.sourceDir.descend place := by
  rw [sourcePath, namesOf_eq, Disk.names_path names]
  exact (Path.descend_eq_join (Path.endsIn_child _ (by constructor <;> decide)) names ne).symm

/-- **The files of rewritten sources are counted.** Where those in reach are all that there are, a
cache counts each of them once. -/
theorem IsOpen.count_eq (isOpen : c.IsOpen l d) (tidy : d.Tidy l) {places : List Location}
    (nodup : places.Nodup) (names : ∀ place ∈ places, ∀ n ∈ place, Path.IsName n)
    (reach : ∀ place ∈ places, place ≠ []
      ∧ ∃ content, d.InReach c.root l (c.sourcePath place.path) ("src" :: place) content)
    (only : ∀ ns content, d.get? (l ++ "src" :: ns) = some (.file content) → ns ∈ places) :
    c.count d = places.length := by
  have ends : c.sourceDir.EndsIn "src" := Path.endsIn_child _ (by constructor <;> decide)
  have steps {ms : List String} (names : ∀ m ∈ ms, Path.IsName m) :
      (c.sourceDir.descend ms).steps = c.sourceDir.steps ++ ms.map .name :=
    ((Path.LiesAt.self c.sourceDir).descend names).steps
  -- The files that are found are the paths of the places, and both are listed once.
  have distinct : (places.map c.sourceDir.descend).Nodup := by
    refine nodup.map_on fun p mem q mem' eq => ?_
    have same : p.map Step.name = q.map Step.name := by
      simpa [steps (names p mem), steps (names q mem')] using congrArg Path.steps eq
    exact List.map_injective_iff.2 (fun _ _ => Step.name.inj) same
  have listed : (d.filesBelow false c.sourceDir).Perm (places.map c.sourceDir.descend) := by
    refine (List.perm_ext_iff_of_nodup (Disk.nodup_filesWithin isOpen.houses isOpen.plain tidy
      c.sourceDir_liesAt (.source _) []) distinct).2 fun q => ?_
    rw [List.mem_map, Disk.mem_filesWithin]
    constructor
    · intro mem
      obtain ⟨ms, content, rfl, -, file⟩ := Disk.exists_of_mem_belowWithin isOpen.houses
        isOpen.plain (fun ns n e there => tidy.named ("src" :: ns) n e (by simpa using there))
        c.sourceDir_liesAt (.source _) mem
      exact ⟨ms, only ms content (by simpa using file), rfl⟩
    · rintro ⟨place, mem, rfl⟩
      obtain ⟨ne, content, reach⟩ := reach place mem
      rw [c.sourcePath_eq_descend (names place mem) ne] at reach
      have deep := reach.length_le isOpen.plain
      rw [← Disk.mem_filesWithin]
      refine Disk.InReach.mem_filesWithin (reach : d.InReach _ _ _ (["src"] ++ place) content)
        isOpen.plain isOpen.there ends c.sourceDir_liesAt (.source _) (names place mem) ?_ []
      rw [List.length_cons] at deep
      calc place.length < d.entries.length + 2 := by omega
        _ ≤ (d.entries.length + 2) * (d.entries.length + 2) := Nat.le_mul_self _
  rw [count, listed.length_eq, List.length_map]

end RewriteCache

end Seams
