import Mathlib.Data.List.Basic
import Mathlib.Tactic.Common
import Seams.Proofs.Entries
import Seams.Proofs.Reconciling

/-! # Room for the files of a cache
Once the path of a cache leads to a directory, little can keep a file from being stored in it: a
path or a name that is too long, a file where a directory is needed, or a directory where the file
is to be. What is stored adds the directories on its way, and nothing else.
Main definitions:
* **`Disk.HasRoom`** — nothing stands in the way of a file;
* **`Disk.HoldsStored`** — what there is when a file has been stored;
* **`RewriteCache.HasRoom`** — nothing stands in the way of what is kept for a source;
* **`RewriteCache.Within`** — the paths of what is kept for a source are within the limits. -/

namespace Seams

namespace Path

/-! ## Paths above that end in a name -/

/-- **Without its last step, a list of pieces ends in a step**, if anything is left. -/
theorem withoutLastStep_ends {pieces kept : List String}
    (h : withoutLastStep pieces = some kept) :
    kept = [] ∨ ∃ front s, kept = front ++ [s] ∧ stepOf s ≠ none := by
  unfold withoutLastStep at h
  split at h
  · cases h
  · rename_i last above behind
    obtain rfl := Option.some.inj h
    cases left : above.dropWhile fun s => (stepOf s).isNone with
    | nil => exact .inl rfl
    | cons s rest =>
        refine .inr ⟨rest.reverse, s, List.reverse_cons, ?_⟩
        have first := List.head?_dropWhile_not (fun s => (stepOf s).isNone) above
        rw [left] at first
        exact Option.isNone_eq_false_iff.1 first |> Option.isSome_iff_ne_none.1

/-- **A path whose pieces end in a step ends in its last name.** -/
theorem endsIn_of_pieces {p : Path} {front : List String} {s n : String}
    (pieces : p.pieces = front ++ [s]) (isStep : stepOf s ≠ none)
    (last : p.steps.getLast? = some (.name n)) : p.EndsIn n := by
  obtain ⟨step, is⟩ := Option.ne_none_iff_exists'.1 isStep
  rw [steps, pieces, List.filterMap_append, List.filterMap_cons, is] at last
  have named : stepOf s = some (.name n) := by rw [is]; simpa using last
  obtain ⟨rfl, empty, dot, up⟩ := eq_of_stepOf_eq_name named
  exact ⟨⟨empty, dot, up, slash_notMem_of_mem_pieces (p := p) (by simp [pieces])⟩, front, pieces⟩

/-- **The path above another one ends in a name** if that is its last step. -/
theorem endsIn_of_parent {p above : Path} {n : String} (parent : p.parent? = some above)
    (last : above.steps.getLast? = some (.name n)) : above.EndsIn n := by
  have free {ss : List String} (within : ss ⊆ p.pieces) : ∀ s ∈ ss, '/' ∉ s.toList :=
    fun s hs => slash_notMem_of_mem_pieces (within hs)
  unfold parent? at parent
  split at parent
  · rename_i rest pieces
    rw [pieces] at free
    obtain ⟨kept, without, rfl⟩ := Option.map_eq_some_iff.1 parent
    have within := withoutLastStep_prefix without
    have free' := free fun s hs => List.mem_cons_of_mem _ (within.subset hs)
    rcases withoutLastStep_ends without with rfl | ⟨front, s, rfl, isStep⟩
    · cases last
    · have slash := pieces_slash "" ("/".intercalate (front ++ [s]))
      rw [String.empty_append, pieces_intercalate (by simp) free'] at slash
      exact endsIn_of_pieces (show _ = ("" :: front) ++ [s] from slash) isStep last
  · rename_i rest pieces
    rw [pieces] at free
    split at parent
    · rename_i kept without
      obtain rfl := Option.some.inj parent
      have within := withoutLastStep_prefix without
      have free' := free (List.cons_subset_cons _ within.subset)
      have split := pieces_intercalate (List.cons_ne_nil _ _) free'
      rcases withoutLastStep_ends without with rfl | ⟨front, s, rfl, isStep⟩
      · cases last
      · exact endsIn_of_pieces (show _ = ("." :: front) ++ [s] from split) isStep last
    · obtain rfl := Option.some.inj parent
      cases last
  · obtain ⟨kept, without, rfl⟩ := Option.map_eq_some_iff.1 parent
    have within := withoutLastStep_prefix without
    have free' := free within.subset
    rcases withoutLastStep_ends without with rfl | ⟨front, s, rfl, isStep⟩
    · cases last
    · exact endsIn_of_pieces (pieces_intercalate (by simp) free') isStep last

/-- **The path above one below another path takes all of its names but the last.** -/
theorem LiesAt.above {p above root : Path} {ms : List String} {n x : String}
    (h : p.LiesAt root (ms ++ [x])) (is : above.IsAbove p n) :
    n = x ∧ above.LiesAt root ms ∧ p.LiesAt above [x] := by
  have all := is.steps.symm.trans h.steps
  rw [List.map_append, ← List.append_assoc] at all
  obtain ⟨steps, last⟩ := List.append_inj' all rfl
  exact ⟨by simpa using last, ⟨is.start.trans h.start, steps⟩, is.start.symm,
    by rw [is.steps, last]⟩

/-- **The path above one that names lead to ends in the last name on the way to it.** -/
theorem LiesAt.endsIn_of_parent {p above root : Path} {ms : List String} {x : String}
    (h : above.LiesAt root ms) (parent : p.parent? = some above) (last : x ∈ ms.getLast?) :
    above.EndsIn x := by
  refine Path.endsIn_of_parent parent ?_
  rw [h.steps, List.getLast?_append, List.getLast?_map, Option.mem_def.1 last]
  rfl

/-- **Text behind a path that ends in a name is parted from it by a slash.** -/
theorem text_join {p q : Path} {n : String} (ends : p.EndsIn n) (relative : q.isAbsolute = false) :
    (p.join q).text = p.text ++ "/" ++ q.text := by
  unfold Path.join
  rw [relative, ends.endsInSlash]
  simp [ends.text_ne_empty]

/-- **A path takes at most one step more than its text has bytes.** -/
theorem length_steps_le (p : Path) : p.steps.length ≤ p.text.utf8ByteSize + 1 := by
  have parts (cs : List Char) : (cs.splitOn '/').length ≤ cs.length + 1 := by
    induction cs with
    | nil => simp
    | cons c cs ih =>
        rw [List.splitOn_cons_eq_if_modifyHead]
        split
        · simpa using ih
        · rw [List.length_modifyHead, List.length_cons]
          omega
  have chars (cs : List Char) : cs.length ≤ (String.ofList cs).utf8ByteSize := by
    induction cs with
    | nil => simp
    | cons c cs ih =>
        rw [String.ofList_cons, String.utf8ByteSize_append, String.utf8ByteSize_singleton,
          List.length_cons]
        have byte := c.utf8Size_pos
        omega
  calc p.steps.length ≤ p.pieces.length := List.length_filterMap_le _ _
    _ = (p.text.toList.splitOn '/').length := List.length_map _
    _ ≤ p.text.toList.length + 1 := parts _
    _ ≤ p.text.utf8ByteSize + 1 := by
      have bytes := chars p.text.toList
      rw [String.ofList_toList] at bytes
      omega

end Path

namespace Disk

open RewriteCache (Owned recordNames)

variable {root p q : Path} {l m : Location} {n : String} {ns ms : List String} {content : Bytes}
  {d d' : Disk}

/-! ## Walks that find nothing -/

/-- **A walk that meets a directory goes on from there.** -/
theorem walk_enter {follow : Bool} {k : Nat} {rest : List Step} {dir : Bool}
    (short : n.utf8ByteSize ≤ nameLimit) (there : d.get? (l ++ [n]) = some .directory) :
    d.walk follow k l (.name n :: rest) dir = d.walk follow k (l ++ [n]) rest dir := by
  cases k <;> simp [walk, walkWith, Nat.not_lt.2 short, there]

/-- **A walk over a way to a directory goes on from there**, to whatever end. -/
theorem Leads.walk_append {follow : Bool} {k : Nat} {first rest : List Step} {dir : Bool}
    (h : d.Leads true k l first true (.present m .directory)) (ne : rest ≠ []) :
    ∃ j, d.walk follow k l (first ++ rest) dir = d.walk follow j m rest dir := by
  have step {k : Nat} {l : Location} {first : List Step} {asked : Bool} {found : Target}
      (h : d.Leads true k l first asked found) :
      asked = true → found = .present m .directory →
        ∃ j, d.walk follow k l (first ++ rest) dir = d.walk follow j m rest dir := by
    induction h with
    | here =>
        intro _ e
        cases e
        exact ⟨_, rfl⟩
    | @up k l steps asked t way ih =>
        intro isAsked e
        obtain ⟨j, same⟩ := ih isAsked e
        exact ⟨j, by rw [← same]; cases k <;> rfl⟩
    | vacant =>
        intro _ e
        cases e
    | enter short there way ih =>
        intro isAsked e
        obtain ⟨j, same⟩ := ih isAsked e
        exact ⟨j, by rw [← same, List.cons_append, walk_enter short there]⟩
    | file =>
        intro isAsked
        cases isAsked
    | link =>
        intro isAsked
        cases isAsked
    | @cross k l n target steps asked t short there go nonempty way ih =>
        intro isAsked e
        obtain ⟨j, same⟩ := ih (by rw [isAsked]; rfl) e
        -- The steps behind the link are not the last ones, so nothing more is asked for.
        have more : (steps ++ rest).isEmpty = false := by simp [ne]
        refine ⟨j, ?_⟩
        rw [← same, List.append_assoc, List.cons_append, Disk.walk, walkWith,
          if_neg (Nat.not_lt.2 short), there]
        simp [more, nonempty]
  exact step h rfl rfl

/-- **There are no files on the way of names** from a place. -/
def FreeAlong (d : Disk) (l : Location) (ns : List String) : Prop :=
  ∀ pre content, pre ≠ [] → pre <+: ns → d.get? (l ++ pre) ≠ some (.file content)

/-- **There are no files on the way of the other names.** -/
theorem FreeAlong.rest (free : d.FreeAlong l (n :: ns)) : d.FreeAlong (l ++ [n]) ns := by
  intro pre content _ within
  rw [List.append_assoc]
  exact free (n :: pre) content (List.cons_ne_nil _ _) (by simpa using within)

/-- **There are no files on the way of fewer names.** -/
theorem FreeAlong.of_le (free : d.FreeAlong l ns) (within : ms <+: ns) : d.FreeAlong l ms :=
  fun pre content ne le => free pre content ne (le.trans within)

/-- **A walk over names fails only where a directory is missing**, if there are neither links nor
files on the way and no name is too long. -/
theorem walk_names {follow : Bool} {k : Nat} {dir : Bool}
    (short : ∀ n ∈ ns, n.utf8ByteSize ≤ nameLimit) (plain : d.PlainAlong l ns)
    (free : d.FreeAlong l ns) :
    d.walk follow k l (ns.map .name) dir = .error .notFound
      ∨ ∃ t, d.walk follow k l (ns.map .name) dir = .ok t := by
  induction ns generalizing l with
  | nil => exact .inr ⟨_, by cases k <;> rfl⟩
  | cons n ns ih =>
      have short_n := short n List.mem_cons_self
      cases there : d.get? (l ++ [n]) with
      | none =>
          by_cases last : ns = []
          · refine .inr ⟨.vacant (l ++ [n]), ?_⟩
            cases k <;> simp [walk, walkWith, Nat.not_lt.2 short_n, there, last]
          · refine .inl ?_
            cases k <;> simp [walk, walkWith, Nat.not_lt.2 short_n, there, last]
      | some e =>
          cases e with
          | directory =>
              rw [List.map_cons, walk_enter short_n there]
              exact ih (fun m mem => short m (List.mem_cons_of_mem _ mem)) plain.rest free.rest
          | file content => exact absurd there (free [n] content (List.cons_ne_nil _ _) (by simp))
          | link t => exact absurd there (plain.first t)

/-- **A walk over a single name succeeds**, if there is no link and the name is not too long. -/
theorem walk_name {follow : Bool} {k : Nat} (short : n.utf8ByteSize ≤ nameLimit)
    (plain : ∀ t, d.get? (l ++ [n]) ≠ some (.link t)) :
    ∃ t, d.walk follow k l [.name n] false = .ok t := by
  cases there : d.get? (l ++ [n]) with
  | none => exact ⟨_, walk_eq_ok_iff.2 (.vacant short there)⟩
  | some e =>
      cases e with
      | directory => exact ⟨_, walk_eq_ok_iff.2 (.enter short there .here)⟩
      | file content => exact ⟨_, walk_eq_ok_iff.2 (.file short there)⟩
      | link t => exact absurd there (plain t)

/-- **The names that lead on are not too long, and the directories on their way are there.** -/
theorem Leads.of_names {follow : Bool} {k : Nat} {dir : Bool} {t : Target}
    (h : d.Leads follow k l (ns.map .name) dir t) (plain : d.PlainAlong l ns) :
    (∀ n ∈ ns, n.utf8ByteSize ≤ nameLimit)
      ∧ ∀ pre, pre ≠ [] → pre <+: ns.dropLast → d.get? (l ++ pre) = some .directory := by
  induction ns generalizing l with
  | nil => exact ⟨by simp, fun pre ne within => absurd (List.prefix_nil.1 within) ne⟩
  | cons n ns ih =>
      cases ns with
      | nil =>
          refine ⟨fun m mem => ?_, fun pre ne within => absurd (List.prefix_nil.1 within) ne⟩
          rw [List.mem_singleton.1 mem]
          cases h <;> assumption
      | cons m ns =>
          cases h with
          | enter short there way =>
              obtain ⟨shorts, dirs⟩ := ih way plain.rest
              refine ⟨List.forall_mem_cons.2 ⟨short, shorts⟩, fun pre ne within => ?_⟩
              obtain ⟨x, pre, rfl⟩ := List.exists_cons_of_ne_nil ne
              rw [List.dropLast_cons_cons] at within
              obtain ⟨rfl, within'⟩ := List.cons_prefix_cons.1 within
              by_cases last : pre = []
              · rw [last]
                exact there
              · have deeper := dirs pre last within'
                rwa [List.append_assoc] at deeper
          | cross short there => exact absurd there (plain.first _)

/-! ## Directories on the way -/

/-- **A path that takes the same steps leads to the same directory.** -/
theorem LeadsTo.of_self (there : d.LeadsTo root l) (at_ : p.LiesAt root []) : d.LeadsTo p l := by
  have start : d.start p = d.start root := by rw [Disk.start, Disk.start, at_.start]
  rw [LeadsTo, start, at_.steps, List.map_nil, List.append_nil]
  exact there

/-- **A path below a directory is looked up as its names are from there**, to whatever end. -/
theorem LeadsTo.find_append (there : d.LeadsTo root l) (usable : Usable p) (at_ : p.LiesAt root ns)
    (ne : ns ≠ []) (follow : Bool) :
    ∃ j, d.find follow p = d.walk follow j l (ns.map .name) p.asksForDirectory := by
  have start : d.start p = d.start root := by rw [Disk.start, Disk.start, at_.start]
  have names : ns.map Step.name ≠ [] := by simpa using ne
  obtain ⟨j, same⟩ : ∃ j, d.walk follow linkLimit (d.start root)
      (root.steps ++ ns.map .name) p.asksForDirectory
        = d.walk follow j l (ns.map .name) p.asksForDirectory :=
    (walk_eq_ok_iff.1 there).walk_append names
  refine ⟨j, ?_⟩
  unfold find
  rw [if_neg (by simpa using usable.no_nul), if_neg (by simpa using usable.ne_empty),
    if_neg (Nat.not_lt.2 usable.short), ← same, ← start, at_.steps]
  rfl

/-- **A path below another one that is a directory leads to the place that its names name.** -/
theorem leadsTo_of_isDirectory (house : d.Houses root l) (plain : d.PlainIn l)
    (at_ : p.LiesAt root ns) (own : Owned ns) (h : d.isDirectory p = true) :
    d.LeadsTo p (l ++ ns) := by
  unfold isDirectory present at h
  split at h
  · rename_i place there
    split at there
    · cases there
    · cases there
    · rename_i found
      cases there
      rcases (leadsBelow_of_find house plain at_ own found).target with ⟨_, eq, -⟩ | ⟨eq, -⟩ <;>
        cases eq
      exact walk_eq_ok_iff.2 ((find_eq_ok_iff.1 found).2.asking true)
  · cases h

/-- **A path leads to the directory that has been created**, once the path of the cache leads to
its place. -/
theorem leadsTo_of_made (house : d.Houses root l) (plain : d.PlainIn l) (there : d.LeadsTo root l)
    (at_ : p.LiesAt root ns) (own : ns ≠ [] → Owned ns) {fuel : Nat}
    (made : d.makeAll p fuel = (.ok (), d')) : d'.LeadsTo p (l ++ ns) := by
  have grown := makeAll_grows d p fuel
  rw [made] at grown
  by_cases none_left : ns = []
  · subst none_left
    rw [List.append_nil]
    exact (there.mono grown.current (fun m => grown.kept m _) fun m t => grown.kept m _).of_self at_
  · have isThere := (makeAll_ok made).resolve_left (at_.text_ne_empty none_left)
    exact leadsTo_of_isDirectory (grown.steady.houses house) (grown.steady.plainIn plain) at_
      (own none_left) isThere

/-- **A path is found once the directories above it have been created**, unless its last name is too
long. -/
theorem find_of_made (house : d.Houses root l) (plain : d.PlainIn l) (there : d.LeadsTo root l)
    (at_ : p.LiesAt root (ms ++ [n])) (own : Owned (ms ++ [n])) (usable : Usable p)
    (ends : p.EndsIn n) (is : q.IsAbove p n) (short : n.utf8ByteSize ≤ nameLimit) {fuel : Nat}
    (made : d.makeAll q fuel = (.ok (), d')) : ∃ t, d'.find false p = .ok t := by
  obtain ⟨-, at_above, at_last⟩ := at_.above is
  have grown := makeAll_grows d q fuel
  rw [made] at grown
  have above := leadsTo_of_made house plain there at_above
    (fun ne => own.of_le ne (List.prefix_append ms [n])) made
  obtain ⟨j, same⟩ := above.find_append usable at_last (List.cons_ne_nil _ _) false
  obtain ⟨t, found⟩ : ∃ t, d'.walk false j (l ++ ms) [.name n] false = .ok t :=
    walk_name short fun t holds => by
      rw [List.append_assoc] at holds
      exact grown.steady.plainIn plain _ t own holds
  rw [ends.asksForDirectory, List.map_singleton, found] at same
  exact ⟨t, same⟩

/-- **Where the directory above is there, so is a directory or room for one**, unless there is a
file. -/
theorem makeDirectory_of_find (house : d.Houses root l) (plain : d.PlainIn l)
    (there : d.LeadsTo root l) (at_ : p.LiesAt root ns) (own : Owned ns)
    (free : ∀ content, d.get? (l ++ ns) ≠ some (.file content)) {t : Target}
    (found : d.find false p = .ok t) :
    (∃ d', d.makeDirectory p = .ok d')
      ∨ d.makeDirectory p = .error .exists ∧ d.isDirectory p = true := by
  have below := leadsBelow_of_find house plain at_ own found
  rcases below.target with ⟨e, rfl, holds⟩ | ⟨rfl, -⟩
  · obtain rfl : e = .directory := by
      cases e with
      | directory => rfl
      | file content => exact absurd holds (free content)
      | link t => exact absurd holds (plain ns t own)
    refine .inr ⟨by rw [makeDirectory, found], ?_⟩
    obtain ⟨k, way⟩ := below.way
    have found' : d.find true p = .ok (.present (l ++ ns) .directory) :=
      find_of_names below.usable there at_ own.ne_nil fun _ =>
        way.names_congr (plain.along own) own.ne_nil (fun _ _ _ => id) holds
    simp [isDirectory, present, found']
  · exact .inl ⟨_, by rw [makeDirectory, found]⟩

/-- **A directory and what is missing above it are created**, if no file stands in the way and no
name is too long. -/
theorem makeAll_of_free (house : d.Houses root l) (plain : d.PlainIn l) (there : d.LeadsTo root l)
    {fuel : Nat} (at_ : p.LiesAt root ns) (own : ∀ pre, pre <+: ns → pre ≠ [] → Owned pre)
    (usable : p.text ≠ "" → Usable p) (ends : ∀ n ∈ ns.getLast?, p.EndsIn n)
    (short : ∀ n ∈ ns, n.utf8ByteSize ≤ nameLimit) (free : d.FreeAlong l ns)
    (enough : ns.length < fuel) : ∃ d', d.makeAll p fuel = (.ok (), d') := by
  -- By the number of directories that are still tried: the one above is created first.
  induction fuel generalizing p ns with
  | zero => omega
  | succ fuel ih =>
      rcases List.eq_nil_or_concat' ns with rfl | ⟨ms, n, rfl⟩
      · by_cases empty : p.text = ""
        · exact ⟨d, by simp [makeAll, empty]⟩
        · exact ⟨d, makeAll_of_leadsTo (usable empty) (there.of_self at_) fuel⟩
      have own_here := own _ List.prefix_rfl (by simp)
      have nonempty := at_.text_ne_empty own_here.ne_nil
      have usable_here := usable nonempty
      have ends_here := ends n (by simp)
      obtain ⟨j, same⟩ := there.find_append usable_here at_ own_here.ne_nil false
      unfold makeAll
      rw [if_neg (by simpa using nonempty)]
      rcases walk_names short (plain.along own_here) free with missing | ⟨t, found⟩
      · -- The directory above is missing.
        obtain ⟨above, parent, is⟩ := ends_here.exists_parent
        obtain ⟨-, at_above, -⟩ := at_.above is
        obtain ⟨d₁, made⟩ := ih at_above
          (fun pre within => own pre (within.trans (List.prefix_append ms [n])))
          (fun ne => usable_here.of_beginning ne is.text.choose_spec)
          (fun _ last => at_above.endsIn_of_parent parent last)
          (fun x mem => short x (List.mem_append_left _ mem))
          (free.of_le (List.prefix_append ms [n])) (by simpa using enough)
        obtain ⟨t, found⟩ := find_of_made house plain there at_ own_here usable_here ends_here is
          (short n (by simp)) made
        have grown := makeAll_grows d above fuel
        rw [made] at grown
        have there₁ : d₁.LeadsTo root l :=
          there.mono grown.current (fun m => grown.kept m _) fun m t => grown.kept m _
        have free₁ (content : Bytes) : d₁.get? (l ++ (ms ++ [n])) ≠ some (.file content) :=
          fun holds => free _ content own_here.ne_nil List.prefix_rfl (grown.file_iff.1 holds)
        rw [makeDirectory, same, missing]
        simp only [parent, made, makeIfAbsent]
        rcases makeDirectory_of_find (grown.steady.houses house) (grown.steady.plainIn plain) there₁
          at_ own_here free₁ found with ⟨d₂, created⟩ | ⟨exists_, isThere⟩
        · exact ⟨d₂, by rw [created]⟩
        · exact ⟨d₁, by rw [exists_, isThere]; rfl⟩
      · have found' := same.trans found
        rcases makeDirectory_of_find house plain there at_ own_here
          (fun content => free _ content own_here.ne_nil List.prefix_rfl) found' with
          ⟨d₁, created⟩ | ⟨exists_, isThere⟩
        · exact ⟨d₁, by rw [created]⟩
        · exact ⟨d, by rw [exists_, isThere]; rfl⟩

/-- **The path of a cache does not lead through a place where there is no directory**, if it leads
to its place. -/
theorem LeadsTo.avoids (there : d.LeadsTo root l) (free : d.get? m ≠ some .directory) :
    d.Avoids root m :=
  ⟨d, l, Steady.refl d, there, free⟩

/-- **What becomes a directory on the way to a path is at a place that its first names name**, if
the path of the cache does not lead through it. -/
theorem OnWay.below (h : d.OnWay p m) (avoids : d.Avoids root m) (house : d.Houses root l)
    (plain : d.PlainIn l) (at_ : p.LiesAt root ns)
    (own : ∀ pre, pre <+: ns → pre ≠ [] → Owned pre) :
    ∃ pre, pre ≠ [] ∧ pre <+: ns ∧ m = l ++ pre := by
  by_contra apart
  exact avoids.not_onWay house plain at_ own
    (fun pre within ne here => apart ⟨pre, ne, within, here⟩) h

/-! ## Storing -/

/-- **Nothing stands in the way of a file** that names lead to. -/
structure HasRoom (d : Disk) (l : Location) (ns : List String) : Prop where
  /-- No name is too long. -/
  short : ∀ n ∈ ns, n.utf8ByteSize ≤ nameLimit
  /-- There is no file where a directory is needed. -/
  free : d.FreeAlong l ns.dropLast
  /-- There is no directory where the file is to be. -/
  apart : d.get? (l ++ ns) ≠ some .directory

/-- **What there is when a file has been stored** where names lead to: the file and the directories
on its way, and besides what there was. -/
structure HoldsStored (l : Location) (ns : List String) (content : Bytes) (d d' : Disk) : Prop where
  /-- The file is there. -/
  file : d'.get? (l ++ ns) = some (.file content)
  /-- The directories on its way are there. -/
  way : ∀ pre, pre ≠ [] → pre <+: ns.dropLast → d'.get? (l ++ pre) = some .directory
  /-- Other places are as they were. -/
  others : ∀ m, (∀ pre, pre ≠ [] → pre <+: ns → m ≠ l ++ pre) → d'.get? m = d.get? m

/-- **Where a file has been stored, nothing stood in its way.** -/
theorem room_of_stored (house : d.Houses root l) (plain : d.PlainIn l) (at_ : p.LiesAt root ns)
    (own : Owned ns) (h : d.apply (.storeFile p content) = (.ok (), d')) :
    Usable p ∧ d.HasRoom l ns := by
  obtain ⟨grown, grows, ⟨_, failed⟩ | ⟨⟨t, below⟩, apart, -⟩⟩ :=
    apply_storeFile house plain at_ own content
  · rw [failed] at h
    cases h
  · obtain ⟨k, way⟩ := below.way
    obtain ⟨short, dirs⟩ := way.of_names ((grows.steady.plainIn plain).along own)
    refine ⟨below.usable, short, fun pre content ne within holds => ?_, fun holds => ?_⟩
    · have isDir := dirs pre ne within
      rw [grows.kept _ _ holds] at isDir
      cases isDir
    · exact apart (grows.kept _ _ holds)

/-- **A file is stored if nothing stands in its way.** -/
theorem storeFile_of_room (house : d.Houses root l) (plain : d.PlainIn l)
    (there : d.LeadsTo root l) (at_ : p.LiesAt root ns) (own : Owned ns) (ends : p.EndsIn n)
    (usable : Usable p) (room : d.HasRoom l ns) (content : Bytes) :
    ∃ d', d.apply (.storeFile p content) = (.ok (), d') := by
  obtain ⟨above, parent, is⟩ := ends.exists_parent
  obtain ⟨ms, x, rfl⟩ := (List.eq_nil_or_concat' ns).resolve_left own.ne_nil
  obtain ⟨rfl, at_above, -⟩ := at_.above is
  obtain ⟨short, free, apart⟩ := room
  rw [List.dropLast_concat] at free
  have own_above : ∀ pre, pre <+: ms → pre ≠ [] → Owned pre :=
    fun pre within ne => own.of_le ne (within.trans (List.prefix_append ms [n]))
  have enough : ms.length < above.text.utf8ByteSize + 2 := by
    have bound := above.length_steps_le
    rw [at_above.steps, List.length_append, List.length_map] at bound
    omega
  obtain ⟨d₁, made⟩ := makeAll_of_free house plain there at_above own_above
    (fun ne => usable.of_beginning ne is.text.choose_spec)
    (fun _ last => at_above.endsIn_of_parent parent last)
    (fun x mem => short x (List.mem_append_left _ mem)) free enough
  obtain ⟨t, found⟩ :=
    find_of_made house plain there at_ own usable ends is (short n (by simp)) made
  have grown := makeAll_grows d above (above.text.utf8ByteSize + 2)
  rw [made] at grown
  -- No directory has been created where the file is to be.
  have apart₁ : d₁.get? (l ++ (ms ++ [n])) ≠ some .directory := by
    intro holds
    have added := makeAll_added (d := d) (p := above) (above.text.utf8ByteSize + 2)
      (m := l ++ (ms ++ [n])) (by rw [made]; exact holds)
    rcases added with before | way
    · exact apart before
    · obtain ⟨pre, -, within, here⟩ :=
        way.below (there.avoids apart) house plain at_above own_above
      have length := within.length_le
      rw [← List.append_cancel_left here, List.length_append, List.length_singleton] at length
      omega
  obtain ⟨d₂, stored⟩ : ∃ d₂, d₁.replaceFile p content = .ok d₂ := by
    have below :=
      leadsBelow_of_find (grown.steady.houses house) (grown.steady.plainIn plain) at_ own found
    rcases below.target with ⟨e, rfl, holds⟩ | ⟨rfl, -⟩
    · rw [replaceFile, found]
      have file : e ≠ .directory := by
        rintro rfl
        exact apart₁ holds
      simp [ends.endsInSlash, ends.asksForDirectory, ends.getLast?_steps, file]
    · rw [replaceFile, found]
      simp [ends.endsInSlash]
  exact ⟨d₂, by simp only [apply, parent, made, stored]⟩

/-- **A file that has been stored is there, and nothing else has changed** but for the directories
on its way. -/
theorem holdsStored_of_ok (house : d.Houses root l) (plain : d.PlainIn l)
    (there : d.LeadsTo root l) (at_ : p.LiesAt root ns) (own : Owned ns)
    (h : d.apply (.storeFile p content) = (.ok (), d')) : HoldsStored l ns content d d' := by
  -- All that is known of the change by itself: links and other files stay, and directories are
  -- only created on the way.
  have touches : (Change.storeFile p content).Touches root l (· = l ++ ns) :=
    ⟨ns, own, at_, fun _ => rfl⟩
  obtain ⟨steady, spared⟩ := spares_apply house plain touches
  have kept {m : Location} {e : Entry} (before : d.get? m = some e) (free : m ≠ l ++ ns) :=
    kept_apply house plain touches before free
  have added {m : Location} (after : d'.get? m = some .directory) :
      d.get? m = some .directory ∨ d.OnWay p m :=
    apply_added (by rw [h]; exact after : (d.apply (.storeFile p content)).2.get? m = _)
  rw [h] at steady spared kept
  obtain ⟨grown, grows, ⟨_, failed⟩ | ⟨⟨t, below⟩, apart, stored⟩⟩ :=
    apply_storeFile house plain at_ own content
  · rw [failed] at h
    cases h
  obtain rfl : grown.put (l ++ ns) (.file content) = d' := by
    rw [stored] at h
    exact congrArg Prod.snd h
  refine ⟨get?_put_self _ _ (by simp [own.ne_nil]), fun pre ne within => ?_, fun m free => ?_⟩
  · obtain ⟨k, way⟩ := below.way
    have isDir := (way.of_names ((grows.steady.plainIn plain).along own)).2 pre ne within
    rwa [get?_put_of_ne]
    intro here
    have length := within.length_le
    have names := List.length_pos_of_ne_nil own.ne_nil
    rw [List.append_cancel_left here, List.length_dropLast] at length
    omega
  · have notHere : m ≠ l ++ ns := free ns own.ne_nil List.prefix_rfl
    cases before : d.get? m with
    | some e => exact kept before notHere
    | none =>
        cases after : (grown.put (l ++ ns) (.file content)).get? m with
        | none => rfl
        | some e =>
            have new : d.get? m = some e := by
              cases e with
              | file other => exact (spared m other notHere).1 after
              | directory =>
                  refine (added after).resolve_right fun way => ?_
                  obtain ⟨pre, ne, within, here⟩ := way.below (there.avoids (by simp [before]))
                    house plain at_ fun pre within ne => own.of_le ne within
                  exact free pre ne within here
              | link t => exact (steady.links m t).2 after
            rw [before] at new
            cases new

/-- **What there is below the place of the cache when a file has been stored**: the file, the
directories on its way, and what there was. -/
theorem HoldsStored.get?_cases (stored : HoldsStored l ns content d d') (ms : List String)
    (ne : ms ≠ []) : ms = ns ∧ d'.get? (l ++ ms) = some (.file content)
      ∨ ms <+: ns.dropLast ∧ d'.get? (l ++ ms) = some .directory
      ∨ d'.get? (l ++ ms) = d.get? (l ++ ms) := by
  by_cases on : ms <+: ns
  · by_cases whole : ms = ns
    · exact .inl ⟨whole, by rw [whole]; exact stored.file⟩
    · have ne' : ns ≠ [] := fun none => ne (List.prefix_nil.1 (by rwa [none] at on))
      rw [← List.dropLast_append_getLast ne', List.prefix_concat_iff,
        List.dropLast_append_getLast] at on
      have within := on.resolve_left whole
      exact .inr (.inl ⟨within, stored.way ms ne within⟩)
  · refine .inr (.inr (stored.others _ fun pre _ within here => on ?_))
    rwa [List.append_cancel_left here]

/-- **What has been stored stands in the way of what is to be stored below it or above it**, and of
nothing else. -/
theorem HoldsStored.room_iff (stored : HoldsStored l ns content d d') (room : d.HasRoom l ns)
    (ne : ns ≠ []) (ne' : ms ≠ []) : d'.HasRoom l ms
      ↔ d.HasRoom l ms ∧ ¬ ns <+: ms.dropLast ∧ ¬ ms <+: ns.dropLast := by
  constructor
  · rintro ⟨short, free, apart⟩
    refine ⟨⟨short, fun pre other nonempty within holds => ?_, fun holds => ?_⟩,
      fun within => free ns content ne within stored.file,
      fun within => apart (stored.way ms ne' within)⟩
    · rcases stored.get?_cases pre nonempty with ⟨rfl, there⟩ | ⟨above, -⟩ | same
      · exact free _ content nonempty within there
      · exact room.free pre other nonempty above holds
      · exact free pre other nonempty within (same.trans holds)
    · rcases stored.get?_cases ms ne' with ⟨rfl, -⟩ | ⟨-, there⟩ | same
      · exact room.apart holds
      · exact apart there
      · exact apart (same.trans holds)
  · rintro ⟨⟨short, free, apart⟩, below, above⟩
    refine ⟨short, fun pre other nonempty within holds => ?_, fun holds => ?_⟩
    · rcases stored.get?_cases pre nonempty with ⟨rfl, -⟩ | ⟨-, there⟩ | same
      · exact below within
      · rw [there] at holds
        cases holds
      · exact free pre other nonempty within (same.symm.trans holds)
    · rcases stored.get?_cases ms ne' with ⟨-, there⟩ | ⟨within, -⟩ | same
      · rw [there] at holds
        cases holds
      · exact above within
      · exact apart (same.symm.trans holds)

/-- **The disk stays steady when a file is stored**, and the path of the cache leads to its place
still. -/
theorem steady_of_stored (house : d.Houses root l) (plain : d.PlainIn l) (there : d.LeadsTo root l)
    (at_ : p.LiesAt root ns) (own : Owned ns)
    (h : d.apply (.storeFile p content) = (.ok (), d')) : Steady d d' ∧ d'.LeadsTo root l := by
  have steady := steady_storeFile house plain at_ own content
  have there' := there.storeFile house plain at_ own content
  rw [h] at steady there'
  exact ⟨steady, there'⟩

end Disk

/-! ## Rewritten sources -/

namespace RewriteCache

open Disk (Usable HoldsStored)

variable {c : RewriteCache} {l : Location} {source source' : Path} {content content' : Fingerprint}
  {rewritten rewritten' : Bytes} {d d' : Disk}

/-- **Nothing stands in the way of what is kept for a source**, in a cache at a place. -/
structure HasRoom (c : RewriteCache) (l : Location) (source : Path) (d : Disk) : Prop where
  /-- The path of the rewritten source can be looked up. -/
  sourceUsable : Usable (c.sourcePath source)
  /-- So can that of the record. -/
  recordUsable : Usable (c.recordPath source)
  /-- Nothing stands in the way of the rewritten source. -/
  sourceRoom : d.HasRoom l ("src" :: source.names)
  /-- Nor of the record. -/
  recordRoom : d.HasRoom l ("meta" :: recordNames source.names)

/-- **There are names that lead to a record.** -/
theorem recordNames_ne_nil (ns : List String) : recordNames ns ≠ [] :=
  List.append_ne_nil_of_right_ne_nil _ (List.cons_ne_nil _ _)

/-- **A record is in the directory of its source.** -/
theorem dropLast_recordNames (ns : List String) : (recordNames ns).dropLast = ns.dropLast :=
  List.dropLast_concat

/-- **Rewritten sources and records do not stand in each other's way.** -/
theorem not_prefix_dropLast {x y : String} (apart : x ≠ y) (ns ms : List String) :
    ¬ x :: ns <+: (y :: ms).dropLast := by
  cases ms with
  | nil => simp
  | cons m ms =>
      rw [List.dropLast_cons_cons, List.cons_prefix_cons]
      exact fun within => apart within.1

/-- **The files of a cache are changed as any files are.** -/
theorem perform_ok {changes : List Change} : perform d changes = (.ok (), d')
    ↔ d.applyAll changes = (.ok (), d') := by
  unfold perform
  rcases d.applyAll changes with ⟨_ | _, _⟩ <;> simp

/-- **A rewritten source is kept by its changes.** -/
theorem write_ok : c.write d source content rewritten = (.ok (), d')
    ↔ d.applyAll (c.storeChanges source content rewritten) = (.ok (), d') := perform_ok

/-- **What a cache that is open does to keep a rewritten source**: the source is stored, and then
the record. -/
structure Writes (c : RewriteCache) (l : Location) (source : Path) (content : Fingerprint)
    (rewritten : Bytes) (d m d' : Disk) : Prop where
  /-- There was room for the rewritten source. -/
  sourceRoom : Usable (c.sourcePath source) ∧ d.HasRoom l ("src" :: source.names)
  /-- The rewritten source is stored. -/
  sourceStored : HoldsStored l ("src" :: source.names) rewritten d m
  /-- There was room for the record. -/
  recordRoom : Usable (c.recordPath source) ∧ m.HasRoom l ("meta" :: recordNames source.names)
  /-- The record is stored. -/
  recordStored : HoldsStored l ("meta" :: recordNames source.names)
    (EntryRecord.toJson ⟨content, c.generation⟩).toBytes m d'
  /-- The disk stays steady. -/
  steady : Disk.Steady d d'
  /-- The path of the cache leads to its place still. -/
  there : d'.LeadsTo c.root l

/-- **Keeping a rewritten source stores the source and its record.** -/
theorem IsOpen.writes (isOpen : c.IsOpen l d)
    (h : c.write d source content rewritten = (.ok (), d')) :
    ∃ m, c.Writes l source content rewritten d m d' := by
  obtain ⟨m, first, rest⟩ := Disk.applyAll_cons_ok (write_ok.1 h)
  obtain ⟨m', second, rest⟩ := Disk.applyAll_cons_ok rest
  obtain rfl : m' = d' := by cases rest; rfl
  have at_source := c.sourcePath_liesAt source
  have at_record := c.recordPath_liesAt source
  obtain ⟨steady, there⟩ := Disk.steady_of_stored isOpen.houses isOpen.plain isOpen.there at_source
    (.source _) first
  have house := steady.houses isOpen.houses
  have plain := steady.plainIn isOpen.plain
  obtain ⟨steady', there'⟩ := Disk.steady_of_stored house plain there at_record (.record _) second
  exact ⟨m, Disk.room_of_stored isOpen.houses isOpen.plain at_source (.source _) first,
    Disk.holdsStored_of_ok isOpen.houses isOpen.plain isOpen.there at_source (.source _) first,
    Disk.room_of_stored house plain at_record (.record _) second,
    Disk.holdsStored_of_ok house plain there at_record (.record _) second,
    steady.trans steady', there'⟩

/-- **There was room for what has been kept.** -/
theorem Writes.room {m : Disk} (writes : c.Writes l source content rewritten d m d') :
    c.HasRoom l source d := by
  obtain ⟨usable, room⟩ := writes.recordRoom
  exact ⟨writes.sourceRoom.1, usable, writes.sourceRoom.2,
    ((writes.sourceStored.room_iff writes.sourceRoom.2 (by simp) (by simp)).1 room).1⟩

/-- **A rewritten source is kept exactly if nothing stands in its way**, in a cache that is
open. -/
theorem IsOpen.write_ok_iff (isOpen : c.IsOpen l d) (named : source.names ≠ [])
    (content : Fingerprint) (rewritten : Bytes) :
    (∃ d', c.write d source content rewritten = (.ok (), d')) ↔ c.HasRoom l source d := by
  constructor
  · rintro ⟨d', h⟩
    obtain ⟨m, writes⟩ := isOpen.writes h
    exact writes.room
  · intro room
    obtain ⟨x, ends⟩ := c.exists_sourcePath_endsIn source named
    obtain ⟨y, ends'⟩ := c.exists_recordPath_endsIn source
    have at_source := c.sourcePath_liesAt source
    obtain ⟨m, first⟩ := Disk.storeFile_of_room isOpen.houses isOpen.plain isOpen.there at_source
      (.source _) ends room.sourceUsable room.sourceRoom rewritten
    obtain ⟨steady, there⟩ := Disk.steady_of_stored isOpen.houses isOpen.plain isOpen.there
      at_source (.source _) first
    have stored := Disk.holdsStored_of_ok isOpen.houses isOpen.plain isOpen.there at_source
      (.source _) first
    -- The rewritten source is not in the way of its own record.
    have left := (stored.room_iff room.sourceRoom (by simp) (by simp)).2 ⟨room.recordRoom,
      not_prefix_dropLast (by decide) _ _, not_prefix_dropLast (by decide) _ _⟩
    obtain ⟨d', second⟩ := Disk.storeFile_of_room (steady.houses isOpen.houses)
      (steady.plainIn isOpen.plain) there (c.recordPath_liesAt source) (.record _) ends'
      room.recordUsable left (EntryRecord.toJson ⟨content, c.generation⟩).toBytes
    exact ⟨d', write_ok.2 (by simp only [storeChanges, Disk.applyAll, first, second])⟩

/-! ## Limits -/

/-- **The paths of what is kept for a source have the path of the source behind those of the
directories.** -/
theorem text_sourcePath (c : RewriteCache) {place : Location} (names : ∀ n ∈ place, Path.IsName n) :
    (c.sourcePath place.path).text = c.sourceDir.text ++ place.path.text
      ∧ (c.recordPath place.path).text = c.recordDir.text ++ place.path.text ++ ".json" := by
  have relative := Path.isAbsolute_intercalate names
  have sourceDir : c.sourceDir.EndsIn "src" := Path.endsIn_child _ (by constructor <;> decide)
  have recordDir : c.recordDir.EndsIn "meta" := Path.endsIn_child _ (by constructor <;> decide)
  rw [sourcePath, recordPath, namesOf_eq, Disk.names_path names, Path.text_join sourceDir relative,
    Path.text_join recordDir relative, Location.path]
  simp only [String.append_assoc, and_self]

/-- **A source is within the limits of a cache**: neither the path of its record nor a name in it is
too long. -/
structure Within (c : RewriteCache) (place : Location) : Prop where
  /-- The path is not too long. -/
  path : (c.recordPath place.path).text.utf8ByteSize ≤ Disk.pathLimit
  /-- No name is too long. -/
  names : ∀ n ∈ recordNames place, n.utf8ByteSize ≤ Disk.nameLimit

/-- **The paths of what is kept for a file can be looked up exactly if that of the record is not too
long**, in a cache that is open. -/
theorem IsOpen.usable_iff (isOpen : c.IsOpen l d) {place : Location}
    (names : ∀ n ∈ place, Path.IsName n) (usable : Usable place.path) :
    Usable (c.sourcePath place.path) ∧ Usable (c.recordPath place.path)
      ↔ (c.recordPath place.path).text.utf8ByteSize ≤ Disk.pathLimit := by
  refine ⟨fun both => both.2.short, fun short => ?_⟩
  obtain ⟨source, record⟩ := c.text_sourcePath names
  have shorter : c.sourceDir.text.utf8ByteSize ≤ c.recordDir.text.utf8ByteSize := by
    have sizes : ("src" : String).utf8ByteSize ≤ ("meta" : String).utf8ByteSize := by decide
    unfold RewriteCache.sourceDir RewriteCache.recordDir Path.child Path.join
    rw [show (⟨"src"⟩ : Path).isAbsolute = false from rfl,
      show (⟨"meta"⟩ : Path).isAbsolute = false from rfl, if_neg Bool.false_ne_true,
      if_neg Bool.false_ne_true]
    split <;> simp only [String.utf8ByteSize_append] <;> omega
  have sized := short
  rw [record, String.utf8ByteSize_append, String.utf8ByteSize_append] at sized
  refine ⟨⟨?_, ?_, ?_⟩, ?_, ?_, short⟩
  · rw [source, String.toList_append, List.mem_append, not_or]
    exact ⟨isOpen.sources.no_nul, usable.no_nul⟩
  · rw [source]
    exact fun empty => usable.ne_empty (String.append_eq_empty_iff.1 empty).2
  · rw [source, String.utf8ByteSize_append]
    omega
  · rw [record, String.toList_append, String.toList_append, List.mem_append, List.mem_append,
      not_or, not_or]
    exact ⟨⟨isOpen.records.no_nul, usable.no_nul⟩, by decide⟩
  · rw [record]
    exact fun empty => usable.ne_empty
      (String.append_eq_empty_iff.1 (String.append_eq_empty_iff.1 empty).1).2

/-- **A cache stays open when a rewritten source is kept**, or is tried to. -/
theorem IsOpen.write (isOpen : c.IsOpen l d) (source : Path) (content : Fingerprint)
    (rewritten : Bytes) : c.IsOpen l (c.write d source content rewritten).2 := by
  rw [RewriteCache.write, Disk.InOrder.perform_snd]
  exact isOpen.performs (.applyAll d (c.storeChanges_stores source content rewritten))

/-- **A cache that is open is so for whatever generation.** -/
theorem IsOpen.of_root {c' : RewriteCache} (isOpen : c.IsOpen l d) (same : c'.root = c.root) :
    c'.IsOpen l d := by
  obtain ⟨root, generation⟩ := c
  obtain ⟨root', generation'⟩ := c'
  subst same
  exact ⟨isOpen.houses, isOpen.plain, isOpen.there, isOpen.sources, isOpen.records,
    isOpen.sourceDir, isOpen.recordDir⟩

/-- **What is kept for a source stands in the way of what is to be kept for another one** exactly if
one rewritten source or record is to be below the other one. -/
theorem Writes.hasRoom_iff {m : Disk} (writes : c.Writes l source content rewritten d m d') :
    c.HasRoom l source' d' ↔ c.HasRoom l source' d
      ∧ (¬ "src" :: source.names <+: ("src" :: source'.names).dropLast
        ∧ ¬ "src" :: source'.names <+: ("src" :: source.names).dropLast)
      ∧ ¬ recordNames source.names <+: (recordNames source'.names).dropLast
        ∧ ¬ recordNames source'.names <+: (recordNames source.names).dropLast := by
  have ofSources {ms : List String} (ne : ms ≠ []) :=
    writes.sourceStored.room_iff writes.sourceRoom.2 (List.cons_ne_nil _ _) ne
  have ofRecords {ms : List String} (ne : ms ≠ []) :=
    writes.recordStored.room_iff writes.recordRoom.2 (List.cons_ne_nil _ _) ne
  have ne (x : String) (ns : List String) : x :: ns ≠ [] := List.cons_ne_nil x ns
  have records (ns ms : List String) : "meta" :: recordNames ns
      <+: ("meta" :: recordNames ms).dropLast ↔ recordNames ns <+: (recordNames ms).dropLast := by
    rw [List.dropLast_cons_of_ne_nil (recordNames_ne_nil ms), List.cons_prefix_cons]
    simp
  constructor
  · rintro ⟨usable, usable', room, room'⟩
    obtain ⟨room, -, -⟩ := (ofRecords (ne _ _)).1 room
    obtain ⟨room', below, above⟩ := (ofRecords (ne _ _)).1 room'
    obtain ⟨room, apart⟩ := (ofSources (ne _ _)).1 room
    obtain ⟨room', -⟩ := (ofSources (ne _ _)).1 room'
    rw [records] at below above
    exact ⟨⟨usable, usable', room, room'⟩, apart, below, above⟩
  · rintro ⟨⟨usable, usable', room, room'⟩, apart, below, above⟩
    rw [← records] at below above
    refine ⟨usable, usable', (ofRecords (ne _ _)).2 ⟨(ofSources (ne _ _)).2 ⟨room, apart⟩, ?_, ?_⟩,
      (ofRecords (ne _ _)).2 ⟨(ofSources (ne _ _)).2 ⟨room', ?_, ?_⟩, below, above⟩⟩ <;>
    exact not_prefix_dropLast (by decide) _ _

end RewriteCache

end Seams
