import Mathlib.Data.List.Basic
import Mathlib.Tactic.Common
import Seams.Proofs.CacheFiles
import Seams.Proofs.Creation

/-! # Files of a cache that are in reach
What has been read from a cache, or stored in it, is found again, as long as it stays where it is
and the path of the cache leads to its place. Storing another file takes neither the file nor the
directories on the way.
Main definitions:
* **`Disk.InReach`** — a file of a cache is found where it is. -/

namespace Seams

namespace Disk

open RewriteCache (Owned)

variable {root p : Path} {l m : Location} {ns : List String} {content : Bytes} {d d' : Disk}
  {touched : Location → Prop} {e : Entry}

/-! ## Entries that stay -/

/-- **Storing a file leaves the links as they are.** -/
theorem steady_storeFile (house : d.Houses root l) (plain : d.PlainIn l) (at_ : p.LiesAt root ns)
    (own : Owned ns) (content : Bytes) : Steady d (d.apply (.storeFile p content)).2 := by
  have touches : (Change.storeFile p content).Touches root l fun _ => True :=
    ⟨ns, own, at_, fun _ => trivial⟩
  exact (spares_apply house plain touches).1

/-- **Storing a file takes no other entry**, and no directory at all. -/
theorem kept_storeFile (house : d.Houses root l) (plain : d.PlainIn l) (at_ : p.LiesAt root ns)
    (own : Owned ns) (content : Bytes) (there : d.get? m = some e)
    (apart : Usable p → m = l ++ ns → e = .directory) :
    (d.apply (.storeFile p content)).2.get? m = some e := by
  obtain ⟨grown, grows, ⟨_, failed⟩ | ⟨⟨_, below⟩, apart', stored⟩⟩ :=
    apply_storeFile house plain at_ own content
  · rw [failed]
    exact grows.kept _ _ there
  · have kept := grows.kept _ _ there
    rw [stored, get?_put_of_ne _ _ fun here => ?_, kept]
    rw [here, apart below.usable here] at kept
    exact apart' kept

/-- **Entries that a change does not touch stay.** -/
theorem kept_apply (house : d.Houses root l) (plain : d.PlainIn l) {change : Change}
    (touches : change.Touches root l touched) (there : d.get? m = some e) (free : ¬ touched m) :
    (d.apply change).2.get? m = some e := by
  cases change with
  | ensureDirectory p => exact (makeAll_grows d p _).kept _ _ there
  | removeTree p =>
      obtain ⟨ns, own, at_, all⟩ := touches
      rcases apply_removeTree house plain at_ own with same | removed
      · rwa [same]
      · rwa [removed, get?_cut_apart d fun below => free (all m below)]
  | storeFile p content =>
      obtain ⟨ns, own, at_, here⟩ := touches
      refine kept_storeFile house plain at_ own content there fun usable eq => ?_
      rw [eq] at free
      exact absurd (here usable) free

/-- **Entries that no change of a run touches stay.** -/
theorem Performs.kept (run : Performs (·.Touches root l touched) d d') (house : d.Houses root l)
    (plain : d.PlainIn l) (there : d.get? m = some e) (free : ¬ touched m) :
    d'.get? m = some e := by
  induction run with
  | done => exact there
  | step change touches rest ih =>
      obtain ⟨steady, -⟩ := spares_apply house plain touches
      exact ih (steady.houses house) (steady.plainIn plain)
        (kept_apply house plain touches there free)

/-- **A place that a change does not touch is as it was**, unless a directory is created there. -/
theorem same_apply (house : d.Houses root l) (plain : d.PlainIn l) {change : Change}
    (touches : change.Touches root l touched) (free : ¬ touched m)
    (off : ¬ d.OnWay change.path m) : (d.apply change).2.get? m = d.get? m := by
  obtain ⟨steady, spared⟩ := spares_apply house plain touches
  -- What is new at the place is no file, for those are not touched, and no link.
  cases before : d.get? m with
  | some e => exact kept_apply house plain touches before free
  | none =>
      cases after : (d.apply change).2.get? m with
      | none => rfl
      | some e =>
          have new : d.get? m = some e := by
            cases e with
            | file content => exact (spared m content free).1 after
            | directory => exact (apply_added after).resolve_right off
            | link t => exact (steady.links m t).2 after
          rw [before] at new
          cases new

/-- **There are no links in the directories of a cache** as long as they hold the same. -/
theorem PlainIn.of_same (plain : d.PlainIn l)
    (same : ∀ ns, Owned ns → d'.get? (l ++ ns) = d.get? (l ++ ns)) : d'.PlainIn l := by
  intro ns t own
  rw [same ns own]
  exact plain ns t own

/-! ## Files in reach -/

/-- **A file of a cache is found where it is.** Its path, which lies below that of the cache and
does not ask for a directory, can be looked up, and the directories on the way are there. -/
structure InReach (root : Path) (l : Location) (p : Path) (ns : List String) (content : Bytes)
    (d : Disk) : Prop where
  /-- The path can be looked up. -/
  usable : Usable p
  /-- It lies below that of the cache. -/
  at_ : p.LiesAt root ns
  /-- The names lead into a directory of the cache. -/
  own : Owned ns
  /-- The path does not ask for a directory. -/
  ends : p.asksForDirectory = false
  /-- The names lead to the file. -/
  way : ∃ k, d.Leads false k l (ns.map .name) false (.present (l ++ ns) (.file content))

namespace InReach

/-- **A file in reach is there.** -/
theorem holds (reach : d.InReach root l p ns content) (plain : d.PlainIn l) :
    d.get? (l ++ ns) = some (.file content) := by
  obtain ⟨k, way⟩ := reach.way
  rcases way.of_plain (plain.along reach.own) reach.own.ne_nil with ⟨_, eq, holds⟩ | ⟨eq, -⟩
  · cases eq
    exact holds
  · cases eq

/-- **The directory of the cache in which a file is in reach is there.** -/
theorem directory {x y : String} (reach : d.InReach root l p (x :: y :: ns) content)
    (plain : d.PlainIn l) : d.get? (l ++ [x]) = some .directory := by
  obtain ⟨k, way⟩ := reach.way
  cases way with
  | enter short there way => exact there
  | cross short there => exact absurd there ((plain.along reach.own).first _)

/-- **A file in reach is found**, if the path of the cache leads to its place. -/
theorem find (reach : d.InReach root l p ns content) (plain : d.PlainIn l)
    (there : d.LeadsTo root l) (follow : Bool) :
    d.find follow p = .ok (.present (l ++ ns) (.file content)) := by
  obtain ⟨k, way⟩ := reach.way
  refine find_of_names reach.usable there reach.at_ reach.own.ne_nil fun k => ?_
  rw [reach.ends]
  exact way.names_congr (plain.along reach.own) reach.own.ne_nil (fun _ _ _ => id)
    (reach.holds plain)

/-- **A file in reach is read.** -/
theorem read (reach : d.InReach root l p ns content) (plain : d.PlainIn l)
    (there : d.LeadsTo root l) : d.read p = .ok content :=
  read_eq_ok_iff.2 ⟨l ++ ns, reach.find plain there true⟩

/-- **A file stays in reach** as long as it stays and the directories on the way do. -/
theorem congr (reach : d.InReach root l p ns content) (plain : d.PlainIn l)
    (kept : ∀ pre e, pre ≠ [] → pre <+: ns → e = .directory ∨ pre = ns →
      d.get? (l ++ pre) = some e → d'.get? (l ++ pre) = some e) :
    d'.InReach root l p ns content := by
  obtain ⟨k, way⟩ := reach.way
  refine ⟨reach.usable, reach.at_, reach.own, reach.ends, k, way.names_congr
    (plain.along reach.own) reach.own.ne_nil (fun pre ne within => kept pre _ ne within (.inl rfl))
    ?_⟩
  exact kept ns _ reach.own.ne_nil List.prefix_rfl (.inr rfl) (reach.holds plain)

/-- **A file stays in reach as long as what is in the directories of the cache is the same.** -/
theorem of_same (reach : d.InReach root l p ns content) (plain : d.PlainIn l)
    (same : ∀ ns, Owned ns → d'.get? (l ++ ns) = d.get? (l ++ ns)) :
    d'.InReach root l p ns content :=
  reach.congr plain fun pre _ ne within _ there => by
    rw [same pre (reach.own.of_le ne within)]
    exact there

/-- **A file that is read is in reach**, and the path of the cache leads to its place. -/
theorem of_read (house : d.Houses root l) (plain : d.PlainIn l) (at_ : p.LiesAt root ns)
    (own : Owned ns) (ends : p.asksForDirectory = false) (h : d.read p = .ok content) :
    d.InReach root l p ns content ∧ d.LeadsTo root l := by
  obtain ⟨place, found⟩ := read_eq_ok_iff.1 h
  have below := leadsBelow_of_find house plain at_ own found
  obtain ⟨k, way⟩ := below.way
  rcases below.target with ⟨_, eq, holds⟩ | ⟨eq, -⟩ <;> cases eq
  rw [ends] at way
  exact ⟨⟨below.usable, at_, own, ends, k, way.names_congr (plain.along own) own.ne_nil
    (fun _ _ _ => id) holds⟩, below.root⟩

/-- **A file that has been stored is in reach**, and the path of the cache leads to its place. -/
theorem of_stored (house : d.Houses root l) (plain : d.PlainIn l) (at_ : p.LiesAt root ns)
    (own : Owned ns) (ends : p.asksForDirectory = false)
    (h : d.apply (.storeFile p content) = (.ok (), d')) :
    d'.InReach root l p ns content ∧ d'.LeadsTo root l := by
  obtain ⟨grown, grows, ⟨_, failed⟩ | ⟨⟨t, below⟩, apart, stored⟩⟩ :=
    apply_storeFile house plain at_ own content
  · rw [failed] at h
    cases h
  rw [stored] at h
  obtain rfl : grown.put (l ++ ns) (.file content) = d' := congrArg Prod.snd h
  have plain' := grows.steady.plainIn plain
  obtain ⟨k, way⟩ := below.way
  rw [ends] at way
  refine ⟨⟨below.usable, at_, own, ends, k,
    way.put_file (plain'.along own) own.ne_nil apart content false⟩, ?_⟩
  -- The file stands in the place of no directory and of no link, so the way of the cache stays.
  refine below.root.mono rfl (fun m holds => ?_) fun m t holds => ?_
  · rw [get?_put_of_ne _ _ fun here => ?_, holds]
    rw [here] at holds
    exact apart holds
  · rw [get?_put_of_ne _ _ fun here => ?_, holds]
    rw [here] at holds
    exact plain' ns t own holds

/-- **A file stays in reach when a file is stored at another place.** -/
theorem storeFile {q : Path} {ms : List String} (reach : d.InReach root l p ns content)
    (house : d.Houses root l) (plain : d.PlainIn l) (at_ : q.LiesAt root ms) (own : Owned ms)
    (apart : ns ≠ ms) (other : Bytes) :
    (d.apply (.storeFile q other)).2.InReach root l p ns content := by
  refine reach.congr plain fun pre e _ _ which there =>
    kept_storeFile house plain at_ own other there fun _ here => which.resolve_right ?_
  rintro rfl
  exact apart (List.append_cancel_left here)

end InReach

/-- **The path of a cache leads to its place still when a file has been stored.** -/
theorem LeadsTo.storeFile (there : d.LeadsTo root l) (house : d.Houses root l)
    (plain : d.PlainIn l) (at_ : p.LiesAt root ns) (own : Owned ns) (content : Bytes) :
    (d.apply (.storeFile p content)).2.LeadsTo root l := by
  have steady := steady_storeFile house plain at_ own content
  exact there.mono steady.current
    (fun m holds => kept_storeFile house plain at_ own content holds fun _ _ => rfl)
    fun m t => (steady.links m t).1

/-! ## Directories that are there already -/

/-- **The path of an entry leads to the directory that is there.** -/
theorem LeadsTo.child (there : d.LeadsTo root l) {x : String} (at_ : p.LiesAt root [x])
    (short : x.utf8ByteSize ≤ nameLimit) (holds : d.get? (l ++ [x]) = some .directory) :
    d.LeadsTo p (l ++ [x]) := by
  have start : d.start p = d.start root := by rw [Disk.start, Disk.start, at_.start]
  rw [LeadsTo, walk_eq_ok_iff, at_.steps, start]
  exact (walk_eq_ok_iff.1 there).append (List.cons_ne_nil _ _) fun _ => .enter short holds .here

/-- **A path in front of one that can be looked up can be looked up**, if there is something. -/
theorem Usable.of_join {q : Path} (usable : Usable (p.join q)) (relative : q.isAbsolute = false)
    (ne : p.text ≠ "") : Usable p := by
  obtain ⟨tail, text⟩ : ∃ tail, (p.join q).text = p.text ++ tail := by
    unfold Path.join
    rw [relative]
    split
    · contradiction
    split
    · exact ⟨_, rfl⟩
    · exact ⟨"/" ++ q.text, String.append_assoc⟩
  exact usable.of_beginning ne text

/-- **Nothing changes where a directory is there already.** -/
theorem apply_ensureDirectory_self (usable : Usable p) (there : d.LeadsTo p m) :
    d.apply (.ensureDirectory p) = (.ok (), d) :=
  makeAll_of_leadsTo usable there _

end Disk

end Seams
