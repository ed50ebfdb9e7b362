import Mathlib.Data.List.Basic
import Mathlib.Tactic.Common
import Seams.Loading
import Seams.Proofs.Entries

/-! # Which file a resolver reads
A resolver reads the file at the place that a path leads to, by the path of that place. This is the
file that the path itself names, whatever links and steps up there are on the way. But where the
path leads nowhere, the place is told from the text alone, and there may be a file all the same.
Main definitions:
* **`Disk.Regular`** — a disk as there can be one;
* **`Disk.Stands`** — the directories on the way to a place are there;
* **`Active.answer`** — what is loaded for a path once a content has been read for it;
* **`Resolver.Transparent`** — a resolver loads what is made of the file that a path names, and
  nothing where it names none. -/

namespace Seams

namespace Path

end Path

namespace Disk

variable {d : Disk} {p : Path} {l place : Location} {e : Entry} {raw : Bytes} {follow : Bool}
  {k : Nat} {steps : List Step} {dir : Bool} {t : Target}

/-! ## Standing places -/

/-- **The directories on the way to a place are there**, and the place is one of them. -/
def Stands (d : Disk) (l : Location) : Prop :=
  ∀ front n, front ++ [n] <+: l → n.utf8ByteSize ≤ nameLimit
    ∧ d.get? (front ++ [n]) = some .directory

/-- **A place below a standing one stands if there is a directory.** -/
theorem Stands.concat (stands : d.Stands l) {n : String} (short : n.utf8ByteSize ≤ nameLimit)
    (there : d.get? (l ++ [n]) = some .directory) : d.Stands (l ++ [n]) := by
  intro front m within
  rcases List.prefix_concat_iff.1 within with same | within
  · obtain ⟨rfl, last⟩ := List.append_inj' same rfl
    cases last
    exact ⟨short, there⟩
  · exact stands front m within

/-- **What is found from a standing place is in a standing place**, or is one. -/
theorem Leads.stands (h : d.Leads follow k l steps dir (.present place e)) (stands : d.Stands l) :
    e = .directory ∧ d.Stands place
      ∨ ∃ m n, place = m ++ [n] ∧ d.Stands m ∧ n.utf8ByteSize ≤ nameLimit
        ∧ d.get? place = some e ∧ ∀ t, e = .link t → follow = false := by
  generalize eq : Target.present place e = found at h
  induction h with
  | here =>
      cases eq
      exact .inl ⟨rfl, stands⟩
  | up way ih =>
      exact ih (fun front n within => stands front n (within.trans (List.dropLast_prefix _))) eq
  | vacant => cases eq
  | enter short there way ih => exact ih (stands.concat short there) eq
  | file short there =>
      cases eq
      exact .inr ⟨_, _, rfl, stands, short, there, fun t absurdity => by cases absurdity⟩
  | link short there stay =>
      cases eq
      exact .inr ⟨_, _, rfl, stands, short, there, fun _ _ => stay⟩
  | cross short there go ne way ih =>
      refine ih ?_ eq
      split
      · exact fun front n within => by simpa using List.prefix_nil.1 within
      · exact stands

/-- **A way over a directory goes on in it.** -/
theorem Leads.of_directory {n : String} {rest : List Step}
    (there : d.get? (l ++ [n]) = some .directory)
    (h : d.Leads follow k l (.name n :: rest) dir t) : d.Leads follow k (l ++ [n]) rest dir t := by
  cases h with
  | enter _ _ way => exact way
  | vacant _ none => rw [there] at none; cases none
  | file _ other => rw [there] at other; cases other
  | link _ other => rw [there] at other; cases other
  | cross _ other => rw [there] at other; cases other

/-- **Names lead to a standing place**, and on from there. -/
theorem Stands.leads_iff {ns : List String} {rest : List Step} (stands : d.Stands (l ++ ns)) :
    d.Leads follow k l (ns.map .name ++ rest) dir t ↔ d.Leads follow k (l ++ ns) rest dir t := by
  induction ns generalizing l with
  | nil => simp
  | cons n ns ih =>
      have deeper : l ++ n :: ns = l ++ [n] ++ ns := by simp
      rw [deeper] at stands ⊢
      obtain ⟨short, there⟩ := stands l n (List.prefix_append _ _)
      rw [← ih stands, List.map_cons, List.cons_append]
      exact ⟨.of_directory there, .enter short there⟩

/-! ## Paths of places -/

/-- **The path of a place takes its names as steps.** -/
theorem steps_path (names : ∀ n ∈ place, Path.IsName n) :
    place.path.steps = place.map .name := by
  rw [Location.path, Path.steps_top fun n mem => (names n mem).no_slash,
    Path.filterMap_stepOf_names names]

/-- **The path of an entry of a directory ends in its name.** -/
theorem path_endsIn {n : String} (names : ∀ m ∈ place ++ [n], Path.IsName m) :
    (Location.path (place ++ [n])).EndsIn n := by
  refine ⟨names n (by simp), "" :: place, ?_⟩
  have slash := Path.pieces_slash "" ("/".intercalate (place ++ [n]))
  rw [String.empty_append] at slash
  rw [Location.path, slash, Path.pieces_intercalate (by simp) fun m mem => (names m mem).no_slash]
  rfl

/-- **A disk as there can be one.** No name holds a zero, and the current directory is there. -/
structure Regular (d : Disk) : Prop where
  /-- No name holds a zero. -/
  no_nul : ∀ entry ∈ d.entries, ∀ n ∈ entry.1, Char.ofNat 0 ∉ n.toList
  /-- The current directory is there. -/
  stands : d.Stands d.current
  /-- It is a place. -/
  isName : ∀ n ∈ d.current, Path.IsName n

/-- **What is found is found by the path of its place**, if this path can be looked up. -/
theorem find_path (start : d.start p = []) (found : d.find true p = .ok (.present place e))
    (usable : Usable place.path) : d.find true place.path = .ok (.present place e) := by
  obtain ⟨-, way⟩ := find_eq_ok_iff.1 found
  rw [start] at way
  have names := way.isName (fun n mem => absurd mem List.not_mem_nil) fun n mem =>
    Path.isName_of_mem_names (List.mem_filterMap.2 ⟨_, mem, rfl⟩)
  have top : d.Stands [] := fun front n within => by simpa using List.prefix_nil.1 within
  have from_top : d.start place.path = [] := by simp [Disk.start, Location.path, Path.isAbsolute]
  refine find_eq_ok_iff.2 ⟨usable, ?_⟩
  -- What is found after all links is no link.
  rcases way.stands top with ⟨rfl, stands⟩ | ⟨m, n, rfl, stands, small, there, noLink⟩
  · rw [from_top, steps_path names, ← List.append_nil (place.map Step.name)]
    exact (stands.leads_iff (l := [])).2 .here
  · rw [from_top, steps_path names, (path_endsIn names).asksForDirectory, List.map_append]
    refine (stands.leads_iff (l := [])).2 ?_
    cases e with
    | file content => exact .file small there
    | directory => exact .enter small there .here
    | link t => cases noLink t rfl

end Disk

/-! ## What a resolver loads -/

/-- **What is loaded for a path once a content has been read for it.** -/
def Active.answer (a : Active) (d : Disk) (requested : Path) (raw : Bytes) :
    Except ResolveError Resolved × Active × Disk :=
  if !a.scope.covers (d.normalize requested) then
    (.ok ⟨requested, raw, .outOfScope⟩, a.countPassed, d)
  else if a.cache.hasValid d (d.normalize requested).path (Fingerprint.of raw) then
    match a.cache.read d (d.normalize requested).path with
    | .error e => (.error (.cache e), a, d)
    | .ok bytes => (.ok ⟨requested, bytes, .cacheHit⟩, a.countHit, d)
  else
    let (result, d) := a.rewrite d requested (d.normalize requested) raw
    (result, a.countRun, d)

section

variable {r : Resolver} {a : Active} {d : Disk} {p : Path} {raw : Bytes}

/-- **The answer is given once the path of the place is read.** -/
theorem Active.resolve_eq (a : Active) (d : Disk) (p : Path) :
    a.resolve d p = match d.read (d.normalize p).path with
      | .error e => (.error (.unreadable p e), a, d)
      | .ok raw => a.answer d p raw := by
  unfold resolve
  split
  · rename_i e read
    simp only [read]
  · rename_i raw read
    simp only [read]
    unfold answer
    split
    · rfl
    split
    · split <;> rename_i kept <;> simp only [kept]
    · rfl

/-- **Once a content has been read, it is not said that it cannot be.** -/
theorem Active.answer_ne_unreadable (q : Path) (cause : Fault) :
    (a.answer d p raw).1 ≠ .error (.unreadable q cause) := by
  have rewritten (place : Location) :
      (a.rewrite d p place raw).1 ≠ .error (.unreadable q cause) := by
    unfold rewrite
    split
    · exact fun h => by cases h
    · split <;> exact fun h => by cases h
  unfold answer
  split
  · exact fun h => by cases h
  split
  · split <;> exact fun h => by cases h
  · exact rewritten _

namespace Resolver

/-- **What a resolver in use loads for a path once a content has been read for it.** -/
def answer (r : Resolver) (a : Active) (d : Disk) (p : Path) (raw : Bytes) :
    Except ResolveError Resolved × Resolver × Disk :=
  ((a.answer d p raw).1, { r with active := some (a.answer d p raw).2.1 }, (a.answer d p raw).2.2)

/-- **A resolver in use answers once it has read the path of the place.** -/
theorem resolve_eq (locked : r.active = some a) :
    r.resolve d p = match d.read (d.normalize p).path with
      | .error e => (.error (.unreadable p e), r, d)
      | .ok raw => r.answer a d p raw := by
  have same : { r with active := some a } = r := by rw [← locked]
  unfold resolve activeState
  rw [locked]
  simp only [Active.resolve_eq]
  cases d.read (d.normalize p).path with
  | error e => exact congrArg (fun s => (_, s, d)) same
  | ok raw => rfl

/-- **A resolver loads for a path what is made of the file that the path names.** -/
structure Transparent (r : Resolver) (a : Active) (d : Disk) (p : Path) : Prop where
  /-- Where nothing can be read, that is said, and nothing is changed. -/
  fails : ∀ e, readPlain d p = .error e →
    ∃ cause, r.resolve d p = (.error (.unreadable p cause), r, d)
  /-- What is read is what the answer is made of. -/
  works : ∀ x, readPlain d p = .ok x → r.resolve d p = r.answer a d p x.bytes
  /-- It is what is loaded out of scope. -/
  returns : ∀ x, readPlain d p = .ok x → a.scope.holds d p = false →
    (r.resolve d p).1 = .ok ⟨p, x.bytes, .outOfScope⟩

/-- **A transparent resolver finds a file where there is one.** -/
theorem Transparent.isFile_iff (transparent : r.Transparent a d p) (locked : r.active = some a) :
    d.isFile (d.normalize p).path = true ↔ d.isFile p = true := by
  rw [Disk.isFile_iff, Disk.isFile_iff]
  constructor
  · rintro ⟨raw, read⟩
    cases plain : d.read p with
    | ok raw => exact ⟨raw, rfl⟩
    | error e =>
        obtain ⟨cause, failed⟩ := transparent.fails (.unreadable p e) (by rw [readPlain, plain])
        rw [resolve_eq locked, read] at failed
        exact absurd (congrArg Prod.fst failed) (Active.answer_ne_unreadable p cause)
  · rintro ⟨raw, plain⟩
    have works := transparent.works ⟨p, raw, none⟩ (by rw [readPlain, plain])
    rw [resolve_eq locked] at works
    cases read : d.read (d.normalize p).path with
    | ok raw => exact ⟨raw, rfl⟩
    | error e =>
        rw [read] at works
        exact absurd (congrArg Prod.fst works).symm (Active.answer_ne_unreadable p e)

end Resolver

end

end Seams
