import Mathlib.Data.List.Basic
import Mathlib.Tactic.Common
import Seams.Proofs.Paths

/-! # Ways through a disk
What a path leads to is found by a function that takes step after step. Its successes are told as a
relation here, one rule for each thing that a step can meet, and what holds of the places that
paths lead to is proved over the rules.
Main definitions:
* **`Disk.Leads`** — some steps lead from a directory to a target;
* **`Disk.LeadsTo`** — a path leads to the directory at a place;
* **`Disk.SameLinks`** — two disks hold the same links;
* **`Disk.Houses`** — a path leads to one place or nowhere, whatever directories there are;
* **`Disk.PlainIn`** — there are no links in the directories of a cache. -/

namespace Seams

/-- **An entry is a link.** -/
def Entry.isLink : Entry → Bool
  | .link _ => true
  | _ => false

@[simp] theorem Entry.isLink_link (t : Path) : (Entry.link t).isLink = true := rfl

namespace Disk

open RewriteCache (Owned)

/-! ## What there is at a place -/

/-- **There is a directory at the top.** -/
@[simp] theorem get?_top (d : Disk) : d.get? [] = some .directory := rfl

/-- **What there is at a place below the top is listed.** -/
theorem mem_entries {d : Disk} {l : Location} {e : Entry} (there : d.get? l = some e)
    (below : l ≠ []) : (l, e) ∈ d.entries := by
  rw [get?, if_neg below] at there
  obtain ⟨before, after, eq, -⟩ := List.lookup_eq_some_iff.1 there
  rw [eq]
  simp

/-- **Entries that are picked by their places are found at those places only.** -/
theorem lookup_filter (entries : List (Location × Entry)) (keep : Location → Bool) (l : Location) :
    (entries.filter fun e => keep e.1).lookup l = if keep l then entries.lookup l else none := by
  induction entries with
  | nil => simp
  | cons e entries ih =>
      obtain ⟨m, e⟩ := e
      by_cases hm : l = m
      · subst hm
        by_cases hk : keep l <;> simp [hk, ih]
      · have other : (l == m) = false := by simpa using hm
        by_cases hk : keep m <;> simp [hk, ih, List.lookup_cons, other]

/-- **What is put at a place is there.** -/
theorem get?_put_self (d : Disk) {l : Location} (e : Entry) (h : l ≠ []) :
    (d.put l e).get? l = some e := by
  simp [get?, put, h]

/-- **What is put at a place leaves the others as they are.** -/
theorem get?_put_of_ne (d : Disk) {l m : Location} (e : Entry) (h : m ≠ l) :
    (d.put l e).get? m = d.get? m := by
  by_cases hm : m = []
  · rw [hm, get?_top, get?_top]
  · have other : (m == l) = false := by simpa using h
    have kept := lookup_filter d.entries (fun x => x != l) m
    rw [bne, other] at kept
    rw [get?, get?, if_neg hm, if_neg hm, put, List.lookup_cons, other]
    exact kept

/-- **Nothing is left at and below a place that is cut.** -/
theorem get?_cut_below (d : Disk) {l m : Location} (ne : m ≠ []) (h : l <+: m) :
    (d.cut l).get? m = none := by
  have kept := lookup_filter d.entries (fun x => !l.isPrefixOf x) m
  rw [ List.isPrefixOf_iff_prefix.2 h] at kept
  rw [get?, if_neg ne]
  exact kept

/-- **Places that are not below a place stay as they are when it is cut.** -/
theorem get?_cut_apart (d : Disk) {l m : Location} (h : ¬ l <+: m) :
    (d.cut l).get? m = d.get? m := by
  by_cases hm : m = []
  · rw [hm, get?_top, get?_top]
  · have kept := lookup_filter d.entries (fun x => !l.isPrefixOf x) m
    have apart : l.isPrefixOf m = false := by
      rw [Bool.eq_false_iff]
      exact fun e => h ( List.isPrefixOf_iff_prefix.1 e)
    rw [apart] at kept
    rw [get?, get?, if_neg hm, if_neg hm]
    exact kept

/-- **What is left when something is cut off was there before**, and is not below it. -/
theorem get?_of_cut {d : Disk} {l m : Location} {e : Entry} (h : (d.cut l).get? m = some e) :
    d.get? m = some e ∧ (m ≠ [] → ¬ l <+: m) := by
  by_cases top : m = []
  · subst top
    exact ⟨h, fun ne => absurd rfl ne⟩
  · have apart : ¬ l <+: m := by
      intro below
      rw [get?_cut_below d top below] at h
      cases h
    rw [get?_cut_apart d apart] at h
    exact ⟨h, fun _ => apart⟩

/-! ## The rules of a walk -/

/-- **Steps lead from a directory to a target.** The number bounds the links on the way; the last
flag is whether a directory is asked for. -/
inductive Leads (d : Disk) (follow : Bool) :
    Nat → Location → List Step → Bool → Target → Prop where
  /-- No step is left. -/
  | here {k l dir} : Leads d follow k l [] dir (.present l .directory)
  /-- The way goes on above. -/
  | up {k l rest dir t} (way : Leads d follow k l.dropLast rest dir t) :
      Leads d follow k l (.up :: rest) dir t
  /-- There is nothing under the last name. -/
  | vacant {k l n dir} (short : n.utf8ByteSize ≤ nameLimit) (none : d.get? (l ++ [n]) = none) :
      Leads d follow k l [.name n] dir (.vacant (l ++ [n]))
  /-- The way goes on in a directory. -/
  | enter {k l n rest dir t} (short : n.utf8ByteSize ≤ nameLimit)
      (there : d.get? (l ++ [n]) = some .directory)
      (way : Leads d follow k (l ++ [n]) rest dir t) : Leads d follow k l (.name n :: rest) dir t
  /-- The last name is that of a file. -/
  | file {k l n content} (short : n.utf8ByteSize ≤ nameLimit)
      (there : d.get? (l ++ [n]) = some (.file content)) :
      Leads d follow k l [.name n] false (.present (l ++ [n]) (.file content))
  /-- The last name is that of a link, which is not followed. -/
  | link {k l n target} (short : n.utf8ByteSize ≤ nameLimit)
      (there : d.get? (l ++ [n]) = some (.link target)) (stay : follow = false) :
      Leads d follow k l [.name n] false (.present (l ++ [n]) (.link target))
  /-- The way goes on where a link leads. -/
  | cross {k l n target rest dir t} (short : n.utf8ByteSize ≤ nameLimit)
      (there : d.get? (l ++ [n]) = some (.link target))
      (go : (rest.isEmpty && !follow && !dir) = false) (ne : target.text ≠ "")
      (way : Leads d follow k (if target.isAbsolute then [] else l) (target.steps ++ rest)
        (dir || (rest.isEmpty && target.asksForDirectory)) t) :
      Leads d follow (k + 1) l (.name n :: rest) dir t

/-- **What a walk within one stretch finds follows the rules**, if what it finds behind links
does. -/
theorem leads_of_walkWith {d : Disk} {follow : Bool} {k : Nat}
    {cross : Location → Path → List Step → Bool → Except Fault Target} {l : Location}
    {steps : List Step} {dir : Bool} {t : Target}
    (behind : ∀ {l n target rest dir t}, n.utf8ByteSize ≤ nameLimit →
      d.get? (l ++ [n]) = some (.link target) → (rest.isEmpty && !follow && !dir) = false →
      cross l target rest dir = .ok t → d.Leads follow k l (.name n :: rest) dir t)
    (h : d.walkWith follow cross l dir steps = .ok t) : d.Leads follow k l steps dir t := by
  induction steps generalizing l with
  | nil =>
      obtain rfl : Target.present l .directory = t := by simpa [walkWith] using h
      exact .here
  | cons step rest ih =>
      cases step with
      | up => exact .up (ih h)
      | name n =>
          rw [walkWith] at h
          split at h
          · cases h
          rename_i short
          have short : n.utf8ByteSize ≤ nameLimit := Nat.le_of_not_lt short
          split at h
          · rename_i none
            split at h
            · rename_i last
              obtain rfl : rest = [] := List.isEmpty_iff.1 last
              cases h
              exact .vacant short none
            · cases h
          · rename_i there
            exact .enter short there (ih h)
          · rename_i content there
            split at h
            · rename_i last
              rw [Bool.and_eq_true, Bool.not_eq_true', List.isEmpty_iff] at last
              obtain ⟨rfl, rfl⟩ := last
              cases h
              exact .file short there
            · cases h
          · rename_i target there
            split at h
            · rename_i last
              simp only [Bool.and_eq_true, Bool.not_eq_true', List.isEmpty_iff] at last
              obtain ⟨⟨rfl, stay⟩, rfl⟩ := last
              cases h
              exact .link short there stay
            · rename_i go
              exact behind short there (Bool.eq_false_iff.2 go) h

/-- **What a walk finds follows the rules.** -/
theorem leads_of_walk {d : Disk} {follow : Bool} {k : Nat} {l : Location} {steps : List Step}
    {dir : Bool} {t : Target} (h : d.walk follow k l steps dir = .ok t) :
    d.Leads follow k l steps dir t := by
  induction k generalizing l steps dir t with
  | zero =>
      rw [walk] at h
      refine leads_of_walkWith ?_ h
      intro l n target rest dir t _ _ _ found
      cases found
  | succ k ih =>
      rw [walk] at h
      refine leads_of_walkWith ?_ h
      intro l n target rest dir t short there go found
      split at found
      · cases found
      · rename_i ne
        exact .cross short there go (by simpa using ne) (ih found)

/-- **A walk finds what the rules allow.** -/
theorem Leads.walk {d : Disk} {follow : Bool} {k : Nat} {l : Location} {steps : List Step}
    {dir : Bool} {t : Target} (h : d.Leads follow k l steps dir t) :
    d.walk follow k l steps dir = .ok t := by
  induction h with
  | @here k l dir => cases k <;> rfl
  | @up k l rest dir t way ih => cases k <;> exact ih
  | @vacant k l n dir short none =>
      cases k <;> simp [Disk.walk, walkWith, Nat.not_lt.2 short, none]
  | @enter k l n rest dir t short there way ih =>
      cases k <;> simpa [Disk.walk, walkWith, Nat.not_lt.2 short, there] using ih
  | @file k l n content short there =>
      cases k <;> simp [Disk.walk, walkWith, Nat.not_lt.2 short, there]
  | @link k l n target short there stay =>
      cases k <;> simp [Disk.walk, walkWith, Nat.not_lt.2 short, there, stay]
  | @cross k l n target rest dir t short there go ne way ih =>
      rw [Disk.walk, walkWith, if_neg (Nat.not_lt.2 short), there]
      simp only [go, Bool.false_eq_true, if_false]
      rw [if_neg (by simpa using ne)]
      exact ih

/-- **The rules tell what a walk finds.** -/
theorem walk_eq_ok_iff {d : Disk} {follow : Bool} {k : Nat} {l : Location} {steps : List Step}
    {dir : Bool} {t : Target} :
    d.walk follow k l steps dir = .ok t ↔ d.Leads follow k l steps dir t :=
  ⟨leads_of_walk, Leads.walk⟩

/-! ## Ways put together -/

/-- **A way that goes on leads to a directory first.** -/
theorem Leads.exists_directory {d : Disk} {follow : Bool} {k : Nat} {l : Location}
    {first rest : List Step} {dir : Bool} {t : Target}
    (h : d.Leads follow k l (first ++ rest) dir t) (ne : rest ≠ []) :
    ∃ j m, d.Leads true k l first true (.present m .directory) ∧ d.Leads follow j m rest dir t := by
  generalize e : first ++ rest = steps at h
  have last {front : List Step} (e : front ++ rest = []) : False :=
    ne (List.append_eq_nil_iff.1 e).2
  induction h generalizing first with
  | here => exact (last e).elim
  | up way ih =>
      rcases List.append_eq_cons_iff.1 e with ⟨rfl, rfl⟩ | ⟨first, rfl, left⟩
      · exact ⟨_, _, .here, .up way⟩
      · obtain ⟨j, m, front, back⟩ := ih left.symm
        exact ⟨j, m, .up front, back⟩
  | vacant short none =>
      rcases List.append_eq_cons_iff.1 e with ⟨rfl, rfl⟩ | ⟨first, rfl, left⟩
      · exact ⟨0, _, .here, .vacant short none⟩
      · exact (last left.symm).elim
  | enter short there way ih =>
      rcases List.append_eq_cons_iff.1 e with ⟨rfl, rfl⟩ | ⟨first, rfl, left⟩
      · exact ⟨_, _, .here, .enter short there way⟩
      · obtain ⟨j, m, front, back⟩ := ih left.symm
        exact ⟨j, m, .enter short there front, back⟩
  | file short there =>
      rcases List.append_eq_cons_iff.1 e with ⟨rfl, rfl⟩ | ⟨first, rfl, left⟩
      · exact ⟨0, _, .here, .file short there⟩
      · exact (last left.symm).elim
  | link short there stay =>
      rcases List.append_eq_cons_iff.1 e with ⟨rfl, rfl⟩ | ⟨first, rfl, left⟩
      · exact ⟨0, _, .here, .link short there stay⟩
      · exact (last left.symm).elim
  | @cross k l n target steps dir t short there go nonempty way ih =>
      rcases List.append_eq_cons_iff.1 e with ⟨rfl, rfl⟩ | ⟨first, rfl, rfl⟩
      · exact ⟨_, _, .here, .cross short there go nonempty way⟩
      · obtain ⟨j, m, front, back⟩ := ih (List.append_assoc _ _ _)
        -- The steps behind the link are not the last ones, so nothing more is asked for.
        have more : (first ++ rest).isEmpty = false := by simp [ne]
        rw [more, Bool.false_and, Bool.or_false] at back
        exact ⟨j, m, .cross short there (by simp) nonempty (by simpa using front), back⟩

/-- **A way to a directory goes on as ways from there do.** -/
theorem Leads.append {d : Disk} {follow : Bool} {k : Nat} {l m : Location}
    {first rest : List Step} {dir : Bool} {t : Target}
    (h : d.Leads true k l first true (.present m .directory)) (ne : rest ≠ [])
    (back : ∀ j, d.Leads follow j m rest dir t) : d.Leads follow k l (first ++ rest) dir t := by
  have step {k : Nat} {l : Location} {first : List Step} {asked : Bool} {found : Target}
      (h : d.Leads true k l first asked found) :
      asked = true → found = .present m .directory →
        d.Leads follow k l (first ++ rest) dir t := by
    induction h with
    | here =>
        intro _ e
        cases e
        exact back _
    | up way ih =>
        intro asked e
        exact .up (ih asked e)
    | vacant =>
        intro _ e
        cases e
    | enter short there way ih =>
        intro asked e
        exact .enter short there (ih asked e)
    | file =>
        intro asked
        cases asked
    | link =>
        intro asked
        cases asked
    | @cross k l n target steps dir' t' short there go nonempty way ih =>
        intro asked e
        have more : (steps ++ rest).isEmpty = false := by simp [ne]
        have way := ih (by rw [asked]; rfl) e
        rw [List.append_assoc] at way
        have onward : ((steps ++ rest).isEmpty && !follow && !dir) = false := by simp [ne]
        have asks : (dir || ((steps ++ rest).isEmpty && target.asksForDirectory)) = dir := by
          rw [more, Bool.false_and, Bool.or_false]
        rw [← asks] at way
        exact Leads.cross short there onward nonempty way
  exact step h rfl rfl

/-! ## What is asked for -/

/-- **A way to a directory is a way whether a directory is asked for or not.** -/
theorem Leads.asking {d : Disk} {k : Nat} {l m : Location} {steps : List Step} {asked : Bool}
    (h : d.Leads true k l steps asked (.present m .directory)) (dir : Bool) :
    d.Leads true k l steps dir (.present m .directory) := by
  generalize e : Target.present m .directory = found at h
  induction h generalizing dir with
  | here => exact .here
  | up way ih => exact .up (ih dir e)
  | vacant => cases e
  | enter short there way ih => exact .enter short there (ih dir e)
  | file => cases e
  | link => cases e
  | cross short there go ne way ih => exact .cross short there (by simp) ne (ih _ e)

/-- **There is something on a way to a directory**, even if the last link is not followed. -/
theorem Leads.unfollowed {d : Disk} {k : Nat} {l m : Location} {steps : List Step} {asked : Bool}
    (h : d.Leads true k l steps asked (.present m .directory)) (dir : Bool) :
    ∃ place e, d.Leads false k l steps dir (.present place e) := by
  generalize e : Target.present m .directory = found at h
  induction h generalizing dir with
  | here => exact ⟨_, _, .here⟩
  | up way ih =>
      obtain ⟨place, entry, way⟩ := ih dir e
      exact ⟨place, entry, .up way⟩
  | vacant => cases e
  | enter short there way ih =>
      obtain ⟨place, entry, way⟩ := ih dir e
      exact ⟨place, entry, .enter short there way⟩
  | file => cases e
  | link => cases e
  | @cross k l n target rest asked t short there go ne way ih =>
      by_cases last : (rest.isEmpty && !dir) = true
      · rw [Bool.and_eq_true, Bool.not_eq_true', List.isEmpty_iff] at last
        obtain ⟨rfl, rfl⟩ := last
        exact ⟨_, _, .link short there rfl⟩
      · obtain ⟨place, entry, way⟩ := ih (dir || (rest.isEmpty && target.asksForDirectory)) e
        refine ⟨place, entry, .cross short there ?_ ne way⟩
        simpa using last

/-- **A way to a place where there is nothing leads to the directory that is put there.** -/
theorem Leads.put_directory {d : Disk} {follow : Bool} {k : Nat} {l place : Location}
    {steps : List Step} {dir : Bool} (h : d.Leads follow k l steps dir (.vacant place))
    (free : d.get? place = none) (dir' : Bool) :
    (d.put place .directory).Leads true k l steps dir' (.present place .directory) := by
  have kept {m : Location} {e : Entry} (he : d.get? m = some e) :
      (d.put place .directory).get? m = some e := by
    rw [get?_put_of_ne d .directory, he]
    rintro rfl
    rw [free] at he
    cases he
  generalize e : Target.vacant place = found at h
  induction h generalizing dir' with
  | here => cases e
  | up way ih => exact .up (ih dir' e)
  | vacant short none =>
      cases e
      exact .enter short (get?_put_self d _ (by simp)) .here
  | enter short there way ih => exact .enter short (kept there) (ih dir' e)
  | file => cases e
  | link => cases e
  | cross short there go ne way ih => exact .cross short (kept there) (by simp) ne (ih _ e)

/-! ## Directories that paths lead to -/

/-- **Where the steps of a path are taken from.** -/
def start (d : Disk) (p : Path) : Location := if p.isAbsolute then [] else d.current

/-- **A path leads to the directory at a place.** -/
def LeadsTo (d : Disk) (p : Path) (l : Location) : Prop :=
  d.walk true linkLimit (d.start p) p.steps true = .ok (.present l .directory)

deriving instance DecidableEq for Target

instance (d : Disk) (p : Path) (l : Location) : Decidable (d.LeadsTo p l) :=
  decidable_of_iff ((d.walk true linkLimit (d.start p) p.steps true).toOption
    = some (.present l .directory)) (by
      unfold LeadsTo
      cases d.walk true linkLimit (d.start p) p.steps true <;> simp [Except.toOption])

/-- **Two disks hold the same links.** -/
def SameLinks (d d' : Disk) : Prop :=
  ∀ l t, d.get? l = some (.link t) ↔ d'.get? l = some (.link t)

/-- **Links alone decide where ways to directories end.** -/
theorem Leads.unique {d d' : Disk} (links : SameLinks d d') {k k' : Nat} {l : Location}
    {steps : List Step} {m m' : Location}
    (h : d.Leads true k l steps true (.present m .directory))
    (h' : d'.Leads true k' l steps true (.present m' .directory)) : m = m' := by
  have step {k : Nat} {l : Location} {steps : List Step} {asked : Bool} {found : Target}
      (h : d.Leads true k l steps asked found) :
      asked = true → found = .present m .directory →
        ∀ k', d'.Leads true k' l steps true (.present m' .directory) → m = m' := by
    induction h with
    | here =>
        intro _ e k' h'
        cases e
        cases h'
        rfl
    | up way ih =>
        intro asked e k' h'
        cases h' with
        | up way' => exact ih asked e k' way'
    | vacant =>
        intro _ e
        cases e
    | enter short there way ih =>
        intro asked e k' h'
        cases h' with
        | enter short' there' way' => exact ih asked e k' way'
        | cross short' there' go' ne' way' =>
            rw [(links _ _).2 there'] at there
            cases there
    | file =>
        intro asked
        cases asked
    | link =>
        intro asked
        cases asked
    | cross short there go ne way ih =>
        intro asked e k' h'
        cases h' with
        | enter short' there' way' =>
            rw [(links _ _).1 there] at there'
            cases there'
        | cross short' there' go' ne' way' =>
            rw [(links _ _).1 there] at there'
            cases there'
            rw [Bool.true_or] at way'
            exact ih (by rw [asked]; rfl) e _ way'
  exact step h rfl rfl k' h'

/-- **A way to an entry stays as long as the directories and links stay that there are**, and the
entry does if it is a file. -/
theorem Leads.kept {d d' : Disk} {follow : Bool} {k : Nat} {l m : Location} {steps : List Step}
    {dir : Bool} {e : Entry} (h : d.Leads follow k l steps dir (.present m e))
    (dirs : ∀ m, d.get? m = some .directory → d'.get? m = some .directory)
    (links : ∀ m t, d.get? m = some (.link t) → d'.get? m = some (.link t))
    (file : ∀ content, e = .file content → d.get? m = some e → d'.get? m = some e) :
    d'.Leads follow k l steps dir (.present m e) := by
  generalize eq : Target.present m e = found at h
  induction h with
  | here => exact .here
  | up way ih => exact .up (ih eq)
  | vacant => cases eq
  | enter short there way ih => exact .enter short (dirs _ there) (ih eq)
  | file short there =>
      cases eq
      exact .file short (file _ rfl there)
  | link short there stay => exact .link short (links _ _ there) stay
  | cross short there go ne way ih => exact .cross short (links _ _ there) go ne (ih eq)

/-- **A way to a directory stays as long as the directories and links stay that there are.** -/
theorem Leads.mono {d d' : Disk} {follow : Bool} {k : Nat} {l m : Location} {steps : List Step}
    {dir : Bool} (h : d.Leads follow k l steps dir (.present m .directory))
    (dirs : ∀ m, d.get? m = some .directory → d'.get? m = some .directory)
    (links : ∀ m t, d.get? m = some (.link t) → d'.get? m = some (.link t)) :
    d'.Leads follow k l steps dir (.present m .directory) :=
  h.kept dirs links fun _ absurdity => by cases absurdity

/-- **A path leads to a directory as long as the directories and links stay that there are.** -/
theorem LeadsTo.mono {d d' : Disk} {p : Path} {l : Location} (h : d.LeadsTo p l)
    (current : d'.current = d.current)
    (dirs : ∀ m, d.get? m = some .directory → d'.get? m = some .directory)
    (links : ∀ m t, d.get? m = some (.link t) → d'.get? m = some (.link t)) : d'.LeadsTo p l := by
  rw [LeadsTo, walk_eq_ok_iff, start] at h ⊢
  rw [current]
  exact h.mono dirs links

/-- **A path leads to one place or nowhere**, whatever directories there are: the links decide. -/
def Houses (d : Disk) (p : Path) (l : Location) : Prop :=
  ∀ d' : Disk, SameLinks d d' → d'.current = d.current → ∀ m, d'.LeadsTo p m → m = l

/-- **A path that leads somewhere leads nowhere else.** -/
theorem LeadsTo.houses {d d' : Disk} {p : Path} {l : Location} (links : SameLinks d d')
    (current : d'.current = d.current) (h : d'.LeadsTo p l) : d.Houses p l := by
  intro d'' links' current' m h'
  rw [LeadsTo, start, current', walk_eq_ok_iff] at h'
  rw [LeadsTo, start, current, walk_eq_ok_iff] at h
  exact h'.unique (fun l t => (links' l t).symm.trans (links l t)) h

/-- **Every path has its place.** -/
theorem exists_houses (d : Disk) (p : Path) : ∃ l, d.Houses p l := by
  by_cases led : ∃ d' l, SameLinks d d' ∧ d'.current = d.current ∧ d'.LeadsTo p l
  · obtain ⟨d', l, links, current, there⟩ := led
    exact ⟨l, there.houses links current⟩
  · exact ⟨[], fun d' links current l there => absurd ⟨d', l, links, current, there⟩ led⟩

/-- **Where a path leads depends on the links only.** -/
theorem Houses.congr {d d' : Disk} {p : Path} {l : Location} (h : d.Houses p l)
    (links : SameLinks d d') (current : d'.current = d.current) : d'.Houses p l := by
  intro d'' links' current' m
  exact h d'' (fun l t => (links l t).trans (links' l t)) (current'.trans current) m

/-! ## Places without links -/

/-- **There are no links on the way of names** from a place. -/
def PlainAlong (d : Disk) (l : Location) (ns : List String) : Prop :=
  ∀ pre t, pre ≠ [] → pre <+: ns → d.get? (l ++ pre) ≠ some (.link t)

/-- **The first of the names does not lead to a link.** -/
theorem PlainAlong.first {d : Disk} {l : Location} {n : String} {ns : List String}
    (h : d.PlainAlong l (n :: ns)) (t : Path) : d.get? (l ++ [n]) ≠ some (.link t) :=
  h [n] t (List.cons_ne_nil _ _) (by simp)

/-- **There are no links on the way of the other names.** -/
theorem PlainAlong.rest {d : Disk} {l : Location} {n : String} {ns : List String}
    (h : d.PlainAlong l (n :: ns)) : d.PlainAlong (l ++ [n]) ns := by
  intro pre t _ within
  rw [List.append_assoc]
  exact h (n :: pre) t (List.cons_ne_nil _ _) (by simpa using within)

/-- **There are no links in the directories of a cache** at a place, nor are these links. -/
def PlainIn (d : Disk) (l : Location) : Prop :=
  ∀ ns t, Owned ns → d.get? (l ++ ns) ≠ some (.link t)

/-- **There are no links on the way of names that lead into a directory of a cache.** -/
theorem PlainIn.along {d : Disk} {l : Location} (h : d.PlainIn l) {ns : List String}
    (own : Owned ns) : d.PlainAlong l ns :=
  fun pre t ne within => h pre t (own.of_le ne within)

/-- **No link is found** on a disk where none is listed. -/
theorem not_link_of_entries {d : Disk} (h : ∀ e ∈ d.entries, ∀ t, e.2 ≠ .link t) (l : Location)
    (t : Path) : d.get? l ≠ some (.link t) := by
  intro there
  by_cases top : l = []
  · rw [top, get?_top] at there
    cases there
  · exact h (l, .link t) (mem_entries there top) t rfl

/-- **Where no entry is a link, there are no links in the directories of a cache.** -/
theorem plainIn_of_entries {d : Disk} (h : ∀ e ∈ d.entries, ∀ t, e.2 ≠ .link t)
    (l : Location) : d.PlainIn l :=
  fun _ t _ => not_link_of_entries h _ t

/-- **Disks without links have the same ones.** -/
theorem sameLinks_of_entries {d d' : Disk} (h : ∀ e ∈ d.entries, ∀ t, e.2 ≠ .link t)
    (h' : ∀ e ∈ d'.entries, ∀ t, e.2 ≠ .link t) : SameLinks d d' :=
  fun _ _ => iff_of_false (not_link_of_entries h _ _) (not_link_of_entries h' _ _)

/-- **Names lead to the place that they name**, where there are no links. -/
theorem Leads.of_plain {d : Disk} {follow : Bool} {k : Nat} {l : Location} {ns : List String}
    {dir : Bool} {t : Target} (h : d.Leads follow k l (ns.map .name) dir t)
    (plain : d.PlainAlong l ns) (ne : ns ≠ []) :
    (∃ e, t = .present (l ++ ns) e ∧ d.get? (l ++ ns) = some e)
      ∨ t = .vacant (l ++ ns) ∧ d.get? (l ++ ns) = none := by
  induction ns generalizing l with
  | nil => exact absurd rfl ne
  | cons n ns ih =>
      cases ns with
      | nil =>
          cases h with
          | vacant short none => exact .inr ⟨rfl, none⟩
          | enter short there way =>
              cases way
              exact .inl ⟨_, rfl, there⟩
          | file short there => exact .inl ⟨_, rfl, there⟩
          | link short there => exact absurd there (plain.first _)
          | cross short there => exact absurd there (plain.first _)
      | cons m ns =>
          cases h with
          | enter short there way =>
              have := ih way plain.rest (List.cons_ne_nil _ _)
              rwa [List.append_assoc] at this
          | cross short there => exact absurd there (plain.first _)

/-- **Names lead on to the entry at the place that they name** as long as it stays and the
directories on the way do, over whatever number of links and whether links are followed or not. -/
theorem Leads.names_congr {d d' : Disk} {follow follow' : Bool} {k k' : Nat} {l : Location}
    {ns : List String} {dir : Bool} {e : Entry}
    (h : d.Leads follow k l (ns.map .name) dir (.present (l ++ ns) e))
    (plain : d.PlainAlong l ns) (ne : ns ≠ [])
    (dirs : ∀ pre, pre ≠ [] → pre <+: ns →
      d.get? (l ++ pre) = some .directory → d'.get? (l ++ pre) = some .directory)
    (last : d'.get? (l ++ ns) = some e) :
    d'.Leads follow' k' l (ns.map .name) dir (.present (l ++ ns) e) := by
  induction ns generalizing l with
  | nil => exact absurd rfl ne
  | cons n ns ih =>
      cases ns with
      | nil =>
          cases h with
          | enter short there way =>
              cases way
              exact .enter short last .here
          | file short there => exact .file short last
          | link short there => exact absurd there (plain.first _)
          | cross short there => exact absurd there (plain.first _)
      | cons m ns =>
          cases h with
          | enter short there way =>
              have deeper : l ++ n :: m :: ns = l ++ [n] ++ m :: ns := by simp
              rw [deeper] at last way ⊢
              refine .enter short ?_ (ih way plain.rest (List.cons_ne_nil _ _) ?_ last)
              · exact dirs [n] (List.cons_ne_nil _ _) (by simp) there
              · intro pre hpre hp
                rw [List.append_assoc]
                exact dirs (n :: pre) (List.cons_ne_nil _ _) (by simpa using hp)
          | cross short there => exact absurd there (plain.first _)

/-- **Names lead to the file that is put at the place that they name**, if they led there before and
there was no directory. -/
theorem Leads.put_file {d : Disk} {follow : Bool} {k : Nat} {l : Location} {ns : List String}
    {t : Target} (h : d.Leads follow k l (ns.map .name) false t)
    (plain : d.PlainAlong l ns) (ne : ns ≠ []) (apart : d.get? (l ++ ns) ≠ some .directory)
    (content : Bytes) (other : Bool) :
    (d.put (l ++ ns) (.file content)).Leads other k l (ns.map .name) false
      (.present (l ++ ns) (.file content)) := by
  have last {k : Nat} {m : Location} {n : String} (short : n.utf8ByteSize ≤ nameLimit) :
      (d.put (m ++ [n]) (.file content)).Leads other k m [.name n] false
        (.present (m ++ [n]) (.file content)) :=
    .file short (get?_put_self d _ (by simp))
  induction ns generalizing l with
  | nil => exact absurd rfl ne
  | cons n ns ih =>
      cases ns with
      | nil =>
          cases h with
          | vacant short none => exact last short
          | enter short there way => exact absurd there apart
          | file short there => exact last short
          | link short there => exact absurd there (plain.first _)
          | cross short there => exact absurd there (plain.first _)
      | cons m ns =>
          cases h with
          | enter short there way =>
              have deeper : l ++ n :: m :: ns = l ++ [n] ++ m :: ns := by simp
              rw [deeper] at apart ⊢
              refine .enter short ?_ (ih way plain.rest (List.cons_ne_nil _ _) apart)
              rw [get?_put_of_ne d _ (by simp), there]
          | cross short there => exact absurd there (plain.first _)

/-! ## Paths -/

/-- **The text of a path is one that can be looked up at all.** -/
structure Usable (p : Path) : Prop where
  /-- No character is zero. -/
  no_nul : Char.ofNat 0 ∉ p.text.toList
  /-- There is something. -/
  ne_empty : p.text ≠ ""
  /-- It is not too long. -/
  short : p.text.utf8ByteSize ≤ pathLimit

/-- **A path whose text is the beginning of one that can be looked up can be looked up**, if there
is something. -/
theorem Usable.of_beginning {p q : Path} (usable : Usable p) (ne : q.text ≠ "") {tail : String}
    (text : p.text = q.text ++ tail) : Usable q := by
  refine ⟨fun nul => usable.no_nul ?_, ne, ?_⟩
  · rw [text, String.toList_append]
    exact List.mem_append_left _ nul
  · have short := usable.short
    rw [text, String.utf8ByteSize_append] at short
    omega

/-- **The rules tell what a path leads to.** -/
theorem find_eq_ok_iff {d : Disk} {follow : Bool} {p : Path} {t : Target} :
    d.find follow p = .ok t ↔ Usable p
      ∧ d.Leads follow linkLimit (d.start p) p.steps p.asksForDirectory t := by
  rw [← walk_eq_ok_iff]
  unfold find
  constructor
  · intro h
    split at h
    · cases h
    rename_i nul
    split at h
    · cases h
    rename_i empty
    split at h
    · cases h
    rename_i long
    exact ⟨⟨by simpa using nul, by simpa using empty, Nat.le_of_not_lt long⟩, h⟩
  · rintro ⟨⟨nul, empty, short⟩, h⟩
    rw [if_neg (by simpa using nul), if_neg (by simpa using empty), if_neg (Nat.not_lt.2 short)]
    exact h

/-- **A path that leads nowhere can be looked up**, unless it is empty. -/
theorem usable_of_find_notFound {d : Disk} {follow : Bool} {p : Path} (ne : p.text ≠ "")
    (h : d.find follow p = .error .notFound) : Usable p := by
  unfold find at h
  split at h
  · cases h
  rename_i nul
  rw [if_neg (by simpa using ne)] at h
  split at h
  · cases h
  rename_i long
  exact ⟨by simpa using nul, ne, Nat.le_of_not_lt long⟩

/-- **A path below another one leads to a target**: that other path leads to a directory, and the
names lead on from there. -/
structure LeadsBelow (d : Disk) (follow : Bool) (p root : Path) (l : Location) (ns : List String)
    (t : Target) : Prop where
  /-- The path can be looked up. -/
  usable : Usable p
  /-- The other path leads to the directory. -/
  root : d.LeadsTo root l
  /-- The names lead on. -/
  way : ∃ k, d.Leads follow k l (ns.map .name) p.asksForDirectory t
  /-- They lead to the place that they name. -/
  target : (∃ e, t = .present (l ++ ns) e ∧ d.get? (l ++ ns) = some e)
    ∨ t = .vacant (l ++ ns) ∧ d.get? (l ++ ns) = none

/-- **What a path below another one leads to is what there is at the place that its names name.** -/
theorem leadsBelow_of_find {d : Disk} {follow : Bool} {p root : Path} {l : Location}
    {ns : List String} {t : Target} (house : d.Houses root l) (plain : d.PlainIn l)
    (at_ : p.LiesAt root ns) (own : Owned ns) (h : d.find follow p = .ok t) :
    d.LeadsBelow follow p root l ns t := by
  obtain ⟨usable, way⟩ := find_eq_ok_iff.1 h
  rw [at_.steps] at way
  obtain ⟨k, m, front, back⟩ := way.exists_directory (by simpa using own.ne_nil)
  have start : d.start p = d.start root := by rw [Disk.start, Disk.start, at_.start]
  rw [start] at front
  obtain rfl := house d (fun _ _ => Iff.rfl) rfl m (walk_eq_ok_iff.2 front)
  exact ⟨usable, walk_eq_ok_iff.2 front, ⟨k, back⟩,
    back.of_plain (plain.along own) own.ne_nil⟩

/-- **A path below another one leads on as names do from there.** -/
theorem find_of_names {d : Disk} {follow : Bool} {p root : Path} {l : Location}
    {ns : List String} {t : Target} (usable : Usable p) (there : d.LeadsTo root l)
    (at_ : p.LiesAt root ns) (ne : ns ≠ [])
    (way : ∀ k, d.Leads follow k l (ns.map .name) p.asksForDirectory t) :
    d.find follow p = .ok t := by
  refine find_eq_ok_iff.2 ⟨usable, ?_⟩
  have start : d.start p = d.start root := by rw [Disk.start, Disk.start, at_.start]
  rw [at_.steps, start]
  exact (walk_eq_ok_iff.1 there).append (by simpa using ne) way

/-- **A content is read where a path leads to a file that holds it.** -/
theorem read_eq_ok_iff {d : Disk} {p : Path} {content : Bytes} :
    d.read p = .ok content ↔ ∃ place, d.find true p = .ok (.present place (.file content)) := by
  unfold read present
  constructor
  · intro h
    split at h
    · cases h
    · rename_i place content' there
      cases h
      split at there
      · cases there
      · cases there
      · rename_i place' entry found
        cases there
        exact ⟨_, found⟩
    · cases h
  · rintro ⟨place, found⟩
    rw [found]

/-- **Where a path leads to a file, its content is read.** -/
theorem isFile_iff {d : Disk} {p : Path} :
    d.isFile p = true ↔ ∃ content, d.read p = .ok content := by
  unfold isFile read
  constructor
  · intro h
    split at h
    · rename_i place content there
      exact ⟨content, by rw [there]⟩
    · cases h
  · rintro ⟨content, h⟩
    split at h
    · cases h
    · rename_i place content' there
      rw [there]
    · cases h

/-- **What is read from a path below another one is the file at the place that its names name.** -/
theorem get?_of_read {d : Disk} {p root : Path} {l : Location} {ns : List String} {content : Bytes}
    (house : d.Houses root l) (plain : d.PlainIn l) (at_ : p.LiesAt root ns) (own : Owned ns)
    (h : d.read p = .ok content) : d.get? (l ++ ns) = some (.file content) := by
  obtain ⟨place, found⟩ := read_eq_ok_iff.1 h
  rcases (leadsBelow_of_find house plain at_ own found).target with ⟨e, there, holds⟩ | ⟨there, -⟩
  · cases there
    exact holds
  · cases there

/-- **A file that there is on a way of names is found**, if it can be looked up. -/
theorem read_ne_notFound {d : Disk} {p root : Path} {l : Location} {ns : List String}
    {content : Bytes} (house : d.Houses root l) (plain : d.PlainIn l) (there : d.LeadsTo root l)
    (at_ : p.LiesAt root ns) (own : Owned ns) (holds : d.get? (l ++ ns) = some (.file content))
    (way : ∀ k, d.Leads true k l (ns.map .name) p.asksForDirectory
      (.present (l ++ ns) (.file content))) : d.read p ≠ .error .notFound := by
  intro missing
  unfold read present at missing
  cases found : d.find true p with
  | error e =>
      rw [found] at missing
      cases missing
      have usable := usable_of_find_notFound (at_.text_ne_empty own.ne_nil) found
      rw [find_of_names usable there at_ own.ne_nil way] at found
      cases found
  | ok t =>
      rcases (leadsBelow_of_find house plain at_ own found).target with ⟨e, rfl, e'⟩ | ⟨rfl, none⟩
      · rw [holds] at e'
        cases e'
        rw [found] at missing
        cases missing
      · rw [holds] at none
        cases none

end Disk

end Seams
