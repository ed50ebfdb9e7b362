import Seams.Text.Blank

/-! # Sets of names
Names of functions are told apart up to the case of ASCII letters. A set keeps them in lower case
and in ascending order of their characters, so equal sets are equal values.
Main definitions:
* **`NameSet`** — names in lower case, ascending;
* **`NameSet.insert`**, **`NameSet.remove`** — a name, white space at its ends left out;
* **`NameSet.contains`** — a name as it is given. -/

namespace Seams

/-- The form in which a set keeps a name. -/
def foldName (name : String) : String := Text.foldCase (Text.trim name)

/-- Put a name at its place in an ascending list that lacks it. -/
def placeName (name : String) : List String → List String
  | [] => [name]
  | n :: ns => if name < n then name :: n :: ns else n :: placeName name ns

theorem mem_placeName {name x : String} {ns : List String} :
    x ∈ placeName name ns ↔ x = name ∨ x ∈ ns := by
  induction ns with
  | nil => simp [placeName]
  | cons n ns ih =>
    rw [placeName]
    split
    · simp
    · rw [List.mem_cons, ih, List.mem_cons]
      exact or_left_comm

theorem pairwise_placeName {name : String} {ns : List String} (h : ns.Pairwise (· < ·))
    (fresh : name ∉ ns) : (placeName name ns).Pairwise (· < ·) := by
  induction ns with
  | nil => simp [placeName]
  | cons n ns ih =>
    rw [List.pairwise_cons] at h
    rw [List.mem_cons, not_or] at fresh
    rw [placeName]
    split
    next lt =>
      refine List.pairwise_cons.2 ⟨fun x hx => ?_, List.pairwise_cons.2 h⟩
      rcases List.mem_cons.1 hx with rfl | hx
      · exact lt
      · exact String.lt_trans lt (h.1 x hx)
    next ge =>
      refine List.pairwise_cons.2 ⟨fun x hx => ?_, ih h.2 fresh.2⟩
      rcases mem_placeName.1 hx with rfl | hx
      · exact Std.lt_of_le_of_ne (String.not_lt.1 ge) fun eq => fresh.1 eq.symm
      · exact h.1 x hx

/-- Names in lower case and ascending. -/
structure NameSet where
  /-- The names. -/
  toList : List String
  /-- They ascend. -/
  ascending : toList.Pairwise (· < ·)

namespace NameSet

theorem ext {s t : NameSet} (h : s.toList = t.toList) : s = t := by
  cases s
  cases t
  cases h
  rfl

instance : DecidableEq NameSet := fun s t =>
  if h : s.toList = t.toList then isTrue (ext h) else isFalse fun eq => h (eq ▸ rfl)

/-- The set without names. -/
def empty : NameSet := ⟨[], List.Pairwise.nil⟩

/-- The number of names. -/
def size (s : NameSet) : Nat := s.toList.length

/-- Whether there is no name. -/
def isEmpty (s : NameSet) : Bool := s.toList.isEmpty

/-- Whether a name, in any case, is in the set. White space at its ends is part of the name. -/
def contains (s : NameSet) (name : String) : Bool := s.toList.contains (Text.foldCase name)

/-- The set with a name, which is left out if nothing but white space. -/
def insert (s : NameSet) (name : String) : NameSet :=
  let folded := foldName name
  if folded = "" then s
  else if h : folded ∈ s.toList then s
  else ⟨placeName folded s.toList, pairwise_placeName s.ascending h⟩

/-- Whether inserting a name changes the set. -/
def admits (s : NameSet) (name : String) : Bool :=
  foldName name != "" && !s.toList.contains (foldName name)

/-- The set without a name. -/
def remove (s : NameSet) (name : String) : NameSet :=
  ⟨s.toList.filter (· != foldName name), s.ascending.filter _⟩

/-- Whether removing a name changes the set. -/
def yields (s : NameSet) (name : String) : Bool := s.toList.contains (foldName name)

/-- The set with further names. -/
def insertAll (s : NameSet) (names : List String) : NameSet := names.foldl insert s

/-- The set of given names. -/
def ofList (names : List String) : NameSet := empty.insertAll names

end NameSet

end Seams
