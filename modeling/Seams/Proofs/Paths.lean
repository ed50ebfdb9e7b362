import Mathlib.Data.List.Basic
import Mathlib.Tactic.Common
import Seams.RewriteCache

/-! # The steps of the paths of a cache
What a path leads to depends on its steps alone. The paths that a cache uses take the steps to the
cache directory first, and only names from there on.
Main definitions:
* **`Path.IsName`** — text that is a step by itself;
* **`Path.names`** — the names among the steps of a path;
* **`Path.LiesAt`** — a path is another one with names behind it;
* **`RewriteCache.recordNames`** — the names that lead to the record of a source. -/

namespace Seams

namespace Path

/-! ## Pieces -/

/-- **A path has a piece at least.** -/
theorem pieces_ne_nil (p : Path) : p.pieces ≠ [] := by
  intro h
  exact List.splitOn_ne_nil '/' p.text.toList (List.map_eq_nil_iff.1 h)

/-- **Pieces meet at a slash.** -/
theorem pieces_slash (s t : String) :
    (⟨s ++ "/" ++ t⟩ : Path).pieces = (⟨s⟩ : Path).pieces ++ (⟨t⟩ : Path).pieces := by
  have slash : (s ++ "/" ++ t).toList = s.toList ++ '/' :: t.toList := by simp
  simp only [pieces]
  rw [slash, List.splitOn_append_cons_self, List.map_append]

/-- **The empty path is one empty piece.** -/
@[simp] theorem pieces_empty : (⟨""⟩ : Path).pieces = [""] := rfl

/-- **The text of a path is its pieces, joined by slashes.** -/
theorem intercalate_pieces (p : Path) : "/".intercalate p.pieces = p.text := by
  apply String.toList_inj.1
  have same : String.toList ∘ String.ofList = id := funext fun cs => String.toList_ofList
  rw [String.toList_intercalate, pieces, List.map_map, same, List.map_id]
  exact List.intercalate_splitOn '/'

/-- **Texts without slashes are the pieces of what they make when they are joined.** -/
theorem pieces_intercalate {ss : List String} (ne : ss ≠ [])
    (free : ∀ s ∈ ss, '/' ∉ s.toList) : (⟨"/".intercalate ss⟩ : Path).pieces = ss := by
  have parted : ("/".toList.intercalate (ss.map String.toList)).splitOn '/'
      = ss.map String.toList := by
    refine List.splitOn_intercalate '/' ?_ (by simpa using ne)
    intro l hl
    obtain ⟨s, hs, rfl⟩ := List.mem_map.1 hl
    exact free s hs
  have same : String.ofList ∘ String.toList = id := funext fun s => String.ofList_toList
  rw [pieces, String.toList_intercalate, parted, List.map_map, same, List.map_id]

/-- **No part of a text that is split at a character holds that character.** -/
theorem notMem_of_mem_splitOn {c : Char} {cs part : List Char} (h : part ∈ cs.splitOn c) :
    c ∉ part := by
  induction cs generalizing part with
  | nil =>
      rw [List.splitOn_nil, List.mem_singleton] at h
      rw [h]
      exact List.not_mem_nil
  | cons a cs ih =>
      rw [List.splitOn_cons_eq_if_modifyHead] at h
      by_cases ha : a == c
      · rw [if_pos ha] at h
        rcases List.mem_cons.1 h with rfl | h
        · exact List.not_mem_nil
        · exact ih h
      · rw [if_neg ha] at h
        obtain ⟨first, rest, parts⟩ := List.exists_cons_of_ne_nil (List.splitOn_ne_nil c cs)
        rw [parts, List.modifyHead_cons] at h
        rcases List.mem_cons.1 h with rfl | h
        · have hfirst : c ∉ first := ih (by rw [parts]; exact List.mem_cons_self)
          intro hc
          rcases List.mem_cons.1 hc with rfl | hc
          · exact ha (beq_self_eq_true c)
          · exact hfirst hc
        · exact ih (by rw [parts]; exact List.mem_cons_of_mem _ h)

/-- **No piece of a path holds a slash.** -/
theorem slash_notMem_of_mem_pieces {p : Path} {s : String} (h : s ∈ p.pieces) :
    '/' ∉ s.toList := by
  obtain ⟨part, hpart, rfl⟩ := List.mem_map.1 h
  rw [String.toList_ofList]
  exact notMem_of_mem_splitOn hpart

/-! ## Names -/

/-- **Text that is a step by itself.** It is not empty, holds no slash, and is neither of the two
that stand for a directory and for the one above it. -/
structure IsName (s : String) : Prop where
  /-- There is something. -/
  ne_empty : s ≠ ""
  /-- It does not stand for the directory itself. -/
  ne_dot : s ≠ "."
  /-- It does not stand for the directory above. -/
  ne_up : s ≠ ".."
  /-- It is a single piece. -/
  no_slash : '/' ∉ s.toList

/-- **A piece that is a name is a step.** -/
theorem IsName.stepOf {s : String} (h : IsName s) : Path.stepOf s = some (.name s) := by
  simp [Path.stepOf, h.ne_empty, h.ne_dot, h.ne_up]

/-- **A step by a name comes from the piece that reads so.** -/
theorem eq_of_stepOf_eq_name {s n : String} (h : stepOf s = some (.name n)) :
    s = n ∧ n ≠ "" ∧ n ≠ "." ∧ n ≠ ".." := by
  unfold stepOf at h
  split at h
  · cases h
  · rename_i blank
    split at h
    · cases h
    · rename_i up
      obtain rfl : s = n := by simpa using h
      simp only [Bool.or_eq_true, beq_iff_eq, not_or] at blank up
      exact ⟨rfl, blank.1, blank.2, up⟩

/-- **A text without slashes becomes a name when it gets an extension.** -/
theorem isName_append_json {s : String} (h : '/' ∉ s.toList) : IsName (s ++ ".json") := by
  have long : 5 ≤ (s ++ ".json").length := by
    rw [String.length_append]
    exact Nat.le_add_left 5 s.length
  have ne {t : String} (ht : t.length < 5) : s ++ ".json" ≠ t := by
    intro e
    rw [e] at long
    omega
  refine ⟨ne (by decide), ne (by decide), ne (by decide), ?_⟩
  rw [String.toList_append, List.mem_append, not_or]
  exact ⟨h, by decide⟩

end Path

/-- **The name of a step that is one.** -/
def Step.name? : Step → Option String
  | .name n => some n
  | .up => none

namespace Path

/-- **The names among the steps of a path.** -/
def names (p : Path) : List String := p.steps.filterMap Step.name?

/-- **The names among the steps of a path are steps by themselves.** -/
theorem isName_of_mem_names {p : Path} {n : String} (h : n ∈ p.names) : IsName n := by
  obtain ⟨step, hstep, hn⟩ := List.mem_filterMap.1 h
  cases step with
  | up => cases hn
  | name m =>
      obtain rfl : m = n := by simpa [Step.name?] using hn
      obtain ⟨piece, hpiece, hof⟩ := List.mem_filterMap.1 hstep
      obtain ⟨rfl, empty, dot, up⟩ := eq_of_stepOf_eq_name hof
      exact ⟨empty, dot, up, slash_notMem_of_mem_pieces hpiece⟩

/-- **Pieces that are names are steps, each by itself.** -/
theorem filterMap_stepOf_names {ns : List String} (h : ∀ n ∈ ns, IsName n) :
    ns.filterMap stepOf = ns.map Step.name := by
  induction ns with
  | nil => rfl
  | cons n ns ih =>
      rw [List.filterMap_cons, (h n List.mem_cons_self).stepOf, List.map_cons,
        ih fun m hm => h m (List.mem_cons_of_mem _ hm)]

/-! ## Paths below a path -/

/-- **A path is another one with names behind it.** Both start at the same place. -/
structure LiesAt (p root : Path) (ns : List String) : Prop where
  /-- Both start at the top, or neither does. -/
  start : p.isAbsolute = root.isAbsolute
  /-- The steps of the one come first, then the names. -/
  steps : p.steps = root.steps ++ ns.map Step.name

/-- **The pieces of a path come in front of those of a path below it.** What may be left out at
the end is no step. -/
theorem exists_pieces_join (p : Path) {q : Path} (hq : q.isAbsolute = false) :
    ∃ front, (p.join q).pieces = front ++ q.pieces ∧ front.filterMap stepOf = p.steps := by
  unfold join
  rw [if_neg (by simp [hq])]
  by_cases hp : p.text = ""
  · have e : p = ⟨""⟩ := by cases p; simpa using hp
    refine ⟨[], ?_, ?_⟩
    · simp [e]
    · rw [e]; rfl
  by_cases hs : p.endsInSlash
  · rw [if_pos (by simp [hs])]
    -- What the slash at the end leaves of the path.
    obtain ⟨cs, hcs⟩ : ∃ cs, p.text.toList = cs ++ ['/'] := by
      rw [endsInSlash, beq_iff_eq, List.getLast?_eq_some_iff] at hs
      exact hs
    have text : p.text = String.ofList cs ++ "/" ++ "" := by
      apply String.toList_inj.1
      simp [hcs]
    have pieces : p.pieces = (⟨String.ofList cs⟩ : Path).pieces ++ [""] := by
      have := pieces_slash (String.ofList cs) ""
      rwa [← text] at this
    refine ⟨(⟨String.ofList cs⟩ : Path).pieces, ?_, ?_⟩
    · have e : p.text ++ q.text = String.ofList cs ++ "/" ++ q.text := by
        rw [text, String.append_empty]
      rw [e]
      exact pieces_slash _ _
    · rw [steps, pieces, List.filterMap_append]
      exact (List.append_nil _).symm
  · rw [if_neg (by simp [hp, hs])]
    exact ⟨p.pieces, pieces_slash _ _, rfl⟩

/-- **The steps to a path come in front of those from it.** -/
theorem steps_join (p : Path) {q : Path} (hq : q.isAbsolute = false) :
    (p.join q).steps = p.steps ++ q.steps := by
  obtain ⟨front, pieces, hfront⟩ := exists_pieces_join p hq
  rw [steps, pieces, List.filterMap_append, hfront]
  rfl

/-- **A path below a path starts where that one does.** -/
theorem isAbsolute_join (p : Path) {q : Path} (hq : q.isAbsolute = false) :
    (p.join q).isAbsolute = p.isAbsolute := by
  unfold join
  rw [if_neg (by simp [hq])]
  by_cases hp : p.text = ""
  · have e : p = ⟨""⟩ := by cases p; simpa using hp
    rw [if_pos (by simp [hp]), hp, String.empty_append, e]
    exact hq
  · have ne : p.text.toList ≠ [] := by simpa using hp
    obtain ⟨c, cs, hcs⟩ := List.exists_cons_of_ne_nil ne
    split <;> simp [isAbsolute, hcs]

/-- **Names joined by slashes are no path from the top.** -/
theorem isAbsolute_intercalate {ns : List String} (h : ∀ n ∈ ns, IsName n) :
    (⟨"/".intercalate ns⟩ : Path).isAbsolute = false := by
  cases ns with
  | nil => rfl
  | cons n ns =>
      have hn := h n List.mem_cons_self
      have ne : n.toList ≠ [] := by simpa using hn.ne_empty
      obtain ⟨c, cs, hcs⟩ := List.exists_cons_of_ne_nil ne
      have hc : c ≠ '/' := by
        rintro rfl
        exact hn.no_slash (by rw [hcs]; exact List.mem_cons_self)
      cases ns with
      | nil => simp [isAbsolute, hcs, hc]
      | cons m ns => simp [isAbsolute, String.intercalate_cons_cons, hcs, hc]

/-- **Texts without slashes, joined by slashes, take the steps that they are.** -/
theorem steps_intercalate {ss : List String} (free : ∀ s ∈ ss, '/' ∉ s.toList) :
    (⟨"/".intercalate ss⟩ : Path).steps = ss.filterMap stepOf := by
  cases ss with
  | nil => rfl
  | cons s ss => rw [steps, pieces_intercalate (List.cons_ne_nil s ss) free]

/-- **Names behind a path lead to a path below it.** -/
theorem LiesAt.join {p root : Path} {ns ms : List String} (h : p.LiesAt root ns)
    (hms : ∀ m ∈ ms, IsName m) : (p.join ⟨"/".intercalate ms⟩).LiesAt root (ns ++ ms) where
  start := by rw [isAbsolute_join p (isAbsolute_intercalate hms), h.start]
  steps := by
    have split := steps_intercalate fun m hm => (hms m hm).no_slash
    rw [steps_join p (isAbsolute_intercalate hms), split, filterMap_stepOf_names hms, h.steps,
      List.map_append, List.append_assoc]

/-- **A path below another one is not empty.** -/
theorem LiesAt.text_ne_empty {p root : Path} {ns : List String} (h : p.LiesAt root ns)
    (ne : ns ≠ []) : p.text ≠ "" := by
  intro e
  have empty : p = ⟨""⟩ := by cases p; simpa using e
  have none_left : p.steps = [] := by rw [empty]; rfl
  have steps := h.steps
  rw [none_left] at steps
  simp [ne] at steps

/-- **A path is itself with no names behind it.** -/
theorem LiesAt.self (p : Path) : p.LiesAt p [] := ⟨rfl, by simp⟩

/-- **An entry of a directory is below it.** -/
theorem LiesAt.child {p root : Path} {ns : List String} (h : p.LiesAt root ns) {n : String}
    (hn : IsName n) : (p.child n).LiesAt root (ns ++ [n]) := by
  have joined : (p.join ⟨"/".intercalate [n]⟩).LiesAt root (ns ++ [n]) := h.join (by simpa using hn)
  rwa [String.intercalate_singleton] at joined

/-! ## Paths that end in a name -/

/-- **A path ends in a name.** -/
def EndsIn (p : Path) (n : String) : Prop := IsName n ∧ ∃ front, p.pieces = front ++ [n]

/-- **A path below another one ends in the last of its names.** -/
theorem endsIn_join (p : Path) {ms : List String} {n : String}
    (hms : ∀ m ∈ ms ++ [n], IsName m) : (p.join ⟨"/".intercalate (ms ++ [n])⟩).EndsIn n := by
  obtain ⟨front, pieces, -⟩ := exists_pieces_join p (isAbsolute_intercalate hms)
  refine ⟨hms n (by simp), front ++ ms, ?_⟩
  rw [pieces, pieces_intercalate (by simp) fun m hm => (hms m hm).no_slash, List.append_assoc]

/-- **The path of an entry ends in its name.** -/
theorem endsIn_child (p : Path) {n : String} (hn : IsName n) : (p.child n).EndsIn n := by
  have joined : (p.join ⟨"/".intercalate ([] ++ [n])⟩).EndsIn n := endsIn_join p (by simpa using hn)
  rwa [List.nil_append, String.intercalate_singleton] at joined

namespace EndsIn

variable {p : Path} {n : String}

/-- **A path that ends in a name does not ask for a directory.** -/
theorem asksForDirectory (h : p.EndsIn n) : p.asksForDirectory = false := by
  obtain ⟨hn, front, pieces⟩ := h
  simp [Path.asksForDirectory, pieces, hn.ne_empty, hn.ne_dot]

/-- **Its last step is the name.** -/
theorem getLast?_steps (h : p.EndsIn n) : p.steps.getLast? = some (.name n) := by
  obtain ⟨hn, front, pieces⟩ := h
  simp [Path.steps, pieces, hn.stepOf]

/-- **It does not end in a slash.** -/
theorem endsInSlash (h : p.EndsIn n) : p.endsInSlash = false := by
  by_contra hs
  rw [Bool.not_eq_false, Path.endsInSlash, beq_iff_eq, List.getLast?_eq_some_iff] at hs
  obtain ⟨cs, hcs⟩ := hs
  have text : p.text = String.ofList cs ++ "/" ++ "" := by
    apply String.toList_inj.1
    simp [hcs]
  have split := pieces_slash (String.ofList cs) ""
  rw [← text] at split
  obtain ⟨hn, front, pieces⟩ := h
  have last := congrArg List.getLast? (pieces.symm.trans split)
  exact hn.ne_empty (by simpa using last)

/-- **It is not empty.** -/
theorem text_ne_empty (h : p.EndsIn n) : p.text ≠ "" := by
  intro e
  obtain ⟨hn, front, pieces⟩ := h
  have hp : p = ⟨""⟩ := by cases p; simpa using e
  rw [hp] at pieces
  have last := congrArg List.getLast? pieces
  exact hn.ne_empty (by simpa using last.symm)

end EndsIn

/-! ## The path above -/

/-- **A path from the top has an empty piece in front of the others.** -/
theorem isAbsolute_iff {p : Path} :
    p.isAbsolute = true ↔ ∃ rest, rest ≠ [] ∧ p.pieces = "" :: rest := by
  constructor
  · intro h
    obtain ⟨cs, hcs⟩ : ∃ cs, p.text.toList = '/' :: cs := by
      rw [isAbsolute, beq_iff_eq, List.head?_eq_some_iff] at h
      exact h
    have text : p.text = "" ++ "/" ++ String.ofList cs := by
      apply String.toList_inj.1
      simp [hcs]
    have split := pieces_slash "" (String.ofList cs)
    rw [← text] at split
    exact ⟨_, pieces_ne_nil _, split⟩
  · rintro ⟨rest, ne, pieces⟩
    obtain ⟨first, rest, rfl⟩ := List.exists_cons_of_ne_nil ne
    have text := intercalate_pieces p
    rw [pieces, String.intercalate_cons_cons] at text
    simp [isAbsolute, ← text]

/-- **A path whose first piece is not empty does not start at the top.** -/
theorem isAbsolute_eq_false {p : Path} {first : String} {rest : List String}
    (pieces : p.pieces = first :: rest) (ne : first ≠ "") : p.isAbsolute = false := by
  by_contra h
  rw [Bool.not_eq_false, isAbsolute_iff] at h
  obtain ⟨others, -, eq⟩ := h
  rw [pieces] at eq
  exact ne (List.cons.inj eq).1

/-- **Joining texts writes the first ones first.** -/
theorem exists_intercalate_append (ss ts : List String) :
    ∃ tail, "/".intercalate (ss ++ ts) = "/".intercalate ss ++ tail := by
  by_cases hs : ss = []
  · exact ⟨"/".intercalate ts, by simp [hs]⟩
  by_cases ht : ts = []
  · exact ⟨"", by simp [ht]⟩
  · exact ⟨"/" ++ "/".intercalate ts, by
      rw [String.intercalate_append_of_ne_nil hs ht, String.append_assoc]⟩

/-- **Without its last step, a list of pieces ends in a step again.** What is left out besides the
step is no step. -/
theorem withoutLastStep_concat (front : List String) {n : String} (hn : IsName n) :
    ∃ kept left, withoutLastStep (front ++ [n]) = some kept ∧ front = kept ++ left
      ∧ kept.filterMap stepOf = front.filterMap stepOf := by
  have parts : front = (front.reverse.dropWhile fun s => (stepOf s).isNone).reverse
      ++ (front.reverse.takeWhile fun s => (stepOf s).isNone).reverse := by
    rw [← List.reverse_append, List.takeWhile_append_dropWhile, List.reverse_reverse]
  have left : ((front.reverse.takeWhile fun s => (stepOf s).isNone).reverse).filterMap stepOf
      = [] := by
    apply List.filterMap_eq_nil_iff.2
    intro s hs
    have all := List.all_takeWhile (p := fun s => (stepOf s).isNone) (l := front.reverse)
    simpa using List.all_eq_true.1 all s (List.mem_reverse.1 hs)
  refine ⟨_, _, ?_, parts, ?_⟩
  · simp [withoutLastStep, hn.stepOf]
  · conv_rhs => rw [parts]
    rw [List.filterMap_append, left]
    exact (List.append_nil _).symm

/-- **A path is the one above another path, whose last step is a name.** Its text is the beginning
of the other one, so it is not longer and holds no other characters. -/
structure IsAbove (above p : Path) (n : String) : Prop where
  /-- Both start at the top, or neither does. -/
  start : above.isAbsolute = p.isAbsolute
  /-- The name is the one step that is left out. -/
  steps : p.steps = above.steps ++ [.name n]
  /-- The text is the beginning of the other. -/
  text : ∃ tail, p.text = above.text ++ tail

namespace EndsIn

variable {p : Path} {n : String}

/-- **What is above a path from the top.** -/
theorem exists_parent_of_absolute (hn : IsName n) {front : List String}
    (pieces : p.pieces = "" :: front ++ [n]) :
    ∃ above, p.parent? = some above ∧ above.IsAbove p n := by
  obtain ⟨kept, left, hk, rfl, same⟩ := withoutLastStep_concat front hn
  have free : ∀ s ∈ kept, '/' ∉ s.toList := fun s hs =>
    slash_notMem_of_mem_pieces (p := p) (by simp [pieces, hs])
  have above : (⟨"/" ++ "/".intercalate kept⟩ : Path).steps = kept.filterMap stepOf := by
    have split := pieces_slash "" ("/".intercalate kept)
    rw [String.empty_append] at split
    rw [Path.steps, split, List.filterMap_append, ← steps_intercalate free]
    rfl
  refine ⟨⟨"/" ++ "/".intercalate kept⟩, ?_, ?_, ?_, ?_⟩
  · rw [List.cons_append] at pieces
    simp only [parent?, pieces, hk, Option.map_some]
  · have top : p.isAbsolute = true := isAbsolute_iff.2 ⟨_, by simp, pieces⟩
    rw [top]
    simp [isAbsolute]
  · rw [above, same, Path.steps, pieces, List.filterMap_append, List.filterMap_cons]
    simp [hn.stepOf, show Path.stepOf "" = none from rfl]
  · obtain ⟨tail, htail⟩ := exists_intercalate_append kept (left ++ [n])
    have text := intercalate_pieces p
    rw [pieces, List.cons_append, List.append_assoc, String.intercalate_cons_of_ne_nil (by simp),
      htail, String.empty_append] at text
    exact ⟨tail, by rw [← text, String.append_assoc]⟩

/-- **What is above a path that starts at a dot.** -/
theorem exists_parent_of_dot (hn : IsName n) {front : List String}
    (pieces : p.pieces = "." :: front ++ [n]) :
    ∃ above, p.parent? = some above ∧ above.IsAbove p n := by
  obtain ⟨kept, left, hk, rfl, same⟩ := withoutLastStep_concat front hn
  have free : ∀ s ∈ "." :: kept, '/' ∉ s.toList := fun s hs =>
    slash_notMem_of_mem_pieces (p := p) (by
      rw [pieces]
      rcases List.mem_cons.1 hs with rfl | hs <;> simp [*])
  refine ⟨⟨"/".intercalate ("." :: kept)⟩, ?_, ?_, ?_, ?_⟩
  · rw [List.cons_append] at pieces
    simp only [parent?, pieces, hk]
  · rw [isAbsolute_eq_false (pieces_intercalate (List.cons_ne_nil _ _) free) (by decide)]
    have dotted : "." ≠ "" := by decide
    exact (isAbsolute_eq_false pieces dotted).symm
  · rw [steps_intercalate free, List.filterMap_cons, same, Path.steps, pieces,
      List.filterMap_append, List.filterMap_cons]
    simp [hn.stepOf, show Path.stepOf "." = none from rfl]
  · obtain ⟨tail, htail⟩ := exists_intercalate_append ("." :: kept) (left ++ [n])
    have text := intercalate_pieces p
    rw [pieces, List.cons_append, List.append_assoc, ← List.cons_append, htail] at text
    exact ⟨tail, text.symm⟩

/-- **What is above a path whose first piece is a step, or the only one.** -/
theorem exists_parent_of_step (hn : IsName n) {front : List String}
    (pieces : p.pieces = front ++ [n]) (empty : front.head? ≠ some "")
    (dot : front.head? ≠ some ".") : ∃ above, p.parent? = some above ∧ above.IsAbove p n := by
  obtain ⟨kept, left, hk, rfl, same⟩ := withoutLastStep_concat front hn
  have free : ∀ s ∈ kept, '/' ∉ s.toList := fun s hs =>
    slash_notMem_of_mem_pieces (p := p) (by simp [pieces, hs])
  obtain ⟨first, rest, hfirst⟩ := List.exists_cons_of_ne_nil (pieces_ne_nil p)
  have first_ne : first ≠ "" ∧ first ≠ "." := by
    rw [hfirst] at pieces
    cases hkl : kept ++ left with
    | nil =>
        rw [hkl, List.nil_append, List.cons.injEq] at pieces
        rw [pieces.1]
        exact ⟨hn.ne_empty, hn.ne_dot⟩
    | cons x xs =>
        rw [hkl] at pieces empty dot
        rw [(List.cons.inj pieces).1]
        exact ⟨fun e => empty (by rw [e]; rfl), fun e => dot (by rw [e]; rfl)⟩
  refine ⟨⟨"/".intercalate kept⟩, ?_, ?_, ?_, ?_⟩
  · rw [← pieces] at hk
    unfold parent?
    split
    · rename_i he
      exact absurd (List.cons.inj (hfirst.symm.trans he)).1 first_ne.1
    · rename_i he
      exact absurd (List.cons.inj (hfirst.symm.trans he)).1 first_ne.2
    · rw [hk, Option.map_some]
  · rw [isAbsolute_eq_false hfirst first_ne.1]
    cases kept with
    | nil => rfl
    | cons x xs =>
        refine isAbsolute_eq_false (pieces_intercalate (List.cons_ne_nil x xs) free) ?_
        intro e
        exact empty (by rw [e]; rfl)
  · rw [steps_intercalate free, same, Path.steps, pieces, List.filterMap_append]
    simp [hn.stepOf]
  · obtain ⟨tail, htail⟩ := exists_intercalate_append kept (left ++ [n])
    have text := intercalate_pieces p
    rw [pieces, List.append_assoc, htail] at text
    exact ⟨tail, text.symm⟩

/-- **There is a path above one that ends in a name.** -/
theorem exists_parent (h : p.EndsIn n) : ∃ above, p.parent? = some above ∧ above.IsAbove p n := by
  obtain ⟨hn, front, pieces⟩ := h
  by_cases empty : front.head? = some ""
  · obtain ⟨rest, rfl⟩ := List.head?_eq_some_iff.1 empty
    exact exists_parent_of_absolute hn pieces
  by_cases dot : front.head? = some "."
  · obtain ⟨rest, rfl⟩ := List.head?_eq_some_iff.1 dot
    exact exists_parent_of_dot hn pieces
  · exact exists_parent_of_step hn pieces empty dot

end EndsIn

end Path

namespace RewriteCache

/-! ## The files of a cache -/

/-- **Names lead into a directory of a cache**, that of the rewritten sources, of the records or of
the axes. -/
inductive Owned : List String → Prop where
  /-- Among the rewritten sources. -/
  | source (rest : List String) : Owned ("src" :: rest)
  /-- Among the records. -/
  | record (rest : List String) : Owned ("meta" :: rest)
  /-- Among the records of axes. -/
  | axis (rest : List String) : Owned ("conf" :: rest)

/-- **There are names that lead into a directory of a cache.** -/
theorem Owned.ne_nil {ns : List String} (h : Owned ns) : ns ≠ [] := by
  cases h <;> exact List.cons_ne_nil _ _

/-- **Further names lead on in a directory of a cache.** -/
theorem Owned.append {ns : List String} (h : Owned ns) (ms : List String) : Owned (ns ++ ms) := by
  cases h
  · exact .source _
  · exact .record _
  · exact .axis _

/-- **The first names of those that lead into a directory of a cache lead there too.** -/
theorem Owned.of_le {ns pre : List String} (h : Owned ns) (ne : pre ≠ []) (within : pre <+: ns) :
    Owned pre := by
  obtain ⟨first, rest, rfl⟩ := List.exists_cons_of_ne_nil ne
  cases h <;> obtain ⟨rfl, -⟩ := List.cons_prefix_cons.1 within
  · exact .source _
  · exact .record _
  · exact .axis _

/-- **The names that lead to the record of a source, from the directory of records.** -/
def recordNames (ns : List String) : List String := ns.dropLast ++ [ns.getLast?.getD "" ++ ".json"]

@[simp] theorem recordNames_concat (ns : List String) (n : String) :
    recordNames (ns ++ [n]) = ns ++ [n ++ ".json"] := by
  simp [recordNames]

@[simp] theorem recordNames_nil : recordNames [] = [".json"] := rfl

/-- **Different sources have different records.** -/
theorem recordNames_injective {ns ms : List String} (hns : ∀ n ∈ ns, Path.IsName n)
    (hms : ∀ m ∈ ms, Path.IsName m) (h : recordNames ns = recordNames ms) : ns = ms := by
  have lone {xs : List String} {x : String} (hx : Path.IsName x)
      (e : [".json"] = xs ++ [x ++ ".json"]) : False := by
    have last : [".json"] = [x ++ ".json"] := by
      rw [← List.nil_append [".json"]] at e
      exact List.append_inj_right' e rfl
    have text := congrArg String.toList (List.cons.inj last).1
    rw [String.toList_append] at text
    exact hx.ne_empty (String.toList_eq_nil_iff.1 (List.self_eq_append_left.1 text))
  rcases List.eq_nil_or_concat' ns with rfl | ⟨xs, x, rfl⟩ <;>
    rcases List.eq_nil_or_concat' ms with rfl | ⟨ys, y, rfl⟩
  · rfl
  · rw [recordNames_nil, recordNames_concat] at h
    exact (lone (hms y (by simp)) h).elim
  · rw [recordNames_nil, recordNames_concat] at h
    exact (lone (hns x (by simp)) h.symm).elim
  · rw [recordNames_concat, recordNames_concat] at h
    obtain ⟨rfl, last⟩ := List.append_inj' h rfl
    have text := congrArg String.toList (List.cons.inj last).1
    rw [String.toList_append, String.toList_append] at text
    rw [String.toList_inj.1 (List.append_cancel_right text)]

/-- **The names that lead to a record are names.** -/
theorem isName_of_mem_recordNames {ns : List String} (h : ∀ n ∈ ns, Path.IsName n) :
    ∀ n ∈ recordNames ns, Path.IsName n := by
  intro n hn
  rcases List.eq_nil_or_concat' ns with rfl | ⟨xs, x, rfl⟩
  · rw [recordNames_nil, List.mem_singleton] at hn
    rw [hn]
    exact Path.isName_append_json (s := "") (by decide)
  · rw [recordNames_concat, List.mem_append, List.mem_singleton] at hn
    rcases hn with hn | rfl
    · exact h n (List.mem_append_left _ hn)
    · exact Path.isName_append_json (h x (by simp)).no_slash

variable (c : RewriteCache) (source : Path)

/-- **A source is kept under its names.** -/
theorem namesOf_eq : namesOf source = ⟨"/".intercalate source.names⟩ := by
  unfold namesOf Path.names
  congr 3

theorem sourceDir_liesAt : c.sourceDir.LiesAt c.root ["src"] :=
  (Path.LiesAt.self c.root).child (by constructor <;> decide)

theorem recordDir_liesAt : c.recordDir.LiesAt c.root ["meta"] :=
  (Path.LiesAt.self c.root).child (by constructor <;> decide)

theorem axisDir_liesAt : c.axisDir.LiesAt c.root ["conf"] :=
  (Path.LiesAt.self c.root).child (by constructor <;> decide)

/-- **A rewritten source is below the cache directory.** -/
theorem sourcePath_liesAt : (c.sourcePath source).LiesAt c.root ("src" :: source.names) := by
  rw [sourcePath, namesOf_eq]
  exact c.sourceDir_liesAt.join fun _ => Path.isName_of_mem_names

/-- **The path of a record is that of the directory of records with names behind it.** -/
theorem recordPath_eq :
    c.recordPath source = c.recordDir.join ⟨"/".intercalate (recordNames source.names)⟩ := by
  have names : ∀ n ∈ source.names, Path.IsName n := fun _ => Path.isName_of_mem_names
  have extended := Path.isAbsolute_intercalate (isName_of_mem_recordNames names)
  have text : "/".intercalate (recordNames source.names)
      = "/".intercalate source.names ++ ".json" := by
    rcases List.eq_nil_or_concat' source.names with nil | ⟨xs, x, eq⟩
    · rw [nil]
      rfl
    · rw [eq, recordNames_concat]
      by_cases hxs : xs = []
      · simp [hxs]
      · rw [String.intercalate_append_of_ne_nil hxs (by simp),
          String.intercalate_append_of_ne_nil hxs (by simp), String.intercalate_singleton,
          String.intercalate_singleton, String.append_assoc, String.append_assoc,
          String.append_assoc]
  rw [recordPath, namesOf_eq, Path.join, Path.join, Path.isAbsolute_intercalate names, extended,
    text]
  simp only [Bool.false_eq_true, if_false]
  split <;> simp [String.append_assoc]

/-- **The record of a source is below the cache directory.** -/
theorem recordPath_liesAt :
    (c.recordPath source).LiesAt c.root ("meta" :: recordNames source.names) := by
  rw [recordPath_eq]
  exact c.recordDir_liesAt.join (isName_of_mem_recordNames fun _ => Path.isName_of_mem_names)

/-- **The path of a record ends in a name.** -/
theorem exists_recordPath_endsIn : ∃ n, (c.recordPath source).EndsIn n := by
  rw [recordPath_eq]
  exact ⟨_, Path.endsIn_join _ (isName_of_mem_recordNames fun _ => Path.isName_of_mem_names)⟩

/-- **The path of a rewritten source ends in a name**, if the source has one. -/
theorem exists_sourcePath_endsIn (h : source.names ≠ []) : ∃ n, (c.sourcePath source).EndsIn n := by
  rw [sourcePath, namesOf_eq]
  have names := fun n (hn : n ∈ source.names) => Path.isName_of_mem_names hn
  rcases List.eq_nil_or_concat' source.names with nil | ⟨xs, x, eq⟩
  · exact absurd nil h
  · rw [eq] at names ⊢
    exact ⟨x, Path.endsIn_join _ names⟩

/-- **The record of an axis is below the cache directory.** -/
theorem axisPath_liesAt (a : Axis) : (c.axisPath a).LiesAt c.root ["conf", a.fileName] :=
  c.axisDir_liesAt.child (by cases a <;> constructor <;> decide)

/-- **The list of further names for the blacklist is below the cache directory.** -/
theorem blacklistPath_liesAt : c.blacklistPath.LiesAt c.root ["conf", "function_blacklist.txt"] :=
  c.axisDir_liesAt.child (by constructor <;> decide)

end RewriteCache

end Seams
