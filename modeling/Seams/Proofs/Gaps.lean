import Mathlib.Data.List.Basic
import Mathlib.Tactic.Common
import Seams.Proofs.Lookup
import Seams.Proofs.Traversal

/-! # Tokens as leaves and gaps
The tokens of a source are the leaves of its tree that are not empty, and the gaps between them. If
the leaves follow each other within the source, none is passed over, and each gap is as long as it
can be: it begins where the source or a leaf does not go on, and ends where the source ends or a leaf
begins.
Main definitions:
* **`Node.solidLeaves`** — the leaves that are not empty;
* **`Node.Parted`** — the leaves follow each other within a source;
* **`Token.Gap`**, **`Token.gaps`** — the longest ranges between leaves;
* **`TokenStream.Shows`** — the tokens of a stream are the leaves of a tree and the gaps. -/

namespace Seams

namespace Token

variable {size lo : Nat} {xs : List (Label × Option String)}

/-! ## Leaves that follow each other -/

/-- **Leaves follow each other** from a byte on and within a size, and none is empty. -/
def Follow (size : Nat) : Nat → List (Label × Option String) → Prop
  | lo, [] => lo ≤ size
  | lo, x :: xs => lo ≤ x.1.start ∧ x.1.start < x.1.stop ∧ Follow size x.1.stop xs

/-- **Leaves that follow each other end within the size.** -/
theorem Follow.le (h : Follow size lo xs) : lo ≤ size := by
  induction xs generalizing lo with
  | nil => exact h
  | cons x xs ih =>
      obtain ⟨behind, nonempty, rest⟩ := h
      have := ih rest
      omega

/-- **Each of the leaves that follow a byte** begins there or behind it, and ends within the size. -/
theorem Follow.within (h : Follow size lo xs) {x : Label × Option String} (mem : x ∈ xs) :
    lo ≤ x.1.start ∧ x.1.start < x.1.stop ∧ x.1.stop ≤ size := by
  induction xs generalizing lo with
  | nil => exact absurd mem List.not_mem_nil
  | cons y ys ih =>
      obtain ⟨behind, nonempty, rest⟩ := h
      rcases List.mem_cons.1 mem with rfl | mem
      · exact ⟨behind, nonempty, rest.le⟩
      · have := ih rest mem
        omega

/-- **Leaves that are apart, not empty and within the size follow each other.** -/
theorem Follow.of_pairwise (apart : xs.Pairwise fun a b => a.1.stop ≤ b.1.start)
    (within : ∀ x ∈ xs, lo ≤ x.1.start ∧ x.1.start < x.1.stop ∧ x.1.stop ≤ size)
    (le : lo ≤ size) : Follow size lo xs := by
  induction xs generalizing lo with
  | nil => exact le
  | cons x xs ih =>
      obtain ⟨behind, nonempty, inside⟩ := within x List.mem_cons_self
      obtain ⟨first, rest⟩ := List.pairwise_cons.1 apart
      exact ⟨behind, nonempty, ih rest
        (fun y hy => ⟨first y hy, (within y (List.mem_cons_of_mem _ hy)).2⟩) inside⟩

/-- **Empty leaves make no difference to the tokens.** -/
theorem cover_filter (size offset : Nat) (leaves : List (Label × Option String)) :
    cover size offset (leaves.filter fun x => x.1.start < x.1.stop) = cover size offset leaves := by
  induction leaves generalizing offset with
  | nil => rfl
  | cons x xs ih =>
      rw [List.filter_cons]
      split
      case isTrue => rw [cover, cover, ih, ih]
      case isFalse empty =>
        rw [decide_eq_true_eq] at empty
        rw [cover, if_neg (fun h => empty h.1), ih]

/-! ## Gaps -/

/-- **A byte is in one of the leaves.** -/
def Covered (leaves : List (Label × Option String)) (i : Nat) : Prop :=
  ∃ x ∈ leaves, x.1.start ≤ i ∧ i < x.1.stop

/-- **A gap between leaves**, from a byte on and within a size: a range without a byte of a leaf that
can be made longer at neither end. -/
structure Gap (size lo : Nat) (leaves : List (Label × Option String)) (start stop : Nat) :
    Prop where
  /-- It is not empty. -/
  nonempty : start < stop
  /-- It lies behind the byte. -/
  behind : lo ≤ start
  /-- It lies within the size. -/
  within : stop ≤ size
  /-- No byte of it is in a leaf. -/
  bare : ∀ i, start ≤ i → i < stop → ¬ Covered leaves i
  /-- It begins at the byte, or the byte before it is in a leaf. -/
  left : start = lo ∨ Covered leaves (start - 1)
  /-- It ends at the size, or the byte after it is in a leaf. -/
  right : stop = size ∨ Covered leaves stop

/-- **The gaps between leaves that follow each other**, in their order. -/
def gaps (size : Nat) : Nat → List (Label × Option String) → List (Nat × Nat)
  | lo, [] => if lo < size then [(lo, size)] else []
  | lo, x :: xs =>
    if lo < x.1.start then (lo, x.1.start) :: gaps size x.1.stop xs else gaps size x.1.stop xs

/-- **Up to the end of the first leaf** the bytes that are in a leaf are those from its start on. -/
theorem Follow.covered_iff_of_lt {x : Label × Option String} (h : Follow size lo (x :: xs)) {i : Nat}
    (lt : i < x.1.stop) : Covered (x :: xs) i ↔ x.1.start ≤ i := by
  constructor
  · rintro ⟨y, mem, behind, -⟩
    rcases List.mem_cons.1 mem with rfl | mem
    · exact behind
    · have := h.2.2.within mem
      omega
  · exact fun behind => ⟨x, List.mem_cons_self, behind, lt⟩

/-- **Behind the first leaf** the bytes that are in a leaf are those of the later ones. -/
theorem covered_iff_of_le {x : Label × Option String} {i : Nat} (le : x.1.stop ≤ i) :
    Covered (x :: xs) i ↔ Covered xs i := by
  have beyond : ¬ i < x.1.stop := Nat.not_lt.2 le
  simp [Covered, beyond]

/-- **A gap that begins before the first leaf** goes from the byte to the leaf. -/
theorem Follow.gap_iff_of_lt {x : Label × Option String} (h : Follow size lo (x :: xs)) {a b : Nat}
    (before : a < x.1.start) : Gap size lo (x :: xs) a b ↔ a = lo ∧ b = x.1.start := by
  have nonempty := h.2.1
  have inside := h.2.2.le
  constructor
  · intro gap
    have lt := gap.nonempty
    have b_le : b ≤ x.1.start := by
      by_contra beyond
      exact gap.bare x.1.start (by omega) (by omega)
        ((h.covered_iff_of_lt nonempty).2 (Nat.le_refl _))
    constructor
    · refine gap.left.resolve_right fun covered => ?_
      have := (h.covered_iff_of_lt (by omega)).1 covered
      omega
    · rcases gap.right with eq | covered
      · omega
      · exact Nat.le_antisymm b_le ((h.covered_iff_of_lt (by omega)).1 covered)
  · rintro ⟨rfl, rfl⟩
    refine ⟨before, Nat.le_refl _, by omega, fun i _ lt covered => ?_, .inl rfl,
      .inr ((h.covered_iff_of_lt nonempty).2 (Nat.le_refl _))⟩
    have := (h.covered_iff_of_lt (by omega)).1 covered
    omega

/-- **A gap that does not begin before the first leaf** is a gap between the later ones. -/
theorem Follow.gap_iff_of_le {x : Label × Option String} (h : Follow size lo (x :: xs)) {a b : Nat}
    (le : x.1.start ≤ a) : Gap size lo (x :: xs) a b ↔ Gap size x.1.stop xs a b := by
  have behind := h.1
  have nonempty := h.2.1
  constructor
  · intro gap
    have lt := gap.nonempty
    have beyond : x.1.stop ≤ a := by
      by_contra inside
      exact gap.bare a (Nat.le_refl a) lt ((h.covered_iff_of_lt (by omega)).2 le)
    refine ⟨lt, beyond, gap.within, fun i hi hi' => ?_, ?_, ?_⟩
    · rw [← covered_iff_of_le (by omega : x.1.stop ≤ i)]
      exact gap.bare i hi hi'
    · rcases Nat.eq_or_lt_of_le beyond with eq | later
      · exact .inl eq.symm
      · rw [← covered_iff_of_le (by omega : x.1.stop ≤ a - 1)]
        exact .inr (gap.left.resolve_left (by omega))
    · rw [← covered_iff_of_le (by omega : x.1.stop ≤ b)]
      exact gap.right
  · intro gap
    have lt := gap.nonempty
    have beyond := gap.behind
    refine ⟨lt, by omega, gap.within, fun i hi hi' => ?_, .inr ?_, ?_⟩
    · rw [covered_iff_of_le (by omega : x.1.stop ≤ i)]
      exact gap.bare i hi hi'
    · rcases Nat.eq_or_lt_of_le beyond with eq | later
      · exact (h.covered_iff_of_lt (by omega)).2 (by omega)
      · rw [covered_iff_of_le (by omega : x.1.stop ≤ a - 1)]
        exact gap.left.resolve_left (by omega)
    · rw [covered_iff_of_le (by omega : x.1.stop ≤ b)]
      exact gap.right

/-- **A gap is the one in front of the first leaf**, if there is one, or one between the later
leaves. -/
theorem Follow.gap_cons_iff {x : Label × Option String} (h : Follow size lo (x :: xs)) {a b : Nat} :
    Gap size lo (x :: xs) a b
      ↔ (lo < x.1.start ∧ a = lo ∧ b = x.1.start) ∨ Gap size x.1.stop xs a b := by
  by_cases before : a < x.1.start
  · rw [h.gap_iff_of_lt before]
    constructor
    · rintro ⟨rfl, rfl⟩
      exact .inl ⟨before, rfl, rfl⟩
    · rintro (⟨-, ends⟩ | later)
      · exact ends
      · have := later.behind
        have := h.2.1
        omega
  · rw [h.gap_iff_of_le (Nat.le_of_not_lt before)]
    constructor
    · exact .inr
    · rintro (⟨lt, rfl, -⟩ | later)
      · exact absurd lt before
      · exact later

/-- **Without leaves there is one gap, or none** if nothing is left. -/
theorem gap_nil_iff {a b : Nat} : Gap size lo [] a b ↔ lo < size ∧ a = lo ∧ b = size := by
  have none_covered (i : Nat) : ¬ Covered [] i := fun ⟨_, h, _⟩ => absurd h List.not_mem_nil
  constructor
  · intro gap
    obtain rfl : a = lo := gap.left.resolve_right (none_covered _)
    obtain rfl : b = size := gap.right.resolve_right (none_covered _)
    exact ⟨gap.nonempty, rfl, rfl⟩
  · rintro ⟨lt, rfl, rfl⟩
    exact ⟨lt, Nat.le_refl _, Nat.le_refl _, fun i _ _ => none_covered i, .inl rfl, .inl rfl⟩

/-- **The gaps are all the gaps** between leaves that follow each other. -/
theorem Follow.mem_gaps_iff (h : Follow size lo xs) {a b : Nat} :
    (a, b) ∈ gaps size lo xs ↔ Gap size lo xs a b := by
  induction xs generalizing lo with
  | nil =>
      rw [gap_nil_iff, gaps]
      split
      case isTrue lt => simp [lt]
      case isFalse none_left => simp [none_left]
  | cons x xs ih =>
      rw [h.gap_cons_iff, ← ih h.2.2, gaps]
      split
      case isTrue lt => simp [lt]
      case isFalse none_before => simp [none_before]

/-- **The gaps follow each other**, and no two of them meet. -/
theorem Follow.gaps_apart (h : Follow size lo xs) :
    (gaps size lo xs).Pairwise fun g g' => g.2 < g'.1 := by
  induction xs generalizing lo with
  | nil =>
      rw [gaps]
      split
      · exact List.pairwise_singleton _ _
      · exact .nil
  | cons x xs ih =>
      obtain ⟨behind, nonempty, rest⟩ := h
      rw [gaps]
      split
      · refine List.pairwise_cons.2 ⟨fun g mem => ?_, ih rest⟩
        have := (rest.mem_gaps_iff.1 mem).behind
        show x.1.start < g.1
        omega
      · exact ih rest

/-! ## The tokens over leaves that follow each other -/

/-- **The tokens are the leaves and the gaps**, each in their order, by whatever leaves are told from
gaps. -/
theorem Follow.filter_cover (h : Follow size lo xs) (p : Token → Bool)
    (leaf : ∀ x ∈ xs, p (ofLeaf x) = true)
    (gap : ∀ g ∈ gaps size lo xs, p (trivia g.1 g.2) = false) :
    (cover size lo xs).filter p = xs.map ofLeaf
      ∧ (cover size lo xs).filter (fun t => !p t)
        = (gaps size lo xs).map fun g => trivia g.1 g.2 := by
  induction xs generalizing lo with
  | nil =>
      rw [cover]
      rw [gaps] at gap ⊢
      split at gap
      case isTrue lt =>
        have front := gap _ (List.mem_singleton_self _)
        rw [if_pos lt, if_pos lt]
        simp [front]
      case isFalse none_left =>
        rw [if_neg none_left, if_neg none_left]
        exact ⟨rfl, rfl⟩
  | cons x xs ih =>
      obtain ⟨behind, nonempty, rest⟩ := h
      have first := leaf x List.mem_cons_self
      have taken : x.1.start < x.1.stop ∧ lo ≤ x.1.start ∧ x.1.stop ≤ size :=
        ⟨nonempty, behind, rest.le⟩
      rw [cover, if_pos taken]
      rw [gaps] at gap ⊢
      split at gap
      case isTrue lt =>
        obtain ⟨front, later⟩ := List.forall_mem_cons.1 gap
        obtain ⟨leaves, between⟩ := ih rest (fun y hy => leaf y (List.mem_cons_of_mem _ hy)) later
        rw [if_pos lt, if_pos lt]
        constructor
        · rw [List.filter_cons_of_neg (by simp [front]), List.filter_cons_of_pos first, leaves,
            List.map_cons]
        · rw [List.filter_cons_of_pos (by simp [front]), List.filter_cons_of_neg (by simp [first]),
            between, List.map_cons]
      case isFalse none_before =>
        obtain ⟨leaves, between⟩ := ih rest (fun y hy => leaf y (List.mem_cons_of_mem _ hy)) gap
        rw [if_neg none_before, if_neg none_before]
        constructor
        · rw [List.filter_cons_of_pos first, leaves, List.map_cons]
        · rw [List.filter_cons_of_neg (by simp [first]), between]

end Token

/-! ## The tokens of a tree -/

namespace Node

/-- **The leaves that are not empty.** -/
def solidLeaves (t : Node) : List (Label × Option String) :=
  t.leaves.filter fun x => x.1.start < x.1.stop

/-- **Whether a leaf that is not empty begins at a byte.** -/
def beginsAt (t : Node) (byte : Nat) : Bool := t.solidLeaves.any fun x => x.1.start == byte

/-- **The leaves of a tree part a source**: those that are not empty are in order, disjoint, and within
the source. -/
structure Parted (t : Node) (source : Bytes) : Prop where
  /-- Each ends before the later ones start. -/
  apart : t.solidLeaves.Pairwise fun a b => a.1.stop ≤ b.1.start
  /-- Each ends within the source. -/
  within : ∀ x ∈ t.solidLeaves, x.1.stop ≤ source.size

instance (t : Node) (source : Bytes) : Decidable (t.Parted source) :=
  decidable_of_iff ((t.solidLeaves.Pairwise fun a b => a.1.stop ≤ b.1.start)
      ∧ ∀ x ∈ t.solidLeaves, x.1.stop ≤ source.size)
    ⟨fun ⟨apart, within⟩ => ⟨apart, within⟩, fun h => ⟨h.apart, h.within⟩⟩

variable {t : Node} {source : Bytes}

/-- **Leaves that part a source follow each other.** -/
theorem Parted.follow (h : t.Parted source) : Token.Follow source.size 0 t.solidLeaves := by
  refine .of_pairwise h.apart (fun x mem => ⟨Nat.zero_le _, ?_, h.within x mem⟩) (Nat.zero_le _)
  exact of_decide_eq_true (List.mem_filter.1 mem).2

end Node

namespace TokenStream

/-- **A stream shows a tree**: its tokens are the leaves that are not empty, in their order and as
they are in the tree, and the gaps between them. -/
structure Shows (s : TokenStream) (tree : Node) : Prop where
  /-- The gaps that are listed are all that there are. -/
  gap : ∀ a b, (a, b) ∈ Token.gaps s.source.size 0 tree.solidLeaves
    ↔ Token.Gap s.source.size 0 tree.solidLeaves a b
  /-- They are listed in their order, and no two of them meet. -/
  apart : (Token.gaps s.source.size 0 tree.solidLeaves).Pairwise fun g g' => g.2 < g'.1
  /-- The tokens that start where a leaf does are the leaves. -/
  leaves : s.tokens.toList.filter (fun t => tree.beginsAt t.start)
    = tree.solidLeaves.map Token.ofLeaf
  /-- The other tokens are the gaps. -/
  between : s.tokens.toList.filter (fun t => !tree.beginsAt t.start)
    = (Token.gaps s.source.size 0 tree.solidLeaves).map fun g => .trivia g.1 g.2
  /-- If no leaf is of the kind that gaps are given, their kind tells leaves from gaps. -/
  byKind : (∀ x ∈ tree.leaves, x.1.kind ≠ Token.triviaKind) →
    s.tokens.toList.filter (fun t => !t.isTrivia) = tree.solidLeaves.map Token.ofLeaf
      ∧ s.tokens.toList.filter (fun t => t.isTrivia)
        = (Token.gaps s.source.size 0 tree.solidLeaves).map fun g => .trivia g.1 g.2

/-- **The tokens of a source show the tree** if its leaves part the source. -/
theorem shows_ofTree {source : Bytes} {tree : Node} (h : tree.Parted source) :
    (ofTree source tree).Shows tree := by
  have follow := h.follow
  have tokens : (ofTree source tree).tokens.toList
      = Token.cover source.size 0 tree.solidLeaves := by
    rw [ofTree, List.toList_toArray, Node.walk_eq_leaves, Node.solidLeaves, Token.cover_filter]
  -- No leaf starts where a gap does, since the bytes of a gap are in no leaf.
  have placed := follow.filter_cover (fun t => tree.beginsAt t.start)
    (fun x mem => List.any_eq_true.2 ⟨x, mem, beq_self_eq_true _⟩)
    (fun g mem => by
      have gap := follow.mem_gaps_iff.1 mem
      rw [← Bool.not_eq_true, Node.beginsAt, List.any_eq_true]
      rintro ⟨x, leaf, starts⟩
      have at_start : x.1.start = g.1 := eq_of_beq starts
      have := (follow.within leaf).2.1
      exact gap.bare g.1 (Nat.le_refl _) gap.nonempty ⟨x, leaf, by omega, by omega⟩)
  refine ⟨fun _ _ => follow.mem_gaps_iff, follow.gaps_apart, ?_, ?_, fun other => ?_⟩
  · rw [tokens]
    exact placed.1
  · rw [tokens]
    exact placed.2
  · have kinds := follow.filter_cover (fun t => !t.isTrivia)
      (fun x mem => by
        have := other x (List.mem_of_mem_filter mem)
        simpa [Token.isTrivia, Token.ofLeaf] using this)
      (fun g _ => by simp [Token.isTrivia, Token.trivia])
    simp only [Bool.not_not] at kinds
    rw [tokens]
    exact kinds

/-- **A walk enumerates the leaves, and the tokens show them.** The tour of a cursor through any tree
is complete. If the leaves of the tree part a source, the tokens are the leaves that are not empty and
the longest gaps between them. -/
theorem ofTree_enumerates (source : Bytes) (tree : Node) :
    Tour.Complete tree ∧ (tree.Parted source → (ofTree source tree).Shows tree) :=
  ⟨Tour.complete tree, shows_ofTree⟩

/-- A tree over `<?php  f;` with an empty leaf in front of the semicolon. -/
def shortTree : Node :=
  .mk ⟨"program", true, "", 0, 9, false, false⟩
    [.leaf "php_tag" true 0 5,
      .mk ⟨"expression_statement", true, "", 7, 9, false, false⟩
        [.leaf "name" true 7 8, .leaf "arguments" true 8 8, .leaf ";" false 8 9]]

/-- For instance, the tokens of `<?php  f;` are three leaves, each below its parent, and one gap. -/
theorem ofTree_enumerates_short :
    shortTree.Parted (bytesOf "<?php  f;")
      ∧ (ofTree (bytesOf "<?php  f;") shortTree).tokens.toList.filter (fun t => !t.isTrivia)
        = [⟨0, 5, "php_tag", true, some "program"⟩,
          ⟨7, 8, "name", true, some "expression_statement"⟩,
          ⟨8, 9, ";", false, some "expression_statement"⟩]
      ∧ (ofTree (bytesOf "<?php  f;") shortTree).tokens.toList.filter (fun t => t.isTrivia)
        = [.trivia 5 7] := by
  have parted : shortTree.Parted (bytesOf "<?php  f;") := by decide
  obtain ⟨leaves, between⟩ :=
    ((ofTree_enumerates (bytesOf "<?php  f;") shortTree).2 parted).byKind (by decide)
  exact ⟨parted, leaves.trans (by decide), between.trans (by decide)⟩

end TokenStream

end Seams
