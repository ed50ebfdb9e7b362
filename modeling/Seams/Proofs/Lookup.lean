import Mathlib.Data.List.Basic
import Mathlib.Tactic.Common
import Seams.Proofs.Rewriting
import Seams.Proofs.Trees

/-! # Finding tokens
The tokens of a source ascend, so bisection finds the one that starts at a byte whenever there is
one. Each token is a leaf of the tree or a gap between leaves, and a leaf of a tree with nested
ranges is a token unless it is empty.
Main definitions:
* **`Node.Over`** — a tree whose ranges are nested and lie within a source. -/

namespace Seams

namespace Token

/-! ## Tokens that follow each other -/

/-- **Tokens that follow each other lie within their range** and are not empty. -/
theorem Spans.within {ts : List Token} {lo hi : Nat} (h : Spans lo hi ts) {t : Token}
    (mem : t ∈ ts) : lo ≤ t.start ∧ t.start < t.stop ∧ t.stop ≤ hi := by
  induction ts generalizing lo with
  | nil => exact absurd mem List.not_mem_nil
  | cons t' ts ih =>
      obtain ⟨rfl, lt, rest⟩ := h
      rcases List.mem_cons.1 mem with rfl | mem
      · exact ⟨Nat.le_refl _, lt, rest.le⟩
      · have := ih rest mem
        omega

/-- **Of tokens that follow each other the later one starts later.** -/
theorem Spans.start_lt {ts : List Token} {lo hi : Nat} (h : Spans lo hi ts) {i j : Nat}
    {t u : Token} (ht : ts[i]? = some t) (hu : ts[j]? = some u) (lt : i < j) :
    t.start < u.start := by
  induction ts generalizing lo i j with
  | nil => cases ht
  | cons t' ts ih =>
      obtain ⟨rfl, nonempty, rest⟩ := h
      cases j with
      | zero => cases lt
      | succ j =>
          cases i with
          | zero =>
              obtain rfl : t' = t := by simpa using ht
              have := rest.within (List.mem_of_getElem? hu)
              omega
          | succ i => exact ih rest ht hu (Nat.lt_of_succ_lt_succ lt)

/-! ## Tokens and leaves -/

/-- **A token is a leaf or a gap.** -/
theorem mem_cover {size offset : Nat} {leaves : List (Label × Option String)} {t : Token}
    (mem : t ∈ cover size offset leaves) :
    t = trivia t.start t.stop ∨ ∃ leaf ∈ leaves, t = ofLeaf leaf := by
  induction leaves generalizing offset with
  | nil =>
      rw [cover] at mem
      split at mem
      · rw [List.mem_singleton] at mem
        rw [mem]
        exact .inl rfl
      · exact absurd mem List.not_mem_nil
  | cons leaf rest ih =>
      have later {offset : Nat} (mem : t ∈ cover size offset rest) :
          t = trivia t.start t.stop ∨ ∃ leaf' ∈ leaf :: rest, t = ofLeaf leaf' := by
        rcases ih mem with gap | ⟨leaf', h, eq⟩
        · exact .inl gap
        · exact .inr ⟨leaf', List.mem_cons_of_mem _ h, eq⟩
      rw [cover] at mem
      split at mem
      · split at mem
        · rcases List.mem_cons.1 mem with rfl | mem
          · exact .inl rfl
          rcases List.mem_cons.1 mem with rfl | mem
          · exact .inr ⟨leaf, List.mem_cons_self, rfl⟩
          · exact later mem
        · rcases List.mem_cons.1 mem with rfl | mem
          · exact .inr ⟨leaf, List.mem_cons_self, rfl⟩
          · exact later mem
      · exact later mem

/-- **A leaf that is not empty is a token** if the leaves follow each other. -/
theorem mem_cover_of_leaf {size offset : Nat} {leaves : List (Label × Option String)}
    (apart : leaves.Pairwise fun a b => a.1.stop ≤ b.1.start)
    (within : ∀ x ∈ leaves, offset ≤ x.1.start ∧ x.1.start ≤ x.1.stop ∧ x.1.stop ≤ size)
    {leaf : Label × Option String} (mem : leaf ∈ leaves) (nonempty : leaf.1.start < leaf.1.stop) :
    ofLeaf leaf ∈ cover size offset leaves := by
  induction leaves generalizing offset with
  | nil => exact absurd mem List.not_mem_nil
  | cons x rest ih =>
      obtain ⟨behind, le, inside⟩ := within x List.mem_cons_self
      rw [List.pairwise_cons] at apart
      have later : leaf ∈ rest → ofLeaf leaf ∈ cover size x.1.stop rest := fun mem =>
        ih apart.2 (fun y hy =>
          ⟨apart.1 y hy, (within y (List.mem_cons_of_mem _ hy)).2⟩) mem
      rw [cover]
      split
      · rcases List.mem_cons.1 mem with rfl | mem
        · split
          · exact List.mem_cons_of_mem _ List.mem_cons_self
          · exact List.mem_cons_self
        · split
          · exact List.mem_cons_of_mem _ (List.mem_cons_of_mem _ (later mem))
          · exact List.mem_cons_of_mem _ (later mem)
      · rename_i passed
        rcases List.mem_cons.1 mem with rfl | mem
        · exact absurd ⟨nonempty, behind, inside⟩ passed
        · exact ih apart.2 (fun y hy => within y (List.mem_cons_of_mem _ hy)) mem

end Token

namespace TokenStream

variable {s : TokenStream}

/-! ## Tokens by where they start -/

/-- **Bisection finds the token that starts at the byte**, wherever it is in the range. -/
theorem bisect_of_start {tokens : Array Token} {byte lo hi n : Nat}
    (ascending : ∀ (i j : Nat) (t u : Token), tokens[i]? = some t → tokens[j]? = some u → i < j →
      t.start < u.start)
    (within : hi ≤ tokens.size) {t : Token} (there : tokens[n]? = some t)
    (starts : t.start = byte) (le : lo ≤ n) (lt : n < hi) :
    bisect tokens byte lo hi = some n := by
  fun_induction bisect tokens byte lo hi with
  | case1 lo hi lt' mid missing =>
      rw [Array.getElem?_eq_none_iff] at missing
      omega
  | case2 lo hi lt' mid u found eq =>
      rcases Nat.lt_trichotomy mid n with before | rfl | after
      · have := ascending _ _ _ _ found there before
        omega
      · rfl
      · have := ascending _ _ _ _ there found after
        omega
  | case3 lo hi lt' mid u found ne below ih =>
      -- The middle token starts before the byte, so the token is behind it.
      have behind : mid < n := by
        rcases Nat.lt_trichotomy mid n with before | rfl | after
        · exact before
        · rw [there, Option.some.injEq] at found
          exact absurd (found ▸ starts) ne
        · have := ascending _ _ _ _ there found after
          omega
      exact ih within behind lt
  | case4 lo hi lt' mid u found ne above ih =>
      have ahead : n < mid := by
        rcases Nat.lt_trichotomy mid n with before | rfl | after
        · have := ascending _ _ _ _ found there before
          omega
        · rw [there, Option.some.injEq] at found
          exact absurd (found ▸ starts) ne
        · exact after
      exact ih (by omega) le ahead
  | case5 lo hi none_left => omega

variable {lo hi : Nat}

/-- **The token at a byte is the one that starts there**, if there is one. -/
theorem positionAt?_eq_some_iff (spans : Token.Spans lo hi s.tokens.toList) {byte n : Nat} :
    s.positionAt? byte = some n ↔ ∃ t, s.get? n = some t ∧ t.start = byte := by
  constructor
  · exact bisect_eq_some
  · rintro ⟨t, there, starts⟩
    have lt : n < s.size := by
      by_contra beyond
      rw [get?, Array.getElem?_eq_none (Nat.le_of_not_lt beyond)] at there
      cases there
    refine bisect_of_start (fun i j t u ht hu => ?_) (Nat.le_refl _) there starts (Nat.zero_le _) lt
    rw [← Array.getElem?_toList] at ht hu
    exact spans.start_lt ht hu

/-- **The token over a range is the one that covers it exactly**, if there is one. -/
theorem tokenAt?_eq_some_iff (spans : Token.Spans lo hi s.tokens.toList) {start stop n : Nat} :
    s.tokenAt? start stop = some n
      ↔ ∃ t, s.get? n = some t ∧ t.start = start ∧ t.stop = stop := by
  rw [tokenAt?, Option.filter_eq_some_iff, positionAt?_eq_some_iff spans, Option.any_eq_true]
  constructor
  · rintro ⟨⟨t, there, starts⟩, t', there', stops⟩
    rw [there, Option.some.injEq] at there'
    rw [← there', beq_iff_eq] at stops
    exact ⟨t, there, starts, stops⟩
  · rintro ⟨t, there, starts, stops⟩
    exact ⟨⟨t, there, starts⟩, t, there, beq_iff_eq.2 stops⟩

end TokenStream

/-! ## The tokens of a tree over a source -/

/-- **A tree lies over a source**: its ranges are nested, and within the source. -/
structure Node.Over (t : Node) (source : Bytes) : Prop where
  /-- The ranges of the tree are nested. -/
  ordered : t.Ordered
  /-- The tree ends within the source. -/
  within : t.stop ≤ source.size

instance (t : Node) (source : Bytes) : Decidable (t.Over source) :=
  decidable_of_iff (t.Ordered ∧ t.stop ≤ source.size)
    ⟨fun ⟨ordered, within⟩ => ⟨ordered, within⟩, fun h => ⟨h.ordered, h.within⟩⟩

namespace TokenStream

/-- **The tokens of a source with its tree** are those that cover it. -/
theorem get?_ofTree (source : Bytes) (tree : Node) (n : Nat) :
    (ofTree source tree).get? n = (Token.cover source.size 0 tree.walk)[n]? :=
  List.getElem?_toArray

/-- **A leaf that is not empty is a token.** -/
theorem get?_of_leaf {tree : Node} {source : Bytes} (spans : tree.Over source)
    {leaf : Label × Option String} (mem : leaf ∈ tree.leaves)
    (nonempty : leaf.1.start < leaf.1.stop) :
    ∃ n, (ofTree source tree).get? n = some (Token.ofLeaf leaf) := by
  have covered : Token.ofLeaf leaf ∈ Token.cover source.size 0 tree.walk := by
    rw [Node.walk_eq_leaves]
    refine Token.mem_cover_of_leaf (spans.ordered.leaves_apart none) (fun x hx => ?_) mem nonempty
    have := spans.ordered.leaf_within hx
    have := spans.within
    omega
  obtain ⟨n, there⟩ := List.mem_iff_getElem?.1 covered
  exact ⟨n, (get?_ofTree source tree n).trans there⟩

/-- **A token is a leaf of the tree or a gap.** -/
theorem leaf_of_get? {tree : Node} {source : Bytes} {n : Nat} {t : Token}
    (there : (ofTree source tree).get? n = some t) :
    t = Token.trivia t.start t.stop ∨ ∃ leaf ∈ tree.leaves, t = Token.ofLeaf leaf := by
  rw [get?_ofTree] at there
  rw [← Node.walk_eq_leaves]
  exact Token.mem_cover (List.mem_of_getElem? there)

end TokenStream

end Seams
