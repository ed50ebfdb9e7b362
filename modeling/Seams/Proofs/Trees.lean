import Mathlib.Data.List.Pairwise
import Mathlib.Tactic.Common
import Seams.Grammar.Cursor
import Seams.Grammar.Flaw
import Seams.Query.Search

/-! # Syntax trees whose ranges are nested
In the tree of a parser the ranges of children follow each other within the range of their parent.
Then the ranges of all nodes lie within the root, the leaves follow each other, and what is marked
by a byte of a child of a node is marked once. The cursor meets the leaves in their order.
Main definitions:
* **`Node.Nested`** — the children of a node follow each other within it;
* **`Node.Ordered`** — this holds of every node of a tree;
* **`Node.Clean`** — no node of a tree is an error or a missing token;
* **`Node.Marks`** — a byte of each node, at which one of its children begins. -/

namespace Seams

/-! ## Nodes and leaves of a tree -/

/-- **What holds of a node whenever it holds of its children** holds of all trees. -/
@[induction_eliminator]
theorem Node.induction {P : Node → Prop} (mk : ∀ l cs, (∀ c ∈ cs, P c) → P (.mk l cs)) :
    ∀ n, P n
  | .mk l cs => mk l cs fun c _ => Node.induction mk c

namespace Node

/-- **The nodes of siblings** are those of each of them. -/
theorem nodesOfAll_eq (cs : List Node) : nodesOfAll cs = cs.flatMap nodes := by
  induction cs with
  | nil => rfl
  | cons c cs ih => rw [nodesOfAll, ih, List.flatMap_cons]

/-- **The leaves of siblings** are those of each of them. -/
theorem leavesOfAll_eq (parent : Option String) (cs : List Node) :
    leavesOfAll parent cs = cs.flatMap (leavesUnder parent) := by
  induction cs with
  | nil => rfl
  | cons c cs ih => rw [leavesOfAll, ih, List.flatMap_cons]

/-- **A node of a tree** is its root or a node of a child. -/
theorem mem_nodes {m : Node} {l : Label} {cs : List Node} :
    m ∈ (mk l cs).nodes ↔ m = mk l cs ∨ ∃ c ∈ cs, m ∈ c.nodes := by
  rw [nodes, nodesOfAll_eq, List.mem_cons, List.mem_flatMap]

/-- **The root is a node of its tree.** -/
theorem mem_nodes_self (n : Node) : n ∈ n.nodes := by
  cases n
  exact mem_nodes.2 (.inl rfl)

instance (n : Node) : Decidable (n.children = []) :=
  decidable_of_iff (n.children.isEmpty = true) List.isEmpty_iff

/-- **A leaf is the only node of its tree.** -/
theorem eq_of_mem_nodes {m n : Node} (leaf : n.children = []) (mem : m ∈ n.nodes) : m = n := by
  obtain ⟨l, cs⟩ := n
  obtain rfl : cs = [] := leaf
  rcases mem_nodes.1 mem with eq | ⟨c, hc, -⟩
  · exact eq
  · exact absurd hc List.not_mem_nil

/-- **The nodes below a node of a tree are nodes of the tree.** -/
theorem mem_nodes_trans {m n t : Node} (below : m ∈ n.nodes) (mem : n ∈ t.nodes) :
    m ∈ t.nodes := by
  induction t with
  | mk l cs ih =>
      rcases mem_nodes.1 mem with rfl | ⟨c, hc, mem⟩
      · exact below
      · exact mem_nodes.2 (.inr ⟨c, hc, ih c hc mem⟩)

/-- **A child of a node of a tree is a node of the tree.** -/
theorem mem_nodes_of_child {c n t : Node} (child : c ∈ n.children) (mem : n ∈ t.nodes) :
    c ∈ t.nodes := by
  refine mem_nodes_trans ?_ mem
  cases n
  exact mem_nodes.2 (.inr ⟨c, child, c.mem_nodes_self⟩)

/-- **A leaf of a tree with children** is a leaf of one of them. -/
theorem mem_leavesUnder {x : Label × Option String} {parent : Option String} {l : Label} {c : Node}
    {cs : List Node} : x ∈ (mk l (c :: cs)).leavesUnder parent
      ↔ ∃ d ∈ c :: cs, x ∈ d.leavesUnder (some l.kind) := by
  rw [leavesUnder, leavesOfAll_eq, List.mem_flatMap]

/-- **A child without children is a leaf**, below the kind of its parent. -/
theorem mem_leaves_of_child {l : Label} {n t : Node} (child : mk l [] ∈ n.children)
    (mem : n ∈ t.nodes) (parent : Option String) : (l, some n.kind) ∈ t.leavesUnder parent := by
  induction t generalizing parent with
  | mk l' cs ih =>
      rcases mem_nodes.1 mem with rfl | ⟨c, hc, below⟩
      · cases cs with
        | nil => exact absurd child List.not_mem_nil
        | cons c cs =>
            refine mem_leavesUnder.2 ⟨_, child, ?_⟩
            rw [leavesUnder]
            exact List.mem_singleton.2 rfl
      · cases cs with
        | nil => exact absurd hc List.not_mem_nil
        | cons d ds => exact mem_leavesUnder.2 ⟨c, hc, ih c hc below _⟩

/-- **A leaf of a tree is the root or a child of a node**, and its parent kind says which. -/
theorem mem_leavesUnder_iff {l : Label} {parent kind : Option String} {t : Node} :
    (l, kind) ∈ t.leavesUnder parent ↔ (t = mk l [] ∧ kind = parent)
      ∨ ∃ n ∈ t.nodes, mk l [] ∈ n.children ∧ kind = some n.kind := by
  constructor
  · intro mem
    induction t generalizing parent with
    | mk l' cs ih =>
        cases cs with
        | nil =>
            rw [leavesUnder, List.mem_singleton, Prod.mk.injEq] at mem
            obtain ⟨rfl, rfl⟩ := mem
            exact .inl ⟨rfl, rfl⟩
        | cons c cs =>
            obtain ⟨d, hd, mem⟩ := mem_leavesUnder.1 mem
            rcases ih d hd mem with ⟨rfl, rfl⟩ | ⟨n, hn, child, rfl⟩
            · exact .inr ⟨_, mem_nodes_self _, hd, rfl⟩
            · exact .inr ⟨n, mem_nodes.2 (.inr ⟨d, hd, hn⟩), child, rfl⟩
  · rintro (⟨rfl, rfl⟩ | ⟨n, hn, child, rfl⟩)
    · rw [leavesUnder]
      exact List.mem_singleton.2 rfl
    · exact mem_leaves_of_child child hn parent

/-! ## The cursor meets the leaves in their order -/

/-- **The leaves that a cursor has still to meet** behind its focus: those of the later siblings,
and of the later siblings of the nodes above. -/
def leavesBehind (later : List Node) (above : List (Node × List Node)) (kinds : List String) :
    List (Label × Option String) :=
  leavesOfAll kinds.head? later ++
    match above with
    | [] => []
    | (_, later) :: above => leavesBehind later above kinds.tail

/-- **The first of the later siblings is met first.** -/
theorem leavesBehind_cons (d : Node) (ds : List Node) (above : List (Node × List Node))
    (kinds : List String) : leavesBehind (d :: ds) above kinds
      = d.leavesUnder kinds.head? ++ leavesBehind ds above kinds := by
  unfold leavesBehind
  rw [leavesOfAll, List.append_assoc]

/-- **Climbing skips no leaf.** -/
theorem leavesBehind_climb? (later : List Node) (above : List (Node × List Node))
    (kinds : List String) : leavesBehind later above kinds
      = match Cursor.climb? later above kinds with
        | some (c, ks) => c.focus.leavesUnder ks.head? ++ leavesBehind c.later c.above ks
        | none => [] := by
  fun_induction Cursor.climb? later above kinds with
  | case1 kinds d ds above => exact leavesBehind_cons d ds above kinds
  | case2 kinds p later above ih =>
      rw [leavesBehind, leavesOfAll]
      exact ih
  | case3 kinds => rfl

/-- **From the focus on a cursor meets the leaves** of the focus and those behind it. -/
theorem walk_eq_leavesBehind (c : Cursor) (kinds : List String) :
    c.walk kinds = c.focus.leavesUnder kinds.head? ++ leavesBehind c.later c.above kinds := by
  -- The cursor goes down to a first child as long as there is one, and climbs from a leaf.
  fun_induction Cursor.walk c kinds with
  | case1 c kinds d down ih =>
      obtain ⟨⟨l, cs⟩, later, above⟩ := c
      cases cs with
      | nil => cases down
      | cons e es =>
          cases down
          rw [ih, leavesUnder, leavesOfAll, List.append_assoc, leavesBehind]
          rfl
  | case2 c kinds atLeaf ih =>
      obtain ⟨⟨l, cs⟩, later, above⟩ := c
      cases cs with
      | cons e es => cases atLeaf
      | nil =>
          rw [leavesUnder, leavesBehind_climb?]
          split
          · rename_i d ks climbed
            simp only [climbed, ih d ks climbed]
            rfl
          · rename_i climbed
            simp only [climbed]
            rfl

/-- **A cursor meets the leaves of a tree** in document order, each with the kind of its parent. -/
theorem walk_eq_leaves (n : Node) : n.walk = n.leaves := by
  rw [walk, walk_eq_leavesBehind]
  exact List.append_nil _

/-! ## Trees whose ranges are nested -/

/-- **The children of a node follow each other within it.** -/
structure Nested (n : Node) : Prop where
  /-- The node does not end before it starts. -/
  le : n.start ≤ n.stop
  /-- Each child lies within the node. -/
  within : ∀ c ∈ n.children, n.start ≤ c.start ∧ c.stop ≤ n.stop
  /-- Each child ends before the later ones start. -/
  apart : n.children.Pairwise fun a b => a.stop ≤ b.start

instance (n : Node) : Decidable n.Nested :=
  decidable_of_iff (n.start ≤ n.stop
      ∧ (∀ c ∈ n.children, n.start ≤ c.start ∧ c.stop ≤ n.stop)
      ∧ n.children.Pairwise fun a b => a.stop ≤ b.start)
    ⟨fun ⟨le, within, apart⟩ => ⟨le, within, apart⟩, fun h => ⟨h.le, h.within, h.apart⟩⟩

/-- **Of two different children one ends before the other starts.** -/
theorem Nested.disjoint {n : Node} (h : n.Nested) {c d : Node} (hc : c ∈ n.children)
    (hd : d ∈ n.children) (ne : c ≠ d) : c.stop ≤ d.start ∨ d.stop ≤ c.start := by
  have : Std.Symm fun a b : Node => a.stop ≤ b.start ∨ b.stop ≤ a.start := ⟨fun _ _ => Or.symm⟩
  have either : n.children.Pairwise fun a b => a.stop ≤ b.start ∨ b.stop ≤ a.start :=
    h.apart.imp Or.inl
  exact either.forall hc hd ne

/-- **The ranges of a tree are nested**, at every node. -/
def Ordered (t : Node) : Prop := ∀ n ∈ t.nodes, n.Nested

instance (t : Node) : Decidable t.Ordered := inferInstanceAs (Decidable (∀ n ∈ t.nodes, n.Nested))

/-- **The subtrees of a tree with nested ranges** have nested ranges. -/
theorem Ordered.below {t n : Node} (h : t.Ordered) (mem : n ∈ t.nodes) : n.Ordered :=
  fun m below => h m (mem_nodes_trans below mem)

/-- **The children of a tree with nested ranges** have nested ranges. -/
theorem Ordered.child {l : Label} {cs : List Node} (h : (mk l cs).Ordered) {c : Node}
    (child : c ∈ cs) : c.Ordered :=
  h.below (mem_nodes.2 (.inr ⟨c, child, c.mem_nodes_self⟩))

/-- **A node of a tree lies within the root.** -/
theorem Ordered.within {t n : Node} (h : t.Ordered) (mem : n ∈ t.nodes) :
    t.start ≤ n.start ∧ n.start ≤ n.stop ∧ n.stop ≤ t.stop := by
  induction t with
  | mk l cs ih =>
      have root := h _ (mem_nodes_self _)
      rcases mem_nodes.1 mem with rfl | ⟨c, hc, below⟩
      · exact ⟨Nat.le_refl _, root.le, Nat.le_refl _⟩
      · obtain ⟨start, le, stop⟩ := ih c hc (h.child hc) below
        obtain ⟨behind, ahead⟩ := root.within c hc
        omega

/-- **A leaf of a tree lies within the root.** -/
theorem Ordered.leaf_within {t : Node} (h : t.Ordered) {x : Label × Option String}
    {parent : Option String} (mem : x ∈ t.leavesUnder parent) :
    t.start ≤ x.1.start ∧ x.1.start ≤ x.1.stop ∧ x.1.stop ≤ t.stop := by
  obtain ⟨l, kind⟩ := x
  rcases mem_leavesUnder_iff.1 mem with ⟨rfl, -⟩ | ⟨n, hn, child, -⟩
  · exact h.within (mem_nodes_self _)
  · exact h.within (mem_nodes_of_child child hn)

/-- **The leaves of a tree follow each other.** -/
theorem Ordered.leaves_apart {t : Node} (h : t.Ordered) (parent : Option String) :
    (t.leavesUnder parent).Pairwise fun a b => a.1.stop ≤ b.1.start := by
  induction t generalizing parent with
  | mk l cs ih =>
      cases cs with
      | nil =>
          rw [leavesUnder]
          exact List.pairwise_singleton _ _
      | cons c cs =>
          rw [leavesUnder, leavesOfAll_eq, List.pairwise_flatMap]
          refine ⟨fun d hd => ih d hd (h.child hd) _, ?_⟩
          -- The leaves of different children are apart since the children are.
          refine (h _ (mem_nodes_self _)).apart.imp_of_mem fun hc hd apart x hx y hy => ?_
          have := (h.child hc).leaf_within hx
          have := (h.child hd).leaf_within hy
          omega

/-! ## Trees without flaws -/

/-- **No node of a tree is an error or a missing token.** -/
def Clean (t : Node) : Prop := ∀ n ∈ t.nodes, n.isFault = false

instance (t : Node) : Decidable t.Clean :=
  inferInstanceAs (Decidable (∀ n ∈ t.nodes, n.isFault = false))

/-- **A tree without flaws has none to be found.** -/
theorem Clean.flawsWithin {t : Node} (h : t.Clean) : t.flawsWithin = [] := by
  induction t with
  | mk l cs ih =>
      have root : flawOf l = [] := by
        have := h _ (mem_nodes_self _)
        rw [isFault, kind, label_mk] at this
        rw [flawOf, this, if_neg Bool.false_ne_true]
      have children : ∀ ds, (∀ d ∈ ds, d ∈ cs) → flawsAmong ds = [] := by
        intro ds
        induction ds with
        | nil => exact fun _ => rfl
        | cons d ds rest =>
            intro all
            have hd := all d List.mem_cons_self
            have clean : d.Clean := fun n hn => h n (mem_nodes.2 (.inr ⟨d, hd, hn⟩))
            rw [flawsAmong, ih d hd clean, rest fun e he => all e (List.mem_cons_of_mem _ he)]
            exact ite_self []
      rw [Node.flawsWithin, root, children cs fun _ hd => hd]
      rfl

/-- **A tree without flaws is accepted.** -/
theorem Clean.ensureClean {t : Node} (h : t.Clean) (source : Bytes) :
    t.ensureClean source = .ok () := by
  have none_found : t.flaws = [] := by
    rw [flaws, h.flawsWithin]
    exact ite_self []
  rw [Node.ensureClean, none_found]

/-! ## Bytes that mark nodes -/

/-- **A byte marks nodes**, each by the start of a child that is not empty, and below that child
there is no node with the same mark. -/
structure Marks (mark : Node → Option Nat) (t : Node) : Prop where
  /-- The mark of a node is the start of a child. -/
  child : ∀ n ∈ t.nodes, ∀ a, mark n = some a →
    ∃ c ∈ n.children, c.start = a ∧ c.start < c.stop ∧ ∀ m ∈ c.nodes, mark m ≠ some a

/-- **A mark lies within its node.** -/
theorem Marks.within {mark : Node → Option Nat} {t : Node} (marks : Marks mark t)
    (h : t.Ordered) {n : Node} (mem : n ∈ t.nodes) {a : Nat} (marked : mark n = some a) :
    t.start ≤ a ∧ a < t.stop := by
  obtain ⟨c, child, rfl, nonempty, -⟩ := marks.child n mem a marked
  have := h.within (mem_nodes_of_child child mem)
  omega

/-- **No two nodes of a tree have the same mark.** -/
theorem Marks.apart {mark : Node → Option Nat} {t : Node} (marks : Marks mark t)
    (h : t.Ordered) : t.nodes.Pairwise fun m n => ∀ a, mark m = some a → mark n ≠ some a := by
  induction t with
  | mk l cs ih =>
      have root := h _ (mem_nodes_self _)
      have below {c : Node} (hc : c ∈ cs) : Marks mark c :=
        ⟨fun n hn => marks.child n (mem_nodes.2 (.inr ⟨c, hc, hn⟩))⟩
      rw [nodes, nodesOfAll_eq, List.pairwise_cons, List.pairwise_flatMap]
      refine ⟨fun n mem a marked same => ?_, fun c hc => ih c hc (below hc) (h.child hc), ?_⟩
      · -- The mark of the root stands in a child, and no node of that child has it.
        obtain ⟨c, hc, hn⟩ := List.mem_flatMap.1 mem
        obtain ⟨d, hd, rfl, nonempty, unmarked⟩ := marks.child _ (mem_nodes_self _) a marked
        have inside := (below hc).within (h.child hc) hn same
        by_cases eq : c = d
        · exact unmarked n (eq ▸ hn) same
        · have := root.disjoint hc hd eq
          omega
      · refine root.apart.imp_of_mem fun hc hd apart m hm n hn a marked same => ?_
        have := (below hc).within (h.child hc) hm marked
        have := (below hd).within (h.child hd) hn same
        omega

end Node

end Seams
