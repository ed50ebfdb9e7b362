import Mathlib.Tactic.Common
import Seams.Proofs.Proposals

/-! # Nodes found again by their ranges
A place that a query finds is a range, and the node of the range is looked for from the root. In a
tree whose ranges are nested the way down meets all nodes above a node that is not empty, and comes
to the node unless a child of it has the same range.
Main definitions:
* **`Node.descendants`** — the nodes below a node;
* **`Node.Alone`** — no child of a node has the range of the node. -/

namespace Seams

namespace Node

/-! ## The nodes below a node -/

/-- **The nodes below a node.** -/
def descendants (n : Node) : List Node := nodesOfAll n.children

/-- **A node is below another** if it is a node of one of its children. -/
theorem mem_descendants {m n : Node} : m ∈ n.descendants ↔ ∃ c ∈ n.children, m ∈ c.nodes := by
  rw [descendants, nodesOfAll_eq, List.mem_flatMap]

/-- **A node of a tree is the root or below it.** -/
theorem mem_nodes_iff {m n : Node} : m ∈ n.nodes ↔ m = n ∨ m ∈ n.descendants := by
  obtain ⟨l, cs⟩ := n
  rw [mem_nodes, mem_descendants]
  rfl

/-- **A node of a tree is not larger than the tree**, and one below the root is smaller. -/
theorem sizeOf_le {m t : Node} (mem : m ∈ t.nodes) : sizeOf m ≤ sizeOf t := by
  induction t with
  | mk l cs ih =>
      rcases mem_nodes.1 mem with rfl | ⟨c, hc, below⟩
      · exact Nat.le_refl _
      · have := ih c hc below
        have := List.sizeOf_lt_of_mem hc
        rw [mk.sizeOf_spec]
        omega

theorem sizeOf_lt {m n : Node} (below : m ∈ n.descendants) : sizeOf m < sizeOf n := by
  obtain ⟨l, cs⟩ := n
  obtain ⟨c, hc, mem⟩ := mem_descendants.1 below
  rw [children_mk] at hc
  have := sizeOf_le mem
  have := List.sizeOf_lt_of_mem hc
  rw [mk.sizeOf_spec]
  omega

/-! ## The way down to a range -/

variable {lo hi : Nat} {c n t : Node}

/-- **The way down goes into the child that contains the range**, as the siblings in front of it end
before the range does. -/
theorem descendAmong_of_mem {cs : List Node} (apart : cs.Pairwise fun a b => a.stop ≤ b.start)
    (child : c ∈ cs) (start : c.start ≤ lo) (stop : hi ≤ c.stop) (nonempty : lo < hi)
    (above : List Node) : descendAmong lo hi above cs = c.descend lo hi above := by
  induction cs with
  | nil => exact absurd child List.not_mem_nil
  | cons d ds ih =>
      rw [List.pairwise_cons] at apart
      rw [descendAmong]
      by_cases here : c = d
      · have reaches : d.reaches lo hi = true := by
          rw [reaches, Bool.and_eq_true, decide_eq_true_eq, ← here]
          refine ⟨stop, ?_⟩
          split
          · rw [decide_eq_true_eq]
            omega
          · rw [decide_eq_true_eq]
            omega
        rw [if_pos reaches, ← here, if_neg (by omega)]
      · have later : c ∈ ds := (List.mem_cons.1 child).resolve_left here
        have before := apart.1 c later
        have passed : d.reaches lo hi = false := by
          rw [reaches, Bool.and_eq_false_iff, decide_eq_false_iff_not]
          exact .inl (by omega)
        rw [passed, if_neg Bool.false_ne_true]
        exact ih apart.2 later

/-- **The way down to a node comes to it** and meets all nodes above it, and no other ones. -/
theorem Ordered.descend_eq (ordered : t.Ordered) (mem : n ∈ t.nodes) (nonempty : n.start < n.stop)
    (above : List Node) :
    ∃ between, t.descend n.start n.stop above = n.descend n.start n.stop (between ++ above)
      ∧ ∀ m, m ∈ between ↔ m ∈ t.nodes ∧ n ∈ m.descendants := by
  induction t generalizing above with
  | mk l cs ih =>
      rcases mem_nodes.1 mem with rfl | ⟨c, hc, below⟩
      · -- The root is not below any node of its tree.
        refine ⟨[], rfl, fun m => ⟨fun none_there => absurd none_there List.not_mem_nil, ?_⟩⟩
        rintro ⟨hm, below⟩
        have := sizeOf_le hm
        have := sizeOf_lt below
        omega
      · have root := ordered _ (mem_nodes_self _)
        have within := (ordered.child hc).within below
        obtain ⟨between, way, met⟩ := ih c hc (ordered.child hc) below (mk l cs :: above)
        refine ⟨between ++ [mk l cs], ?_, fun m => ?_⟩
        · have apart : cs.Pairwise fun a b => a.stop ≤ b.start := root.apart
          rw [descend, descendAmong_of_mem apart hc within.1 within.2.2 nonempty, way,
            List.append_assoc, List.singleton_append]
        · rw [List.mem_append, List.mem_singleton, met]
          constructor
          · rintro (⟨hm, inside⟩ | rfl)
            · exact ⟨mem_nodes.2 (.inr ⟨c, hc, hm⟩), inside⟩
            · exact ⟨mem_nodes_self _, mem_descendants.2 ⟨c, hc, below⟩⟩
          · rintro ⟨hm, inside⟩
            rcases mem_nodes.1 hm with rfl | ⟨d, hd, hm⟩
            · exact .inr rfl
            · refine .inl ⟨?_, inside⟩
              -- A node with the range below it is in the same child, as others are apart.
              by_cases same : c = d
              · rwa [same]
              · have hn : n ∈ d.nodes := mem_nodes_trans (mem_nodes_iff.2 (.inr inside)) hm
                have := (ordered.child hd).within hn
                have := root.disjoint hc hd same
                omega

/-- **No child of a node has the range of the node.** -/
def Alone (n : Node) : Prop := ∀ c ∈ n.children, ¬ (c.start = n.start ∧ c.stop = n.stop)

instance (n : Node) : Decidable n.Alone :=
  inferInstanceAs (Decidable (∀ c ∈ n.children, ¬ (c.start = n.start ∧ c.stop = n.stop)))

/-- **A leaf has no child with its range.** -/
theorem Alone.of_leaf (leaf : n.children = []) : n.Alone := by
  intro c child
  rw [leaf] at child
  exact absurd child List.not_mem_nil

/-- **The way down to the range of a node ends at the node**, if no child has the range. -/
theorem Alone.descend_eq (alone : n.Alone) (nested : n.Nested) (above : List Node) :
    n.descend n.start n.stop above = n :: above := by
  obtain ⟨l, cs⟩ := n
  rw [descend]
  have within : ∀ c ∈ cs, l.start ≤ c.start ∧ c.stop ≤ l.stop := nested.within
  have apart : ∀ c ∈ cs, ¬ (c.start = l.start ∧ c.stop = l.stop) := alone
  show descendAmong l.start l.stop (mk l cs :: above) cs = _
  clear nested alone
  generalize mk l cs :: above = path
  induction cs with
  | nil => rfl
  | cons d ds ih =>
      rw [descendAmong]
      split
      · -- The first child that reaches over the range begins behind its start.
        rename_i reaches
        rw [Node.reaches, Bool.and_eq_true, decide_eq_true_eq] at reaches
        have inside := within d List.mem_cons_self
        have other := apart d List.mem_cons_self
        exact if_pos (by omega)
      · exact ih (fun c hc => within c (List.mem_cons_of_mem _ hc))
          fun c hc => apart c (List.mem_cons_of_mem _ hc)

end Node

/-! ## Nodes of scripts -/

namespace Script

variable {source : Bytes} {tree n : Node}

/-- **A node is found again by its range**, and with it the nodes above it. -/
theorem nodePath?_of_mem (ordered : tree.Ordered) (mem : n ∈ tree.nodes)
    (nonempty : n.start < n.stop) (alone : n.Alone) :
    ∃ above, (withTree source tree).nodePath? n.start n.stop = some (n :: above)
      ∧ ∀ m, m ∈ above ↔ m ∈ tree.nodes ∧ n ∈ m.descendants := by
  obtain ⟨above, way, met⟩ := ordered.descend_eq mem nonempty []
  refine ⟨above, ?_, met⟩
  rw [List.append_nil, alone.descend_eq (ordered n mem)] at way
  have path : (withTree source tree).tree.pathTo n.start n.stop = n :: above := way
  rw [nodePath?, path]
  exact if_pos ⟨rfl, rfl⟩

/-- **A node is the node of its range.** -/
theorem nodeAt?_of_mem (ordered : tree.Ordered) (mem : n ∈ tree.nodes)
    (nonempty : n.start < n.stop) (alone : n.Alone) :
    (withTree source tree).nodeAt? n.start n.stop = some n := by
  obtain ⟨above, path, -⟩ := nodePath?_of_mem ordered mem nonempty alone
  rw [nodeAt?, path]
  rfl

end Script

end Seams
