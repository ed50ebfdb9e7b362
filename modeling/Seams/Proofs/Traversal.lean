import Mathlib.Data.List.Basic
import Mathlib.Tactic.Common
import Seams.Proofs.Trees

/-! # The walk of a cursor, move by move
A cursor that can only move to the first child, to the next sibling and to the parent meets the
leaves of a tree in document order: it goes down as long as it can, notes a leaf, and goes on to the
next sibling of the leaf or of the nearest node above that has one. What stands above a leaf it
knows from a stack, on which it puts a kind with each move down and from which it takes one with
each move up.
Main definitions:
* **`Tour`** — a cursor on its way, with its stack and the leaves that it has noted;
* **`Tour.step?`** — its next move;
* **`Tour.Moves`** — a number of moves, one after the other;
* **`Tour.Aligned`** — the stack holds the kinds of the nodes above;
* **`Tour.ahead`** — what `Cursor.walk` still meets from where a tour stands;
* **`Tour.Complete`** — what a tour of a tree comes to. -/

namespace Seams

/-- **The leaves of a tree are its nodes without children**, each as often as it is there, and in
document order. -/
theorem Node.map_fst_leavesUnder (n : Node) (parent : Option String) :
    (n.leavesUnder parent).map Prod.fst
      = (n.nodes.filter fun m => m.children.isEmpty).map Node.label := by
  induction n generalizing parent with
  | mk l cs ih =>
      cases cs with
      | nil => rfl
      | cons d ds =>
          rw [leavesUnder, leavesOfAll_eq, nodes, nodesOfAll_eq, List.filter_cons_of_neg (by simp),
            List.map_flatMap, List.filter_flatMap, List.map_flatMap]
          exact List.flatMap_congr fun c hc => ih c hc _

/-- **A cursor on its way through a tree.** -/
structure Tour where
  /-- Where the cursor stands. -/
  cursor : Cursor
  /-- The stack of kinds, the last one on top. -/
  kinds : List String
  /-- The leaves that were noted, each with the kind that was on top of the stack. -/
  met : List (Label × Option String)
  /-- Whether the cursor is done with the node at which it stands. -/
  leaving : Bool

namespace Tour

/-- **A tour begins at the root**, with nothing on the stack and nothing noted. -/
def start (n : Node) : Tour := ⟨.ofRoot n, [], [], false⟩

/-- **The next move.** From a node that is done it is to the next sibling, else to the parent, which
is done then; at the root the tour is over. From any other node it is to the first child; a node
without children is noted, and is done. -/
def step? (t : Tour) : Option Tour :=
  if t.leaving then
    match t.cursor.nextSibling? with
    | some d => some ⟨d, t.kinds, t.met, false⟩
    | none => t.cursor.parent?.map fun p => ⟨p, t.kinds.tail, t.met, true⟩
  else
    match t.cursor.firstChild? with
    | some d => some ⟨d, t.cursor.focus.kind :: t.kinds, t.met, false⟩
    | none => some ⟨t.cursor, t.kinds, t.met ++ [(t.cursor.focus.label, t.kinds.head?)], true⟩

/-- **A number of moves**, one after the other. -/
inductive Moves : Nat → Tour → Tour → Prop
  /-- No move at all. -/
  | stay (t : Tour) : Moves 0 t t
  /-- A move before others. -/
  | move {k : Nat} {s t u : Tour} (first : s.step? = some t) (later : Moves k t u) :
    Moves (k + 1) s u

namespace Moves

/-- **Moves after moves are moves.** -/
theorem trans {j k : Nat} {s t u : Tour} (h : Moves j s t) (h' : Moves k t u) :
    Moves (j + k) s u := by
  induction h with
  | stay t => rwa [Nat.zero_add]
  | move first _ ih =>
      rw [Nat.add_right_comm]
      exact .move first (ih h')

/-- **A single move.** -/
theorem single {s t : Tour} (h : s.step? = some t) : Moves 1 s t := .move h (.stay t)

/-- **No way is longer than one that ends**, since there is never a choice. -/
theorem le_of_end {j k : Nat} {s t u : Tour} (h : Moves k s t) (h' : Moves j s u)
    (ended : u.step? = none) : k ≤ j := by
  induction h generalizing j with
  | stay => exact Nat.zero_le _
  | move first _ ih =>
      cases h' with
      | stay =>
          rw [ended] at first
          cases first
      | move first' later' =>
          obtain rfl := Option.some.inj (first.symm.trans first')
          exact Nat.succ_le_succ (ih later')

end Moves

/-! ## The stack -/

/-- **The stack holds the kinds of the nodes above**, the nearest on top. -/
def Aligned (t : Tour) : Prop := t.kinds = t.cursor.above.map fun p => p.1.kind

/-- **At the root nothing is above**, and nothing on the stack. -/
theorem aligned_start (n : Node) : (start n).Aligned := rfl

/-- **A move keeps the stack in line with the nodes above.** -/
theorem Aligned.step {s t : Tour} (h : s.Aligned) (step : s.step? = some t) : t.Aligned := by
  obtain ⟨⟨focus, later, above⟩, kinds, met, leaving⟩ := s
  obtain rfl : kinds = above.map fun p => p.1.kind := h
  cases leaving with
  | true =>
      cases later with
      | cons d ds =>
          cases step
          rfl
      | nil =>
          cases above with
          | nil => cases step
          | cons p above =>
              cases step
              rfl
  | false =>
      obtain ⟨l, cs⟩ := focus
      cases cs with
      | nil =>
          cases step
          rfl
      | cons d ds =>
          cases step
          rfl

/-- **The stack is in line with the nodes above** all the way. -/
theorem Aligned.moves {k : Nat} {s t : Tour} (h : s.Aligned) (moves : Moves k s t) :
    t.Aligned := by
  induction moves with
  | stay => exact h
  | move first _ ih => exact ih (h.step first)

/-! ## The walk -/

/-- **What a walk still meets** from where the tour stands. -/
def ahead (t : Tour) : List (Label × Option String) :=
  if t.leaving then
    match Cursor.climb? t.cursor.later t.cursor.above t.kinds with
    | some (d, kinds) => d.walk kinds
    | none => []
  else t.cursor.walk t.kinds

/-- **At a leaf the walk meets the leaf**, and then what is ahead of a tour that is done with it. -/
theorem walk_leaf (l : Label) (later : List Node) (above : List (Node × List Node))
    (kinds : List String) (met : List (Label × Option String)) :
    Cursor.walk ⟨.mk l [], later, above⟩ kinds
      = (l, kinds.head?) :: ahead ⟨⟨.mk l [], later, above⟩, kinds, met, true⟩ := by
  rw [Cursor.walk, ahead]
  simp only [Cursor.firstChild?, Node.children_mk, if_true]
  split
  case h_1 next =>
    rw [next]
    rfl
  case h_2 ended =>
    rw [ended]
    rfl

/-- **A move notes what the walk meets next**, or takes the walk nowhere else. -/
theorem met_ahead_step {s t : Tour} (step : s.step? = some t) :
    t.met ++ t.ahead = s.met ++ s.ahead := by
  obtain ⟨⟨⟨l, cs⟩, later, above⟩, kinds, met, leaving⟩ := s
  cases leaving with
  | true =>
      cases later with
      | cons d ds =>
          cases step
          simp [ahead, Cursor.climb?]
      | nil =>
          cases above with
          | nil => cases step
          | cons p above =>
              cases step
              simp [ahead, Cursor.climb?]
  | false =>
      cases cs with
      | nil =>
          cases step
          rw [List.append_assoc]
          exact congrArg (met ++ ·) (walk_leaf l later above kinds _).symm
      | cons d ds =>
          cases step
          show met ++ _ = met ++ Cursor.walk _ kinds
          rw [Cursor.walk]
          rfl

/-- **What has been noted and what the walk still meets** are the same together all the way. -/
theorem Moves.met_ahead {k : Nat} {s t : Tour} (h : Moves k s t) :
    t.met ++ t.ahead = s.met ++ s.ahead := by
  induction h with
  | stay => rfl
  | move first _ ih => exact ih.trans (met_ahead_step first)

/-! ## The way through a tree -/

/-- **The way through a row of siblings**, given the way through each of them: from the first one, at
which the cursor has just arrived, to where it is done with the last one. -/
theorem moves_through_row (d : Node) (ds : List Node) (above : List (Node × List Node))
    (kinds : List String)
    (each : ∀ c ∈ d :: ds, ∀ later met, Moves (2 * c.count - 1)
      ⟨⟨c, later, above⟩, kinds, met, false⟩
      ⟨⟨c, later, above⟩, kinds, met ++ c.leavesUnder kinds.head?, true⟩)
    (met : List (Label × Option String)) :
    ∃ last, Moves (2 * countAll (d :: ds) - 1)
      ⟨⟨d, ds, above⟩, kinds, met, false⟩
      ⟨⟨last, [], above⟩, kinds, met ++ Node.leavesOfAll kinds.head? (d :: ds), true⟩ := by
  have through := each d List.mem_cons_self ds met
  have positive := d.count_pos
  induction ds generalizing d met with
  | nil =>
      refine ⟨d, ?_⟩
      simpa [countAll, Node.leavesOfAll] using through
  | cons e es ih =>
      have each' : ∀ c ∈ e :: es, _ := fun c hc => each c (List.mem_cons_of_mem _ hc)
      obtain ⟨last, rest⟩ := ih e each' (met ++ d.leavesUnder kinds.head?)
        (each' e List.mem_cons_self es _) e.count_pos
      have across : Moves 1
          ⟨⟨d, e :: es, above⟩, kinds, met ++ d.leavesUnder kinds.head?, true⟩
          ⟨⟨e, es, above⟩, kinds, met ++ d.leavesUnder kinds.head?, false⟩ := .single rfl
      have all := (through.trans across).trans rest
      have length : 2 * d.count - 1 + 1 + (2 * countAll (e :: es) - 1)
          = 2 * countAll (d :: e :: es) - 1 := by
        have := e.count_pos
        simp only [countAll]
        omega
      rw [length, List.append_assoc] at all
      exact ⟨last, all⟩

/-- **The way through a tree**: from its root, at which the cursor has just arrived, to where it is
done with it. It notes the leaves of the tree, and nothing else has changed. -/
theorem moves_through (n : Node) (later : List Node) (above : List (Node × List Node))
    (kinds : List String) (met : List (Label × Option String)) :
    Moves (2 * n.count - 1)
      ⟨⟨n, later, above⟩, kinds, met, false⟩
      ⟨⟨n, later, above⟩, kinds, met ++ n.leavesUnder kinds.head?, true⟩ := by
  induction n generalizing later above kinds met with
  | mk l cs ih =>
      cases cs with
      | nil => exact .single rfl
      | cons d ds =>
          have down : Moves 1
              ⟨⟨.mk l (d :: ds), later, above⟩, kinds, met, false⟩
              ⟨⟨d, ds, (.mk l (d :: ds), later) :: above⟩, l.kind :: kinds, met, false⟩ :=
            .single rfl
          obtain ⟨last, row⟩ := moves_through_row d ds
            ((.mk l (d :: ds), later) :: above) (l.kind :: kinds)
            (fun c hc later met => ih c hc later _ _ met) met
          have up : Moves 1
              ⟨⟨last, [], (.mk l (d :: ds), later) :: above⟩, l.kind :: kinds,
                met ++ Node.leavesOfAll (some l.kind) (d :: ds), true⟩
              ⟨⟨.mk l (d :: ds), later, above⟩, kinds,
                met ++ Node.leavesOfAll (some l.kind) (d :: ds), true⟩ := .single rfl
          have all := (down.trans row).trans up
          have length : 1 + (2 * countAll (d :: ds) - 1) + 1
              = 2 * (Node.mk l (d :: ds)).count - 1 := by
            have := d.count_pos
            simp only [Node.count, countAll]
            omega
          rw [length] at all
          exact all

/-- **A tour of a tree is complete**: it ends, and it meets each leaf once and in document order, below
the kind of the parent that the leaf has in the tree. -/
structure Complete (tree : Node) : Prop where
  /-- It ends, one move before twice the number of nodes, and has noted the leaves then. -/
  ends : ∃ t, Moves (2 * tree.count - 1) (start tree) t ∧ t.step? = none ∧ t.met = tree.leaves
  /-- It does not go on for longer. -/
  short : ∀ k t, Moves k (start tree) t → k ≤ 2 * tree.count - 1
  /-- The stack is in line with the nodes above all the way. -/
  aligned : ∀ k t, Moves k (start tree) t → t.Aligned
  /-- The leaves are the nodes without children, each as often as it is there. -/
  each : tree.leaves.map Prod.fst = (tree.nodes.filter fun n => n.children.isEmpty).map Node.label
  /-- A leaf is the root, without a parent, or a child of a node of the kind that is noted. -/
  parent : ∀ l kind, (l, kind) ∈ tree.leaves ↔ (tree = .mk l [] ∧ kind = none)
    ∨ ∃ n ∈ tree.nodes, .mk l [] ∈ n.children ∧ kind = some n.kind
  /-- What the tour has noted and what `Cursor.walk` still meets are the walk from the root, all the
  way. -/
  along : ∀ k t, Moves k (start tree) t → t.met ++ t.ahead = tree.walk
  /-- So the walk meets what the tour notes. -/
  walk : tree.walk = tree.leaves

/-- **Each tour is complete.** -/
theorem complete (tree : Node) : Complete tree :=
  have way := moves_through tree [] [] [] []
  { ends := ⟨_, way, rfl, rfl⟩
    short := fun _ _ moves => moves.le_of_end way rfl
    aligned := fun _ _ moves => (aligned_start tree).moves moves
    each := tree.map_fst_leavesUnder none
    parent := fun _ _ => Node.mem_leavesUnder_iff
    along := fun _ _ moves => moves.met_ahead
    walk := tree.walk_eq_leaves }

end Tour

end Seams
