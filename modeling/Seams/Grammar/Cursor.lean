import Seams.Grammar.Node

/-! # Walking a tree
A cursor stands at a node of a tree and moves to its first child, its next sibling or its parent.
Moving to the first child where there is one, else to the next sibling, else up until there is a
sibling, it meets the leaves one after the other.
Main definitions:
* **`Cursor`** — a node in its tree;
* **`Cursor.walk`** — the leaves that a cursor meets, each with the kind that is on top of a stack
  of kinds, pushed on the way down and popped on the way up;
* **`Node.walk`** — the walk from the root. -/

namespace Seams

mutual

/-- The number of nodes of a tree. -/
def Node.count : Node → Nat
  | .mk _ cs => 1 + countAll cs

/-- The number of nodes of several trees. -/
def countAll : List Node → Nat
  | [] => 0
  | c :: cs => c.count + countAll cs

end

theorem Node.count_pos (n : Node) : 0 < n.count := by
  cases n
  rw [Node.count]
  omega

/-- A node in its tree. -/
structure Cursor where
  /-- The node at which the cursor stands. -/
  focus : Node
  /-- The later siblings of that node. -/
  later : List Node
  /-- The nodes above, the nearest first, each with its own later siblings. -/
  above : List (Node × List Node)

namespace Cursor

/-- The cursor at the root of a tree. -/
def ofRoot (n : Node) : Cursor := ⟨n, [], []⟩

/-- Move to the first child. -/
def firstChild? (c : Cursor) : Option Cursor :=
  match c.focus.children with
  | [] => none
  | d :: ds => some ⟨d, ds, (c.focus, c.later) :: c.above⟩

/-- Move to the next sibling. -/
def nextSibling? (c : Cursor) : Option Cursor :=
  match c.later with
  | [] => none
  | d :: ds => some ⟨d, ds, c.above⟩

/-- Move to the parent. -/
def parent? (c : Cursor) : Option Cursor :=
  match c.above with
  | [] => none
  | (p, later) :: rest => some ⟨p, later, rest⟩

/-- Move to the next sibling of the focus or of the nearest node above that has one, and pop a kind
for each move up. -/
def climb? (later : List Node) (above : List (Node × List Node)) (kinds : List String) :
    Option (Cursor × List String) :=
  match later, above with
  | d :: ds, above => some (⟨d, ds, above⟩, kinds)
  | [], (_, later) :: above => climb? later above kinds.tail
  | [], [] => none

/-- The number of nodes to the right of the path from the root to the focus. -/
def pendingAbove : List (Node × List Node) → Nat
  | [] => 0
  | (_, later) :: above => countAll later + pendingAbove above

/-- The number of nodes that the walk has still to meet. -/
def pending (c : Cursor) : Nat := c.focus.count + countAll c.later + pendingAbove c.above

theorem pending_climb? {later : List Node} {above : List (Node × List Node)} {kinds : List String}
    {c : Cursor} {ks : List String} (h : climb? later above kinds = some (c, ks)) :
    c.pending = countAll later + pendingAbove above := by
  induction later, above, kinds using climb?.induct with
  | case1 kinds d ds above =>
    simp only [climb?, Option.some.injEq, Prod.mk.injEq] at h
    obtain ⟨rfl, rfl⟩ := h
    simp [pending, countAll]
  | case2 kinds p later above ih =>
    simp only [climb?] at h
    rw [ih h]
    simp [pendingAbove, countAll]
  | case3 kinds => simp [climb?] at h

/-- The leaves from the focus on, each with the kind on top of the stack. -/
def walk (c : Cursor) (kinds : List String) : List (Label × Option String) :=
  match _h : c.firstChild? with
  | some d => walk d (c.focus.kind :: kinds)
  | none =>
    (c.focus.label, kinds.head?) ::
      match _h : climb? c.later c.above kinds with
      | some (d, ks) => walk d ks
      | none => []
termination_by c.pending
decreasing_by
  · obtain ⟨⟨l, cs⟩, later, above⟩ := c
    cases cs with
    | nil => simp [firstChild?] at _h
    | cons e es =>
      simp only [firstChild?, Node.children_mk, Option.some.injEq] at _h
      subst _h
      simp only [pending, pendingAbove, Node.count, countAll]
      omega
  · rw [pending_climb? _h, pending]
    have := c.focus.count_pos
    omega

end Cursor

/-- The leaves of a tree in the order in which a cursor meets them, each with the kind of its
parent. -/
def Node.walk (n : Node) : List (Label × Option String) := (Cursor.ofRoot n).walk []

end Seams
