/-! # Syntax trees
A lossless tree over a source: every leaf is a token with the byte range it covers, and what no
leaf covers is white space. A tree is a plain value; nothing here asks that its ranges be ordered,
nested or inside the source, so results about trees can say which of these they need.
Main definitions:
* **`Node`** — a node with a label and its children in document order;
* **`Node.leaves`** — the leaves in document order, each with the kind of its parent;
* **`Node.byField?`** — the child that plays a given role in its parent. -/

namespace Seams

/-- What is known of a node apart from its children. -/
structure Label where
  /-- The rule or the token that the node stands for. -/
  kind : String
  /-- Whether the kind is the name of a rule, and not the text of a keyword or an operator. -/
  named : Bool
  /-- The role of the node in its parent, empty if it has none. -/
  field : String := ""
  /-- The first byte of the node. -/
  start : Nat
  /-- The first byte after the node. -/
  stop : Nat
  /-- Whether the node stands for a token that the source lacks. -/
  missing : Bool := false
  /-- Whether the node or one below it is an error or a missing token. -/
  faulty : Bool := false
  deriving DecidableEq, Repr

/-- A syntax tree. -/
inductive Node where
  | mk (label : Label) (children : List Node)
  deriving Repr

namespace Node

/-- The label of the root. -/
def label : Node → Label
  | mk l _ => l

/-- The trees below the root. -/
def children : Node → List Node
  | mk _ cs => cs

@[simp] theorem label_mk (l : Label) (cs : List Node) : (mk l cs).label = l := rfl

@[simp] theorem children_mk (l : Label) (cs : List Node) : (mk l cs).children = cs := rfl

/-- The kind of the root. -/
def kind (n : Node) : String := n.label.kind

/-- The first byte of the root. -/
def start (n : Node) : Nat := n.label.start

/-- The first byte after the root. -/
def stop (n : Node) : Nat := n.label.stop

/-- A node without children. -/
def leaf (kind : String) (named : Bool) (start stop : Nat) : Node :=
  mk ⟨kind, named, "", start, stop, false, false⟩ []

/-- The node in the role `field`. -/
def withField (n : Node) (field : String) : Node :=
  match n with
  | mk l cs => mk { l with field := field } cs

/-- The kind of the nodes that stand for source text which fits no rule. -/
def errorKind : String := "ERROR"

/-- Whether the node itself is an error or a missing token. -/
def isFault (n : Node) : Bool := n.kind == errorKind || n.label.missing

/-- A node over its children, faulty if it is an error or a child is faulty. -/
def branch (kind : String) (start stop : Nat) (children : List Node) : Node :=
  mk ⟨kind, true, "", start, stop, false,
    kind == errorKind || children.any (fun c => c.label.faulty)⟩ children

/-- A token that the source lacks at `place`. -/
def missing (kind : String) (place : Nat) : Node :=
  mk ⟨kind, false, "", place, place, true, true⟩ []

/-- A node of the given kind over a row of nodes, from where the first starts to where the last
ends. -/
def covering (kind : String) (nodes : List Node) : Node :=
  let start := match nodes.head? with
    | some n => n.start
    | none => 0
  let stop := match nodes.getLast? with
    | some n => n.stop
    | none => 0
  branch kind start stop nodes

/-- The first child in the role `field`. -/
def byField? (n : Node) (field : String) : Option Node :=
  n.children.find? (fun c => c.label.field == field)

/-! ## Leaves -/

mutual

/-- The leaves below a node of kind `parent`, in document order and each with the kind of its
parent. -/
def leavesUnder (parent : Option String) : Node → List (Label × Option String)
  | mk l [] => [(l, parent)]
  | mk l (c :: cs) => leavesOfAll (some l.kind) (c :: cs)

/-- The leaves of a list of siblings below a node of kind `parent`. -/
def leavesOfAll (parent : Option String) : List Node → List (Label × Option String)
  | [] => []
  | c :: cs => leavesUnder parent c ++ leavesOfAll parent cs

end

/-- The leaves in document order, each with the kind of its parent; a root that is itself a leaf
has none. -/
def leaves (n : Node) : List (Label × Option String) := leavesUnder none n

end Node

end Seams
