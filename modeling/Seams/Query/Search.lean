import Seams.Grammar.Node
import Seams.Query.Pattern

/-! # Searching trees
Main definitions:
* **`Pattern.match?`** — what a pattern keeps of a node that fits it;
* **`Query.findAll`** — all places of a tree that fit a query, in order of their ranges. -/

namespace Seams

/-- What is kept of the first child of which anything is kept, and the children behind it. -/
def Pattern.firstMatch? (keep : Node → Option (List (String × Label))) :
    List Node → Option (List (String × Label) × List Node)
  | [] => none
  | c :: cs =>
    match keep c with
    | some kept => some (kept, cs)
    | none => firstMatch? keep cs

mutual

/-- What is kept of a node that fits the pattern, the parts before the whole. A role is asked of
the node only where the pattern gives one. -/
def Pattern.match? : Pattern → Node → Option (List (String × Label))
  | .mk kind role parts names, n =>
    if n.label.named && (kind == "_" || n.kind == kind)
        && role.all (· == n.label.field) then
      (Pattern.matchParts? parts n.children).map fun kept =>
        kept ++ names.map fun name => (name, n.label)
    else none

/-- What is kept of children that fit the parts: for each part in turn the first child behind the
one before that fits it. -/
def Pattern.matchParts? : List Pattern → List Node → Option (List (String × Label))
  | [], _ => some []
  | p :: ps, children =>
    match Pattern.firstMatch? (Pattern.match? p) children with
    | none => none
    | some (kept, later) => (Pattern.matchParts? ps later).map (kept ++ ·)

end

/-- A place that fits a query: the range over what is kept, and what is kept under each name. -/
structure Match where
  /-- The first byte of what is kept. -/
  start : Nat
  /-- The first byte after it. -/
  stop : Nat
  /-- What is kept under which name. -/
  kept : List (String × Label)

/-- Why a query has no answer. -/
inductive QueryError where
  /-- The text is no query. -/
  | invalid
  /-- Nothing is kept under the name. -/
  | captureNotFound (name : String)
  deriving DecidableEq

/-- What is told to the user. -/
def QueryError.message : QueryError → String
  | invalid => "invalid query"
  | captureNotFound name => s!"capture '{name}' not found in query matches"

namespace Match

/-- The place over what is kept, if anything is. -/
def of? (kept : List (String × Label)) : Option Match :=
  match kept with
  | [] => none
  | (_, l) :: rest =>
    some ⟨rest.foldl (fun a x => min a x.2.start) l.start,
      rest.foldl (fun a x => max a x.2.stop) l.stop, kept⟩

/-- What is kept under a name, the last if there are several. -/
def capture (m : Match) (name : String) : Except QueryError Label :=
  match m.kept.reverse.lookup name with
  | some l => .ok l
  | none => .error (.captureNotFound name)

/-- The order of places: by the start of their ranges, then by the end. -/
def le (a b : Match) : Bool := a.start < b.start || (a.start == b.start && a.stop ≤ b.stop)

/-- Put a place in front of the first one that it need not follow. -/
def place (m : Match) : List Match → List Match
  | [] => [m]
  | n :: ns => if m.le n then m :: n :: ns else n :: place m ns

/-- Places in order. Those over the same range stay as they stand. A tree is searched nearly in this
order, so there is little to do for each of them. -/
def sort (ms : List Match) : List Match := ms.foldr place []

end Match

namespace Node

mutual

/-- The nodes of a tree, a node before what is below it. -/
def nodes : Node → List Node
  | mk l cs => mk l cs :: nodesOfAll cs

/-- The nodes of a list of siblings. -/
def nodesOfAll : List Node → List Node
  | [] => []
  | c :: cs => nodes c ++ nodesOfAll cs

end

end Node

namespace Query

/-- All places of a tree that fit the query, in order of their ranges. -/
def findAll (q : Query) (tree : Node) : List Match :=
  let found := tree.nodes.flatMap fun n =>
    q.patterns.filterMap fun p => (p.match? n).bind Match.of?
  Match.sort found

end Query

end Seams
