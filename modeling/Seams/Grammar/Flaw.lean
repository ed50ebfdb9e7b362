import Seams.Text.Bytes
import Seams.Grammar.Cursor

/-! # Flaws of a tree
A flaw is an error node or a missing token. Whether a tree has any is told by its label, so clean
subtrees need not be searched.
Main definitions:
* **`Node.flawsWithin`** — the flaws of a tree, passing clean children by;
* **`Node.allFlaws`** — the flaws of a tree, wherever they are;
* **`Node.ensureClean`** — the first flaw of a tree as an error, if there is one. -/

namespace Seams

/-! ## Places in a source -/

/-- A line and a column, counted from zero, the column in bytes. -/
structure Place where
  /-- The number of line feeds in front. -/
  row : Nat
  /-- The number of bytes since the last of them. -/
  column : Nat
  deriving DecidableEq, Repr

/-- The place after the bytes from `i` on, of which there are `count`, from a given place. -/
def Place.advance (source : Bytes) (p : Place) (i : Nat) : Nat → Place
  | 0 => p
  | count + 1 =>
    advance source (if source.byteAt i == 10 then ⟨p.row + 1, 0⟩ else ⟨p.row, p.column + 1⟩)
      (i + 1) count

/-- The place of a byte. -/
def Place.ofByte (source : Bytes) (byte : Nat) : Place := advance source ⟨0, 0⟩ 0 byte

/-! ## Flaws -/

/-- An error node or a missing token. -/
structure Flaw where
  /-- Its first byte. -/
  start : Nat
  /-- The first byte after it. -/
  stop : Nat
  deriving DecidableEq, Repr

namespace Node

/-- Whether the tree is said to have a flaw. -/
def hasFlaw (n : Node) : Bool := n.label.faulty

/-- The flaw that a label stands for. -/
def flawOf (l : Label) : List Flaw :=
  if l.kind == errorKind || l.missing then [⟨l.start, l.stop⟩] else []

mutual

/-- The flaws of a tree in document order, a node before what is below it. Children that are said
to be clean are passed by. -/
def flawsWithin : Node → List Flaw
  | mk l cs => flawOf l ++ flawsAmong cs

/-- The flaws of a list of siblings. -/
def flawsAmong : List Node → List Flaw
  | [] => []
  | c :: cs =>
    if c.hasFlaw || c.label.missing then flawsWithin c ++ flawsAmong cs else flawsAmong cs

end

mutual

/-- The flaws of a tree in document order, wherever they are. -/
def allFlaws : Node → List Flaw
  | mk l cs => flawOf l ++ allFlawsAmong cs

/-- The flaws of a list of siblings, wherever they are. -/
def allFlawsAmong : List Node → List Flaw
  | [] => []
  | c :: cs => allFlaws c ++ allFlawsAmong cs

end

/-- The flaws of a tree, none if it is said to be clean. -/
def flaws (n : Node) : List Flaw := if n.hasFlaw then n.flawsWithin else []

end Node

/-! ## Errors -/

/-- That a source does not fit the grammar: the first flaw of its tree, and their number. -/
structure SyntaxError where
  /-- The first flaw. -/
  first : Flaw
  /-- The line of the first flaw, counted from one. -/
  line : Nat
  /-- The column of the first flaw, counted from one, in bytes. -/
  column : Nat
  /-- The number of flaws. -/
  count : Nat
  deriving DecidableEq, Repr

/-- What is told to the user. -/
def SyntaxError.message (e : SyntaxError) : String :=
  s!"syntax error at line {e.line}, column {e.column} "
    ++ s!"(bytes {e.first.start}..{e.first.stop}, {e.count} error node(s))"

/-- The error for a source with the given tree, if the tree has a flaw. -/
def Node.ensureClean (source : Bytes) (tree : Node) : Except SyntaxError Unit :=
  match tree.flaws with
  | [] => .ok ()
  | first :: rest =>
    let p := Place.ofByte source first.start
    .error ⟨first, p.row + 1, p.column + 1, rest.length + 1⟩

end Seams
