import Seams.Grammar.Flaw
import Seams.Grammar.Recovery
import Seams.Token

/-! # Scripts
A script is a source that fits the grammar, with its tree and its tokens.
Main definitions:
* **`Script.ofTree`**, **`Script.parse`** — a script, or why the source is none;
* **`Script.tokenAt`** — the token that covers a range;
* **`Node.pathTo`**, **`Script.nodePath?`** — the node that covers a range, and those above it. -/

namespace Seams

namespace Node

/-- Whether a child is where a range is to be looked for: it reaches to the end of the range and
beyond its start, or to it if the child is empty. -/
def reaches (c : Node) (start stop : Nat) : Bool :=
  stop ≤ c.stop && (if c.start == c.stop then start ≤ c.stop else start < c.stop)

mutual

/-- The smallest node that contains a range, followed by the nodes above it, in front of those
already passed. -/
def descend (start stop : Nat) (above : List Node) : Node → List Node
  | mk l cs => descendAmong start stop (mk l cs :: above) cs

/-- The way down through the first child that reaches over the range, if it does not begin behind
its start. -/
def descendAmong (start stop : Nat) (above : List Node) : List Node → List Node
  | [] => above
  | c :: cs =>
    if c.reaches start stop then
      if start < c.start then above else descend start stop above c
    else descendAmong start stop above cs

end

/-- The smallest node that contains a range, followed by the nodes above it. -/
def pathTo (n : Node) (start stop : Nat) : List Node := n.descend start stop []

end Node

/-- A source that fits the grammar. -/
structure Script where
  /-- The source. -/
  source : Bytes
  /-- Its tree. -/
  tree : Node
  /-- Its tokens. -/
  tokens : TokenStream

namespace Script

/-- The script of a source with the given tree, which must be clean. -/
def ofTree (source : Bytes) (tree : Node) : Except SyntaxError Script :=
  match tree.ensureClean source with
  | .error e => .error e
  | .ok () => .ok ⟨source, tree, TokenStream.ofTree source tree⟩

/-- The script of a source. -/
def parse (source : Bytes) : Except SyntaxError Script := ofTree source (Node.ofSource source)

/-- The bytes of a range. -/
def bytesAt (s : Script) (start stop : Nat) : Bytes := s.source.slice start stop

/-- The node that covers exactly a range, followed by the nodes above it. There is none if the
smallest node that contains the range is larger. -/
def nodePath? (s : Script) (start stop : Nat) : Option (List Node) :=
  match s.tree.pathTo start stop with
  | [] => none
  | n :: above => if n.start = start ∧ n.stop = stop then some (n :: above) else none

/-- The node that covers exactly a range. -/
def nodeAt? (s : Script) (start stop : Nat) : Option Node :=
  (s.nodePath? start stop).bind List.head?

end Script

end Seams
