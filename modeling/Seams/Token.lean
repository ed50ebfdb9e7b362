import Seams.Text.Bytes
import Seams.Grammar.Cursor

/-! # Token streams
The leaves of a tree and what lies between them, as a sequence of tokens without gaps.
Main definitions:
* **`Token`** — a token and the byte range it covers;
* **`TokenStream.ofTree`** — the tokens of a source with its tree;
* **`TokenStream.positionAt?`** — the token that starts at a byte;
* **`TokenStream.nextSignificant?`** — the next token that is neither white space nor a comment. -/

namespace Seams

/-- A token. Its position is its index in the stream. -/
structure Token where
  /-- The first byte of the token. -/
  start : Nat
  /-- The first byte after it. -/
  stop : Nat
  /-- The kind of the leaf, or `Token.triviaKind`. -/
  kind : String
  /-- Whether the kind is the name of a rule. -/
  named : Bool
  /-- The kind of the parent of the leaf. -/
  parent : Option String
  deriving DecidableEq, Repr

namespace Token

/-- The kind of the tokens that no leaf covers. -/
def triviaKind : String := "trivia"

/-- The kind of comments. -/
def commentKind : String := "comment"

/-- The token over a gap between leaves. -/
def trivia (start stop : Nat) : Token := ⟨start, stop, triviaKind, false, none⟩

/-- The token of a leaf. -/
def ofLeaf (leaf : Label × Option String) : Token :=
  ⟨leaf.1.start, leaf.1.stop, leaf.1.kind, leaf.1.named, leaf.2⟩

/-- Whether no leaf covers the token. -/
def isTrivia (t : Token) : Bool := t.kind == triviaKind

/-- Whether the token is a comment. -/
def isComment (t : Token) : Bool := t.kind == commentKind

/-- Whether the token is neither white space nor a comment. -/
def isSignificant (t : Token) : Bool := !t.isTrivia && !t.isComment

/-- The tokens from byte `offset` to byte `size`. A leaf that is empty, or does not lie in what is
left, is passed over, and the gaps are filled. -/
def cover (size offset : Nat) : List (Label × Option String) → List Token
  | [] => if offset < size then [trivia offset size] else []
  | leaf :: rest =>
    if leaf.1.start < leaf.1.stop ∧ offset ≤ leaf.1.start ∧ leaf.1.stop ≤ size then
      if offset < leaf.1.start then
        trivia offset leaf.1.start :: ofLeaf leaf :: cover size leaf.1.stop rest
      else ofLeaf leaf :: cover size leaf.1.stop rest
    else cover size offset rest

end Token

/-- The tokens of a source. -/
structure TokenStream where
  /-- The source. -/
  source : Bytes
  /-- Its tokens in order. -/
  tokens : Array Token

namespace TokenStream

/-- The tokens of a source with its tree. -/
def ofTree (source : Bytes) (tree : Node) : TokenStream :=
  ⟨source, (Token.cover source.size 0 tree.walk).toArray⟩

/-- The number of tokens. -/
def size (s : TokenStream) : Nat := s.tokens.size

/-- The token at a position. -/
def get? (s : TokenStream) (position : Nat) : Option Token := s.tokens[position]?

/-- The bytes of a token. -/
def textOf (s : TokenStream) (t : Token) : Bytes := s.source.slice t.start t.stop

/-- The bytes of the token at a position. -/
def text? (s : TokenStream) (position : Nat) : Option Bytes := (s.get? position).map s.textOf

/-- The index in `lo ≤ i < hi` of the token that starts at `byte`, by bisection. -/
def bisect (tokens : Array Token) (byte lo hi : Nat) : Option Nat :=
  if _h : lo < hi then
    let mid := (lo + hi) / 2
    match tokens[mid]? with
    | none => none
    | some t =>
      if t.start = byte then some mid
      else if t.start < byte then bisect tokens byte (mid + 1) hi
      else bisect tokens byte lo mid
  else none
termination_by hi - lo

/-- The position of the token that starts at a byte. -/
def positionAt? (s : TokenStream) (byte : Nat) : Option Nat := bisect s.tokens byte 0 s.size

/-- The least position from `position` on whose token is neither white space nor a comment. -/
def firstSignificant? (s : TokenStream) (position : Nat) : Option Nat :=
  if h : position < s.tokens.size then
    if s.tokens[position].isSignificant then some position else firstSignificant? s (position + 1)
  else none
termination_by s.tokens.size - position

/-- The next position whose token is neither white space nor a comment. -/
def nextSignificant? (s : TokenStream) (position : Nat) : Option Nat :=
  s.firstSignificant? (position + 1)

/-- The position of the token that covers exactly `start` to `stop`. -/
def tokenAt? (s : TokenStream) (start stop : Nat) : Option Nat :=
  (s.positionAt? start).filter fun position =>
    (s.get? position).any fun t => t.stop == stop

end TokenStream

end Seams
