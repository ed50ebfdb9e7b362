import Seams.Grammar.Lexis
import Seams.Grammar.Node

/-! # Readers
A reader moves through a source and builds the tree of what it reads. White space, comments and
markup between tags may stand before any token; they are collected when the next token is looked
at, and join the tree where that token joins it. So a comment lies in the innermost node that has
tokens on both sides of it.

A reader may get stuck. What it had read by then is kept, and so is the furthest point at which an
alternative got stuck that was given up. A reader can be told in advance of repairs, tokens to
supply and text to leave out; both become nodes of the tree.
Main definitions:
* **`Reader`** — a computation that reads and may get stuck;
* **`Repair`**, **`Stuck`** — what a reader is told about a faulty source, and what it tells;
* **`Reader.settle`** — move up to the next token;
* **`Reader.gather`**, **`Reader.node`**, **`Reader.wrap`** — build a node from what a reader
  reads;
* **`Reader.symbol`**, **`Reader.word`** — read one token. -/

namespace Seams

open Lexis

/-- A change that makes a source fit the grammar. -/
inductive Repair where
  /-- A symbol is supplied after the token that ends at `place`. -/
  | supply (place : Nat) (symbol : String)
  /-- What the nodes cover is left out. -/
  | leaveOut (nodes : List Node)

/-- How a reader got stuck. -/
structure Stuck where
  /-- The start of the token that does not fit. -/
  place : Nat
  /-- The end of the token before it. -/
  reached : Nat
  /-- What has been read of the nodes that are open there, the outermost node first and the newest
  child of each first. -/
  pending : List (List Node)
  /-- The number of repairs that have not been used by then. -/
  unused : Nat

/-- The one that got further, or the second if both got as far. -/
def Stuck.later (a : Option Stuck) (b : Stuck) : Stuck :=
  match a with
  | some a => if b.place < a.place then a else b
  | none => b

/-- Where a reader is. -/
structure Reading where
  /-- The index from which reading goes on. -/
  pos : Nat
  /-- The end of the last token. -/
  reached : Nat
  /-- Comments and markup since the last token, the newest first. -/
  extras : List Node
  /-- Whether `pos` is the start of the next token. -/
  settled : Bool
  /-- Whether a closing tag comes next that ends the statement. -/
  closed : Bool
  /-- The children of the node that is being read, the newest first. -/
  children : List Node
  /-- The repairs to come, in the order of the source. -/
  repairs : List Repair
  /-- How the alternative got stuck that got furthest, of those given up in this node. -/
  furthest : Option Stuck

/-- What a reader knows throughout. -/
structure Reading.Context where
  /-- The text that is read. -/
  source : Bytes
  /-- Whether a closing tag may end what is being read. -/
  closable : Bool

/-- The symbol that is supplied as the next token, if one is. -/
def Reading.supplied? (s : Reading) : Option String :=
  match s.repairs with
  | .supply place symbol :: _ => if s.settled && place == s.reached then some symbol else none
  | _ => none

/-- The first nodes to leave out, if that is the repair to come. -/
def Reading.omission? (s : Reading) : Option (List Node × List Repair) :=
  match s.repairs with
  | .leaveOut nodes :: rest => some (nodes, rest)
  | _ => none

/-- A computation that reads. If it cannot go on, it tells how it got stuck. -/
def Reader (α : Type) : Type := Reading.Context → Reading → Except Stuck (α × Reading)

namespace Reader

variable {α β : Type}

instance : Monad Reader where
  pure a := fun _ s => .ok (a, s)
  bind m f := fun c s =>
    match m c s with
    | .ok (a, s') => f a c s'
    | .error e => .error e

/-! ## Basic readers -/

/-- The source. -/
def source : Reader Bytes := fun c s => .ok (c.source, s)

/-- Whether a closing tag may end what is being read. -/
def closable : Reader Bool := fun c s => .ok (c.closable, s)

/-- The state of the reader. -/
def reading : Reader Reading := fun _ s => .ok (s, s)

/-- Replace the state of the reader. -/
def update (f : Reading → Reading) : Reader Unit := fun _ s => .ok ((), f s)

/-- Run a reader where a closing tag may end what is read, or may not. -/
def closing (b : Bool) (m : Reader α) : Reader α := fun c s => m { c with closable := b } s

/-- The result of a reader, or nothing and no move if it gets stuck. -/
def attempt (m : Reader α) : Reader (Option α) := fun c s =>
  match m c s with
  | .ok (a, s') => .ok (some a, s')
  | .error e => .ok (none, { s with furthest := some (Stuck.later s.furthest e) })

/-- The first reader, or the second if the first gets stuck. -/
def orElse (m k : Reader α) : Reader α := fun c s =>
  match m c s with
  | .ok r => .ok r
  | .error e => k c { s with furthest := some (Stuck.later s.furthest e) }

/-- The result of a reader, without a move. -/
def ahead (m : Reader α) : Reader α := fun c s =>
  match m c s with
  | .ok (a, _) => .ok (a, s)
  | .error e => .error e

/-! ## Between tokens -/

/-- Markup from the closing tag at `i` to the next opening tag or the end of the source, and where
it ends. -/
def interpolation? (src : Bytes) (i : Nat) : Option (Node × Nat) :=
  let close := Node.leaf "?>" false i (i + 2)
  let text := markup? src true (src.size + 1) (i + 2)
  let texts := match text with
    | some (a, b) => [Node.leaf "text" true a b]
    | none => []
  let p := match text with
    | some (_, b) => b
    | none => i + 2
  if endsAt src p then
    some (Node.branch "text_interpolation" i p (close :: texts), p)
  else
    let q := blankEnd src p
    let e := openTagEnd src q
    if q < e then
      some (Node.branch "text_interpolation" i e
        (close :: texts ++ [Node.leaf "php_tag" true q e]), e)
    else none

/-- Move over white space, comments, markup and what is left out. With `closable` a closing tag
stops the move, and with `attributes` so does `#[`. -/
def skip (src : Bytes) (closable attributes : Bool) (fuel : Nat) (s : Reading) : Reading :=
  match fuel with
  | 0 => s
  | fuel + 1 =>
    if closable && closesAt src s.pos then { s with settled := true, closed := true }
    else
      let p := blankEnd src s.pos
      -- What a repair leaves out goes before comments, and these go before markup.
      let next : Option (Node × Nat × List Repair) :=
        match s.omission? with
        | some (nodes, rest) =>
          let n := Node.covering Node.errorKind nodes
          if n.start == p && p < n.stop then some (n, n.stop, rest) else none
        | none => none
      let found :=
        match next, commentEnd? src attributes p with
        | some r, _ => some r
        | none, some e => some (Node.leaf "comment" true p e, e, s.repairs)
        | none, none =>
          if src.byteAt p == 0x3f && src.byteAt (p + 1) == 0x3e then
            (interpolation? src p).map fun (n, e) => (n, e, s.repairs)
          else none
      match found with
      | some (n, e, repairs) =>
        skip src closable attributes fuel
          { s with pos := e, extras := n :: s.extras, repairs := repairs }
      | none => { s with pos := p, settled := true }

/-- Move up to the next token, where a new construct may start. -/
def settle : Reader Unit := fun c s =>
  if s.settled then .ok ((), s)
  else .ok ((), skip c.source false true (c.source.size + 1) s)

/-- Move up to the next token, where what has been read may go on or be complete: in a construct
that a closing tag may end, the tag stops the move. -/
def settleAfter : Reader Unit := fun c s =>
  if s.settled then .ok ((), s)
  else .ok ((), skip c.source c.closable false (c.source.size + 1) s)

/-- Get stuck at the next token. -/
def stuck : Reader α := do
  settle
  fun _ s => .error (Stuck.later s.furthest ⟨s.pos, s.reached, [s.extras ++ s.children],
    s.repairs.length⟩)

/-- Repeat a step until it yields a result; stuck if that takes more than `fuel` rounds. -/
def loop (fuel : Nat) (step : α → Reader (α ⊕ β)) (a : α) : Reader β :=
  match fuel with
  | 0 => stuck
  | fuel + 1 => do
    match ← step a with
    | .inl a' => loop fuel step a'
    | .inr b => pure b

/-- Repeat a step that yields a result or goes on, once for each byte of the source at most. -/
def repeating (step : α → Reader (α ⊕ β)) (a : α) : Reader β := do
  loop ((← source).size + 2) step a

/-- Run `m` as long as it answers with `true`. -/
def whileTrue (m : Reader Bool) : Reader Unit :=
  repeating (fun () => do if ← m then pure (.inl ()) else pure (.inr ())) ()

/-! ## Looking at the next token -/

/-- The symbol that is supplied as the next token, if one is. -/
def supplied? : Reader (Option String) := do
  settle
  pure (← reading).supplied?

/-- The byte at which the next token starts, and zero if a closing tag ends the statement. -/
def peek : Reader UInt8 := do
  settle
  let s ← reading
  match s.supplied? with
  | some w => pure ((bytesOf w).byteAt 0)
  | none => if s.closed then pure 0 else pure ((← source).byteAt s.pos)

/-- The byte of the next token at distance `k` from its start. -/
def peekAt (k : Nat) : Reader UInt8 := do
  settle
  let s ← reading
  match s.supplied? with
  | some w => pure ((bytesOf w).byteAt k)
  | none => if s.closed then pure 0 else pure ((← source).byteAt (s.pos + k))

/-- The name that comes next as it is written; empty if there is none, or if it is longer than any
keyword. -/
def peekName : Reader String := do
  settle
  let s ← reading
  let src ← source
  if s.closed || s.supplied?.isSome then pure ""
  else
    let e := nameEnd src s.pos
    if e ≤ s.pos || s.pos + 16 < e then pure "" else pure ((src.slice s.pos e).lossyText)

/-- The name that comes next, in lower case; empty if there is none, or if it is longer than any
keyword. -/
def peekWord : Reader String := do
  settle
  let s ← reading
  let src ← source
  if s.closed || s.supplied?.isSome then pure ""
  else
    let e := nameEnd src s.pos
    if e ≤ s.pos || s.pos + 16 < e then pure ""
    else pure ((src.slice s.pos e).lower.lossyText)

/-- Whether the source ends here. -/
def atEnd : Reader Bool := do
  settle
  let s ← reading
  pure (s.supplied?.isNone && (← source).size ≤ s.pos)

/-! ## Building nodes -/

/-- Give the comments and markup read so far to the node that is being read. -/
def flush : Reader Unit :=
  update fun s => { s with children := s.extras ++ s.children, extras := [] }

/-- Add a child to the node that is being read. -/
def add (n : Node) : Reader Unit := update fun s => { s with children := n :: s.children }

/-- Add what a reader yields, in the role `field`. -/
def emitAs (field : String) (m : Reader Node) : Reader Unit := do
  let n ← m
  add (n.withField field)

/-- Add what a reader yields. -/
def emit (m : Reader Node) : Reader Unit := do add (← m)

/-- Get stuck behind a node that has been read. -/
def refuse (n : Node) : Reader α := do
  add n
  stuck

/-- Go on at `stop`, the end of a token. -/
def advance (stop : Nat) : Reader Unit :=
  update fun s => { s with pos := stop, reached := stop, settled := false, closed := false }

/-- The token from here to `stop`. -/
def token (kind : String) (named : Bool) (stop : Nat) : Reader Node := do
  if (← supplied?).isSome then stuck
  flush
  let s ← reading
  advance stop
  pure (Node.leaf kind named s.pos stop)

/-- The token that is supplied here. -/
def suppliedToken (kind : String) : Reader Node := do
  let s ← reading
  update fun s => { s with repairs := s.repairs.tail }
  pure (Node.missing kind s.reached)

/-- What is left out right here, where white space has a meaning, and the repairs after it. -/
def omittedHere? : Reader (Option (Node × List Repair)) := do
  let s ← reading
  match s.omission? with
  | some (nodes, rest) =>
    let n := Node.covering Node.errorKind nodes
    pure (if n.start == s.pos && s.pos < n.stop then some (n, rest) else none)
  | none => pure none

/-- Move over what is left out right here, if anything is. -/
def omitted : Reader Bool := do
  match ← omittedHere? with
  | some (n, rest) =>
    add n
    update fun s => { s with pos := n.stop, settled := false, repairs := rest }
    pure true
  | none => pure false

/-- Run `body` on a new list of children that begins with `seed`. The result comes with the end of
the last token and the children in order. -/
def gather (seed : List Node) (body : Reader α) : Reader (α × Nat × List Node) := fun c s =>
  let within (e : Stuck) : Stuck := { e with pending := s.children :: e.pending }
  match body c { s with children := seed, furthest := none } with
  | .error e => .error (Stuck.later s.furthest (within e))
  | .ok (a, t) =>
    let furthest :=
      match t.furthest with
      | some e => some (Stuck.later s.furthest (within e))
      | none => s.furthest
    .ok ((a, t.reached, t.children.reverse),
      { t with children := s.children, furthest := furthest })

/-- The node over what `body` reads, of the kind that `body` yields. -/
def nodeBy (body : Reader String) : Reader Node := do
  settle
  flush
  let start := (← reading).pos
  let (kind, stop, children) ← gather [] body
  pure (Node.branch kind start stop children)

/-- The node over what `body` reads, and what `body` yields. -/
def nodeWith (kind : String) (body : Reader α) : Reader (Node × α) := do
  settle
  flush
  let start := (← reading).pos
  let (a, stop, children) ← gather [] body
  pure (Node.branch kind start stop children, a)

/-- The node over what `body` reads. -/
def node (kind : String) (body : Reader Unit) : Reader Node :=
  nodeBy (do body; pure kind)

/-- The node over `left`, which has been read already, and what `body` reads; of the kind that
`body` yields. -/
def wrapBy (left : Node) (body : Reader String) : Reader Node := do
  let (kind, stop, children) ← gather [left] body
  pure (Node.branch kind left.start stop children)

/-- The node over `left`, which has been read already, and what `body` reads. -/
def wrap (kind : String) (left : Node) (body : Reader Unit) : Reader Node :=
  wrapBy left (do body; pure kind)

/-! ## Tokens -/

/-- Whether the text `w` comes next. -/
def comes (w : String) : Reader Bool := do
  settle
  let s ← reading
  match s.supplied? with
  | some symbol => pure (symbol == w)
  | none => pure (!s.closed && (← source).startsAt (bytesOf w) s.pos)

/-- Read the symbol `w`. -/
def symbol (w : String) : Reader Unit := do
  if (← supplied?) == some w then emit (suppliedToken w)
  else if ← comes w then emit (token w false ((← reading).pos + w.utf8ByteSize))
  else stuck

/-- Read the symbol `w` if it comes next. -/
def symbol? (w : String) : Reader Bool := do
  if ← comes w then
    symbol w
    pure true
  else pure false

/-- Read the keyword `w`, in any letter case. -/
def word (w : String) : Reader Unit := do
  if (← peekWord) == w then
    emit (token w false ((← reading).pos + w.utf8ByteSize))
  else stuck

/-- Read the keyword `w` if it comes next. -/
def word? (w : String) : Reader Bool := do
  if (← peekWord) == w then
    word w
    pure true
  else pure false

/-- Read the keyword `w` as a node of the given kind. -/
def wordNode (kind w : String) : Reader Node := node kind (word w)

/-- Read a name. -/
def name : Reader Node := do
  settle
  let s ← reading
  let e := nameEnd (← source) s.pos
  if !s.closed && s.pos < e then token "name" true e else stuck

/-- Read the end of a statement: a semicolon, or a closing tag in its place. -/
def semicolon : Reader Unit := closing true do
  settleAfter
  if (← reading).closed then
    flush
    update fun s => { s with reached := max s.reached s.pos, settled := false, closed := false }
  else symbol ";"

/-- Read `m` as long as a comma follows. -/
def commaSeparated (m : Reader Unit) : Reader Unit := do
  m
  whileTrue do
    settleAfter
    if ← symbol? "," then
      m
      pure true
    else pure false

end Reader

end Seams
