import Seams.Grammar.Program

/-! # Trees of any source
A source that does not fit the grammar has a tree all the same. It is the tree of the source after
repairs: a symbol may be supplied where one is missing, and text may be left out, which then stands
under an error node. Every repair has a cost. Several plans are followed side by side; one that is
stuck is dropped as soon as another gets further, and of those that reach the end the cheapest
wins.

Where reading gets stuck at a token, there are three ways on. A symbol is supplied in front of it.
Or what was read last is left out, back to the nearest point at which the token is welcome. Or the
token itself is left out as well, and the next token is looked at in the same way.
Main definitions:
* **`Recovery.looseToken?`** — the token at an index, whatever stands around it;
* **`Recovery.cuts`** — what may be left out before a token that does not fit;
* **`Recovery.supply?`**, **`Recovery.omit?`** — the plans that repair a place;
* **`Recovery.search`** — the search for the plan that wins;
* **`Node.ofSource`** — the tree of a source. -/

namespace Seams.Recovery

open Lexis

/-! ## Tokens by themselves -/

/-- The symbols of the language, longer ones before those they begin with. -/
def symbols : List String :=
  ["<<<", "<=>", "===", "!==", "**=", "<<=", ">>=", "??=", "?->", "...",
   "?>", "<<", ">>", "<=", ">=", "<>", "==", "!=", "=>", "->", "::", "++", "--", "&&", "||", "??",
   "**", "+=", "-=", "*=", "/=", "%=", ".=", "&=", "|=", "^=", "#[",
   ";", ",", "(", ")", "[", "]", "\x7b", "\x7d", "=", "<", ">", "+", "-", "*", "/", "%", ".", "&",
   "|", "^", "~", "!", "@", "?", ":", "$", "\\", "'", "\"", "`"]

/-- The keywords of the language. -/
def keywords : List String :=
  ["abstract", "and", "array", "as", "break", "callable", "case", "catch", "class", "clone",
   "const", "continue", "declare", "default", "do", "echo", "else", "elseif", "enddeclare",
   "endfor", "endforeach", "endif", "endswitch", "endwhile", "enum", "exit", "extends", "final",
   "finally", "fn", "for", "foreach", "from", "function", "global", "goto", "if", "implements",
   "include", "include_once", "instanceof", "insteadof", "interface", "list", "match",
   "namespace", "new", "or", "print", "private", "protected", "public", "readonly", "require",
   "require_once", "return", "static", "switch", "throw", "trait", "try", "unset", "use", "while",
   "xor", "yield"]

/-- The symbol that stands at an index. -/
def symbolAt? (src : Bytes) (i : Nat) : Option String :=
  symbols.find? fun w => src.startsAt (bytesOf w) i

/-- Whether a token or white space starts at an index. -/
def isReadable (src : Bytes) (i : Nat) : Bool :=
  0 < blankLength src i || 0 < nameCharLength src true i || (symbolAt? src i).isSome
    || src.byteAt i == 0x23

/-- The end of the bytes from `i` on that belong to no token. -/
def unreadableEnd (src : Bytes) (i : Nat) : Nat :=
  if i < src.size then
    if isReadable src i then i else unreadableEnd src (i + 1)
  else i
termination_by src.size - i

/-- The token for a word, which is a keyword if it can be one. -/
def wordToken (src : Bytes) (start stop : Nat) : Node :=
  let w := (src.slice start stop).lower.lossyText
  if keywords.contains w then Node.leaf w false start stop
  else if w == "true" || w == "false" then Node.leaf "boolean" true start stop
  else if w == "null" then Node.leaf "null" true start stop
  else Node.leaf "name" true start stop

/-- The first token from `i` on, whatever stands around it, a comment included. There is none at
the end of the source. -/
def looseToken? (src : Bytes) (i : Nat) : Option Node :=
  let p := blankEnd src i
  if src.size ≤ p then none
  else
    match commentEnd? src true p with
    | some e => some (Node.leaf "comment" true p e)
    | none =>
      let n := nameEnd src p
      let f := floatEnd src p
      let k := integerEnd src p
      if p + 1 < f && n ≤ f && k ≤ f then some (Node.leaf "float" true p f)
      else if p < k && n ≤ k then some (Node.leaf "integer" true p k)
      else if p < n then some (wordToken src p n)
      else
        match symbolAt? src p with
        | some w => some (Node.leaf w false p (p + w.utf8ByteSize))
        | none => some (Node.leaf Node.errorKind true p (max (p + 1) (unreadableEnd src p)))

/-- The token at which reading gets stuck. A word is a keyword only where one is expected, so here
it is a name. -/
def stuckToken? (src : Bytes) (i : Nat) : Option Node :=
  (looseToken? src i).map fun n =>
    if nameEnd src n.start == n.stop then Node.leaf "name" true n.start n.stop else n

/-! ## Costs -/

/-- What a repair of any kind costs. -/
def repairCost : Nat := 500

/-- What a supplied symbol costs on top of a repair. -/
def suppliedCost : Nat := 110

/-- What each node costs that is left out. -/
def nodeCost : Nat := 100

/-- What each line costs that is left out. -/
def lineCost : Nat := 30

/-- Whether a node may stand between any two tokens. -/
def isExtra (n : Node) : Bool := n.kind == "comment" || n.kind == "text_interpolation"

/-- The cost of leaving out a row of nodes, which the bytes between them add to. -/
def omissionCost (src : Bytes) (nodes : List Node) : Nat :=
  let n := Node.covering Node.errorKind nodes
  let lines := ((List.range' n.start (n.stop - n.start)).filter (src.byteAt · == 0x0a)).length
  let counted := nodes.filter fun n =>
    !isExtra n && !(n.kind == Node.errorKind && n.children.isEmpty)
  repairCost + (n.stop - n.start) + lineCost * lines + nodeCost * counted.length

/-! ## What may be left out -/

/-- The kinds of the nodes that an operator after them can make longer. -/
def openKinds : List String :=
  ["binary_expression", "unary_op_expression", "cast_expression", "clone_expression",
   "error_suppression_expression", "assignment_expression", "reference_assignment_expression",
   "augmented_assignment_expression", "conditional_expression", "print_intrinsic",
   "throw_expression", "yield_expression", "include_expression", "include_once_expression",
   "require_expression", "require_once_expression", "arrow_function", "argument",
   "array_element_initializer", "variadic_unpacking", "sequence_expression", "const_element",
   "property_element", "static_variable_declaration", "simple_parameter",
   "match_conditional_expression", "match_default_expression", "pair", "by_ref"]

mutual

/-- The ends of a node that can still grow, the shortest first: tails of its row of children, and
of the rows below its last child. -/
def growingTails : Node → List (List Node)
  | .mk l cs => if openKinds.contains l.kind then tailsOf cs else []

/-- The proper tails of a row of siblings and of the rows below the last one. -/
def tailsOf : List Node → List (List Node)
  | [] => []
  | [c] => growingTails c
  | _ :: d :: cs => tailsOf (d :: cs) ++ [d :: cs]

end

/-- Whether a node is one of a row of statements or members, which is left out as a whole. -/
def isListed (n : Node) : Bool :=
  n.kind.endsWith "_statement" || n.kind.endsWith "_declaration" || n.kind.endsWith "_definition"

/-- The nodes of a row, each with whether the row may be cut in front of it. -/
def withCuts : Option Node → List Node → List (Node × Bool)
  | _, [] => []
  | before, n :: ns =>
    let listed := match before with
      | some b => isListed b
      | none => false
    let free := !isExtra n && n.kind != "php_tag" && n.kind != "text" && !listed
    (n, free) :: withCuts (if isExtra n then before else some n) ns

/-- What may be left out in front of the token at which reading got stuck, the nearest first. -/
def cuts (stuck : Stuck) : List (List Node) :=
  let row := (stuck.pending.map fun ns => withCuts none ns.reverse).flatten
  -- Every node before which the row may be cut starts a tail, the last one the nearest.
  let tails := (row.foldr (fun (n, free) (tail, found) =>
    (n :: tail, if free then (n :: tail) :: found else found))
    (([], []) : List Node × List (List Node))).2.reverse
  let inner := match row.getLast? with
    | some (n, _) => growingTails n
    | none => []
  (inner ++ tails).take 24

/-- A row of nodes without the comments and markup at its end. -/
def withoutExtras (nodes : List Node) : List Node := (nodes.reverse.dropWhile isExtra).reverse

/-- The symbols before which an operand is complete. -/
def completing : List String := ["\x7d", ")", "]", ",", ";", ":", "=>"]

/-- The symbols that only an operand can have after it which is not complete. -/
def continuing : List String :=
  ["(", "[", "->", "?->", "::", "++", "--", "=", "\\", "**=", "*=", "/=", "%=", "+=", "-=", ".=",
   "<<=", ">>=", "&=", "^=", "|=", "??="]

/-- What may be left out when the tokens `skipped` are left out, the newest first, and `next` comes
after them. Nothing more need be left out, except where that would continue an operand that the
first of those tokens has completed. -/
def rowsFor (stuck : Stuck) (skipped : List Node) (next : Option Node) : List (List Node) :=
  match skipped.getLast? with
  | none => cuts stuck
  | some first =>
    if completing.contains first.kind && next.any (fun n => continuing.contains n.kind) then
      cuts stuck
    else [] :: cuts stuck

/-! ## Plans -/

mutual

/-- Whether every token that is supplied at `place` is the last one of its node. -/
def completesAt (place : Nat) : Node → Bool
  | .mk _ cs => allCompleteAt place cs

/-- Whether every token that is supplied at `place`, in a row of siblings or below, is the last one
of its node. -/
def allCompleteAt (place : Nat) : List Node → Bool
  | [] => true
  | c :: cs =>
    let last := cs.all isExtra
    (last || !(c.label.missing && c.start == place)) && completesAt place c
      && allCompleteAt place cs

end

/-- A way to read the source. -/
structure Plan where
  /-- The cost of its repairs. -/
  cost : Nat
  /-- Its repairs, in the order of the source. -/
  repairs : List Repair
  /-- The tree, or how reading gets stuck. -/
  result : Except Stuck Node

/-- The plan with the given repairs. -/
def Plan.of (src : Bytes) (cost : Nat) (repairs : List Repair) : Plan :=
  ⟨cost, repairs, Grammar.program? repairs src⟩

/-- Whether the plan reads the source up to an index at least. -/
def Plan.reaches (p : Plan) (i : Nat) : Bool :=
  match p.result with
  | .ok _ => true
  | .error e => i ≤ e.place

/-- Whether a repair lies before an index. -/
def isBefore (i : Nat) : Repair → Bool
  | .supply place _ => place ≤ i
  | .leaveOut nodes => (Node.covering Node.errorKind nodes).start < i

/-- The symbols that may be supplied, in the order in which they are tried. -/
def supplies : List String := [";", "\x7d", ")", "]"]

/-- Whether a token supplied at `place` completes a node in the result of a plan. -/
def Plan.completes (p : Plan) (place : Nat) : Bool :=
  match p.result with
  | .ok tree => completesAt place tree
  | .error e => e.pending.all fun ns =>
    ns.all fun n => completesAt place n && !(n.label.missing && n.start == place)

/-- The plan that supplies the first symbol of a list that completes a node and with which reading
gets beyond the token. At the end of the source a symbol that can stand there rules out those after
it. -/
def supply? (src : Bytes) (cost : Nat) (repairs : List Repair) (stuck : Stuck) :
    List String → Option Plan
  | [] => none
  | w :: ws =>
    let p := Plan.of src (cost + repairCost + suppliedCost)
      (repairs ++ [.supply stuck.reached w])
    match p.result with
    | .ok _ => if p.completes stuck.reached then some p else supply? src cost repairs stuck ws
    | .error e =>
      if stuck.place < e.place && p.completes stuck.reached then some p
      else if src.size ≤ stuck.place && e.unused == 0 then none
      else supply? src cost repairs stuck ws

/-- The plan that leaves out a row of nodes. What was left out right before it is joined to it. -/
def omission (src : Bytes) (cost : Nat) (repairs : List Repair) (nodes : List Node) : Plan :=
  let start := (Node.covering Node.errorKind nodes).start
  let kept := repairs.filter (isBefore start)
  match kept.getLast? with
  | some (.leaveOut before) =>
    if blankEnd src (Node.covering Node.errorKind before).stop == start then
      -- Two rows that meet are one row, and its repair is paid for once.
      let joined := before ++ nodes
      Plan.of src (cost - omissionCost src before + omissionCost src joined)
        (kept.dropLast ++ [.leaveOut joined])
    else Plan.of src (cost + omissionCost src nodes) (kept ++ [.leaveOut nodes])
  | _ => Plan.of src (cost + omissionCost src nodes) (kept ++ [.leaveOut nodes])

/-- The plan that leaves out the first of the given rows, with the tokens after it, that lets
reading get beyond the token at `place`. -/
def omit? (src : Bytes) (cost : Nat) (repairs : List Repair) (skipped : List Node) (place : Nat) :
    List (List Node) → Option Plan
  | [] => none
  | row :: rows =>
    let nodes := withoutExtras (row ++ skipped)
    let p := omission src cost repairs nodes
    if !nodes.isEmpty && p.reaches (place + 1) then some p
    else omit? src cost repairs skipped place rows

/-! ## The search -/

/-- A search for the end of what is to be left out. -/
structure Skipping where
  /-- The cost of the repairs before it. -/
  cost : Nat
  /-- The repairs before it. -/
  repairs : List Repair
  /-- How reading got stuck. -/
  stuck : Stuck
  /-- The tokens left out from there on, the newest first. -/
  skipped : List Node

/-- Look at one token more. The plans that got stuck before it are dropped, and one is added that
goes on with it if that is possible; otherwise it is left out as well. The search ends where a plan
that has read the token costs less. -/
def Skipping.step (src : Bytes) (k : Skipping) (plans : List Plan) : List Plan × Option Skipping :=
  let next := match k.skipped with
    | n :: _ => looseToken? src n.stop
    | [] => stuckToken? src k.stuck.place
  -- A comment goes along with what is left out and decides nothing.
  if next.any isExtra then (plans, some { k with skipped := next.toList ++ k.skipped })
  else
    let place := match next with
      | some n => n.start
      | none => src.size
    let plans := plans.filter (·.reaches place)
      ++ (omit? src k.cost k.repairs k.skipped.reverse place
        (rowsFor k.stuck k.skipped next)).toList
    match next with
    | none => (plans, none)
    | some n =>
      let skipped := n :: k.skipped
      let cost := k.cost + omissionCost src skipped.reverse
      -- The token at which reading got stuck is left out without a comparison.
      let beaten := !k.skipped.isEmpty && plans.any fun p => p.cost < cost && p.reaches n.stop
      (plans, if beaten then none else some { k with skipped := skipped })

/-- Whether two nodes are of one kind and cover the same text. -/
def alike (a b : Node) : Bool := a.kind == b.kind && a.start == b.start && a.stop == b.stop

/-- Whether the nodes of two rows are alike, one by one. -/
def allAlike : List Node → List Node → Bool
  | [], [] => true
  | a :: as, b :: bs => alike a b && allAlike as bs
  | _, _ => false

mutual

/-- Whether the second of two trees is the better one. Where they first differ, the one with the
longer row of children is, and with rows of one length the second. -/
def prefersSecond? : Node → Node → Option Bool
  | .mk _ cs, .mk _ ds =>
    if allAlike cs ds then prefersAmong? cs ds else some (cs.length ≤ ds.length)

/-- Whether the second of two trees is the better one, judged by rows of nodes that are alike. -/
def prefersAmong? : List Node → List Node → Option Bool
  | c :: cs, d :: ds =>
    match prefersSecond? c d with
    | some b => some b
    | none => prefersAmong? cs ds
  | _, _ => none

end

/-- Whether a plan is better than one that was found before it. -/
def Plan.beats (p earlier : Plan) : Bool :=
  p.cost < earlier.cost || (p.cost == earlier.cost &&
    match earlier.result, p.result with
    | .ok a, .ok b => prefersSecond? a b == some true
    | _, _ => false)

/-- The best of a plan and those after it. -/
def cheapest (best : Plan) : List Plan → Plan
  | [] => best
  | p :: ps => cheapest (if p.beats best then p else best) ps

/-- The plans that read no less of the source than any other. -/
def furthest (plans : List Plan) : List Plan :=
  plans.filter fun p => plans.all fun q =>
    match q.result with
    | .ok _ => (match p.result with | .ok _ => true | .error _ => false)
    | .error e => p.reaches e.place

/-- The tree of the plan that wins, if one does within `fuel` steps. Where all plans that got
furthest are stuck, the cheapest of them is followed and the others are dropped. -/
def search (src : Bytes) (fuel : Nat) (plans : List Plan) (skipping : Option Skipping) :
    Option Node :=
  match fuel with
  | 0 => none
  | fuel + 1 =>
    match skipping with
    | some k =>
      let (plans, skipping) := k.step src plans
      search src fuel plans skipping
    | none =>
      -- No plan is under way, so the complete ones, or those stuck last, are compared.
      match furthest plans with
      | [] => none
      | first :: others =>
        let p := cheapest first others
        match p.result with
        | .ok tree => some tree
        | .error e =>
          search src fuel (supply? src p.cost p.repairs e supplies).toList
            (some ⟨p.cost, p.repairs, e, []⟩)

/-- The tree of a source that is given up from `place` on. -/
def surrender (src : Bytes) (place : Nat) : Node :=
  let start := min place src.size
  Node.branch "program" 0 src.size
    [Node.mk ⟨Node.errorKind, true, "", start, src.size, false, true⟩ []]

end Recovery

/-- The tree of a source. -/
def Node.ofSource (src : Bytes) : Node :=
  match Grammar.program? [] src with
  | .ok n => n
  | .error e =>
    match Recovery.search src (4 * src.size + 16) [⟨0, [], .error e⟩] none with
    | some n => n
    | none => Recovery.surrender src e.place

end Seams
