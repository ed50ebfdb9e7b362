import Seams.Grammar.Reader

/-! # Goals
The constructs of the language contain each other, so its rules are written against a table of
readers, one for each **`Goal`**. Closing the knot is left to `Seams.Grammar.Program`, which builds
the table from the rules with a bound on the depth of nesting.
Main definitions:
* **`Goal`**, **`Rules`** — the constructs that contain each other, and a reader for each;
* **`variableKinds`**, **`Node.isVariable`** and its kin — what may be done with an operand. -/

namespace Seams

/-- A construct that others contain. -/
inductive Goal where
  /-- An expression whose operators bind at least as tightly as `level`. -/
  | expression (level : Nat)
  /-- An expression, or a pattern that takes an array apart. -/
  | target
  /-- An operand: an expression without operators around it. -/
  | operand
  /-- A variable without continuations. -/
  | variable
  /-- A statement. -/
  | statement
  /-- Statements between braces. -/
  | block
  /-- The members of a class between braces. -/
  | members
  deriving DecidableEq, Repr

/-- A reader for each goal. -/
abbrev Rules := Goal → Reader Node

/-! ## Kinds of operands -/

/-- The kinds of the expressions that denote a place, and may be assigned to. -/
def variableKinds : List String :=
  ["variable_name", "dynamic_variable_name", "subscript_expression", "member_access_expression",
   "nullsafe_member_access_expression", "scoped_property_access_expression",
   "function_call_expression", "member_call_expression", "nullsafe_member_call_expression",
   "scoped_call_expression"]

/-- The kinds of the operands that may be called, other than calls and variables. -/
def groupKinds : List String :=
  ["name", "qualified_name", "parenthesized_expression", "array_creation_expression", "string",
   "encapsed_string", "heredoc", "nowdoc"]

/-- The kinds of the places that are no callees. -/
def propertyKinds : List String :=
  ["member_access_expression", "nullsafe_member_access_expression",
   "scoped_property_access_expression"]

/-- The kinds of the expressions that `instanceof` does not take as its left operand. -/
def looseKinds : List String :=
  ["conditional_expression", "match_expression", "augmented_assignment_expression",
   "assignment_expression", "reference_assignment_expression", "yield_expression",
   "error_suppression_expression", "binary_expression", "include_expression",
   "include_once_expression", "require_expression", "require_once_expression", "list_literal"]

/-- The kinds of the expressions with a prefix operator, which `clone` does not take. -/
def prefixedKinds : List String := ["unary_op_expression", "cast_expression", "clone_expression"]

namespace Node

/-- The kind of the last child. -/
def lastKind (n : Node) : String :=
  match n.children.getLast? with
  | some c => c.kind
  | none => ""

/-- Whether the operand is a place, and may be assigned to. A cast of a place is one. -/
def isVariable (n : Node) : Bool :=
  variableKinds.contains n.kind
    || (n.kind == "cast_expression" && variableKinds.contains n.lastKind)

/-- Whether the operand may be called. -/
def isCallable (n : Node) : Bool :=
  (variableKinds.contains n.kind && !propertyKinds.contains n.kind) || groupKinds.contains n.kind

/-- Whether elements and members of the operand may be accessed. -/
def isReachable (n : Node) : Bool :=
  variableKinds.contains n.kind || groupKinds.contains n.kind
    || n.kind == "class_constant_access_expression" || n.kind == "relative_scope"
    || (n.kind == "object_creation_expression"
      && (n.lastKind == "arguments" || n.lastKind == "anonymous_class"))

/-- Whether the operand may stand on the left of `instanceof`. -/
def isTight (n : Node) : Bool := !looseKinds.contains n.kind

/-- Whether the operand may follow `clone`. -/
def isPrimary (n : Node) : Bool := n.isTight && !prefixedKinds.contains n.kind

end Node

/-! ## Patterns -/

mutual

/-- The pattern that an array literal denotes on the left of an assignment; a place denotes
itself. -/
def Node.asPattern? : Node → Option Node
  | .mk l cs =>
    if l.kind == "array_creation_expression" then
      match cs with
      | c :: _ =>
        if c.kind == "[" then (patternParts? cs).map (.mk { l with kind := "list_literal" })
        else none
      | [] => none
    else if l.kind == "list_literal" then
      match cs with
      | c :: _ => if c.kind == "[" then some (.mk l cs) else none
      | [] => none
    else if variableKinds.contains l.kind || l.kind == "by_ref" then some (.mk l cs)
    else none

/-- The parts of a pattern from those of an array literal. -/
def patternParts? : List Node → Option (List Node)
  | [] => some []
  | .mk l ds :: cs =>
    match patternParts? cs with
    | none => none
    | some rest =>
      if l.kind == "array_element_initializer" then
        match patternElement? ds with
        | some ps => some (ps ++ rest)
        | none => none
      else some (.mk l ds :: rest)

/-- The parts of one element of a pattern: the last is a pattern, and a key may precede it. -/
def patternElement? : List Node → Option (List Node)
  | [] => none
  | [d] =>
    match d.asPattern? with
    | some p => some [p]
    | none => none
  | d :: ds =>
    match patternElement? ds with
    | some ps => some (d :: ps)
    | none => none

end

namespace Grammar

open Reader

/-- The level of an expression with any operators in it. -/
def loosest : Nat := 0

/-- An expression with any operators. -/
def expression (rules : Rules) : Reader Node := rules (.expression loosest)

/-- Whether the symbol `w` follows what has been read. -/
def follows (w : String) : Reader Bool := do
  settleAfter
  comes w

/-- Read the symbol `w` if it follows. -/
def followed? (w : String) : Reader Bool := do
  settleAfter
  symbol? w

/-- The keyword or name that follows, in lower case. -/
def followingWord : Reader String := do
  settleAfter
  peekWord

/-- Read what is between two symbols, where no closing tag can end it. -/
def between (left right : String) (m : Reader Unit) : Reader Unit := do
  symbol left
  closing false m
  symbol right

/-- An expression in parentheses. -/
def parenthesized (rules : Rules) : Reader Node :=
  node "parenthesized_expression" (between "(" ")" (emit (expression rules)))

/-- A reference sign before what is taken by reference. -/
def referenceModifier : Reader Node := node "reference_modifier" (symbol "&")

end Grammar

end Seams
