import Seams.Grammar.Goal

/-! # Names and types
Qualified names, the names of classes, and type declarations.
Main definitions:
* **`Names.qualified`** — a name with or without namespaces before it;
* **`Names.className`** — the name of a class where one is referred to;
* **`Names.typeOf`** — a type;
* **`Names.modifiers`** — the modifiers of a declaration. -/

namespace Seams.Names

open Lexis Reader Grammar

/-- The words that refer to a class from inside it. -/
def isReserved (w : String) : Bool := w == "self" || w == "parent" || w == "static"

/-- Whether the word that comes next refers to a class from inside it: `static` in any letter case,
the others as they are written here. -/
def comesReserved : Reader Bool := do
  let w ← peekName
  if w == "self" || w == "parent" then pure true else pure ((← peekWord) == "static")

/-- Read names and backslashes as long as a name follows a backslash. -/
def moreSegments : Reader Unit :=
  whileTrue do
    if ← follows "\\" then
      match ← attempt (do symbol "\\"; emit name) with
      | some _ => pure true
      | none => pure false
    else pure false

/-- A namespace, from its leading backslash if it has one. -/
def namespaceName : Reader Node :=
  node "namespace_name" do
    let _ ← symbol? "\\"
    emit name
    moreSegments

/-- The number of names that follow backslashes from here on. -/
def segmentsAhead : Reader Nat :=
  ahead (repeating (fun n => do
    if ← follows "\\" then
      match ← attempt (do symbol "\\"; let _ ← name; pure ()) with
      | some _ => pure (.inl (n + 1))
      | none => pure (.inr n)
    else pure (.inr n)) 0)

/-- Read `n` names, each after a backslash. -/
def segments : Nat → Reader Unit
  | 0 => pure ()
  | n + 1 => do
    segments n
    symbol "\\"
    emit name

/-- A name with or without namespaces before it. In front of the last name stand a backslash and,
if there is one, the namespace. -/
def qualified : Reader Node := do
  if (← peekWord) == "namespace" then
    node "qualified_name" do
      word "namespace"
      if (← segmentsAhead) == 1 then segments 1
      else
        let n ← segmentsAhead
        if n == 0 then stuck
        emitAs "prefix" (node "namespace_name" (segments (n - 1)))
        segments 1
  else if ← comes "\\" then
    let n ← segmentsAhead
    if n == 0 then stuck
    node "qualified_name" do
      if 1 < n then emitAs "prefix" (node "namespace_name" (segments (n - 1)))
      segments 1
  else
    let n ← ahead (do let _ ← name; segmentsAhead)
    if n == 0 then name
    else
      node "qualified_name" do
        emitAs "prefix" (node "namespace_name" (do emit name; segments (n - 1)))
        segments 1

/-- The name of a class where one is referred to. -/
def className : Reader Node := qualified

/-! ## Types -/

/-- The words for types that are written exactly so. -/
def primitiveNames : List String :=
  ["array", "iterable", "bool", "float", "int", "string", "void", "mixed", "false", "null", "true"]

/-- A type that is a name or a word of the language. -/
def namedType : Reader Node := do
  let w ← peekName
  if primitiveNames.contains w then
    node "primitive_type" (emit (token w false ((← reading).pos + w.utf8ByteSize)))
  else if (← peekWord) == "callable" then node "primitive_type" (word "callable")
  else node "named_type" (emit qualified)

/-- A named type, with or without a question mark before it. -/
def simpleType : Reader Node := do
  if ← comes "?" then
    node "optional_type" do
      symbol "?"
      emit namedType
  else namedType

/-- Read further types of an intersection. A sign before a variable is not part of the type. -/
def moreIntersection : Reader Bool := do
  if ← follows "&" then
    match ← attempt (do symbol "&"; emit simpleType) with
    | some _ => pure true
    | none => pure false
  else pure false

/-- An intersection of types. -/
def intersection : Reader Node :=
  node "intersection_type" do
    emit simpleType
    whileTrue moreIntersection

/-- One alternative of a type: an intersection in parentheses, or a simple type. The answer tells
whether there were parentheses. -/
def alternative : Reader Bool := do
  if ← comes "(" then
    between "(" ")" (emit intersection)
    pure true
  else
    emit simpleType
    pure false

/-- Read alternatives as long as a bar follows. The answer tells whether one had parentheses. -/
def moreAlternatives (parenthesized : Bool) : Reader Bool :=
  repeating (fun p => do
    if ← follows "|" then
      symbol "|"
      let q ← alternative
      pure (.inl (p || q))
    else pure (.inr p)) parenthesized

/-- Whether a type has an alternative in parentheses. -/
def hasGroups : Reader Bool :=
  ahead (do let p ← alternative; moreAlternatives p)

/-- A type. -/
def typeOf : Reader Node := do
  if ← hasGroups then
    node "disjunctive_normal_form_type" do
      let p ← alternative
      let _ ← moreAlternatives p
  else
    let first ← simpleType
    if ← follows "|" then
      wrap "union_type" first (do
        let _ ← moreAlternatives false)
    else if ← follows "&" then
      match ← attempt (wrap "intersection_type" first (do
          if ← moreIntersection then whileTrue moreIntersection else stuck)) with
      | some t => pure t
      | none => pure first
    else pure first

/-- Read a colon and the type that a function returns. -/
def returnType : Reader Unit := do
  if ← followed? ":" then
    if (← peekName) == "never" then
      emitAs "return_type" (token "bottom_type" true ((← reading).pos + 5))
    else emitAs "return_type" typeOf

/-! ## Modifiers -/

/-- The kind of node for a modifier. -/
def modifierKind? : String → Option String
  | "public" => some "visibility_modifier"
  | "protected" => some "visibility_modifier"
  | "private" => some "visibility_modifier"
  | "static" => some "static_modifier"
  | "final" => some "final_modifier"
  | "abstract" => some "abstract_modifier"
  | "readonly" => some "readonly_modifier"
  | _ => none

/-- Read one modifier of the given kinds, if one comes next. -/
def modifier? (kinds : List String) : Reader Bool := do
  let w ← peekWord
  if w == "var" && kinds.contains "var_modifier" then
    emit (token "var_modifier" true ((← reading).pos + 3))
    pure true
  else
    match modifierKind? w with
    | some kind =>
      if kinds.contains kind then
        emit (node kind do
          word w
          if kind == "visibility_modifier" then
            let _ ← attempt (do
              symbol "("
              if (← peekWord) != "set" then stuck
              emit (token "operation" true ((← reading).pos + 3))
              symbol ")"))
        pure true
      else pure false
    | none => pure false

/-- Read modifiers of the given kinds, and answer with their number. -/
def modifiers (kinds : List String) : Reader Nat :=
  repeating (fun n => do
    if ← modifier? kinds then pure (.inl (n + 1)) else pure (.inr n)) 0

/-- The modifiers of a class. -/
def classModifiers : List String := ["final_modifier", "abstract_modifier", "readonly_modifier"]

/-- The modifiers of a parameter that declares a property. -/
def parameterModifiers : List String := ["visibility_modifier", "readonly_modifier"]

/-- The modifiers of a member. -/
def memberModifiers : List String :=
  ["visibility_modifier", "static_modifier", "final_modifier", "abstract_modifier",
   "readonly_modifier", "var_modifier"]

end Seams.Names
