import Seams.Grammar.Expressions

/-! # Declarations
Functions, classes and their members, constants, and the imports of a namespace.
Main definitions:
* **`Declarations.functionDefinition`** — a function with a name;
* **`Declarations.classLike`** — classes, interfaces, traits and enumerations;
* **`Declarations.membersOf`** — the members of a class between braces;
* **`Declarations.useDeclaration`** — an import. -/

namespace Seams.Declarations

open Lexis Reader Grammar Names Expressions

/-! ## Functions and constants -/

/-- Read the part of a function up to its body. -/
def functionHeader (rules : Rules) : Reader Unit := do
  word "function"
  if ← comes "&" then emitAs "reference_modifier" referenceModifier
  emitAs "name" name
  emitAs "parameters" (formalParameters rules)
  returnType

/-- A function with a name. -/
def functionDefinition (rules : Rules) : Reader Node :=
  node "function_definition" do
    let _ ← attributes? rules
    functionHeader rules
    emitAs "body" (rules .block)

/-- Whether a function with a name is declared here, attributes apart. -/
def comesFunction : Reader Bool := do
  let found ← attempt (ahead (do
    word "function"
    let _ ← symbol? "&"
    let _ ← name
    pure ()))
  pure found.isSome

/-- A constant and its value. -/
def constElement (rules : Rules) : Reader Node :=
  node "const_element" do
    emit name
    if ← assigned then symbol "=" else stuck
    emit (expression rules)

/-- A constant that no type precedes: its name is not the word for a type. -/
def untypedConstElement (rules : Rules) : Reader Node := do
  if primitiveNames.contains (← peekName) then stuck else constElement rules

/-- Read a constant declaration from its keyword on. -/
def constBody (rules : Rules) : Reader Unit := closing true do
  word "const"
  match ← attempt (do
      let n ← peekName
      if primitiveNames.contains n then stuck
      let _ ← ahead (do
        emit name
        if ← assigned then pure () else stuck)
      pure ()) with
  | some _ => pure ()
  | none => emitAs "type" typeOf
  commaSeparated (emit (constElement rules))
  semicolon

/-! ## Members -/

/-- A property with its default value. -/
def propertyElement (rules : Rules) : Reader Node :=
  node "property_element" do
    emitAs "name" variableName
    default? rules "default_value"

/-- A rule that settles which of several traits provides a method, or renames it. -/
def useRule : Reader Node :=
  nodeBy do
    let first ← className
    if ← follows "::" then
      emit (wrap "class_constant_access_expression" first (do symbol "::"; emit name))
    else add first
    if (← followingWord) == "insteadof" then
      word "insteadof"
      emit name
      pure "use_instead_of_clause"
    else
      word "as"
      let w ← followingWord
      if modifierKind? w == some "visibility_modifier" then
        let _ ← modifier? ["visibility_modifier"]
        if (← followingWord) != "" then emit name
      else emit name
      pure "use_as_clause"

/-- The use of traits in a class. -/
def traitUse : Reader Node :=
  node "use_declaration" <| closing true do
    word "use"
    commaSeparated (emit className)
    if ← follows "\x7b" then
      emit (node "use_list" (between "\x7b" "\x7d" (whileTrue do
        if ← comes "\x7d" then pure false
        else
          closing true do
            emit useRule
            semicolon
          pure true)))
    else semicolon

/-- Read the end of a method: its body, or nothing. -/
def methodEnd (rules : Rules) : Reader Unit := closing true do
  settleAfter
  if ← comes "\x7b" then emitAs "body" (rules .block) else semicolon

/-- A method, a constant or a property of a class. -/
def member (rules : Rules) (constants : Bool) : Reader Node :=
  nodeBy <| closing true do
    let _ ← attributes? rules
    if (← peekWord) == "use" then stuck
    let count ← modifiers memberModifiers
    let w ← peekWord
    if w == "function" then
      functionHeader rules
      methodEnd rules
      pure "method_declaration"
    else if !constants then stuck
    else if w == "const" then
      constBody rules
      pure "const_declaration"
    else if count == 0 then stuck
    else
      if (← peek) != 0x24 then emitAs "type" typeOf
      commaSeparated (emit (propertyElement rules))
      if ← follows "\x7b" then emit (hookList rules) else semicolon
      pure "property_declaration"

/-- A case of an enumeration. -/
def enumCase (rules : Rules) : Reader Node :=
  node "enum_case" <| closing true do
    let _ ← attributes? rules
    word "case"
    emitAs "name" name
    default? rules "value"
    semicolon

/-- The members of a class between braces. -/
def membersOf (rules : Rules) : Reader Node :=
  node "declaration_list" <| between "\x7b" "\x7d" <| whileTrue do
    if ← comes "\x7d" then pure false
    else
      if (← peekWord) == "use" then emit traitUse else emit (member rules true)
      pure true

/-- The members of an enumeration between braces. -/
def enumMembers (rules : Rules) : Reader Node :=
  node "enum_declaration_list" <| between "\x7b" "\x7d" <| whileTrue do
    if ← comes "\x7d" then pure false
    else if (← peekWord) == "use" then
      emit traitUse
      pure true
    else
      match ← attempt (ahead (do
          let _ ← node "" (do let _ ← attributes? rules)
          word "case")) with
      | some _ => emit (enumCase rules)
      | none => emit (member rules false)
      pure true

/-! ## Classes and their kin -/

/-- A class, an interface, a trait or an enumeration. -/
def classLike (rules : Rules) : Reader Node :=
  nodeBy do
    let _ ← attributes? rules
    let count ← modifiers classModifiers
    let w ← peekWord
    if w == "class" then
      word "class"
      emitAs "name" name
      baseClause?
      interfaceClause?
      emitAs "body" (rules .members)
      pure "class_declaration"
    -- Nothing but a class has modifiers.
    else if 0 < count then stuck
    else if w == "interface" then
      word "interface"
      emitAs "name" name
      baseClause?
      emitAs "body" (rules .members)
      pure "interface_declaration"
    else if w == "trait" then
      word "trait"
      emitAs "name" name
      emitAs "body" (rules .members)
      pure "trait_declaration"
    else
      word "enum"
      emitAs "name" name
      if ← symbol? ":" then
        let backing ← peekName
        if backing == "string" || backing == "int" then
          emit (token "primitive_type" true ((← reading).pos + backing.utf8ByteSize))
        else stuck
      interfaceClause?
      emitAs "body" (enumMembers rules)
      pure "enum_declaration"

/-! ## Namespaces -/

/-- The namespace that follows. -/
def namespaceDefinition (rules : Rules) : Reader Node :=
  node "namespace_definition" <| closing true do
    word "namespace"
    if ← comes "\x7b" then emitAs "body" (rules .block)
    else
      emitAs "name" namespaceName
      if ← follows "\x7b" then emitAs "body" (rules .block) else semicolon

/-- Read the word for what is imported, if it is no class. -/
def importKind? : Reader Unit := do
  let w ← peekWord
  if w == "function" || w == "const" then emitAs "type" (token w false
    ((← reading).pos + w.utf8ByteSize))

/-- One import, with another name for it if one is given. -/
def useClauseOf : Reader Node :=
  node "namespace_use_clause" do
    importKind?
    emit qualified
    if (← followingWord) == "as" then
      word "as"
      emitAs "alias" name

/-- Imports that share a namespace. -/
def useGroup : Reader Unit := do
  importKind?
  emit namespaceName
  symbol "\\"
  emitAs "body" (node "namespace_use_group" (between "\x7b" "\x7d"
    (commaSeparated (emit useClauseOf))))

/-- Imports into a namespace. -/
def useDeclaration : Reader Node :=
  node "namespace_use_declaration" <| closing true do
    word "use"
    orElse useGroup (commaSeparated (emit useClauseOf))
    semicolon

end Seams.Declarations
