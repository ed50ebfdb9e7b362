import Seams.Grammar.Names
import Seams.Grammar.Strings

/-! # Expressions
Operands, what may continue them, and the operators between them. Operators are read by
precedence: an expression at a level takes every operator that binds at least that tightly.
Main definitions:
* **`Expressions.operand`** — an operand with its continuations;
* **`Expressions.operatorAt`** — the binary operator at three given bytes;
* **`Expressions.expressionAt`** — an expression at a level;
* **`Expressions.formalParameters`**, **`Expressions.attributeList`** — what closures share with
  declarations. -/

namespace Seams.Expressions

open Lexis Reader Grammar Names

/-! ## Levels -/

/-- The level of the operand of an assignment. -/
def assignmentLevel : Nat := 4

/-- The level of the conditional operator. -/
def conditionalLevel : Nat := 5

/-- The level of the operand of a sign. -/
def signLevel : Nat := 19

/-- The level of `instanceof`. -/
def instanceLevel : Nat := 20

/-- The level of the operand of `@`. -/
def silenceLevel : Nat := 21

/-- A binary operator. -/
structure Operator where
  /-- The operator as it is written. -/
  text : String
  /-- How tightly it binds. -/
  level : Nat
  /-- Whether it groups from the right. -/
  rightward : Bool := false
  deriving DecidableEq, Repr

/-- The binary operator that the three bytes begin with, the longest one that there is. -/
def operatorAt (a b c : UInt8) : Option Operator :=
  if a == 0x2a then some (if b == 0x2a then ⟨"**", 18, true⟩ else ⟨"*", 17, false⟩)
  else if a == 0x2f then some ⟨"/", 17, false⟩
  else if a == 0x25 then some ⟨"%", 17, false⟩
  else if a == 0x2b then some ⟨"+", 16, false⟩
  else if a == 0x2d then some ⟨"-", 16, false⟩
  else if a == 0x2e then some ⟨".", 14, false⟩
  else if a == 0x3c then
    some (if b == 0x3c then ⟨"<<", 15, false⟩
      else if b == 0x3d then (if c == 0x3e then ⟨"<=>", 12, false⟩ else ⟨"<=", 13, false⟩)
      else if b == 0x3e then ⟨"<>", 12, false⟩ else ⟨"<", 13, false⟩)
  else if a == 0x3e then
    some (if b == 0x3e then ⟨">>", 15, false⟩
      else if b == 0x3d then ⟨">=", 13, false⟩ else ⟨">", 13, false⟩)
  else if a == 0x3d && b == 0x3d then
    some (if c == 0x3d then ⟨"===", 12, false⟩ else ⟨"==", 12, false⟩)
  else if a == 0x21 && b == 0x3d then
    some (if c == 0x3d then ⟨"!==", 12, false⟩ else ⟨"!=", 12, false⟩)
  else if a == 0x26 then some (if b == 0x26 then ⟨"&&", 8, false⟩ else ⟨"&", 11, false⟩)
  else if a == 0x5e then some ⟨"^", 10, false⟩
  else if a == 0x7c then some (if b == 0x7c then ⟨"||", 7, false⟩ else ⟨"|", 9, false⟩)
  else if a == 0x3f && b == 0x3f then some ⟨"??", 6, true⟩
  else none

/-- The binary operator that is the keyword `w`. -/
def keywordOperator? (w : String) : Option Operator :=
  if w == "and" then some ⟨"and", 3, false⟩
  else if w == "xor" then some ⟨"xor", 2, false⟩
  else if w == "or" then some ⟨"or", 1, false⟩
  else none

/-- The operators that assign the result of another operator. -/
def augmentedOperators : List String :=
  ["**=", "*=", "/=", "%=", "+=", "-=", ".=", "<<=", ">>=", "&=", "^=", "|=", "??="]

/-! ## Arguments -/

/-- The words that begin an expression and may not name an argument. -/
def barredLabels : List String :=
  ["print", "clone", "new", "include", "include_once", "require", "require_once", "yield", "list"]

/-- A name that is not also a number, as `e5` is. -/
def plainName : Reader Node := do
  settle
  let src ← source
  let i := (← reading).pos
  if nameEnd src i ≤ floatEnd src i && i < floatEnd src i then stuck else name

/-- The name of an argument and the colon after it. -/
def argumentLabel : Reader Unit := do
  if barredLabels.contains (← peekWord) then stuck
  emitAs "name" plainName
  if (← follows ":") && !(← comes "::") then symbol ":" else stuck

/-- Whether a word for a class is an argument by itself. -/
def comesBareReserved : Reader Bool := do
  if ← comesReserved then
    ahead (do
      let _ ← name
      if ← follows "," then pure true else follows ")")
  else pure false

/-- An argument. -/
def argument (rules : Rules) : Reader Node :=
  node "argument" do
    let _ ← attempt argumentLabel
    if ← comes "&" then emitAs "reference_modifier" referenceModifier
    if ← comes "..." then
      emit (node "variadic_unpacking" do
        symbol "..."
        emit (expression rules))
    else if ← comesBareReserved then emit name
    else emit (expression rules)

/-- The placeholder for all arguments, if it stands alone. -/
def placeholder? : Reader (Option Node) :=
  attempt do
    let n ← node "variadic_placeholder" (symbol "...")
    if ← comes ")" then pure n else stuck

/-- Arguments in parentheses. -/
def arguments (rules : Rules) : Reader Node :=
  node "arguments" <| between "(" ")" do
    if !(← comes ")") then
      match ← placeholder? with
      | some n => add n
      | none =>
        emit (argument rules)
        whileTrue do
          if ← followed? "," then
            if ← comes ")" then pure false
            else
              emit (argument rules)
              pure true
          else pure false

/-! ## Attributes and parameters -/

/-- An attribute. -/
def attributeUse (rules : Rules) : Reader Node :=
  node "attribute" do
    emit className
    if ← follows "(" then emitAs "parameters" (arguments rules)

/-- Attributes in brackets. -/
def attributeGroup (rules : Rules) : Reader Node :=
  node "attribute_group" <| between "#[" "]" do
    emit (attributeUse rules)
    whileTrue do
      if ← followed? "," then
        if ← comes "]" then pure false
        else
          emit (attributeUse rules)
          pure true
      else pure false

/-- Groups of attributes. -/
def attributeList (rules : Rules) : Reader Node :=
  node "attribute_list" do
    emit (attributeGroup rules)
    whileTrue do
      if ← comes "#[" then
        emit (attributeGroup rules)
        pure true
      else pure false

/-- Read groups of attributes if they come next. -/
def attributes? (rules : Rules) : Reader Bool := do
  if ← comes "#[" then
    emitAs "attributes" (attributeList rules)
    pure true
  else pure false

/-- A variable with a name of its own. -/
def variableName : Reader Node :=
  node "variable_name" do
    symbol "$"
    emit name

/-- Read an equals sign and the value after it, if they follow. -/
def default? (rules : Rules) (field : String) : Reader Unit := do
  if (← follows "=") then
    symbol "="
    emitAs field (expression rules)

/-- A type, if a parameter does not begin with its variable. -/
def parameterType? : Reader Unit := do
  let c ← peek
  if c != 0x24 && c != 0x26 && !(← comes "...") then emitAs "type" typeOf

/-- The body of a property hook. -/
def hookBody (rules : Rules) : Reader Unit := do
  if ← follows "=>" then
    symbol "=>"
    emitAs "body" (closing true (expression rules))
    semicolon
  else if ← comes "\x7b" then emitAs "body" (rules .block)
  else semicolon

/-- The parameters of a property hook or a function, in terms of one parameter. -/
def parameterList (parameter : Reader Unit) : Reader Node :=
  node "formal_parameters" <| between "(" ")" do
    if !(← comes ")") then
      if ← comes "," then symbol ","
      else
        parameter
        whileTrue do
          if ← followed? "," then
            if ← comes ")" then pure false
            else
              parameter
              pure true
          else pure false

/-- A parameter without modifiers; after three points it takes the rest of the arguments. -/
def plainParameter (rules : Rules) : Reader Node :=
  nodeBy do
    let _ ← attributes? rules
    parameterType?
    if ← comes "&" then emitAs "reference_modifier" referenceModifier
    if ← symbol? "..." then
      emitAs "name" variableName
      pure "variadic_parameter"
    else
      emitAs "name" variableName
      default? rules "default_value"
      pure "simple_parameter"

/-- The hooks of a property, each with its own parameters. -/
def hookList (rules : Rules) : Reader Node :=
  node "property_hook_list" <| between "\x7b" "\x7d" <| whileTrue do
    if ← comes "\x7d" then pure false
    else
      emit (node "property_hook" (closing true do
        let _ ← attributes? rules
        let _ ← modifiers ["final_modifier"]
        if ← comes "&" then emit referenceModifier
        emit name
        if ← follows "(" then
          emitAs "parameters" (parameterList (closing false (emit (plainParameter rules))))
        hookBody rules))
      pure true

/-- A parameter that declares a property. -/
def promotedParameter (rules : Rules) : Reader Node :=
  node "property_promotion_parameter" do
    let _ ← attributes? rules
    if (← modifiers parameterModifiers) == 0 then stuck
    parameterType?
    if ← comes "&" then
      emitAs "name" (node "by_ref" (do symbol "&"; emit variableName))
    else emitAs "name" variableName
    default? rules "default_value"
    if ← follows "\x7b" then emit (hookList rules)

/-- Whether a parameter has modifiers. -/
def comesPromoted (rules : Rules) : Reader Bool :=
  ahead (do
    let s ← attempt (node "" (do
      let _ ← attributes? rules
      if (← modifiers parameterModifiers) == 0 then stuck))
    pure s.isSome)

/-- The parameters of a function. -/
def formalParameters (rules : Rules) : Reader Node :=
  parameterList do
    if ← comesPromoted rules then emit (promotedParameter rules)
    else emit (plainParameter rules)

/-! ## Closures -/

/-- What a function without a name takes along from outside. -/
def useClause : Reader Node :=
  node "anonymous_function_use_clause" do
    word "use"
    between "(" ")" do
      let captured : Reader Unit := do
        if ← comes "&" then emit (node "by_ref" (do symbol "&"; emit variableName))
        else emit variableName
      captured
      whileTrue do
        if ← followed? "," then
          if ← comes ")" then pure false
          else
            captured
            pure true
        else pure false

/-- A function without a name. -/
def closure (rules : Rules) : Reader Node := do
  let short ← ahead (do
    let _ ← node "" (do let _ ← attributes? rules)
    let _ ← word? "static"
    pure ((← peekWord) == "fn"))
  if short then
    node "arrow_function" do
      let _ ← attributes? rules
      if (← peekWord) == "static" then emit (wordNode "static_modifier" "static")
      word "fn"
      if ← comes "&" then emitAs "reference_modifier" referenceModifier
      emitAs "parameters" (formalParameters rules)
      returnType
      symbol "=>"
      emitAs "body" (expression rules)
  else
    node "anonymous_function" do
      let _ ← attributes? rules
      if (← peekWord) == "static" then emit (wordNode "static_modifier" "static")
      word "function"
      if ← comes "&" then emitAs "reference_modifier" referenceModifier
      emitAs "parameters" (formalParameters rules)
      if (← peekWord) == "use" then emit useClause
      returnType
      emitAs "body" (rules .block)

/-! ## Objects -/

/-- A variable without continuations. -/
def variable_ (rules : Rules) : Reader Node := do
  let c ← ahead (do symbol "$"; peek)
  if c == 0x24 then
    node "dynamic_variable_name" do
      symbol "$"
      emit (rules .variable)
  else if c == 0x7b then
    node "dynamic_variable_name" do
      symbol "$"
      between "\x7b" "\x7d" (emit (expression rules))
  else variableName

/-- Read the name of a member. -/
def memberName (rules : Rules) : Reader Unit := do
  let c ← peek
  if c == 0x7b then between "\x7b" "\x7d" (emitAs "name" (expression rules))
  else if c == 0x24 then emitAs "name" (variable_ rules)
  else emitAs "name" name

/-- Continue the reference to a class by elements and members, but not by calls. -/
def referenceSteps (rules : Rules) (n : Node) : Reader Node :=
  repeating (fun n => do
    settleAfter
    if variableKinds.contains n.kind && (← comes "[") then
      pure (.inl (← wrap "subscript_expression" n (between "[" "]" (do
        if !(← comes "]") then emit (expression rules)))))
    else if variableKinds.contains n.kind && (← comes "->") then
      pure (.inl (← wrap "member_access_expression" (n.withField "object")
        (do symbol "->"; memberName rules)))
    else if variableKinds.contains n.kind && (← comes "?->") then
      pure (.inl (← wrap "nullsafe_member_access_expression" (n.withField "object")
        (do symbol "?->"; memberName rules)))
    else if ← comes "::" then
      pure (.inl (← wrap "scoped_property_access_expression" (n.withField "scope")
        (do symbol "::"; emitAs "name" (variable_ rules))))
    else pure (.inr n)) n

/-- The reference to a class after `new` or `instanceof`. -/
def classReference (rules : Rules) : Reader Node := do
  let c ← peek
  if c == 0x24 then referenceSteps rules (← variable_ rules)
  else if c == 0x28 then parenthesized rules
  else referenceSteps rules (← qualified)

/-- Read the classes that a class extends. -/
def baseClause? : Reader Unit := do
  if (← peekWord) == "extends" then
    emit (node "base_clause" do
      word "extends"
      commaSeparated (emit className))

/-- Read the interfaces that a class implements. -/
def interfaceClause? : Reader Unit := do
  if (← peekWord) == "implements" then
    emit (node "class_interface_clause" do
      word "implements"
      commaSeparated (emit className))

/-- A class without a name. -/
def anonymousClass (rules : Rules) : Reader Node :=
  node "anonymous_class" do
    let _ ← attributes? rules
    let _ ← modifiers classModifiers
    word "class"
    if ← comes "(" then emit (arguments rules)
    baseClause?
    interfaceClause?
    emitAs "body" (rules .members)

/-- The creation of an object. -/
def creation (rules : Rules) : Reader Node :=
  node "object_creation_expression" do
    word "new"
    let w ← peekWord
    if (← comes "#[") || w == "class" || (modifierKind? w).any classModifiers.contains then
      emit (anonymousClass rules)
    else
      emit (classReference rules)
      if ← follows "(" then emit (arguments rules)

/-! ## Arrays and patterns -/

/-- A place that is taken by reference. -/
def byReference (rules : Rules) : Reader Node :=
  node "by_ref" do
    symbol "&"
    let v ← rules .operand
    if v.isVariable then add v else refuse v

/-- An expression or a reference. -/
def valueOrReference (rules : Rules) : Reader Node := do
  if ← comes "&" then byReference rules else rules .target

/-- Whether a node is a pattern and nothing else. -/
def isPattern (n : Node) : Bool := n.kind == "list_literal"

/-- Read an element of an array. The answer tells whether a pattern stands in it. -/
def arrayElement (rules : Rules) : Reader Bool := do
  let (n, patterns) ← nodeWith "array_element_initializer" do
    if ← comes "..." then
      emit (node "variadic_unpacking" do
        symbol "..."
        emit (expression rules))
      pure false
    else
      let first ← valueOrReference rules
      add first
      if ← followed? "=>" then
        if isPattern first || first.kind == "by_ref" then stuck
        let second ← valueOrReference rules
        add second
        pure (isPattern second)
      else pure (isPattern first)
  add n
  pure patterns

/-- Read the elements up to the closing symbol. The answer tells whether the whole can only be a
pattern, because a place for an element is empty or a pattern stands in one. -/
def arrayElements (rules : Rules) (right : String) : Reader Bool := do
  let slot : Reader (Bool × Bool) := do
    if (← comes ",") || (← comes right) then pure (true, false)
    else
      let p ← arrayElement rules
      pure (false, p)
  let first ← slot
  let (holes, last, pattern, count) ← repeating
    (fun (holes, last, pattern, count) => do
      if ← followed? "," then
        let (e, p) ← slot
        pure (.inl (holes || last, e, pattern || p, count + 1))
      else pure (.inr (holes, last, pattern, count))) (false, first.1, first.2, 0)
  let lone := count == 1 && last && first.1
  pure (pattern || (holes && !lone))

/-- Whether a single equals sign follows. -/
def assigned : Reader Bool := do
  pure ((← follows "=") && !(← comes "==") && !(← comes "=>"))

/-- An array in brackets, as a pattern if it is assigned to or can be nothing else. -/
def bracketed (rules : Rules) : Reader Node := do
  let (n, onlyPattern) ← nodeWith "array_creation_expression" do
    symbol "["
    let p ← closing false (arrayElements rules "]")
    symbol "]"
    pure p
  match n.asPattern? with
  | some p => if onlyPattern || (← assigned) then pure p else pure n
  | none => if onlyPattern then refuse n else pure n

/-- An array after the keyword. -/
def arrayCall (rules : Rules) : Reader Node :=
  node "array_creation_expression" do
    word "array"
    between "(" ")" do
      if ← arrayElements rules ")" then stuck

/-- Whether a node may take a value in a pattern after the keyword `list`. -/
def isListTarget (n : Node) : Bool :=
  n.isVariable || n.kind == "by_ref"
    || (isPattern n && (match n.children with | c :: _ => c.kind == "list" | [] => false))

/-- A pattern after the keyword `list`. -/
def listPattern (rules : Rules) : Reader Node :=
  node "list_literal" do
    word "list"
    between "(" ")" <| commaSeparated do
      if !(← comes ",") && !(← comes ")") then
        let first ← valueOrReference rules
        add first
        if ← followed? "=>" then
          if isPattern first || first.kind == "by_ref" then stuck
          let second ← valueOrReference rules
          if isListTarget second then add second else refuse second
        else if !isListTarget first then stuck

/-! ## Other operands -/

/-- An alternative of a `match`. -/
def matchArm (rules : Rules) : Reader Node :=
  nodeBy do
    let plainDefault ← attempt (ahead (do
      word "default"
      if ← follows "=>" then pure () else stuck))
    if plainDefault.isSome then
      word "default"
      symbol "=>"
      emitAs "return_expression" (expression rules)
      pure "match_default_expression"
    else
      emitAs "conditional_expressions" (node "match_condition_list" do
        emit (expression rules)
        whileTrue do
          if ← followed? "," then
            if ← comes "=>" then pure false
            else
              emit (expression rules)
              pure true
          else pure false)
      symbol "=>"
      emitAs "return_expression" (expression rules)
      pure "match_conditional_expression"

/-- A `match` expression. -/
def matching (rules : Rules) : Reader Node :=
  node "match_expression" do
    word "match"
    emitAs "condition" (parenthesized rules)
    emitAs "body" (node "match_block" <| between "\x7b" "\x7d" do
      if ← comes "," then symbol ","
      else if !(← comes "\x7d") then
        emit (matchArm rules)
        whileTrue do
          if ← followed? "," then
            if ← comes "\x7d" then pure false
            else
              emit (matchArm rules)
              pure true
          else pure false)

/-- The words that begin an expression, in place of a name. -/
def expressionWords : List String := ["and", "or", "xor", "as", "instanceof"]

/-- Whether an operand begins here. -/
def comesOperand : Reader Bool := do
  settleAfter
  if (← reading).closed then pure false
  else
    let c ← peek
    if c == 0 || c == 0x3b || c == 0x29 || c == 0x5d || c == 0x7d || c == 0x2c || c == 0x3a
        || c == 0x3f || c == 0x2a || c == 0x2f || c == 0x25 || c == 0x5e || c == 0x7c
        || c == 0x3d || c == 0x3e then pure false
    else if c == 0x3c then comes "<<<"
    else if c == 0x21 then pure !(← comes "!=")
    else if c == 0x26 then pure !(← comes "&&")
    else pure !(expressionWords.contains (← peekWord))

/-- A `yield` expression. -/
def yielding (rules : Rules) : Reader Node :=
  node "yield_expression" do
    word "yield"
    if (← followingWord) == "from" then
      word "from"
      emit (expression rules)
    else if ← comesOperand then
      let p ← arrayElement rules
      if p then stuck

/-- An expression after a keyword. -/
def afterWord (rules : Rules) (kind w : String) : Reader Node :=
  node kind do
    word w
    emit (expression rules)

/-- The words that denote a type to convert to. -/
def castWords : List String :=
  ["array", "binary", "bool", "boolean", "double", "int", "integer", "float", "object", "real",
   "string", "unset"]

/-- Whether a conversion begins here: the name of a type in parentheses. -/
def comesCast : Reader Bool := do
  let found ← attempt (ahead (do
    symbol "("
    if castWords.contains (← peekWord) then
      let _ ← name
      symbol ")"
    else stuck))
  pure found.isSome

/-- A conversion. -/
def cast (rules : Rules) : Reader Node :=
  node "cast_expression" do
    symbol "("
    emitAs "type" (do
      let src ← source
      settle
      token "cast_type" true (nameEnd src (← reading).pos))
    symbol ")"
    let v ← rules .operand
    if v.kind == "yield_expression" || v.kind == "match_expression" || isPattern v then refuse v
    add (v.withField "value")

/-- A number, or a name where the number is not longer. -/
def numberOrName : Reader Node := do
  settle
  let src ← source
  let i := (← reading).pos
  let n := nameEnd src i
  let f := floatEnd src i
  let k := integerEnd src i
  if i < f && n ≤ f && k ≤ f then token "float" true f
  else if i < k && n ≤ k then token "integer" true k
  else qualified

/-- A word for a class, where what follows makes it an operand. -/
def reserved : Reader Node := do
  let qualifies ← ahead (do
    let _ ← name
    follows "::")
  if qualifies then
    node "relative_scope" do
      let w ← peekWord
      word w
  else
    let w ← peekWord
    let n ← name
    if (← follows "(") || (← comes "[") || (← comes "->") || (← comes "?->") then pure n
    else refuse (if w == "static" then Node.leaf w false n.start n.stop else n)

/-- An operand that begins with a name or a keyword. -/
def wordOperand (rules : Rules) (w : String) : Reader Node := do
  match w with
  | "true" => token "boolean" true ((← reading).pos + 4)
  | "false" => token "boolean" true ((← reading).pos + 5)
  | "null" => token "null" true ((← reading).pos + 4)
  | "array" => arrayCall rules
  | "list" => listPattern rules
  | "print" => afterWord rules "print_intrinsic" "print"
  | "throw" => afterWord rules "throw_expression" "throw"
  | "include" => afterWord rules "include_expression" "include"
  | "include_once" => afterWord rules "include_once_expression" "include_once"
  | "require" => afterWord rules "require_expression" "require"
  | "require_once" => afterWord rules "require_once_expression" "require_once"
  | "clone" =>
    node "clone_expression" do
      word "clone"
      let v ← rules .operand
      if v.isPrimary then add v else refuse v
  | "new" => creation rules
  | "match" => matching rules
  | "yield" => yielding rules
  | "fn" => closure rules
  | "function" => closure rules
  | "static" =>
    let next ← ahead (do let _ ← name; peekWord)
    if next == "fn" || next == "function" then closure rules else reserved
  | _ => if ← comesReserved then reserved else numberOrName

/-- An operand without continuations. -/
def bareOperand (rules : Rules) : Reader Node := do
  let c ← peek
  let n ← peekAt 1
  if c == 0x24 then variable_ rules
  else if c == 0x27 then Strings.string
  else if c == 0x22 then Strings.encapsed rules
  -- A letter b right in front of a quote belongs to the string.
  else if (c == 0x62 || c == 0x42) && n == 0x27 then Strings.string
  else if (c == 0x62 || c == 0x42) && n == 0x22 then Strings.encapsed rules
  else if c == 0x60 then Strings.command rules
  else if c == 0x3c then
    if ← comes "<<<" then Strings.document rules else stuck
  else if c == 0x28 then
    if ← comesCast then cast rules else parenthesized rules
  else if c == 0x5b then bracketed rules
  else if c == 0x23 then closure rules
  else if (c == 0x2b && n == 0x2b) || (c == 0x2d && n == 0x2d) then
    node "update_expression" do
      symbol (if c == 0x2b then "++" else "--")
      let v ← rules .operand
      if v.isVariable then add (v.withField "argument") else refuse v
  else if c == 0x2b || c == 0x2d || c == 0x7e || c == 0x21 then
    node "unary_op_expression" do
      symbol (if c == 0x2b then "+" else if c == 0x2d then "-" else if c == 0x7e then "~" else "!")
      emitAs "argument" (rules (.expression signLevel))
  else if c == 0x40 then
    node "error_suppression_expression" do
      symbol "@"
      emit (rules (.expression silenceLevel))
  else wordOperand rules (← peekWord)

/-! ## Continuations -/

/-- Access to a member, or a call of it if arguments follow. -/
def memberStep (rules : Rules) (n : Node) (op access call : String) : Reader Node :=
  wrapBy (n.withField "object") do
    symbol op
    memberName rules
    if ← follows "(" then
      emitAs "arguments" (arguments rules)
      pure call
    else pure access

/-- What stands behind a double colon: a property, a constant or a call. -/
def scopeStep (rules : Rules) (n : Node) : Reader Node :=
  wrapBy (n.withField "scope") do
    symbol "::"
    let c ← peek
    memberName rules
    if ← follows "(" then
      emitAs "arguments" (arguments rules)
      pure "scoped_call_expression"
    else if c == 0x24 then pure "scoped_property_access_expression"
    else pure "class_constant_access_expression"

/-- Continue an operand by as many elements, members, calls and updates as follow. -/
def continued (rules : Rules) (n : Node) : Reader Node :=
  repeating (fun n => do
    settleAfter
    let c ← peek
    let d ← peekAt 1
    if c == 0x5b && n.isReachable then
      pure (.inl (← wrap "subscript_expression" n (between "[" "]" (do
        if !(← comes "]") then emit (expression rules)))))
    else if c == 0x2d && d == 0x3e && n.isReachable then
      pure (.inl (← memberStep rules n "->" "member_access_expression" "member_call_expression"))
    else if c == 0x3f && (← comes "?->") && n.isReachable then
      pure (.inl (← memberStep rules n "?->" "nullsafe_member_access_expression"
        "nullsafe_member_call_expression"))
    else if c == 0x3a && d == 0x3a && n.isReachable then
      pure (.inl (← scopeStep rules n))
    else if c == 0x28 && n.isCallable then
      pure (.inl (← wrap "function_call_expression" (n.withField "function")
        (emitAs "arguments" (arguments rules))))
    -- An update ends the operand: nothing can be reached through it.
    else if ((c == 0x2b && d == 0x2b) || (c == 0x2d && d == 0x2d)) && n.isVariable then
      pure (.inr (← wrap "update_expression" (n.withField "argument")
        (symbol (if c == 0x2b then "++" else "--"))))
    else pure (.inr n)) n

/-- An operand with its continuations. -/
def operand (rules : Rules) : Reader Node := do
  continued rules (← bareOperand rules)

/-! ## Operators -/

/-- An operand, with an assignment to it if one follows. -/
def assignment (rules : Rules) (n : Node) : Reader Node := do
  let right : Reader Unit := emitAs "right" (rules (.expression assignmentLevel))
  if n.isVariable || isPattern n then
    if ← assigned then
      wrapBy (n.withField "left") do
        symbol "="
        if ← comes "&" then
          symbol "&"
          right
          pure "reference_assignment_expression"
        else
          right
          pure "assignment_expression"
    -- A pattern stands for no value, so it cannot be part of a sum.
    else if isPattern n then pure n
    else
      let mut found := ""
      for op in augmentedOperators do
        if found.isEmpty && (← comes op) then found := op
      if found.isEmpty then pure n
      else
        wrap "augmented_assignment_expression" (n.withField "left") do
          symbol found
          right
  else pure n

/-- Extend an expression by one operator of at least the given level, if one follows. -/
def operatorStep (rules : Rules) (level : Nat) (n : Node) : Reader (Node ⊕ Node) := do
  settleAfter
  let c ← peek
  if c == 0 || isPattern n then pure (.inr n)
  else
    let d ← peekAt 1
    let e ← peekAt 2
    let w ← if isLetter c then peekWord else pure ""
    if w == "instanceof" then
      -- What stands on the right is a class and no operand, so it takes no level.
      if level ≤ instanceLevel && n.isTight then
        pure (.inl (← wrap "binary_expression" (n.withField "left") (do
          word "instanceof"
          emitAs "right" (classReference rules))))
      else pure (.inr n)
    else if c == 0x3f && d != 0x3f then
      if level ≤ conditionalLevel then
        pure (.inl (← wrap "conditional_expression" (n.withField "condition") (do
          symbol "?"
          -- The middle may be missing; two colons begin a name and not the last part.
          if !((← comes ":") && !(← comes "::")) then
            emitAs "body" (closing false (expression rules))
          symbol ":"
          emitAs "alternative" (rules (.expression (conditionalLevel + 1))))))
      else pure (.inr n)
    else
      match (if w.isEmpty then operatorAt c d e else keywordOperator? w) with
      | some op =>
        -- Operators of one level group to the left, unless they are rightward.
        if level ≤ op.level then
          pure (.inl (← wrap "binary_expression" (n.withField "left") (do
            if w.isEmpty then symbol op.text else word op.text
            emitAs "right"
              (rules (.expression (if op.rightward then op.level else op.level + 1))))))
        else pure (.inr n)
      | none => pure (.inr n)

/-- An expression at a level, or a pattern. -/
def targetAt (rules : Rules) (level : Nat) : Reader Node := do
  let first ← operand rules
  let left ← assignment rules first
  repeating (operatorStep rules level) left

/-- An expression at a level. -/
def expressionAt (rules : Rules) (level : Nat) : Reader Node := do
  let n ← targetAt rules level
  if isPattern n then refuse n else pure n

end Seams.Expressions
