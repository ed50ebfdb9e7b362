import Seams.Grammar.Declarations

/-! # Statements
Main definitions:
* **`Statements.statement`** — a statement;
* **`Statements.statements`** — statements up to what may not begin one;
* **`Statements.block`** — statements between braces. -/

namespace Seams.Statements

open Lexis Reader Grammar Names Expressions Declarations

/-- Read statements up to one of the given keywords, a closing brace or the end of the source. -/
def statements (rules : Rules) (stops : List String) : Reader Unit :=
  whileTrue do
    let c ← peek
    if c == 0x7d || (← atEnd) then pure false
    else if !stops.isEmpty && stops.contains (← peekWord) then pure false
    else
      emit (rules .statement)
      pure true

/-- Statements between braces. -/
def block (rules : Rules) : Reader Node :=
  node "compound_statement" do
    symbol "\x7b"
    statements rules []
    symbol "\x7d"

/-- Statements after a colon, up to one of the given keywords. -/
def colonBlock (rules : Rules) (stops : List String) : Reader Node :=
  node "colon_block" do
    symbol ":"
    statements rules stops

/-- One expression, or several with commas between them. -/
def expressions (rules : Rules) : Reader Node := do
  let first ← expression rules
  if ← follows "," then
    wrap "sequence_expression" first (whileTrue do
      if ← followed? "," then
        emit (expression rules)
        pure true
      else pure false)
  else pure first

/-! ## Branches and loops -/

/-- Whether the alternative that comes next has a colon, and so belongs to a conditional statement
with colons around this one. -/
def comesColonAlternative (rules : Rules) : Reader Bool := do
  let found ← attempt (ahead (do
    if ← word? "elseif" then
      let _ ← parenthesized rules
    else word "else"
    comes ":"))
  pure (found == some true)

/-- Read the rest of a conditional statement without colons, as far as it belongs to it. -/
def alternatives (rules : Rules) : Reader Unit := do
  whileTrue do
    if (← peekWord) == "elseif" && !(← comesColonAlternative rules) then
      emitAs "alternative" (node "else_if_clause" (do
        word "elseif"
        emitAs "condition" (parenthesized rules)
        emitAs "body" (rules .statement)))
      pure true
    else pure false
  if (← peekWord) == "else" && !(← comesColonAlternative rules) then
    emitAs "alternative" (node "else_clause" (do
      word "else"
      emitAs "body" (rules .statement)))

/-- Read the rest of a conditional statement with colons. -/
def colonAlternatives (rules : Rules) : Reader Unit := do
  let stops := ["elseif", "else", "endif"]
  whileTrue do
    if (← peekWord) == "elseif" then
      emitAs "alternative" (node "else_if_clause" (do
        word "elseif"
        emitAs "condition" (parenthesized rules)
        emitAs "body" (colonBlock rules stops)))
      pure true
    else pure false
  if (← peekWord) == "else" then
    emitAs "alternative" (node "else_clause" (do
      word "else"
      emitAs "body" (colonBlock rules ["endif"])))
  word "endif"
  semicolon

/-- A conditional statement. -/
def conditional (rules : Rules) : Reader Node :=
  node "if_statement" do
    word "if"
    emitAs "condition" (parenthesized rules)
    if ← comes ":" then
      emitAs "body" (colonBlock rules ["elseif", "else", "endif"])
      colonAlternatives rules
    else
      emitAs "body" (rules .statement)
      alternatives rules

/-- A loop that tests before each round. -/
def whileLoop (rules : Rules) : Reader Node :=
  node "while_statement" do
    word "while"
    emitAs "condition" (parenthesized rules)
    if ← comes ":" then
      emitAs "body" (colonBlock rules ["endwhile"])
      word "endwhile"
      semicolon
    else emitAs "body" (rules .statement)

/-- A loop that tests after each round. -/
def doLoop (rules : Rules) : Reader Node :=
  node "do_statement" do
    word "do"
    emitAs "body" (rules .statement)
    word "while"
    emitAs "condition" (parenthesized rules)
    semicolon

/-- Read the body of a loop that may also be empty. -/
def loopBody (rules : Rules) (colon : Reader Unit) : Reader Unit := closing true do
  settleAfter
  if (← reading).closed || (← comes ";") then semicolon
  else if ← comes ":" then colon
  else emitAs "body" (rules .statement)

/-- A counting loop. -/
def forLoop (rules : Rules) : Reader Node :=
  node "for_statement" do
    word "for"
    between "(" ")" do
      let part (field stop : String) : Reader Unit := do
        if !(← comes stop) then emitAs field (expressions rules)
      part "initialize" ";"
      symbol ";"
      part "condition" ";"
      symbol ";"
      part "update" ")"
    loopBody rules do
      symbol ":"
      statements rules ["endfor"]
      word "endfor"
      semicolon

/-- What each element is assigned to in a loop over elements. -/
def eachTarget (rules : Rules) : Reader Node := do
  if ← comes "&" then byReference rules
  else
    let n ← rules .target
    pure (n.asPattern?.getD n)

/-- A loop over elements. -/
def eachLoop (rules : Rules) : Reader Node :=
  node "foreach_statement" do
    word "foreach"
    between "(" ")" do
      emit (expression rules)
      if (← followingWord) == "as" then word "as" else stuck
      if ← comes "&" then emit (byReference rules)
      else
        let first ← rules .target
        if ← follows "=>" then
          if isPattern first then refuse first
          emit (wrap "pair" first (do
            symbol "=>"
            emit (eachTarget rules)))
        else add (first.asPattern?.getD first)
    loopBody rules do
      emitAs "body" (colonBlock rules ["endforeach"])
      word "endforeach"
      semicolon

/-- Read a colon or a semicolon. -/
def caseMark : Reader Unit := do
  if ← follows ":" then symbol ":" else symbol ";"

/-- A case of a switch. -/
def caseOf (rules : Rules) (stops : List String) : Reader Node :=
  nodeBy do
    if (← peekWord) == "case" then
      word "case"
      emitAs "value" (closing false (expression rules))
      caseMark
      statements rules stops
      pure "case_statement"
    else
      word "default"
      caseMark
      statements rules stops
      pure "default_statement"

/-- A switch. -/
def switching (rules : Rules) : Reader Node :=
  node "switch_statement" do
    word "switch"
    emitAs "condition" (parenthesized rules)
    emitAs "body" (node "switch_block" do
      let cases (stops : List String) : Reader Unit := whileTrue do
        let w ← peekWord
        if w == "case" || w == "default" then
          emit (caseOf rules stops)
          pure true
        else pure false
      if ← symbol? "\x7b" then
        cases ["case", "default"]
        symbol "\x7d"
      else
        symbol ":"
        cases ["case", "default", "endswitch"]
        word "endswitch"
        semicolon)

/-! ## Other statements -/

/-- A statement with handlers for exceptions. -/
def trying (rules : Rules) : Reader Node :=
  node "try_statement" do
    word "try"
    emitAs "body" (rules .block)
    let handler : Reader Bool := do
      let w ← peekWord
      if w == "catch" then
        emit (node "catch_clause" do
          word "catch"
          between "(" ")" do
            emitAs "type" (node "type_list" do
              let caught : Reader Unit := emit (node "named_type" (emit qualified))
              caught
              whileTrue do
                if ← followed? "|" then
                  caught
                  pure true
                else pure false)
            if ← follows "$" then emitAs "name" variableName
          emitAs "body" (rules .block))
        pure true
      else if w == "finally" then
        emit (node "finally_clause" do
          word "finally"
          emitAs "body" (rules .block))
        pure true
      else pure false
    if ← handler then whileTrue handler else stuck

/-- Directives for the compiler. -/
def declaring (rules : Rules) : Reader Node :=
  node "declare_statement" do
    word "declare"
    between "(" ")" do
      emit (node "declare_directive" do
        let w ← peekName
        if ["ticks", "encoding", "strict_types"].contains w then symbol w else stuck
        symbol "="
        let v ← bareOperand rules
        if ["integer", "float", "string", "encapsed_string", "heredoc", "nowdoc", "boolean",
            "null"].contains v.kind then add v else refuse v)
    loopBody rules do
      symbol ":"
      statements rules ["enddeclare"]
      word "enddeclare"
      semicolon

/-- A statement that a keyword opens and an expression may follow. -/
def jump (rules : Rules) (kind w : String) : Reader Node :=
  node kind do
    word w
    settleAfter
    if !(← reading).closed && !(← comes ";") then emit (expression rules)
    semicolon

/-- The end of the program. -/
def exiting (rules : Rules) : Reader Node :=
  node "exit_statement" do
    word "exit"
    if ← follows "(" then
      between "(" ")" do
        if !(← comes ")") then emit (expression rules)
    semicolon

/-- The removal of variables. -/
def unsetting (rules : Rules) : Reader Node :=
  node "unset_statement" do
    symbol "unset"
    between "(" ")" do
      let place : Reader Unit := do
        let v ← rules .operand
        if v.isVariable then add v else refuse v
      place
      whileTrue do
        if ← followed? "," then
          if ← comes ")" then pure false
          else
            place
            pure true
        else pure false
    semicolon

/-- Variables that keep their values between calls. -/
def staticVariables (rules : Rules) : Reader Node :=
  node "function_static_declaration" do
    word "static"
    commaSeparated (emit (node "static_variable_declaration" do
      emitAs "name" variableName
      default? rules "value"))
    semicolon

/-- An expression as a statement. -/
def expressionStatement (rules : Rules) : Reader Node :=
  node "expression_statement" do
    emit (expression rules)
    semicolon

/-- A label, if one stands here. -/
def label? : Reader (Option Node) :=
  attempt (node "named_label_statement" do
    emit plainName
    if (← follows ":") && !(← comes "::") then symbol ":" else stuck)

/-- The words that begin an expression and so name no label. -/
def unlabelledWords : List String :=
  ["array", "list", "print", "throw", "include", "include_once", "require", "require_once", "clone",
   "new", "match", "yield", "fn", "function", "true", "false", "null", "static", "self", "parent"]

/-- A statement that begins with attributes. -/
def attributed (rules : Rules) : Reader Node := do
  let next ← ahead (do
    let _ ← node "" (do let _ ← attributes? rules)
    let w ← peekWord
    if w == "function" then
      pure (if ← comesFunction then "named" else "closure")
    else pure w)
  if next == "named" then functionDefinition rules
  else if next == "closure" || next == "fn" || next == "static" then expressionStatement rules
  else classLike rules

/-- A statement that begins with a name or a keyword. -/
def wordStatement (rules : Rules) (w : String) : Reader Node := do
  match w with
  | "if" => conditional rules
  | "switch" => switching rules
  | "while" => whileLoop rules
  | "do" => doLoop rules
  | "for" => forLoop rules
  | "foreach" => eachLoop rules
  | "goto" =>
    node "goto_statement" do
      word "goto"
      emit name
      semicolon
  | "continue" => jump rules "continue_statement" "continue"
  | "break" => jump rules "break_statement" "break"
  | "return" => jump rules "return_statement" "return"
  | "try" => trying rules
  | "declare" => declaring rules
  | "echo" =>
    node "echo_statement" do
      word "echo"
      emit (expressions rules)
      semicolon
  | "exit" => exiting rules
  | "const" => node "const_declaration" (constBody rules)
  | "function" =>
    if ← comesFunction then functionDefinition rules else expressionStatement rules
  | "class" => classLike rules
  | "abstract" => classLike rules
  | "final" => classLike rules
  | "readonly" => classLike rules
  | "interface" => classLike rules
  | "trait" => classLike rules
  | "enum" => classLike rules
  | "namespace" => namespaceDefinition rules
  | "use" => useDeclaration
  | "global" =>
    node "global_declaration" do
      word "global"
      commaSeparated (emit (rules .variable))
      semicolon
  | "static" =>
    let c ← ahead (do let _ ← name; peek)
    if c == 0x24 then staticVariables rules else expressionStatement rules
  | _ =>
    if (← peekName) == "unset" then unsetting rules
    else if unlabelledWords.contains w then expressionStatement rules
    else
      -- A word is a label where a colon follows, and begins an expression elsewhere.
      match ← label? with
      | some n => pure n
      | none => expressionStatement rules

/-- A statement. -/
def statement (rules : Rules) : Reader Node := closing true do
  let c ← peek
  if c == 0x7b then rules .block
  else if c == 0x3b then node "empty_statement" (symbol ";")
  else if c == 0x23 then attributed rules
  else if isLetter c || c == 0x5f || 0x80 ≤ c then wordStatement rules (← peekWord)
  else expressionStatement rules

end Seams.Statements
