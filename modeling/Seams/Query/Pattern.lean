import Seams.Query.Vocabulary

/-! # Patterns
A query is written as nested parentheses. `(kind …)` stands for a named node of that kind, `(_)` for
any named node, `role:` in front of a part says what the part is in its parent, and `@word` behind
a part gives a name to what it finds.
Main definitions:
* **`Pattern`** — a pattern for nodes;
* **`Query.compile?`** — the patterns of a text, if it is well-formed and uses known words alone;
* **`Query.callsText`**, **`Query.methodsText`** — the queries for calls and for methods. -/

namespace Seams

/-- A pattern for nodes. -/
inductive Pattern where
  /-- A node of the kind, or of any kind if it is `_`, that plays the role if one is given, with
  children for the parts in their order. What is found is kept under the given names. -/
  | mk (kind : String) (role : Option String) (parts : List Pattern) (names : List String)
  deriving Repr

namespace Pattern

/-- The pattern, keeping what it finds under one more name. -/
def withName (name : String) : Pattern → Pattern
  | mk kind role parts names => mk kind role parts (names ++ [name])

end Pattern

/-- Patterns to be looked for in a tree. -/
structure Query where
  /-- The patterns. -/
  patterns : List Pattern
  /-- The names under which something may be kept, in the order of the text. -/
  names : List String

namespace Query

/-! ## Words -/

/-- A word of the text of a query. -/
inductive Word where
  /-- An opening parenthesis. -/
  | opening
  /-- A closing parenthesis. -/
  | closing
  /-- The role of the part behind it. -/
  | role (name : String)
  /-- The name for what the part before it finds. -/
  | name (name : String)
  /-- A kind of nodes. -/
  | plain (text : String)
  /-- What is no word. -/
  | bad
  deriving DecidableEq

/-- Whether a character may stand in a word. -/
def isWordChar (c : Char) : Bool := c.isAlphanum || c == '_' || c == '-' || c == '.'

theorem length_dropWhile_le (p : Char → Bool) (cs : List Char) :
    (cs.dropWhile p).length ≤ cs.length :=
  (List.dropWhile_sublist p).length_le

/-- The words of a text. Text after a semicolon is a remark up to the end of its line. -/
def words : List Char → List Word
  | [] => []
  | c :: cs =>
    if c == '(' then .opening :: words cs
    else if c == ')' then .closing :: words cs
    else if c == ';' then words (cs.dropWhile (· != '\n'))
    else if c == ' ' || c == '\t' || c == '\n' || c == '\r' then words cs
    else if c == '@' then
      (if (cs.takeWhile isWordChar).isEmpty then .bad
        else .name (String.ofList (cs.takeWhile isWordChar))) :: words (cs.dropWhile isWordChar)
    else if isWordChar c then
      let text := String.ofList (c :: cs.takeWhile isWordChar)
      -- A word with a colon right behind it is a role.
      match _h : cs.dropWhile isWordChar with
      | ':' :: rest => .role text :: words rest
      | rest => .plain text :: words rest
    else [.bad]
termination_by cs => cs.length
decreasing_by
  all_goals
    have wordEnd := length_dropWhile_le isWordChar cs
    have lineEnd := length_dropWhile_le (· != '\n') cs
    simp_all only [List.length_cons]
    omega

/-! ## Nesting -/

/-- A part that is not closed yet: its kind, its role, and its parts so far. -/
structure OpenPart where
  /-- The kind of the node. -/
  kind : String
  /-- The role of the node. -/
  role : Option String
  /-- The parts that are closed, the last first. -/
  parts : List Pattern

/-- The patterns that the words make up, given the parts that are open, the closed patterns at the
top with the last first, and the names so far. -/
def nest (opened : List OpenPart) (done : List Pattern) (names : List String) :
    List Word → Option Query
  | [] => if opened.isEmpty then some ⟨done.reverse, names⟩ else none
  | .role r :: .opening :: .plain kind :: rest =>
    -- A role is played in another node, so none is left at the top.
    if opened.isEmpty || !roles.contains r || !ruleKinds.contains kind then none
    else nest (⟨kind, some r, []⟩ :: opened) done names rest
  | .opening :: .plain kind :: rest =>
    if ruleKinds.contains kind then nest (⟨kind, none, []⟩ :: opened) done names rest else none
  | .closing :: rest =>
    match opened with
    | [] => none
    | part :: opened =>
      let pattern := Pattern.mk part.kind part.role part.parts.reverse []
      match opened with
      | [] => nest [] (pattern :: done) names rest
      | above :: opened =>
        nest (⟨above.kind, above.role, pattern :: above.parts⟩ :: opened) done names rest
  | .name name :: rest =>
    let names := if names.contains name then names else names ++ [name]
    -- A name belongs to the pattern that was closed last.
    match opened, done with
    | [], pattern :: done => nest [] (pattern.withName name :: done) names rest
    | ⟨kind, role, pattern :: parts⟩ :: opened, done =>
      nest (⟨kind, role, pattern.withName name :: parts⟩ :: opened) done names rest
    | _, _ => none
  | _ => none

/-- The query that a text stands for. -/
def compile? (text : String) : Option Query := nest [] [] [] (words text.toList)

/-! ## The queries of the patchers -/

/-- The calls of functions by a name without a namespace. -/
def callsText : String :=
  "(function_call_expression
        function: (name) @name
        arguments: (arguments) @args
    ) @call"

/-- The methods with a body. -/
def methodsText : String :=
  "(method_declaration
        name: (name) @name
        body: (compound_statement) @body
    ) @method"

/-- The calls of functions by a name without a namespace: the name, the arguments, and the call. -/
def calls : Query :=
  ⟨[.mk "function_call_expression" none
      [.mk "name" (some "function") [] ["name"], .mk "arguments" (some "arguments") [] ["args"]]
      ["call"]],
    ["name", "args", "call"]⟩

/-- The methods with a body: the name, the body, and the method. -/
def methods : Query :=
  ⟨[.mk "method_declaration" none
      [.mk "name" (some "name") [] ["name"], .mk "compound_statement" (some "body") [] ["body"]]
      ["method"]],
    ["name", "body", "method"]⟩

end Query

end Seams
