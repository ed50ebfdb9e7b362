import Seams.Patcher
import Seams.Redirect.Registry

/-! # Exits
An exit ends the program and with it every test. It becomes the call of a function that signals the
exit instead. The tokens tell exits from names that read the same.
Main definitions:
* **`Redirect.isExit`** — whether a token is an exit;
* **`Redirect.exits`** — the patcher. -/

namespace Seams.Redirect

/-- The name of the patcher. -/
def exitsName : String := "exit"

/-- The parents whose leaves are literal text. -/
def literalKinds : List String :=
  ["string", "encapsed_string", "heredoc_body", "nowdoc_body", "shell_command_expression"]

/-- The parents of a name that stands for an exit. -/
def exitParents : List String :=
  ["function_call_expression", "expression_statement", "exit_statement"]

/-- Whether a text reads `exit` or `die`, in any case. -/
def readsExit (text : Bytes) : Bool :=
  text.sameIgnoringCase (bytesOf "exit") || text.sameIgnoringCase (bytesOf "die")

/-- Whether a token with the given text is an exit: the keyword outside of literal text, or a name
that is called or stands as a statement. -/
def isExit (t : Token) (text : Bytes) : Bool :=
  readsExit text && !t.parent.any (literalKinds.contains ·)
    && (!t.named || (t.kind == "name" && t.parent.any (exitParents.contains ·)))

/-- Whether an opening parenthesis is the next token after a position that counts. -/
def hasArguments (tokens : TokenStream) (position : Nat) : Bool :=
  ((tokens.nextSignificant? position).bind tokens.text?).any (· == bytesOf "(")

/-- What stands in place of an exit. An exit without arguments gets an empty list of them. -/
def exitReplacement (tokens : TokenStream) (position : Nat) : String :=
  if hasArguments tokens position then Registry.exitFunction else Registry.exitFunction ++ "()"

/-- Add the edits for those of the given tokens that are exits, the first of which has the given
position. -/
def collectExits (tokens : TokenStream) (position : Nat) :
    List Token → EditSet → Except PatchError EditSet
  | [], edits => .ok edits
  | t :: ts, edits =>
    let text := tokens.textOf t
    if t.isSignificant && isExit t text then
      match edits.request
        ⟨position, Expectation.of text, exitReplacement tokens position, exitsName⟩ with
      | .error e => .error e
      | .ok edits => collectExits tokens (position + 1) ts edits
    else collectExits tokens (position + 1) ts edits

/-- The patcher that makes exits signals. -/
def exits : Patcher where
  name := exitsName
  collect s edits := collectExits s.tokens 0 s.tokens.tokens.toList edits

end Seams.Redirect
