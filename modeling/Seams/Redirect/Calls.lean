import Seams.NameSet
import Seams.Patcher
import Seams.Redirect.Registry

/-! # Calls
The call of a function whose results differ from run to run becomes a call through the registry,
where tests may override it. Only the name is replaced, so the arguments stay as they are.
Main definitions:
* **`Redirect.isRedirected`** — whether calls by a name are redirected;
* **`Redirect.calls`** — the patcher. -/

namespace Seams.Redirect

/-- The name of the patcher. -/
def callsName : String := "function"

/-- The kinds of text in which code is interpolated. -/
def interpolatingKinds : List String := ["encapsed_string", "heredoc", "shell_command_expression"]

/-- Whether calls by a name are redirected: it is on the one list and not on the other. -/
def isRedirected (whitelist blacklist : NameSet) (name : String) : Bool :=
  !blacklist.contains name && whitelist.contains name

/-- The texts of the tokens that count and end within a range, from the one that starts with it. -/
def significantWithin (tokens : TokenStream) (start stop : Nat) : Option (List Bytes) :=
  (tokens.positionAt? start).map fun first =>
    (((tokens.tokens.toList.drop first).takeWhile (·.stop ≤ stop)).filter Token.isSignificant).map
      tokens.textOf

/-- Whether arguments in a range make a closure of the function and do not call it. -/
def makesClosure (tokens : TokenStream) (start stop : Nat) : Bool :=
  significantWithin tokens start stop == some [bytesOf "(", bytesOf "...", bytesOf ")"]

/-- Whether the node over a range is part of text in which code is interpolated. -/
def isInterpolated (s : Script) (start stop : Nat) : Bool :=
  ((s.nodePath? start stop).getD []).any fun n => interpolatingKinds.contains n.kind

/-- Add the edit for a call, if it is redirected. A name that is not well-formed text is none that
could be listed. -/
def collectCall (whitelist blacklist : NameSet) (s : Script) (call : Match) (edits : EditSet) :
    Except PatchError EditSet := do
  let name ← (call.capture "name").mapError .query
  let arguments ← (call.capture "args").mapError .query
  let text := s.bytesAt name.start name.stop
  match text.text? with
  | none => return edits
  | some word =>
    if !isRedirected whitelist blacklist word
        || makesClosure s.tokens arguments.start arguments.stop
        || isInterpolated s name.start name.stop then
      return edits
    let position ← s.tokenAt callsName name.start name.stop
    edits.request ⟨position, Expectation.of text, Registry.redirected word, callsName⟩

/-- Add the edits for several calls in turn. -/
def collectCalls (whitelist blacklist : NameSet) (s : Script) :
    List Match → EditSet → Except PatchError EditSet
  | [], edits => .ok edits
  | call :: rest, edits =>
    match collectCall whitelist blacklist s call edits with
    | .error e => .error e
    | .ok edits => collectCalls whitelist blacklist s rest edits

/-- The patcher that redirects calls by the names on the first list but not on the second. -/
def calls (whitelist blacklist : NameSet) : Patcher where
  name := callsName
  collect s edits := collectCalls whitelist blacklist s (Query.calls.findAll s.tree) edits

end Seams.Redirect
