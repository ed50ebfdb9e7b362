import Seams.Edit
import Seams.Query.Search
import Seams.Reassembly
import Seams.Script

/-! # Patchers
A patcher looks at a script and asks for edits. Several patchers share one set of edits, so each is
given the set of those before it.
Main definitions:
* **`PatchError`** — why a source cannot be rewritten;
* **`Patcher`** — a name, and how edits are added for a script;
* **`Patcher.patch`** — a source rewritten by a single patcher. -/

namespace Seams

/-- Why a source cannot be rewritten. -/
inductive PatchError where
  /-- The source, or what is made of it, does not fit the grammar. -/
  | malformed (cause : SyntaxError)
  /-- A query has no answer. -/
  | query (cause : QueryError)
  /-- Edits cannot be joined or applied. -/
  | edit (cause : EditError)
  /-- No token starts at the byte, or it ends elsewhere. -/
  | tokenNotFound (patcher : String) (byte : Nat)

/-- What is told to the user. -/
def PatchError.message : PatchError → String
  | malformed cause => cause.message
  | query cause => cause.message
  | edit cause => cause.message
  | tokenNotFound patcher byte => s!"no token starts at byte {byte} (patcher '{patcher}')"

namespace Script

/-- The position of the token that covers exactly a range. -/
def tokenAt (s : Script) (patcher : String) (start stop : Nat) : Except PatchError Nat :=
  match s.tokens.tokenAt? start stop with
  | some position => .ok position
  | none => .error (.tokenNotFound patcher start)

end Script

namespace EditSet

/-- Add an edit on behalf of a patcher. -/
def request (s : EditSet) (e : Edit) : Except PatchError EditSet := (s.insert e).mapError .edit

end EditSet

/-- A patcher. -/
structure Patcher where
  /-- Its name. -/
  name : String
  /-- Add the edits for a script to those that are there. -/
  collect : Script → EditSet → Except PatchError EditSet

namespace Script

/-- Add the edits of several patchers, one patcher after the other. -/
def collectAll (s : Script) : List Patcher → EditSet → Except PatchError EditSet
  | [], edits => .ok edits
  | p :: ps, edits =>
    match p.collect s edits with
    | .error e => .error e
    | .ok edits => collectAll s ps edits

end Script

/-- A source rewritten by a single patcher, and whether it asked for any edit. -/
def Patcher.patch (p : Patcher) (source : Bytes) : Except PatchError (Bytes × Bool) := do
  let script ← (Script.parse source).mapError .malformed
  let edits ← p.collect script .empty
  if edits.isEmpty then return (source, false)
  let output ← (script.tokens.reassemble edits).mapError .edit
  return (output, true)

end Seams
