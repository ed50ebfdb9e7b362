import Seams.Patcher
import Seams.Redirect.Registry

/-! # Methods
The body of a method gets a prologue that asks the registry for an override and returns what it
answers. The prologue takes the place of the opening brace, which it begins with.
Main definitions:
* **`Redirect.Returning`** — what a method returns, as far as the prologue needs to know;
* **`Redirect.methods`** — the patcher. -/

namespace Seams.Redirect

/-- The name of the patcher. -/
def methodsName : String := "method"

/-- What a method returns. -/
inductive Returning where
  /-- A value, or it is not said. -/
  | value
  /-- Nothing. -/
  | void
  /-- It does not return. -/
  | never
  deriving DecidableEq, Repr

/-- ASCII white space other than the vertical tabulator. -/
def isTypeBlank (c : UInt8) : Bool :=
  c == 0x20 || c == 0x09 || c == 0x0a || c == 0x0c || c == 0x0d

/-- A byte string without such white space at its ends. -/
def trimBlanks (b : Bytes) : Bytes :=
  ⟨(((b.toList.dropWhile isTypeBlank).reverse.dropWhile isTypeBlank).reverse).toArray⟩

/-- What a declared return type says. -/
def Returning.ofType (type : Bytes) : Returning :=
  let word := (trimBlanks type).lower
  if word == bytesOf "void" then void
  else if word == bytesOf "never" then never
  else value

/-- What the method over a range returns. -/
def returningAt (s : Script) (start stop : Nat) : Returning :=
  match (s.nodeAt? start stop).bind (Node.byField? · "return_type") with
  | some type => Returning.ofType (s.bytesAt type.start type.stop)
  | none => .value

/-- Add the edit for a method, unless it does not return. -/
def collectMethod (s : Script) (method : Match) (edits : EditSet) : Except PatchError EditSet := do
  let declaration ← (method.capture "method").mapError .query
  let body ← (method.capture "body").mapError .query
  let returning := returningAt s declaration.start declaration.stop
  if returning = .never then return edits
  let brace ← s.tokenAt methodsName body.start (body.start + 1)
  edits.request
    ⟨brace, Expectation.of (bytesOf "\x7b"), Registry.prologue (returning = .void), methodsName⟩

/-- Add the edits for several methods in turn. -/
def collectMethods (s : Script) : List Match → EditSet → Except PatchError EditSet
  | [], edits => .ok edits
  | method :: rest, edits =>
    match collectMethod s method edits with
    | .error e => .error e
    | .ok edits => collectMethods s rest edits

/-- The patcher that puts prologues into methods. -/
def methods : Patcher where
  name := methodsName
  collect s edits := collectMethods s (Query.methods.findAll s.tree) edits

end Seams.Redirect
