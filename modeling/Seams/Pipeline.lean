import Seams.Patcher

/-! # Pipelines
A pipeline runs several patchers over one script. Their edits are joined before any is applied, so
no patcher sees what another has written.
Main definitions:
* **`validate`** — whether rewriting has brought no new flaws;
* **`Pipeline`** — patchers in order, and whether the output is validated;
* **`Pipeline.run`** — a source rewritten. -/

namespace Seams

/-- The error of a source that does not fit the grammar. -/
def validateSource (source : Bytes) : Except SyntaxError Unit :=
  (Node.ofSource source).ensureClean source

/-- The error of a tree with more flaws than another one. -/
def validateTrees (before : Node) (source : Bytes) (after : Node) : Except SyntaxError Unit :=
  if after.flaws.length > before.flaws.length then after.ensureClean source else .ok ()

/-- The error of a rewritten source with more flaws than there were before. -/
def validate (source rewritten : Bytes) : Except SyntaxError Unit :=
  validateTrees (Node.ofSource source) rewritten (Node.ofSource rewritten)

/-- Patchers in order, and whether the output is validated. -/
structure Pipeline where
  /-- The patchers. -/
  patchers : List Patcher
  /-- Whether the output is validated. -/
  verify : Bool

/-- What a pipeline makes of a source. -/
structure PatchOutput where
  /-- The source afterwards. -/
  source : Bytes
  /-- Whether there was anything to edit. -/
  patched : Bool
  /-- The number of edits. -/
  editCount : Nat

/-- The output where there is nothing to edit. -/
def PatchOutput.unchanged (source : Bytes) : PatchOutput := ⟨source, false, 0⟩

namespace Pipeline

/-- The names of the patchers. -/
def names (p : Pipeline) : List String := p.patchers.map Patcher.name

/-- Whether there is no patcher. -/
def isEmpty (p : Pipeline) : Bool := p.patchers.isEmpty

/-- A script rewritten. -/
def runOn (p : Pipeline) (script : Script) : Except PatchError PatchOutput := do
  let edits ← script.collectAll p.patchers .empty
  if edits.isEmpty then return .unchanged script.source
  let output ← (script.tokens.reassemble edits).mapError .edit
  if p.verify then
    (validate script.source output).mapError .malformed
  return ⟨output, true, edits.size⟩

/-- A source rewritten. Without patchers it is not even read. -/
def run (p : Pipeline) (source : Bytes) : Except PatchError PatchOutput := do
  if p.patchers.isEmpty then return .unchanged source
  p.runOn (← (Script.parse source).mapError .malformed)

end Pipeline

end Seams
