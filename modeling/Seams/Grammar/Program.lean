import Seams.Grammar.Statements

/-! # Programs
The knot of the rules is tied here, and a whole source is read.
Main definitions:
* **`Grammar.rulesWithin`** — the rules, for nesting up to a given depth;
* **`Grammar.program?`** — the tree of a source, or how reading gets stuck. -/

namespace Seams.Grammar

open Lexis Reader

/-- The reader for a goal, in terms of the readers for what is inside it. -/
def ruleFor (rules : Rules) : Rules
  | .expression level => Expressions.expressionAt rules level
  | .target => Expressions.targetAt rules loosest
  | .operand => Expressions.operand rules
  | .variable => Expressions.variable_ rules
  | .statement => Statements.statement rules
  | .block => Statements.block rules
  | .members => Declarations.membersOf rules

/-- The readers for all goals, stuck where constructs are nested more than `depth` deep. -/
def rulesWithin (depth : Nat) (goal : Goal) : Reader Node :=
  match depth with
  | 0 => stuck
  | depth + 1 => ruleFor (rulesWithin depth) goal

/-- Read a whole source: markup, and statements after an opening tag. -/
def wholeProgram (rules : Rules) : Reader Unit := do
  let src ← source
  let first := if src.startsAt ⟨#[0xef, 0xbb, 0xbf]⟩ 0 then 3 else 0
  update fun s => { s with pos := first }
  match markup? src false (src.size + 1) first with
  | some (a, b) =>
    add (Node.leaf "text" true a b)
    advance b
  | none => pure ()
  let p := blankEnd src (← reading).pos
  let e := openTagEnd src p
  if p < e then
    add (Node.leaf "php_tag" true p e)
    advance e
    Statements.statements rules []
    if ← atEnd then flush else stuck
  else if p < src.size then stuck
  else pure ()

/-- The tree of a source with the given repairs, or how reading gets stuck. No construct of a
source is nested deeper than the depth given to the rules, since each level of nesting costs a byte
and at most eight goals. -/
def program? (repairs : List Repair) (src : Bytes) : Except Stuck Node :=
  let rules := rulesWithin (8 * src.size + 8)
  let context : Reading.Context := ⟨src, false⟩
  let before : Reading := ⟨0, 0, [], false, false, [], repairs, none⟩
  match gather [] (wholeProgram rules) context before with
  | .ok ((_, _, children), after) =>
    if !after.repairs.isEmpty then .error ⟨0, 0, [], after.repairs.length⟩ else
    let start := match children with
      | c :: _ => c.start
      | [] => src.size
    .ok (Node.branch "program" start src.size children)
  | .error e => .error e

end Seams.Grammar
