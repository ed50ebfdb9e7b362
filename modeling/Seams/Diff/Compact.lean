import Seams.Diff.Script

/-! # Compact scripts
The same change can often be told in several ways: entries that are added may stand before or after
entries that read the same. Here they are moved down as far as they go, and changes that meet are
joined.
Main definitions:
* **`Diff.compact`** — a script with its changes moved and joined;
* **`Diff.Line`**, **`Diff.report`** — a script as single entries, in each change those that are
  removed first. -/

namespace Seams.Diff

variable {α : Type} [BEq α]

/-- Put entries in front of blocks, into the first of them if it holds entries that are kept. -/
def sameBefore (entries : List α) : List (Block α) → List (Block α)
  | .same s :: rest => .same (entries ++ s) :: rest
  | rest => .same entries :: rest

/-- Put entries behind blocks that are listed from the last to the first. -/
def sameBehind (entries : List α) : List (Block α) → List (Block α)
  | .same s :: rest => .same (s ++ entries) :: rest
  | rest => .same entries :: rest

/-- Move added entries up past the blocks before them, which are listed from the last to the
first. -/
def liftAdded (fuel : Nat) (before : List (Block α)) (entries : List α) (behind : List (Block α)) :
    List (Block α) × List α × List (Block α) :=
  match fuel, before with
  | fuel + 1, .same s :: before =>
    let n := commonEnd s entries
    if n = 0 then (.same s :: before, entries, behind)
    else
      let moved := s.drop (s.length - n)
      liftAdded fuel (unlessEmpty .same (s.take (s.length - n)) ++ before)
        (moved ++ entries.take (entries.length - n)) (sameBefore moved behind)
  | fuel + 1, .removed r :: before => liftAdded fuel before entries (.removed r :: behind)
  | fuel + 1, .added a :: before => liftAdded fuel before (a ++ entries) behind
  | _, before => (before, entries, behind)

/-- Move added entries down past the blocks behind them. -/
def dropAdded (fuel : Nat) (before : List (Block α)) (entries : List α) (behind : List (Block α)) :
    List (Block α) × List α × List (Block α) :=
  match fuel, behind with
  | fuel + 1, .same s :: behind =>
    let n := commonStart s entries
    if n = 0 then (before, entries, .same s :: behind)
    else
      let moved := s.take n
      dropAdded fuel (sameBehind moved before) (entries.drop n ++ moved)
        (unlessEmpty .same (s.drop n) ++ behind)
  | fuel + 1, .removed r :: behind => dropAdded fuel (.removed r :: before) entries behind
  | fuel + 1, .added a :: behind => dropAdded fuel before (entries ++ a) behind
  | _, behind => (before, entries, behind)

/-- Move all added entries, from the first block on. The blocks that are done are listed from the
last to the first. -/
def compactAdded (fuel : Nat) (before : List (Block α)) : List (Block α) → List (Block α)
  | [] => before.reverse
  | b :: behind =>
    match fuel, b with
    | fuel + 1, .added a =>
      let size := (before ++ behind).foldl (fun n b => n + match b with
        | .same s => s.length + 1
        | .removed s => s.length + 1
        | .added s => s.length + 1) 1
      -- Going up gathers the added entries there; going down then settles the place.
      let (before, a, behind) := liftAdded size before a behind
      let (before, a, behind) := dropAdded (2 * size) before a behind
      compactAdded fuel (.added a :: before) behind
    | fuel + 1, b => compactAdded fuel (b :: before) behind
    | 0, b => before.reverse ++ b :: behind

/-- A script with its changes moved and joined. -/
def compact (blocks : List (Block α)) : List (Block α) :=
  compactAdded (2 * blocks.length + 2) [] blocks

/-! ## Single entries -/

/-- An entry of a script. -/
inductive Line (α : Type) where
  /-- It is kept. -/
  | same (entry : α)
  /-- It is removed. -/
  | removed (entry : α)
  /-- It is added. -/
  | added (entry : α)
  deriving Repr

/-- The entries of blocks, those of a change being held back until it ends: first the removed ones,
then the added ones. -/
def linesOf (removed added : List α) : List (Block α) → List (Line α)
  | [] => removed.map .removed ++ added.map .added
  | .same s :: rest =>
    removed.map .removed ++ added.map .added ++ s.map .same ++ linesOf [] [] rest
  | .removed r :: rest => linesOf (removed ++ r) added rest
  | .added a :: rest => linesOf removed (added ++ a) rest

/-- How one sequence is made into another, entry by entry. -/
def report (xs ys : List α) : List (Line α) := linesOf [] [] (compact (script xs ys))

end Seams.Diff
