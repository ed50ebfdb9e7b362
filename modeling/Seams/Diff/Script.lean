/-! # Shortest edit scripts
How one sequence is made into another by removing and adding as few entries as possible. The way
through the grid of both sequences is found from both ends at once, and then on either side of the
point where the two searches meet.
Main definitions:
* **`Diff.Block`** — entries in a row that are kept, removed or added;
* **`Diff.meeting?`** — a point on a shortest way;
* **`Diff.script`** — the blocks of a shortest way. -/

namespace Seams.Diff

variable {α : Type} [BEq α]

/-- Entries in a row that are kept, removed or added. -/
inductive Block (α : Type) where
  /-- Entries of both sequences. -/
  | same (entries : List α)
  /-- Entries of the first sequence alone. -/
  | removed (entries : List α)
  /-- Entries of the second sequence alone. -/
  | added (entries : List α)
  deriving Repr

/-- The length of the longest common beginning. -/
def commonStart : List α → List α → Nat
  | x :: xs, y :: ys => if x == y then commonStart xs ys + 1 else 0
  | _, _ => 0

/-- The length of the longest common end. -/
def commonEnd (xs ys : List α) : Nat := commonStart xs.reverse ys.reverse

/-! ## The middle -/

/-- How far the searches have come: on each diagonal the number of entries of the first sequence
that are passed. -/
structure Front where
  /-- From the start. -/
  forward : Array Nat
  /-- From the end. -/
  backward : Array Nat

/-- The number passed on a diagonal. -/
def reachedOn (reached : Array Nat) (k : Int) : Nat := reached.getD (k + reached.size / 2).toNat 0

/-- The number passed on a diagonal, put down. -/
def put (reached : Array Nat) (k : Int) (x : Nat) : Array Nat :=
  reached.setIfInBounds (k + reached.size / 2).toNat x

/-- How far the next step comes on a diagonal before entries that agree are passed. -/
def advance (reached : Array Nat) (d k : Int) : Nat :=
  if k = -d ∨ (k ≠ d ∧ reachedOn reached (k - 1) < reachedOn reached (k + 1)) then
    reachedOn reached (k + 1)
  else reachedOn reached (k - 1) + 1

/-- One step of the search from the start on a diagonal. If the searches meet, the point where the
step began to pass entries that agree is thrown. -/
def stepForward (xs ys : List α) (d : Nat) (f : Front) (k : Int) : Except (Nat × Nat) Front :=
  let delta : Int := xs.length - ys.length
  let x := advance f.forward d k
  let y := (x - k).toNat
  let x' := x + commonStart (xs.drop x) (ys.drop y)
  let f := { f with forward := put f.forward k x' }
  if delta % 2 ≠ 0 ∧ (k - delta).natAbs < d ∧ xs.length ≤ x' + reachedOn f.backward (delta - k) then
    .error (x, y)
  else .ok f

/-- One step of the search from the end on a diagonal. If the searches meet, the point that the
step has come to is thrown. -/
def stepBackward (xs ys : List α) (d : Nat) (f : Front) (k : Int) : Except (Nat × Nat) Front :=
  let delta : Int := xs.length - ys.length
  let x := advance f.backward d k
  let y := (x - k).toNat
  let passed :=
    if x < xs.length ∧ y < ys.length then
      commonEnd (xs.take (xs.length - x)) (ys.take (ys.length - y))
    else 0
  let f := { f with backward := put f.backward k (x + passed) }
  if delta % 2 = 0 ∧ (k - delta).natAbs ≤ d
      ∧ xs.length ≤ x + passed + reachedOn f.forward (delta - k) then
    .error (xs.length - (x + passed), ys.length - (y + passed))
  else .ok f

/-- The diagonals of a round, the highest first. -/
def diagonals (d : Nat) : List Int := (List.range (d + 1)).map fun (i : Nat) => (d : Int) - 2 * i

/-- One round of both searches. -/
def searchRound (xs ys : List α) (f : Front) (d : Nat) : Except (Nat × Nat) Front := do
  let f ← (diagonals d).foldlM (stepForward xs ys d) f
  (diagonals d).foldlM (stepBackward xs ys d) f

/-- A point on a shortest way. -/
def meeting? (xs ys : List α) : Option (Nat × Nat) :=
  let rounds := (xs.length + ys.length + 1) / 2 + 1
  let start := Array.replicate (2 * rounds + 4) 0
  match (List.range rounds).foldlM (searchRound xs ys) ⟨start, start⟩ with
  | .error p => some p
  | .ok _ => none

/-! ## The way -/

/-- A block, unless it is empty. -/
def unlessEmpty (f : List α → Block α) (entries : List α) : List (Block α) :=
  match entries with
  | [] => []
  | x :: xs => [f (x :: xs)]

/-- The blocks of a shortest way. The fuel is the number of times that the way may be parted, which
is at most the number of entries. -/
def scriptWithin : Nat → List α → List α → List (Block α)
  | 0, xs, ys => unlessEmpty .removed xs ++ unlessEmpty .added ys
  | fuel + 1, xs, ys =>
    let head := commonStart xs ys
    let xs' := xs.drop head
    let ys' := ys.drop head
    let tail := commonEnd xs' ys'
    let xs'' := xs'.take (xs'.length - tail)
    let ys'' := ys'.take (ys'.length - tail)
    let middle :=
      if xs''.isEmpty || ys''.isEmpty then unlessEmpty .removed xs'' ++ unlessEmpty .added ys''
      else match meeting? xs'' ys'' with
        | none => [.removed xs'', .added ys'']
        | some (x, y) =>
          scriptWithin fuel (xs''.take x) (ys''.take y)
            ++ scriptWithin fuel (xs''.drop x) (ys''.drop y)
    unlessEmpty .same (xs.take head) ++ middle ++ unlessEmpty .same (xs'.drop xs''.length)

/-- The blocks of a shortest way. -/
def script (xs ys : List α) : List (Block α) := scriptWithin (xs.length + ys.length + 1) xs ys

end Seams.Diff
