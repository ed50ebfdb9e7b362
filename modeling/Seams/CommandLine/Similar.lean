/-! # Words that read alike
A word that is not known may be a known one with a slip in it.
Main definitions:
* **`Similar.Score`** — how much two words have in common, as a fraction;
* **`Similar.similarTo`** — the known words that a word reads like. -/

namespace Seams.Similar

/-- A fraction. -/
structure Score where
  /-- The part. -/
  part : Nat
  /-- The whole. -/
  whole : Nat
  deriving DecidableEq, Repr

/-- Whether one fraction is less than another one. -/
def Score.lt (a b : Score) : Bool := a.part * b.whole < b.part * a.whole

/-- For each character of a word, whether it is matched by one of another word that reads the same,
is not further away than `reach`, and is matched by no earlier character. The matched indices of
the other word are given back in the order of the first word. -/
def matched (xs ys : List Char) (reach : Nat) : List Nat :=
  (xs.zipIdx.foldl (fun (taken : List Nat) (x, i) =>
    match ys.zipIdx.find? fun (y, j) =>
        x == y && i ≤ j + reach && j ≤ i + reach && !taken.contains j with
    | some (_, j) => j :: taken
    | none => taken) []).reverse

/-- The number of places where the matched characters of both words, each in its own order, read
different. -/
def moved (ys : List Char) (taken : List Nat) : Nat :=
  let inFirst := taken.map fun j => ys.getD j ' '
  let inSecond := (taken.mergeSort (· ≤ ·)).map fun j => ys.getD j ' '
  ((inFirst.zip inSecond).filter fun (x, y) => x != y).length

/-- How much two words have in common: the mean of the parts of either word that are matched, and of
the part of the matched characters that are not moved. -/
def score (a b : String) : Score :=
  let xs := a.toList
  let ys := b.toList
  if xs.isEmpty && ys.isEmpty then ⟨1, 1⟩
  else
    let reach := max xs.length ys.length / 2 - 1
    let taken := matched xs ys reach
    let m := taken.length
    if m = 0 then ⟨0, 1⟩
    else
      let t := moved ys taken / 2
      ⟨m * m * ys.length + m * m * xs.length + (m - t) * xs.length * ys.length,
        3 * m * xs.length * ys.length⟩

/-- The known words that a word reads like, the most similar last. -/
def similarTo (word : String) (known : List String) : List String :=
  let scored := (known.map fun k => (score word k, k)).filter fun (s, _) => Score.lt ⟨7, 10⟩ s
  (scored.mergeSort fun a b => !Score.lt b.1 a.1).map Prod.snd

/-- The known word that a word is most similar to, if it reads like any. -/
def closest? (word : String) (known : List String) : Option String :=
  (similarTo word known).getLast?

end Seams.Similar
