import Seams.Fingerprint
import Seams.Text.Quoted

/-! # Edits
An edit replaces one token by another text, and says what the token must read before. Edits of
several patchers meet in one set, which holds at most one edit for a token.
Main definitions:
* **`Expectation`** — what a token must read: the very bytes, or their hash if they are many;
* **`Edit`** — the replacement of a token;
* **`EditSet`** — edits in ascending order of position, no two at the same;
* **`EditError`** — why edits cannot be joined or applied. -/

namespace Seams

/-! ## What a token must read -/

/-- What a token must read for an edit to apply. -/
inductive Expectation where
  /-- These bytes. -/
  | exact (text : Bytes)
  /-- Bytes with this hash. -/
  | hash (value : UInt64)
  deriving DecidableEq

namespace Expectation

/-- The length up to which an expectation keeps the bytes themselves. -/
def exactLimit : Nat := 1024

/-- The expectation to read the given bytes. -/
def of (text : Bytes) : Expectation :=
  if text.size > exactLimit then hash (Xxh3.hash text) else exact text

/-- Whether a text meets the expectation. -/
def accepts : Expectation → Bytes → Bool
  | exact expected, text => text == expected
  | hash value, text => Xxh3.hash text == value

end Expectation

/-! ## Single edits -/

/-- The replacement of the token at a position. -/
structure Edit where
  /-- The position of the token in its stream. -/
  position : Nat
  /-- What the token must read. -/
  expected : Expectation
  /-- What stands in its place afterwards. -/
  replacement : String
  /-- The name of the patcher that asks for the edit. -/
  patcher : String
  deriving DecidableEq

/-- Why edits cannot be joined or applied. -/
inductive EditError where
  /-- Two edits are for the same token. -/
  | collision (position : Nat) (existing incoming : String)
  /-- The positions are no positions of a stream of `size` tokens. -/
  | positionNotFound (positions : List Nat) (size : Nat)
  /-- The token at a position does not read as the patcher expects. -/
  | mismatch (position : Nat) (patcher : String) (found : Bytes)
  deriving DecidableEq

/-- What is told to the user. -/
def EditError.message : EditError → String
  | collision position existing incoming =>
    s!"patchers '{existing}' and '{incoming}' both rewrite token {position}"
  | positionNotFound positions size =>
    s!"edit positions {Text.bracketed positions} not present in a stream of {size} tokens"
  | mismatch position patcher found =>
    s!"token {position} does not match what patcher '{patcher}' expected (found "
      ++ Text.quoted found.lossyText ++ ")"

/-! ## Sets of edits -/

/-- Put an edit in front of the first one with a greater position. -/
def Edit.place (e : Edit) : List Edit → List Edit
  | [] => [e]
  | d :: ds => if e.position < d.position then e :: d :: ds else d :: place e ds

theorem Edit.mem_place {e x : Edit} {ds : List Edit} : x ∈ e.place ds ↔ x = e ∨ x ∈ ds := by
  induction ds with
  | nil => simp [place]
  | cons d ds ih =>
    rw [place]
    split
    · simp
    · rw [List.mem_cons, ih, List.mem_cons]
      exact or_left_comm

theorem Edit.pairwise_place {e : Edit} {ds : List Edit}
    (h : ds.Pairwise fun a b => a.position < b.position)
    (free : ∀ d ∈ ds, d.position ≠ e.position) :
    (e.place ds).Pairwise fun a b => a.position < b.position := by
  induction ds with
  | nil => simp [place]
  | cons d ds ih =>
    rw [List.pairwise_cons] at h
    rw [place]
    split
    next lt =>
      refine List.pairwise_cons.2 ⟨fun x hx => ?_, List.pairwise_cons.2 h⟩
      rcases List.mem_cons.1 hx with rfl | hx
      · exact lt
      · exact Nat.lt_trans lt (h.1 x hx)
    next ge =>
      refine List.pairwise_cons.2
        ⟨fun x hx => ?_, ih h.2 fun x hx => free x (List.mem_cons_of_mem _ hx)⟩
      rcases mem_place.1 hx with rfl | hx
      · have := free d List.mem_cons_self
        omega
      · exact h.1 x hx

/-- Edits in ascending order of position, no two at the same. -/
structure EditSet where
  /-- The edits. -/
  toList : List Edit
  /-- They ascend. -/
  ascending : toList.Pairwise fun a b => a.position < b.position

namespace EditSet

/-- The set without edits. -/
def empty : EditSet := ⟨[], List.Pairwise.nil⟩

/-- The edit at a position. -/
def get? (s : EditSet) (position : Nat) : Option Edit :=
  s.toList.find? fun e => e.position == position

/-- Whether there is an edit at a position. -/
def contains (s : EditSet) (position : Nat) : Bool := (s.get? position).isSome

/-- The number of edits. -/
def size (s : EditSet) : Nat := s.toList.length

/-- Whether there is no edit. -/
def isEmpty (s : EditSet) : Bool := s.toList.isEmpty

/-- The number of edits that a patcher asks for. -/
def countFor (s : EditSet) (patcher : String) : Nat :=
  s.toList.countP fun e => e.patcher == patcher

/-- Add an edit, at a position where there is none. -/
def insert (s : EditSet) (e : Edit) : Except EditError EditSet :=
  match h : s.get? e.position with
  | some d => .error (.collision e.position d.patcher e.patcher)
  | none =>
    .ok ⟨e.place s.toList, Edit.pairwise_place s.ascending fun d hd => by
      simpa using List.find?_eq_none.1 h d hd⟩

end EditSet

end Seams
