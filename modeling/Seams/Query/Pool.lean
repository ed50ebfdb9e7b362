import Seams.Query.Search

/-! # Pools of queries
Queries are compiled once and kept by their text. A pool that is full is emptied before a further
query is compiled. What compiling gives, and which texts can be compiled, is left open for pools in
general.
Main definitions:
* **`Pool`** — what was compiled, kept by its text;
* **`Pool.fetch`** — what a text stands for, kept or compiled, and the pool afterwards;
* **`QueryPool`**, **`QueryPool.use`** — the same for the queries of trees. -/

namespace Seams

/-- What was compiled, each under its text. -/
structure Pool (α : Type) where
  /-- The texts and what they stand for, the newest first. -/
  entries : List (String × α)

namespace Pool

variable {α : Type}

/-- The pool that keeps nothing. -/
def empty : Pool α := ⟨[]⟩

/-- The number of entries that a pool may keep. -/
def capacity : Nat := 32

/-- The number of entries that the pool keeps. -/
def size (p : Pool α) : Nat := p.entries.length

/-- What is kept under a text. -/
def get? (p : Pool α) (text : String) : Option α := p.entries.lookup text

/-- The pool with room for one more entry. -/
def room (p : Pool α) : Pool α := if p.size ≥ capacity then empty else p

/-- What a text stands for and the pool afterwards. A text that cannot be compiled leaves nothing
behind, but a full pool has been emptied before it is found out. -/
def fetch (compile? : String → Option α) (p : Pool α) (text : String) :
    Except QueryError α × Pool α :=
  match p.get? text with
  | some q => (.ok q, p)
  | none =>
    match compile? text with
    | none => (.error .invalid, p.room)
    | some q => (.ok q, ⟨(text, q) :: p.room.entries⟩)

end Pool

/-- Queries that are kept, each under its text. -/
abbrev QueryPool := Pool Query

namespace QueryPool

/-- The pool that keeps no query. -/
def empty : QueryPool := Pool.empty

/-- The query of a text and the pool afterwards. -/
def use (p : QueryPool) (text : String) : Except QueryError Query × QueryPool :=
  p.fetch Query.compile? text

end QueryPool

end Seams
