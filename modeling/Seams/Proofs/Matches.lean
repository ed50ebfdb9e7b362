import Mathlib.Data.List.Basic
import Mathlib.Tactic.Common
import Seams.Query.Search

/-! # What queries find
The queries of this library ask for a node with two children in given roles. What is found is one
place for each node that has them, put in order of the ranges.
Main definitions:
* **`Node.plays`** — whether a node is of a kind and in a role;
* **`Node.pair?`** — the first two children in given roles;
* **`Node.parts?`** — the two children of a node of a kind;
* **`Query.callAt?`**, **`Query.methodAt?`** — the place that a query finds at a node. -/

namespace Seams

/-! ## Places in order -/

namespace Match

/-- **A place is put among the others**, and nothing else happens to them. -/
theorem place_perm (m : Match) (ms : List Match) : (m.place ms).Perm (m :: ms) := by
  induction ms with
  | nil => exact .refl _
  | cons n ns ih =>
      rw [place]
      split
      · exact .refl _
      · exact (ih.cons n).trans (.swap m n ns)

/-- **Places in order are the same places.** -/
theorem sort_perm (ms : List Match) : (sort ms).Perm ms := by
  induction ms with
  | nil => exact .refl _
  | cons m ms ih => exact (place_perm m _).trans (ih.cons m)

end Match

/-! ## Nodes with two children in given roles -/

namespace Node

/-- **Whether a node is of a kind and in a role.** -/
def plays (kind role : String) (n : Node) : Bool :=
  n.label.named && n.kind == kind && n.label.field == role

/-- **A node that is of a kind and in a role** is of that kind. -/
theorem kind_of_plays {kind role : String} {n : Node} (h : n.plays kind role = true) :
    n.kind = kind := by
  rw [plays, Bool.and_eq_true, Bool.and_eq_true, beq_iff_eq] at h
  exact h.1.2

/-- **The first of some siblings that is of a kind and in a role**, and the siblings behind it. -/
def firstPlaying? (kind role : String) : List Node → Option (Node × List Node)
  | [] => none
  | c :: cs => if c.plays kind role then some (c, cs) else firstPlaying? kind role cs

/-- **The first child of a kind in a role**, and behind it the first one of another kind in another
role. -/
def pair? (first second : String × String) (n : Node) : Option (Node × Node) :=
  (firstPlaying? first.1 first.2 n.children).bind fun x =>
    (firstPlaying? second.1 second.2 x.2).map fun y => (x.1, y.1)

/-- **The two children of a node of a kind**, each of a kind and in a role. -/
def parts? (whole : String) (first second : String × String) (n : Node) : Option (Node × Node) :=
  if n.label.named && n.kind == whole then n.pair? first second else none

/-- **The sibling that is found is the first one** of the kind in the role. -/
theorem firstPlaying?_eq_some {kind role : String} {cs later : List Node} {c : Node}
    (h : firstPlaying? kind role cs = some (c, later)) :
    c.plays kind role = true ∧ ∃ before, cs = before ++ c :: later
      ∧ ∀ b ∈ before, b.plays kind role = false := by
  induction cs with
  | nil => cases h
  | cons d ds ih =>
      rw [firstPlaying?] at h
      split at h
      · rename_i plays
        cases h
        exact ⟨plays, [], rfl, fun b hb => absurd hb List.not_mem_nil⟩
      · rename_i passed
        obtain ⟨plays, before, rfl, others⟩ := ih h
        refine ⟨plays, d :: before, rfl, fun b hb => ?_⟩
        rcases List.mem_cons.1 hb with rfl | hb
        · exact Bool.not_eq_true _ ▸ passed
        · exact others b hb

/-- **Both are children**, of their kinds and in their roles. -/
theorem pair?_eq_some {first second : String × String} {n c d : Node}
    (h : n.pair? first second = some (c, d)) :
    (c ∈ n.children ∧ c.plays first.1 first.2 = true)
      ∧ d ∈ n.children ∧ d.plays second.1 second.2 = true := by
  obtain ⟨⟨c', later⟩, found, h⟩ := Option.bind_eq_some_iff.1 h
  obtain ⟨⟨d', later'⟩, found', eq⟩ := Option.map_eq_some_iff.1 h
  obtain ⟨rfl, rfl⟩ := Prod.mk.inj eq
  obtain ⟨plays, before, children, -⟩ := firstPlaying?_eq_some found
  obtain ⟨plays', between, rest, -⟩ := firstPlaying?_eq_some found'
  have mem : d' ∈ n.children := by
    rw [children]
    refine List.mem_append_right _ (List.mem_cons_of_mem _ ?_)
    have behind : later = between ++ d' :: later' := rest
    rw [behind]
    simp
  exact ⟨⟨by rw [children]; simp, plays⟩, mem, plays'⟩

/-- **A node with such parts is of its kind**, and the parts are such children. -/
theorem parts?_eq_some {whole : String} {first second : String × String} {n c d : Node}
    (h : n.parts? whole first second = some (c, d)) :
    n.kind = whole ∧ (c ∈ n.children ∧ c.plays first.1 first.2 = true)
      ∧ d ∈ n.children ∧ d.plays second.1 second.2 = true := by
  unfold parts? at h
  split at h
  · rename_i kind
    rw [Bool.and_eq_true, beq_iff_eq] at kind
    exact ⟨kind.2, pair?_eq_some h⟩
  · cases h

end Node

/-! ## Patterns for such nodes -/

namespace Pattern

variable {kind role name : String}

/-- **A pattern without parts fits the nodes of its kind in its role.** -/
theorem match?_part (known : (kind == "_") = false) (n : Node) :
    (mk kind (some role) [] [name]).match? n
      = if n.plays kind role then some [(name, n.label)] else none := by
  have role_of : (role == n.label.field) = (n.label.field == role) := by
    rw [Bool.eq_iff_iff, beq_iff_eq, beq_iff_eq, eq_comm]
  rw [match?, matchParts?, known, Bool.false_or, Option.all_some, role_of, Node.plays]
  split <;> rfl

/-- **The first child that fits such a pattern** is the first one of the kind in the role. -/
theorem firstMatch?_part (known : (kind == "_") = false) (cs : List Node) :
    firstMatch? (match? (mk kind (some role) [] [name])) cs
      = (Node.firstPlaying? kind role cs).map fun x => ([(name, x.1.label)], x.2) := by
  induction cs with
  | nil => rfl
  | cons c cs ih =>
      rw [firstMatch?, match?_part known, Node.firstPlaying?]
      cases c.plays kind role with
      | true => rfl
      | false => exact ih

/-- **Parts are looked for one after the other**, each behind the one before. -/
theorem matchParts?_cons (known : (kind == "_") = false) (ps : List Pattern) (cs : List Node) :
    matchParts? (mk kind (some role) [] [name] :: ps) cs
      = (Node.firstPlaying? kind role cs).bind fun x =>
        (matchParts? ps x.2).map ((name, x.1.label) :: ·) := by
  rw [matchParts?, firstMatch?_part known]
  cases Node.firstPlaying? kind role cs <;> rfl

/-- **A pattern with two parts** fits the nodes that have them. -/
theorem match?_pair {kind' role' name' whole whole_name : String}
    (known : (kind == "_") = false) (known' : (kind' == "_") = false)
    (known_whole : (whole == "_") = false) (n : Node) :
    (mk whole none
        [mk kind (some role) [] [name], mk kind' (some role') [] [name']] [whole_name]).match? n
      = (n.parts? whole (kind, role) (kind', role')).map fun x =>
        [(name, x.1.label), (name', x.2.label), (whole_name, n.label)] := by
  rw [match?, matchParts?_cons known, known_whole, Bool.false_or, Option.all_none, Bool.and_true,
    Node.parts?, Node.pair?]
  split
  · cases Node.firstPlaying? kind role n.children with
    | none => rfl
    | some x =>
        rw [Option.bind_some, Option.bind_some, matchParts?_cons known']
        cases Node.firstPlaying? kind' role' x.2 <;> rfl
  · rfl

end Pattern

/-! ## The queries of the patchers -/

/-- **A place keeps what it is made of.** -/
theorem Match.kept_of? {kept : List (String × Label)} {m : Match} (h : Match.of? kept = some m) :
    m.kept = kept := by
  unfold Match.of? at h
  split at h
  · cases h
  · cases h
    rfl

namespace Query

/-- **The name and the arguments of a call** by a name without a namespace. -/
def callParts? : Node → Option (Node × Node) :=
  Node.parts? "function_call_expression" ("name", "function") ("arguments", "arguments")

/-- **The name and the body of a method** that has one. -/
def methodParts? : Node → Option (Node × Node) :=
  Node.parts? "method_declaration" ("name", "name") ("compound_statement", "body")

/-- **The place of a call.** -/
def callAt? (n : Node) : Option Match :=
  (callParts? n).bind fun x =>
    Match.of? [("name", x.1.label), ("args", x.2.label), ("call", n.label)]

/-- **The place of a method.** -/
def methodAt? (n : Node) : Option Match :=
  (methodParts? n).bind fun x =>
    Match.of? [("name", x.1.label), ("body", x.2.label), ("method", n.label)]

/-- **A query of one pattern finds a place for each node that fits it.** -/
theorem findAll_perm {p : Pattern} {at? : Node → Option Match}
    (fits : ∀ n, (p.match? n).bind Match.of? = at? n) (names : List String) (tree : Node) :
    (findAll ⟨[p], names⟩ tree).Perm (tree.nodes.filterMap at?) := by
  refine (Match.sort_perm _).trans (.of_eq ?_)
  induction tree.nodes with
  | nil => rfl
  | cons n ns ih =>
      rw [List.flatMap_cons, ih, List.filterMap_cons, List.filterMap_cons, fits]
      cases at? n <;> rfl

/-- **The places of calls** are found once each. -/
theorem findAll_calls (tree : Node) :
    (calls.findAll tree).Perm (tree.nodes.filterMap callAt?) := by
  refine findAll_perm (fun n => ?_) _ tree
  rw [Pattern.match?_pair (by decide) (by decide) (by decide), callAt?, callParts?]
  cases n.parts? _ _ _ <;> rfl

/-- **The places of methods** are found once each. -/
theorem findAll_methods (tree : Node) :
    (methods.findAll tree).Perm (tree.nodes.filterMap methodAt?) := by
  refine findAll_perm (fun n => ?_) _ tree
  rw [Pattern.match?_pair (by decide) (by decide) (by decide), methodAt?, methodParts?]
  cases n.parts? _ _ _ <;> rfl

/-- **The place of a call keeps its name and its arguments.** -/
theorem callAt?_eq_some {n : Node} {m : Match} (h : callAt? n = some m) :
    ∃ name arguments, callParts? n = some (name, arguments)
      ∧ m.capture "name" = .ok name.label ∧ m.capture "args" = .ok arguments.label := by
  obtain ⟨⟨name, arguments⟩, parts, h⟩ := Option.bind_eq_some_iff.1 h
  have kept := Match.kept_of? h
  exact ⟨name, arguments, parts, by rw [Match.capture, kept]; rfl, by rw [Match.capture, kept]; rfl⟩

/-- **The place of a method keeps the method and its body.** -/
theorem methodAt?_eq_some {n : Node} {m : Match} (h : methodAt? n = some m) :
    ∃ name body, methodParts? n = some (name, body)
      ∧ m.capture "method" = .ok n.label ∧ m.capture "body" = .ok body.label := by
  obtain ⟨⟨name, body⟩, parts, h⟩ := Option.bind_eq_some_iff.1 h
  have kept := Match.kept_of? h
  exact ⟨name, body, parts, by rw [Match.capture, kept]; rfl, by rw [Match.capture, kept]; rfl⟩

end Query

end Seams
