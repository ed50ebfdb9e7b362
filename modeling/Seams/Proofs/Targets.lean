import Mathlib.Tactic.Common
import Seams.Proofs.Ancestors
import Seams.Proofs.BuiltIn

/-! # Which nodes are edited
A patcher that finds its nodes by a query and their tokens by a range makes one edit for each node
that it is for, and no other one. Here is what this takes, and that the patcher for methods does so:
its edits are those for the bodies of methods that may return.
Main definitions:
* **`Node.InOrder`** — the children in two roles come in order, one in each;
* **`Node.child?`** — the child in a role, if it is of a kind;
* **`Node.LawfulMethods`** — what the grammar promises of the methods of a tree;
* **`Redirect.TakesPrologue`**, **`Redirect.IsPrologue`** — a method whose body is edited, and its
  edit. -/

namespace Seams

/-! ## Children in roles -/

namespace Node

variable {n c d : Node} {role whole : String}

/-- **The child in a role**, if it is of a kind. -/
def child? (kind role : String) (n : Node) : Option Node :=
  (n.byField? role).filter fun c => c.label.named && c.kind == kind

/-- **The children in two roles come in order**: there is one in each role at most, and the one in
the first role is in front of the one in the second. -/
def InOrder (first second : String) (n : Node) : Prop :=
  n.children.Pairwise fun a b =>
    (b.label.field = first → a.label.field ≠ first ∧ a.label.field ≠ second)
      ∧ (b.label.field = second → a.label.field ≠ second)

instance (first second : String) (n : Node) : Decidable (n.InOrder first second) :=
  inferInstanceAs (Decidable (n.children.Pairwise _))

/-- **The child in a role is the only one that is in it**, if it is taken once. -/
theorem byField?_eq_some
    (once : n.children.Pairwise fun a b => b.label.field = role → a.label.field ≠ role)
    (child : c ∈ n.children) (here : c.label.field = role) : n.byField? role = some c := by
  unfold byField?
  generalize n.children = cs at once child
  induction cs with
  | nil => exact absurd child List.not_mem_nil
  | cons d ds ih =>
      rw [List.pairwise_cons] at once
      rcases List.mem_cons.1 child with rfl | later
      · exact List.find?_cons_of_pos (beq_iff_eq.2 here)
      · have other : (d.label.field == role) = false := by
          rw [beq_eq_false_iff_ne]
          exact once.1 c later here
        rw [List.find?_cons, other]
        exact ih once.2 later

/-- **A child of a kind in a role** is the child in that role, if the role is taken once. -/
theorem child?_eq_some_iff {kind : String}
    (once : n.children.Pairwise fun a b => b.label.field = role → a.label.field ≠ role) :
    n.child? kind role = some c ↔ c ∈ n.children ∧ c.plays kind role = true := by
  rw [child?, Option.filter_eq_some_iff, plays, Bool.and_eq_true _ (c.label.field == role),
    beq_iff_eq]
  constructor
  · rintro ⟨found, kind⟩
    have here := List.find?_some found
    exact ⟨List.mem_of_find?_eq_some found, kind, beq_iff_eq.1 here⟩
  · rintro ⟨child, kind, here⟩
    exact ⟨byField?_eq_some once child here, kind⟩

/-- **A sibling of a kind in a role is found** if there is one. -/
theorem exists_firstPlaying? {kind : String} {cs : List Node} (child : c ∈ cs)
    (plays : c.plays kind role = true) : ∃ x, firstPlaying? kind role cs = some x := by
  induction cs with
  | nil => exact absurd child List.not_mem_nil
  | cons d ds ih =>
      rw [firstPlaying?]
      split
      · exact ⟨_, rfl⟩
      · rename_i passed
        rcases List.mem_cons.1 child with rfl | later
        · exact absurd plays passed
        · exact ih later

/-- **A child of a kind in a role is in that role.** -/
theorem field_of_plays {kind : String} (plays : c.plays kind role = true) :
    c.label.field = role := by
  rw [Node.plays, Bool.and_eq_true, beq_iff_eq] at plays
  exact plays.2

/-- **The two parts of a node are the children in their roles**, if these come in order. -/
theorem parts?_eq_some_iff {first second : String × String} (inOrder : n.InOrder first.2 second.2)
    (ne : first.2 ≠ second.2) : n.parts? whole first second = some (c, d)
      ↔ (n.label.named = true ∧ n.kind = whole) ∧ n.child? first.1 first.2 = some c
        ∧ n.child? second.1 second.2 = some d := by
  have once : n.children.Pairwise fun a b => b.label.field = first.2 → a.label.field ≠ first.2 :=
    inOrder.imp fun apart here => (apart.1 here).1
  have once' : n.children.Pairwise
      fun a b => b.label.field = second.2 → a.label.field ≠ second.2 :=
    inOrder.imp fun apart => apart.2
  rw [child?_eq_some_iff once, child?_eq_some_iff once']
  constructor
  · intro parts
    obtain ⟨kind, first, second⟩ := parts?_eq_some parts
    refine ⟨⟨?_, kind⟩, first, second⟩
    unfold parts? at parts
    split at parts
    · rename_i named
      rw [Bool.and_eq_true] at named
      exact named.1
    · cases parts
  · rintro ⟨⟨named, kind⟩, ⟨child, plays⟩, child', plays'⟩
    obtain ⟨⟨c', rest⟩, found⟩ := exists_firstPlaying? child plays
    obtain ⟨plays_c', before, children, -⟩ := firstPlaying?_eq_some found
    -- The one that is found is the one in the role, as the role is taken once.
    have same : c' = c := by
      have there : c' ∈ n.children := by
        rw [children]
        exact List.mem_append_right _ List.mem_cons_self
      have eq := byField?_eq_some once there (field_of_plays plays_c')
      exact Option.some.inj (eq.symm.trans (byField?_eq_some once child (field_of_plays plays)))
    have behind : d ∈ rest := by
      rw [children, List.mem_append, List.mem_cons] at child'
      rcases child' with earlier | rfl | later
      · rw [InOrder, children, List.pairwise_append] at inOrder
        have apart := inOrder
        have := (apart.2.2 d earlier c' List.mem_cons_self).1 (field_of_plays plays_c')
        exact absurd (field_of_plays plays') this.2
      · exact absurd ((field_of_plays plays_c').symm.trans (field_of_plays plays')) ne
      · exact later
    obtain ⟨⟨d', rest'⟩, found'⟩ := exists_firstPlaying? behind plays'
    obtain ⟨plays_d', between, others, -⟩ := firstPlaying?_eq_some found'
    have same' : d' = d := by
      have there : d' ∈ n.children := by
        have rest_eq : rest = between ++ d' :: rest' := others
        rw [children, rest_eq]
        simp
      have eq := byField?_eq_some once' there (field_of_plays plays_d')
      exact Option.some.inj (eq.symm.trans (byField?_eq_some once' child' (field_of_plays plays')))
    have whole_kind : (n.label.named && n.kind == whole) = true := by
      rw [Bool.and_eq_true, beq_iff_eq]
      exact ⟨named, kind⟩
    rw [parts?, if_pos whole_kind, pair?, found, Option.bind_some, found', Option.map_some, same,
      same']

/-- **Nodes with the same mark are the same node.** -/
theorem Marks.eq_of_mark {mark : Node → Option Nat} {t m : Node} (marks : t.Marks mark)
    (ordered : t.Ordered) (hm : m ∈ t.nodes) (hn : n ∈ t.nodes) {a : Nat}
    (marked : mark m = some a) (marked' : mark n = some a) : m = n := by
  by_contra ne
  have : Std.Symm fun m n : Node => ∀ a, mark m = some a → mark n ≠ some a :=
    ⟨fun _ _ apart a there here => apart a here there⟩
  exact (marks.apart ordered).forall hm hn ne a marked marked'

end Node

/-! ## Patchers that edit one token for each of their nodes -/

/-- **A patcher makes one edit for each node that it is for**, and no other one, if it proposes the
edits of all nodes, each edit is for the token that marks its node, and there is one for each node
that the patcher is for. -/
theorem Patcher.collect_exact {p : Patcher} {s : Script} {tree : Node} {proposed : List Edit}
    {edit? : Node → Option Edit} {mark : Node → Option Nat} {takes : Node → Prop}
    {edits_node : Node → Edit → Prop} (proposes : p.Proposes s proposed)
    (perm : proposed.Perm (tree.nodes.filterMap edit?)) (marks : tree.Marks mark)
    (ordered : tree.Ordered)
    (sits : ∀ n ∈ tree.nodes, ∀ e, edit? n = some e →
      ∃ t, s.tokens.Sits e t ∧ mark n = some t.start)
    (made_iff : ∀ n ∈ tree.nodes, ∀ e, edit? n = some e ↔ takes n ∧ edits_node n e)
    (exists_edit : ∀ n ∈ tree.nodes, takes n → ∃ e, edits_node n e) :
    ∃ edits, p.collect s .empty = .ok edits
      ∧ (∀ n ∈ tree.nodes, takes n → ∃! e, e ∈ edits.toList ∧ edits_node n e)
      ∧ ∀ e ∈ edits.toList, ∃! n, n ∈ tree.nodes ∧ takes n ∧ edits_node n e := by
  have apart : (proposed.map Edit.position).Nodup :=
    (perm.map Edit.position).nodup_iff.2 (marks.edits_nodup ordered sits)
  obtain ⟨edits, added, perm'⟩ := EditSet.insertAll_of_nodup .empty proposed
    (by rwa [EditSet.empty, List.append_nil])
  rw [EditSet.empty, List.append_nil] at perm'
  have mem_iff {e : Edit} : e ∈ edits.toList ↔ ∃ n ∈ tree.nodes, edit? n = some e :=
    (perm'.trans perm).mem_iff.trans List.mem_filterMap
  refine ⟨edits, ?_, fun n hn taken => ?_, fun e mem => ?_⟩
  · rw [proposes, added]
    rfl
  · -- A node has one edit at most.
    obtain ⟨e, edited⟩ := exists_edit n hn taken
    have made := (made_iff n hn e).2 ⟨taken, edited⟩
    refine ⟨e, ⟨mem_iff.2 ⟨n, hn, made⟩, edited⟩, ?_⟩
    rintro f ⟨-, edited'⟩
    exact Option.some.inj (((made_iff n hn f).2 ⟨taken, edited'⟩).symm.trans made)
  · -- An edit is for one node, as its token marks it.
    obtain ⟨n, hn, made⟩ := mem_iff.1 mem
    refine ⟨n, ⟨hn, (made_iff n hn e).1 made⟩, ?_⟩
    rintro m ⟨hm, edited⟩
    obtain ⟨t, sits_t, marked⟩ := sits n hn e made
    obtain ⟨u, sits_u, marked'⟩ := sits m hm e ((made_iff m hm e).2 edited)
    obtain rfl : t = u := Option.some.inj (sits_t.1.symm.trans sits_u.1)
    exact marks.eq_of_mark ordered hm hn marked' marked

/-! ## Methods -/

/-- **What the grammar promises of the methods of a tree.** -/
structure Node.LawfulMethods (t : Node) : Prop where
  /-- A method has a name. -/
  name : ∀ n ∈ t.nodes, n.kind = "method_declaration" → (n.child? "name" "name").isSome
  /-- The name is in front of the body, and there is one of each. -/
  inOrder : ∀ n ∈ t.nodes, n.kind = "method_declaration" → n.InOrder "name" "body"
  /-- Nothing in a method has its range. -/
  alone : ∀ n ∈ t.nodes, n.kind = "method_declaration" → n.Alone

instance (t : Node) : Decidable t.LawfulMethods :=
  decidable_of_iff
    ((∀ n ∈ t.nodes, n.kind = "method_declaration" → (n.child? "name" "name").isSome)
      ∧ (∀ n ∈ t.nodes, n.kind = "method_declaration" → n.InOrder "name" "body")
      ∧ ∀ n ∈ t.nodes, n.kind = "method_declaration" → n.Alone)
    ⟨fun ⟨name, inOrder, alone⟩ => ⟨name, inOrder, alone⟩,
      fun h => ⟨h.name, h.inOrder, h.alone⟩⟩

/-- **The declared return type of a node**, without blanks around it and in lower case. -/
def Node.returnWord (source : Bytes) (n : Node) : Option Bytes :=
  (n.byField? "return_type").map fun type =>
    (Redirect.trimBlanks (source.slice type.start type.stop)).lower

namespace Redirect

variable {source : Bytes} {tree n body : Node}

/-- **A method takes a prologue**: it has a body, and is not declared never to return. -/
structure TakesPrologue (source : Bytes) (n : Node) : Prop where
  /-- It is a method. -/
  method : n.label.named = true ∧ n.kind = "method_declaration"
  /-- It has a body. -/
  body : (n.child? "compound_statement" "body").isSome = true
  /-- It may return. -/
  returns : n.returnWord source ≠ some (bytesOf "never")

/-- **An edit is the prologue of a node**: it takes the place of the brace with which the body
begins, and returns nothing exactly if this is declared. -/
structure IsPrologue (source : Bytes) (tree n : Node) (e : Edit) : Prop where
  /-- It is for the token of the brace. -/
  brace : ∃ body t, n.child? "compound_statement" "body" = some body
    ∧ (TokenStream.ofTree source tree).get? e.position = some t ∧ t.start = body.start
    ∧ t.stop = body.start + 1 ∧ (TokenStream.ofTree source tree).textOf t = bytesOf "\x7b"
  /-- It expects the brace. -/
  expected : e.expected = .exact (bytesOf "\x7b")
  /-- It puts the prologue there. -/
  replacement : e.replacement
    = Registry.prologue (n.returnWord source = some (bytesOf "void"))
  /-- It is made by the patcher for methods. -/
  patcher : e.patcher = methodsName

/-- **What a declared return type says** is told by two words. -/
theorem Returning.ofType_eq_void_iff {type : Bytes} :
    ofType type = .void ↔ (trimBlanks type).lower = bytesOf "void" := by
  unfold ofType
  simp only [beq_iff_eq]
  by_cases void : (trimBlanks type).lower = bytesOf "void"
  · rw [if_pos void]
    exact ⟨fun _ => void, fun _ => rfl⟩
  · rw [if_neg void]
    refine ⟨fun told => ?_, fun told => absurd told void⟩
    split at told <;> cases told

theorem Returning.ofType_eq_never_iff {type : Bytes} :
    ofType type = .never ↔ (trimBlanks type).lower = bytesOf "never" := by
  have words : bytesOf "never" ≠ bytesOf "void" := by decide +kernel
  unfold ofType
  simp only [beq_iff_eq]
  by_cases never : (trimBlanks type).lower = bytesOf "never"
  · rw [if_neg (never ▸ words), if_pos never]
    exact ⟨fun _ => never, fun _ => rfl⟩
  · refine ⟨fun told => ?_, fun told => absurd told never⟩
    rw [if_neg never] at told
    split at told <;> cases told

/-- **What a method returns is read off its own declaration**: the method is found again by its
range. -/
theorem returningAt_of_mem (ordered : tree.Ordered) (hn : n ∈ tree.nodes)
    (nonempty : n.start < n.stop) (alone : n.Alone) :
    (returningAt (.withTree source tree) n.start n.stop = .never
        ↔ n.returnWord source = some (bytesOf "never"))
      ∧ (returningAt (.withTree source tree) n.start n.stop = .void
        ↔ n.returnWord source = some (bytesOf "void")) := by
  rw [returningAt, Script.nodeAt?_of_mem ordered hn nonempty alone, Node.returnWord,
    Option.bind_some]
  cases n.byField? "return_type" with
  | none => simp
  | some type =>
      rw [Option.map_some, Option.some_inj, Option.some_inj]
      exact ⟨Returning.ofType_eq_never_iff, Returning.ofType_eq_void_iff⟩

/-- **A method with a body is not empty**, as its body begins with a brace. -/
theorem method_nonempty (lawful : tree.Lawful source) (hn : n ∈ tree.nodes)
    (child : body ∈ n.children) (kind : body.kind = "compound_statement") : n.start < n.stop := by
  have hb := Node.mem_nodes_of_child child hn
  obtain ⟨brace, first, -, -, -, stop, -⟩ := lawful.brace body hb kind
  have inside := (lawful.spans.ordered body hb).within brace (List.mem_of_mem_head? first)
  have within := (lawful.spans.ordered n hn).within body child
  have := (lawful.spans.ordered body hb).le
  omega

/-- **The query finds a method with a body**, as it has a name in front of the body. -/
theorem exists_methodParts? (methods : tree.LawfulMethods) (hn : n ∈ tree.nodes)
    (is_method : n.label.named = true ∧ n.kind = "method_declaration")
    (child : n.child? "compound_statement" "body" = some body) :
    ∃ name, Query.methodParts? n = some (name, body) := by
  obtain ⟨name, named⟩ := Option.isSome_iff_exists.1 (methods.name n hn is_method.2)
  exact ⟨name, (Node.parts?_eq_some_iff (methods.inOrder n hn is_method.2) (by decide)).2
    ⟨is_method, named, child⟩⟩

/-- **The edit for a method is for the token at the start of its body**, unless the method does not
return. -/
theorem methodEdit?_of_parts {name : Node} (parts : Query.methodParts? n = some (name, body))
    (s : Script) : (Query.methodAt? n).bind (methodEdit? s)
      = if returningAt s n.start n.stop = .never then none
        else (s.tokens.tokenAt? body.start (body.start + 1)).map fun brace =>
          ⟨brace, .of (bytesOf "\x7b"),
            Registry.prologue (returningAt s n.start n.stop = .void), methodsName⟩ := by
  rw [Query.methodAt?, parts]
  rfl

/-- **The edit for a method is its prologue**, and there is one if the method takes it. -/
theorem methodEdit?_eq_some_iff (lawful : tree.Lawful source) (methods : tree.LawfulMethods)
    (hn : n ∈ tree.nodes) {e : Edit} :
    (Query.methodAt? n).bind (methodEdit? (.withTree source tree)) = some e
      ↔ TakesPrologue source n ∧ IsPrologue source tree n e := by
  have expected : Expectation.of (bytesOf "\x7b") = .exact (bytesOf "\x7b") := by decide +kernel
  -- What the parts of a method say of it, and what it returns.
  have told {name body : Node} (parts : Query.methodParts? n = some (name, body)) :
      ((n.label.named = true ∧ n.kind = "method_declaration")
          ∧ n.child? "compound_statement" "body" = some body)
        ∧ (returningAt (.withTree source tree) n.start n.stop = .never
          ↔ n.returnWord source = some (bytesOf "never"))
        ∧ (returningAt (.withTree source tree) n.start n.stop = .void
          ↔ n.returnWord source = some (bytesOf "void")) := by
    obtain ⟨kind, -, child, plays⟩ := Node.parts?_eq_some parts
    obtain ⟨is_method, -, here⟩ :=
      (Node.parts?_eq_some_iff (methods.inOrder n hn kind) (by decide)).1 parts
    exact ⟨⟨is_method, here⟩, returningAt_of_mem lawful.spans.ordered hn
      (method_nonempty lawful hn child (Node.kind_of_plays plays)) (methods.alone n hn kind)⟩
  have located {start stop i : Nat} :
      (TokenStream.ofTree source tree).tokenAt? start stop = some i
        ↔ ∃ t, (TokenStream.ofTree source tree).get? i = some t ∧ t.start = start ∧ t.stop = stop :=
    TokenStream.tokenAt?_eq_some_iff (TokenStream.ofTree_spans source tree)
  constructor
  · intro made
    obtain ⟨method, at_, -⟩ := Option.bind_eq_some_iff.1 made
    obtain ⟨name, body, parts, -⟩ := Query.methodAt?_eq_some at_
    obtain ⟨⟨is_method, child⟩, never, void⟩ := told parts
    obtain ⟨j, u, located', there', -, -, text⟩ := brace_token lawful hn parts
    rw [methodEdit?_of_parts parts] at made
    split at made
    · cases made
    · rename_i returns
      obtain ⟨i, found, rfl⟩ := Option.map_eq_some_iff.1 made
      obtain ⟨t, there, start, stop⟩ := located.1 found
      obtain rfl : i = j := Option.some.inj (found.symm.trans located')
      obtain rfl : t = u := Option.some.inj (there.symm.trans there')
      refine ⟨⟨is_method, by rw [child]; rfl, fun word => returns (never.2 word)⟩,
        ⟨body, t, child, there, start, stop, text⟩, expected, ?_, rfl⟩
      exact congrArg Registry.prologue (decide_eq_decide.2 void)
  · rintro ⟨takes, prologue⟩
    obtain ⟨body, t, child, there, start, stop, -⟩ := prologue.brace
    obtain ⟨name, parts⟩ := exists_methodParts? methods hn takes.method child
    obtain ⟨-, never, void⟩ := told parts
    have found : (Script.withTree source tree).tokens.tokenAt? body.start (body.start + 1)
        = some e.position := located.2 ⟨t, there, start, stop⟩
    have replacement := prologue.replacement
    rw [← decide_eq_decide.2 void] at replacement
    rw [methodEdit?_of_parts parts, if_neg fun told => takes.returns (never.1 told), found,
      Option.map_some, expected, ← prologue.expected, ← replacement, ← prologue.patcher]

/-- **The patcher for methods edits exactly the bodies of methods that may return.** Over a source
that fits the grammar it succeeds. For each method that has a body and is not declared never to
return there is one edit: it takes the place of the brace with which the body begins, expects the
brace, and brings the prologue that returns nothing exactly if this is what is declared. There is no
other edit. So a method without a body has none, a function or a closure has none, and a method in
the body of another one has its own. -/
theorem methods_collect_exact (lawful : tree.Lawful source) (methods_lawful : tree.LawfulMethods) :
    ∃ edits, methods.collect (.withTree source tree) .empty = .ok edits
      ∧ (∀ n ∈ tree.nodes, TakesPrologue source n →
        ∃! e, e ∈ edits.toList ∧ IsPrologue source tree n e)
      ∧ ∀ e ∈ edits.toList,
        ∃! n, n ∈ tree.nodes ∧ TakesPrologue source n ∧ IsPrologue source tree n e := by
  have found := (Query.findAll_methods tree).filterMap (methodEdit? (.withTree source tree))
  rw [List.filterMap_filterMap] at found
  refine Patcher.collect_exact (methods_proposes lawful) found (marks_methods lawful)
    lawful.spans.ordered (fun n hn e made => ?_)
    (fun n hn e => methodEdit?_eq_some_iff lawful methods_lawful hn) fun n hn takes => ?_
  · obtain ⟨method, at_, made⟩ := Option.bind_eq_some_iff.1 made
    obtain ⟨t, sits, marked, -⟩ := sits_of_methodEdit? lawful hn at_ made
    exact ⟨t, sits, marked⟩
  · -- The brace is a token, so there is an edit for it.
    obtain ⟨body, child⟩ := Option.isSome_iff_exists.1 takes.body
    obtain ⟨name, parts⟩ := exists_methodParts? methods_lawful hn takes.method child
    obtain ⟨i, t, located, there, start, -, text⟩ := brace_token lawful hn parts
    obtain ⟨u, there', -, stop⟩ :=
      (TokenStream.tokenAt?_eq_some_iff (TokenStream.ofTree_spans source tree)).1 located
    obtain rfl : t = u := Option.some.inj (there.symm.trans there')
    exact ⟨⟨i, .exact (bytesOf "\x7b"),
      Registry.prologue (n.returnWord source = some (bytesOf "void")), methodsName⟩,
      ⟨⟨body, t, child, there, start, stop, text⟩, rfl, rfl, rfl⟩⟩

/-- **A class with a method that returns nothing**, in which a class with another method is made,
and with a method that never returns. -/
def nestedSource : Bytes := bytesOf <| "<?php class A \x7b "
  ++ "function b(): Void \x7b new class \x7b function c() \x7b \x7d \x7d; \x7d "
  ++ "function d(): never \x7b \x7d \x7d"

/-- **The first two methods have an edit each**, and the third one has none. -/
theorem methods_collect_exact_nested : ∃ edits,
    methods.collect (.withTree nestedSource (Node.ofSource nestedSource)) .empty = .ok edits
      ∧ edits.toList.map (fun e => (e.position, e.replacement))
        = [(17, Registry.prologue true), (31, Registry.prologue false)]
      ∧ ∀ e ∈ edits.toList, ∃! n, n ∈ (Node.ofSource nestedSource).nodes
        ∧ TakesPrologue nestedSource n
        ∧ IsPrologue nestedSource (Node.ofSource nestedSource) n e := by
  have lawful : (Node.ofSource nestedSource).Lawful nestedSource := by decide +kernel
  have methods_lawful : (Node.ofSource nestedSource).LawfulMethods := by decide +kernel
  obtain ⟨edits, collected, -, sound⟩ := methods_collect_exact lawful methods_lawful
  have answered : (methods.collect (.withTree nestedSource (Node.ofSource nestedSource))
      .empty).toOption.map (fun edits => edits.toList.map fun e => (e.position, e.replacement))
      = some [(17, Registry.prologue true), (31, Registry.prologue false)] := by decide +kernel
  rw [collected] at answered
  exact ⟨edits, collected, Option.some.inj answered, sound⟩

end Redirect

end Seams
