import Mathlib.Data.List.Basic
import Mathlib.Tactic.Common
import Seams.Proofs.Records
import Seams.Proofs.Targets

/-! # Which calls are redirected
Whether the arguments of a call make a closure is read off the tokens between two bytes, and whether
the call is part of a text off the nodes above its name. In the trees of the grammar these are the
leaves of the arguments and the ancestors of the name, so the patcher for calls edits exactly the
direct calls by the names that are listed.
Main definitions:
* **`Node.words`** — the texts of the leaves of a node, without comments;
* **`Node.LawfulCalls`** — what the grammar promises of the calls of a tree;
* **`Redirect.TakesProxy`**, **`Redirect.IsRedirection`** — a call that is redirected, and its
  edit. -/

namespace Seams

/-! ## Tokens within a range -/

namespace Token

/-- **Tokens from a byte on that end within a range** are those in the range. -/
theorem Spans.takeWhile_eq_filter {ts : List Token} {lo hi start stop : Nat}
    (h : Spans lo hi ts) (from_ : start ≤ lo) :
    ts.takeWhile (·.stop ≤ stop) = ts.filter fun t => start ≤ t.start ∧ t.stop ≤ stop := by
  induction ts generalizing lo with
  | nil => rfl
  | cons t ts ih =>
      have whole := h
      obtain ⟨rfl, nonempty, rest⟩ := h
      by_cases ends : t.stop ≤ stop
      · rw [List.takeWhile_cons_of_pos (by rwa [decide_eq_true_eq]),
          List.filter_cons_of_pos (by rw [decide_eq_true_eq]; exact ⟨from_, ends⟩),
          ih rest (by omega)]
      · -- The later tokens end behind the range as well.
        have none_in : ts.filter (fun t => start ≤ t.start ∧ t.stop ≤ stop) = [] := by
          rw [List.filter_eq_nil_iff]
          intro u hu
          have := rest.within hu
          rw [decide_eq_true_eq]
          omega
        rw [List.takeWhile_cons_of_neg (by rwa [decide_eq_true_eq]),
          List.filter_cons_of_neg (by rw [decide_eq_true_eq]; exact fun both => ends both.2),
          none_in]

/-- **Tokens from the one that starts a range on that end within it** are those in the range. -/
theorem Spans.drop_takeWhile {ts : List Token} {lo hi n stop : Nat} {t : Token}
    (h : Spans lo hi ts) (there : ts[n]? = some t) :
    (ts.drop n).takeWhile (·.stop ≤ stop)
      = ts.filter fun u => t.start ≤ u.start ∧ u.stop ≤ stop := by
  induction ts generalizing lo n with
  | nil => simp at there
  | cons u ts ih =>
      cases n with
      | zero =>
          obtain rfl : u = t := by simpa using there
          exact h.takeWhile_eq_filter (Nat.le_of_eq h.1)
      | succ n =>
          obtain ⟨rfl, nonempty, rest⟩ := h
          have later := rest.within (List.mem_of_getElem? there)
          rw [List.drop_succ_cons, ih rest there, List.filter_cons_of_neg]
          rw [decide_eq_true_eq]
          omega

/-- **The tokens that count are the leaves that do**, of leaves that follow each other. -/
theorem filter_cover {size offset : Nat} {leaves : List (Label × Option String)}
    (apart : leaves.Pairwise fun a b => a.1.stop ≤ b.1.start)
    (within : ∀ x ∈ leaves, offset ≤ x.1.start ∧ x.1.start ≤ x.1.stop ∧ x.1.stop ≤ size) :
    (cover size offset leaves).filter isSignificant
      = (leaves.filter fun x => x.1.start < x.1.stop && (ofLeaf x).isSignificant).map ofLeaf := by
  have gap (start stop : Nat) : ¬ (trivia start stop).isSignificant = true := by
    simp [isSignificant, isTrivia, trivia]
  induction leaves generalizing offset with
  | nil =>
      rw [cover]
      split
      · exact List.filter_cons_of_neg (gap _ _)
      · rfl
  | cons x rest ih =>
      obtain ⟨behind, le, inside⟩ := within x List.mem_cons_self
      rw [List.pairwise_cons] at apart
      have later := fun offset (bound : ∀ y ∈ rest, offset ≤ y.1.start) =>
        ih apart.2 fun y hy => ⟨bound y hy, (within y (List.mem_cons_of_mem _ hy)).2⟩
      rw [cover]
      by_cases nonempty : x.1.start < x.1.stop
      · have others := later x.1.stop apart.1
        have counted : (ofLeaf x :: cover size x.1.stop rest).filter isSignificant
            = ((x :: rest).filter fun x =>
              x.1.start < x.1.stop && (ofLeaf x).isSignificant).map ofLeaf := by
          rw [List.filter_cons, List.filter_cons, others, decide_eq_true nonempty, Bool.true_and]
          split <;> rfl
        rw [if_pos ⟨nonempty, behind, inside⟩]
        split
        · rw [List.filter_cons_of_neg (gap _ _), counted]
        · exact counted
      · -- An empty leaf is no token.
        rw [if_neg fun fits => nonempty fits.1, List.filter_cons_of_neg (by simp [nonempty])]
        exact later offset fun y hy => (within y (List.mem_cons_of_mem _ hy)).1

end Token

/-! ## Leaves of a node -/

namespace Node

/-- **Whether a leaf counts**: it is not empty, and no comment. -/
def counts (x : Label × Option String) : Bool :=
  x.1.start < x.1.stop && (Token.ofLeaf x).isSignificant

/-- **The texts of the leaves of a node**, without comments. -/
def words (source : Bytes) (n : Node) : List Bytes :=
  (n.leaves.filter counts).map fun x => source.slice x.1.start x.1.stop

variable {n a t : Node}

/-- **The texts of the leaves of a node do not depend on its parent.** -/
theorem words_eq (source : Bytes) (n : Node) (parent : Option String) :
    ((n.leavesUnder parent).filter counts).map (fun x => source.slice x.1.start x.1.stop)
      = n.words source := by
  obtain ⟨l, cs⟩ := n
  cases cs with
  | nil =>
      have alike : counts (l, parent) = counts (l, none) := rfl
      rw [words, leaves, leavesUnder, leavesUnder, List.filter_cons, List.filter_cons, alike]
      split <;> rfl
  | cons c cs => rfl

/-- **The leaves of a tree within the range of a node** are those of the node. -/
theorem Ordered.filter_leaves (ordered : t.Ordered) (mem : a ∈ t.nodes) (parent : Option String) :
    ∃ parent', (t.leavesUnder parent).filter
        (fun x => counts x && decide (a.start ≤ x.1.start ∧ x.1.stop ≤ a.stop))
      = (a.leavesUnder parent').filter counts := by
  induction t generalizing parent with
  | mk l cs ih =>
      rcases mem_nodes.1 mem with rfl | ⟨c, hc, below⟩
      · refine ⟨parent, List.filter_congr fun x hx => ?_⟩
        have inside := ordered.leaf_within hx
        rw [decide_eq_true ⟨inside.1, inside.2.2⟩, Bool.and_true]
      · obtain ⟨parent', same⟩ := ih c hc (ordered.child hc) below (some l.kind)
        have within := (ordered.child hc).within below
        have apart := (ordered _ (mem_nodes_self _)).apart
        have all : (mk l cs).leavesUnder parent = cs.flatMap (leavesUnder (some l.kind)) := by
          cases cs with
          | nil => exact absurd hc List.not_mem_nil
          | cons d ds => rw [leavesUnder, leavesOfAll_eq]
        -- The leaves of the other children lie in front of the range or behind it.
        obtain ⟨before, after, rfl⟩ := List.append_of_mem hc
        rw [children_mk, List.pairwise_append, List.pairwise_cons] at apart
        have none_in (ds : List Node) (sub : ∀ d ∈ ds, d ∈ before ++ c :: after)
            (outside : ∀ d ∈ ds, d.stop ≤ c.start ∨ c.stop ≤ d.start) :
            (ds.flatMap (leavesUnder (some l.kind))).filter
              (fun x => counts x && decide (a.start ≤ x.1.start ∧ x.1.stop ≤ a.stop)) = [] := by
          rw [List.filter_eq_nil_iff]
          intro x hx both
          obtain ⟨d, hd, leaf⟩ := List.mem_flatMap.1 hx
          rw [counts, Bool.and_eq_true, Bool.and_eq_true, decide_eq_true_eq,
            decide_eq_true_eq] at both
          have := (ordered.child (sub d hd)).leaf_within leaf
          have := outside d hd
          omega
        have first := none_in before (fun d hd => List.mem_append_left _ hd)
          fun d hd => .inl (apart.2.2 d hd c List.mem_cons_self)
        have last := none_in after
          (fun d hd => List.mem_append_right _ (List.mem_cons_of_mem _ hd))
          fun d hd => .inr (apart.2.1.1 d hd)
        refine ⟨parent', ?_⟩
        rw [all, List.flatMap_append, List.flatMap_cons, List.filter_append, List.filter_append,
          first, last, same, List.nil_append, List.append_nil]

/-- **A leaf of a node of a tree is a leaf of the tree**, maybe below another kind. -/
theorem exists_leaf_of_mem (mem : a ∈ t.nodes) {x : Label × Option String} {parent : Option String}
    (leaf : x ∈ a.leavesUnder parent) (parent' : Option String) :
    ∃ kind, (x.1, kind) ∈ t.leavesUnder parent' := by
  induction t generalizing parent' with
  | mk l cs ih =>
      rcases mem_nodes.1 mem with rfl | ⟨c, hc, below⟩
      · cases cs with
        | nil =>
            rw [leavesUnder, List.mem_singleton] at leaf
            exact ⟨parent', by rw [leaf, leavesUnder]; exact List.mem_singleton_self _⟩
        | cons d ds => exact ⟨x.2, leaf⟩
      · cases cs with
        | nil => exact absurd hc List.not_mem_nil
        | cons d ds =>
            obtain ⟨kind, there⟩ := ih c hc below (some l.kind)
            exact ⟨kind, mem_leavesUnder.2 ⟨c, hc, there⟩⟩

/-- **A node begins with a leaf** that is not empty. -/
def Opens (n : Node) : Prop := ∃ x ∈ n.leaves.head?, x.1.start = n.start ∧ x.1.start < x.1.stop

instance (n : Node) : Decidable n.Opens :=
  inferInstanceAs (Decidable (∃ x ∈ n.leaves.head?, x.1.start = n.start ∧ x.1.start < x.1.stop))

end Node

namespace Redirect

variable {source : Bytes} {tree a : Node}

/-- **What counts between two bytes is what the node over them reads**, leaf by leaf. -/
theorem significantWithin_eq (spans : tree.Over source) (mem : a ∈ tree.nodes) (opens : a.Opens) :
    significantWithin (.ofTree source tree) a.start a.stop = some (a.words source) := by
  obtain ⟨parent, inside⟩ := spans.ordered.filter_leaves mem none
  obtain ⟨x, first, start, nonempty⟩ := opens
  obtain ⟨kind, leaf⟩ := Node.exists_leaf_of_mem mem (List.mem_of_mem_head? first) none
  obtain ⟨i, there⟩ := TokenStream.get?_of_leaf spans leaf nonempty
  have covers := TokenStream.ofTree_spans source tree
  have position : (TokenStream.ofTree source tree).positionAt? a.start = some i :=
    (TokenStream.positionAt?_eq_some_iff covers).2 ⟨_, there, start⟩
  rw [TokenStream.get?, ← Array.getElem?_toList] at there
  have counted : (TokenStream.ofTree source tree).tokens.toList.filter Token.isSignificant
      = (tree.leaves.filter Node.counts).map Token.ofLeaf := by
    show (Token.cover source.size 0 tree.walk).filter _ = _
    rw [Node.walk_eq_leaves]
    refine Token.filter_cover (spans.ordered.leaves_apart none) fun y hy => ?_
    have := spans.ordered.leaf_within hy
    have := spans.within
    omega
  -- The tokens that count are leaves, and those in the range are the leaves of the node.
  have within : ((tree.leaves.filter Node.counts).map Token.ofLeaf).filter
        (fun t => a.start ≤ t.start ∧ t.stop ≤ a.stop)
      = ((a.leavesUnder parent).filter Node.counts).map Token.ofLeaf := by
    rw [List.filter_map, List.filter_filter, ← inside]
    refine congrArg (List.map Token.ofLeaf) (List.filter_congr fun y _ => ?_)
    exact Bool.and_comm _ _
  have starts : (Token.ofLeaf (x.1, kind)).start = a.start := start
  rw [significantWithin, position, Option.map_some, covers.drop_takeWhile there, starts,
    List.filter_comm, counted, within, List.map_map, ← Node.words_eq source a parent]
  rfl

/-- **Arguments make a closure** exactly if they read as three dots in parentheses. -/
theorem makesClosure_iff (spans : tree.Over source) (mem : a ∈ tree.nodes) (opens : a.Opens) :
    makesClosure (.ofTree source tree) a.start a.stop = true
      ↔ a.words source = [bytesOf "(", bytesOf "...", bytesOf ")"] := by
  rw [makesClosure, significantWithin_eq spans mem opens, beq_iff_eq, Option.some_inj]

/-- **A name is part of a text** exactly if there is a text above it. -/
theorem isInterpolated_iff (ordered : tree.Ordered) {c : Node} (mem : c ∈ tree.nodes)
    (leaf : c.children = []) (nonempty : c.start < c.stop) (kind : c.kind = "name") :
    isInterpolated (.withTree source tree) c.start c.stop = true
      ↔ ∃ m ∈ tree.nodes, m.kind ∈ interpolatingKinds ∧ c ∈ m.descendants := by
  obtain ⟨above, path, met⟩ : ∃ above,
      (Script.withTree source tree).nodePath? c.start c.stop = some (c :: above)
        ∧ ∀ m, m ∈ above ↔ m ∈ tree.nodes ∧ c ∈ m.descendants :=
    Script.nodePath?_of_mem ordered mem nonempty (.of_leaf leaf)
  have other : interpolatingKinds.contains c.kind = false := by
    rw [kind]
    decide
  rw [isInterpolated, path, Option.getD_some, List.any_cons, other, Bool.false_or, List.any_eq_true]
  constructor
  · rintro ⟨m, hm, text⟩
    obtain ⟨there, below⟩ := (met m).1 hm
    exact ⟨m, there, List.contains_iff_mem.1 text, below⟩
  · rintro ⟨m, there, text, below⟩
    exact ⟨m, (met m).2 ⟨there, below⟩, List.contains_iff_mem.2 text⟩

end Redirect

/-! ## Direct calls -/

/-- **What the grammar promises of the calls of a tree.** -/
structure Node.LawfulCalls (t : Node) : Prop where
  /-- What is called stands in front of the arguments, and there is one of each. -/
  inOrder : ∀ n ∈ t.nodes, n.kind = "function_call_expression" → n.InOrder "function" "arguments"
  /-- Arguments begin with a leaf. -/
  opens : ∀ n ∈ t.nodes, n.kind = "arguments" → n.Opens

instance (t : Node) : Decidable t.LawfulCalls :=
  decidable_of_iff
    ((∀ n ∈ t.nodes, n.kind = "function_call_expression" → n.InOrder "function" "arguments")
      ∧ ∀ n ∈ t.nodes, n.kind = "arguments" → n.Opens)
    ⟨fun ⟨inOrder, opens⟩ => ⟨inOrder, opens⟩, fun h => ⟨h.inOrder, h.opens⟩⟩

namespace Redirect

variable {source : Bytes} {tree n name arguments : Node} {whitelist blacklist : NameSet} {e : Edit}

/-- **A call is redirected**: it is a direct call, by a name that is on the one list and not on the
other. -/
structure TakesProxy (whitelist blacklist : NameSet) (source : Bytes) (tree n : Node) : Prop where
  /-- It is a call. -/
  call : n.label.named = true ∧ n.kind = "function_call_expression"
  /-- It is by a name, which is well-formed text and listed, and not part of a text. -/
  callee : ∃ name word, n.child? "name" "function" = some name
    ∧ source.slice name.start name.stop = bytesOf word
    ∧ Text.foldCase word ∈ whitelist.toList ∧ Text.foldCase word ∉ blacklist.toList
    ∧ ∀ m ∈ tree.nodes, m.kind ∈ interpolatingKinds → name ∉ m.descendants
  /-- Its arguments do not make a closure. -/
  arguments : ∃ arguments, n.child? "arguments" "arguments" = some arguments
    ∧ arguments.words source ≠ [bytesOf "(", bytesOf "...", bytesOf ")"]

/-- **An edit redirects a call**: it puts the proxy in front of the name. -/
structure IsRedirection (source : Bytes) (tree n : Node) (e : Edit) : Prop where
  /-- It is for the token of the name, expects the name, and puts the proxy in front of it. -/
  callee : ∃ name t, n.child? "name" "function" = some name
    ∧ (TokenStream.ofTree source tree).get? e.position = some t ∧ t.start = name.start
    ∧ t.stop = name.stop ∧ e.expected = .of (source.slice name.start name.stop)
    ∧ bytesOf e.replacement = bytesOf "\\__FuncProxy__::" ++ source.slice name.start name.stop
  /-- It is made by the patcher for calls. -/
  patcher : e.patcher = callsName

/-- **When there is an edit for a call**, and which one. -/
theorem callEdit?_of_parts (parts : Query.callParts? n = some (name, arguments)) (s : Script) :
    (Query.callAt? n).bind (callEdit? whitelist blacklist s) = some e
      ↔ ∃ word i, (s.bytesAt name.start name.stop).text? = some word
        ∧ makesClosure s.tokens arguments.start arguments.stop = false
        ∧ isInterpolated s name.start name.stop = false
        ∧ s.tokens.tokenAt? name.start name.stop = some i
        ∧ isRedirected whitelist blacklist word = true
        ∧ e = ⟨i, .of (bytesOf word), Registry.redirected word, callsName⟩ := by
  have edit : (Query.callAt? n).bind (callEdit? whitelist blacklist s)
      = (((s.bytesAt name.start name.stop).text?.bind fun word =>
          if makesClosure s.tokens arguments.start arguments.stop
              || isInterpolated s name.start name.stop then none
          else (s.tokens.tokenAt? name.start name.stop).map fun i => (i, word)).filter
            fun site => isRedirected whitelist blacklist site.2).map fun site =>
          ⟨site.1, .of (bytesOf site.2), Registry.redirected site.2, callsName⟩ := by
    rw [Query.callAt?, parts]
    rfl
  rw [edit, Option.map_eq_some_iff]
  constructor
  · rintro ⟨⟨i, word⟩, found, rfl⟩
    rw [Option.filter_eq_some_iff, Option.bind_eq_some_iff] at found
    obtain ⟨⟨word', decoded, site⟩, listed⟩ := found
    split at site
    · cases site
    · rename_i kept
      obtain ⟨i', located, same⟩ := Option.map_eq_some_iff.1 site
      cases same
      rw [Bool.not_eq_true, Bool.or_eq_false_iff] at kept
      exact ⟨word, i, decoded, kept.1, kept.2, located, listed, rfl⟩
  · rintro ⟨word, i, decoded, calls, outside, located, listed, rfl⟩
    refine ⟨(i, word), ?_, rfl⟩
    rw [decoded, Option.bind_some, calls, outside, Bool.or_false, if_neg Bool.false_ne_true,
      located, Option.map_some, Option.filter_some, if_pos listed]

/-- **A call is redirected by a listed name.** -/
theorem isRedirected_iff {word : String} : isRedirected whitelist blacklist word = true
    ↔ Text.foldCase word ∈ whitelist.toList ∧ Text.foldCase word ∉ blacklist.toList := by
  rw [isRedirected, Bool.and_eq_true, Bool.not_eq_true', NameSet.contains, NameSet.contains,
    List.contains_iff_mem, ← Bool.not_eq_true, List.contains_iff_mem, and_comm]

/-- **What stands in place of a name** is the name with the proxy in front of it. -/
theorem bytesOf_redirected (word : String) :
    bytesOf (Registry.redirected word) = bytesOf "\\__FuncProxy__::" ++ bytesOf word :=
  String.toByteArray_append

/-- **What the parts of a call say of it.** -/
theorem call_parts (lawful : tree.Lawful source) (calls : tree.LawfulCalls) (hn : n ∈ tree.nodes)
    (parts : Query.callParts? n = some (name, arguments)) :
    ((n.label.named = true ∧ n.kind = "function_call_expression")
        ∧ n.child? "name" "function" = some name
        ∧ n.child? "arguments" "arguments" = some arguments)
      ∧ (makesClosure (.ofTree source tree) arguments.start arguments.stop = true
        ↔ arguments.words source = [bytesOf "(", bytesOf "...", bytesOf ")"])
      ∧ (isInterpolated (.withTree source tree) name.start name.stop = true
        ↔ ∃ m ∈ tree.nodes, m.kind ∈ interpolatingKinds ∧ name ∈ m.descendants) := by
  obtain ⟨kind, ⟨child, plays⟩, child', plays'⟩ := Node.parts?_eq_some parts
  obtain ⟨leaf, nonempty⟩ := lawful.callee n hn kind name child plays
  have within := Node.mem_nodes_of_child child' hn
  exact ⟨(Node.parts?_eq_some_iff (calls.inOrder n hn kind) (by decide)).1 parts,
    makesClosure_iff lawful.spans within (calls.opens _ within (Node.kind_of_plays plays')),
    isInterpolated_iff lawful.spans.ordered (Node.mem_nodes_of_child child hn) leaf nonempty
      (Node.kind_of_plays plays)⟩

/-- **The edit for a call redirects it**, and there is one if the call is redirected. -/
theorem callEdit?_eq_some_iff (lawful : tree.Lawful source) (calls : tree.LawfulCalls)
    (hn : n ∈ tree.nodes) :
    (Query.callAt? n).bind (callEdit? whitelist blacklist (.withTree source tree)) = some e
      ↔ TakesProxy whitelist blacklist source tree n ∧ IsRedirection source tree n e := by
  have located {start stop i : Nat} :
      (TokenStream.ofTree source tree).tokenAt? start stop = some i
        ↔ ∃ t, (TokenStream.ofTree source tree).get? i = some t ∧ t.start = start ∧ t.stop = stop :=
    TokenStream.tokenAt?_eq_some_iff (TokenStream.ofTree_spans source tree)
  constructor
  · intro made
    obtain ⟨call, at_, -⟩ := Option.bind_eq_some_iff.1 made
    obtain ⟨name, arguments, parts, -⟩ := Query.callAt?_eq_some at_
    obtain ⟨⟨is_call, child, child'⟩, closure, text⟩ := call_parts lawful calls hn parts
    obtain ⟨word, i, decoded, calls, outside, found, listed, rfl⟩ :=
      (callEdit?_of_parts parts _).1 made
    obtain ⟨t, there, start, stop⟩ := located.1 found
    have reads : source.slice name.start name.stop = bytesOf word :=
      (bytesOf_of_text? decoded).symm
    have direct : ∀ m ∈ tree.nodes, m.kind ∈ interpolatingKinds → name ∉ m.descendants := by
      intro m hm kind below
      rw [text.2 ⟨m, hm, kind, below⟩] at outside
      cases outside
    have makes_none : arguments.words source ≠ [bytesOf "(", bytesOf "...", bytesOf ")"] := by
      intro reads
      have none_made : makesClosure (.ofTree source tree) arguments.start arguments.stop = false :=
        calls
      rw [closure.2 reads] at none_made
      cases none_made
    obtain ⟨white, black⟩ := isRedirected_iff.1 listed
    refine ⟨⟨is_call, ⟨name, word, child, reads, white, black, direct⟩, arguments, child',
      makes_none⟩, ⟨name, t, child, there, start, stop, ?_, ?_⟩, rfl⟩
    · rw [reads]
    · rw [reads]
      exact bytesOf_redirected word
  · rintro ⟨takes, redirection⟩
    obtain ⟨name, word, child, reads, white, black, direct⟩ := takes.callee
    obtain ⟨arguments, child', makes_none⟩ := takes.arguments
    obtain ⟨name', t, same, there, start, stop, expected, replacement⟩ := redirection.callee
    obtain rfl : name = name' := Option.some.inj (child.symm.trans same)
    have parts : Query.callParts? n = some (name, arguments) :=
      (Node.parts?_eq_some_iff (calls.inOrder n hn takes.call.2) (by decide)).2
        ⟨takes.call, child, child'⟩
    obtain ⟨-, closure, text⟩ := call_parts lawful calls hn parts
    refine (callEdit?_of_parts parts _).2 ⟨word, e.position, ?_, ?_, ?_, ?_,
      isRedirected_iff.2 ⟨white, black⟩, ?_⟩
    · show (source.slice name.start name.stop).text? = some word
      rw [reads, Bytes.text?_bytesOf]
    · rw [Bool.eq_false_iff]
      exact fun made => makes_none (closure.1 made)
    · rw [Bool.eq_false_iff]
      intro inside
      obtain ⟨m, hm, kind, below⟩ := text.1 inside
      exact direct m hm kind below
    · exact located.2 ⟨t, there, start, stop⟩
    · rw [reads, ← bytesOf_redirected] at replacement
      rw [reads] at expected
      rw [← expected, ← bytesOf_inj replacement, ← redirection.patcher]

/-- **The patcher for calls edits exactly the direct calls.** Over a source that fits the grammar it
succeeds, whatever names are listed. There is one edit for each call by a plain name that is
well-formed text, is on the first list and not on the second in lower case, and is not within a
text, if the leaves of the arguments apart from comments are not three dots in parentheses. The edit
is for the token of the name, expects what the name reads, and puts the proxy in front of it. There
is no other edit. -/
theorem calls_collect_exact (lawful : tree.Lawful source) (calls_lawful : tree.LawfulCalls)
    (whitelist blacklist : NameSet) :
    ∃ edits, (calls whitelist blacklist).collect (.withTree source tree) .empty = .ok edits
      ∧ (∀ n ∈ tree.nodes, TakesProxy whitelist blacklist source tree n →
        ∃! e, e ∈ edits.toList ∧ IsRedirection source tree n e)
      ∧ ∀ e ∈ edits.toList, ∃! n, n ∈ tree.nodes
        ∧ TakesProxy whitelist blacklist source tree n ∧ IsRedirection source tree n e := by
  have found := (Query.findAll_calls tree).filterMap
    (callEdit? whitelist blacklist (.withTree source tree))
  rw [List.filterMap_filterMap] at found
  refine Patcher.collect_exact (calls_proposes whitelist blacklist lawful) found
    (marks_calls lawful) lawful.spans.ordered (fun n hn e made => ?_)
    (fun n hn e => callEdit?_eq_some_iff lawful calls_lawful hn) fun n hn takes => ?_
  · obtain ⟨call, at_, made⟩ := Option.bind_eq_some_iff.1 made
    obtain ⟨t, word, sits, marked, -⟩ :=
      sits_of_callEdit? whitelist blacklist lawful hn at_ made
    exact ⟨t, sits, marked⟩
  · -- The name is a token, so there is an edit for it.
    obtain ⟨name, word, child, reads, -⟩ := takes.callee
    obtain ⟨arguments, child', -⟩ := takes.arguments
    have parts : Query.callParts? n = some (name, arguments) :=
      (Node.parts?_eq_some_iff (calls_lawful.inOrder n hn takes.call.2) (by decide)).2
        ⟨takes.call, child, child'⟩
    obtain ⟨i, -, there⟩ := callee_token lawful hn parts
    refine ⟨⟨i, .of (source.slice name.start name.stop), Registry.redirected word, callsName⟩,
      ⟨name, _, child, there, rfl, rfl, rfl, ?_⟩, rfl⟩
    rw [reads]
    exact bytesOf_redirected word

/-- **A source that calls `rand` directly**, with a call of `time` in it, makes a closure of it,
calls it within a text and by its full name, and calls it in other letters. -/
def directSource : Bytes := bytesOf
  "<?php rand(time()); rand(/* */ ...); echo \"\x7b$f[rand()]\x7d\"; \\rand(); RAND(2);"

/-- **Only the first and the last call are redirected**, if `time` is on both lists. -/
theorem calls_collect_exact_rand : ∃ edits,
    (calls (.ofList ["rand", "time"]) (.ofList ["time"])).collect
        (.withTree directSource (Node.ofSource directSource)) .empty = .ok edits
      ∧ edits.toList.map (fun e => (e.position, e.replacement))
        = [(2, "\\__FuncProxy__::rand"), (39, "\\__FuncProxy__::RAND")]
      ∧ ∀ e ∈ edits.toList, ∃! n, n ∈ (Node.ofSource directSource).nodes
        ∧ TakesProxy (.ofList ["rand", "time"]) (.ofList ["time"]) directSource
          (Node.ofSource directSource) n
        ∧ IsRedirection directSource (Node.ofSource directSource) n e := by
  have lawful : (Node.ofSource directSource).Lawful directSource := by decide +kernel
  have calls_lawful : (Node.ofSource directSource).LawfulCalls := by decide +kernel
  obtain ⟨edits, collected, -, sound⟩ :=
    calls_collect_exact lawful calls_lawful (.ofList ["rand", "time"]) (.ofList ["time"])
  have answered : ((calls (.ofList ["rand", "time"]) (.ofList ["time"])).collect
      (.withTree directSource (Node.ofSource directSource)) .empty).toOption.map
        (fun edits => edits.toList.map fun e => (e.position, e.replacement))
      = some [(2, "\\__FuncProxy__::rand"), (39, "\\__FuncProxy__::RAND")] := by decide +kernel
  rw [collected] at answered
  exact ⟨edits, collected, Option.some.inj answered, sound⟩

end Redirect

end Seams
