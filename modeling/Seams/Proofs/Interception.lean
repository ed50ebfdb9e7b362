import Mathlib.Data.List.Basic
import Mathlib.Tactic.Common
import Seams.Proofs.BuiltIn

/-! # Which exits are intercepted
The grammar knows `exit` as a keyword where a statement begins, and everywhere else `exit` and `die`
are names. The patcher for exits sees tokens with the kinds of their parents. It takes each keyword,
and of the names those below three kinds of parents: where a name is a whole statement, is called,
or is the argument of an exit. A name that is an operand, is assigned, returned or passed stands
for an exit as well, and is left.
Main definitions:
* **`Node.ExitLawful`** — what the grammar promises of the leaves that read as exits;
* **`Node.ExitLeaf`** — a leaf that is an exit: the keyword, or a name that stands as an
  expression;
* **`Node.Intercepted`** — the leaf is edited. -/

namespace Seams

namespace Node

/-! ## Leaves that are exits -/

/-- **The keyword of an exit.** -/
def IsKeyword (n c : Node) : Prop :=
  n.kind = "exit_statement" ∧ c.kind = "exit" ∧ c.label.named = false

/-- **A name.** -/
def IsName (c : Node) : Prop := c.kind = "name" ∧ c.label.named = true

/-- **A leaf reads as an exit.** -/
def ReadsExit (source : Bytes) (c : Node) : Prop :=
  Redirect.readsExit (source.slice c.start c.stop) = true

instance (n c : Node) : Decidable (n.IsKeyword c) :=
  inferInstanceAs (Decidable (_ ∧ _ ∧ _))

instance (c : Node) : Decidable c.IsName := inferInstanceAs (Decidable (_ ∧ _))

instance (source : Bytes) (c : Node) : Decidable (c.ReadsExit source) :=
  inferInstanceAs (Decidable (_ = _))

/-- **What the grammar promises of the leaves that read as exits.** -/
structure ExitLawful (t : Node) (source : Bytes) : Prop where
  /-- Its ranges are nested, and within the source. -/
  spans : t.Over source
  /-- The root is a program, and no token. -/
  root : t.kind = "program" ∧ t.label.named = true
  /-- The keyword of an exit reads as one. -/
  keyword : ∀ n ∈ t.nodes, ∀ c ∈ n.children, n.IsKeyword c → c.ReadsExit source
  /-- A token outside of literal text that reads so is the keyword of an exit. -/
  token : ∀ n ∈ t.nodes, ∀ c ∈ n.children, c.children = [] → c.label.named = false →
    c.ReadsExit source → n.kind ∉ Redirect.literalKinds → n.IsKeyword c

instance (t : Node) (source : Bytes) : Decidable (t.ExitLawful source) :=
  decidable_of_iff (t.Over source ∧ (t.kind = "program" ∧ t.label.named = true)
      ∧ (∀ n ∈ t.nodes, ∀ c ∈ n.children, n.IsKeyword c → c.ReadsExit source)
      ∧ ∀ n ∈ t.nodes, ∀ c ∈ n.children, c.children = [] → c.label.named = false →
        c.ReadsExit source → n.kind ∉ Redirect.literalKinds → n.IsKeyword c)
    ⟨fun ⟨spans, root, keyword, token⟩ => ⟨spans, root, keyword, token⟩,
      fun h => ⟨h.spans, h.root, h.keyword, h.token⟩⟩

/-- **A leaf that is an exit**: the keyword, or a name that reads so and stands as an expression. -/
inductive ExitLeaf (source : Bytes) (stands : Node → Node → Prop) (n c : Node) : Prop where
  /-- The keyword of an exit. -/
  | keyword (is : n.IsKeyword c)
  /-- A name that reads as an exit and stands as an expression, or is called. -/
  | name (is : c.IsName) (reads : c.ReadsExit source) (stands : stands n c)

/-- **The leaf is edited**: one of the edits is for its token. -/
def Intercepted (source : Bytes) (t : Node) (edits : EditSet) (n c : Node) : Prop :=
  ∃ e ∈ edits.toList, (TokenStream.ofTree source t).get? e.position
    = some (Token.ofLeaf (c.label, some n.kind))

end Node

namespace Redirect

/-! ## Tokens that are exits -/

/-- **A text that reads as an exit is not empty.** -/
theorem lt_of_readsExit {source : Bytes} {start stop : Nat}
    (h : readsExit (source.slice start stop) = true) : start < stop := by
  by_contra le
  have none_there : source.slice start stop = ByteArray.empty := by
    rw [Bytes.slice, ByteArray.extract_eq_empty_iff]
    omega
  rw [none_there] at h
  exact absurd h (by decide +kernel)

/-- **A leaf is taken for an exit exactly if it reads so**, is not below literal text, and is a
token or a name below one of the kinds for exits. Comments are passed by. -/
theorem exitEdit?_isSome_iff (tokens : TokenStream) (l : Label) (kind : String) (n : Nat) :
    (exitEdit? tokens (Token.ofLeaf (l, some kind), n)).isSome = true
      ↔ (l.kind ≠ Token.triviaKind ∧ l.kind ≠ Token.commentKind)
        ∧ (readsExit (tokens.source.slice l.start l.stop) = true ∧ kind ∉ literalKinds)
        ∧ (l.named = false ∨ (l.kind = "name" ∧ kind ∈ exitParents)) := by
  have made : (exitEdit? tokens (Token.ofLeaf (l, some kind), n)).isSome
      = ((Token.ofLeaf (l, some kind)).isSignificant && isExit (Token.ofLeaf (l, some kind))
        (tokens.textOf (Token.ofLeaf (l, some kind)))) := by
    unfold exitEdit?
    split
    · rename_i exit
      exact exit.symm
    · rename_i passed
      exact (Bool.not_eq_true _ ▸ passed).symm
  rw [made, Bool.and_eq_true, Token.isSignificant, Token.isTrivia, Token.isComment, isExit]
  simp only [Token.ofLeaf, TokenStream.textOf, Option.any_some, Bool.and_eq_true, Bool.or_eq_true,
    Bool.not_eq_true', beq_iff_eq, List.contains_iff_mem, ← Bool.not_eq_true, ne_eq]

variable {source : Bytes} {tree : Node}

/-- **An edit for an exit is for a leaf below some node**, if the root is no token. -/
theorem leaf_of_mem_exitEdits (root : tree.kind = "program" ∧ tree.label.named = true) {e : Edit}
    (mem : e ∈ exitEdits (.withTree source tree)) :
    ∃ n ∈ tree.nodes, ∃ c ∈ n.children, c.children = []
      ∧ (TokenStream.ofTree source tree).get? e.position
        = some (Token.ofLeaf (c.label, some n.kind)) := by
  obtain ⟨t, there, made⟩ := mem_exitEdits.1 mem
  unfold exitEdit? at made
  split at made
  · rename_i exit
    obtain ⟨significant, exit⟩ := Bool.and_eq_true_iff.1 exit
    rcases TokenStream.leaf_of_get? there with gap | ⟨⟨l, kind⟩, mem, rfl⟩
    · rw [gap] at significant
      cases significant
    rcases Node.mem_leavesUnder_iff.1 mem with ⟨rfl, rfl⟩ | ⟨n, hn, child, rfl⟩
    · -- The root is named, and has no parent.
      have named : l.named = true := root.2
      simp [isExit, Token.ofLeaf, named] at exit
    · exact ⟨n, hn, _, child, rfl, there⟩
  · cases made

/-- **The leaves that are taken for exits** are the keywords, and the names below a node of one of
the kinds for exits. -/
theorem taken_iff (lawful : tree.ExitLawful source) {stands : Node → Node → Prop}
    (standing : ∀ n ∈ tree.nodes, ∀ c ∈ n.children, n.kind ∈ exitParents → c.IsName →
      c.ReadsExit source → stands n c) {n c : Node} (hn : n ∈ tree.nodes) (hc : c ∈ n.children)
    (leaf : c.children = []) (i : Nat) :
    (exitEdit? (TokenStream.ofTree source tree) (Token.ofLeaf (c.label, some n.kind), i)).isSome
        = true
      ↔ n.ExitLeaf source stands c ∧ (n.IsKeyword c ∨ n.kind ∈ exitParents) := by
  rw [exitEdit?_isSome_iff]
  constructor
  · rintro ⟨-, ⟨reads, code⟩, place⟩
    cases named : c.label.named with
    | false =>
        have keyword := lawful.token n hn c hc leaf named reads code
        exact ⟨.keyword keyword, .inl keyword⟩
    | true =>
        rcases place with unnamed | ⟨kind, below⟩
        · rw [named] at unnamed
          cases unnamed
        · exact ⟨.name ⟨kind, named⟩ reads (standing n hn c hc below ⟨kind, named⟩ reads),
            .inr below⟩
  · rintro ⟨exit, place⟩
    have keyword_taken (keyword : n.IsKeyword c) :
        (c.label.kind ≠ Token.triviaKind ∧ c.label.kind ≠ Token.commentKind)
          ∧ (readsExit (source.slice c.label.start c.label.stop) = true ∧ n.kind ∉ literalKinds)
          ∧ (c.label.named = false ∨ (c.label.kind = "name" ∧ n.kind ∈ exitParents)) := by
      have kind : c.label.kind = "exit" := keyword.2.1
      rw [kind, keyword.1]
      exact ⟨by decide, ⟨lawful.keyword n hn c hc keyword, by decide⟩, .inl keyword.2.2⟩
    rcases place with keyword | below
    · exact keyword_taken keyword
    rcases exit with keyword | ⟨name, reads, -⟩
    · exact keyword_taken keyword
    · have kind : c.label.kind = "name" := name.1
      have code : ∀ kind ∈ exitParents, kind ∉ literalKinds := by decide
      rw [kind]
      exact ⟨by decide, ⟨reads, code n.kind below⟩, .inr ⟨rfl, below⟩⟩

/-- **A leaf is edited exactly if it is taken for an exit.** -/
theorem intercepted_iff (spans : tree.Over source) {edits : EditSet}
    (proposed : edits.toList.Perm (exitEdits (.withTree source tree))) {n c : Node}
    (hn : n ∈ tree.nodes) (hc : c ∈ n.children) (leaf : c.children = []) :
    tree.Intercepted source edits n c
      ↔ ∀ i, (exitEdit? (TokenStream.ofTree source tree)
        (Token.ofLeaf (c.label, some n.kind), i)).isSome = true := by
  constructor
  · rintro ⟨e, mem, there⟩ i
    obtain ⟨t, there', made⟩ := mem_exitEdits.1 (proposed.mem_iff.1 mem)
    have same : t = Token.ofLeaf (c.label, some n.kind) :=
      Option.some.inj (there'.symm.trans there)
    rw [same] at made
    have taken : (exitEdit? (TokenStream.ofTree source tree)
        (Token.ofLeaf (c.label, some n.kind), e.position)).isSome = true :=
      Option.isSome_of_eq_some made
    rw [exitEdit?_isSome_iff] at taken ⊢
    exact taken
  · intro taken
    have reads := ((exitEdit?_isSome_iff _ _ _ _).1 (taken 0)).2.1.1
    obtain ⟨l, cs⟩ := c
    obtain rfl : cs = [] := leaf
    obtain ⟨i, there⟩ := TokenStream.get?_of_leaf spans (Node.mem_leaves_of_child hc hn none)
      (lt_of_readsExit reads)
    obtain ⟨e, made⟩ := Option.isSome_iff_exists.1 (taken i)
    have position : e.position = i := position_of_exitEdit? made
    rw [← position] at there made
    exact ⟨e, proposed.mem_iff.2 (mem_exitEdits.2 ⟨_, there, made⟩), there⟩

/-- **The patcher for exits makes all edits that it proposes.** -/
theorem exits_collect_ok (s : Script) :
    ∃ edits, exits.collect s .empty = .ok edits ∧ edits.toList.Perm (exitEdits s) := by
  obtain ⟨edits, added, perm⟩ := EditSet.insertAll_of_nodup .empty (exitEdits s)
    (by rw [EditSet.empty, List.append_nil]; exact exitEdits_nodup s)
  rw [EditSet.empty, List.append_nil] at perm
  exact ⟨edits, by rw [exits_proposes s .empty, added]; rfl, perm⟩

/-- **The patcher for exits takes the keywords and the names below three kinds of parents.** On
every source that parses it succeeds. What it edits are exits: keywords, and names that read as
exits and stand as expressions, whatever counts as one as long as a whole statement, a callee and
the argument of an exit do. No literal text and no comment is edited. Of the exits it edits exactly
the keywords and the names below these parents; so all exits are intercepted exactly if there is no
name that stands for an exit anywhere else. -/
theorem exits_collect {s : Script} (parsed : Script.ofTree source tree = .ok s)
    (lawful : tree.ExitLawful source) (stands : Node → Node → Prop)
    (standing : ∀ n ∈ tree.nodes, ∀ c ∈ n.children, n.kind ∈ exitParents → c.IsName →
      c.ReadsExit source → stands n c) :
    ∃ edits, exits.collect s .empty = .ok edits
      ∧ (∀ e ∈ edits.toList, ∃ n ∈ tree.nodes, ∃ c ∈ n.children,
        s.tokens.get? e.position = some (Token.ofLeaf (c.label, some n.kind))
          ∧ n.ExitLeaf source stands c ∧ n.kind ∉ literalKinds ∧ c.kind ≠ Token.commentKind)
      ∧ (∀ n ∈ tree.nodes, ∀ c ∈ n.children, c.children = [] → n.ExitLeaf source stands c →
        (tree.Intercepted source edits n c ↔ n.IsKeyword c ∨ n.kind ∈ exitParents))
      ∧ ((∀ n ∈ tree.nodes, ∀ c ∈ n.children, c.children = [] → n.ExitLeaf source stands c →
          tree.Intercepted source edits n c)
        ↔ ∀ n ∈ tree.nodes, ∀ c ∈ n.children, c.children = [] → c.IsName → c.ReadsExit source →
          stands n c → n.kind ∈ exitParents) := by
  obtain rfl := Script.eq_withTree parsed
  obtain ⟨edits, collected, perm⟩ := exits_collect_ok (.withTree source tree)
  -- The leaves that are edited are those that are taken, and these are exits at certain places.
  have taken {n c : Node} (hn : n ∈ tree.nodes) (hc : c ∈ n.children) (leaf : c.children = []) :
      tree.Intercepted source edits n c
        ↔ n.ExitLeaf source stands c ∧ (n.IsKeyword c ∨ n.kind ∈ exitParents) := by
    rw [intercepted_iff lawful.spans perm hn hc leaf]
    simp only [taken_iff lawful standing hn hc leaf, forall_const]
  refine ⟨edits, collected, fun e mem => ?_, fun n hn c hc leaf exit => ?_, ?_⟩
  · obtain ⟨n, hn, c, hc, leaf, there⟩ := leaf_of_mem_exitEdits lawful.root (perm.mem_iff.1 mem)
    have edited : tree.Intercepted source edits n c := ⟨e, mem, there⟩
    have place := (exitEdit?_isSome_iff _ _ _ 0).1
      ((intercepted_iff lawful.spans perm hn hc leaf).1 edited 0)
    exact ⟨n, hn, c, hc, there, ((taken hn hc leaf).1 edited).1, place.2.1.2, place.1.2⟩
  · rw [taken hn hc leaf, and_iff_right exit]
  · constructor
    · intro all n hn c hc leaf name reads stands
      rcases ((taken hn hc leaf).1 (all n hn c hc leaf (.name name reads stands))).2
        with keyword | below
      · exact absurd (name.1.symm.trans keyword.2.1) (by decide)
      · exact below
    · intro below n hn c hc leaf exit
      refine (taken hn hc leaf).2 ⟨exit, ?_⟩
      rcases exit with keyword | ⟨name, reads, stands⟩
      · exact .inl keyword
      · exact .inr (below n hn c hc leaf name reads stands)

/-- **An exit as an operand.** -/
def operandSource : Bytes := bytesOf "<?php $x or die;"

/-- **An exit that is an operand is left as it is**: no edit is for its name. -/
theorem exits_collect_operand :
    ∃ s, Script.parse operandSource = .ok s ∧ ∃ edits, exits.collect s .empty = .ok edits
      ∧ ∃ n ∈ s.tree.nodes, ∃ c ∈ n.children, n.kind = "binary_expression"
        ∧ c.IsName ∧ c.ReadsExit operandSource
        ∧ ¬ s.tree.Intercepted operandSource edits n c := by
  have parsed : Script.ofTree operandSource (Node.ofSource operandSource)
      = .ok (.withTree operandSource (Node.ofSource operandSource)) := by
    have clean : (Node.ofSource operandSource).Clean := by decide +kernel
    rw [Script.ofTree, clean.ensureClean]
    rfl
  have there : ∃ n ∈ (Node.ofSource operandSource).nodes, ∃ c ∈ n.children,
      n.kind = "binary_expression" ∧ c.children = [] ∧ c.IsName ∧ c.ReadsExit operandSource := by
    decide +kernel
  obtain ⟨n, hn, c, hc, kind, leaf, name, reads⟩ := there
  obtain ⟨edits, collected, -, taken, -⟩ := exits_collect parsed (by decide +kernel)
    (fun n _ => n.kind ∈ "binary_expression" :: exitParents)
    fun _ _ _ _ below _ _ => List.mem_cons_of_mem _ below
  refine ⟨_, parsed, edits, collected, n, hn, c, hc, kind, name, reads, fun edited => ?_⟩
  have stands : n.kind ∈ "binary_expression" :: exitParents := by
    rw [kind]
    exact List.mem_cons_self
  rcases (taken n hn c hc leaf (.name name reads stands)).1 edited with keyword | below
  · exact absurd (name.1.symm.trans keyword.2.1) (by decide)
  · rw [kind] at below
    exact absurd below (by decide)

end Redirect

end Seams
