import Mathlib.Data.List.Basic
import Mathlib.Data.List.Nodup
import Mathlib.Tactic.Common
import Seams.Proofs.Folding
import Seams.Proofs.Lookup
import Seams.Proofs.Matches
import Seams.Proofs.Proposals
import Seams.Redirect.Methods

/-! # What the built-in patchers propose
Calls are found by a query and their names by a range, methods by a query and their braces by the
first byte of the body, and exits among the tokens. In the trees of the grammar each of these finds
one token, and no two of them the same, unless a name that reads as an exit is redirected. So the
built-in pipeline succeeds on every source that fits the grammar.
Main definitions:
* **`Node.Lawful`** — what the grammar promises of a tree over a source;
* **`Redirect.exitEdits`**, **`Redirect.callEdits`**, **`Redirect.methodEdits`** — the edits of the
  patchers for a script;
* **`TokenStream.Sits`** — an edit is for a token, and expects what the token reads. -/

namespace Seams

/-! ## Trees of the grammar -/

/-- **What the grammar promises of a tree over a source.** -/
structure Node.Lawful (t : Node) (source : Bytes) : Prop where
  /-- Its ranges are nested, and within the source. -/
  spans : t.Over source
  /-- The name of a call is a leaf, and not empty. -/
  callee : ∀ n ∈ t.nodes, n.kind = "function_call_expression" → ∀ c ∈ n.children,
    c.plays "name" "function" = true → c.children = [] ∧ c.start < c.stop
  /-- A body begins with an opening brace. -/
  brace : ∀ n ∈ t.nodes, n.kind = "compound_statement" →
    ∃ c ∈ n.children.head?, c.children = [] ∧ c.kind = "\x7b" ∧ c.start = n.start
      ∧ c.stop = n.start + 1 ∧ source.slice c.start c.stop = bytesOf "\x7b"

instance (t : Node) (source : Bytes) : Decidable (t.Lawful source) :=
  decidable_of_iff (t.Over source
      ∧ (∀ n ∈ t.nodes, n.kind = "function_call_expression" → ∀ c ∈ n.children,
        c.plays "name" "function" = true → c.children = [] ∧ c.start < c.stop)
      ∧ ∀ n ∈ t.nodes, n.kind = "compound_statement" →
        ∃ c ∈ n.children.head?, c.children = [] ∧ c.kind = "\x7b" ∧ c.start = n.start
          ∧ c.stop = n.start + 1 ∧ source.slice c.start c.stop = bytesOf "\x7b")
    ⟨fun ⟨spans, callee, brace⟩ => ⟨spans, callee, brace⟩, fun h => ⟨h.spans, h.callee, h.brace⟩⟩

/-! ## Edits and their tokens -/

namespace TokenStream

/-- **An edit is for a token**, and expects what the token reads. -/
def Sits (s : TokenStream) (e : Edit) (t : Token) : Prop :=
  s.get? e.position = some t ∧ e.expected = .of (s.textOf t)

/-- **An edit that expects what its token reads** is taken. -/
theorem Sits.fits {s : TokenStream} {e : Edit} {t : Token} (h : s.Sits e t) : s.Fits e :=
  ⟨t, h.1, by rw [h.2]; exact Expectation.accepts_of _⟩

/-- **Edits for tokens that differ are at different positions.** -/
theorem Sits.ne {s : TokenStream} {e f : Edit} {t u : Token} (h : s.Sits e t) (h' : s.Sits f u)
    (apart : t ≠ u) : e.position ≠ f.position := by
  intro eq
  have there := h.1
  rw [eq, h'.1, Option.some.injEq] at there
  exact apart there.symm

end TokenStream

namespace Redirect

/-! ## Exits -/

/-- **The edit for a token at a position**, if it is an exit. -/
def exitEdit? (tokens : TokenStream) (x : Token × Nat) : Option Edit :=
  if x.1.isSignificant && isExit x.1 (tokens.textOf x.1) then
    some ⟨x.2, Expectation.of (tokens.textOf x.1), exitReplacement tokens x.2, exitsName⟩
  else none

/-- **The edits for the exits of a script.** -/
def exitEdits (s : Script) : List Edit :=
  s.tokens.tokens.toList.zipIdx.filterMap (exitEdit? s.tokens)

/-- **Collecting exits adds their edits** one after the other. -/
theorem collectExits_eq (tokens : TokenStream) (n : Nat) (ts : List Token) (edits : EditSet) :
    collectExits tokens n ts edits
      = (edits.insertAll ((ts.zipIdx n).filterMap (exitEdit? tokens))).mapError .edit := by
  induction ts generalizing n edits with
  | nil => rfl
  | cons t ts ih =>
      rw [collectExits, List.zipIdx_cons, List.filterMap_cons, exitEdit?]
      simp only
      split
      · rw [EditSet.insertAll, EditSet.request]
        cases edits.insert _ with
        | error => rfl
        | ok edits => exact ih (n + 1) edits
      · exact ih (n + 1) edits

/-- **The patcher for exits proposes their edits.** -/
theorem exits_proposes (s : Script) : exits.Proposes s (exitEdits s) :=
  collectExits_eq s.tokens 0 s.tokens.tokens.toList

/-- **The edit for an exit is at the position of its token.** -/
theorem position_of_exitEdit? {tokens : TokenStream} {x : Token × Nat} {e : Edit}
    (made : exitEdit? tokens x = some e) : e.position = x.2 := by
  unfold exitEdit? at made
  split at made
  · cases made
    rfl
  · cases made

/-- **The edits for exits are those for the tokens that are exits.** -/
theorem mem_exitEdits {s : Script} {e : Edit} : e ∈ exitEdits s
    ↔ ∃ t, s.tokens.get? e.position = some t ∧ exitEdit? s.tokens (t, e.position) = some e := by
  rw [exitEdits, List.mem_filterMap]
  constructor
  · rintro ⟨⟨t, n⟩, mem, made⟩
    have position : e.position = n := position_of_exitEdit? made
    rw [List.mem_zipIdx_iff_getElem?, Array.getElem?_toList] at mem
    rw [position]
    exact ⟨t, mem, made⟩
  · rintro ⟨t, there, made⟩
    refine ⟨(t, e.position), ?_, made⟩
    rw [List.mem_zipIdx_iff_getElem?, Array.getElem?_toList]
    exact there

/-- **The edit for an exit is for a token that reads so.** -/
theorem sits_of_mem_exitEdits {s : Script} {e : Edit} (mem : e ∈ exitEdits s) :
    ∃ t, s.tokens.Sits e t ∧ readsExit (s.tokens.textOf t) = true := by
  obtain ⟨t, there, made⟩ := mem_exitEdits.1 mem
  unfold exitEdit? at made
  split at made
  · rename_i exit
    rw [Bool.and_eq_true, isExit, Bool.and_eq_true, Bool.and_eq_true] at exit
    have expected := congrArg Edit.expected (Option.some.inj made)
    exact ⟨t, ⟨there, expected.symm⟩, exit.2.1.1⟩
  · cases made

/-- **The edits for exits are at different positions.** -/
theorem exitEdits_nodup (s : Script) : ((exitEdits s).map Edit.position).Nodup := by
  have positions : (s.tokens.tokens.toList.zipIdx.map Prod.snd).Nodup := by
    rw [List.zipIdx_map_snd]
    exact List.nodup_range'
  rw [List.Nodup, List.pairwise_map] at positions ⊢
  refine positions.filterMap _ fun x y ne e made f made' => ?_
  rw [position_of_exitEdit? made, position_of_exitEdit? made']
  exact ne

end Redirect

/-! ## Edits that are found by nodes -/

/-- **Collecting from places one after the other adds the edits of all of them**, if collecting from
a place adds its edit. -/
theorem EditSet.collect_eq (one : Match → EditSet → Except PatchError EditSet)
    {all : List Match → EditSet → Except PatchError EditSet} {edit? : Match → Option Edit}
    (nil : ∀ edits, all [] edits = .ok edits)
    (cons : ∀ m ms edits, all (m :: ms) edits = one m edits >>= all ms) {ms : List Match}
    (each : ∀ m ∈ ms, ∀ edits, one m edits = (edits.insertAll (edit? m).toList).mapError .edit)
    (edits : EditSet) : all ms edits = (edits.insertAll (ms.filterMap edit?)).mapError .edit := by
  induction ms generalizing edits with
  | nil => exact nil edits
  | cons m ms ih =>
      have others := ih fun n hn => each n (List.mem_cons_of_mem _ hn)
      have together : (m :: ms).filterMap edit? = (edit? m).toList ++ ms.filterMap edit? := by
        rw [List.filterMap_cons]
        cases edit? m <;> rfl
      rw [together, insertAll_append, cons, each m List.mem_cons_self]
      cases edits.insertAll (edit? m).toList with
      | error => rfl
      | ok edits => exact others edits

/-- **Edits found by nodes with different marks are at different positions**, if each is for the
token that starts at the mark. -/
theorem Node.Marks.edits_nodup {mark : Node → Option Nat} {tree : Node} (marks : tree.Marks mark)
    (ordered : tree.Ordered) {s : TokenStream} {edit? : Node → Option Edit}
    (sits : ∀ n ∈ tree.nodes, ∀ e, edit? n = some e → ∃ t, s.Sits e t ∧ mark n = some t.start) :
    ((tree.nodes.filterMap edit?).map Edit.position).Nodup := by
  rw [List.Nodup, List.pairwise_map, List.pairwise_filterMap]
  refine (marks.apart ordered).imp_of_mem fun hm hn apart e made f made' => ?_
  obtain ⟨t, sits_t, marked⟩ := sits _ hm e made
  obtain ⟨u, sits_u, marked'⟩ := sits _ hn f made'
  refine sits_t.ne sits_u fun eq => apart t.start marked ?_
  rw [eq]
  exact marked'

namespace Redirect

variable {source : Bytes} {tree : Node}

/-! ## Calls -/

section Calls

variable (whitelist blacklist : NameSet)

/-- **The edit for a call**, if it is redirected. -/
def callEdit? (s : Script) (call : Match) : Option Edit :=
  ((site? s call).filter fun site => isRedirected whitelist blacklist site.2).map fun site =>
    ⟨site.1, Expectation.of (bytesOf site.2), Registry.redirected site.2, callsName⟩

/-- **The edits for the calls of a script.** -/
def callEdits (s : Script) : List Edit :=
  (Query.calls.findAll s.tree).filterMap (callEdit? whitelist blacklist s)

/-- **The byte that marks a call**: its name starts there. -/
def callMark (n : Node) : Option Nat := (Query.callParts? n).map fun x => x.1.start

/-- **Calls are marked by their names.** -/
theorem marks_calls (lawful : tree.Lawful source) : tree.Marks callMark := by
  refine ⟨fun n hn a marked => ?_⟩
  obtain ⟨⟨name, arguments⟩, parts, rfl⟩ := Option.map_eq_some_iff.1 marked
  obtain ⟨kind, ⟨child, plays⟩, -⟩ := Node.parts?_eq_some parts
  obtain ⟨leaf, nonempty⟩ := lawful.callee n hn kind name child plays
  refine ⟨name, child, rfl, nonempty, fun m hm marked' => ?_⟩
  -- A leaf is the only node of its tree, and it is no call.
  obtain rfl := Node.eq_of_mem_nodes leaf hm
  obtain ⟨⟨c, d⟩, parts', -⟩ := Option.map_eq_some_iff.1 marked'
  have none_there := (Node.parts?_eq_some parts').2.1.1
  rw [leaf] at none_there
  exact absurd none_there List.not_mem_nil

/-- **The name of a call is a token.** -/
theorem callee_token (lawful : tree.Lawful source) {n name arguments : Node} (hn : n ∈ tree.nodes)
    (parts : Query.callParts? n = some (name, arguments)) :
    ∃ i, (TokenStream.ofTree source tree).tokenAt? name.start name.stop = some i
      ∧ (TokenStream.ofTree source tree).get? i
        = some (Token.ofLeaf (name.label, some "function_call_expression")) := by
  obtain ⟨kind, ⟨child, plays⟩, -⟩ := Node.parts?_eq_some parts
  obtain ⟨leaf, nonempty⟩ := lawful.callee n hn kind name child plays
  obtain ⟨l, cs⟩ := name
  obtain rfl : cs = [] := leaf
  have mem := Node.mem_leaves_of_child child hn none
  rw [kind] at mem
  obtain ⟨i, there⟩ := TokenStream.get?_of_leaf lawful.spans mem nonempty
  exact ⟨i, (TokenStream.tokenAt?_eq_some_iff (TokenStream.ofTree_spans source tree)).2
    ⟨_, there, rfl, rfl⟩, there⟩

/-- **Collecting a call adds its edit**, if there is one. -/
theorem collectCall_eq (lawful : tree.Lawful source) {n : Node} (hn : n ∈ tree.nodes) {call : Match}
    (at_ : Query.callAt? n = some call) (edits : EditSet) :
    collectCall whitelist blacklist (.withTree source tree) call edits
      = (edits.insertAll
          (callEdit? whitelist blacklist (.withTree source tree) call).toList).mapError .edit := by
  obtain ⟨name, arguments, parts, captured, captured'⟩ := Query.callAt?_eq_some at_
  obtain ⟨i, found, -⟩ := callee_token lawful hn parts
  have located : (Script.withTree source tree).tokens.tokenAt? name.label.start name.label.stop
      = some i := found
  unfold collectCall callEdit? site?
  simp only [captured, captured', Except.mapError, Except.toOption, bind, Except.bind, Option.bind]
  cases decoded :
      ((Script.withTree source tree).bytesAt name.label.start name.label.stop).text? with
  | none => rfl
  | some word =>
  simp only
  -- Both the patcher and its edit pass by closures and what stands in a string.
  by_cases kept : (makesClosure (Script.withTree source tree).tokens arguments.label.start
      arguments.label.stop
    || isInterpolated (.withTree source tree) name.label.start name.label.stop) = true
  · rw [Bool.or_assoc, kept, Bool.or_true, if_pos rfl, if_pos rfl]
    rfl
  rw [Bool.not_eq_true] at kept
  rw [Bool.or_assoc, kept, Bool.or_false, if_neg Bool.false_ne_true, located, Option.map_some,
    Option.filter_some, Script.tokenAt, located, ← bytesOf_of_text? decoded]
  cases isRedirected whitelist blacklist word with
  | false => rfl
  | true =>
      simp only [Bool.not_true, Bool.false_eq_true, if_true, if_false, Option.map_some,
        Option.toList_some, EditSet.insertAll, EditSet.request]
      cases edits.insert _ <;> rfl

/-- **The patcher for calls proposes their edits.** -/
theorem calls_proposes (lawful : tree.Lawful source) :
    (calls whitelist blacklist).Proposes (.withTree source tree)
      (callEdits whitelist blacklist (.withTree source tree)) := by
  refine EditSet.collect_eq (collectCall whitelist blacklist (.withTree source tree))
    (fun _ => rfl) (fun call rest edits => ?_) fun call mem edits => ?_
  · rw [collectCalls]
    cases collectCall _ _ _ call edits <;> rfl
  · obtain ⟨n, hn, at_⟩ := List.mem_filterMap.1 ((Query.findAll_calls tree).mem_iff.1 mem)
    exact collectCall_eq whitelist blacklist lawful hn at_ edits

/-- **The edit for a call is for its name**, which is redirected. -/
theorem sits_of_callEdit? (lawful : tree.Lawful source) {n : Node} (hn : n ∈ tree.nodes)
    {call : Match} (at_ : Query.callAt? n = some call) {e : Edit}
    (made : callEdit? whitelist blacklist (.withTree source tree) call = some e) :
    ∃ t word, (TokenStream.ofTree source tree).Sits e t ∧ callMark n = some t.start
      ∧ t.kind = "name" ∧ (TokenStream.ofTree source tree).textOf t = bytesOf word
      ∧ isRedirected whitelist blacklist word = true := by
  obtain ⟨name, arguments, parts, captured, captured'⟩ := Query.callAt?_eq_some at_
  obtain ⟨i, found, there⟩ := callee_token lawful hn parts
  obtain ⟨-, ⟨-, plays⟩, -⟩ := Node.parts?_eq_some parts
  have kind : name.kind = "name" := by
    rw [Node.plays, Bool.and_eq_true, Bool.and_eq_true, beq_iff_eq] at plays
    exact plays.1.2
  obtain ⟨⟨n', word⟩, filtered, rfl⟩ := Option.map_eq_some_iff.1 made
  rw [Option.filter_eq_some_iff] at filtered
  obtain ⟨site, listed⟩ := filtered
  unfold site? at site
  simp only [captured, captured', Except.toOption, Option.bind_eq_bind, Option.bind_some,
    Option.bind_eq_some_iff] at site
  obtain ⟨word', decoded, site⟩ := site
  split at site
  · cases site
  obtain ⟨i', found', eq⟩ := Option.map_eq_some_iff.1 site
  cases eq
  have same : i = n' := Option.some.inj (found.symm.trans found')
  rw [same] at there
  have text : (TokenStream.ofTree source tree).textOf
      (Token.ofLeaf (name.label, some "function_call_expression")) = bytesOf word :=
    (bytesOf_of_text? decoded).symm
  exact ⟨_, word, ⟨there, congrArg Expectation.of text.symm⟩,
    by rw [callMark, parts]; rfl, kind, text, listed⟩

/-- **The edits for calls are at different positions.** -/
theorem callEdits_nodup (lawful : tree.Lawful source) :
    ((callEdits whitelist blacklist (.withTree source tree)).map Edit.position).Nodup := by
  have found := (Query.findAll_calls tree).filterMap
    (callEdit? whitelist blacklist (.withTree source tree))
  rw [List.filterMap_filterMap] at found
  refine (found.map Edit.position).nodup_iff.2 ?_
  refine (marks_calls lawful).edits_nodup lawful.spans.ordered (s := .ofTree source tree) ?_
  intro n hn e made
  obtain ⟨call, at_, made⟩ := Option.bind_eq_some_iff.1 made
  obtain ⟨t, word, sits, marked, -⟩ :=
    sits_of_callEdit? whitelist blacklist lawful hn at_ made
  exact ⟨t, sits, marked⟩

/-- **Each edit for a call is for a name** that is redirected. -/
theorem sits_of_mem_callEdits (lawful : tree.Lawful source) {e : Edit}
    (mem : e ∈ callEdits whitelist blacklist (.withTree source tree)) :
    ∃ t word, (TokenStream.ofTree source tree).Sits e t ∧ t.kind = "name"
      ∧ (TokenStream.ofTree source tree).textOf t = bytesOf word
      ∧ isRedirected whitelist blacklist word = true := by
  obtain ⟨call, found, made⟩ := List.mem_filterMap.1 mem
  obtain ⟨n, hn, at_⟩ := List.mem_filterMap.1 ((Query.findAll_calls tree).mem_iff.1 found)
  obtain ⟨t, word, sits, -, rest⟩ := sits_of_callEdit? whitelist blacklist lawful hn at_ made
  exact ⟨t, word, sits, rest⟩

end Calls

/-! ## Methods -/

/-- **The edit for a method**, unless it does not return. -/
def methodEdit? (s : Script) (method : Match) : Option Edit := do
  let declaration ← (method.capture "method").toOption
  let body ← (method.capture "body").toOption
  if returningAt s declaration.start declaration.stop = .never then none
  else (s.tokens.tokenAt? body.start (body.start + 1)).map fun brace =>
    ⟨brace, Expectation.of (bytesOf "\x7b"),
      Registry.prologue (returningAt s declaration.start declaration.stop = .void), methodsName⟩

/-- **The edits for the methods of a script.** -/
def methodEdits (s : Script) : List Edit :=
  (Query.methods.findAll s.tree).filterMap (methodEdit? s)

/-- **The byte that marks a method**: its body starts there. -/
def methodMark (n : Node) : Option Nat := (Query.methodParts? n).map fun x => x.2.start

/-- **The body of a method begins with a brace**, and no method in it has its body there. -/
theorem marks_methods (lawful : tree.Lawful source) : tree.Marks methodMark := by
  refine ⟨fun n hn a marked => ?_⟩
  obtain ⟨⟨name, body⟩, parts, rfl⟩ := Option.map_eq_some_iff.1 marked
  obtain ⟨-, -, child, plays⟩ := Node.parts?_eq_some parts
  have kind := Node.kind_of_plays plays
  have hb := Node.mem_nodes_of_child child hn
  have nested := lawful.spans.ordered body hb
  obtain ⟨c, first, leaf, -, start, stop, -⟩ := lawful.brace body hb kind
  obtain ⟨rest, children⟩ := List.head?_eq_some_iff.1 first
  have within := nested.within c (by rw [children]; exact List.mem_cons_self)
  refine ⟨body, child, rfl, by omega, fun m hm marked' => ?_⟩
  obtain ⟨⟨name', body'⟩, parts', same⟩ := Option.map_eq_some_iff.1 marked'
  obtain ⟨kind', -, child', -⟩ := Node.parts?_eq_some parts'
  obtain ⟨l, cs⟩ := body
  rcases Node.mem_nodes.1 hm with rfl | ⟨d, hd, below⟩
  · exact absurd (kind.symm.trans kind') (by decide)
  obtain rfl : cs = c :: rest := children
  rcases List.mem_cons.1 hd with rfl | hd'
  · -- The brace is a leaf.
    obtain rfl := Node.eq_of_mem_nodes leaf below
    rw [leaf] at child'
    exact absurd child' List.not_mem_nil
  · -- What is behind the brace starts behind it.
    have behind := (List.pairwise_cons.1 nested.apart).1 d hd'
    have ordered := lawful.spans.ordered.below (Node.mem_nodes_of_child hd hb)
    have := ordered.within below
    have := ordered.within (Node.mem_nodes_of_child child' below)
    have := (ordered m below).within body' child'
    have same' : body'.start = (Node.mk l (c :: rest)).start := same
    omega

/-- **The brace of a method is a token.** -/
theorem brace_token (lawful : tree.Lawful source) {n name body : Node} (hn : n ∈ tree.nodes)
    (parts : Query.methodParts? n = some (name, body)) :
    ∃ i t, (TokenStream.ofTree source tree).tokenAt? body.start (body.start + 1) = some i
      ∧ (TokenStream.ofTree source tree).get? i = some t ∧ t.start = body.start
      ∧ t.kind = "\x7b" ∧ (TokenStream.ofTree source tree).textOf t = bytesOf "\x7b" := by
  obtain ⟨-, -, child, plays⟩ := Node.parts?_eq_some parts
  have hb := Node.mem_nodes_of_child child hn
  obtain ⟨⟨l, cs⟩, first, leaf, kind, start, stop, text⟩ :=
    lawful.brace body hb (Node.kind_of_plays plays)
  obtain rfl : cs = [] := leaf
  obtain ⟨rest, children⟩ := List.head?_eq_some_iff.1 first
  have mem := Node.mem_leaves_of_child (by rw [children]; exact List.mem_cons_self) hb none
  have nonempty : l.start < l.stop := by
    have : l.start = body.start := start
    have : l.stop = body.start + 1 := stop
    omega
  obtain ⟨i, there⟩ := TokenStream.get?_of_leaf lawful.spans mem nonempty
  refine ⟨i, _, ?_, there, start, kind, text⟩
  exact (TokenStream.tokenAt?_eq_some_iff (TokenStream.ofTree_spans source tree)).2
    ⟨_, there, start, stop⟩

/-- **Collecting a method adds its edit**, if there is one. -/
theorem collectMethod_eq (lawful : tree.Lawful source) {n : Node} (hn : n ∈ tree.nodes)
    {method : Match} (at_ : Query.methodAt? n = some method) (edits : EditSet) :
    collectMethod (.withTree source tree) method edits
      = (edits.insertAll (methodEdit? (.withTree source tree) method).toList).mapError .edit := by
  obtain ⟨name, body, parts, captured, captured'⟩ := Query.methodAt?_eq_some at_
  obtain ⟨i, t, found, -⟩ := brace_token lawful hn parts
  have located : (Script.withTree source tree).tokens.tokenAt? body.label.start
      (body.label.start + 1) = some i := found
  unfold collectMethod methodEdit?
  simp only [captured, captured', Except.mapError, Except.toOption, bind, Except.bind, Option.bind]
  by_cases never : returningAt (.withTree source tree) n.label.start n.label.stop = .never
  · rw [if_pos never, if_pos never]
    rfl
  · rw [if_neg never, if_neg never, located, Script.tokenAt, located]
    simp only [Option.map_some, Option.toList_some, EditSet.insertAll, EditSet.request]
    cases edits.insert _ <;> rfl

/-- **The patcher for methods proposes their edits.** -/
theorem methods_proposes (lawful : tree.Lawful source) :
    methods.Proposes (.withTree source tree) (methodEdits (.withTree source tree)) := by
  refine EditSet.collect_eq (collectMethod (.withTree source tree)) (fun _ => rfl)
    (fun method rest edits => ?_) fun method mem edits => ?_
  · rw [collectMethods]
    cases collectMethod _ method edits <;> rfl
  · obtain ⟨n, hn, at_⟩ := List.mem_filterMap.1 ((Query.findAll_methods tree).mem_iff.1 mem)
    exact collectMethod_eq lawful hn at_ edits

/-- **The edit for a method is for the brace** with which its body begins. -/
theorem sits_of_methodEdit? (lawful : tree.Lawful source) {n : Node} (hn : n ∈ tree.nodes)
    {method : Match} (at_ : Query.methodAt? n = some method) {e : Edit}
    (made : methodEdit? (.withTree source tree) method = some e) :
    ∃ t, (TokenStream.ofTree source tree).Sits e t ∧ methodMark n = some t.start
      ∧ t.kind = "\x7b" ∧ (TokenStream.ofTree source tree).textOf t = bytesOf "\x7b" := by
  obtain ⟨name, body, parts, captured, captured'⟩ := Query.methodAt?_eq_some at_
  obtain ⟨i, t, found, there, start, kind, text⟩ := brace_token lawful hn parts
  unfold methodEdit? at made
  simp only [captured, captured', Except.toOption, Option.bind_eq_bind, Option.bind_some] at made
  split at made
  · cases made
  obtain ⟨i', found', rfl⟩ := Option.map_eq_some_iff.1 made
  have same : i = i' := Option.some.inj (found.symm.trans found')
  rw [same] at there
  refine ⟨t, ⟨there, by rw [text]⟩, ?_, kind, text⟩
  rw [methodMark, parts, start]
  rfl

/-- **The edits for methods are at different positions.** -/
theorem methodEdits_nodup (lawful : tree.Lawful source) :
    ((methodEdits (.withTree source tree)).map Edit.position).Nodup := by
  have found := (Query.findAll_methods tree).filterMap (methodEdit? (.withTree source tree))
  rw [List.filterMap_filterMap] at found
  refine (found.map Edit.position).nodup_iff.2 ?_
  refine (marks_methods lawful).edits_nodup lawful.spans.ordered (s := .ofTree source tree) ?_
  intro n hn e made
  obtain ⟨method, at_, made⟩ := Option.bind_eq_some_iff.1 made
  obtain ⟨t, sits, marked, -⟩ := sits_of_methodEdit? lawful hn at_ made
  exact ⟨t, sits, marked⟩

/-- **Each edit for a method is for a brace.** -/
theorem sits_of_mem_methodEdits (lawful : tree.Lawful source) {e : Edit}
    (mem : e ∈ methodEdits (.withTree source tree)) :
    ∃ t, (TokenStream.ofTree source tree).Sits e t ∧ t.kind = "\x7b"
      ∧ (TokenStream.ofTree source tree).textOf t = bytesOf "\x7b" := by
  obtain ⟨method, found, made⟩ := List.mem_filterMap.1 mem
  obtain ⟨n, hn, at_⟩ := List.mem_filterMap.1 ((Query.findAll_methods tree).mem_iff.1 found)
  obtain ⟨t, sits, -, rest⟩ := sits_of_methodEdit? lawful hn at_ made
  exact ⟨t, sits, rest⟩

end Redirect

end Seams
