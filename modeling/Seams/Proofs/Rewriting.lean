import Mathlib.Data.List.Basic
import Mathlib.Tactic.Common
import Seams.Pipeline
import Seams.Redirect.Calls

/-! # What is written in place of a source
The tokens of a source cover it without gaps, and reassembly writes one piece for each of them: the
replacement of the token where there is an edit for it, and the token itself elsewhere. The pipeline
that redirects calls puts the proxy in front of the names of the calls that it redirects, and writes
everything else as it is.
Main definitions:
* **`Token.Spans`** — tokens follow each other from one byte to another;
* **`Token.written`** — a piece for each token, one after the other;
* **`Redirect.sites`** — the calls of a script that can be redirected, and **`Redirect.callees`** —
  their names;
* **`Redirect.redirecting`** — a script with the calls by some of the names redirected. -/

namespace Seams

/-! ## The tokens of a source -/

namespace Token

/-- **Tokens follow each other** from one byte to another, and none is empty. -/
def Spans : Nat → Nat → List Token → Prop
  | lo, hi, [] => lo = hi
  | lo, hi, t :: ts => t.start = lo ∧ lo < t.stop ∧ Spans t.stop hi ts

/-- **Tokens that follow each other end behind their start.** -/
theorem Spans.le {ts : List Token} {lo hi : Nat} (h : Spans lo hi ts) : lo ≤ hi := by
  induction ts generalizing lo with
  | nil => exact Nat.le_of_eq h
  | cons t ts ih =>
      obtain ⟨-, lt, rest⟩ := h
      have := ih rest
      omega

/-- **The tokens of a source follow each other**, whatever the leaves of its tree are. -/
theorem cover_spans {size : Nat} (leaves : List (Label × Option String)) {offset : Nat}
    (h : offset ≤ size) : Spans offset size (cover size offset leaves) := by
  induction leaves generalizing offset with
  | nil =>
      rw [cover]
      split
      · rename_i lt
        exact ⟨rfl, lt, rfl⟩
      · exact Nat.le_antisymm h (by omega)
  | cons leaf rest ih =>
      rw [cover]
      split
      · rename_i fits
        obtain ⟨nonempty, behind, within⟩ := fits
        split
        · rename_i gap
          exact ⟨rfl, gap, rfl, nonempty, ih within⟩
        · have start : leaf.1.start = offset := by omega
          rw [← start]
          exact ⟨rfl, nonempty, ih within⟩
      · exact ih h

/-- **A piece for each token**, one after the other. The tokens have positions from the given one
on. -/
def written (piece : Nat → Token → Bytes) : Nat → List Token → Bytes
  | _, [] => ByteArray.empty
  | n, t :: ts => piece n t ++ written piece (n + 1) ts

/-- **What is written depends on the pieces of the tokens that are there.** -/
theorem written_congr {piece piece' : Nat → Token → Bytes} {n : Nat} {ts : List Token}
    (same : ∀ i t, ts[i]? = some t → piece (n + i) t = piece' (n + i) t) :
    written piece n ts = written piece' n ts := by
  induction ts generalizing n with
  | nil => rfl
  | cons t ts ih =>
      have first := same 0 t rfl
      have others := ih (n := n + 1) fun i t' h => by
        rw [Nat.add_assoc, Nat.add_comm 1 i]
        exact same (i + 1) t' h
      rw [written, written, others]
      exact congrArg (· ++ _) first

/-- **What is written for tokens as they are is the part of the source that they cover.** -/
theorem Spans.written_text {ts : List Token} {lo hi : Nat} (h : Spans lo hi ts) (source : Bytes)
    (n : Nat) : written (fun _ t => source.slice t.start t.stop) n ts = source.slice lo hi := by
  induction ts generalizing lo n with
  | nil =>
      obtain rfl : lo = hi := h
      exact ByteArray.extract_same.symm
  | cons t ts ih =>
      obtain ⟨rfl, lt, rest⟩ := h
      have ends := rest.le
      rw [written, ih rest, Bytes.slice, Bytes.slice, Bytes.slice, ByteArray.extract_append_extract,
        Nat.min_eq_left (by omega), Nat.max_eq_right ends]

/-- **Longer pieces make a longer text.** -/
theorem size_written_le {piece piece' : Nat → Token → Bytes}
    (le : ∀ n t, (piece n t).size ≤ (piece' n t).size) (n : Nat) (ts : List Token) :
    (written piece n ts).size ≤ (written piece' n ts).size := by
  induction ts generalizing n with
  | nil => exact Nat.le_refl _
  | cons t ts ih =>
      have first := le n t
      have others := ih (n + 1)
      rw [written, written, ByteArray.size_append, ByteArray.size_append]
      omega

/-- **A piece that is longer makes the text longer**, if the other ones are not shorter. -/
theorem size_written_lt {piece piece' : Nat → Token → Bytes}
    (le : ∀ n t, (piece n t).size ≤ (piece' n t).size) {n i : Nat} {ts : List Token} {t : Token}
    (there : ts[i]? = some t) (lt : (piece (n + i) t).size < (piece' (n + i) t).size) :
    (written piece n ts).size < (written piece' n ts).size := by
  induction ts generalizing n i with
  | nil => simp at there
  | cons t' ts ih =>
      rw [written, written, ByteArray.size_append, ByteArray.size_append]
      cases i with
      | zero =>
          obtain rfl : t' = t := by simpa using there
          have others := size_written_le le (n + 1) ts
          rw [Nat.add_zero] at lt
          omega
      | succ i =>
          have first := le n t'
          rw [Nat.add_comm i 1, ← Nat.add_assoc] at lt
          have others := ih (n := n + 1) (i := i) (by simpa using there) lt
          omega

end Token

/-! ## Sets of edits -/

/-- **The edit at a position is the one that is put there**, or the one that was there before. -/
theorem Edit.find?_place {e : Edit} {ds : List Edit} (free : ∀ d ∈ ds, d.position ≠ e.position)
    (n : Nat) : ((e.place ds).find? fun d => d.position == n)
      = if e.position = n then some e else ds.find? fun d => d.position == n := by
  induction ds with
  | nil => by_cases h : e.position = n <;> simp [place, h]
  | cons d ds ih =>
      have apart := free d List.mem_cons_self
      have others := ih fun x hx => free x (List.mem_cons_of_mem _ hx)
      rw [place]
      split
      · by_cases h : e.position = n <;> simp [h]
      · rw [List.find?_cons, List.find?_cons, others]
        by_cases h : d.position = n
        · have ne : e.position ≠ n := fun eq => apart (h.trans eq.symm)
          simp only [beq_iff_eq.2 h, if_neg ne]
        · simp only [beq_eq_false_iff_ne.2 h]

/-- **An edit is added** where there was none, and the others stay. -/
theorem EditSet.get?_insert {s s' : EditSet} {e : Edit} (h : s.insert e = .ok s') :
    s.get? e.position = none ∧ ∀ n, s'.get? n = if e.position = n then some e else s.get? n := by
  unfold insert at h
  split at h
  · cases h
  · rename_i free
    cases h
    refine ⟨free, fun n => Edit.find?_place (fun d hd => ?_) n⟩
    simpa using List.find?_eq_none.1 free d hd

/-- **A set of edits is empty if it has no edit at any position.** -/
theorem EditSet.isEmpty_iff {s : EditSet} : s.isEmpty = true ↔ ∀ n, s.get? n = none := by
  constructor
  · intro h n
    rw [EditSet.isEmpty, List.isEmpty_iff] at h
    rw [EditSet.get?, h]
    rfl
  · intro h
    rw [EditSet.isEmpty, List.isEmpty_iff, List.eq_nil_iff_forall_not_mem]
    intro e he
    have none_there := List.find?_eq_none.1 (h e.position) e he
    simp at none_there

/-! ## Reassembly -/

namespace TokenStream

/-- **What stands in place of a token** after edits. -/
def edited (s : TokenStream) (edits : List Edit) (n : Nat) (t : Token) : Bytes :=
  match edits.find? fun e => e.position == n with
  | some e => bytesOf e.replacement
  | none => s.textOf t

/-- **Tokens are written with the edits applied**, one after the other. -/
theorem weave_ok {s : TokenStream} {ts : List Token} {n : Nat} {before out : Bytes}
    {edits left : List Edit} (ascending : edits.Pairwise fun a b => a.position < b.position)
    (ahead : ∀ e ∈ edits, n ≤ e.position) (h : s.weave n before ts edits = .ok (out, left)) :
    out = before ++ Token.written (s.edited edits) n ts := by
  induction ts generalizing n before edits with
  | nil =>
      rw [weave] at h
      cases h
      exact ByteArray.append_empty.symm
  | cons t ts ih =>
      cases edits with
      | nil =>
          rw [weave] at h
          rw [ih .nil (fun _ h => absurd h List.not_mem_nil) h, Token.written,
            ByteArray.append_assoc]
          rfl
      | cons e es =>
          have first := ahead e List.mem_cons_self
          rw [List.pairwise_cons] at ascending
          rw [weave] at h
          split at h
          · rename_i here
            split at h
            · -- The edit is for this token, and the others are for later ones.
              have later : ∀ d ∈ es, n + 1 ≤ d.position := by
                intro d hd
                have := ascending.1 d hd
                omega
              have same : Token.written (s.edited es) (n + 1) ts
                  = Token.written (s.edited (e :: es)) (n + 1) ts := by
                refine Token.written_congr fun i t' _ => ?_
                have ne : (e.position == n + 1 + i) = false := by
                  rw [beq_eq_false_iff_ne]
                  omega
                rw [edited, edited, List.find?_cons, ne]
              have piece : s.edited (e :: es) n t = bytesOf e.replacement := by
                rw [edited, List.find?_cons, beq_iff_eq.2 here]
              rw [ih ascending.2 later h, Token.written, same, piece, ByteArray.append_assoc]
            · cases h
          · -- All edits are for later tokens.
            rename_i elsewhere
            have later : ∀ d ∈ e :: es, n + 1 ≤ d.position := by
              intro d hd
              rcases List.mem_cons.1 hd with rfl | hd
              · omega
              · have := ascending.1 d hd
                omega
            have none_here : (e :: es).find? (fun d => d.position == n) = none := by
              rw [List.find?_eq_none]
              intro d hd
              have := later d hd
              simp only [beq_iff_eq]
              omega
            have piece : s.edited (e :: es) n t = s.textOf t := by
              rw [edited, none_here]
            rw [ih (List.pairwise_cons.2 ascending) later h, Token.written, piece,
              ByteArray.append_assoc]

/-- **A source is reassembled from one piece for each token**: the replacement where there is an
edit, and the token itself elsewhere. -/
theorem reassemble_ok {s : TokenStream} {edits : EditSet} {out : Bytes}
    (h : s.reassemble edits = .ok out) :
    out = Token.written (s.edited edits.toList) 0 s.tokens.toList := by
  unfold reassemble at h
  split at h
  · cases h
  · rename_i woven
    cases h
    rw [weave_ok edits.ascending (fun _ _ => Nat.zero_le _) woven, ByteArray.empty_append]
  · cases h

/-! ## Tokens by their range -/

/-- **Bisection finds a token that starts at the byte.** -/
theorem bisect_eq_some {tokens : Array Token} {byte lo hi n : Nat}
    (h : bisect tokens byte lo hi = some n) : ∃ t, tokens[n]? = some t ∧ t.start = byte := by
  fun_induction bisect tokens byte lo hi with
  | case1 => cases h
  | case2 lo hi lt mid t found starts =>
      rw [← Option.some.inj h]
      exact ⟨t, found, starts⟩
  | case3 lo hi lt mid t found apart below ih => exact ih h
  | case4 lo hi lt mid t found apart above ih => exact ih h
  | case5 => cases h

/-- **A token that covers a range reads as the range does.** -/
theorem tokenAt?_eq_some {s : TokenStream} {start stop n : Nat}
    (h : s.tokenAt? start stop = some n) :
    ∃ t, s.tokens[n]? = some t ∧ s.textOf t = s.source.slice start stop := by
  rw [tokenAt?, Option.filter_eq_some_iff] at h
  obtain ⟨found, ends⟩ := h
  obtain ⟨t, there, rfl⟩ := bisect_eq_some found
  rw [get?, there, Option.any_some, beq_iff_eq] at ends
  exact ⟨t, there, by rw [textOf, ends]⟩

end TokenStream

/-! ## Calls that are redirected -/

namespace Redirect

/-- **Where the name of a call stands that can be redirected**, and the name. A call that makes a
closure, or that is part of interpolated text, cannot. -/
def site? (s : Script) (call : Match) : Option (Nat × String) := do
  let name ← (call.capture "name").toOption
  let arguments ← (call.capture "args").toOption
  let word ← (s.bytesAt name.start name.stop).text?
  if makesClosure s.tokens arguments.start arguments.stop
      || isInterpolated s name.start name.stop then none
  else (s.tokens.tokenAt? name.start name.stop).map fun n => (n, word)

/-- **The calls of a script that can be redirected.** -/
def sites (s : Script) : List (Nat × String) := (Query.calls.findAll s.tree).filterMap (site? s)

/-- **The names of the calls of a script that can be redirected.** -/
def callees (s : Script) : List String := (sites s).map Prod.snd

/-- **A script with the calls by some names redirected**: the proxy stands in front of the names of
these calls, and nothing else is changed. -/
def redirecting (s : Script) (chosen : String → Bool) : Bytes :=
  Token.written (fun n t =>
    if (sites s).any fun site => site.1 == n && chosen site.2 then
      bytesOf (Registry.functionProxy ++ "::") ++ s.tokens.textOf t
    else s.tokens.textOf t) 0 s.tokens.tokens.toList

/-- **The edits of a set redirect calls**: there is one for the name of each of them, and no other
one. -/
def Redirects (edits : EditSet) (calls : List (Nat × String)) : Prop :=
  ∀ n, (edits.get? n).map Edit.replacement
    = (calls.find? fun site => site.1 == n).map fun site => Registry.redirected site.2

/-- **No edits redirect no calls.** -/
theorem redirects_empty : Redirects .empty [] := fun _ => rfl

/-- **A set of edits is empty if it redirects no call**, and only then. -/
theorem Redirects.isEmpty_iff {edits : EditSet} {calls : List (Nat × String)}
    (h : Redirects edits calls) : edits.isEmpty = true ↔ calls = [] := by
  rw [EditSet.isEmpty_iff]
  constructor
  · intro empty
    rw [List.eq_nil_iff_forall_not_mem]
    intro site mem
    have found := h site.1
    rw [empty, Option.map_none, eq_comm, Option.map_eq_none_iff, List.find?_eq_none] at found
    exact found site mem (by simp)
  · rintro rfl n
    have found := h n
    rwa [List.find?_nil, Option.map_none, Option.map_eq_none_iff] at found

variable {whitelist blacklist : NameSet} {s : Script}

/-- **What collecting a call adds**: nothing if the call cannot be redirected or is not, and else an
edit for its name. -/
theorem collectCall_ok {call : Match} {edits edits' : EditSet}
    (h : collectCall whitelist blacklist s call edits = .ok edits') :
    (edits' = edits ∧ ∀ site ∈ site? s call, isRedirected whitelist blacklist site.2 = false)
      ∨ ∃ site e, site? s call = some site ∧ isRedirected whitelist blacklist site.2 = true
        ∧ e.position = site.1 ∧ e.replacement = Registry.redirected site.2
        ∧ edits.insert e = .ok edits' := by
  unfold collectCall at h
  unfold site?
  cases name : call.capture "name" with
  | error e =>
      rw [name] at h
      cases h
  | ok at_ =>
  cases arguments : call.capture "args" with
  | error e =>
      rw [name, arguments] at h
      cases h
  | ok within =>
  simp only [name, arguments, Except.mapError, Except.toOption, bind, Except.bind, Option.bind]
    at h ⊢
  cases decoded : (s.bytesAt at_.start at_.stop).text? with
  | none =>
      rw [decoded] at h
      cases h
      exact .inl ⟨rfl, fun site mem => by cases mem⟩
  | some word =>
  simp only [decoded] at h ⊢
  by_cases kept : (makesClosure s.tokens within.start within.stop
      || isInterpolated s at_.start at_.stop) = true
  · rw [Bool.or_assoc, kept, Bool.or_true, if_pos rfl] at h
    cases h
    rw [if_pos kept]
    exact .inl ⟨rfl, fun site mem => by cases mem⟩
  rw [if_neg kept]
  cases listed : isRedirected whitelist blacklist word with
  | false =>
      rw [listed, Bool.not_false, Bool.true_or, Bool.true_or, if_pos rfl] at h
      cases h
      refine .inl ⟨rfl, fun site mem => ?_⟩
      obtain ⟨n, -, rfl⟩ := Option.map_eq_some_iff.1 mem
      exact listed
  | true =>
      rw [Bool.not_eq_true] at kept
      rw [listed, Bool.not_true, Bool.or_assoc, kept, Bool.or_false, if_neg Bool.false_ne_true,
        Script.tokenAt] at h
      cases found : s.tokens.tokenAt? at_.start at_.stop with
      | none =>
          rw [found] at h
          cases h
      | some n =>
          simp only [found, EditSet.request, Except.mapError] at h
          split at h
          · cases h
          · rename_i inserted
            cases h
            exact .inr ⟨(n, word), _, rfl, listed, rfl, rfl, inserted⟩

/-- **Collecting a call redirects it** in addition to those before, if it can be and is to be. -/
theorem Redirects.collectCall {call : Match} {edits edits' : EditSet}
    {done : List (Nat × String)} (before : Redirects edits done)
    (h : collectCall whitelist blacklist s call edits = .ok edits') :
    Redirects edits' (done ++ (site? s call).toList.filter fun site =>
      isRedirected whitelist blacklist site.2) := by
  rcases collectCall_ok h with ⟨rfl, passed⟩ | ⟨site, e, here, listed, position, text, inserted⟩
  · have none_more : ((site? s call).toList.filter fun site =>
        isRedirected whitelist blacklist site.2) = [] := by
      rw [List.filter_eq_nil_iff]
      intro site mem
      rw [passed site (by simpa using mem)]
      exact Bool.false_ne_true
    rwa [none_more, List.append_nil]
  · obtain ⟨free, added⟩ := EditSet.get?_insert inserted
    simp only [here, Option.toList_some, List.filter_cons, listed, if_true, List.filter_nil]
    intro n
    rw [added n, List.find?_append]
    by_cases eq : e.position = n
    · -- No call before has its name here.
      have unseen := before n
      rw [← eq, free, Option.map_none, eq_comm, Option.map_eq_none_iff] at unseen
      rw [if_pos eq, ← eq, unseen, Option.map_some, text, position]
      simp
    · have apart : (site.1 == n) = false := by
        rw [beq_eq_false_iff_ne, ← position]
        exact eq
      rw [if_neg eq, before n, List.find?_cons, apart]
      simp

/-- **Collecting calls redirects them** in addition to those before, as far as they can be and are
to be. -/
theorem Redirects.collectCalls {calls : List Match} {edits edits' : EditSet}
    {done : List (Nat × String)} (before : Redirects edits done)
    (h : collectCalls whitelist blacklist s calls edits = .ok edits') :
    Redirects edits' (done ++ (calls.filterMap (site? s)).filter fun site =>
      isRedirected whitelist blacklist site.2) := by
  induction calls generalizing edits done with
  | nil =>
      cases h
      rwa [List.filterMap_nil, List.filter_nil, List.append_nil]
  | cons call rest ih =>
      rw [Redirect.collectCalls] at h
      split at h
      · cases h
      · rename_i next collected
        have after := ih (before.collectCall collected) h
        rw [List.append_assoc, ← List.filter_append] at after
        have split : (site? s call).toList ++ rest.filterMap (site? s)
            = (call :: rest).filterMap (site? s) := by
          rw [List.filterMap_cons]
          cases site? s call <;> rfl
        rwa [split] at after

/-! ## Sources with calls redirected -/

/-- **The text of a byte string has it as its encoding.** -/
theorem bytesOf_of_text? {b : Bytes} {word : String} (h : b.text? = some word) :
    bytesOf word = b := by
  unfold Bytes.text? String.fromUTF8? at h
  split at h
  · cases h
    rfl
  · cases h

/-- **A script that is parsed has the tokens of its source**, which cover it. -/
theorem parse_tokens {raw : Bytes} (h : Script.parse raw = .ok s) :
    s.source = raw ∧ s.tokens.source = raw ∧ Token.Spans 0 raw.size s.tokens.tokens.toList := by
  unfold Script.parse Script.ofTree at h
  split at h
  · cases h
  · cases h
    exact ⟨rfl, rfl, Token.cover_spans _ (Nat.zero_le _)⟩

/-- **The name of a call is the text of its token.** -/
theorem text_of_mem_sites {raw : Bytes} (parsed : Script.parse raw = .ok s) {n : Nat}
    {word : String} (mem : (n, word) ∈ sites s) :
    ∃ t, s.tokens.tokens[n]? = some t ∧ s.tokens.textOf t = bytesOf word := by
  obtain ⟨same, same', -⟩ := parse_tokens parsed
  obtain ⟨call, -, here⟩ := List.mem_filterMap.1 mem
  unfold site? at here
  simp only [Option.bind_eq_bind, Option.bind_eq_some_iff] at here
  obtain ⟨name, -, arguments, -, word', decoded, here⟩ := here
  split at here
  · cases here
  · obtain ⟨n', found, eq⟩ := Option.map_eq_some_iff.1 here
    cases eq
    obtain ⟨t, there, text⟩ := TokenStream.tokenAt?_eq_some found
    refine ⟨t, there, ?_⟩
    rw [text, same', ← same]
    exact (bytesOf_of_text? decoded).symm

/-- **A token with a proxy in front of it is not shorter.** -/
theorem size_text_le (s : Script) (chosen : String → Bool) (n : Nat) (t : Token) :
    (s.tokens.textOf t).size ≤ (if (sites s).any fun site => site.1 == n && chosen site.2 then
      bytesOf (Registry.functionProxy ++ "::") ++ s.tokens.textOf t
    else s.tokens.textOf t).size := by
  split
  · rw [ByteArray.size_append]
    omega
  · exact Nat.le_refl _

/-- **A script is as it was if no call is redirected**, and only then. -/
theorem redirecting_eq_iff {raw : Bytes} (parsed : Script.parse raw = .ok s)
    {chosen : String → Bool} :
    redirecting s chosen = raw ↔ ∀ word ∈ callees s, chosen word = false := by
  obtain ⟨-, same, spans⟩ := parse_tokens parsed
  have plain : Token.written (fun _ t => s.tokens.textOf t) 0 s.tokens.tokens.toList = raw := by
    have covered := spans.written_text s.tokens.source 0
    rw [same, Bytes.slice, ByteArray.extract_zero_size, ← same] at covered
    rw [← same]
    exact covered
  constructor
  · intro eq word mem
    by_contra redirected
    rw [Bool.not_eq_false] at redirected
    obtain ⟨⟨n, word'⟩, here, rfl⟩ := List.mem_map.1 mem
    obtain ⟨t, there, text⟩ := text_of_mem_sites parsed here
    -- The text with the proxy is longer than the source.
    have longer : (Token.written (fun _ t => s.tokens.textOf t) 0 s.tokens.tokens.toList).size
        < (redirecting s chosen).size := by
      refine Token.size_written_lt (size_text_le s chosen) (t := t) (i := n) ?_ ?_
      · rwa [Array.getElem?_toList]
      · have found : ((sites s).any fun site => site.1 == 0 + n && chosen site.2) = true := by
          rw [List.any_eq_true]
          exact ⟨(n, word'), here, by simpa using redirected⟩
        rw [if_pos found, ByteArray.size_append]
        have proxy : (bytesOf (Registry.functionProxy ++ "::")).size = 16 := by decide
        omega
    rw [plain, eq] at longer
    exact Nat.lt_irrefl _ longer
  · intro kept
    rw [← plain]
    refine Token.written_congr fun n t _ => if_neg ?_
    rw [Bool.not_eq_true, List.any_eq_false]
    intro site mem both
    rw [Bool.and_eq_true] at both
    have := kept site.2 (List.mem_map.2 ⟨site, mem, rfl⟩)
    rw [both.2] at this
    cases this

/-- **Edits that redirect the calls by some names** are written as a script with these redirected. -/
theorem Redirects.written {raw : Bytes} (parsed : Script.parse raw = .ok s) {edits : EditSet}
    {chosen : String → Bool}
    (h : Redirects edits ((sites s).filter fun site => chosen site.2)) :
    Token.written (s.tokens.edited edits.toList) 0 s.tokens.tokens.toList
      = redirecting s chosen := by
  refine Token.written_congr fun n t there => ?_
  rw [Nat.zero_add]
  have here := h n
  rw [EditSet.get?] at here
  rw [TokenStream.edited]
  cases found : ((sites s).filter fun site => chosen site.2).find? fun site => site.1 == n with
  | none =>
      rw [found, Option.map_none, Option.map_eq_none_iff] at here
      have passed : ¬ ((sites s).any fun site => site.1 == n && chosen site.2) = true := by
        rw [Bool.not_eq_true, List.any_eq_false]
        intro site mem both
        rw [Bool.and_eq_true] at both
        have kept : site ∈ (sites s).filter fun site => chosen site.2 :=
          List.mem_filter.2 ⟨mem, both.2⟩
        exact List.find?_eq_none.1 found site kept both.1
      rw [here, if_neg passed]
  | some site =>
      obtain ⟨n', word⟩ := site
      rw [found, Option.map_some] at here
      obtain ⟨e, edit, replacement⟩ := Option.map_eq_some_iff.1 here
      obtain ⟨mem, listed⟩ := List.mem_filter.1 (List.mem_of_find?_eq_some found)
      have at_ : n' = n := by
        have first := List.find?_some found
        rwa [beq_iff_eq] at first
      obtain ⟨t', there', text⟩ := text_of_mem_sites parsed mem
      rw [at_, ← Array.getElem?_toList, there] at there'
      cases there'
      have redirected : ((sites s).any fun site => site.1 == n && chosen site.2) = true := by
        rw [List.any_eq_true]
        exact ⟨(n', word), mem, by rw [at_, listed, beq_self_eq_true, Bool.and_true]⟩
      rw [edit, if_pos redirected, text]
      show bytesOf e.replacement = _
      rw [replacement, Registry.redirected]
      exact String.toByteArray_append

/-- **What the pipeline that redirects calls makes of a source**: the calls by names on the one list
but not on the other are redirected, and everything else is as it was. -/
theorem run_calls {verify : Bool} {raw : Bytes} {output : PatchOutput}
    (h : (⟨[calls whitelist blacklist], verify⟩ : Pipeline).run raw = .ok output) :
    ∃ s, Script.parse raw = .ok s
      ∧ output.source = redirecting s (isRedirected whitelist blacklist) := by
  unfold Pipeline.run at h
  simp only [List.isEmpty_cons, Bool.false_eq_true, if_false, bind, Except.bind] at h
  cases parsed : Script.parse raw with
  | error e =>
      rw [parsed] at h
      cases h
  | ok s =>
  refine ⟨s, rfl, ?_⟩
  simp only [parsed, Except.mapError, Pipeline.runOn, Script.collectAll, calls, bind,
    Except.bind] at h
  obtain ⟨same, -⟩ := parse_tokens parsed
  cases collected : collectCalls whitelist blacklist s (Query.calls.findAll s.tree) .empty with
  | error e =>
      rw [collected] at h
      cases h
  | ok edits =>
  have redirects := redirects_empty.collectCalls collected
  rw [List.nil_append] at redirects
  simp only [collected] at h
  split at h
  · -- Nothing is edited.
    rename_i empty
    cases h
    have nothing := List.filter_eq_nil_iff.1 (redirects.isEmpty_iff.1 empty)
    rw [PatchOutput.unchanged, same, eq_comm, redirecting_eq_iff parsed]
    intro word mem
    obtain ⟨site, here, rfl⟩ := List.mem_map.1 mem
    exact Bool.not_eq_true _ ▸ nothing site here
  · cases reassembled : s.tokens.reassemble edits with
    | error e =>
        rw [reassembled] at h
        cases h
    | ok out =>
    have written := TokenStream.reassemble_ok reassembled
    rw [redirects.written parsed] at written
    simp only [reassembled] at h
    rw [← written]
    split at h
    · split at h
      · cases h
      · cases h
        rfl
    · cases h
      rfl

end Redirect

end Seams
