import Mathlib.Data.List.Sort
import Mathlib.Tactic.Common
import Seams.Proofs.Rewriting

/-! # Reassembly as splicing
Reassembly walks over tokens and edits side by side. Seen from outside it replaces ranges of bytes:
the range of each edited token goes, its replacement comes, and all that lies between stays. An edit
whose token reads otherwise stops it, and so does one for which there is no token; of the two errors
the first one is given if there are both.
Main definitions:
* **`Splice`** — a range of a source, and what comes in its place;
* **`Bytes.splice`** — a source with splices made;
* **`TokenStream.Fits`**, **`TokenStream.refuses`** — an edit that the stream takes, and one whose
  token reads otherwise;
* **`TokenStream.splices`** — the splices that edits stand for;
* **`TokenStream.Ahead`** — edits that the pass has still to meet. -/

namespace Seams

/-! ## Splices -/

/-- **A splice**: a range of a source, and what comes in its place. -/
structure Splice where
  /-- The first byte of the range. -/
  start : Nat
  /-- The first byte after it. -/
  stop : Nat
  /-- What comes in its place. -/
  text : Bytes
  deriving DecidableEq

namespace Splice

/-- **Splices follow each other** from a byte on and within a size, and their ranges are not
empty. -/
def Follow (size : Nat) : Nat → List Splice → Prop
  | lo, [] => lo ≤ size
  | lo, c :: cs => lo ≤ c.start ∧ c.start < c.stop ∧ Follow size c.stop cs

/-- **Splices that follow each other end within the size.** -/
theorem Follow.le {size : Nat} {cs : List Splice} {lo : Nat} (h : Follow size lo cs) :
    lo ≤ size := by
  induction cs generalizing lo with
  | nil => exact h
  | cons c cs ih =>
      obtain ⟨behind, nonempty, rest⟩ := h
      have := ih rest
      omega

/-- **Splices that follow a byte follow each byte before it.** -/
theorem Follow.mono {size : Nat} {cs : List Splice} {lo lo' : Nat} (h : Follow size lo cs)
    (le : lo' ≤ lo) : Follow size lo' cs := by
  cases cs with
  | nil => exact Nat.le_trans le h
  | cons c cs => exact ⟨Nat.le_trans le h.1, h.2⟩

end Splice

namespace Bytes

/-- **A source with splices made**, from a byte on. What lies between them stays. -/
def splice (source : Bytes) : Nat → List Splice → Bytes
  | lo, [] => source.slice lo source.size
  | lo, c :: cs => source.slice lo c.start ++ c.text ++ splice source c.stop cs

/-- **A source without splices is the source.** -/
theorem splice_nil (source : Bytes) : source.splice 0 [] = source := ByteArray.extract_zero_size

/-- **Two parts that follow each other are one part.** -/
theorem slice_append_slice (source : Bytes) {lo mid hi : Nat} (h : lo ≤ mid) (h' : mid ≤ hi) :
    source.slice lo mid ++ source.slice mid hi = source.slice lo hi := by
  rw [slice, slice, slice, ByteArray.extract_append_extract, Nat.min_eq_left h,
    Nat.max_eq_right h']

/-- **What stands before the first splice stays.** -/
theorem slice_append_splice {source : Bytes} {lo mid : Nat} {cs : List Splice} (le : lo ≤ mid)
    (h : Splice.Follow source.size mid cs) :
    source.slice lo mid ++ source.splice mid cs = source.splice lo cs := by
  cases cs with
  | nil => exact slice_append_slice source le h
  | cons c cs =>
      rw [splice, splice, ← ByteArray.append_assoc, ← ByteArray.append_assoc,
        slice_append_slice source le h.1]

end Bytes

/-! ## Edits and their tokens -/

/-- **Comparing byte strings tells whether they are equal.** -/
instance Bytes.lawfulBEq : LawfulBEq Bytes where
  rfl {a} := beq_self_eq_true a.data
  eq_of_beq {a b} h := congrArg ByteArray.mk (eq_of_beq (a := a.data) (b := b.data) h)

/-- **A text meets the expectation that is made of it.** -/
theorem Expectation.accepts_of (text : Bytes) : (Expectation.of text).accepts text = true := by
  unfold Expectation.of
  split <;> exact beq_self_eq_true _

/-- **Of ascending edits the first one with a property is the one with the least position.** -/
theorem EditSet.find?_eq_some_iff {edits : EditSet} {p : Edit → Bool} {e : Edit} :
    edits.toList.find? p = some e
      ↔ e ∈ edits.toList ∧ p e = true
        ∧ ∀ d ∈ edits.toList, p d = true → e.position ≤ d.position := by
  obtain ⟨edits, ascending⟩ := edits
  show edits.find? p = some e ↔ e ∈ edits ∧ p e = true ∧ ∀ d ∈ edits, p d = true → _
  induction edits with
  | nil => simp
  | cons c cs ih =>
      rw [List.pairwise_cons] at ascending
      rw [List.find?_cons]
      cases holds : p c with
      | true =>
          constructor
          · rintro ⟨⟩
            refine ⟨List.mem_cons_self, holds, fun d hd _ => ?_⟩
            rcases List.mem_cons.1 hd with rfl | hd
            · exact Nat.le_refl _
            · exact Nat.le_of_lt (ascending.1 d hd)
          · rintro ⟨mem, -, least⟩
            have le := least c List.mem_cons_self holds
            rcases List.mem_cons.1 mem with rfl | mem
            · rfl
            · have := ascending.1 e mem
              omega
      | false =>
          show cs.find? p = some e ↔ _
          rw [ih ascending.2, List.mem_cons]
          constructor
          · rintro ⟨mem, here, least⟩
            refine ⟨.inr mem, here, fun d hd holds' => ?_⟩
            rcases List.mem_cons.1 hd with rfl | hd
            · rw [holds] at holds'
              cases holds'
            · exact least d hd holds'
          · rintro ⟨mem, here, least⟩
            refine ⟨?_, here, fun d hd => least d (List.mem_cons_of_mem _ hd)⟩
            rcases mem with rfl | mem
            · rw [holds] at here
              cases here
            · exact mem

namespace TokenStream

/-- **The stream takes an edit**: there is a token for it, and the token reads as it should. -/
def Fits (s : TokenStream) (e : Edit) : Prop :=
  ∃ t, s.get? e.position = some t ∧ e.expected.accepts (s.textOf t) = true

/-- **The stream refuses an edit**: there is a token for it, and the token reads otherwise. -/
def refuses (s : TokenStream) (e : Edit) : Bool :=
  (s.get? e.position).any fun t => !e.expected.accepts (s.textOf t)

/-- **The splices that edits stand for**: the range of each token that is there is replaced. -/
def splices (s : TokenStream) (edits : List Edit) : List Splice :=
  edits.filterMap fun e =>
    (s.get? e.position).map fun t => ⟨t.start, t.stop, bytesOf e.replacement⟩

variable {s : TokenStream}

/-- **There is a token at a position exactly if it is below their number.** -/
theorem get?_eq_none_iff {n : Nat} : s.get? n = none ↔ s.size ≤ n :=
  Array.getElem?_eq_none_iff

/-- **An edit is taken exactly if there is a token for it and it is not refused.** -/
theorem fits_iff {e : Edit} : s.Fits e ↔ e.position < s.size ∧ s.refuses e = false := by
  rw [Fits, refuses]
  cases found : s.get? e.position with
  | none =>
      have beyond := get?_eq_none_iff.1 found
      simp only [reduceCtorEq, false_and, exists_false, false_iff, not_and]
      omega
  | some t =>
      have within : e.position < s.size := by
        by_contra beyond
        rw [get?_eq_none_iff.2 (Nat.le_of_not_lt beyond)] at found
        cases found
      simp [within]

/-- **An edit is refused exactly if its token reads otherwise.** -/
theorem refuses_iff {e : Edit} : s.refuses e = true
    ↔ ∃ t, s.get? e.position = some t ∧ e.expected.accepts (s.textOf t) = false := by
  rw [refuses, Option.any_eq_true]
  simp only [Bool.not_eq_true']

/-- **The tokens from a position on begin with the token there.** -/
theorem get?_of_drop {n : Nat} {t : Token} {ts : List Token}
    (h : s.tokens.toList.drop n = t :: ts) :
    s.get? n = some t ∧ s.tokens.toList.drop (n + 1) = ts := by
  constructor
  · have first := congrArg List.head? h
    rwa [List.head?_drop, Array.getElem?_toList] at first
  · rw [← List.drop_drop, h, List.drop_one, List.tail_cons]

/-- **There are no tokens from a position on exactly if the position is beyond them.** -/
theorem size_le_of_drop {n : Nat} (h : s.tokens.toList.drop n = []) : s.size ≤ n := by
  rwa [List.drop_eq_nil_iff, Array.length_toList] at h

/-! ## The pass over tokens and edits -/

variable {edits : List Edit}

/-- **Edits lie ahead of a position**: they ascend, and none is for an earlier one. -/
structure Ahead (n : Nat) (edits : List Edit) : Prop where
  /-- The positions ascend. -/
  ascending : edits.Pairwise fun a b => a.position < b.position
  /-- None is for an earlier position. -/
  least : ∀ e ∈ edits, n ≤ e.position

namespace Ahead

variable {n : Nat} {e : Edit}

/-- **No edits lie ahead of each position.** -/
theorem nil (n : Nat) : Ahead n [] := ⟨.nil, fun _ h => absurd h List.not_mem_nil⟩

/-- **All edits lie ahead of the start.** -/
theorem start (edits : EditSet) : Ahead 0 edits.toList :=
  ⟨edits.ascending, fun _ _ => Nat.zero_le _⟩

/-- **The edits lie ahead of the next position** if none is for this one. -/
theorem succ (ahead : Ahead n (e :: edits)) (ne : e.position ≠ n) : Ahead (n + 1) (e :: edits) := by
  refine ⟨ahead.ascending, fun d hd => ?_⟩
  have first := ahead.least e List.mem_cons_self
  rcases List.mem_cons.1 hd with rfl | hd
  · omega
  · have := (List.pairwise_cons.1 ahead.ascending).1 d hd
    omega

/-- **The others lie ahead of the next position** if the first edit is for this one. -/
theorem tail (ahead : Ahead n (e :: edits)) (eq : e.position = n) : Ahead (n + 1) edits := by
  obtain ⟨first, rest⟩ := List.pairwise_cons.1 ahead.ascending
  refine ⟨rest, fun d hd => ?_⟩
  have := first d hd
  omega

end Ahead

/-- **The first edit that is refused stops the pass.** -/
theorem weave_of_refused {ts : List Token} {n : Nat} (there : s.tokens.toList.drop n = ts)
    (before : Bytes) (ahead : Ahead n edits) {e : Edit} (refused : edits.find? s.refuses = some e)
    {t : Token} (token : s.get? e.position = some t) :
    s.weave n before ts edits = .error (.mismatch e.position e.patcher (s.textOf t)) := by
  -- On the tokens that are left; the edits that are left lie ahead of the first one.
  induction ts generalizing n before edits with
  | nil =>
      have beyond := size_le_of_drop there
      have := ahead.least e (List.mem_of_find?_eq_some refused)
      rw [get?_eq_none_iff.2 (by omega)] at token
      cases token
  | cons t' ts ih =>
      obtain ⟨here, rest⟩ := get?_of_drop there
      cases edits with
      | nil => cases refused
      | cons d ds =>
          rw [weave]
          split
          · rename_i eq
            have accepted : s.refuses d = !d.expected.accepts (s.textOf t') := by
              rw [refuses, eq, here, Option.any_some]
            rw [List.find?_cons, accepted] at refused
            split
            · rename_i accepts
              simp only [accepts, Bool.not_true] at refused
              exact ih rest _ (ahead.tail eq) refused
            · rename_i rejects
              rw [Bool.not_eq_true] at rejects
              simp only [rejects, Bool.not_false, Option.some.injEq] at refused
              rw [← refused, eq, here] at token
              cases token
              rw [← refused, eq]
          · rename_i ne
            exact ih rest _ (ahead.succ ne) refused

/-- **The pass goes through if no edit is refused**, and leaves the edits for which there is no
token. -/
theorem weave_of_accepted {ts : List Token} {n : Nat} (there : s.tokens.toList.drop n = ts)
    (before : Bytes) (ahead : Ahead n edits) (accepted : ∀ e ∈ edits, s.refuses e = false) :
    ∃ out, s.weave n before ts edits
      = .ok (out, edits.filter fun e => s.size ≤ e.position) := by
  induction ts generalizing n before edits with
  | nil =>
      have beyond := size_le_of_drop there
      have all : edits.filter (fun e => s.size ≤ e.position) = edits := by
        rw [List.filter_eq_self]
        intro e he
        have := ahead.least e he
        rw [decide_eq_true_eq]
        omega
      exact ⟨before, by rw [weave, all]⟩
  | cons t ts ih =>
      obtain ⟨here, rest⟩ := get?_of_drop there
      cases edits with
      | nil =>
          rw [weave]
          exact ih rest _ (.nil _) accepted
      | cons e es =>
          rw [weave]
          split
          · rename_i eq
            have accepts : e.expected.accepts (s.textOf t) = true := by
              have := accepted e List.mem_cons_self
              rwa [refuses, eq, here, Option.any_some, Bool.not_eq_false'] at this
            have within : ¬ s.size ≤ e.position := by
              intro beyond
              rw [eq, ← get?_eq_none_iff, here] at beyond
              cases beyond
            rw [if_pos accepts, List.filter_cons, if_neg (by rwa [decide_eq_true_eq])]
            exact ih rest _ (ahead.tail eq) fun d hd => accepted d (List.mem_cons_of_mem _ hd)
          · rename_i ne
            exact ih rest _ (ahead.succ ne) accepted

/-! ## What is written is the source with the splices made -/

/-- **Edits for later tokens are splices of later ranges.** -/
theorem splices_follow {ts : List Token} {n lo : Nat} (there : s.tokens.toList.drop n = ts)
    (spans : Token.Spans lo s.source.size ts) (ahead : Ahead n edits)
    (fits : ∀ e ∈ edits, s.Fits e) :
    Splice.Follow s.source.size lo (s.splices edits) := by
  induction ts generalizing n lo edits with
  | nil =>
      have none_left : edits = [] := by
        rw [List.eq_nil_iff_forall_not_mem]
        intro e he
        have within := (fits_iff.1 (fits e he)).1
        have beyond := size_le_of_drop there
        have := ahead.least e he
        omega
      rw [none_left]
      exact spans.le
  | cons t ts ih =>
      obtain ⟨here, rest⟩ := get?_of_drop there
      obtain ⟨rfl, nonempty, spans⟩ := spans
      cases edits with
      | nil =>
          have := spans.le
          exact Nat.le_trans (Nat.le_of_lt nonempty) this
      | cons e es =>
          by_cases eq : e.position = n
          · have first : s.splices (e :: es)
                = ⟨t.start, t.stop, bytesOf e.replacement⟩ :: s.splices es := by
              rw [splices, List.filterMap_cons, eq, here]
              rfl
            rw [first]
            exact ⟨Nat.le_refl _, nonempty, ih rest spans (ahead.tail eq)
              fun d hd => fits d (List.mem_cons_of_mem _ hd)⟩
          · exact (ih rest spans (ahead.succ eq) fits).mono (Nat.le_of_lt nonempty)

/-- **What stands in place of a token does not depend on edits for other positions.** -/
theorem edited_cons {e : Edit} {es : List Edit} {n : Nat} (ne : e.position ≠ n) (t : Token) :
    s.edited (e :: es) n t = s.edited es n t := by
  rw [edited, edited, List.find?_cons, beq_eq_false_iff_ne.2 ne]

/-- **A token stays as it is if all edits are for later ones.** -/
theorem edited_of_ahead {n : Nat} (ahead : Ahead (n + 1) edits) (t : Token) :
    s.edited edits n t = s.textOf t := by
  have none_here : edits.find? (fun e => e.position == n) = none := by
    rw [List.find?_eq_none]
    intro e he
    have := ahead.least e he
    rw [beq_iff_eq]
    omega
  rw [edited, none_here]

/-- **The pieces of the tokens from a position on make up the rest of the source with the splices
made.** -/
theorem written_edited {ts : List Token} {n lo : Nat} (there : s.tokens.toList.drop n = ts)
    (spans : Token.Spans lo s.source.size ts) (ahead : Ahead n edits)
    (fits : ∀ e ∈ edits, s.Fits e) :
    Token.written (s.edited edits) n ts = s.source.splice lo (s.splices edits) := by
  have follow := splices_follow there spans ahead fits
  induction ts generalizing n lo edits with
  | nil =>
      obtain rfl : lo = s.source.size := spans
      rw [Token.written]
      cases made : s.splices edits with
      | nil => exact ByteArray.extract_same.symm
      | cons c cs =>
          rw [made] at follow
          obtain ⟨behind, nonempty, rest⟩ := follow
          have := rest.le
          omega
  | cons t ts ih =>
      obtain ⟨here, rest⟩ := get?_of_drop there
      obtain ⟨rfl, nonempty, spans⟩ := spans
      -- A token that no edit is for is written as it is, and the splices are later.
      have kept (later : Ahead (n + 1) edits) :
          Token.written (s.edited edits) n (t :: ts)
            = s.source.splice t.start (s.splices edits) := by
        have follow := splices_follow rest spans later fits
        rw [Token.written, edited_of_ahead later, ih rest spans later fits follow,
          textOf, Bytes.slice_append_splice (Nat.le_of_lt nonempty) follow]
      cases edits with
      | nil => exact kept (.nil _)
      | cons e es =>
          by_cases eq : e.position = n
          · have later := ahead.tail eq
            have others : Token.written (s.edited (e :: es)) (n + 1) ts
                = Token.written (s.edited es) (n + 1) ts :=
              Token.written_congr fun i t' _ => edited_cons (by omega) t'
            have fits' : ∀ d ∈ es, s.Fits d := fun d hd => fits d (List.mem_cons_of_mem _ hd)
            have follow' := splices_follow rest spans later fits'
            have piece : s.edited (e :: es) n t = bytesOf e.replacement := by
              rw [edited, List.find?_cons, beq_iff_eq.2 eq]
            have splice : s.splices (e :: es)
                = ⟨t.start, t.stop, bytesOf e.replacement⟩ :: s.splices es := by
              rw [splices, List.filterMap_cons, eq, here]
              rfl
            rw [Token.written, piece, others, ih rest spans later fits' follow', splice,
              Bytes.splice, Bytes.slice, ByteArray.extract_same, ByteArray.empty_append]
          · exact kept (ahead.succ eq)

/-! ## Reassembly -/

/-- **Reassembly is stopped by the first edit that is refused.** -/
theorem reassemble_of_refused {edits : EditSet} {e : Edit}
    (refused : edits.toList.find? s.refuses = some e) {t : Token}
    (token : s.get? e.position = some t) :
    s.reassemble edits = .error (.mismatch e.position e.patcher (s.textOf t)) := by
  rw [reassemble, weave_of_refused List.drop_zero _ (.start edits) refused token]

/-- **Reassembly gives an output if all edits are taken.** -/
theorem reassemble_of_fits {edits : EditSet} (spans : Token.Spans 0 s.source.size s.tokens.toList)
    (fits : ∀ e ∈ edits.toList, s.Fits e) :
    s.reassemble edits = .ok (s.source.splice 0 (s.splices edits.toList)) := by
  obtain ⟨out, woven⟩ := weave_of_accepted List.drop_zero ByteArray.empty (.start edits)
    fun e he => (fits_iff.1 (fits e he)).2
  have none_left : edits.toList.filter (fun e => s.size ≤ e.position) = [] := by
    rw [List.filter_eq_nil_iff]
    intro e he
    have := (fits_iff.1 (fits e he)).1
    rw [decide_eq_true_eq]
    omega
  have ok : s.reassemble edits = .ok out := by
    rw [reassemble, woven, none_left]
  rw [ok, reassemble_ok ok, written_edited List.drop_zero spans (.start edits) fits]

/-- **Reassembly names the edits for which there is no token**, if none is refused. -/
theorem reassemble_of_beyond {edits : EditSet} (accepted : ∀ e ∈ edits.toList, s.refuses e = false)
    {e : Edit} (mem : e ∈ edits.toList) (beyond : s.size ≤ e.position) :
    s.reassemble edits = .error (.positionNotFound
      ((edits.toList.filter fun d => s.size ≤ d.position).map Edit.position) s.size) := by
  obtain ⟨out, woven⟩ := weave_of_accepted List.drop_zero ByteArray.empty (.start edits) accepted
  rw [reassemble, woven]
  cases left : edits.toList.filter (fun e => s.size ≤ e.position) with
  | nil =>
      have := List.filter_eq_nil_iff.1 left e mem
      rw [decide_eq_true_eq] at this
      exact absurd beyond this
  | cons => rfl

/-- **The tokens of a source with its tree cover it.** -/
theorem ofTree_spans (source : Bytes) (tree : Node) :
    Token.Spans 0 source.size (ofTree source tree).tokens.toList :=
  Token.cover_spans _ (Nat.zero_le _)

/-- **Why a stream does not take edits**: the first one that is refused, or else all positions where
there is no token. -/
inductive Rejects (s : TokenStream) (edits : EditSet) : EditError → Prop where
  /-- The token reads otherwise, and there is none such at a smaller position. -/
  | mismatch {e : Edit} {t : Token} (mem : e ∈ edits.toList)
    (token : s.get? e.position = some t) (other : e.expected.accepts (s.textOf t) = false)
    (least : ∀ d ∈ edits.toList, s.refuses d = true → e.position ≤ d.position) :
    Rejects s edits (.mismatch e.position e.patcher (s.textOf t))
  /-- No token reads otherwise, and these are the positions without a token. -/
  | beyond {positions : List Nat} (accepted : ∀ e ∈ edits.toList, s.refuses e = false)
    (some_beyond : positions ≠ []) (ascending : positions.Pairwise (· < ·))
    (mem_iff : ∀ n, n ∈ positions ↔ s.size ≤ n ∧ ∃ e ∈ edits.toList, e.position = n) :
    Rejects s edits (.positionNotFound positions s.size)

/-- **The positions beyond the tokens** are those that the pass leaves. -/
theorem mem_beyond {edits : EditSet} {n : Nat} :
    n ∈ (edits.toList.filter fun e => s.size ≤ e.position).map Edit.position
      ↔ s.size ≤ n ∧ ∃ e ∈ edits.toList, e.position = n := by
  simp only [List.mem_map, List.mem_filter, decide_eq_true_eq]
  constructor
  · rintro ⟨e, ⟨mem, le⟩, rfl⟩
    exact ⟨le, e, mem, rfl⟩
  · rintro ⟨le, e, mem, rfl⟩
    exact ⟨e, ⟨mem, le⟩, rfl⟩

/-- **The positions beyond the tokens ascend.** -/
theorem pairwise_beyond (s : TokenStream) (edits : EditSet) :
    ((edits.toList.filter fun e => s.size ≤ e.position).map Edit.position).Pairwise (· < ·) :=
  List.pairwise_map.2 (edits.ascending.filter _)

/-- **A stream takes all edits, or there is a reason** why reassembly fails. -/
theorem fits_or_rejects (s : TokenStream) (edits : EditSet) :
    (∀ e ∈ edits.toList, s.Fits e)
      ∨ ∃ error, s.Rejects edits error ∧ s.reassemble edits = .error error := by
  cases found : edits.toList.find? s.refuses with
  | some e =>
      obtain ⟨mem, refused, least⟩ := EditSet.find?_eq_some_iff.1 found
      obtain ⟨t, token, other⟩ := refuses_iff.1 refused
      exact .inr ⟨_, .mismatch mem token other least, reassemble_of_refused found token⟩
  | none =>
      have accepted : ∀ e ∈ edits.toList, s.refuses e = false := by
        simpa only [List.find?_eq_none, Bool.not_eq_true] using found
      by_cases some_beyond : ∃ e ∈ edits.toList, s.size ≤ e.position
      · obtain ⟨e, mem, le⟩ := some_beyond
        have left := List.ne_nil_of_mem (mem_beyond.2 ⟨le, e, mem, rfl⟩)
        exact .inr ⟨_, .beyond accepted left (pairwise_beyond s edits) fun n => mem_beyond,
          reassemble_of_beyond accepted mem le⟩
      · refine .inl fun e mem => fits_iff.2 ⟨Nat.lt_of_not_le fun le => ?_, accepted e mem⟩
        exact some_beyond ⟨e, mem, le⟩

/-- **Reassembly gives an output exactly if all edits are taken.** -/
theorem reassemble_isOk_iff {edits : EditSet}
    (spans : Token.Spans 0 s.source.size s.tokens.toList) :
    (∃ out, s.reassemble edits = .ok out) ↔ ∀ e ∈ edits.toList, s.Fits e := by
  constructor
  · rintro ⟨out, ok⟩
    obtain fits | ⟨error, -, failed⟩ := fits_or_rejects s edits
    · exact fits
    · rw [failed] at ok
      cases ok
  · intro fits
    exact ⟨_, reassemble_of_fits spans fits⟩

/-- **Reassembly fails exactly for the reasons that there are** not to take the edits. -/
theorem reassemble_error_iff {edits : EditSet}
    (spans : Token.Spans 0 s.source.size s.tokens.toList) (error : EditError) :
    s.reassemble edits = .error error ↔ s.Rejects edits error := by
  constructor
  · intro failed
    obtain fits | ⟨error', rejects, failed'⟩ := fits_or_rejects s edits
    · rw [reassemble_of_fits spans fits] at failed
      cases failed
    · rw [failed', Except.error.injEq] at failed
      rwa [← failed]
  · rintro (⟨mem, token, other, least⟩ | ⟨accepted, some_beyond, ascending, mem_iff⟩)
    · refine reassemble_of_refused (EditSet.find?_eq_some_iff.2 ⟨mem, ?_, least⟩) token
      exact refuses_iff.2 ⟨_, token, other⟩
    · obtain ⟨n, listed⟩ := List.exists_mem_of_ne_nil _ some_beyond
      obtain ⟨le, e, mem, rfl⟩ := (mem_iff n).1 listed
      have same := (pairwise_beyond s edits).eq_of_mem_iff ascending fun n =>
        mem_beyond.trans (mem_iff n).symm
      rw [reassemble_of_beyond accepted mem le, same]

/-- **Edits that are taken stand for one splice each.** -/
theorem length_splices {edits : List Edit} (fits : ∀ e ∈ edits, s.Fits e) :
    (s.splices edits).length = edits.length := by
  refine List.filterMap_length_eq_length.2 fun e he => ?_
  obtain ⟨t, token, -⟩ := fits e he
  rw [token]
  rfl

/-- **Reassembly replaces exactly the ranges of the edited tokens.** Over a source with any tree it
gives an output exactly if there is a token for each edit and the token reads as it should. The
output is then the source with the ranges of these tokens replaced, which follow each other, and
everything between them as it was; without edits it is the source. If a token that is there reads
otherwise, the error names the first such edit and what its token reads. If none does, the error
names all the positions beyond the tokens, in ascending order. -/
theorem reassemble_ofTree (source : Bytes) (tree : Node) (edits : EditSet) :
    ((∃ out, (ofTree source tree).reassemble edits = .ok out)
        ↔ ∀ e ∈ edits.toList, (ofTree source tree).Fits e)
      ∧ (∀ out, (ofTree source tree).reassemble edits = .ok out →
          out = source.splice 0 ((ofTree source tree).splices edits.toList)
          ∧ ((ofTree source tree).splices edits.toList).length = edits.size
          ∧ Splice.Follow source.size 0 ((ofTree source tree).splices edits.toList))
      ∧ (ofTree source tree).reassemble .empty = .ok source
      ∧ ∀ error, (ofTree source tree).reassemble edits = .error error
          ↔ (ofTree source tree).Rejects edits error := by
  have spans := ofTree_spans source tree
  generalize made : ofTree source tree = s at spans
  obtain rfl : s.source = source := by rw [← made]; rfl
  refine ⟨reassemble_isOk_iff spans, fun out ok => ?_, ?_, reassemble_error_iff spans⟩
  · have fits := (reassemble_isOk_iff spans).1 ⟨out, ok⟩
    rw [reassemble_of_fits spans fits, Except.ok.injEq] at ok
    exact ⟨ok.symm, length_splices fits, splices_follow List.drop_zero spans (.start edits)
      fits⟩
  · rw [reassemble_of_fits spans fun e he => absurd he List.not_mem_nil]
    exact congrArg Except.ok s.source.splice_nil

end TokenStream

end Seams
