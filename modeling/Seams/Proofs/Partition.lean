import Mathlib.Data.List.Basic
import Mathlib.Tactic.Common
import Seams.Proofs.Lookup
import Seams.Proofs.Splicing

/-! # Tokens divide a source
Whatever tree a source is given, its tokens divide it: they begin where the source begins, each one
where the one before ends, and they end where the source ends. A leaf that is empty, goes back or
goes beyond the source is passed over, and a gap takes its place, so nothing is lost or said twice.
Main definitions:
* **`TokenStream.Divides`** — the tokens of a stream divide its source. -/

namespace Seams

/-! ## Tokens that follow each other -/

namespace Token

variable {ts : List Token} {lo hi : Nat} {t u : Token}

/-- **Tokens follow each other from a byte to itself exactly if there are none.** -/
theorem Spans.eq_nil_iff (h : Spans lo hi ts) : ts = [] ↔ lo = hi := by
  constructor
  · rintro rfl
    exact h
  · rintro rfl
    cases ts with
    | nil => rfl
    | cons t ts =>
        obtain ⟨-, nonempty, rest⟩ := h
        exact absurd rest.le (by omega)

/-- **The next token starts where a token ends.** -/
theorem Spans.start_next (h : Spans lo hi ts) {n : Nat} (ht : ts[n]? = some t)
    (hu : ts[n + 1]? = some u) : u.start = t.stop := by
  induction ts generalizing lo n with
  | nil => cases ht
  | cons t' ts ih =>
      obtain ⟨-, -, rest⟩ := h
      cases n with
      | succ n => exact ih rest ht hu
      | zero =>
          obtain rfl : t' = t := by simpa using ht
          cases ts with
          | nil => cases hu
          | cons u' ts =>
              obtain rfl : u' = u := by simpa using hu
              exact rest.1

/-- **The last token ends at the end.** -/
theorem Spans.stop_last (h : Spans lo hi ts) {n : Nat} (ht : ts[n]? = some t)
    (last : n + 1 = ts.length) : t.stop = hi := by
  induction ts generalizing lo n with
  | nil => cases ht
  | cons t' ts ih =>
      obtain ⟨-, -, rest⟩ := h
      cases n with
      | succ n => exact ih rest ht (Nat.succ.inj last)
      | zero =>
          obtain rfl : t' = t := by simpa using ht
          have alone : ts = [] := List.length_eq_zero_iff.1 (Nat.succ.inj last).symm
          exact (rest.eq_nil_iff).1 alone

/-- **A later token starts where an earlier one ends, or behind it.** -/
theorem Spans.stop_le (h : Spans lo hi ts) {i j : Nat} (ht : ts[i]? = some t)
    (hu : ts[j]? = some u) (lt : i < j) : t.stop ≤ u.start := by
  induction ts generalizing lo i j with
  | nil => cases ht
  | cons t' ts ih =>
      obtain ⟨-, -, rest⟩ := h
      cases j with
      | zero => cases lt
      | succ j =>
          cases i with
          | succ i => exact ih rest ht hu (Nat.lt_of_succ_lt_succ lt)
          | zero =>
              obtain rfl : t' = t := by simpa using ht
              exact (rest.within (List.mem_of_getElem? hu)).1

/-- **Each byte between the ends is in a token.** -/
theorem Spans.exists_around (h : Spans lo hi ts) {i : Nat} (behind : lo ≤ i) (ahead : i < hi) :
    ∃ (n : Nat) (t : Token), ts[n]? = some t ∧ t.start ≤ i ∧ i < t.stop := by
  induction ts generalizing lo with
  | nil =>
      obtain rfl : lo = hi := h
      omega
  | cons t ts ih =>
      obtain ⟨rfl, -, rest⟩ := h
      by_cases inside : i < t.stop
      · exact ⟨0, t, rfl, behind, inside⟩
      · obtain ⟨n, u, there, around⟩ := ih rest (Nat.le_of_not_lt inside)
        exact ⟨n + 1, u, there, around⟩

/-- **No byte is in two tokens.** -/
theorem Spans.unique_around (h : Spans lo hi ts) {i n m : Nat} (ht : ts[n]? = some t)
    (hu : ts[m]? = some u) (around : t.start ≤ i ∧ i < t.stop)
    (around' : u.start ≤ i ∧ i < u.stop) : n = m := by
  rcases Nat.lt_trichotomy n m with lt | eq | lt
  · have := h.stop_le ht hu lt
    omega
  · exact eq
  · have := h.stop_le hu ht lt
    omega

end Token

/-! ## Streams that divide their source -/

namespace TokenStream

/-- **The tokens of a stream divide its source** into parts that follow each other. -/
structure Divides (s : TokenStream) : Prop where
  /-- No token is empty. -/
  nonempty : ∀ n t, s.get? n = some t → t.start < t.stop
  /-- The first one starts where the source does. -/
  first : ∀ t, s.get? 0 = some t → t.start = 0
  /-- Each one starts where the one before ends. -/
  next : ∀ n t u, s.get? n = some t → s.get? (n + 1) = some u → u.start = t.stop
  /-- The last one ends where the source does. -/
  last : ∀ n t, s.get? n = some t → n + 1 = s.size → t.stop = s.source.size
  /-- There are none exactly if the source is empty. -/
  none_iff : s.size = 0 ↔ s.source.size = 0
  /-- Each byte of the source is in one of them, and in no other. -/
  around : ∀ i < s.source.size, ∃! n, ∃ t, s.get? n = some t ∧ t.start ≤ i ∧ i < t.stop
  /-- Their texts, one after the other, are the source. -/
  texts : Token.written (fun _ => s.textOf) 0 s.tokens.toList = s.source

/-- **Tokens that follow each other from the start to the end of a source divide it.** -/
theorem Divides.of_spans {s : TokenStream}
    (spans : Token.Spans 0 s.source.size s.tokens.toList) : s.Divides where
  nonempty n t ht := (spans.within (List.mem_of_getElem? (Array.getElem?_toList.trans ht))).2.1
  first t ht := by
    rw [get?, ← Array.getElem?_toList] at ht
    cases listed : s.tokens.toList with
    | nil =>
        rw [listed] at ht
        cases ht
    | cons t' ts =>
        rw [listed] at ht spans
        obtain rfl : t' = t := by simpa using ht
        exact spans.1
  next n t u ht hu :=
    spans.start_next (Array.getElem?_toList.trans ht) (Array.getElem?_toList.trans hu)
  last n t ht end_ := by
    rw [size, ← Array.length_toList] at end_
    exact spans.stop_last (Array.getElem?_toList.trans ht) end_
  none_iff := by
    rw [size, ← Array.length_toList, List.length_eq_zero_iff, spans.eq_nil_iff, eq_comm]
  around i inside := by
    obtain ⟨n, t, there, around⟩ := spans.exists_around (Nat.zero_le i) inside
    refine ⟨n, ⟨t, Array.getElem?_toList.symm.trans there, around⟩, ?_⟩
    rintro m ⟨u, there', around'⟩
    exact spans.unique_around (Array.getElem?_toList.trans there') there around' around
  texts := (spans.written_text s.source 0).trans ByteArray.extract_zero_size

/-- **The tokens of a source divide it, whatever its tree is.** The leaves may be empty, out of
order, one over the other or beyond the source, and there may be errors among them. -/
theorem ofTree_divides (source : Bytes) (tree : Node) :
    (ofTree source tree).source = source ∧ (ofTree source tree).Divides :=
  ⟨rfl, .of_spans (ofTree_spans source tree)⟩

/-- For instance, of two leaves over the same bytes and one beyond the source the first one is
left, between two gaps. -/
example : (ofTree (bytesOf "<?php") (.mk ⟨"program", true, "", 0, 9, false, false⟩
    [.leaf "name" true 2 4, .leaf "name" true 1 4, .leaf "name" true 4 9])).tokens
      = #[.trivia 0 2, ⟨2, 4, "name", true, some "program"⟩, .trivia 4 5] := by
  decide +kernel

end TokenStream

end Seams
