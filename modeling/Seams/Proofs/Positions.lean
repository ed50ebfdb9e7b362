import Mathlib.Data.List.Basic
import Mathlib.Tactic.Common
import Seams.Proofs.Lookup
import Seams.Proofs.Proposals

/-! # Tokens found by a byte, by a range and by a position
Whatever tree a source is given, its tokens ascend. So a byte at which a token begins tells which
token it is, and bisection finds it; a range finds the token that covers exactly that range, and the
next token that means something is the nearest one behind a position.
Main definitions:
* **`TokenStream.Means`** — the token at a position is neither white space nor a comment. -/

namespace Seams

namespace TokenStream

variable {s : TokenStream}

/-! ## The next token that means something -/

/-- **There is a token at the position, and it is neither white space nor a comment.** -/
def Means (s : TokenStream) (position : Nat) : Prop :=
  ∃ t, s.get? position = some t ∧ t.isTrivia = false ∧ t.isComment = false

/-- **A position within the tokens means something** exactly if its token is significant. -/
theorem means_iff {n : Nat} (h : n < s.tokens.size) :
    s.Means n ↔ s.tokens[n].isSignificant = true := by
  rw [Means, get?, Array.getElem?_eq_getElem h]
  simp [Token.isSignificant]

/-- **A position beyond the tokens means nothing.** -/
theorem not_means_of_le {n : Nat} (h : s.tokens.size ≤ n) : ¬ s.Means n := by
  rintro ⟨t, there, -⟩
  rw [get?, Array.getElem?_eq_none h] at there
  cases there

/-- **The first position that means something** is found, from a position on, if there is one. -/
theorem firstSignificant?_eq_some_iff {n i : Nat} : s.firstSignificant? n = some i
    ↔ n ≤ i ∧ s.Means i ∧ ∀ j, n ≤ j → j < i → ¬ s.Means j := by
  fun_induction firstSignificant? s n with
  | case1 n within significant =>
      have here := (means_iff within).2 significant
      constructor
      · intro found
        obtain rfl := Option.some.inj found
        exact ⟨Nat.le_refl _, here, fun j le lt => by omega⟩
      · rintro ⟨le, -, least⟩
        rcases Nat.eq_or_lt_of_le le with rfl | lt
        · rfl
        · exact absurd here (least n (Nat.le_refl n) lt)
  | case2 n within other ih =>
      have nothing : ¬ s.Means n := mt (means_iff within).1 other
      rw [ih]
      constructor
      · rintro ⟨le, found, least⟩
        refine ⟨by omega, found, fun j le' lt => ?_⟩
        rcases Nat.eq_or_lt_of_le le' with rfl | behind
        · exact nothing
        · exact least j behind lt
      · rintro ⟨le, found, least⟩
        have ne : n ≠ i := fun eq => nothing (eq ▸ found)
        exact ⟨by omega, found, fun j le' lt => least j (by omega) lt⟩
  | case3 n beyond =>
      refine iff_of_false (Option.some_ne_none i ∘ Eq.symm) ?_
      rintro ⟨le, found, -⟩
      exact not_means_of_le (by omega) found

/-- **Nothing is found from a position on** exactly if nothing means something there. -/
theorem firstSignificant?_eq_none_iff {n : Nat} :
    s.firstSignificant? n = none ↔ ∀ j, n ≤ j → ¬ s.Means j := by
  fun_induction firstSignificant? s n with
  | case1 n within significant =>
      refine iff_of_false (Option.some_ne_none n) fun nothing => ?_
      exact nothing n (Nat.le_refl n) ((means_iff within).2 significant)
  | case2 n within other ih =>
      rw [ih]
      constructor
      · intro nothing j le
        rcases Nat.eq_or_lt_of_le le with rfl | behind
        · exact mt (means_iff within).1 other
        · exact nothing j behind
      · exact fun nothing j le => nothing j (by omega)
  | case3 n beyond =>
      exact iff_of_true rfl fun j le => not_means_of_le (by omega)

/-! ## Tokens by where they begin -/

variable {lo hi : Nat}

/-- **No two tokens begin at the same byte.** -/
theorem eq_of_start_eq (spans : Token.Spans lo hi s.tokens.toList) {i j : Nat} {t u : Token}
    (ht : s.get? i = some t) (hu : s.get? j = some u) (same : t.start = u.start) : i = j := by
  rw [get?, ← Array.getElem?_toList] at ht hu
  rcases Nat.lt_trichotomy i j with before | eq | behind
  · have := spans.start_lt ht hu before
    omega
  · exact eq
  · have := spans.start_lt hu ht behind
    omega

/-- **A patcher is given the token over a range** if there is one. -/
theorem tokenAt_eq_ok_iff {script : Script} {patcher : String} {start stop i : Nat} :
    script.tokenAt patcher start stop = .ok i ↔ script.tokens.tokenAt? start stop = some i := by
  rw [Script.tokenAt]
  cases script.tokens.tokenAt? start stop <;> simp

/-- **A patcher is told the start of a range** over which there is no token. -/
theorem tokenAt_of_none {script : Script} {patcher : String} {start stop : Nat}
    (missing : script.tokens.tokenAt? start stop = none) :
    script.tokenAt patcher start stop = .error (.tokenNotFound patcher start) := by
  rw [Script.tokenAt, missing]

/-! ## All ways to find a token -/

/-- **A token is found exactly.** For any source and tree: the position at a byte is that of the token
that begins there, and there is only one; the position of a range is that of the token that covers
exactly the range, and if there is none the start of the range is told; and the next position is the
least one further on whose token is neither white space nor a comment. -/
theorem lookups_exact (source : Bytes) (tree : Node) :
    let s := ofTree source tree
    (∀ byte i, s.positionAt? byte = some i ↔ ∃ t, s.get? i = some t ∧ t.start = byte)
      ∧ (∀ i j t u, s.get? i = some t → s.get? j = some u → t.start = u.start → i = j)
      ∧ (∀ patcher start stop i, (Script.withTree source tree).tokenAt patcher start stop = .ok i
          ↔ ∃ t, s.get? i = some t ∧ t.start = start ∧ t.stop = stop)
      ∧ (∀ patcher start stop, (¬ ∃ i t, s.get? i = some t ∧ t.start = start ∧ t.stop = stop) →
          (Script.withTree source tree).tokenAt patcher start stop
            = .error (.tokenNotFound patcher start))
      ∧ (∀ p i, s.nextSignificant? p = some i
          ↔ p < i ∧ s.Means i ∧ ∀ j, p < j → j < i → ¬ s.Means j)
      ∧ ∀ p, s.nextSignificant? p = none ↔ ∀ j, p < j → ¬ s.Means j := by
  intro s
  have spans : Token.Spans 0 source.size s.tokens.toList := ofTree_spans source tree
  refine ⟨fun _ _ => positionAt?_eq_some_iff spans, fun _ _ _ _ => eq_of_start_eq spans,
    fun patcher start stop i => ?_, fun patcher start stop missing => ?_,
    fun _ _ => firstSignificant?_eq_some_iff, fun _ => firstSignificant?_eq_none_iff⟩
  · rw [← tokenAt?_eq_some_iff spans]
    exact tokenAt_eq_ok_iff
  · refine tokenAt_of_none (Option.eq_none_iff_forall_ne_some.2 fun i found => missing ⟨i, ?_⟩)
    exact (tokenAt?_eq_some_iff spans).1 found

/-- For instance, in `a /* */ b` the second word begins at byte 8, is found from there to byte 9 but
not to byte 10, and is the next one behind the first that means something. -/
example :
    let tree : Node := .mk ⟨"program", true, "", 0, 9, false, false⟩
      [.leaf "name" true 0 1, .leaf "comment" true 2 7, .leaf "name" true 8 9]
    let s := ofTree (bytesOf "a /* */ b") tree
    s.positionAt? 8 = some 4 ∧ s.tokenAt? 8 9 = some 4 ∧ s.tokenAt? 8 10 = none
      ∧ s.nextSignificant? 0 = some 4 ∧ s.nextSignificant? 4 = none := by
  decide +kernel

end TokenStream

end Seams
