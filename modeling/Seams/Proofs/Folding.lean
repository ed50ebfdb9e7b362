import Mathlib.Tactic.Common
import Seams.Proofs.Splicing
import Seams.Redirect.Calls
import Seams.Redirect.Exits

/-! # Names up to case
Names are compared as text when they are looked up in a set, and as bytes when tokens are searched
for exits. Both fold the case of ASCII letters alone, so they agree: no byte of a longer character
is taken for a letter.
Main results:
* **`bytesOf_foldCase`** — the bytes of a text in lower case are its bytes in lower case;
* **`Redirect.readsExit_iff`** — the texts that read `exit` or `die`. -/

namespace Seams

/-- **A byte that is no capital letter** stays as it is. -/
theorem Bytes.lowerByte_eq_self {b : UInt8} (h : b.toNat < 0x41 ∨ 0x5a < b.toNat) :
    Bytes.lowerByte b = b := by
  unfold Bytes.lowerByte
  rw [if_neg]
  simp only [Bool.and_eq_true, decide_eq_true_eq, UInt8.le_iff_toNat_le, not_and]
  intro le le'
  have lo : 0x41 ≤ b.toNat := le
  have hi : b.toNat ≤ 0x5a := le'
  omega

namespace Text

/-- **The bytes of a character** are the character itself or beyond ASCII. -/
theorem toNat_of_mem_utf8EncodeChar {c : Char} {b : UInt8} (mem : b ∈ String.utf8EncodeChar c) :
    b.toNat = c.toNat ∨ 0x80 ≤ b.toNat := by
  unfold String.utf8EncodeChar at mem
  simp only at mem
  split at mem
  · rename_i ascii
    rw [List.mem_singleton] at mem
    refine .inl ?_
    rw [mem, UInt8.toNat_ofNat']
    exact Nat.mod_eq_of_lt (by omega)
  · refine .inr ?_
    split at mem
    · simp only [List.mem_cons, List.not_mem_nil, or_false] at mem
      rcases mem with rfl | rfl <;> rw [UInt8.toNat_ofNat'] <;> omega
    · split at mem
      · simp only [List.mem_cons, List.not_mem_nil, or_false] at mem
        rcases mem with rfl | rfl | rfl <;> rw [UInt8.toNat_ofNat'] <;> omega
      · simp only [List.mem_cons, List.not_mem_nil, or_false] at mem
        rcases mem with rfl | rfl | rfl | rfl <;> rw [UInt8.toNat_ofNat'] <;> omega

/-- **A character in lower case has its bytes in lower case.** -/
theorem utf8EncodeChar_foldChar (c : Char) :
    String.utf8EncodeChar (foldChar c) = (String.utf8EncodeChar c).map Bytes.lowerByte := by
  by_cases upper : 'A' ≤ c ∧ c ≤ 'Z'
  · -- There are few capital letters, so each is tried.
    have letters : ∀ n < 91, 65 ≤ n → String.utf8EncodeChar (foldChar (Char.ofNat n))
        = (String.utf8EncodeChar (Char.ofNat n)).map Bytes.lowerByte := by decide +kernel
    have lo : 65 ≤ c.toNat := upper.1
    have hi : c.toNat ≤ 90 := upper.2
    rw [← Char.ofNat_toNat c]
    exact letters c.toNat (by omega) lo
  · rw [foldChar, if_neg upper]
    refine ((List.map_congr_left fun b mem => ?_).trans (List.map_id _)).symm
    refine Bytes.lowerByte_eq_self ?_
    rcases toNat_of_mem_utf8EncodeChar mem with eq | high
    · rw [eq]
      by_contra inside
      rw [not_or, Nat.not_lt, Nat.not_lt] at inside
      exact upper inside
    · omega

end Text

/-- **The bytes of a text in lower case are its bytes in lower case.** -/
theorem bytesOf_foldCase (s : String) : bytesOf (Text.foldCase s) = (bytesOf s).lower := by
  have folded : (s.toList.map Text.foldChar).flatMap String.utf8EncodeChar
      = (s.toList.flatMap String.utf8EncodeChar).map Bytes.lowerByte := by
    rw [List.flatMap_map, List.map_flatMap]
    exact congrArg s.toList.flatMap (funext Text.utf8EncodeChar_foldChar)
  have bytes : bytesOf s = (s.toList.flatMap String.utf8EncodeChar).toByteArray := by
    conv_lhs => rw [← String.ofList_toList (s := s)]
    exact String.toByteArray_ofList
  rw [bytes, Bytes.lower]
  show (String.ofList _).toByteArray = _
  rw [String.toByteArray_ofList, List.utf8Encode, folded]
  apply ByteArray.ext
  simp

/-- **Texts with the same bytes are the same.** -/
theorem bytesOf_inj {a b : String} (h : bytesOf a = bytesOf b) : a = b :=
  String.toByteArray_inj.1 h

/-- **Texts are the same up to case exactly if their bytes are.** -/
theorem sameIgnoringCase_bytesOf_iff {a b : String} :
    (bytesOf a).sameIgnoringCase (bytesOf b) = true ↔ Text.foldCase a = Text.foldCase b := by
  rw [Bytes.sameIgnoringCase, beq_iff_eq, ← bytesOf_foldCase, ← bytesOf_foldCase]
  exact ⟨bytesOf_inj, congrArg bytesOf⟩

namespace Redirect

/-- **A text reads as an exit exactly if it is `exit` or `die` in lower case.** -/
theorem readsExit_iff (word : String) : readsExit (bytesOf word) = true
    ↔ Text.foldCase word = "exit" ∨ Text.foldCase word = "die" := by
  have exit_lower : (bytesOf "exit").lower = bytesOf "exit" := by decide +kernel
  have die_lower : (bytesOf "die").lower = bytesOf "die" := by decide +kernel
  rw [readsExit, Bool.or_eq_true, Bytes.sameIgnoringCase, Bytes.sameIgnoringCase, beq_iff_eq,
    beq_iff_eq, exit_lower, die_lower, ← bytesOf_foldCase]
  exact or_congr ⟨bytesOf_inj, congrArg bytesOf⟩ ⟨bytesOf_inj, congrArg bytesOf⟩

/-- **Whether calls by a name are redirected does not depend on its case.** -/
theorem isRedirected_congr {a b : String} (h : Text.foldCase a = Text.foldCase b)
    (whitelist blacklist : NameSet) :
    isRedirected whitelist blacklist a = isRedirected whitelist blacklist b := by
  rw [isRedirected, isRedirected, NameSet.contains, NameSet.contains, NameSet.contains,
    NameSet.contains, h]

/-- **No name that reads as an exit is redirected** exactly if neither `exit` nor `die` is. -/
theorem exits_kept_iff {whitelist blacklist : NameSet} :
    (∀ word, readsExit (bytesOf word) = true → isRedirected whitelist blacklist word = false)
      ↔ isRedirected whitelist blacklist "exit" = false
        ∧ isRedirected whitelist blacklist "die" = false := by
  constructor
  · intro kept
    exact ⟨kept "exit" (by decide +kernel), kept "die" (by decide +kernel)⟩
  · rintro ⟨exit_kept, die_kept⟩ word reads
    rcases (readsExit_iff word).1 reads with eq | eq
    · rw [← exit_kept]
      exact isRedirected_congr (eq.trans (by decide +kernel)) whitelist blacklist
    · rw [← die_kept]
      exact isRedirected_congr (eq.trans (by decide +kernel)) whitelist blacklist

end Redirect

end Seams
