import Mathlib.Data.List.Dedup
import Mathlib.Data.List.Induction
import Mathlib.Tactic.Common
import Seams.Proofs.ExitSignal
import Seams.Proofs.Generations

/-! # What is in a set of names
A set of names is what has been put into it and taken out of it: a name is in it if the last call
about that name, up to case and the white space around it, put it in. This says everything about a
set, so the order of the calls and the case of their names leave no trace. The names ascend by their
bytes, since UTF-8 keeps the order of characters.
Main definitions:
* **`NameSet.Call`** — a name is put into a set or taken out of it;
* **`NameSet.serveAll`** — the set that some calls make, from one without names;
* **`NameSet.lastInserts`** — the last call about a name put it in;
* **`NameSet.Reflects`** — a set is what some calls say. -/

namespace Seams

/-! ## Order of bytes -/

namespace Text

/-- **Byte strings are told apart by the first byte that differs.** -/
theorem cons_ofNat_lt {a b : Nat} {s t : List UInt8} (ha : a < 256) (hb : b < 256) (first : a ≤ b)
    (rest : a = b → s < t) : UInt8.ofNat a :: s < UInt8.ofNat b :: t := by
  rw [List.cons_lt_cons_iff, UInt8.lt_iff_toNat_lt, UInt8.toNat_ofNat', UInt8.toNat_ofNat',
    Nat.mod_eq_of_lt ha, Nat.mod_eq_of_lt hb]
  rcases Nat.lt_or_eq_of_le first with less | rfl
  · exact .inl less
  · exact .inr ⟨rfl, rest rfl⟩

/-- **The bytes of characters are in the order of the characters**, whatever comes behind. -/
theorem utf8EncodeChar_append_lt {c d : Char} (lt : c < d) (xs ys : List UInt8) :
    String.utf8EncodeChar c ++ xs < String.utf8EncodeChar d ++ ys := by
  have less : c.val.toNat < d.val.toNat := UInt32.lt_iff_toNat_lt.1 lt
  have small : d.val.toNat < 0x110000 := by
    have valid := d.valid
    unfold UInt32.isValidChar Nat.isValidChar at valid
    omega
  unfold String.utf8EncodeChar
  generalize c.val.toNat = v at less ⊢
  generalize d.val.toNat = w at less small ⊢
  simp only
  -- A longer encoding begins with a larger byte. Of two as long, the one of the smaller character
  -- is smaller where they first differ.
  split
  · split
    · exact cons_ofNat_lt (by omega) (by omega) (by omega) fun _ => by omega
    · split
      · exact cons_ofNat_lt (by omega) (by omega) (by omega) fun _ => by omega
      · split <;> exact cons_ofNat_lt (by omega) (by omega) (by omega) fun _ => by omega
  · rw [if_neg (by omega : ¬ w ≤ 127)]
    split
    · split
      · refine cons_ofNat_lt (by omega) (by omega) (by omega) fun _ => ?_
        exact cons_ofNat_lt (by omega) (by omega) (by omega) fun _ => by omega
      · split <;> exact cons_ofNat_lt (by omega) (by omega) (by omega) fun _ => by omega
    · rw [if_neg (by omega : ¬ w ≤ 2047)]
      split
      · split
        · refine cons_ofNat_lt (by omega) (by omega) (by omega) fun _ => ?_
          refine cons_ofNat_lt (by omega) (by omega) (by omega) fun _ => ?_
          exact cons_ofNat_lt (by omega) (by omega) (by omega) fun _ => by omega
        · exact cons_ofNat_lt (by omega) (by omega) (by omega) fun _ => by omega
      · rw [if_neg (by omega : ¬ w ≤ 65535)]
        refine cons_ofNat_lt (by omega) (by omega) (by omega) fun _ => ?_
        refine cons_ofNat_lt (by omega) (by omega) (by omega) fun _ => ?_
        refine cons_ofNat_lt (by omega) (by omega) (by omega) fun _ => ?_
        exact cons_ofNat_lt (by omega) (by omega) (by omega) fun _ => by omega

/-- **The bytes of texts are in the order of the texts.** -/
theorem bytesOf_lt {s t : String} (lt : s < t) :
    (bytesOf s).data.toList < (bytesOf t).data.toList := by
  rw [String.lt_iff] at lt
  rw [toList_bytesOf, toList_bytesOf]
  generalize s.toList = cs at lt ⊢
  generalize t.toList = ds at lt ⊢
  induction lt with
  | @nil d ds =>
      obtain ⟨b, bs, eq⟩ := List.exists_cons_of_ne_nil (String.utf8EncodeChar_ne_nil (c := d))
      rw [List.flatMap_nil, List.flatMap_cons, eq]
      exact List.nil_lt_cons _ _
  | rel less =>
      rw [List.flatMap_cons, List.flatMap_cons]
      exact utf8EncodeChar_append_lt less _ _
  | cons _ ih =>
      rw [List.flatMap_cons, List.flatMap_cons]
      exact List.append_left_lt ih

/-! ## White space and case -/

/-- **White space is white space in lower case**, and nothing else is. -/
theorem isBlank_foldChar (c : Char) : isBlank (foldChar c) = isBlank c := by
  by_cases upper : 'A' ≤ c ∧ c ≤ 'Z'
  · -- There are few capital letters, so each is tried.
    have letters : ∀ n < 91, 65 ≤ n →
        isBlank (foldChar (Char.ofNat n)) = isBlank (Char.ofNat n) := by decide +kernel
    have lo : 65 ≤ c.toNat := upper.1
    have hi : c.toNat ≤ 90 := upper.2
    rw [← Char.ofNat_toNat c]
    exact letters c.toNat (by omega) lo
  · rw [foldChar, if_neg upper]

/-- **Some characters begin or end in white space.** -/
def BlankEnd (cs : List Char) : Prop :=
  cs.head?.any isBlank = true ∨ cs.getLast?.any isBlank = true

/-- **Characters begin or end in white space in lower case if they do as they are.** -/
theorem blankEnd_map_foldChar {cs : List Char} : BlankEnd (cs.map foldChar) ↔ BlankEnd cs := by
  have same : (fun c => isBlank (foldChar c)) = isBlank := funext isBlank_foldChar
  rw [BlankEnd, BlankEnd, List.head?_map, List.getLast?_map, Option.any_map, Option.any_map, same]

/-- **What is left without white space at the ends has none there.** -/
theorem not_blankEnd_trimChars (cs : List Char) : ¬ BlankEnd (trimChars cs) := by
  have dropped (ds : List Char) : ¬ (ds.dropWhile isBlank).head?.any isBlank = true := by
    have first := List.head?_dropWhile_not isBlank ds
    cases eq : (ds.dropWhile isBlank).head? with
    | none => exact Bool.false_ne_true
    | some c =>
        rw [eq] at first
        exact ne_true_of_eq_false first
  rintro (blank | blank)
  · -- What is cut at the end leaves the beginning as it is.
    have within : trimChars cs <+: cs.dropWhile isBlank := by
      rw [← List.reverse_suffix, trimChars, List.reverse_reverse]
      exact List.dropWhile_suffix _
    obtain ⟨c, first, blank⟩ := (Option.any_eq_true _ _).1 blank
    refine dropped cs ((Option.any_eq_true _ _).2 ⟨c, ?_, blank⟩)
    obtain ⟨tail, eq⟩ := within
    rw [← eq, List.head?_append, first]
    rfl
  · rw [trimChars, List.getLast?_reverse] at blank
    exact dropped _ blank

end Text

namespace NameSet

/-! ## Calls -/

/-- A call that may change a set of names. -/
inductive Call where
  /-- Put a name into the set. -/
  | insert (name : String)
  /-- Take a name out of the set. -/
  | remove (name : String)
  deriving DecidableEq

namespace Call

/-- **The name that a call is about**, as a set keeps it. -/
def key : Call → String
  | .insert name => foldName name
  | .remove name => foldName name

/-- **A call puts a name in.** -/
def inserts : Call → Bool
  | .insert _ => true
  | .remove _ => false

/-- **The set after a call.** -/
def serve (s : NameSet) : Call → NameSet
  | .insert name => s.insert name
  | .remove name => s.remove name

/-- **The answer to a call.** -/
def reply (s : NameSet) : Call → Bool
  | .insert name => s.admits name
  | .remove name => s.yields name

end Call

/-- **The set that some calls make**, from one without names. -/
def serveAll (calls : List Call) : NameSet := calls.foldl Call.serve empty

/-- **The last call about a name put it in.** -/
def lastInserts (calls : List Call) (x : String) : Bool :=
  (calls.filter fun c => c.key == x).getLast?.any Call.inserts

variable {s t : NameSet} {calls others : List Call} {c : Call} {x q : String}

/-- **Of two calls about a name the last one counts.** -/
theorem lastInserts_concat :
    lastInserts (calls ++ [c]) x = if c.key = x then c.inserts else lastInserts calls x := by
  rw [lastInserts, lastInserts, List.filter_append]
  split
  · rename_i about
    rw [List.filter_cons_of_pos (by simpa using about), List.filter_nil, List.getLast?_concat]
    rfl
  · rename_i other
    rw [List.filter_cons_of_neg (by simpa using other), List.filter_nil, List.append_nil]

/-- **A name that was put in was the name of a call.** -/
theorem mem_keys_of_lastInserts (last : lastInserts calls x = true) :
    x ∈ calls.map Call.key := by
  obtain ⟨c, found, -⟩ := (Option.any_eq_true _ _).1 last
  obtain ⟨mem, about⟩ := List.mem_filter.1 (List.mem_of_getLast? found)
  exact List.mem_map.2 ⟨c, mem, by simpa using about⟩

/-- **A name that no call is about was not put in.** -/
theorem lastInserts_of_notMem (absent : x ∉ calls.map Call.key) : lastInserts calls x = false :=
  Bool.eq_false_iff.2 fun last => absent (mem_keys_of_lastInserts last)

/-- **A call changes whether its name is in the set**, and no other name. -/
theorem mem_serve (worded : "" ∉ s.toList) : x ∈ (c.serve s).toList
    ↔ x ≠ "" ∧ if c.key = x then c.inserts = true else x ∈ s.toList := by
  have blank (mem : x ∈ s.toList) : x ≠ "" := fun eq => worded (eq ▸ mem)
  cases c with
  | insert name =>
      rw [Call.serve, mem_insert, Call.key, Call.inserts]
      split
      · rename_i about
        subst about
        simp only [true_and, and_true]
        exact or_iff_right_of_imp blank
      · rename_i other
        rw [or_iff_left fun new => other new.1.symm]
        exact (and_iff_right_of_imp blank).symm
  | remove name =>
      rw [Call.serve, mem_remove, Call.key, Call.inserts]
      split
      · rename_i about
        simp [about]
      · rename_i other
        rw [and_iff_left (Ne.symm other)]
        exact (and_iff_right_of_imp blank).symm

/-- **A name is in the set exactly if the last call about it put it in.** -/
theorem mem_serveAll : x ∈ (serveAll calls).toList ↔ x ≠ "" ∧ lastInserts calls x = true := by
  -- Over the calls, from the last one back.
  induction calls using List.reverseRecOn generalizing x with
  | nil => simp [serveAll, empty, lastInserts]
  | append_singleton calls c ih =>
      have worded : "" ∉ (serveAll calls).toList := fun mem => (ih.1 mem).1 rfl
      have last : serveAll (calls ++ [c]) = c.serve (serveAll calls) :=
        List.foldl_concat _ _ _ _
      rw [last, mem_serve worded, lastInserts_concat]
      split
      · rfl
      · rw [ih, and_self_left]

/-- **No name is in a set twice.** -/
theorem nodup (s : NameSet) : s.toList.Nodup := by
  refine s.ascending.imp ?_
  rintro a b lt rfl
  exact String.lt_irrefl a lt

/-- **Sets with the same names are the same.** -/
theorem eq_of_mem_iff (same : ∀ x, x ∈ s.toList ↔ x ∈ t.toList) : s = t := by
  refine ext (List.Perm.eq_of_pairwise (fun a b _ _ less more => ?_) s.ascending t.ascending
    ((List.perm_ext_iff_of_nodup s.nodup t.nodup).2 same))
  exact absurd (String.lt_trans less more) (String.lt_irrefl a)

/-- **A call answers whether it changes the set.** -/
theorem reply_iff : c.reply s = true ↔ c.serve s ≠ s := by
  cases c with
  | insert name =>
      rw [Call.reply, Call.serve, admits, Bool.and_eq_true, bne_iff_ne, Bool.not_eq_true',
        ← Bool.not_eq_true, List.contains_iff_mem]
      refine ⟨fun ⟨worded, new⟩ same => new ?_, fun changed => ?_⟩
      · rw [← same]
        exact mem_insert.2 (.inr ⟨rfl, worded⟩)
      · refine ⟨fun blank => changed ?_, fun there => changed ?_⟩
        · rw [insert, if_pos blank]
        · rw [insert, dif_pos there, ite_self]
  | remove name =>
      rw [Call.reply, Call.serve, yields, List.contains_iff_mem]
      refine ⟨fun there same => ?_, fun changed => ?_⟩
      · rw [← same] at there
        exact (mem_remove.1 there).2 rfl
      · by_contra absent
        refine changed (eq_of_mem_iff fun x => mem_remove.trans (and_iff_left_of_imp ?_))
        rintro mem rfl
        exact absent mem

/-! ## Sets as what calls say -/

/-- **A set is what some calls say.** -/
structure Reflects (s : NameSet) (calls : List Call) : Prop where
  /-- A name in any case is in the set if the last call about it put it in. -/
  contains : ∀ q, s.contains q = true ↔ q ≠ "" ∧ lastInserts calls (Text.foldCase q) = true
  /-- Nothing that begins or ends in white space is. -/
  trimmed : ∀ q : String, Text.BlankEnd q.toList → s.contains q = false
  /-- What has no capital letters is looked up as it is. -/
  lower : ∀ q : String, (∀ c ∈ q.toList, ¬ ('A' ≤ c ∧ c ≤ 'Z')) →
    s.contains q = s.toList.contains q
  /-- A further call answers whether it changes the set. -/
  reply : ∀ c : Call, c.reply s = true ↔ c.serve s ≠ s
  /-- The names that were put in are counted, each once. -/
  size : s.size
    = ((calls.map Call.key).dedup.filter fun x => x != "" && lastInserts calls x).length
  /-- The names ascend by their bytes. -/
  bytes : s.toList.Pairwise fun a b => (bytesOf a).data.toList < (bytesOf b).data.toList

/-- **Nothing but the empty text is empty in lower case.** -/
theorem foldCase_eq_empty : Text.foldCase q = "" ↔ q = "" := by
  rw [Text.foldCase, ← String.ofList_nil, String.ofList_inj, List.map_eq_nil_iff,
    String.toList_eq_nil_iff]

/-- **Calls make a set that is what they say. And it is said by the calls which names are in it**:
calls of which the last about each name do the same make the same set, and so all that is told from
the set for a cache is the same. -/
theorem reflects_serveAll (calls others : List Call) :
    (serveAll calls).Reflects calls
      ∧ ((∀ x, x ≠ "" → lastInserts calls x = lastInserts others x) →
        serveAll calls = serveAll others
          ∧ ∀ c : Configuration,
            AxisSnapshot.of { c with whitelist := serveAll calls }
                = AxisSnapshot.of { c with whitelist := serveAll others }
              ∧ (AxisSnapshot.of { c with whitelist := serveAll calls }).generation
                = (AxisSnapshot.of { c with whitelist := serveAll others }).generation) := by
  have contains (q : String) : (serveAll calls).contains q = true
      ↔ q ≠ "" ∧ lastInserts calls (Text.foldCase q) = true := by
    rw [contains_iff, mem_serveAll, Ne, foldCase_eq_empty]
  refine ⟨{ contains, reply := fun c => reply_iff, trimmed := ?_, lower := ?_, size := ?_,
            bytes := ?_ }, fun same => ?_⟩
  · intro q blank
    refine Bool.eq_false_iff.2 fun mem => ?_
    obtain ⟨c, -, key⟩ := List.mem_map.1 (mem_keys_of_lastInserts ((contains q).1 mem).2)
    obtain ⟨name, key⟩ : ∃ name, foldName name = Text.foldCase q := by
      cases c with
      | insert name => exact ⟨name, key⟩
      | remove name => exact ⟨name, key⟩
    rw [foldName, Text.foldCase, Text.foldCase, String.ofList_inj, Text.trim,
      String.toList_ofList] at key
    exact Text.not_blankEnd_trimChars _
      (Text.blankEnd_map_foldChar.1 (key ▸ Text.blankEnd_map_foldChar.2 blank))
  · intro q lower
    have same : q.toList.map Text.foldChar = q.toList :=
      (List.map_congr_left fun c mem => if_neg (lower c mem)).trans (List.map_id _)
    rw [NameSet.contains, Text.foldCase, same, String.ofList_toList]
  · refine List.Perm.length_eq ((List.perm_ext_iff_of_nodup (serveAll calls).nodup
      ((List.nodup_dedup _).filter _)).2 fun x => ?_)
    rw [mem_serveAll, List.mem_filter, List.mem_dedup, Bool.and_eq_true, bne_iff_ne]
    exact ⟨fun mem => ⟨mem_keys_of_lastInserts mem.2, mem⟩, fun mem => mem.2⟩
  · exact (serveAll calls).ascending.imp Text.bytesOf_lt
  · have eq : serveAll calls = serveAll others := eq_of_mem_iff fun x => by
      rw [mem_serveAll, mem_serveAll]
      exact and_congr_right fun ne => by rw [same x ne]
    rw [eq]
    exact ⟨rfl, fun c => ⟨rfl, rfl⟩⟩

/-- **Two ways to the same set**, in another order and another case. -/
theorem reflects_serveAll_rand :
    serveAll [.insert " Time", .remove "RAND", .insert "Rand\n"]
        = serveAll [.insert "rand", .insert "time"]
      ∧ (serveAll [.insert "rand", .insert "time"]).contains "RAND" = true
      ∧ (serveAll [.insert "rand", .insert "time"]).contains " rand" = false := by
  have same : ∀ x, x ≠ "" →
      lastInserts [.insert " Time", .remove "RAND", .insert "Rand\n"] x
        = lastInserts [.insert "rand", .insert "time"] x := by
    intro x _
    by_cases about : x = "rand" ∨ x = "time"
    · rcases about with rfl | rfl <;> decide +kernel
    · -- No call is about any other name.
      obtain ⟨rand, time⟩ := not_or.1 about
      have keys : [Call.insert " Time", .remove "RAND", .insert "Rand\n"].map Call.key
          = ["time", "rand", "rand"] := by decide +kernel
      have others : [Call.insert "rand", .insert "time"].map Call.key = ["rand", "time"] := by
        decide +kernel
      rw [lastInserts_of_notMem (by rw [keys]; simp [rand, time]),
        lastInserts_of_notMem (by rw [others]; simp [rand, time])]
  obtain ⟨eq, -⟩ := (reflects_serveAll _ _).2 same
  have reflects := (reflects_serveAll [.insert "rand", .insert "time"] []).1
  refine ⟨eq, (reflects.contains _).2 ⟨by decide, by decide +kernel⟩, reflects.trimmed _ ?_⟩
  exact .inl (by decide +kernel)

end NameSet

end Seams
