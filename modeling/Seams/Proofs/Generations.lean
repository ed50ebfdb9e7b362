import Mathlib.Data.List.Basic
import Mathlib.Tactic.Common
import Seams.Proofs.Folding
import Seams.Proofs.Reconciling

/-! # What a generation tells of the axes
A generation is the hash of the values of all axes, written one after the other with a zero byte
behind each text and a byte that is part of no text behind each axis. So the bytes tell the axes
apart, but a text that holds a zero character reads as several: two snapshots are written alike
exactly if they have the same parts, and the records of the axes tell more than the generation.
Main definitions:
* **`AxisSnapshot.parts`** — the texts of an axis, cut at each zero character;
* **`AxisSnapshot.SameParts`** — two snapshots are written alike;
* **`AxisSnapshot.ZeroFree`** — no text of a snapshot holds a zero character. -/

namespace Seams

/-! ## Parts with an end mark -/

section EndMarks

variable {α : Type} [BEq α] [LawfulBEq α] {c : α} {ps qs : List (List α)}

omit [BEq α] [LawfulBEq α] in
/-- **A mark behind each part** is one between them and one at the end. -/
theorem flatMap_endMarked (ne : ps ≠ []) :
    ps.flatMap (· ++ [c]) = [c].intercalate ps ++ [c] := by
  induction ps with
  | nil => exact absurd rfl ne
  | cons p ps ih =>
      cases ps with
      | nil => simp
      | cons q qs =>
          rw [List.flatMap_cons, ih (List.cons_ne_nil q qs), List.intercalate_cons_cons]
          simp

/-- **Parts with an end mark behind each are told by what they make**, if none holds the mark. -/
theorem flatMap_endMarked_inj (free : ∀ p ∈ ps, c ∉ p) (free' : ∀ q ∈ qs, c ∉ q) :
    ps.flatMap (· ++ [c]) = qs.flatMap (· ++ [c]) ↔ ps = qs := by
  refine ⟨fun same => ?_, congrArg _⟩
  cases ps with
  | nil =>
      cases qs with
      | nil => rfl
      | cons q qs => simp at same
  | cons p ps =>
      cases qs with
      | nil => simp at same
      | cons q qs =>
          have ne := List.cons_ne_nil p ps
          have ne' := List.cons_ne_nil q qs
          rw [flatMap_endMarked ne, flatMap_endMarked ne'] at same
          -- Splitting at the marks gives the parts back.
          rw [← List.splitOn_intercalate c free ne, List.append_cancel_right same,
            List.splitOn_intercalate c free' ne']

/-- **A text with an end mark is its parts between the marks**, with an end mark behind each. -/
theorem flatMap_splitOn (cs : List α) : (cs.splitOn c).flatMap (· ++ [c]) = cs ++ [c] := by
  rw [flatMap_endMarked (List.splitOn_ne_nil c cs), List.intercalate_splitOn]

end EndMarks

/-! ## Texts as bytes -/

/-- **The bytes of a text** are those of its characters, one after the other. -/
theorem toList_bytesOf (s : String) :
    (bytesOf s).data.toList = s.toList.flatMap String.utf8EncodeChar := by
  have bytes : bytesOf s = (s.toList.flatMap String.utf8EncodeChar).toByteArray := by
    conv_lhs => rw [← String.ofList_toList (s := s)]
    exact String.toByteArray_ofList
  rw [bytes]
  simp

/-- **Characters with the same bytes are the same.** -/
theorem flatMap_utf8EncodeChar_inj {cs ds : List Char} :
    cs.flatMap String.utf8EncodeChar = ds.flatMap String.utf8EncodeChar ↔ cs = ds := by
  refine ⟨fun same => ?_, congrArg _⟩
  have texts : bytesOf (String.ofList cs) = bytesOf (String.ofList ds) := by
    refine ByteArray.ext (Array.toList_inj.1 ?_)
    rw [toList_bytesOf, toList_bytesOf, String.toList_ofList, String.toList_ofList, same]
  exact String.ofList_inj.1 (bytesOf_inj texts)

/-- **No byte of a character is one of the last eight.** -/
theorem toNat_lt_of_mem_utf8EncodeChar {c : Char} {b : UInt8}
    (mem : b ∈ String.utf8EncodeChar c) : b.toNat < 0xf8 := by
  unfold String.utf8EncodeChar at mem
  simp only at mem
  split at mem
  · rename_i ascii
    simp only [List.mem_cons, List.not_mem_nil, or_false] at mem
    rw [mem, UInt8.toNat_ofNat']
    omega
  · split at mem
    · simp only [List.mem_cons, List.not_mem_nil, or_false] at mem
      rcases mem with rfl | rfl <;> rw [UInt8.toNat_ofNat'] <;> omega
    · split at mem
      · simp only [List.mem_cons, List.not_mem_nil, or_false] at mem
        rcases mem with rfl | rfl | rfl <;> rw [UInt8.toNat_ofNat'] <;> omega
      · simp only [List.mem_cons, List.not_mem_nil, or_false] at mem
        rcases mem with rfl | rfl | rfl | rfl <;> rw [UInt8.toNat_ofNat'] <;> omega

/-- **The byte that ends an axis is part of no text.** -/
theorem axisEnd_notMem (cs : List Char) : 0xff ∉ cs.flatMap String.utf8EncodeChar := by
  intro mem
  obtain ⟨c, -, mem⟩ := List.mem_flatMap.1 mem
  exact absurd (toNat_lt_of_mem_utf8EncodeChar mem) (by decide)

/-! ## Snapshots as bytes -/

namespace AxisSnapshot

/-- **The character that ends a text.** -/
def textEnd : Char := Char.ofNat 0

/-- **The parts of texts**: each text is cut wherever it holds the character that ends one. -/
def parts (values : List String) : List (List Char) :=
  values.flatMap fun v => v.toList.splitOn textEnd

/-- **Two snapshots are written alike**: their texts have the same parts on each axis. -/
def SameParts (s t : AxisSnapshot) : Prop := ∀ a, parts (s.values a) = parts (t.values a)

/-- **No text of a snapshot holds the character that ends one.** -/
def ZeroFree (s : AxisSnapshot) : Prop := ∀ a, ∀ v ∈ s.values a, textEnd ∉ v.toList

/-- **What is written of an axis**, but for the byte that ends it: the name, and then the values,
with an end mark behind each. -/
def axisText (s : AxisSnapshot) (a : Axis) : List Char :=
  (a.name.toList ++ [textEnd]) ++ (s.values a).flatMap fun v => v.toList ++ [textEnd]

variable {s t : AxisSnapshot}

/-- **No part holds the character that ends a text.** -/
theorem textEnd_notMem_parts {values : List String} : ∀ p ∈ parts values, textEnd ∉ p := by
  intro p mem
  obtain ⟨v, -, mem⟩ := List.mem_flatMap.1 mem
  exact Path.notMem_of_mem_splitOn mem

/-- **Texts with end marks are their parts with end marks.** -/
theorem flatMap_parts (values : List String) :
    (parts values).flatMap (· ++ [textEnd])
      = values.flatMap fun v => v.toList ++ [textEnd] := by
  rw [parts, List.flatMap_assoc]
  exact congrArg values.flatMap (funext fun v => flatMap_splitOn v.toList)

/-- **An axis is written alike exactly if its values have the same parts.** -/
theorem axisText_eq_iff {a : Axis} :
    s.axisText a = t.axisText a ↔ parts (s.values a) = parts (t.values a) := by
  rw [axisText, axisText, List.append_right_inj, ← flatMap_parts, ← flatMap_parts,
    flatMap_endMarked_inj textEnd_notMem_parts textEnd_notMem_parts]

/-- **A text with a zero byte behind it** is the text with the character that ends one. -/
theorem toList_terminated (v : String) :
    (terminated v).data.toList = (v.toList ++ [textEnd]).flatMap String.utf8EncodeChar := by
  rw [terminated, ByteArray.data_push, Array.toList_push, toList_bytesOf, List.flatMap_append]
  rfl

/-- **The bytes of an axis** are those of what is written of it, and the one that ends it. -/
theorem toList_axisBytes (s : AxisSnapshot) (a : Axis) :
    (s.axisBytes a).data.toList = (s.axisText a).flatMap String.utf8EncodeChar ++ [0xff] := by
  have values (b : Bytes) (vs : List String) :
      (vs.foldl (fun b v => b ++ terminated v) b).data.toList
        = b.data.toList ++ (vs.flatMap fun v => v.toList ++ [textEnd]).flatMap
          String.utf8EncodeChar := by
    induction vs generalizing b with
    | nil => simp
    | cons v vs ih =>
        rw [List.foldl_cons, ih, ByteArray.data_append, Array.toList_append, toList_terminated,
          List.append_assoc, ← List.flatMap_append, List.flatMap_cons]
  rw [axisBytes, ByteArray.data_push, Array.toList_push, values, toList_terminated, axisText,
    ← List.flatMap_append]

/-- **The bytes of a snapshot** are those of its axes, with an end mark behind each. -/
theorem toList_bytes (s : AxisSnapshot) :
    s.bytes.data.toList
      = (Axis.all.map fun a => (s.axisText a).flatMap String.utf8EncodeChar).flatMap
        (· ++ [0xff]) := by
  simp only [bytes, Axis.all, List.foldl_cons, List.foldl_nil, ByteArray.data_append,
    Array.toList_append, toList_axisBytes]
  simp

/-- **Snapshots have the same bytes exactly if they are written alike.** -/
theorem bytes_eq_iff : s.bytes = t.bytes ↔ s.SameParts t := by
  have bytes : s.bytes = t.bytes ↔ s.bytes.data.toList = t.bytes.data.toList :=
    ⟨fun same => by rw [same], fun same => ByteArray.ext (Array.toList_inj.1 same)⟩
  have free (u : AxisSnapshot) :
      ∀ p ∈ Axis.all.map fun a => (u.axisText a).flatMap String.utf8EncodeChar, 0xff ∉ p := by
    intro p mem
    obtain ⟨a, -, rfl⟩ := List.mem_map.1 mem
    exact axisEnd_notMem _
  rw [bytes, toList_bytes, toList_bytes, flatMap_endMarked_inj (free s) (free t),
    List.map_inj_left]
  exact ⟨fun same a => axisText_eq_iff.1 (flatMap_utf8EncodeChar_inj.1 (same a a.mem_all)),
    fun same a _ => flatMap_utf8EncodeChar_inj.2 (axisText_eq_iff.2 (same a))⟩

/-- **Texts that do not hold the character that ends one are their own parts.** -/
theorem parts_of_free {values : List String} (free : ∀ v ∈ values, textEnd ∉ v.toList) :
    parts values = values.map String.toList := by
  refine (flatMap_endMarked_inj textEnd_notMem_parts ?_).1 ?_
  · simpa using free
  · rw [flatMap_parts, List.flatMap_map]

/-- **Snapshots without zero characters are written alike exactly if no axis differs.** -/
theorem sameParts_iff_of_zeroFree (free : s.ZeroFree) (free' : t.ZeroFree) :
    s.SameParts t ↔ ∀ a, s.values a = t.values a := by
  refine forall_congr' fun a => ?_
  rw [parts_of_free (free a), parts_of_free (free' a)]
  exact (List.map_injective_iff.2 fun _ _ => String.toList_inj.1).eq_iff

/-- **Snapshots without zero characters have the same bytes exactly if no axis differs.** -/
theorem bytes_eq_iff_of_zeroFree (free : s.ZeroFree) (free' : t.ZeroFree) :
    s.bytes = t.bytes ↔ ∀ a, s.values a = t.values a :=
  bytes_eq_iff.trans (sameParts_iff_of_zeroFree free free')

/-- **Snapshots have the same generation exactly if they are written alike**, unless their bytes
collide. -/
theorem generation_eq_iff (apart : Xxh3.hash s.bytes = Xxh3.hash t.bytes → s.bytes = t.bytes) :
    s.generation = t.generation ↔ s.SameParts t :=
  ⟨fun same => bytes_eq_iff.1 (apart same), fun same => congrArg Xxh3.hash (bytes_eq_iff.2 same)⟩

/-- **No axis is among those that differ exactly if all values are the same.** -/
theorem differing_eq_nil_iff : s.differing t = [] ↔ ∀ a, s.values a = t.values a := by
  rw [differing, List.filter_eq_nil_iff]
  simp only [bne_iff_ne, not_not]
  exact ⟨fun same a => same a a.mem_all, fun same a _ => same a⟩

end AxisSnapshot

/-! ## Generations and records -/

namespace RewriteCache

variable {root : Path} {d : Disk} {s t : AxisSnapshot}

/-- **What is recorded of an axis does not depend on the generation.** -/
theorem recordedAxis?_generation (g g' : UInt64) (a : Axis) :
    (⟨root, g⟩ : RewriteCache).recordedAxis? d a
      = (⟨root, g'⟩ : RewriteCache).recordedAxis? d a := rfl

/-- **Where the values of all axes are recorded, those have changed whose values differ**, whatever
the generation is. -/
theorem changedAxes_of_recorded {g : UInt64}
    (recorded : ∀ a, (⟨root, g⟩ : RewriteCache).recordedAxis? d a = some (s.values a))
    (g' : UInt64) (t : AxisSnapshot) :
    (⟨root, g'⟩ : RewriteCache).changedAxes d t = s.differing t := by
  refine List.filter_congr fun a _ => ?_
  rw [recordedAxis?_generation g' g, recorded]
  simp [bne]

/-- **What is valid in one generation is so in another one exactly if they are the same.** -/
theorem hasValid_iff_generation {g g' : UInt64} {source : Path} {content : Fingerprint}
    (valid : (⟨root, g⟩ : RewriteCache).hasValid d source content = true) :
    (⟨root, g'⟩ : RewriteCache).hasValid d source content = true ↔ g = g' := by
  constructor
  · intro valid'
    obtain ⟨⟨body, found, told⟩, -⟩ := hasValid_iff.1 valid
    obtain ⟨⟨body', found', told'⟩, -⟩ := hasValid_iff.1 valid'
    -- Both read the record from the same file.
    obtain rfl : body = body' := Except.ok.inj (found.symm.trans found')
    exact congrArg EntryRecord.generation (Option.some.inj (told.symm.trans told'))
  · rintro rfl
    exact valid

end RewriteCache

namespace AxisSnapshot

/-- **What a generation tells of the axes.** Two snapshots have the same bytes exactly if they are
written alike; so if no text holds a zero character, they have the same bytes exactly if no axis
differs. Unless their bytes collide, the same goes for their generations. In a cache where the
values of one are recorded, no axis has changed for the other one exactly if no axis differs, while
what was kept for a source is valid for the other one exactly if the generations are the same: the
two tests agree on snapshots without zero characters, and else where snapshots that are written
alike are the same. -/
theorem generation_tells (s t : AxisSnapshot) :
    (s.bytes = t.bytes ↔ s.SameParts t)
      ∧ (s.ZeroFree → t.ZeroFree → (s.bytes = t.bytes ↔ ∀ a, s.values a = t.values a))
      ∧ ((Xxh3.hash s.bytes = Xxh3.hash t.bytes → s.bytes = t.bytes) →
        (s.generation = t.generation ↔ s.SameParts t))
      ∧ ∀ (root : Path) (d : Disk) (source : Path) (content : Fingerprint),
        (∀ a, (⟨root, s.generation⟩ : RewriteCache).recordedAxis? d a = some (s.values a)) →
        (⟨root, s.generation⟩ : RewriteCache).hasValid d source content = true →
        ((⟨root, t.generation⟩ : RewriteCache).changedAxes d t = []
            ↔ ∀ a, s.values a = t.values a)
          ∧ ((⟨root, t.generation⟩ : RewriteCache).hasValid d source content = true
            ↔ s.generation = t.generation) := by
  refine ⟨bytes_eq_iff, bytes_eq_iff_of_zeroFree, generation_eq_iff,
    fun root d source content recorded valid => ⟨?_, ?_⟩⟩
  · rw [RewriteCache.changedAxes_of_recorded recorded, differing_eq_nil_iff]
  · exact RewriteCache.hasValid_iff_generation valid

/-- **A name with a zero character in it.** -/
def joinedNames : AxisSnapshot := ⟨["function"], ["a\x00b"], ["/s"], []⟩

/-- **The two names that it reads as.** -/
def splitNames : AxisSnapshot := { joinedNames with functionWhitelist := ["a", "b"] }

/-- **A name with a zero character is written as two names are**: the whitelists differ, and the
bytes and the generations do not. -/
theorem generation_tells_zero :
    joinedNames.values .functionWhitelist ≠ splitNames.values .functionWhitelist
      ∧ joinedNames.bytes = splitNames.bytes
      ∧ joinedNames.generation = splitNames.generation := by
  have alike : joinedNames.SameParts splitNames := by
    intro a
    cases a <;> decide +kernel
  have bytes := (generation_tells joinedNames splitNames).1.2 alike
  exact ⟨by decide, bytes, congrArg Xxh3.hash bytes⟩

end AxisSnapshot

end Seams
