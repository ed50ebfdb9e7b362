import Mathlib.Data.List.Count
import Mathlib.Tactic.Common
import Seams.Proofs.Collisions
import Seams.Proofs.Totality

/-! # Lines keep their numbers
What the built-in patchers put in the place of a token has as many line feeds as the token, and more
bytes. So a rewritten source has the lines of the source, each byte that stays is in its line, and
a source that is rewritten at all gets longer.
Main definitions:
* **`Bytes.lineFeeds`** — the number of line feeds in a byte string;
* **`Splice.Spreads`** — a splice keeps the line feeds of its range and is longer;
* **`Splice.landing`** — where a byte between splices stands once they are made;
* **`TokenStream.Spreads`** — an edit keeps the line feeds of its token and is longer. -/

namespace Seams

/-! ## Line feeds -/

namespace Bytes

/-- **The number of line feeds** in a byte string. -/
def lineFeeds (b : Bytes) : Nat := b.data.toList.count 0x0a

/-- **The line feeds of two byte strings** are those of the one and those of the other. -/
@[simp] theorem lineFeeds_append (a b : Bytes) :
    (a ++ b).lineFeeds = a.lineFeeds + b.lineFeeds := by
  rw [lineFeeds, ByteArray.data_append, Array.toList_append, List.count_append]
  rfl

/-- **Only a line feed is a line feed in lower case.** -/
theorem lowerByte_eq_lineFeed_iff (c : UInt8) : lowerByte c = 0x0a ↔ c = 0x0a := by
  have bytes : ∀ n < 256, lowerByte (UInt8.ofNat n) = 0x0a ↔ UInt8.ofNat n = 0x0a := by
    decide +kernel
  have here := bytes c.toNat c.toNat_lt
  rwa [UInt8.ofNat_toNat] at here

/-- **A byte string in lower case has the same line feeds.** -/
theorem lineFeeds_lower (b : Bytes) : b.lower.lineFeeds = b.lineFeeds := by
  show (b.data.map lowerByte).toList.count 0x0a = b.data.toList.count 0x0a
  rw [Array.toList_map, List.count_eq_countP, List.count_eq_countP, List.countP_map]
  refine List.countP_congr fun c _ => ?_
  simpa using lowerByte_eq_lineFeed_iff c

/-- **A byte string in lower case is as long.** -/
theorem size_lower (b : Bytes) : b.lower.size = b.size := Array.size_map

/-- **The byte behind the first of two byte strings** is the first one of the second. -/
theorem byteAt_append_size (a b : Bytes) : (a ++ b).byteAt a.size = b.byteAt 0 := by
  by_cases nonempty : 0 < b.size
  · rw [byteAt_of_lt _ _ (by rw [ByteArray.size_append]; omega), byteAt_of_lt _ _ nonempty,
      ByteArray.getElem_append_right (Nat.le_refl _)]
    simp
  · rw [byteAt_of_ge _ _ (by rw [ByteArray.size_append]; omega), byteAt_of_ge _ _ (by omega)]

/-- **A part of a byte string begins with the byte where it starts.** -/
theorem byteAt_slice_append (b rest : Bytes) {lo hi : Nat} (h : lo < hi) (h' : hi ≤ b.size) :
    (b.slice lo hi ++ rest).byteAt 0 = b.byteAt lo := by
  have size : (b.slice lo hi).size = hi - lo := by
    rw [slice, ByteArray.size_extract, Nat.min_eq_left h']
  have first : 0 < (b.slice lo hi).size := by omega
  rw [byteAt_of_lt _ _ (by rw [ByteArray.size_append]; omega), byteAt_of_lt b lo (by omega),
    ByteArray.getElem_append_left first]
  simp [slice, ByteArray.getElem_extract]

end Bytes

/-! ## Splices that keep lines -/

namespace Splice

variable {source : Bytes} {cs : List Splice} {lo i : Nat}

/-- **A splice keeps the line feeds of its range**, and is longer than the range. -/
structure Spreads (source : Bytes) (c : Splice) : Prop where
  /-- The line feeds are as many. -/
  lines : c.text.lineFeeds = (source.slice c.start c.stop).lineFeeds
  /-- There are more bytes. -/
  longer : c.stop - c.start < c.text.size

/-- **Where a byte between splices stands** once they are made, counted from where the first of the
written bytes comes from. -/
def landing (i : Nat) : Nat → List Splice → Nat
  | lo, [] => i - lo
  | lo, c :: cs =>
    if c.stop ≤ i then (c.start - lo) + c.text.size + landing i c.stop cs else i - lo

/-- **A byte stands between splices**: it is in no range that is replaced. -/
def Spares (cs : List Splice) (i : Nat) : Prop := ∀ c ∈ cs, i < c.start ∨ c.stop ≤ i

instance (cs : List Splice) (i : Nat) : Decidable (Spares cs i) :=
  inferInstanceAs (Decidable (∀ c ∈ cs, i < c.start ∨ c.stop ≤ i))

/-- **Splices that spread make a source longer**, by a byte each at least. -/
theorem size_splice (follow : Follow source.size lo cs) (spread : ∀ c ∈ cs, c.Spreads source) :
    source.size - lo + cs.length ≤ (source.splice lo cs).size := by
  induction cs generalizing lo with
  | nil =>
      rw [Bytes.splice, Bytes.slice, ByteArray.size_extract, Nat.min_self]
      simp
  | cons c cs ih =>
      obtain ⟨behind, nonempty, rest⟩ := follow
      have := (spread c List.mem_cons_self).longer
      have := ih rest fun d hd => spread d (List.mem_cons_of_mem _ hd)
      have := rest.le
      rw [Bytes.splice, ByteArray.size_append, ByteArray.size_append, Bytes.slice,
        ByteArray.size_extract, Nat.min_eq_left (by omega), List.length_cons]
      omega

/-- **Splices that spread keep the line feeds.** -/
theorem lineFeeds_splice (follow : Follow source.size lo cs)
    (spread : ∀ c ∈ cs, c.Spreads source) :
    (source.splice lo cs).lineFeeds = (source.slice lo source.size).lineFeeds := by
  induction cs generalizing lo with
  | nil => rfl
  | cons c cs ih =>
      obtain ⟨behind, nonempty, rest⟩ := follow
      have kept := (spread c List.mem_cons_self).lines
      have others := ih rest fun d hd => spread d (List.mem_cons_of_mem _ hd)
      have whole := Bytes.slice_append_slice source behind (Nat.le_trans nonempty.le rest.le)
      have part := Bytes.slice_append_slice source nonempty.le rest.le
      rw [Bytes.splice, Bytes.lineFeeds_append, Bytes.lineFeeds_append, kept, others, ← whole,
        ← part, Bytes.lineFeeds_append, Bytes.lineFeeds_append, Nat.add_assoc]

/-- **A part of a source is cut in front of a byte of it.** -/
theorem slice_cut {hi : Nat} (behind : lo ≤ i) (ahead : i < hi) (inside : hi ≤ source.size)
    (rest : Bytes) :
    source.slice lo hi ++ rest = source.slice lo i ++ (source.slice i hi ++ rest)
      ∧ (source.slice lo i).size = i - lo ∧ 0 < (source.slice i hi ++ rest).size
      ∧ (source.slice i hi ++ rest).byteAt 0 = source.byteAt i := by
  refine ⟨?_, ?_, ?_, Bytes.byteAt_slice_append source rest ahead inside⟩
  · rw [← ByteArray.append_assoc, Bytes.slice_append_slice source behind ahead.le]
  · rw [Bytes.slice, ByteArray.size_extract, Nat.min_eq_left (by omega)]
  · rw [ByteArray.size_append, Bytes.slice, ByteArray.size_extract]
    omega

/-- **What is written up to a byte that stays** has the line feeds in front of that byte, and what
is written from there on begins with it. -/
theorem exists_splice_eq_append (follow : Follow source.size lo cs)
    (spread : ∀ c ∈ cs, c.Spreads source) (behind : lo ≤ i) (within : i < source.size)
    (spares : Spares cs i) :
    ∃ before after, source.splice lo cs = before ++ after ∧ before.size = landing i lo cs
      ∧ before.lineFeeds = (source.slice lo i).lineFeeds ∧ 0 < after.size
      ∧ after.byteAt 0 = source.byteAt i := by
  induction cs generalizing lo with
  | nil =>
      obtain ⟨split, size, nonempty, first⟩ :=
        slice_cut behind within (Nat.le_refl _) ByteArray.empty
      rw [ByteArray.append_empty] at split
      exact ⟨_, _, split, size, rfl, nonempty, first⟩
  | cons c cs ih =>
      obtain ⟨from_, nonempty, rest⟩ := follow
      have ends := rest.le
      rw [Bytes.splice, landing]
      by_cases passed : c.stop ≤ i
      · -- The splice is in front of the byte, and so is what is written for it.
        obtain ⟨before, after, split, size, lines, some_left, first⟩ :=
          ih rest (fun d hd => spread d (List.mem_cons_of_mem _ hd)) passed
            fun d hd => spares d (List.mem_cons_of_mem _ hd)
        have kept := (spread c List.mem_cons_self).lines
        have whole := Bytes.slice_append_slice source from_ (Nat.le_trans nonempty.le passed)
        have part := Bytes.slice_append_slice source nonempty.le passed
        refine ⟨source.slice lo c.start ++ c.text ++ before, after, ?_, ?_, ?_, some_left, first⟩
        · rw [split, ByteArray.append_assoc, ByteArray.append_assoc, ByteArray.append_assoc]
        · rw [if_pos passed, ByteArray.size_append, ByteArray.size_append, Bytes.slice,
            ByteArray.size_extract, Nat.min_eq_left (by omega), size]
        · rw [Bytes.lineFeeds_append, Bytes.lineFeeds_append, kept, lines, ← whole, ← part,
            Bytes.lineFeeds_append, Bytes.lineFeeds_append, Nat.add_assoc]
      · -- The splice is behind the byte, which stands in what is copied in front of it.
        have ahead : i < c.start := (spares c List.mem_cons_self).resolve_right passed
        have inside : c.start ≤ source.size := Nat.le_trans nonempty.le ends
        obtain ⟨split, size, some_left, first⟩ :=
          slice_cut behind ahead inside (c.text ++ source.splice c.stop cs)
        rw [if_neg passed, ByteArray.append_assoc]
        exact ⟨_, _, split, size, rfl, some_left, first⟩

/-- **A byte that stays keeps its line.** -/
theorem lineFeeds_landing (follow : Follow source.size 0 cs) (spread : ∀ c ∈ cs, c.Spreads source)
    (within : i < source.size) (spares : Spares cs i) :
    landing i 0 cs < (source.splice 0 cs).size
      ∧ (source.splice 0 cs).byteAt (landing i 0 cs) = source.byteAt i
      ∧ ((source.splice 0 cs).slice 0 (landing i 0 cs)).lineFeeds
        = (source.slice 0 i).lineFeeds := by
  obtain ⟨before, after, split, size, lines, nonempty, first⟩ :=
    exists_splice_eq_append follow spread (Nat.zero_le i) within spares
  have front : (before ++ after).slice 0 before.size = before :=
    ByteArray.extract_append_eq_left rfl
  rw [split, ← size, front]
  refine ⟨?_, ?_, lines⟩
  · rw [ByteArray.size_append]
    omega
  · rw [Bytes.byteAt_append_size, first]

end Splice

/-! ## Edits that keep lines -/

namespace TokenStream

variable {s : TokenStream} {e : Edit} {t : Token}

/-- **An edit keeps the line feeds of its token**, if it is taken, and is longer than the token. -/
def Spreads (s : TokenStream) (e : Edit) : Prop :=
  ∀ t, s.get? e.position = some t → e.expected.accepts (s.textOf t) = true →
    (bytesOf e.replacement).lineFeeds = (s.textOf t).lineFeeds
      ∧ (s.textOf t).size < (bytesOf e.replacement).size

/-- **An edit spreads if it does so for its token.** -/
theorem spreads_of_get? (there : s.get? e.position = some t)
    (lines : (bytesOf e.replacement).lineFeeds = (s.textOf t).lineFeeds)
    (longer : (s.textOf t).size < (bytesOf e.replacement).size) : s.Spreads e := by
  intro u there' _
  obtain rfl : t = u := Option.some.inj (there.symm.trans there')
  exact ⟨lines, longer⟩

/-- **Edits that spread stand for splices that do.** -/
theorem spreads_of_mem_splices {edits : List Edit}
    (spans : Token.Spans 0 s.source.size s.tokens.toList) (fits : ∀ e ∈ edits, s.Fits e)
    (spread : ∀ e ∈ edits, s.Spreads e) {c : Splice} (mem : c ∈ s.splices edits) :
    c.Spreads s.source := by
  obtain ⟨e, he, made⟩ := List.mem_filterMap.1 mem
  obtain ⟨t, there, rfl⟩ := Option.map_eq_some_iff.1 made
  obtain ⟨u, there', accepts⟩ := fits e he
  obtain rfl : t = u := Option.some.inj (there.symm.trans there')
  obtain ⟨lines, longer⟩ := spread e he t there accepts
  have within : t.stop ≤ s.source.size := by
    rw [get?, ← Array.getElem?_toList] at there
    exact (spans.within (List.mem_of_getElem? there)).2.2
  refine ⟨lines, ?_⟩
  rwa [textOf, Bytes.slice, ByteArray.size_extract, Nat.min_eq_left within] at longer

end TokenStream

namespace EditSet

/-- **What each step of collecting keeps is kept by all of them.** -/
theorem collect_preserves {P : EditSet → Prop}
    (one : Match → EditSet → Except PatchError EditSet)
    {all : List Match → EditSet → Except PatchError EditSet}
    (nil : ∀ edits, all [] edits = .ok edits)
    (cons : ∀ m ms edits, all (m :: ms) edits = one m edits >>= all ms)
    (each : ∀ m edits edits', P edits → one m edits = .ok edits' → P edits') {ms : List Match}
    {edits edits' : EditSet} (before : P edits) (collected : all ms edits = .ok edits') :
    P edits' := by
  induction ms generalizing edits with
  | nil =>
      rw [nil, Except.ok.injEq] at collected
      rwa [← collected]
  | cons m ms ih =>
      rw [cons, bind_eq_ok_iff] at collected
      obtain ⟨next, first, rest⟩ := collected
      exact ih (each m edits next before first) rest

/-- **All edits of a set spread.** -/
def Spreading (s : TokenStream) (edits : EditSet) : Prop := ∀ e ∈ edits.toList, s.Spreads e

variable {s : TokenStream} {edits edits' : EditSet} {e : Edit}

/-- **The set without edits spreads.** -/
theorem spreading_empty : Spreading s .empty := fun _ mem => absurd mem List.not_mem_nil

/-- **An edit that spreads is added to others that do.** -/
theorem Spreading.insert (before : Spreading s edits) (spreads : s.Spreads e)
    (added : edits.insert e = .ok edits') : Spreading s edits' := by
  intro d mem
  rcases List.mem_cons.1 ((perm_of_insert added).mem_iff.1 mem) with rfl | mem
  · exact spreads
  · exact before d mem

end EditSet

/-! ## The built-in patchers keep lines -/

namespace Redirect

variable {source : Bytes} {tree : Node} {whitelist blacklist : NameSet} {edits edits' : EditSet}

/-- **What reads as an exit** is at most four bytes on one line. -/
theorem readsExit_narrow {text : Bytes} (reads : readsExit text = true) :
    text.lineFeeds = 0 ∧ text.size ≤ 4 := by
  rw [← text.lineFeeds_lower, ← text.size_lower]
  rw [readsExit, Bool.or_eq_true, Bytes.sameIgnoringCase, Bytes.sameIgnoringCase, beq_iff_eq,
    beq_iff_eq] at reads
  rcases reads with reads | reads
  · rw [reads]
    decide +kernel
  · rw [reads]
    decide +kernel

/-- **What stands in place of an exit** is six bytes at least on one line. -/
theorem exitReplacement_wide (tokens : TokenStream) (position : Nat) :
    (bytesOf (exitReplacement tokens position)).lineFeeds = 0
      ∧ 6 ≤ (bytesOf (exitReplacement tokens position)).size := by
  rw [exitReplacement]
  split
  · decide +kernel
  · decide +kernel

/-- **A prologue** is on one line, and more than its brace. -/
theorem prologue_wide (returnsVoid : Bool) :
    (bytesOf (Registry.prologue returnsVoid)).lineFeeds = (bytesOf "\x7b").lineFeeds
      ∧ (bytesOf "\x7b").size < (bytesOf (Registry.prologue returnsVoid)).size := by
  cases returnsVoid <;> decide +kernel

/-- **A redirected name** is the name with more bytes in front of it on the same line. -/
theorem redirected_wide (word : String) :
    (bytesOf (Registry.redirected word)).lineFeeds = (bytesOf word).lineFeeds
      ∧ (bytesOf word).size < (bytesOf (Registry.redirected word)).size := by
  have split : bytesOf (Registry.redirected word)
      = bytesOf (Registry.functionProxy ++ "::") ++ bytesOf word := String.toByteArray_append
  have proxy : (bytesOf (Registry.functionProxy ++ "::")).lineFeeds = 0
      ∧ (bytesOf (Registry.functionProxy ++ "::")).size = 16 := by decide +kernel
  rw [split, Bytes.lineFeeds_append, ByteArray.size_append, proxy.1, proxy.2]
  omega

/-- **The edit for an exit spreads.** -/
theorem spreads_of_mem_exitEdits {s : Script} {e : Edit} (mem : e ∈ exitEdits s) :
    s.tokens.Spreads e := by
  obtain ⟨t, sits, reads⟩ := sits_of_mem_exitEdits mem
  obtain ⟨u, -, made⟩ := mem_exitEdits.1 mem
  have replacement : e.replacement = exitReplacement s.tokens e.position := by
    unfold exitEdit? at made
    split at made
    · exact (congrArg Edit.replacement (Option.some.inj made)).symm
    · cases made
  obtain ⟨lines, short⟩ := readsExit_narrow reads
  obtain ⟨lines', long⟩ := exitReplacement_wide s.tokens e.position
  refine TokenStream.spreads_of_get? sits.1 ?_ ?_
  · rw [replacement, lines, lines']
  · rw [replacement]
    omega

/-- **Collecting exits adds edits that spread.** -/
theorem exits_spread {s : Script} (before : EditSet.Spreading s.tokens edits)
    (collected : exits.collect s edits = .ok edits') : EditSet.Spreading s.tokens edits' := by
  rw [exits_proposes s edits, mapError_eq_ok_iff, EditSet.insertAll_eq_ok_iff] at collected
  intro e mem
  rcases List.mem_append.1 (collected.mem_iff.1 mem) with mem | mem
  · exact spreads_of_mem_exitEdits mem
  · exact before e mem

/-- **A call that can be redirected has a token for its name.** -/
theorem text_of_site? {call : Match} {n : Nat} {word : String}
    (site : site? (.withTree source tree) call = some (n, word)) :
    ∃ t, (TokenStream.ofTree source tree).get? n = some t
      ∧ (TokenStream.ofTree source tree).textOf t = bytesOf word := by
  unfold site? at site
  simp only [Option.bind_eq_bind, Option.bind_eq_some_iff] at site
  obtain ⟨name, -, arguments, -, word', decoded, site⟩ := site
  split at site
  · cases site
  · obtain ⟨n', found, eq⟩ := Option.map_eq_some_iff.1 site
    cases eq
    obtain ⟨t, there, text⟩ := TokenStream.tokenAt?_eq_some found
    exact ⟨t, there, text.trans (bytesOf_of_text? decoded).symm⟩

/-- **Collecting calls adds edits that spread.** -/
theorem calls_spread (before : EditSet.Spreading (.ofTree source tree) edits)
    (collected : (calls whitelist blacklist).collect (.withTree source tree) edits = .ok edits') :
    EditSet.Spreading (.ofTree source tree) edits' := by
  refine EditSet.collect_preserves (collectCall whitelist blacklist (.withTree source tree))
    (fun _ => rfl) (fun call rest edits => ?_)
    (fun call edits edits' before collected => ?_) before collected
  · rw [collectCalls]
    cases collectCall _ _ _ call edits <;> rfl
  · rcases collectCall_ok collected with ⟨rfl, -⟩ | ⟨⟨n, word⟩, e, site, -, rfl, text, added⟩
    · exact before
    · obtain ⟨t, there, reads⟩ := text_of_site? site
      refine before.insert (TokenStream.spreads_of_get? there ?_ ?_) added
      · rw [reads, text, (redirected_wide word).1]
      · rw [reads, text]
        exact (redirected_wide word).2

/-- **An edit that puts a prologue in the place of a brace spreads.** -/
theorem spreads_prologue (s : TokenStream) (n : Nat) (returnsVoid : Bool) (patcher : String) :
    s.Spreads ⟨n, .of (bytesOf "\x7b"), Registry.prologue returnsVoid, patcher⟩ := by
  intro t there accepts
  have reads : s.textOf t = bytesOf "\x7b" := by
    have exact_ : Expectation.of (bytesOf "\x7b") = .exact (bytesOf "\x7b") := by decide +kernel
    rw [exact_] at accepts
    exact beq_iff_eq.1 accepts
  rw [reads]
  exact prologue_wide returnsVoid

/-- **Collecting methods adds edits that spread.** -/
theorem methods_spread {s : Script} (before : EditSet.Spreading s.tokens edits)
    (collected : methods.collect s edits = .ok edits') : EditSet.Spreading s.tokens edits' := by
  refine EditSet.collect_preserves (collectMethod s) (fun _ => rfl) (fun method rest edits => ?_)
    (fun method edits edits' before collected => ?_) before collected
  · rw [collectMethods]
    cases collectMethod _ method edits <;> rfl
  · simp only [collectMethod, bind_eq_ok_iff, mapError_eq_ok_iff] at collected
    obtain ⟨declaration, -, body, -, collected⟩ := collected
    split at collected
    · rw [← pure_eq_ok_iff.1 collected] at before
      exact before
    · simp only [bind_eq_ok_iff, EditSet.request, mapError_eq_ok_iff] at collected
      obtain ⟨brace, -, added⟩ := collected
      exact before.insert (spreads_prologue _ _ _ _) added

/-- **A built-in patcher adds edits that spread.** -/
theorem builtIn_spreads {p : Patcher} (mem : p ∈ builtIn whitelist blacklist)
    (before : EditSet.Spreading (.ofTree source tree) edits)
    (collected : p.collect (.withTree source tree) edits = .ok edits') :
    EditSet.Spreading (.ofTree source tree) edits' := by
  rcases mem_builtIn.1 mem with rfl | rfl | rfl
  · exact exits_spread (s := .withTree source tree) before collected
  · exact calls_spread before collected
  · exact methods_spread (s := .withTree source tree) before collected

/-- **Built-in patchers add edits that spread**, one after the other. -/
theorem collectAll_spreads {patchers : List Patcher}
    (known : ∀ p ∈ patchers, ∃ whitelist blacklist, p ∈ builtIn whitelist blacklist)
    (before : EditSet.Spreading (.ofTree source tree) edits)
    (collected : (Script.withTree source tree).collectAll patchers edits = .ok edits') :
    EditSet.Spreading (.ofTree source tree) edits' := by
  induction patchers generalizing edits with
  | nil =>
      cases collected
      exact before
  | cons p ps ih =>
      rw [Script.collectAll] at collected
      split at collected
      · cases collected
      · rename_i next first
        obtain ⟨whitelist, blacklist, mem⟩ := known p List.mem_cons_self
        exact ih (fun q hq => known q (List.mem_cons_of_mem _ hq))
          (builtIn_spreads mem before first) collected

end Redirect

/-! ## Pipelines keep lines -/

/-- **An output keeps the lines of a source** in which splices are made. -/
structure PatchOutput.KeepsLines (source : Bytes) (cs : List Splice) (output : PatchOutput) :
    Prop where
  /-- The splices are made, and nothing else is changed. -/
  spliced : output.source = source.splice 0 cs
  /-- There are as many line feeds. -/
  lines : output.source.lineFeeds = source.lineFeeds
  /-- A byte that is in no splice is still there, behind as many line feeds as before. -/
  stays : ∀ i < source.size, Splice.Spares cs i →
    Splice.landing i 0 cs < output.source.size
      ∧ output.source.byteAt (Splice.landing i 0 cs) = source.byteAt i
      ∧ (output.source.slice 0 (Splice.landing i 0 cs)).lineFeeds = (source.slice 0 i).lineFeeds
  /-- The output is not said to be patched exactly if it is the source. -/
  unpatched : output.patched = false ↔ output.source = source
  /-- If it is, it is longer, by a byte for each edit at least. -/
  longer : output.patched = true →
    source.size < output.source.size ∧ source.size + output.editCount ≤ output.source.size

/-- **Splices that spread keep the lines of a source.** -/
theorem PatchOutput.keepsLines_splice {source : Bytes} {cs : List Splice}
    (follow : Splice.Follow source.size 0 cs) (spread : ∀ c ∈ cs, c.Spreads source) :
    KeepsLines source cs ⟨source.splice 0 cs, !cs.isEmpty, cs.length⟩ := by
  have whole : source.slice 0 source.size = source := ByteArray.extract_zero_size
  have longer := Splice.size_splice follow spread
  have some_longer : (!cs.isEmpty) = true →
      source.size < (source.splice 0 cs).size
        ∧ source.size + cs.length ≤ (source.splice 0 cs).size := by
    intro some_made
    have : 0 < cs.length := by
      rw [List.length_pos_iff]
      rintro rfl
      cases some_made
    omega
  refine ⟨rfl, ?_, fun i within spares => Splice.lineFeeds_landing follow spread within spares, ?_,
    some_longer⟩
  · show (source.splice 0 cs).lineFeeds = source.lineFeeds
    rw [Splice.lineFeeds_splice follow spread, whole]
  · constructor
    · intro none_made
      have no_splices : cs = [] := by simpa using none_made
      rw [no_splices]
      exact source.splice_nil
    · -- What is longer than the source is not the source.
      intro same
      by_contra some_made
      have : source.size < (source.splice 0 cs).size := (some_longer (by simpa using some_made)).1
      have : (source.splice 0 cs).size = source.size := congrArg ByteArray.size same
      omega

namespace Pipeline

open Redirect

variable {source : Bytes} {tree : Node} {p : Pipeline} {output : PatchOutput}

/-- **A pipeline of built-in patchers keeps the lines of a script.** -/
theorem runOn_keepsLines
    (known : ∀ q ∈ p.patchers, ∃ whitelist blacklist, q ∈ builtIn whitelist blacklist)
    (ran : p.runOn (.withTree source tree) = .ok output) :
    ∃ edits, (Script.withTree source tree).collectAll p.patchers .empty = .ok edits
      ∧ output.editCount = edits.size
      ∧ output.KeepsLines source ((TokenStream.ofTree source tree).splices edits.toList) := by
  obtain ⟨edits, collected, made⟩ := runOn_eq_ok_iff.1 ran
  have spread := collectAll_spreads known EditSet.spreading_empty collected
  refine ⟨edits, collected, ?_⟩
  rcases made with ⟨none_made, rfl⟩ | ⟨some_made, written, reassembled, -, rfl⟩
  · have no_edits : edits.toList = [] := List.isEmpty_iff.1 none_made
    have no_splices : Splice.Follow source.size 0 [] := Nat.zero_le _
    have nothing := PatchOutput.keepsLines_splice no_splices fun c mem =>
      absurd mem List.not_mem_nil
    rw [source.splice_nil] at nothing
    rw [EditSet.size, no_edits]
    exact ⟨rfl, nothing⟩
  · obtain ⟨taken, replaced, -⟩ := TokenStream.reassemble_ofTree source tree edits
    obtain ⟨rfl, count, follow⟩ := replaced written reassembled
    have fits := taken.1 ⟨_, reassembled⟩
    have kept := PatchOutput.keepsLines_splice follow fun c mem =>
      TokenStream.spreads_of_mem_splices (TokenStream.ofTree_spans source tree) fits spread mem
    have some_splice :
        (!((TokenStream.ofTree source tree).splices edits.toList).isEmpty) = true := by
      rw [Bool.not_eq_true', ← some_made, EditSet.isEmpty, Bool.eq_iff_iff, List.isEmpty_iff,
        List.isEmpty_iff, ← List.length_eq_zero_iff, count, ← List.length_eq_zero_iff]
      rfl
    rw [count, some_splice] at kept
    exact ⟨rfl, kept⟩

/-- **Lines keep their numbers, and a pipeline says truly whether it has changed anything.** Take
any pipeline of built-in patchers, each with any lists of names, and a source that it rewrites. The
splices for its edits are made in the source, and nothing else is changed. The output has as many
line feeds as the source. Each byte of the source that is in no edited token is still there, and
there are as many line feeds in front of it. The output is said not to be patched exactly if it is
the source; else it is longer than the source, and by a byte for each edit at least. This holds
whatever the tree of the source is, and so of the tree that it has. -/
theorem run_keepsLines
    (known : ∀ q ∈ p.patchers, ∃ whitelist blacklist, q ∈ builtIn whitelist blacklist) :
    p.run source = p.runTree source (Node.ofSource source)
      ∧ ∀ tree output, p.runTree source tree = .ok output →
        ∃ edits, (Script.withTree source tree).collectAll p.patchers .empty = .ok edits
          ∧ output.editCount = edits.size
          ∧ output.KeepsLines source ((TokenStream.ofTree source tree).splices edits.toList) := by
  refine ⟨p.run_eq_runTree source, fun tree output ran => ?_⟩
  have listed : p.runOn (.withTree source tree) = .ok output ∨ p.patchers = []
      ∧ output = .unchanged source := by
    unfold runTree at ran
    split at ran
    · rename_i none_listed
      exact .inr ⟨List.isEmpty_iff.1 none_listed, (Except.ok.inj ran).symm⟩
    · obtain ⟨s, parsed, ran⟩ := bind_eq_ok_iff.1 ran
      rw [mapError_eq_ok_iff] at parsed
      rw [← Script.eq_withTree parsed]
      exact .inl ran
  rcases listed with ran | ⟨none_listed, rfl⟩
  · exact runOn_keepsLines known ran
  · -- A pipeline without patchers does on every script what it does without reading it.
    refine runOn_keepsLines known ?_
    rw [runOn, none_listed]
    rfl

/-- **A method that exits on its second line**, between two calls of `rand`. -/
def linesSource : Bytes :=
  bytesOf "<?php class A \x7b function f() \x7b rand();\nexit; rand();\n\x7d \x7d"

/-- **The two line feeds stay**, and the four edits make the source longer. -/
theorem run_keepsLines_method : ∃ output,
    (⟨[methods, exits, calls (.ofList ["rand"]) .empty], true⟩ : Pipeline).run linesSource
      = .ok output ∧ output.source.lineFeeds = 2 ∧ output.editCount = 4
      ∧ linesSource.size + 4 ≤ output.source.size := by
  have known : ∀ q ∈ [methods, exits, calls (.ofList ["rand"]) .empty],
      ∃ whitelist blacklist, q ∈ builtIn whitelist blacklist :=
    fun q mem => ⟨.ofList ["rand"], .empty, by simpa [builtIn, or_comm, or_left_comm] using mem⟩
  obtain ⟨as_tree, keeps⟩ := @run_keepsLines linesSource
    ⟨[methods, exits, calls (.ofList ["rand"]) .empty], true⟩ known
  have answered : ((⟨[methods, exits, calls (.ofList ["rand"]) .empty], true⟩ : Pipeline).run
      linesSource).toOption.map (fun output => (output.patched, output.editCount))
      = some (true, 4) := by decide +kernel
  obtain ⟨output, ran, told⟩ := Option.map_eq_some_iff.1 answered
  obtain ⟨patched, count⟩ := Prod.mk.inj told
  have ran : (⟨[methods, exits, calls (.ofList ["rand"]) .empty], true⟩ : Pipeline).run linesSource
      = .ok output := by
    revert ran
    generalize (⟨[methods, exits, calls (.ofList ["rand"]) .empty], true⟩ : Pipeline).run
      linesSource = result
    cases result with
    | error e => exact fun ran => by cases ran
    | ok out => exact fun ran => congrArg Except.ok (Option.some.inj ran)
  obtain ⟨edits, -, -, kept⟩ := keeps _ output (as_tree ▸ ran)
  have feeds : linesSource.lineFeeds = 2 := by decide +kernel
  have longer := (kept.longer patched).2
  rw [count] at longer
  exact ⟨output, ran, kept.lines.trans feeds, count, longer⟩

end Pipeline

end Seams
