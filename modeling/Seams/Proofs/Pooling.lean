import Mathlib.Data.List.Induction
import Mathlib.Data.List.Nodup
import Mathlib.Tactic.Common
import Seams.Query.Pool

/-! # What a pool answers and what it costs
A pool is there to save work. Whatever has been asked of it, it answers as if each text were compiled
afresh, it keeps what it has compiled, each text once and never more of them than it may, and a
text that cannot be compiled is never kept. But such a text is not for free: a full pool is emptied
for it.
Main definitions:
* **`Pool.compileAfresh`** — the answer for a text without a pool;
* **`Pool.Sound`** — a pool that keeps what its texts stand for, each once, and not too many;
* **`Pool.after`** — the pool that is left when texts have been asked for one after the other. -/

namespace Seams.Pool

variable {α : Type} (compile? : String → Option α)

/-! ## What is kept -/

/-- **The texts that are kept.** -/
def texts (p : Pool α) : List String := p.entries.map Prod.fst

/-- **There are as many entries as texts.** -/
theorem length_texts (p : Pool α) : p.texts.length = p.size := List.length_map _

/-- **Nothing is kept under a text** exactly if it is not among those that are kept. -/
theorem get?_eq_none_iff {p : Pool α} {text : String} : p.get? text = none ↔ text ∉ p.texts := by
  rw [get?, List.lookup_eq_none_iff, texts, List.mem_map]
  constructor
  · rintro other ⟨entry, mem, rfl⟩
    simpa using other entry mem
  · intro notMem entry mem
    rw [bne_iff_ne]
    rintro rfl
    exact notMem ⟨entry, mem, rfl⟩

/-- **What is found under a text** is the entry of that text. -/
theorem mem_of_get? {p : Pool α} {text : String} {q : α} (h : p.get? text = some q) :
    (text, q) ∈ p.entries := by
  obtain ⟨front, back, split, -⟩ := List.lookup_eq_some_iff.1 h
  rw [split]
  exact List.mem_append_right _ List.mem_cons_self

/-- **A pool that is not full has room**, and one that is full is emptied. -/
theorem room_eq (p : Pool α) : p.room = if p.size < capacity then p else empty := by
  rw [room]
  by_cases free : p.size < capacity
  · rw [if_pos free, if_neg (Nat.not_le.2 free)]
  · rw [if_neg free, if_pos (Nat.not_lt.1 free)]

/-- **Where room was made, there is room.** -/
theorem size_room_lt (p : Pool α) : p.room.size < capacity := by
  rw [room_eq]
  split
  · assumption
  · exact Nat.zero_lt_succ _

/-- **Making room adds nothing.** -/
theorem mem_of_mem_room {p : Pool α} {t : String} (kept : t ∈ p.room.texts) : t ∈ p.texts := by
  rw [room_eq] at kept
  split at kept
  · exact kept
  · exact absurd kept List.not_mem_nil

/-! ## One text -/

/-- **The answer for a text without a pool**: what it is compiled to, or that it is no query. -/
def compileAfresh (text : String) : Except QueryError α :=
  match compile? text with
  | some q => .ok q
  | none => .error .invalid

/-- **What comes of asking for a text**: it is kept and the pool stays, or it is new and cannot be
compiled, or it is new and put into the room that is made for it. -/
theorem fetch_cases (p : Pool α) (text : String) :
    (∃ q, p.get? text = some q ∧ p.fetch compile? text = (.ok q, p))
      ∨ (text ∉ p.texts ∧ compile? text = none
        ∧ p.fetch compile? text = (.error .invalid, p.room))
      ∨ ∃ q, text ∉ p.texts ∧ compile? text = some q
        ∧ p.fetch compile? text = (.ok q, ⟨(text, q) :: p.room.entries⟩) := by
  cases found : p.get? text with
  | some q => exact .inl ⟨q, rfl, by rw [fetch, found]⟩
  | none =>
      have new := get?_eq_none_iff.1 found
      cases compiled : compile? text with
      | none => exact .inr (.inl ⟨new, rfl, by rw [fetch, found, compiled]⟩)
      | some q => exact .inr (.inr ⟨q, new, rfl, by rw [fetch, found, compiled]⟩)

variable {compile?}

/-- **There is an answer** exactly if the text can be compiled. -/
theorem compileAfresh_eq_ok_iff {text : String} {q : α} :
    compileAfresh compile? text = .ok q ↔ compile? text = some q := by
  rw [compileAfresh]
  cases compile? text <;> simp

/-- **Only the text that is asked for comes to those that are kept.** -/
theorem mem_texts_fetch {p : Pool α} {text t : String}
    (kept : t ∈ (p.fetch compile? text).2.texts) : t ∈ p.texts ∨ t = text := by
  rcases fetch_cases compile? p text with
    ⟨q, -, outcome⟩ | ⟨-, -, outcome⟩ | ⟨q, -, -, outcome⟩ <;> rw [outcome] at kept
  · exact .inl kept
  · exact .inl (mem_of_mem_room kept)
  · exact (List.mem_cons.1 kept).symm.imp_left mem_of_mem_room

/-! ## Pools as they are found -/

/-- **A pool is sound**: it keeps what its texts stand for, each once, and not too many of them. -/
structure Sound (compile? : String → Option α) (p : Pool α) : Prop where
  /-- Each entry is what its text is compiled to. -/
  faithful : ∀ x ∈ p.entries, compile? x.1 = some x.2
  /-- No text is kept twice. -/
  distinct : p.texts.Nodup
  /-- There are no more entries than there may be. -/
  bounded : p.size ≤ capacity

namespace Sound

variable {p : Pool α}

/-- **The empty pool is sound.** -/
theorem empty : Sound compile? (empty : Pool α) :=
  ⟨fun _ h => absurd h List.not_mem_nil, .nil, Nat.zero_le _⟩

/-- **What is found under a text is what it is compiled to.** -/
theorem compiled (h : Sound compile? p) {text : String} {q : α} (kept : p.get? text = some q) :
    compile? text = some q := h.faithful _ (mem_of_get? kept)

/-- **A text that is kept can be compiled.** -/
theorem ne_none (h : Sound compile? p) {text : String} (mem : text ∈ p.texts) :
    compile? text ≠ none := by
  obtain ⟨x, entry, rfl⟩ := List.mem_map.1 mem
  rw [h.faithful x entry]
  exact Option.some_ne_none _

/-- **Making room keeps a pool sound.** -/
theorem room (h : Sound compile? p) : Sound compile? p.room := by
  rw [room_eq]
  split
  · exact h
  · exact empty

/-- **A sound pool stays sound**, whatever is asked of it. -/
theorem fetch (h : Sound compile? p) (text : String) :
    Sound compile? (p.fetch compile? text).2 := by
  rcases fetch_cases compile? p text with
    ⟨q, -, outcome⟩ | ⟨-, -, outcome⟩ | ⟨q, new, good, outcome⟩ <;> rw [outcome]
  · exact h
  · exact h.room
  · exact {
      faithful := List.forall_mem_cons.2 ⟨good, h.room.faithful⟩
      distinct := List.nodup_cons.2 ⟨mt mem_of_mem_room new, h.room.distinct⟩
      bounded := size_room_lt p }

/-- **A sound pool answers as if the text were compiled afresh.** -/
theorem answer (h : Sound compile? p) (text : String) :
    (p.fetch compile? text).1 = compileAfresh compile? text := by
  rcases fetch_cases compile? p text with
    ⟨q, kept, outcome⟩ | ⟨-, bad, outcome⟩ | ⟨q, -, good, outcome⟩ <;> rw [outcome, compileAfresh]
  · rw [h.compiled kept]
  · rw [bad]
  · rw [good]

/-- **A text that can be compiled is kept afterwards.** -/
theorem get?_fetch (h : Sound compile? p) {text : String} {q : α} (good : compile? text = some q) :
    (p.fetch compile? text).2.get? text = some q := by
  rcases fetch_cases compile? p text with
    ⟨q', kept, outcome⟩ | ⟨-, bad, -⟩ | ⟨q', -, good', outcome⟩
  · rw [outcome, ← good, h.compiled kept]
    exact kept
  · rw [bad] at good
    cases good
  · rw [outcome, ← good, good']
    exact List.lookup_cons_self

/-- **A text that can be compiled takes one more place**, unless it has one; in a full pool it takes
the only one. -/
theorem size_fetch (h : Sound compile? p) {text : String} {q : α} (good : compile? text = some q) :
    (p.fetch compile? text).2.size
      = if text ∈ p.texts then p.size else if p.size = capacity then 1 else p.size + 1 := by
  rcases fetch_cases compile? p text with
    ⟨q', kept, outcome⟩ | ⟨-, bad, -⟩ | ⟨q', new, -, outcome⟩
  · have mem : text ∈ p.texts := List.mem_map.2 ⟨_, mem_of_get? kept, rfl⟩
    rw [outcome, if_pos mem]
  · rw [bad] at good
    cases good
  · rw [outcome, if_neg new]
    have bounded := h.bounded
    show p.room.size + 1 = _
    rw [room_eq]
    split
    · rw [if_neg (by omega)]
    · rw [if_pos (by omega)]
      rfl

/-- **A text that cannot be compiled leaves the pool as it was, or empty** if it was full. -/
theorem fetch_refused (h : Sound compile? p) {text : String} (bad : compile? text = none) :
    p.fetch compile? text
      = (.error .invalid, if p.size < capacity then p else Pool.empty) := by
  rcases fetch_cases compile? p text with
    ⟨q, kept, -⟩ | ⟨-, -, outcome⟩ | ⟨q, -, good, -⟩
  · rw [h.compiled kept] at bad
    cases bad
  · rw [outcome, room_eq]
  · rw [good] at bad
    cases bad

end Sound

/-! ## One text after the other -/

variable (compile?)

/-- **The pool that is left** when texts have been asked for one after the other, beginning with the
empty pool. -/
def after (asked : List String) : Pool α :=
  asked.foldl (fun p text => (p.fetch compile? text).2) empty

/-- **The last text is asked of the pool that the others left.** -/
theorem after_concat (asked : List String) (text : String) :
    after compile? (asked ++ [text]) = ((after compile? asked).fetch compile? text).2 :=
  List.foldl_append

/-- **A pool is sound whatever has been asked of it.** -/
theorem sound_after (asked : List String) : Sound compile? (after compile? asked) := by
  induction asked using List.reverseRecOn with
  | nil => exact .empty
  | append_singleton asked text ih =>
      rw [after_concat]
      exact ih.fetch text

/-- **Only what has been asked for is kept.** -/
theorem mem_of_mem_after {asked : List String} {t : String}
    (kept : t ∈ (after compile? asked).texts) : t ∈ asked := by
  induction asked using List.reverseRecOn with
  | nil => exact kept
  | append_singleton asked text ih =>
      rw [after_concat] at kept
      rcases mem_texts_fetch kept with before | rfl
      · exact List.mem_append_left _ (ih before)
      · exact List.mem_append_right _ (List.mem_singleton_self _)

/-- **Different texts fill the pool**, as long as there is room for all of them. -/
theorem size_after {asked : List String} (different : asked.Nodup)
    (good : ∀ text ∈ asked, compile? text ≠ none) (few : asked.length ≤ capacity) :
    (after compile? asked).size = asked.length := by
  induction asked using List.reverseRecOn with
  | nil => rfl
  | append_singleton asked text ih =>
      rw [List.length_append, List.length_singleton] at few ⊢
      obtain ⟨different, -, apart⟩ := List.nodup_append.1 different
      have filled := ih different (fun t h => good t (List.mem_append_left _ h)) (by omega)
      have new : text ∉ (after compile? asked).texts := fun kept =>
        apart _ (mem_of_mem_after compile? kept) _ (List.mem_singleton_self _) rfl
      obtain ⟨q, compiled⟩ := Option.ne_none_iff_exists'.1
        (good text (List.mem_append_right _ (List.mem_singleton_self _)))
      rw [after_concat, (sound_after compile? asked).size_fetch compiled, if_neg new, filled,
        if_neg (by omega)]

/-! ## What a pool answers, and what it costs -/

/-- **A pool is transparent and bounded.** Whatever has been asked of it before, it keeps at most 32
different texts, all of which can be compiled. It answers a text as if it were compiled afresh. If
there is an answer, it is kept from then on, and there is as much as before if it was kept before;
else there is one more, or nothing else if the pool was full. -/
theorem fetch_transparent (asked : List String) (text : String) :
    ((after compile? asked).size ≤ 32 ∧ (after compile? asked).texts.Nodup
        ∧ ∀ t ∈ (after compile? asked).texts, compile? t ≠ none)
      ∧ (after compile? asked).fetch compile? text
        = (compileAfresh compile? text, after compile? (asked ++ [text]))
      ∧ ∀ q, compileAfresh compile? text = .ok q →
          (after compile? (asked ++ [text])).get? text = some q
            ∧ (after compile? (asked ++ [text])).size
              = if text ∈ (after compile? asked).texts then (after compile? asked).size
                else if (after compile? asked).size = 32 then 1
                else (after compile? asked).size + 1 := by
  have sound : Sound compile? (after compile? asked) := sound_after compile? asked
  have last := after_concat compile? asked text
  refine ⟨⟨sound.bounded, sound.distinct, fun _ => sound.ne_none⟩,
    Prod.ext (sound.answer text) last.symm, fun q answered => ?_⟩
  have good : compile? text = some q := compileAfresh_eq_ok_iff.1 answered
  rw [last]
  exact ⟨sound.get?_fetch good, sound.size_fetch good⟩

/-- **A text that cannot be compiled empties a full pool**, and leaves all that is kept in the pool
exactly if it is not full. -/
theorem refused_keeps_iff (asked : List String) {text : String} (bad : compile? text = none) :
    let p := after compile? asked
    let next := (p.fetch compile? text).2
    (p.fetch compile? text).1 = .error .invalid
      ∧ next = (if p.size < 32 then p else empty)
      ∧ ((∀ t, next.get? t = p.get? t) ↔ p.size < 32) := by
  intro p next
  have sound : Sound compile? p := sound_after compile? asked
  have outcome : p.fetch compile? text = (.error .invalid, if p.size < 32 then p else empty) :=
    sound.fetch_refused bad
  refine ⟨congrArg Prod.fst outcome, congrArg Prod.snd outcome, ?_⟩
  show (∀ t, (p.fetch compile? text).2.get? t = p.get? t) ↔ _
  rw [outcome]
  split
  case isTrue free => exact iff_of_true (fun _ => rfl) free
  case isFalse full =>
    refine iff_of_false (fun same => ?_) full
    -- A full pool keeps some text, and the empty one does not.
    obtain ⟨t, mem⟩ : ∃ t, t ∈ p.texts := by
      refine List.exists_mem_of_length_pos ?_
      rw [length_texts]
      omega
    exact get?_eq_none_iff.1 ((same t).symm.trans rfl) mem

/-- **A text of blanks**, which is the query for nothing. -/
def blank (n : Nat) : String := String.ofList (List.replicate n ' ')

/-- **A text of blanks can be compiled**, and looks for nothing. -/
theorem compile?_blank (n : Nat) : Query.compile? (blank n) = some ⟨[], []⟩ := by
  have none_read : Query.words (List.replicate n ' ') = [] := by
    induction n with
    | zero => rw [List.replicate_zero, Query.words]
    | succ n ih =>
        rw [List.replicate_succ, Query.words]
        exact ih
  rw [Query.compile?, blank, String.toList_ofList, none_read]
  rfl

/-- **Different numbers of blanks are different texts.** -/
theorem blank_injective : Function.Injective blank := fun m n same => by
  simpa [blank] using congrArg String.length same

/-- For instance, the queries of none to 31 blanks fill the pool, and an open parenthesis, which is
no query, empties it. -/
theorem refused_keeps_iff_full :
    Query.compile? "(" = none
      ∧ (after Query.compile? ((List.range 32).map blank)).size = 32
      ∧ ((after Query.compile? ((List.range 32).map blank)).fetch Query.compile? "(").2 = empty := by
  have bad : Query.compile? "(" = none := by decide +kernel
  have full : (after Query.compile? ((List.range 32).map blank)).size = 32 :=
    size_after Query.compile? (List.Nodup.map blank_injective List.nodup_range)
      (List.forall_mem_map.2 fun n _ => by rw [compile?_blank]; exact Option.some_ne_none _)
      (by decide)
  have emptied := (refused_keeps_iff Query.compile? ((List.range 32).map blank) bad).2.1
  rw [full] at emptied
  exact ⟨bad, full, emptied⟩

end Seams.Pool
