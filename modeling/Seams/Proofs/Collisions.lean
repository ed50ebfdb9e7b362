import Mathlib.Data.List.Induction
import Mathlib.Data.List.Nodup
import Mathlib.Data.List.Sort
import Mathlib.Tactic.Common
import Seams.Proofs.BuiltIn

/-! # Edits for one token
The edits of all patchers of a pipeline go into one set, those of the first patcher first. The first
edit whose token is taken ends the run: the error names the token, whose edit was there, and whose
edit came. So no two edits are merged, be they of one patcher or of two. If all edits are for
different tokens, the set has each of them once, and what is written is what reassembly makes of it.
Main definitions:
* **`Edit.FirstMeeting`** — the first edit of a list whose token is taken, and the edit that has it;
* **`Patcher.claiming`** — the patcher that replaces all tokens with a given text. -/

namespace Seams

/-! ## The first edit whose token is taken -/

namespace Edit

/-- **The first edit whose token is taken**, by an earlier one. The edits before it are for
different tokens. -/
def FirstMeeting (edits : List Edit) (earlier incoming : Edit) : Prop :=
  ∃ before after, edits = before ++ incoming :: after ∧ (before.map position).Nodup
    ∧ earlier ∈ before ∧ earlier.position = incoming.position

/-- **The first edit whose token is taken stays the first one** if others come behind it. -/
theorem FirstMeeting.append {edits : List Edit} {d e : Edit} (h : FirstMeeting edits d e)
    (others : List Edit) : FirstMeeting (edits ++ others) d e := by
  obtain ⟨before, after, rfl, apart, mem, same⟩ := h
  exact ⟨before, after ++ others, by rw [List.append_assoc, List.cons_append], apart, mem, same⟩

/-- **There is a first edit whose token is taken** exactly if two edits are for one token. -/
theorem exists_firstMeeting_iff {edits : List Edit} :
    (∃ d e, FirstMeeting edits d e) ↔ ¬ (edits.map position).Nodup := by
  constructor
  · rintro ⟨d, e, before, after, rfl, -, mem, same⟩ apart
    rw [List.map_append, List.nodup_append] at apart
    exact apart.2.2 d.position (List.mem_map.2 ⟨d, mem, rfl⟩) e.position
      (List.mem_map.2 ⟨e, List.mem_cons_self, rfl⟩) same
  · -- From the front on: the first edit that spoils the rest is the one.
    induction edits using List.reverseRecOn with
    | nil => exact fun h => absurd List.nodup_nil h
    | append_singleton edits e ih =>
        intro h
        by_cases apart : (edits.map position).Nodup
        · have taken : e.position ∈ edits.map position := by
            by_contra free
            refine h ?_
            rw [List.map_append, List.nodup_append]
            refine ⟨apart, List.nodup_singleton _, fun n mem m mem' eq => ?_⟩
            rw [List.map_singleton, List.mem_singleton] at mem'
            rw [eq, mem'] at mem
            exact free mem
          obtain ⟨d, mem, same⟩ := List.mem_map.1 taken
          exact ⟨d, e, edits, [], rfl, apart, mem, same⟩
        · obtain ⟨d, e', meets⟩ := ih apart
          exact ⟨d, e', meets.append [e]⟩

end Edit

/-! ## Sets that take edits -/

namespace EditSet

/-- **Sets with the same edits are equal**, as edits ascend. -/
theorem eq_of_perm {s t : EditSet} (perm : s.toList.Perm t.toList) : s = t := by
  obtain ⟨ds, ascending⟩ := s
  obtain ⟨es, ascending'⟩ := t
  have same : ds = es := perm.eq_of_pairwise
    (fun a b _ _ lt lt' => absurd lt (Nat.lt_asymm lt')) ascending ascending'
  subst same
  rfl

/-- **No two edits of a set are for one token.** -/
theorem positions_nodup (s : EditSet) : (s.toList.map Edit.position).Nodup :=
  List.pairwise_map.2 (s.ascending.imp Nat.ne_of_lt)

/-- **The edit at a position is the one that is for it.** -/
theorem get?_eq_some_iff {s : EditSet} {n : Nat} {d : Edit} :
    s.get? n = some d ↔ d ∈ s.toList ∧ d.position = n := by
  rw [get?, find?_eq_some_iff, beq_iff_eq]
  constructor
  · rintro ⟨mem, here, -⟩
    exact ⟨mem, here⟩
  · rintro ⟨mem, rfl⟩
    exact ⟨mem, rfl, fun e _ same => Nat.le_of_eq (beq_iff_eq.1 same).symm⟩

/-- **An edit is refused if its token is taken.** -/
theorem insert_of_taken {s : EditSet} {d e : Edit} (mem : d ∈ s.toList)
    (same : d.position = e.position) :
    s.insert e = .error (.collision e.position d.patcher e.patcher) := by
  have there : s.get? e.position = some d := get?_eq_some_iff.2 ⟨mem, same⟩
  unfold insert
  split
  · rename_i there'
    rw [there, Option.some.injEq] at there'
    rw [there']
  · rename_i free
    rw [there] at free
    cases free

/-- **An edit that is added is there**, and so are the others. -/
theorem perm_of_insert {s s' : EditSet} {e : Edit} (h : s.insert e = .ok s') :
    s'.toList.Perm (e :: s.toList) := by
  unfold insert at h
  split at h
  · cases h
  · cases h
    exact e.place_perm s.toList

/-- **Edits are added exactly if there is a set of all of them**, and of those that were there. -/
theorem insertAll_eq_ok_iff {s s' : EditSet} {es : List Edit} :
    s.insertAll es = .ok s' ↔ s'.toList.Perm (es ++ s.toList) := by
  constructor
  · intro added
    induction es generalizing s with
    | nil =>
        cases added
        exact .refl _
    | cons e es ih =>
        rw [insertAll] at added
        split at added
        · cases added
        · rename_i inserted
          exact ((ih added).trans ((perm_of_insert inserted).append_left es)).trans
            List.perm_middle
  · intro perm
    obtain ⟨t, added, perm'⟩ :=
      s.insertAll_of_nodup es ((perm.map Edit.position).nodup_iff.1 s'.positions_nodup)
    rw [added, eq_of_perm (perm'.trans perm.symm)]

/-- **The first edit whose token is taken is refused**, and none is added after it. -/
theorem insertAll_of_firstMeeting {es : List Edit} {d e : Edit}
    (meets : Edit.FirstMeeting es d e) :
    empty.insertAll es = .error (.collision e.position d.patcher e.patcher) := by
  obtain ⟨before, after, rfl, apart, mem, same⟩ := meets
  obtain ⟨s, added, perm⟩ := empty.insertAll_of_nodup before (by rwa [empty, List.append_nil])
  have there : d ∈ s.toList := perm.mem_iff.2 (List.mem_append_left _ mem)
  rw [insertAll_append, added]
  show s.insertAll (e :: after) = _
  rw [insertAll, insert_of_taken there same]

end EditSet

/-! ## Pipelines whose patchers propose edits -/

/-- **A source that fits the grammar is rewritten as its script.** -/
theorem Pipeline.run_of_parse {source : Bytes} {s : Script} (parsed : Script.parse source = .ok s)
    {p : Pipeline} (listed : p.patchers ≠ []) : p.run source = p.runOn s := by
  have some_patcher : p.patchers.isEmpty = false := by
    rwa [Bool.eq_false_iff, Ne, List.isEmpty_iff]
  rw [run, some_patcher, parsed]
  rfl

/-- **What becomes of a set of edits** if nothing is validated: without edits the source comes back,
and else it is reassembled. -/
theorem Pipeline.runOn_of_collected {patchers : List Patcher} {s : Script} {edits : EditSet}
    (collected : s.collectAll patchers .empty = .ok edits) :
    (⟨patchers, false⟩ : Pipeline).runOn s
      = if edits.isEmpty then .ok (.unchanged s.source)
        else ((s.tokens.reassemble edits).mapError .edit).map fun output =>
          ⟨output, true, edits.size⟩ := by
  simp only [runOn, collected, bind, Except.bind]
  split
  · rfl
  · cases s.tokens.reassemble edits with
    | error => rfl
    | ok output => rfl

/-- **The patcher that replaces all tokens with a given text.** -/
def Patcher.claiming (name : String) (text : Bytes) (replacement : String) : Patcher where
  name := name
  collect s edits := (edits.insertAll (claims s)).mapError .edit
where
  /-- The edits for these tokens. -/
  claims (s : Script) : List Edit :=
    (s.tokens.tokens.toList.zipIdx.filter fun x => s.tokens.textOf x.1 == text).map fun x =>
      ⟨x.2, .of text, replacement, name⟩

/-- **A patcher that replaces all tokens with a text proposes their edits.** -/
theorem Patcher.claiming_proposes (name : String) (text : Bytes) (replacement : String)
    (s : Script) : (claiming name text replacement).Proposes s
      (claiming.claims name text replacement s) :=
  fun _ => rfl

namespace Pipeline

variable {source : Bytes} {s : Script} {patchers : List Patcher} {proposed : Patcher → List Edit}

/-- **Edits that meet are never merged.** Let patchers propose edits for a source that fits the
grammar, and nothing be validated. If two of the edits are for one token, be they of one patcher or
of two, the pipeline fails: the error names the token of the first edit in the order of the list
whose token is taken, the patcher of the edit that is there, and the patcher of the one that comes.
Otherwise there is a set of all these edits, each of them once. Without edits the source comes back
as it is; else what is written is what reassembly makes of the set, and the number of edits is
theirs. -/
theorem run_collides_or_joins (parsed : Script.parse source = .ok s) (listed : patchers ≠ [])
    (proposes : ∀ p ∈ patchers, p.Proposes s (proposed p)) :
    (∀ d e, Edit.FirstMeeting (patchers.flatMap proposed) d e →
        (⟨patchers, false⟩ : Pipeline).run source
          = .error (.edit (.collision e.position d.patcher e.patcher)))
      ∧ ((∃ d e, Edit.FirstMeeting (patchers.flatMap proposed) d e)
        ↔ ¬ ((patchers.flatMap proposed).map Edit.position).Nodup)
      ∧ (((patchers.flatMap proposed).map Edit.position).Nodup →
        ∃ edits : EditSet, edits.toList.Perm (patchers.flatMap proposed)
          ∧ (⟨patchers, false⟩ : Pipeline).run source
            = if (patchers.flatMap proposed).isEmpty then .ok (.unchanged source)
              else ((s.tokens.reassemble edits).mapError .edit).map fun output =>
                ⟨output, true, (patchers.flatMap proposed).length⟩) := by
  have collected := Script.collectAll_of_proposes proposes .empty
  refine ⟨fun d e meets => ?_, Edit.exists_firstMeeting_iff, fun apart => ?_⟩
  · rw [run_of_parse parsed listed, runOn, collected, EditSet.insertAll_of_firstMeeting meets]
    rfl
  · obtain ⟨edits, added, perm⟩ := EditSet.insertAll_of_nodup .empty (patchers.flatMap proposed)
      (by rwa [EditSet.empty, List.append_nil])
    rw [EditSet.empty, List.append_nil] at perm
    have count : edits.size = (patchers.flatMap proposed).length := perm.length_eq
    have none_added : edits.isEmpty = (patchers.flatMap proposed).isEmpty := perm.isEmpty_eq
    rw [added] at collected
    refine ⟨edits, perm, ?_⟩
    rw [run_of_parse parsed listed, runOn_of_collected collected,
      (Redirect.parse_tokens parsed).1, none_added, count]

/-- **A source that calls `rand`.** -/
def randSource : Bytes := bytesOf "<?php rand();"

/-- **The script of this source.** -/
def randScript : Script := .withTree randSource (Node.ofSource randSource)

/-- **A patcher that replaces each token `rand`**, and the one that redirects calls of `rand`. -/
def randPatchers : List Patcher :=
  [.claiming "greedy" (bytesOf "rand") "four", Redirect.calls (.ofList ["rand"]) .empty]

/-- **What the two propose.** -/
def randProposals (p : Patcher) : List Edit :=
  if p.name = "greedy" then Patcher.claiming.claims "greedy" (bytesOf "rand") "four" randScript
  else Redirect.callEdits (.ofList ["rand"]) .empty randScript

/-- **The name of the call is claimed by both**, and the one that comes first has it. -/
theorem run_collides_rand : (⟨randPatchers, false⟩ : Pipeline).run randSource
    = .error (.edit (.collision 2 "greedy" "function")) := by
  have clean : (Node.ofSource randSource).Clean := by decide +kernel
  have lawful : (Node.ofSource randSource).Lawful randSource := by decide +kernel
  have parsed : Script.parse randSource = .ok randScript := Script.ofTree_of_clean clean
  have proposes : ∀ p ∈ randPatchers, p.Proposes randScript (randProposals p) := by
    intro p mem
    rcases List.mem_pair.1 mem with rfl | rfl
    · exact Patcher.claiming_proposes _ _ _ _
    · exact Redirect.calls_proposes _ _ lawful
  have all : randPatchers.flatMap randProposals
      = [⟨2, .of (bytesOf "rand"), "four", "greedy"⟩,
        ⟨2, .of (bytesOf "rand"), "\\__FuncProxy__::rand", "function"⟩] := by decide +kernel
  have listed : randPatchers ≠ [] := List.cons_ne_nil _ _
  obtain ⟨collides, -⟩ := run_collides_or_joins parsed listed proposes
  rw [all] at collides
  exact collides _ _ ⟨[_], [], rfl, List.nodup_singleton _, List.mem_singleton_self _, rfl⟩

end Pipeline

end Seams
